import SyntaxGraph.Proofs.Course.TranslationUnit
import SyntaxGraph.Proofs.Specifiers.Sources

/-!
# The qualifiers of specified types

A type that is made of words or of a name bears the qualifiers that stand among the
specifiers, wherever they stand.  A structure, union or enumeration is answered as it is,
so that all mentions of its tag share it: it keeps the qualifiers that it has, and those
among the specifiers leave no trace.
-/

set_option autoImplicit false

namespace SyntaxGraph.Grammar

open Token (Kind Keyword Punctuator)

variable {tokens : Tokens} {rules : Rules} {s s' t : State} {list final : SpecifierList}
  {items front back : List Specifier} {item : Specifier} {type : TypeId} {kind : TypeKind}

/-! ## Qualifiers among the specifiers -/

namespace SpecifierList

theorem qualifiers_take? (list : SpecifierList) (item : Specifier) (next : SpecifierList)
    (taken : list.take? item = some next) :
    next.qualifiers =
      ⟨list.qualifiers.isConst || decide (item = .word .constKw),
        list.qualifiers.isVolatile || decide (item = .word .volatileKw)⟩ := by
  cases item with
  | word keyword =>
      rw [(take?_word taken).2.2.2]
      cases keyword <;> simp [qualifiedBy?]
  | name _ | tagged _ _ =>
      obtain ⟨-, -, ⟨_, -, rfl⟩ | ⟨_, _, -, rfl⟩⟩ := take?_of_namesType rfl taken <;> simp

theorem isConst_of_take? (taken : items.foldlM take? {} = some final) :
    final.qualifiers.isConst = true ↔ .word .constKw ∈ items := by
  have marked := any_of_take? (fun list => list.qualifiers.isConst)
    (fun list item next taken =>
      congrArg Qualifiers.isConst (qualifiers_take? list item next taken)) taken
  dsimp only at marked
  rw [marked]
  simp [Qualifiers.none]

theorem isVolatile_of_take? (taken : items.foldlM take? {} = some final) :
    final.qualifiers.isVolatile = true ↔ .word .volatileKw ∈ items := by
  have marked := any_of_take? (fun list => list.qualifiers.isVolatile)
    (fun list item next taken =>
      congrArg Qualifiers.isVolatile (qualifiers_take? list item next taken)) taken
  dsimp only at marked
  rw [marked]
  simp [Qualifiers.none]

end SpecifierList

/-! ## Words change no node -/

theorem Specified.append (specified : Specified tokens rules s (front ++ back) t) :
    ∃ middle, Specified tokens rules s front middle ∧ Specified tokens rules middle back t := by
  induction front generalizing s with
  | nil => exact ⟨s, .done s, specified⟩
  | cons item front ih =>
      cases specified with
      | next first rest =>
          obtain ⟨middle, earlier, later⟩ := ih rest
          exact ⟨middle, .next first earlier, later⟩

theorem Specified.arenas_of_unnamed (specified : Specified tokens rules s items t)
    (none : items.countP Specifier.namesType = 0) : t.arenas = s.arenas := by
  induction specified with
  | done => rfl
  | next first rest ih =>
      rw [List.countP_cons, Nat.add_eq_zero_iff] at none
      rw [ih none.1]
      cases first with
      | word => rfl
      | name | tagged => simp [Specifier.namesType] at none

/-! ## The qualifiers of a tagged type -/

/-- The qualifiers of a type, if there is the type. -/
def State.typeQualifiers? (s : State) (id : TypeId) : Option Qualifiers :=
  (s.arenas.type? id).map TypeNode.qualifiers

/-- The later state has the type, with the qualifiers that it has in the earlier one if it is
there already, and with none otherwise. -/
def State.Unqualified (s t : State) (id : TypeId) : Prop :=
  t.typeQualifiers? id = some ((s.typeQualifiers? id).getD .none)

theorem State.Unqualified.refl (known : s.typeKind? type = some kind) : s.Unqualified s type := by
  obtain ⟨node, found, -⟩ := Option.map_eq_some_iff.mp known
  simp only [Unqualified, typeQualifiers?, found, Option.map_some, Option.getD_some]

theorem State.Unqualified.course {u : State} (unqualified : s.Unqualified t type)
    (course : Course t u) : s.Unqualified u type :=
  course.type?_map (fun _ _ => rfl) unqualified

theorem declareTagged_unqualified {tag : Option String} {start : Location}
    (run : declareTagged kind tag start tokens s = .ok type t) : s.Unqualified t type := by
  obtain ⟨span, arenas, rfl, -⟩ := declareTagged_ok run
  have missing : s.typeQualifiers? (s.arenas.addType (.tagged kind tag [] span)).1 = none := by
    simp [State.typeQualifiers?, Arenas.type?, Arenas.addType]
  rw [State.Unqualified, missing, State.typeQualifiers?, arenas, Arenas.type?_addType_self]
  rfl

theorem taggedReference_unqualified {tag : Option String} {start : Location}
    (run : taggedReference kind tag start tokens s = .ok type t) : s.Unqualified t type := by
  cases tag with
  | none => cases run
  | some tag =>
      obtain ⟨declares, middle, looked, rest⟩ := bind_ok run
      obtain ⟨-, rfl, -⟩ := at?_ok looked
      obtain ⟨scopes, middle, looked, rest⟩ := bind_ok rest
      obtain ⟨rfl, rfl⟩ := scopes_ok looked
      cases found : if declares then middle.scopes.innerTag? tag
          else middle.scopes.findTag? tag with
      | some id =>
          rw [found] at rest
          obtain ⟨_, checked, kinds, answers⟩ := bind_ok rest
          obtain ⟨known, rfl⟩ := checkTagKind_ok kinds
          obtain ⟨rfl, rfl⟩ := pure_ok answers
          exact .refl known
      | none =>
          rw [found] at rest
          exact declareTagged_unqualified rest

theorem taggedOwner_unqualified {tag : Option String} {start : Location}
    (run : taggedOwner kind tag start tokens s = .ok type t) : s.Unqualified t type := by
  obtain ⟨-, rfl, node, found, same, -⟩ | declares := taggedOwner_ok run
  · exact .refl (Option.map_eq_some_iff.mpr ⟨node, found, same⟩)
  · exact declareTagged_unqualified declares

theorem taggedSpecifier_unqualified (follow : rules.PartsFollow Course)
    (tagged : kind.isTagged = true)
    (run : taggedSpecifier rules kind tokens s = .ok type t) : s.Unqualified t type := by
  obtain ⟨start, rest⟩ := look_then here_observes run
  obtain ⟨_, advanced, moved, rest⟩ := bind_ok rest
  obtain ⟨tag, named, reads, rest⟩ := bind_ok rest
  obtain ⟨opens, middle, looked, rest⟩ := bind_ok rest
  obtain ⟨-, rfl, -⟩ := at?_ok looked
  have same : middle.arenas = s.arenas :=
    (identifier?_arenas reads).trans (advance_arenas moved)
  have kept : s.Unqualified t type ↔ middle.Unqualified t type := by
    simp only [State.Unqualified, State.typeQualifiers?, same]
  rw [kept]
  cases opens with
  | false => exact taggedReference_unqualified rest
  | true =>
      obtain ⟨owner, owned, owns, body⟩ := bind_ok rest
      obtain ⟨rfl, course⟩ := taggedBody_ok follow (taggedOwner_bare tagged owns) body
      exact (taggedOwner_unqualified owns).course course

/-! ## The qualifiers of the specifiers -/

/-- Among specifiers that are accepted nothing but a tagged type changes a node. -/
theorem Specified.unqualified (follow : rules.PartsFollow Course)
    (specified : Specified tokens rules s items t)
    (taken : items.foldlM SpecifierList.take? {} = some final)
    (member : .tagged kind type ∈ items) : s.Unqualified t type ∧ final.tagged = some type := by
  obtain ⟨front, back, rfl⟩ := List.append_of_mem member
  obtain ⟨-, one, ⟨_, same, -⟩ | ⟨_, _, same, tagged⟩⟩ :=
    SpecifierList.of_take?_named rfl taken
  · cases same
  cases same
  rw [List.countP_append, List.countP_cons_of_pos rfl] at one
  obtain ⟨middle, earlier, rest⟩ := specified.append
  cases rest with
  | next first later =>
      cases first with
      | tagged there names run =>
          have inside := taggedSpecifier_unqualified follow (tagKind?_isTagged names) run
          rw [State.Unqualified, State.typeQualifiers?, State.typeQualifiers?,
            earlier.arenas_of_unnamed (by omega)] at inside
          rw [State.Unqualified, State.typeQualifiers?, State.typeQualifiers?,
            later.arenas_of_unnamed (by omega)]
          exact ⟨inside, tagged⟩

/-- Specifiers without a tagged type give a type with exactly the qualifiers that stand among
them; a tagged type has the qualifiers that it has had before, if it has been there, and
otherwise none. -/
theorem specifiers_qualifiers {depth : Nat} {value : Specifiers}
    (run : specifiers (Rules.nested depth) tokens s = .ok value s') :
    ∃ items t, Specified tokens (Rules.nested depth) s items t ∧ s'.position = t.position ∧
      ∃ node, s'.arenas.type? value.type = some node ∧
        ((∀ kind type, .tagged kind type ∉ items) →
          (node.qualifiers.isConst = true ↔ .word .constKw ∈ items) ∧
          (node.qualifiers.isVolatile = true ↔ .word .volatileKw ∈ items)) ∧
        ∀ kind type, .tagged kind type ∈ items → value.type = type ∧
          node.qualifiers = ((s.arenas.type? type).map TypeNode.qualifiers).getD .none := by
  obtain ⟨items, t, list, span, specified, taken, types, -, -⟩ := specifiers_ok run
  have unqualified {kind : TypeKind} {type : TypeId} (member : .tagged kind type ∈ items) :=
    specified.unqualified (Rules.nested_parts depth) taken member
  refine ⟨items, t, specified, specifiedType_position types, ?_⟩
  obtain ⟨tagged, rfl⟩ | ⟨untagged, node, rfl, same, qualifiers, -⟩ := specifiedType_ok types
  · obtain ⟨kind, member⟩ := SpecifierList.mem_of_tagged taken tagged
    obtain ⟨node, found, kept⟩ := Option.map_eq_some_iff.mp (unqualified member).1
    refine ⟨node, found, fun none => absurd member (none kind _), fun kind type other => ?_⟩
    obtain rfl : value.type = type :=
      Option.some.inj (tagged.symm.trans (unqualified other).2)
    exact ⟨rfl, kept⟩
  · refine ⟨node, ?_, fun _ => ?_, fun kind type member => ?_⟩
    · rw [same]
      exact Arenas.type?_addType_self _ _
    · rw [qualifiers]
      exact ⟨SpecifierList.isConst_of_take? taken, SpecifierList.isVolatile_of_take? taken⟩
    · cases untagged.symm.trans (unqualified member).2

end SyntaxGraph.Grammar

namespace SyntaxGraph.Program

open Grammar
open Token (Reading)

/-- A qualifier stands in front of a structure. -/
def qualifiedRecordSource : String := "const struct S \x7b int a; \x7d x;"

def qualifiedRecordTokens : Tokens := (Reading.ofSource qualifiedRecordSource).tokens.toArray

theorem specifiers_qualifiers_qualifiedRecordSource :
    ∃ value s', specifiers (Rules.nested 11) qualifiedRecordTokens {} = .ok value s' ∧
      ∃ items t, Specified qualifiedRecordTokens (Rules.nested 11) {} items t ∧
        s'.position = t.position ∧ ∃ node, s'.arenas.type? value.type = some node ∧
        ((∀ kind type, .tagged kind type ∉ items) →
          (node.qualifiers.isConst = true ↔ .word .constKw ∈ items) ∧
          (node.qualifiers.isVolatile = true ↔ .word .volatileKw ∈ items)) ∧
        ∀ kind type, .tagged kind type ∈ items →
          value.type = type ∧ node.qualifiers = .none := by
  have ended : seenAtEnd? (fun _ s => s.position)
      (specifiers (Rules.nested 11) qualifiedRecordTokens {}) = some 8 := by
    decide +kernel
  obtain ⟨value, s', run, -⟩ := ok_of_seenAtEnd? ended
  exact ⟨value, s', run, specifiers_qualifiers run⟩

/-- The source is read, and the qualifier is dropped. -/
theorem qualifiedRecordSource_read :
    (∃ p, read "t.c" qualifiedRecordSource = .ok p) ∧
      ∃ value s' items t node,
        specifiers (Rules.nested 11) qualifiedRecordTokens {} = .ok value s' ∧
        Specified qualifiedRecordTokens (Rules.nested 11) {} items t ∧
        s'.position = t.position ∧ s'.arenas.type? value.type = some node ∧
        .word .constKw ∈ items ∧ node.qualifiers.isConst = false := by
  have parsed : (read "t.c" qualifiedRecordSource).toOption.map (·.decls.length) = some 1 := by
    decide +kernel
  have record : seenAtEnd? (fun _ s => s.position)
      (taggedSpecifier (Rules.nested 11) .struct qualifiedRecordTokens { position := 1 }) =
        some 8 := by
    decide +kernel
  have ended : seenAtEnd? (fun value s => (s.position,
        (s.arenas.type? value.type).map (·.qualifiers.isConst)))
      (specifiers (Rules.nested 11) qualifiedRecordTokens {}) = some (8, some false) := by
    decide +kernel
  have first : qualifiedRecordTokens.kind 0 = .keyword .constKw := by decide +kernel
  have behind : qualifiedRecordTokens.kind 1 = .keyword .structKw := by decide +kernel
  obtain ⟨p, reads, -⟩ := exists_read_of_map parsed
  obtain ⟨type, t, tagged, place⟩ := ok_of_seenAtEnd? record
  obtain ⟨value, s', run, last⟩ := ok_of_seenAtEnd? ended
  obtain ⟨last, dropped⟩ := Prod.mk.inj last
  obtain ⟨node, found, unmarked⟩ := Option.map_eq_some_iff.mp dropped
  refine ⟨⟨p, reads⟩, value, s', [.word .constKw, .tagged .struct type], t, node, run, ?_,
    last.trans place.symm, found, List.mem_cons_self, unmarked⟩
  exact .next (.word first rfl) (.next (.tagged behind rfl tagged) (.done _))

end SyntaxGraph.Program
