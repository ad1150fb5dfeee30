import SyntaxGraph.Proofs.Emission.Routing
import SyntaxGraph.Proofs.Lists

/-!
# Directives

A replacement or a deletion acts on the declarations whose name it equals as it stands or in
lower case, and on no others.  The directives that are reported as unused are those that act
on no top-level declaration, so without them a program is emitted as it is with them.
-/

set_option autoImplicit false

namespace SyntaxGraph

namespace Emission

variable {config : Config} {render : Renderer} {p : Program} {names : List String}
  {name : String}

/-! ## Settings without some directives -/

namespace Config

/-- The settings without the replacements and deletions of the given names. -/
def without (config : Config) (names : List String) : Config :=
  { config with
    replace := config.replace.filter fun entry => entry.1 ∉ names
    delete := config.delete.filter (· ∉ names) }

/-- There is a replacement or a deletion of the name. -/
def Directs (config : Config) (name : String) : Prop :=
  name ∈ config.replace.map Prod.fst ∨ name ∈ config.delete

theorem contains_without {other : String} (kept : other ∉ names) :
    (config.without names).delete.contains other = config.delete.contains other := by
  rw [Bool.eq_iff_iff, List.contains_iff_mem, List.contains_iff_mem, without, List.mem_filter]
  simp [kept]

theorem find?_filter (kept : name ∉ names) (keptLower : Text.lowercase name ∉ names) :
    find? (config.without names).replace name = find? config.replace name := by
  have keeps {key : String} (kept : key ∉ names) :
      (config.without names).replace.lookup key = config.replace.lookup key :=
    lookup_filter_of_kept (· ∉ names) (decide_eq_true kept) config.replace
  rw [find?, find?, keeps kept, keeps keptLower]

theorem replacement?_without (kept : name ∉ names) (keptLower : Text.lowercase name ∉ names) :
    (config.without names).replacement? name = config.replacement? name := by
  rw [replacement?, replacement?, deletes, deletes, contains_without kept,
    contains_without keptLower, find?_filter kept keptLower]

end Config

theorem item_without (id : DeclId) {decl : Decl} (kept : decl.name ∉ names)
    (keptLower : Text.lowercase decl.name ∉ names) :
    item (config.without names) render p id decl = item config render p id decl := by
  rw [item, item, Config.replacement?_without kept keptLower]

/-! ## Unused directives -/

/-- The directive acts on a top-level declaration. -/
def Matches (p : Program) (name : String) : Prop :=
  ∃ id ∈ p.decls, ∃ decl, p.decl? id = some decl ∧
    (name = decl.name ∨ name = Text.lowercase decl.name)

theorem matchedNames_ok (there : ∀ id ∈ p.decls, ∃ decl, p.decl? id = some decl) :
    ∃ names, matchedNames p = .ok names ∧ ∀ name, name ∈ names ↔ Matches p name := by
  let both (id : DeclId) : List String :=
    (p.decl? id).elim [] fun decl => [decl.name, Text.lowercase decl.name]
  have matched : matchedNames p = .ok (p.decls.map both).flatten := by
    refine congrArg (List.flatten <$> ·) (@mapM_ok _ _ _ _ both _ fun id member => ?_)
    obtain ⟨decl, found⟩ := there id member
    simp only [both, found, Option.elim_some]
  refine ⟨_, matched, fun name => ?_⟩
  rw [← List.flatMap_def, List.mem_flatMap]
  refine exists_congr fun id => and_congr_right fun member => ?_
  obtain ⟨decl, found⟩ := there id member
  simp [both, found]

theorem there_of_matchedNames (matched : matchedNames p = .ok names) :
    ∀ id ∈ p.decls, ∃ decl, p.decl? id = some decl := by
  intro id member
  rw [matchedNames] at matched
  obtain ⟨lists, all, -⟩ := map_eq_ok matched
  obtain ⟨both, run⟩ := exists_of_mapM_ok all id member
  cases found : p.decl? id with
  | some decl => exact ⟨decl, rfl⟩
  | none =>
      rw [found] at run
      cases run

/-- The report is there if the top-level declarations are. -/
theorem unusedDirectives_ok (config : Config)
    (there : ∀ id ∈ p.decls, ∃ decl, p.decl? id = some decl) :
    ∃ names, unusedDirectives config p = .ok names ∧ names.Pairwise (· < ·) ∧
      ∀ name, name ∈ names ↔ config.Directs name ∧ ¬Matches p name := by
  obtain ⟨matched, run, named⟩ := matchedNames_ok there
  refine ⟨_, by rw [unusedDirectives, run]; rfl, Text.pairwise_sortedSet _, fun name => ?_⟩
  rw [Text.mem_sortedSet, List.mem_filter, List.mem_append]
  simp [Config.Directs, ← named]

theorem there_of_unusedDirectives (reported : unusedDirectives config p = .ok names) :
    ∀ id ∈ p.decls, ∃ decl, p.decl? id = some decl := by
  cases matched : matchedNames p with
  | error missing =>
      rw [unusedDirectives, matched] at reported
      cases reported
  | ok others => exact there_of_matchedNames matched

/-- Directives that match no top-level declaration do not count. -/
theorem emit_without (config : Config) (render : Renderer) {names : List String}
    (unmatched : ∀ name ∈ names, ¬Matches p name) :
    emit (config.without names) render p = emit config render p := by
  refine emit_congr rfl fun id listed units => ?_
  rw [emitOne, emitOne]
  cases found : p.decl? id with
  | none => rfl
  | some decl =>
      have kept : decl.name ∉ names := fun member =>
        unmatched _ member ⟨id, listed, decl, found, .inl rfl⟩
      have keptLower : Text.lowercase decl.name ∉ names := fun member =>
        unmatched _ member ⟨id, listed, decl, found, .inr rfl⟩
      simp only [item_without id kept keptLower]
      rfl

/-- A directive that is taken away changes no declaration that it does not match.  The report
exists if the top-level declarations are there; it increases and lists the directives that match
none of them, and emission is the same without all of these. -/
theorem directives_matched (config : Config) (render : Renderer) (p : Program) :
    (∀ name, ∀ id ∈ p.decls, ∀ decl, p.decl? id = some decl →
      decl.name ≠ name → Text.lowercase decl.name ≠ name →
      item (config.without [name]) render p id decl = item config render p id decl) ∧
    ((∃ names, unusedDirectives config p = .ok names) ↔
      ∀ id ∈ p.decls, p.owns (.decl id) = true) ∧
    ∀ names, unusedDirectives config p = .ok names →
      names.Pairwise (· < ·) ∧
      (∀ name, name ∈ names ↔
        (name ∈ config.replace.map Prod.fst ∨ name ∈ config.delete) ∧
          ∀ id ∈ p.decls, ∀ decl, p.decl? id = some decl →
            name ≠ decl.name ∧ name ≠ Text.lowercase decl.name) ∧
      emit (config.without names) render p = emit config render p := by
  refine ⟨fun name id _ decl _ other otherLower => ?_, ⟨fun ⟨names, reported⟩ id member => ?_,
    fun owned => ?_⟩, fun names reported => ?_⟩
  · exact item_without id (by simpa using other) (by simpa using otherLower)
  · obtain ⟨decl, found⟩ := there_of_unusedDirectives reported id member
    exact decide_eq_true (Array.getElem?_eq_some_iff.mp found).1
  · obtain ⟨names, reported, -⟩ := unusedDirectives_ok config fun id member =>
      Program.decl?_of_owns (owned id member)
    exact ⟨names, reported⟩
  · obtain ⟨same, again, sorted, listed⟩ :=
      unusedDirectives_ok config (there_of_unusedDirectives reported)
    obtain rfl := Except.ok.inj (reported.symm.trans again)
    refine ⟨sorted, fun name => ?_, emit_without config render fun name member =>
      ((listed name).mp member).2⟩
    rw [listed, Config.Directs, Matches]
    refine and_congr_right fun _ => ?_
    simp only [not_exists, not_and, not_or, ne_eq]

/-- Names with capitals: declarations match lower-case directives, but not the other way. -/
def capitals : Config where
  replace := [("debug", "D"), ("Main", "M")]
  delete := ["gone", "Debug"]

theorem directives_matched_capitals :
    (∃ decl, gathered.decl? ⟨1⟩ = some decl ∧ decl.name ≠ "Debug" ∧
        Text.lowercase decl.name ≠ "Debug" ∧
        item (capitals.without ["Debug"]) renderName gathered ⟨1⟩ decl =
          item capitals renderName gathered ⟨1⟩ decl) ∧
      unusedDirectives capitals gathered = .ok ["Debug", "Main"] ∧
      emit (capitals.without ["Debug", "Main"]) renderName gathered =
        emit capitals renderName gathered := by
  obtain ⟨acts, -, reports⟩ := directives_matched capitals renderName gathered
  have reported : unusedDirectives capitals gathered = .ok ["Debug", "Main"] := rfl
  obtain ⟨-, -, same⟩ := reports _ reported
  refine ⟨⟨_, rfl, by decide +kernel, by decide +kernel, ?_⟩, reported, same⟩
  exact acts "Debug" ⟨1⟩ (by decide +kernel) _ rfl (by decide +kernel) (by decide +kernel)

end Emission

end SyntaxGraph
