import SyntaxGraph.Proofs.Course.TranslationUnit
import SyntaxGraph.Proofs.Locality.TranslationUnit
import SyntaxGraph.Proofs.Program.Comments
import SyntaxGraph.Proofs.Token.Lines

/-!
# Appending to a source

When a source that can be read is followed by a new line and more source, what has been read
of it stays as it is.  Its external declarations are read in the same way, since none of them
looks at what is behind it; what is read later adds nodes, and changes old ones only where it
gives members to a type that has none; and comments in later lines go to later declarations,
or behind the last one.
-/

set_option autoImplicit false

namespace SyntaxGraph

open Token (Reading Ended)

/-! ## Nodes that are there already -/

/-- All types stay, except for members of a type that has none. -/
def Arenas.KeepsTypes (a b : Arenas) : Prop :=
  ∀ id type, a.type? id = some type → ∃ decls, b.type? id = some { type with decls } ∧
    (decls = type.decls ∨ type.kind.isTagged = true ∧ type.decls = [])

namespace Arenas.KeepsTypes

variable {a b c : Arenas}

theorem refl (a : Arenas) : a.KeepsTypes a := fun _ _ found => ⟨_, found, .inl rfl⟩

theorem trans (first : a.KeepsTypes b) (second : b.KeepsTypes c) : a.KeepsTypes c := by
  intro id type found
  obtain ⟨decls, between, early⟩ := first id type found
  obtain ⟨others, there, late⟩ := second id _ between
  refine ⟨others, there, ?_⟩
  rcases early with rfl | bare
  · exact late
  · exact .inr bare

/-- A type that had no members may have been given some meanwhile. -/
theorem completeType {id : TypeId} (bare : a.Bare id) (kept : a.KeepsTypes b)
    (decls : List DeclId) : a.KeepsTypes (b.completeType id decls) := by
  intro other type found
  obtain ⟨meanwhile, there, change⟩ := kept other type found
  rw [type?_completeType]
  split
  · next same =>
      subst same
      obtain ⟨known, again, tagged, empty⟩ := bare
      obtain rfl : type = known := Option.some.inj (found.symm.trans again)
      exact ⟨decls, by rw [there]; rfl, .inr ⟨tagged, empty⟩⟩
  · exact ⟨meanwhile, there, change⟩

end Arenas.KeepsTypes

/-- What is left over goes behind the last declaration of all, so of those that are kept no other
than the last one is concerned. -/
theorem Arenas.decl?_annotated_last {a b : Arenas} {decls new : List DeclId}
    (kept : ∀ id decl, a.decl? id = some decl → b.decl? id = some decl ∧ id ∉ new)
    {texts others : List String} {id : DeclId} {decl : Decl}
    (found : (a.annotated decls.getLast? ({ · with after := texts })).decl? id = some decl) :
    ∃ after, (b.annotated (decls ++ new).getLast? ({ · with after := others })).decl? id =
        some { decl with comments := { decl.comments with after } } ∧
      (after = decl.comments.after ∨ decls.getLast? = some id) := by
  by_cases last : decls.getLast? = some id
  · rw [last, decl?_annotated_self] at found
    obtain ⟨same, there, rfl⟩ := Option.map_eq_some_iff.mp found
    obtain ⟨still, -⟩ := kept id same there
    by_cases final : (decls ++ new).getLast? = some id
    · rw [final, decl?_annotated_self, still]
      exact ⟨others, rfl, .inr last⟩
    · rw [decl?_annotated_of_ne final, still]
      exact ⟨same.comments.after, rfl, .inr last⟩
  · rw [decl?_annotated_of_ne last] at found
    obtain ⟨still, absent⟩ := kept id decl found
    have final : (decls ++ new).getLast? ≠ some id := by
      rw [List.getLast?_append]
      intro same
      rcases Option.or_eq_some_iff.mp same with member | ⟨-, early⟩
      · exact absent (List.mem_of_getLast? member)
      · exact last early
    rw [decl?_annotated_of_ne final, still]
    exact ⟨decl.comments.after, rfl, .inl rfl⟩

theorem prefix_of_found {α : Type} {values others : Array α}
    (kept : ∀ (index : Nat) (value : α), values[index]? = some value →
      others[index]? = some value) : values.toList <+: others.toList := by
  rw [List.prefix_iff_getElem?]
  intro index inside
  rw [Array.getElem?_toList]
  exact kept index _ (by simp)

/-- The arenas of nodes that never change only become longer. -/
theorem Arenas.ExtendsTo.arrays {a b : Arenas} (grows : a.ExtendsTo b) :
    a.exprs.toList <+: b.exprs.toList ∧ a.stmts.toList <+: b.stmts.toList ∧
      a.inits.toList <+: b.inits.toList ∧ a.labels.toList <+: b.labels.toList :=
  ⟨prefix_of_found fun index _ => @grows.expr ⟨index⟩ _,
    prefix_of_found fun index _ => @grows.stmt ⟨index⟩ _,
    prefix_of_found fun index _ => @grows.init ⟨index⟩ _,
    prefix_of_found fun index _ => @grows.label ⟨index⟩ _⟩

namespace Grammar

theorem Step.keepsTypes {s t : State} (step : Step s t) : s.arenas.KeepsTypes t.arenas := by
  intro id type found
  refine ⟨type.decls, ?_, .inl rfl⟩
  cases step with
  | addType type => exact s.arenas.type?_addType type found
  | _ => exact found

theorem Course.keepsTypes {s t : State} (course : Course s t) :
    s.arenas.KeepsTypes t.arenas := by
  induction course with
  | done => exact .refl _
  | step first _ ih => exact first.keepsTypes.trans ih
  | enclosed _ _ inner rest => exact inner.trans rest
  | body decls bare _ _ inner rest => exact (inner.completeType bare decls).trans rest

theorem Collects.course {α : Type} {tokens : Tokens} {item : Parse (Option α)} {values : List α}
    {s s' : State} (collects : Collects tokens item s values s') (follows : Follows Course item) :
    Course s s' := by
  induction collects with
  | stop last => exact follows.ok last
  | next one _ ih => exact (follows.ok one).trans ih

/-! ## Comments on later lines -/

/-- The comments start on later lines than the one on which the external declaration ends. -/
structure External.EndsAbove (unit : External) (comments : List Comment) : Prop where
  ordered : unit.start ≤ unit.finish
  above : ∀ comment ∈ comments, unit.finish.line < comment.start.line

namespace External

variable {unit : External} {comments others : List Comment}

theorem EndsAbove.finish_lt (above : unit.EndsAbove others) {comment : Comment}
    (member : comment ∈ others) : unit.finish < comment.start :=
  Location.lt_iff.mpr (.inl (above.above comment member))

theorem before_append (above : unit.EndsAbove others) :
    unit.before (comments ++ others) = unit.before comments := by
  refine takeWhile_append_of_none (fun comment member => ?_) comments
  exact decide_eq_false (above.ordered.trans (above.finish_lt member).le).not_gt

theorem behind_append (above : unit.EndsAbove others) :
    unit.behind (comments ++ others) = unit.behind comments ++ others := by
  have late : ∀ comment ∈ others, decide (comment.start < unit.finish) = false :=
    fun comment member => decide_eq_false (above.finish_lt member).le.not_gt
  have inside : (unit.before comments).length ≤ comments.length :=
    (List.takeWhile_prefix _).length_le
  rw [behind, behind, before_append above, List.drop_append_of_le_length inside]
  exact dropWhile_append_of_none late _

theorem suffix_append (above : unit.EndsAbove others) :
    unit.suffix (comments ++ others) = unit.suffix comments := by
  rw [suffix, suffix, behind_append above]
  refine takeWhile_append_of_none (fun comment member => ?_) _
  exact decide_eq_false (above.above comment member).ne'

theorem rest_append (above : unit.EndsAbove others) :
    unit.rest (comments ++ others) = unit.rest comments ++ others := by
  have inside : (unit.suffix comments).length ≤ (unit.behind comments).length :=
    (List.takeWhile_prefix _).length_le
  rw [rest, rest, suffix_append above, behind_append above,
    List.drop_append_of_le_length inside]

theorem annotate_append (above : unit.EndsAbove others) (a : Arenas) :
    unit.annotate (comments ++ others) a = unit.annotate comments a := by
  rw [annotate, annotate, before_append above, suffix_append above]

end External

variable {tokens more : Tokens} {units later : List External}
  {comments others left left' : List Comment} {s t s' t' : State}

/-- Comments on later lines are handed out to later declarations. -/
theorem attachComments_append (above : ∀ unit ∈ units, unit.EndsAbove others)
    (early : attachComments units comments tokens s = .ok left t)
    (whole : attachComments (units ++ later) (comments ++ others) more s' = .ok left' t')
    (kept : ∀ id decl, s.arenas.decl? id = some decl → s'.arenas.decl? id = some decl) :
    ∃ middle, attachComments later (left ++ others) more middle = .ok left' t' ∧
      ∀ id decl, t.arenas.decl? id = some decl → middle.arenas.decl? id = some decl := by
  induction units generalizing comments s s' with
  | nil =>
      obtain ⟨rfl, rfl⟩ := pure_ok early
      exact ⟨s', whole, kept⟩
  | cons unit units ih =>
      have first := above unit List.mem_cons_self
      have goesOn := attachComments_next whole
      rw [External.rest_append first, External.annotate_append first] at goesOn
      refine ih (fun other member => above other (List.mem_cons_of_mem _ member))
        (attachComments_next early) goesOn fun id decl found => ?_
      rw [External.decl?_annotate] at found ⊢
      obtain ⟨bare, there, rfl⟩ := Option.map_eq_some_iff.mp found
      rw [kept id bare there]
      rfl

end Grammar

/-! ## Tokens in front of the end of the file -/

namespace Token.Reading

variable {first second : Reading}

theorem length_le_followedBy (some : second.tokens ≠ []) :
    first.tokens.length ≤ (first.followedBy second).tokens.length := by
  have further := List.length_pos_of_ne_nil some
  rw [followedBy, List.length_append, List.length_dropLast]
  omega

theorem getElem?_followedBy (second : Reading) {i : Nat} (inside : i + 1 < first.tokens.length) :
    (first.followedBy second).tokens[i]? = first.tokens[i]? := by
  have early : i < first.tokens.dropLast.length := by
    rw [List.length_dropLast]
    omega
  rw [followedBy, List.getElem?_append_left early, List.getElem?_dropLast, if_pos (by omega)]

theorem finish_followedBy (second : Reading) {i : Nat} (inside : i + 1 < first.tokens.length) :
    Grammar.Tokens.finish (first.followedBy second).tokens.toArray i =
      Grammar.Tokens.finish first.tokens.toArray i := by
  simp only [Grammar.Tokens.finish, List.getElem?_toArray, getElem?_followedBy second inside]

end Token.Reading

namespace Grammar

/-- A reading is cut in front of its end of the file, where another one goes on. -/
theorem exists_cut {first second : Reading} (ended : Ended first.tokens)
    (some : second.tokens ≠ [])
    (closed : ∀ i, i + 2 = first.tokens.length →
      (Tokens.kind first.tokens.toArray i).closes = true) :
    ∃ cut : Cut, cut.tokens = first.tokens.toArray ∧
      cut.more = (first.followedBy second).tokens.toArray := by
  have positive := ended.length_pos
  refine ⟨⟨first.tokens.toArray, (first.followedBy second).tokens.toArray,
    first.tokens.length - 1, ?size, ?longer, ?same, ?ended, ?closed⟩, rfl, rfl⟩
  case size =>
    rw [List.size_toArray]
    omega
  case longer =>
    have longer : first.tokens.length ≤ (first.followedBy second).tokens.length :=
      Reading.length_le_followedBy some
    rw [List.size_toArray]
    omega
  case same =>
    intro i inside
    rw [List.getElem?_toArray, List.getElem?_toArray,
      Reading.getElem?_followedBy second (by omega)]
  case ended =>
    obtain ⟨front, -, place, split⟩ := ended
    simp [Tokens.kind, split]
  case closed => exact fun i last => closed i (by omega)

end Grammar

open Grammar

namespace Program

variable {file source : String} {p q : Program} {units all later : List External}
  {s t s' t' : State} {left left' : List Comment} {second : Reading}

namespace Comes

/-- The nodes that are read are those of the program, but for comments. -/
theorem decl?_of_read (comes : p.Comes (Reading.ofSource source) units s t left) {id : DeclId}
    {decl : Decl} (found : t.arenas.decl? id = some decl) :
    ∃ bare, s.arenas.decl? id = some bare := by
  have same : (t.arenas.decl? id).map Decl.plain = (s.arenas.decl? id).map Decl.plain := by
    rw [← Arenas.plain_decl?, ← Arenas.plain_decl?, attachComments_plain comes.attaches]
  rw [found, Option.map_some] at same
  obtain ⟨bare, there, -⟩ := Option.map_eq_some_iff.mp same.symm
  exact ⟨bare, there⟩

/-- The external declarations are read again, and then come others. -/
theorem goesOn (whole : (Reading.ofSource source).failure = none)
    (comes : p.Comes (Reading.ofSource source) units s t left) (some : second.tokens ≠ [])
    (further : q.Comes ((Reading.ofSource source).followedBy second) all s' t' left') :
    ∃ later, all = units ++ later ∧
      Collects ((Reading.ofSource source).followedBy second).tokens.toArray
        (external? (.nested ((Reading.ofSource source).followedBy second).tokens.length))
        s later s' := by
  have collects := many_ok comes.reads
  have last := (comes.laid whole).2.2
  have closed : ∀ i, i + 2 = (Reading.ofSource source).tokens.length →
      (Tokens.kind (Reading.ofSource source).tokens.toArray i).closes = true := by
    intro i before
    rcases externals_shut collects with rfl | closes
    · exact absurd last (by simp; omega)
    · rwa [show i = s.position - 1 by omega]
  obtain ⟨cut, tokens, more⟩ := exists_cut (Reading.ofSource_ended whole) some closed
  have near : (Rules.nested (Reading.ofSource source).tokens.length).AllLocal
    (.nested ((Reading.ofSource source).followedBy second).tokens.length) cut :=
    Rules.nested_local (Reading.length_le_followedBy some)
  rw [← tokens] at collects
  rw [← more]
  exact externals_more near collects (more ▸ many_ok further.reads)

/-- The span of a declaration ends with a token in front of the end of the file. -/
theorem decl_covers (whole : (Reading.ofSource source).failure = none)
    (comes : p.Comes (Reading.ofSource source) units s t left) {id : DeclId} {decl : Decl}
    (found : s.arenas.decl? id = some decl) :
    ∃ i j, j ≤ s.position ∧
      Tokens.Covers (Reading.ofSource source).tokens.toArray decl.span i j := by
  obtain ⟨laid, -, last⟩ := comes.laid whole
  have owned : s.arenas.owns (.decl id) = true :=
    decide_eq_true (Array.getElem?_eq_some_iff.mp found).1
  obtain ⟨same, there, -, -, i, j, covers, -⟩ := laid (.decl id) (by simp) owned
  obtain rfl : decl = same := Option.some.inj (found.symm.trans there)
  have inside : j < (Reading.ofSource source).tokens.length := covers.inside
  exact ⟨i, j, by omega, covers⟩

/-- Later external declarations leave all nodes there, and begin behind them. -/
theorem later_new (whole : (Reading.ofSource source).failure = none)
    (comes : p.Comes (Reading.ofSource source) units s t left) (some : second.tokens ≠ [])
    (ordered : Tokens.Ordered ((Reading.ofSource source).followedBy second).tokens.toArray)
    {depth : Nat}
    (rest : Collects ((Reading.ofSource source).followedBy second).tokens.toArray
      (external? (.nested depth)) s later s') :
    s.arenas.ExtendsTo s'.arenas ∧ ∀ id decl, s.arenas.decl? id = .some decl →
      id ∉ later.flatMap External.decls := by
  let sheet : Sheet := ⟨((Reading.ofSource source).followedBy second).tokens.toArray, s'.arenas⟩
  have ordered : sheet.tokens.Ordered := ordered
  have last := (comes.laid whole).2.2
  have longer : (Reading.ofSource source).tokens.length ≤ sheet.tokens.size :=
    Reading.length_le_followedBy some
  have lays : ∀ k, s.position ≤ k → Lays sheet True k (external? (.nested depth))
      fun j next => next.elim (j = k) (sheet.UnitLies k j) :=
    fun _ _ => external?_lays (Rules.nested_lay depth)
  obtain ⟨moves, lay⟩ := Lays.collects lays rest (Nat.le_refl _) (by omega)
  refine ⟨moves.grows, fun id decl found member => ?_⟩
  obtain ⟨i, j, before, covers⟩ := comes.decl_covers whole found
  obtain ⟨-, consecutive⟩ := lay (.refl _) ordered trivial
  obtain ⟨unit, listed, inside⟩ := List.mem_flatMap.mp member
  obtain ⟨low, high, lower, -, lies⟩ := consecutive.found unit listed
  obtain ⟨first, final, behind, -, span, placed, later⟩ := lies.inside (.decl id)
    (List.mem_flatMap.mpr ⟨id, inside, List.mem_cons_self⟩)
  have same : decl.span = span := by
    have there : sheet.arenas.span? (.decl id) = .some decl.span :=
      congrArg (Option.map Decl.span) (moves.grows.decl found)
    exact Option.some.inj (there.symm.trans placed)
  have ends := covers.some
  have starts := later.some
  have size : final < sheet.tokens.size := later.inside
  refine absurd (same ▸ later.finish : decl.span.finish = sheet.tokens.finish (final - 1)) ?_
  refine ne_of_lt ?_
  calc decl.span.finish
      = Tokens.finish (Reading.ofSource source).tokens.toArray (j - 1) := covers.finish
    _ = sheet.tokens.finish (j - 1) := (Reading.finish_followedBy second (by omega)).symm
    _ ≤ sheet.tokens.start first := ordered.finish_le_start (by omega) (by omega)
    _ < sheet.tokens.finish (final - 1) := ordered.start_lt_finish (by omega) (by omega)

/-- What follows the source starts on later lines. -/
theorem endsAbove (whole : (Reading.ofSource source).failure = none)
    (comes : p.Comes (Reading.ofSource source) units s t left) (fresh : Bool) (text : List Char) :
    ∀ unit ∈ units, unit.EndsAbove
      (Reading.ofChars ((Location.origin.past source.toList).after '\n') fresh text).comments := by
  intro unit listed
  have ordered := Reading.ofSource_ordered whole
  obtain ⟨-, consecutive, last⟩ := comes.laid whole
  obtain ⟨first, final, -, upper, lies⟩ := consecutive.found unit listed
  have some := lies.some
  have inside : final - 1 < (Reading.ofSource source).tokens.length := by omega
  constructor
  case ordered =>
    rw [lies.start, lies.finish]
    exact (ordered.start_lt_finish (by omega) (by rw [List.size_toArray]; omega)).le
  case above =>
    intro comment member
    have token : unit.finish = (Reading.ofSource source).tokens[final - 1].finish := by
      simp [lies.finish, sheet, Tokens.finish, inside]
    have within : unit.finish ≤ Location.origin.past source.toList :=
      token ▸ Reading.ofChars_finish_le _ _ _ _ (List.getElem_mem inside)
    have behind := (Reading.ofChars_inOrder _ _ _).commentsBehind comment member
    have next : ((Location.origin.past source.toList).after '\n').line =
      (Location.origin.past source.toList).line + 1 := rfl
    rw [Location.le_iff] at within behind
    omega

end Comes

/-- The program is still there in another one, but for comments behind its last declaration
and for the members of types that have none. -/
structure KeptIn (p q : Program) : Prop where
  decls : p.decls <+: q.decls
  decl : ∀ id decl, p.decl? id = some decl →
    ∃ after, q.decl? id = some { decl with comments := { decl.comments with after } } ∧
      (after = decl.comments.after ∨ p.decls.getLast? = some id)
  types : p.arenas.KeepsTypes q.arenas
  exprs : p.arenas.exprs.toList <+: q.arenas.exprs.toList
  stmts : p.arenas.stmts.toList <+: q.arenas.stmts.toList
  inits : p.arenas.inits.toList <+: q.arenas.inits.toList
  labels : p.arenas.labels.toList <+: q.arenas.labels.toList

/-- What has been read of a source that does not end in a backslash stays as it is when a new
line and more source follow it. -/
theorem read_append {more : String} (bare : source.toList.getLast? ≠ some '\\')
    (parsed : read file source = .ok p) (appended : read file (source ++ "\n" ++ more) = .ok q) :
    p.KeptIn q := by
  have whole := whole_of_read parsed
  have wholeMore := whole_of_read appended
  have ordered := Reading.ofSource_ordered wholeMore
  obtain ⟨units, s, t, left, comes⟩ := read_comes parsed
  obtain ⟨all, s', t', left', further⟩ := read_comes appended
  let second :=
    Reading.ofChars ((Location.origin.past source.toList).after '\n') true more.toList
  have line : Reading.ofSource (source ++ "\n" ++ more) =
    (Reading.ofSource source).followedBy second := Reading.ofSource_line whole bare more
  have plain := further.plain
  rw [line] at wholeMore ordered further
  have some : second.tokens ≠ [] :=
    List.ne_nil_of_length_pos (Reading.ofChars_ended _ _ _ wholeMore).length_pos
  obtain ⟨later, rfl, rest⟩ := comes.goesOn whole some further
  obtain ⟨grows, fresh⟩ := comes.later_new whole some ordered rest
  have kept : s.arenas.KeepsTypes s'.arenas :=
    (rest.course (external?_follows (Rules.nested_follow _))).keepsTypes
  obtain ⟨middle, attaches, keeps⟩ :=
    attachComments_append (comes.endsAbove whole true more.toList) comes.attaches
      further.attaches fun id decl => grows.decl
  have decls : q.decls = p.decls ++ later.flatMap External.decls := by
    rw [further.decls, List.flatMap_append, comes.decls]
  -- Without comments the arenas are those from which and to which the reading has gone on.
  have types : p.arenas.plain.KeepsTypes q.arenas.plain := by
    rw [comes.plain, plain]
    exact kept
  have arrays : p.arenas.plain.exprs.toList <+: q.arenas.plain.exprs.toList ∧
      p.arenas.plain.stmts.toList <+: q.arenas.plain.stmts.toList ∧
      p.arenas.plain.inits.toList <+: q.arenas.plain.inits.toList ∧
      p.arenas.plain.labels.toList <+: q.arenas.plain.labels.toList := by
    rw [comes.plain, plain]
    exact grows.arrays
  obtain ⟨exprs, stmts, inits, labels⟩ := arrays
  refine ⟨⟨_, decls.symm⟩, fun id decl found => ?_, types, exprs, stmts, inits, labels⟩
  rw [decl?, comes.arenas] at found
  rw [decl?, further.arenas, decls]
  refine Arenas.decl?_annotated_last (fun id decl found => ?_) found
  obtain ⟨bare, there⟩ := comes.decl?_of_read found
  have absent := fresh id bare there
  exact ⟨(attachComments_others attaches absent).trans (keeps id decl found), absent⟩

/-- A structure without members, and a comment that no declaration follows. -/
def openSource : String := "struct s; int x;\n// end"

def closingSource : String := "// more\nstruct s \x7b int m; \x7d;"

theorem read_append_openSource :
    ∃ p q, read "open.c" openSource = .ok p ∧
      read "open.c" (openSource ++ "\n" ++ closingSource) = .ok q ∧
      p.decls.map p.arenas.texts = [[], ["// end"]] ∧
      q.decls.map q.arenas.texts = [[], [], ["// end", "// more"]] ∧
      (p.type? ⟨0⟩).map TypeNode.decls = some [] ∧
      (q.type? ⟨0⟩).map TypeNode.decls = some [⟨2⟩] ∧ p.KeptIn q := by
  have shape : (read "open.c" openSource).toOption.map (fun p =>
      (p.decls.map p.arenas.texts, (p.type? ⟨0⟩).map TypeNode.decls)) =
      some ([[], ["// end"]], some []) := by
    decide +kernel
  have shapeMore : (read "open.c" (openSource ++ "\n" ++ closingSource)).toOption.map (fun q =>
      (q.decls.map q.arenas.texts, (q.type? ⟨0⟩).map TypeNode.decls)) =
      some ([[], [], ["// end", "// more"]], some [⟨2⟩]) := by
    decide +kernel
  obtain ⟨p, parsed, seen⟩ := exists_read_of_map shape
  obtain ⟨q, appended, seenMore⟩ := exists_read_of_map shapeMore
  simp only [Prod.mk.injEq] at seen seenMore
  have bare : openSource.toList.getLast? ≠ some '\\' := by decide +kernel
  exact ⟨p, q, parsed, appended, seen.1, seenMore.1, seen.2, seenMore.2,
    read_append bare parsed appended⟩

end Program

end SyntaxGraph
