import SyntaxGraph.Proofs.Program.Comments

/-!
# Suffix comments

A comment that stands behind the end of an external declaration, on its last line, is a
trailing comment of it.  Lines alone decide where such comments go: the first external
declaration that ends on a line takes all its trailing comments, and later ones that end on
this line take none.  So the suffix of a declaration stays in front of the next external
declaration if and only if no comment on its last line stands behind the first token of the
next one.
-/

set_option autoImplicit false

namespace SyntaxGraph

open Token (Reading)

namespace Grammar

/-! ## One external declaration -/

namespace External

variable {unit other : External} {earlier : List External} {comments : List Comment}

/-- The comments behind the end of an external declaration on its last line. -/
def trailing (unit : External) (comments : List Comment) : List Comment :=
  comments.filter fun comment =>
    unit.finish ≤ comment.start ∧ comment.start.line = unit.finish.line

/-- The comments that an external declaration takes as its suffix, with the given ones in
front of it. -/
def claimed (unit : External) (earlier : List External) (comments : List Comment) :
    List Comment :=
  if ∃ other ∈ earlier, other.finish.line = unit.finish.line then [] else unit.trailing comments

theorem behind_eq_filter (apart : comments.Pairwise (·.start < ·.start))
    (proper : unit.start ≤ unit.finish) :
    unit.behind comments = comments.filter fun comment => unit.finish ≤ comment.start := by
  rw [behind, before, drop_length_takeWhile, dropWhile_eq_filter (start_lt_pairwise apart),
    dropWhile_eq_filter (start_lt_pairwise (apart.filter _)), List.filter_filter]
  refine List.filter_congr fun comment _ => ?_
  rw [← decide_not, ← decide_not, ← Bool.decide_and, decide_eq_decide, not_lt, not_lt]
  exact ⟨And.left, fun behind => ⟨behind, proper.trans behind⟩⟩

theorem line_pairwise (apart : comments.Pairwise (·.start < ·.start))
    (proper : unit.start ≤ unit.finish) :
    (unit.behind comments).Pairwise fun one other =>
      decide (other.start.line = unit.finish.line) = true →
        decide (one.start.line = unit.finish.line) = true := by
  rw [behind_eq_filter apart proper, List.pairwise_filter]
  refine apart.imp fun {one other} less behind _ same => ?_
  simp only [decide_eq_true_eq, Location.le_iff, Location.lt_iff] at less behind same ⊢
  omega

theorem suffix_eq_trailing (apart : comments.Pairwise (·.start < ·.start))
    (proper : unit.start ≤ unit.finish) : unit.suffix comments = unit.trailing comments := by
  rw [suffix, takeWhile_eq_filter (line_pairwise apart proper), behind_eq_filter apart proper,
    List.filter_filter, trailing]
  refine List.filter_congr fun comment _ => ?_
  rw [Bool.decide_and, Bool.and_comm]

theorem rest_eq_filter (apart : comments.Pairwise (·.start < ·.start))
    (proper : unit.start ≤ unit.finish) :
    unit.rest comments = comments.filter fun comment =>
      unit.finish.line < comment.start.line := by
  rw [rest, suffix, drop_length_takeWhile, dropWhile_eq_filter (line_pairwise apart proper),
    behind_eq_filter apart proper, List.filter_filter]
  refine List.filter_congr fun comment _ => ?_
  rw [← decide_not, ← Bool.decide_and, decide_eq_decide, Location.le_iff]
  omega

/-- What an external declaration leaves to the ones behind it. -/
theorem claimed_rest (apart : comments.Pairwise (·.start < ·.start))
    (proper : unit.start ≤ unit.finish) (later : unit.finish ≤ other.finish) :
    other.claimed earlier (unit.rest comments) = other.claimed (unit :: earlier) comments := by
  unfold claimed
  by_cases same : unit.finish.line = other.finish.line
  · have none : other.trailing (unit.rest comments) = [] := by
      rw [rest_eq_filter apart proper, trailing, List.filter_filter]
      refine List.filter_eq_nil_iff.mpr fun comment _ => ?_
      simp only [Bool.and_eq_true, decide_eq_true_eq]
      omega
    simp [same, none]
  · have all : other.trailing (unit.rest comments) = other.trailing comments := by
      rw [rest_eq_filter apart proper, trailing, List.filter_filter, trailing]
      refine List.filter_congr fun comment _ => ?_
      have above : unit.finish.line < other.finish.line := by
        rw [Location.le_iff] at later
        omega
      rw [← Bool.decide_and, decide_eq_decide, and_iff_left_iff_imp]
      exact fun ⟨_, line⟩ => line ▸ above
    simp [same, all]

end External

/-! ## All external declarations -/

variable {tokens : Tokens} {unit : External} {units earlier later : List External}
  {comments left : List Comment} {s s' : State} {sheet : Sheet} {i j : Nat}

/-- External declarations follow each other in the source. -/
structure InOrder (units : List External) : Prop where
  proper : ∀ unit ∈ units, unit.start < unit.finish
  apart : units.Pairwise (·.finish ≤ ·.start)

theorem InOrder.head (order : InOrder (unit :: units)) : unit.start < unit.finish :=
  order.proper unit List.mem_cons_self

theorem InOrder.tail (order : InOrder (unit :: units)) : InOrder units :=
  ⟨fun other member => order.proper other (List.mem_cons_of_mem _ member),
    (List.pairwise_cons.mp order.apart).2⟩

theorem InOrder.finish_le {other : External} (order : InOrder (unit :: units))
    (member : other ∈ units) : unit.finish ≤ other.finish :=
  ((List.pairwise_cons.mp order.apart).1 other member).trans
    (order.tail.proper other member).le

theorem InOrder.drop (order : InOrder (earlier ++ later)) : InOrder later :=
  ⟨fun other member => order.proper other (List.mem_append_right _ member),
    (List.pairwise_append.mp order.apart).2.1⟩

theorem InOrder.start_le {other : External} (order : InOrder (unit :: units))
    (member : other ∈ unit :: units) : unit.start ≤ other.start := by
  rcases List.mem_cons.mp member with rfl | later
  · exact le_refl _
  · exact order.head.le.trans ((List.pairwise_cons.mp order.apart).1 other later)

theorem inOrder_of_consecutive (consecutive : Consecutive sheet.UnitLies i units j)
    (ordered : sheet.tokens.Ordered) (inside : j < sheet.tokens.size) : InOrder units := by
  induction consecutive with
  | stop => exact ⟨by simp, .nil⟩
  | @next i j k unit units here le rest ih =>
      have order := ih inside
      have further := rest.le
      have some := here.some
      refine ⟨List.forall_mem_cons.mpr ⟨?proper, order.proper⟩,
        List.pairwise_cons.mpr ⟨fun other member => ?apart, order.apart⟩⟩
      case proper =>
        rw [here.start, here.finish]
        exact ordered.start_lt_finish (by omega) (by omega)
      case apart =>
        obtain ⟨first, last, behind, before, there⟩ := rest.found other member
        have proper := there.some
        rw [here.finish, there.start]
        exact ordered.finish_le_start (by omega) (by omega)

/-- What a pass over external declarations makes the suffix of each declaration. -/
theorem attachComments_suffix
    (run : attachComments units comments tokens s = .ok left s')
    (apart : comments.Pairwise (·.start < ·.start)) (order : InOrder units)
    (distinct : (units.flatMap External.decls).Nodup)
    (bare : ∀ id ∈ units.flatMap External.decls,
      ∃ decl, s.arenas.decl? id = some decl ∧ decl.comments = {})
    (split : units = earlier ++ unit :: later) {id : DeclId} (member : id ∈ unit.decls) :
    ∃ decl, s'.arenas.decl? id = some decl ∧ decl.comments.suffix =
      if unit.decls.getLast? = some id then (unit.claimed earlier comments).map Comment.text
      else [] := by
  induction units generalizing earlier comments s with
  | nil => simp at split
  | cons first units ih =>
      rw [List.flatMap_cons] at distinct bare
      obtain ⟨-, distinct, disjoint⟩ := List.nodup_append'.mp distinct
      have rest := attachComments_next run
      cases earlier with
      | nil =>
          obtain ⟨rfl, rfl⟩ := List.cons.inj split
          obtain ⟨decl, found, none⟩ := bare id (List.mem_append_left _ member)
          rw [attachComments_others rest (disjoint member), External.decl?_annotate, found]
          refine ⟨_, rfl, ?_⟩
          simp [none, External.claimed, External.suffix_eq_trailing apart order.head.le]
      | cons other earlier =>
          obtain ⟨rfl, tail⟩ := List.cons.inj split
          have listed : unit ∈ units := by simp [tail]
          rw [← External.claimed_rest apart order.head.le (order.finish_le listed)]
          refine ih rest (apart.sublist (first.rest_sublist comments)) order.tail distinct
            (fun id member => ?_) tail
          rw [External.decl?_annotate_of_notMem fun early => disjoint early member]
          exact bare id (List.mem_append_right _ member)

theorem External.mem_claimed {comment : Comment}
    (first : ∀ other ∈ earlier, other.finish.line ≠ unit.finish.line) :
    comment ∈ unit.claimed earlier comments ↔ comment ∈ comments ∧
      unit.finish ≤ comment.start ∧ comment.start.line = unit.finish.line := by
  have none : ¬∃ other ∈ earlier, other.finish.line = unit.finish.line := by simpa using first
  rw [claimed, if_neg none, trailing, List.mem_filter, decide_eq_true_eq]

theorem External.claimed_subset (unit : External) (earlier : List External)
    (comments : List Comment) : unit.claimed earlier comments ⊆ unit.trailing comments := by
  unfold claimed
  split
  · exact List.nil_subset _
  · exact List.Subset.refl _

/-- When suffixes stay in front of the next external declaration. -/
theorem claimed_inFront_iff (order : InOrder units) :
    (∀ earlier unit next later, units = earlier ++ unit :: next :: later →
        ∀ comment ∈ unit.claimed earlier comments, comment.start < next.start) ↔
      ∀ earlier unit next later, units = earlier ++ unit :: next :: later →
        ∀ comment ∈ comments, comment.start.line = unit.finish.line →
          comment.start < next.start := by
  refine ⟨fun inFront earlier unit next later split comment member line => ?_,
    fun inFront earlier unit next later split comment member => ?_⟩
  · by_contra notInFront
    have behind : next.start ≤ comment.start := not_lt.mp notInFront
    -- the first external declaration that ends on the line takes the comment
    obtain ⟨first, found⟩ : ∃ first, (earlier ++ [unit]).find?
        (fun other => other.finish.line = unit.finish.line) = some first :=
      Option.isSome_iff_exists.mp (List.find?_isSome.mpr ⟨unit, by simp, by simp⟩)
    obtain ⟨same, early, between, pieces, others⟩ := List.find?_eq_some_iff_append.mp found
    have same : first.finish.line = unit.finish.line := of_decide_eq_true same
    have whole : units = early ++ first :: (between ++ next :: later) := by
      rw [split, List.append_cons, pieces]
      simp
    obtain ⟨following, rest, follows⟩ :=
      List.exists_cons_of_ne_nil (l := between ++ next :: later) (by simp)
    rw [follows] at whole
    have firstOrder : InOrder (first :: following :: rest) := (whole ▸ order).drop
    have near : following.start ≤ next.start :=
      firstOrder.tail.start_le (follows ▸ by simp)
    have ends : first.finish ≤ following.start :=
      (List.pairwise_cons.mp firstOrder.apart).1 following List.mem_cons_self
    refine notInFront ((inFront early first following rest whole comment ?_).trans_le near)
    refine (External.mem_claimed fun other listed => ?_).mpr
      ⟨member, (ends.trans near).trans behind, line.trans same.symm⟩
    simpa [same] using others other listed
  · have trailing := List.mem_filter.mp (unit.claimed_subset earlier comments member)
    exact inFront earlier unit next later split comment trailing.1
      (of_decide_eq_true trailing.2).2

end Grammar

open Grammar

namespace Program

variable {p : Program} {file source : String}

/-- The suffix of the last declaration of each external declaration consists of its trailing
comments, unless an earlier external declaration ends on the same line; no other declaration
has a suffix.  All suffixes start in front of the next external declaration if and only if no
comment on the last line of an external declaration stands behind the first token of the next
one. -/
theorem read_suffixes (parsed : read file source = .ok p) :
    ∃ units state,
      Parse.many (external? (.nested (Reading.ofSource source).tokens.length))
        (Reading.ofSource source).tokens.toArray {} = .ok units state ∧
      Consecutive (External.TakesUp (Reading.ofSource source).tokens) 0 units
        ((Reading.ofSource source).tokens.length - 1) ∧
      p.decls = units.flatMap External.decls ∧
      (∀ earlier unit later, units = earlier ++ unit :: later → ∀ id ∈ unit.decls,
        ∃ decl, p.decl? id = some decl ∧ decl.comments.suffix =
          if unit.decls.getLast? = some id then
            (unit.claimed earlier (Reading.ofSource source).comments).map Comment.text
          else []) ∧
      ((∀ earlier unit next later, units = earlier ++ unit :: next :: later →
          ∀ comment ∈ unit.claimed earlier (Reading.ofSource source).comments,
            comment.start < next.start) ↔
        ∀ earlier unit next later, units = earlier ++ unit :: next :: later →
          ∀ comment ∈ (Reading.ofSource source).comments,
            comment.start.line = unit.finish.line → comment.start < next.start) := by
  have whole := whole_of_read parsed
  obtain ⟨units, s, t, left, comes⟩ := read_comes parsed
  obtain ⟨-, consecutive, last⟩ := comes.laid whole
  have size : s.position < (Reading.ofSource source).tokens.toArray.size := by
    rw [List.size_toArray]
    omega
  have order : InOrder units :=
    inOrder_of_consecutive consecutive (Reading.ofSource_ordered whole) size
  have apart : (Reading.ofSource source).comments.Pairwise (·.start < ·.start) :=
    (Reading.ofChars_inOrder _ _ _).commentsApart
  have distinct : (units.flatMap External.decls).Nodup := comes.decls ▸ nodup_of_read parsed
  refine ⟨units, s, comes.reads, ?_, comes.decls, ?_, claimed_inFront_iff order⟩
  · have final : (Reading.ofSource source).tokens.length - 1 = s.position := by omega
    rw [final]
    exact consecutive.imp fun _ _ _ le lies => lies.takesUp (by omega)
  · intro earlier unit later split id member
    obtain ⟨decl, found, suffix⟩ := attachComments_suffix comes.attaches apart order distinct
      (fun id => comes.bare_decls whole) split member
    rw [decl?, comes.arenas]
    by_cases final : p.decls.getLast? = some id
    · rw [final, Arenas.decl?_annotated_self, found]
      exact ⟨_, rfl, suffix⟩
    · rw [Arenas.decl?_annotated_of_ne final]
      exact ⟨decl, found, suffix⟩

/-- A variable, and on the same line a function with a comment in its body and one behind it. -/
def crowdedSource : String := "int x; int f() \x7b /* inside */ \x7d // f"

theorem read_suffixes_crowdedSource :
    ∃ p, read "t.c" crowdedSource = .ok p ∧ ∃ units : List External,
      p.decls = units.flatMap External.decls ∧
      (∀ earlier unit later, units = earlier ++ unit :: later → ∀ id ∈ unit.decls,
        ∃ decl, p.decl? id = some decl ∧ decl.comments.suffix =
          if unit.decls.getLast? = some id then
            (unit.claimed earlier (Reading.ofSource crowdedSource).comments).map Comment.text
          else []) ∧
      ¬∀ earlier unit next later, units = earlier ++ unit :: next :: later →
        ∀ comment ∈ unit.claimed earlier (Reading.ofSource crowdedSource).comments,
          comment.start < next.start := by
  have shape : (read "t.c" crowdedSource).toOption.map (·.decls.length) = some 2 := by
    decide +kernel
  have places : (match Parse.many
        (external? (.nested (Reading.ofSource crowdedSource).tokens.length))
        (Reading.ofSource crowdedSource).tokens.toArray {} with
      | .ok units _ => units.map fun unit => (unit.start, unit.finish)
      | .error _ _ => []) = [(⟨1, 1⟩, ⟨1, 7⟩), (⟨1, 8⟩, ⟨1, 32⟩)] := by
    decide +kernel
  have inside : ⟨"/* inside */", ⟨1, 18⟩⟩ ∈ (Reading.ofSource crowdedSource).comments := by
    decide +kernel
  obtain ⟨p, parsed, -⟩ := exists_read_of_map shape
  obtain ⟨units, state, reads, -, decls, suffixes, inFront⟩ := read_suffixes parsed
  rw [reads] at places
  obtain ⟨x, units, rfl, xPlace, places⟩ := List.map_eq_cons_iff.mp places
  obtain ⟨f, units, rfl, fPlace, places⟩ := List.map_eq_cons_iff.mp places
  refine ⟨p, parsed, _, decls, suffixes, fun all => ?_⟩
  have line : x.finish.line = 1 := congrArg (·.2.line) xPlace
  have early := inFront.mp all [] x f units rfl _ inside line.symm
  rw [show f.start = ⟨1, 8⟩ from congrArg Prod.fst fPlace] at early
  exact absurd early (by decide)

/-- Comments in a function and behind it become the suffix of the variable in front of it. -/
theorem read_crowdedSource :
    ∃ p, read "t.c" crowdedSource = .ok p ∧
      (p.decls.map fun id => (p.decl? id).map fun decl =>
        (decl.name, decl.span.start, decl.comments.suffix)) =
        [some ("x", ⟨1, 1⟩, ["/* inside */", "// f"]), some ("f", ⟨1, 8⟩, [])] ∧
      (Reading.ofSource crowdedSource).comments =
        [⟨"/* inside */", ⟨1, 18⟩⟩, ⟨"// f", ⟨1, 33⟩⟩] := by
  have shape : (read "t.c" crowdedSource).toOption.map (fun p =>
      p.decls.map fun id => (p.decl? id).map fun decl =>
        (decl.name, decl.span.start, decl.comments.suffix)) =
      some [some ("x", ⟨1, 1⟩, ["/* inside */", "// f"]), some ("f", ⟨1, 8⟩, [])] := by
    decide +kernel
  obtain ⟨p, parsed, seen⟩ := exists_read_of_map shape
  exact ⟨p, parsed, seen, by decide +kernel⟩

end Program

end SyntaxGraph
