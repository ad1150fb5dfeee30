import Mathlib.Data.List.TakeWhile
import SyntaxGraph.Proofs.Program.Externals
import SyntaxGraph.Proofs.Program.Owners

/-!
# Comments are conserved

Comments are handed out in one pass over the external declarations.  What is handed out to
one declaration after the other is what the source has, in order, without the comments that
start inside an external declaration; each is handed out once.
-/

set_option autoImplicit false

namespace SyntaxGraph

open Token (Reading)

/-- The comments of a declaration in the order in which they stand in the source. -/
def Comments.texts (comments : Comments) : List String :=
  comments.before ++ comments.suffix ++ comments.after

def Arenas.texts (a : Arenas) (id : DeclId) : List String :=
  (a.decl? id).elim [] (·.comments.texts)

namespace Grammar

/-- What the first and the last one of several values add. -/
theorem flatMap_ends {α β : Type} [DecidableEq α] {values : List α} (some : values ≠ [])
    (distinct : values.Nodup) (front back : List β) :
    values.flatMap (fun value => (if values.head? = .some value then front else []) ++
      if values.getLast? = .some value then back else []) = front ++ back := by
  obtain ⟨first, rest, rfl⟩ := List.exists_cons_of_ne_nil some
  obtain ⟨apart, distinct⟩ := List.nodup_cons.mp distinct
  rcases rest.eq_nil_or_concat with rfl | ⟨middle, last, rfl⟩
  · simp
  · rw [List.concat_eq_append] at apart distinct ⊢
    have different : first ≠ last := by
      rintro rfl
      simp at apart
    have none : ∀ value ∈ middle, first ≠ value ∧ last ≠ value := by
      intro value member
      refine ⟨?_, ?_⟩
      · rintro rfl
        simp [member] at apart
      · rintro rfl
        exact List.disjoint_of_nodup_append distinct member (List.mem_singleton_self _)
    have others : middle.flatMap (fun value => (if first = value then front else []) ++
        if last = value then back else []) = [] :=
      List.flatMap_eq_nil_iff.mpr fun value member => by simp [none value member]
    have final : (first :: (middle ++ [last])).getLast? = .some last :=
      List.getLast?_concat (l := first :: middle)
    simp [final, different, different.symm, others]

namespace External

variable {unit : External} {comments : List Comment} {a : Arenas}

theorem decl?_annotate (unit : External) (comments : List Comment) (a : Arenas) (id : DeclId) :
    (unit.annotate comments a).decl? id = (a.decl? id).map fun decl =>
      { decl with comments := { decl.comments with
          before := if unit.decls.head? = some id then (unit.before comments).map Comment.text
            else decl.comments.before
          suffix := if unit.decls.getLast? = some id then (unit.suffix comments).map Comment.text
            else decl.comments.suffix } } := by
  have last : ((a.annotated unit.decls.head?
      ({ · with before := (unit.before comments).map Comment.text })).decl? id) =
      (a.decl? id).map fun decl => { decl with comments := { decl.comments with
        before := if unit.decls.head? = some id then (unit.before comments).map Comment.text
          else decl.comments.before } } := by
    split
    · next same => rw [same, Arenas.decl?_annotated_self]
    · next other => simp [Arenas.decl?_annotated_of_ne other]
  unfold annotate
  by_cases same : unit.decls.getLast? = some id
  · rw [same, Arenas.decl?_annotated_self, last, Option.map_map]
    simp [Function.comp_def]
  · rw [Arenas.decl?_annotated_of_ne same, last]
    simp [same]

/-- The first declaration carries what is before it, the last one what follows on its line. -/
theorem texts_annotate (declares : unit.decls ≠ []) (distinct : unit.decls.Nodup)
    (bare : ∀ id ∈ unit.decls, ∃ decl, a.decl? id = some decl ∧ decl.comments = {}) :
    unit.decls.flatMap (unit.annotate comments a).texts =
      (unit.before comments ++ unit.suffix comments).map Comment.text := by
  rw [List.map_append, ← flatMap_ends declares distinct]
  refine List.flatMap_congr fun id member => ?_
  obtain ⟨decl, found, none⟩ := bare id member
  simp only [Arenas.texts, decl?_annotate, found, Option.map_some, Option.elim_some,
    Comments.texts, none, List.append_nil]

/-- Declarations of other external declarations are left alone. -/
theorem decl?_annotate_of_notMem {id : DeclId} (other : id ∉ unit.decls) :
    (unit.annotate comments a).decl? id = a.decl? id := by
  have head : unit.decls.head? ≠ some id := fun same => other (List.mem_of_head? same)
  have last : unit.decls.getLast? ≠ some id := fun same => other (List.mem_of_getLast? same)
  rw [decl?_annotate]
  simp [head, last]

/-- Comments that start in front of a place have only such comments in front of them. -/
theorem start_lt_pairwise (apart : comments.Pairwise (·.start < ·.start)) {place : Location} :
    comments.Pairwise fun one other =>
      decide (other.start < place) = true → decide (one.start < place) = true :=
  apart.imp fun less before => decide_eq_true (less.trans (of_decide_eq_true before))

theorem le_of_mem_dropWhile (apart : comments.Pairwise (·.start < ·.start)) {place : Location}
    {comment : Comment} (member : comment ∈ comments.dropWhile (·.start < place)) :
    place ≤ comment.start := by
  rw [dropWhile_eq_filter (start_lt_pairwise apart), List.mem_filter] at member
  simpa using member.2

/-- What is handed out and what is left are in order, and all else starts inside. -/
theorem mem_or_inside (unit : External) (apart : comments.Pairwise (·.start < ·.start))
    {comment : Comment} (member : comment ∈ comments) :
    comment ∈ unit.before comments ++ (unit.suffix comments ++ unit.rest comments) ∨
      unit.start ≤ comment.start ∧ comment.start < unit.finish := by
  rw [unit.comments_eq comments] at member
  rcases List.mem_append.mp member with before | behind
  · exact .inl (List.mem_append_left _ before)
  · rcases List.mem_append.mp behind with dropped | behind
    · right
      refine ⟨le_of_mem_dropWhile apart (List.takeWhile_subset _ dropped), ?_⟩
      simpa using List.mem_takeWhile_imp dropped
    · exact .inl (List.mem_append_right _ behind)

theorem sublist_comments (unit : External) (comments : List Comment) :
    (unit.before comments ++ (unit.suffix comments ++ unit.rest comments)).Sublist comments := by
  conv_rhs => rw [unit.comments_eq comments]
  exact (List.Sublist.refl _).append (List.sublist_append_right _ _)

theorem rest_sublist (unit : External) (comments : List Comment) :
    (unit.rest comments).Sublist comments :=
  ((List.sublist_append_right _ _).trans (List.sublist_append_right _ _)).trans
    (unit.sublist_comments comments)

end External

/-- What a pass over external declarations makes of comments: it gives the ones in `kept` to
the declarations and has those in `left` over. -/
structure HandsOut (units : List External) (comments kept left : List Comment) (a b : Arenas) :
    Prop where
  ordered : (kept ++ left).Sublist comments
  carried : (units.flatMap External.decls).flatMap b.texts = kept.map Comment.text
  missing : ∀ comment ∈ comments, comment ∈ kept ++ left ∨
    ∃ unit ∈ units, unit.start ≤ comment.start ∧ comment.start < unit.finish
  others : ∀ id ∉ units.flatMap External.decls, b.decl? id = a.decl? id
  after : ∀ id ∈ units.flatMap External.decls,
    ∃ decl, b.decl? id = some decl ∧ decl.comments.after = []

variable {tokens : Tokens} {unit : External} {units : List External}
  {comments kept left : List Comment} {a b : Arenas}

/-- One external declaration more in front of the others. -/
theorem HandsOut.cons (rest : HandsOut units (unit.rest comments) kept left
      (unit.annotate comments a) b) (apart : comments.Pairwise (·.start < ·.start))
    (declares : unit.decls ≠ [])
    (distinct : (unit.decls ++ units.flatMap External.decls).Nodup)
    (bare : ∀ id ∈ unit.decls, ∃ decl, a.decl? id = some decl ∧ decl.comments = {}) :
    HandsOut (unit :: units) comments (unit.before comments ++ unit.suffix comments ++ kept)
      left a b := by
  obtain ⟨own, -, disjoint⟩ := List.nodup_append'.mp distinct
  have same : ∀ id ∈ unit.decls, b.decl? id = (unit.annotate comments a).decl? id :=
    fun id member => rest.others id (disjoint member)
  constructor
  case ordered =>
    rw [List.append_assoc, List.append_assoc]
    have suffix := (List.Sublist.refl (unit.suffix comments)).append rest.ordered
    exact ((List.Sublist.refl _).append suffix).trans (unit.sublist_comments comments)
  case carried =>
    have first : unit.decls.flatMap b.texts = unit.decls.flatMap (unit.annotate comments a).texts :=
      List.flatMap_congr fun id member => by rw [Arenas.texts, Arenas.texts, same id member]
    rw [List.flatMap_cons, List.flatMap_append, rest.carried, first,
      External.texts_annotate declares own bare, ← List.map_append]
  case missing =>
    intro comment member
    rcases unit.mem_or_inside apart member with listed | inside
    · rw [← List.append_assoc] at listed
      rcases List.mem_append.mp listed with early | late
      · exact .inl (List.mem_append_left left (List.mem_append_left kept early))
      · rcases rest.missing comment late with found | ⟨other, listed, inside⟩
        · rw [List.append_assoc]
          exact .inl (List.mem_append_right _ found)
        · exact .inr ⟨other, List.mem_cons_of_mem _ listed, inside⟩
    · exact .inr ⟨unit, List.mem_cons_self, inside⟩
  case others =>
    intro id absent
    rw [List.flatMap_cons, List.mem_append, not_or] at absent
    exact (rest.others id absent.2).trans (External.decl?_annotate_of_notMem absent.1)
  case after =>
    intro id member
    rcases List.mem_append.mp (List.flatMap_cons ▸ member) with early | late
    · obtain ⟨decl, found, none⟩ := bare id early
      rw [same id early, External.decl?_annotate, found]
      exact ⟨_, rfl, by simp [none]⟩
    · exact rest.after id late

variable {s s' : State}

/-- Declarations that do not come from these external declarations are left alone. -/
theorem attachComments_others (run : attachComments units comments tokens s = .ok left s')
    {id : DeclId} (other : id ∉ units.flatMap External.decls) :
    s'.arenas.decl? id = s.arenas.decl? id := by
  induction units generalizing comments s with
  | nil => rw [(pure_ok run).2]
  | cons unit units ih =>
      rw [List.flatMap_cons, List.mem_append, not_or] at other
      exact (ih (attachComments_next run) other.2).trans
        (External.decl?_annotate_of_notMem other.1)

/-- What a pass hands out to declarations without comments. -/
theorem attachComments_handsOut
    (run : attachComments units comments tokens s = .ok left s')
    (apart : comments.Pairwise (·.start < ·.start)) (declare : ∀ unit ∈ units, unit.decls ≠ [])
    (distinct : (units.flatMap External.decls).Nodup)
    (bare : ∀ id ∈ units.flatMap External.decls,
      ∃ decl, s.arenas.decl? id = some decl ∧ decl.comments = {}) :
    ∃ kept, HandsOut units comments kept left s.arenas s'.arenas := by
  induction units generalizing comments s with
  | nil =>
      obtain ⟨rfl, rfl⟩ := pure_ok run
      exact ⟨[], .refl _, rfl, fun _ => .inl, fun _ _ => rfl, by simp⟩
  | cons unit units ih =>
      rw [List.flatMap_cons] at distinct
      obtain ⟨-, later, disjoint⟩ := List.nodup_append'.mp distinct
      obtain ⟨kept, rest⟩ := ih (attachComments_next run)
        (apart.sublist (unit.rest_sublist comments))
        (fun other member => declare other (List.mem_cons_of_mem _ member)) later
        fun id member => by
          rw [External.decl?_annotate_of_notMem fun early => disjoint early member]
          exact bare id (List.mem_append_right _ member)
      exact ⟨_, rest.cons apart (declare unit List.mem_cons_self) distinct
        fun id member => bare id (List.mem_append_left _ member)⟩

/-- What is left over is carried behind all else. -/
theorem texts_annotated_last {decls : List DeclId} (declares : decls ≠ []) (distinct : decls.Nodup)
    (plain : ∀ id ∈ decls, ∃ decl, a.decl? id = some decl ∧ decl.comments.after = [])
    (after : List String) :
    decls.flatMap (a.annotated decls.getLast? ({ · with after })).texts =
      decls.flatMap a.texts ++ after := by
  obtain rfl | ⟨front, last, rfl⟩ := decls.eq_nil_or_concat
  · exact absurd rfl declares
  · rw [List.concat_eq_append] at distinct plain ⊢
    rw [List.getLast?_concat, List.flatMap_append, List.flatMap_append, List.append_assoc]
    congr 1
    · refine List.flatMap_congr fun id member => ?_
      have other : some last ≠ some id := by
        intro same
        obtain rfl := Option.some.inj same
        exact List.disjoint_of_nodup_append distinct member (List.mem_singleton_self _)
      rw [Arenas.texts, Arenas.texts, Arenas.decl?_annotated_of_ne other]
    · obtain ⟨decl, found, none⟩ := plain last (by simp)
      simp [Arenas.texts, Arenas.decl?_annotated_self, found, Comments.texts, none]

/-- An external declaration takes up the tokens from one position up to another one. -/
structure External.TakesUp (tokens : List Token) (i j : Nat) (unit : External) : Prop where
  some : i < j
  start : tokens[i]?.map Token.start = .some unit.start
  finish : tokens[j - 1]?.map Token.finish = .some unit.finish

theorem Sheet.UnitLies.takesUp {tokens : List Token} {arenas : Arenas} {i j : Nat}
    (lies : Sheet.UnitLies ⟨tokens.toArray, arenas⟩ i j unit) (inside : j < tokens.length) :
    unit.TakesUp tokens i j := by
  have some := lies.some
  have first : i < tokens.length := by omega
  have last : j - 1 < tokens.length := by omega
  refine ⟨some, ?_, ?_⟩
  · simp [lies.start, Tokens.start, first]
  · simp [lies.finish, Tokens.finish, last]

end Grammar

open Grammar

namespace Program

variable {p : Program} {file source : String}

/-- No top-level declaration has comments before they are handed out. -/
theorem Comes.bare_decls {units : List External} {s t : State} {left : List Comment}
    (whole : (Reading.ofSource source).failure = none)
    (comes : p.Comes (Reading.ofSource source) units s t left) {id : DeclId}
    (member : id ∈ units.flatMap External.decls) :
    ∃ decl, s.arenas.decl? id = some decl ∧ decl.comments = {} := by
  obtain ⟨laid, consecutive, -⟩ := comes.laid whole
  obtain ⟨unit, listed, inside⟩ := List.mem_flatMap.mp member
  obtain ⟨first, last, -, -, lies⟩ := consecutive.found unit listed
  obtain ⟨_, _, -, -, span, found, -⟩ := lies.inside (.decl id)
    (List.mem_flatMap.mpr ⟨id, inside, List.mem_cons_self⟩)
  obtain ⟨decl, there, -⟩ := Option.map_eq_some_iff.mp found
  have owned : s.arenas.owns (.decl id) = true :=
    decide_eq_true (Array.getElem?_eq_some_iff.mp there).1
  obtain ⟨same, again, plain, -⟩ := laid (.decl id) (by simp) owned
  exact ⟨same, again, plain⟩

/-- Comments are handed out in order, each of them once or, inside an external declaration,
not at all; only what is left over goes behind a declaration. -/
theorem read_comments (parsed : read file source = .ok p) (declares : p.decls ≠ []) :
    ∃ units state,
      Parse.many (external? (.nested (Reading.ofSource source).tokens.length))
        (Reading.ofSource source).tokens.toArray {} = .ok units state ∧
      Consecutive (External.TakesUp (Reading.ofSource source).tokens) 0 units
        ((Reading.ofSource source).tokens.length - 1) ∧
      p.decls = units.flatMap External.decls ∧
      ∃ kept : List Comment, kept.Sublist (Reading.ofSource source).comments ∧
        kept.Pairwise (·.start < ·.start) ∧
        p.decls.flatMap p.arenas.texts = kept.map Comment.text ∧
        (∀ comment ∈ (Reading.ofSource source).comments, comment ∉ kept →
          ∃ unit ∈ units, unit.start ≤ comment.start ∧ comment.start < unit.finish) ∧
        (∀ id decl, p.decl? id = some decl → id ∉ p.decls → decl.comments = {}) ∧
        ∀ id decl, p.decl? id = some decl → decl.comments.after ≠ [] →
          p.decls.getLast? = some id := by
  have whole := whole_of_read parsed
  obtain ⟨units, s, t, left, comes⟩ := read_comes parsed
  obtain ⟨-, consecutive, last⟩ := comes.laid whole
  have apart : (Reading.ofSource source).comments.Pairwise (·.start < ·.start) :=
    (Reading.ofChars_inOrder _ _ _).commentsApart
  have distinct : p.decls.Nodup := nodup_of_read parsed
  have declare : ∀ unit ∈ units, unit.decls ≠ [] := by
    intro unit listed
    obtain ⟨_, _, -, -, lies⟩ := consecutive.found unit listed
    exact lies.declares
  obtain ⟨kept, hands⟩ := attachComments_handsOut comes.attaches apart declare
    (comes.decls ▸ distinct) fun id => comes.bare_decls whole
  have others (id : DeclId) (other : p.decls.getLast? ≠ some id) :
      p.decl? id = t.arenas.decl? id := by
    rw [decl?, comes.arenas, Arenas.decl?_annotated_of_ne other]
  have lower (id : DeclId) (decl : Decl) (absent : id ∉ p.decls) (found : p.decl? id = some decl) :
      decl.comments = {} := by
    rw [others id fun same => absent (List.mem_of_getLast? same),
      hands.others id (comes.decls ▸ absent)] at found
    have owned : s.arenas.owns (.decl id) = true :=
      decide_eq_true (Array.getElem?_eq_some_iff.mp found).1
    obtain ⟨same, there, plain, -⟩ := (comes.laid whole).1 (.decl id) (by simp) owned
    obtain rfl : decl = same := Option.some.inj (found.symm.trans there)
    exact plain
  refine ⟨units, s, comes.reads, ?_, comes.decls, kept ++ left, hands.ordered,
    apart.sublist hands.ordered, ?_,
    fun comment member => (hands.missing comment member).resolve_left,
    fun id decl found absent => lower id decl absent found, fun id decl found carries => ?_⟩
  · have final : (Reading.ofSource source).tokens.length - 1 = s.position := by omega
    rw [final]
    exact consecutive.imp fun _ _ _ le lies => lies.takesUp (by omega)
  · rw [comes.arenas, texts_annotated_last declares distinct fun id member =>
      hands.after id (comes.decls ▸ member), List.map_append, ← hands.carried, comes.decls]
  · by_contra other
    by_cases top : id ∈ p.decls
    · obtain ⟨same, there, none⟩ := hands.after id (comes.decls ▸ top)
      rw [others id other, there] at found
      cases found
      exact carries none
    · exact carries (by rw [lower id decl top found])

/-- Comments before, inside and behind declarations, two of which share their specifiers. -/
def notedSource : String :=
  "/* x */ int /* in */ x, y; // y\n// z\nint z; /* z\n*/ // z too\n// end\n"

theorem read_comments_notedSource :
    ∃ p, read "noted.c" notedSource = .ok p ∧
      p.decls.map p.arenas.texts =
        [["/* x */"], ["// y"], ["// z", "/* z\n*/", "// z too", "// end"]] ∧
      ∃ kept : List Comment, kept.Sublist (Reading.ofSource notedSource).comments ∧
        p.decls.flatMap p.arenas.texts = kept.map Comment.text ∧
        ∀ id decl, p.decl? id = some decl → decl.comments.after ≠ [] →
          p.decls.getLast? = some id := by
  have shape : (read "noted.c" notedSource).toOption.map (fun p =>
      (p.decls.length, p.decls.map p.arenas.texts)) =
      some (3, [["/* x */"], ["// y"], ["// z", "/* z\n*/", "// z too", "// end"]]) := by
    decide +kernel
  obtain ⟨p, parsed, seen⟩ := exists_read_of_map shape
  simp only [Prod.mk.injEq] at seen
  obtain ⟨length, texts⟩ := seen
  have declares : p.decls ≠ [] := by
    rintro none
    simp [none] at length
  obtain ⟨_, _, -, -, -, kept, sublist, -, carried, -, -, after⟩ := read_comments parsed declares
  exact ⟨p, parsed, texts, kept, sublist, carried, after⟩

end Program

end SyntaxGraph
