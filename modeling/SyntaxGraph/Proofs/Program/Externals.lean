import SyntaxGraph.Proofs.Grammar.Externals
import SyntaxGraph.Proofs.Lists
import SyntaxGraph.Proofs.Program.Read
import SyntaxGraph.Proofs.Spans.TranslationUnit

/-!
# The external declarations of a program

A program that has been read comes from external declarations that follow each other and
take up all tokens but the end of the file.  All nodes are there when these have been read,
and then comments are handed out.
-/

set_option autoImplicit false

namespace SyntaxGraph

open Token (Reading Ended)

namespace Grammar

/-! ## Handing out comments -/

namespace External

/-- The comments that go before the first declaration. -/
def before (unit : External) (comments : List Comment) : List Comment :=
  comments.takeWhile (·.start < unit.start)

def behind (unit : External) (comments : List Comment) : List Comment :=
  (comments.drop (unit.before comments).length).dropWhile (·.start < unit.finish)

/-- The comments that become the suffix of the last declaration. -/
def suffix (unit : External) (comments : List Comment) : List Comment :=
  (unit.behind comments).takeWhile (·.start.line = unit.finish.line)

/-- The comments that are left for later declarations. -/
def rest (unit : External) (comments : List Comment) : List Comment :=
  (unit.behind comments).drop (unit.suffix comments).length

def annotate (unit : External) (comments : List Comment) (a : Arenas) : Arenas :=
  (a.annotated unit.decls.head?
    ({ · with before := (unit.before comments).map Comment.text })).annotated
      unit.decls.getLast? ({ · with suffix := (unit.suffix comments).map Comment.text })

theorem plain_annotate (unit : External) (comments : List Comment) (a : Arenas) :
    (unit.annotate comments a).plain = a.plain := by
  rw [annotate, Arenas.plain_annotated, Arenas.plain_annotated]

/-- The comments that go to no declaration are those inside. -/
theorem comments_eq (unit : External) (comments : List Comment) :
    comments = unit.before comments ++
      ((comments.dropWhile (·.start < unit.start)).takeWhile (·.start < unit.finish) ++
        (unit.suffix comments ++ unit.rest comments)) := by
  have others : unit.suffix comments ++ unit.rest comments = unit.behind comments := by
    rw [rest, suffix, drop_length_takeWhile, List.takeWhile_append_dropWhile]
  rw [others, behind, before, drop_length_takeWhile, List.takeWhile_append_dropWhile,
    List.takeWhile_append_dropWhile]

end External

variable {tokens : Tokens} {rules : Rules} {unit : External} {units : List External}
  {comments left : List Comment} {s s' : State}

theorem annotate_ok {decl : Option DeclId} {change : Comments → Comments} {value : Unit}
    (run : annotate decl change tokens s = .ok value s') :
    s' = { s with arenas := s.arenas.annotated decl change } := by
  cases decl with
  | none =>
      cases run
      rfl
  | some id =>
      obtain ⟨found, changes⟩ := look_then declNode_observes run
      cases changes
      rfl

theorem attachComments_next (run : attachComments (unit :: units) comments tokens s = .ok left s') :
    attachComments units (unit.rest comments) tokens
      { s with arenas := unit.annotate comments s.arenas } = .ok left s' := by
  obtain ⟨_, first, heads, rest⟩ := bind_ok run
  obtain rfl := annotate_ok heads
  obtain ⟨_, second, lasts, rest⟩ := bind_ok rest
  obtain rfl := annotate_ok lasts
  exact rest

theorem attachComments_plain (run : attachComments units comments tokens s = .ok left s') :
    s'.arenas.plain = s.arenas.plain := by
  induction units generalizing comments s with
  | nil =>
      obtain ⟨-, rfl⟩ := pure_ok run
      rfl
  | cons unit units ih =>
      exact (ih (attachComments_next run)).trans (unit.plain_annotate comments s.arenas)

end Grammar

open Grammar

namespace Program

variable {file source : String} {p : Program}

/-- How a program comes from the tokens and comments of a source. -/
structure Comes (p : Program) (reading : Reading) (units : List External) (s t : State)
    (left : List Comment) : Prop where
  reads : Parse.many (external? (.nested reading.tokens.length)) reading.tokens.toArray {} =
    .ok units s
  attaches : attachComments units reading.comments reading.tokens.toArray s = .ok left t
  decls : p.decls = units.flatMap External.decls
  arenas : p.arenas =
    t.arenas.annotated p.decls.getLast? ({ · with after := left.map Comment.text })

theorem whole_of_read (parsed : read file source = .ok p) :
    (Reading.ofSource source).failure = none := by
  cases outcome : (Reading.ofSource source).failure with
  | none => rfl
  | some failure =>
      rw [read_of_failure outcome] at parsed
      cases parsed

theorem read_comes (parsed : read file source = .ok p) :
    ∃ units s t left, p.Comes (Reading.ofSource source) units s t left := by
  obtain ⟨state, run, same, -⟩ := parse_of_read parsed
  obtain ⟨tokens, _, looked, rest⟩ := bind_ok run
  cases looked
  obtain ⟨units, s, reads, rest⟩ := bind_ok rest
  obtain ⟨left, t, attaches, rest⟩ := bind_ok rest
  obtain ⟨_, last, annotates, rest⟩ := bind_ok rest
  obtain ⟨decls, rfl⟩ := pure_ok rest
  obtain rfl := annotate_ok annotates
  refine ⟨units, s, t, left, reads, attaches, decls, ?_⟩
  rw [← same, decls]

namespace Comes

variable {units : List External} {s t : State} {left : List Comment}

def sheet (reading : Reading) (s : State) : Sheet := ⟨reading.tokens.toArray, s.arenas⟩

theorem plain {reading : Reading} (comes : p.Comes reading units s t left) :
    p.arenas.plain = s.arenas.plain := by
  rw [comes.arenas, Arenas.plain_annotated, attachComments_plain comes.attaches]

/-- All nodes are laid out, and the external declarations take up all tokens but the last. -/
theorem laid (whole : (Reading.ofSource source).failure = none)
    (comes : p.Comes (Reading.ofSource source) units s t left) :
    (∀ node, node ≠ .program → s.arenas.owns node = true →
      (sheet (Reading.ofSource source) s).Laid node) ∧
      Consecutive (sheet (Reading.ofSource source) s).UnitLies 0 units s.position ∧
      s.position + 1 = (Reading.ofSource source).tokens.length := by
  have ended := Reading.ofSource_ended whole
  have lays : Lays (sheet (Reading.ofSource source) s) True 0
      (Parse.many (external? (.nested (Reading.ofSource source).tokens.length)))
      fun j units => Consecutive (sheet (Reading.ofSource source) s).UnitLies 0 units j :=
    externals_lay _
  obtain ⟨moves, lay⟩ := lays {} units s rfl ended.length_pos comes.reads
  obtain ⟨laid, consecutive⟩ := lay (.refl _) (Reading.ofSource_ordered whole) trivial
  refine ⟨fun node real owned => laid node ?_ owned, consecutive, ?_⟩
  · cases node with
    | program => exact absurd rfl real
    | _ => rfl
  · exact Tokens.end_of_kind ended moves.inside (externals_end (many_ok comes.reads))

/-- No comments have been handed out yet. -/
theorem bare (whole : (Reading.ofSource source).failure = none)
    (comes : p.Comes (Reading.ofSource source) units s t left) : s.arenas.plain = s.arenas := by
  have decls : s.arenas.decls.map Decl.plain = s.arenas.decls := by
    refine Array.ext (by simp) fun index _ inside => ?_
    obtain ⟨decl, there, uncommented, -⟩ :=
      (comes.laid whole).1 (.decl ⟨index⟩) (by simp) (decide_eq_true inside)
    have same : s.arenas.decls[index] = decl :=
      Option.some.inj ((Array.getElem?_eq_getElem inside).symm.trans there)
    rw [Array.getElem_map, same, Decl.plain, ← uncommented]
  rw [Arenas.plain, decls]

end Comes

end Program

end SyntaxGraph
