import SyntaxGraph.Emission.Session
import SyntaxGraph.Proofs.Emission.Routing
import SyntaxGraph.Proofs.Walk.Unbound

/-!
# Sessions write each field once

Each step of a session gives the program at most further bindings: a field that is bound
keeps what it holds, and without its bindings the program stays the same.  So it is in the
whole session, and what a walk or a dump sees never changes.
-/

set_option autoImplicit false

namespace SyntaxGraph

namespace Session

theorem evolves_perform (p : Program) (step : Step) : p.Evolves (perform p step).1 := by
  cases step with
  | bind binding =>
      rw [perform]
      split
      · next accepted => exact (Program.fills_of_bind accepted).evolves
      · exact .refl p
  | route config => exact Emission.evolves_route config p
  | walk | dump | emit => exact .refl p

theorem evolves_run (steps : List Step) (p : Program) : p.Evolves (run p steps).1 := by
  induction steps generalizing p with
  | nil => exact .refl p
  | cons step rest ih => exact (evolves_perform p step).trans (ih (perform p step).1)

theorem run_append (p : Program) (first rest : List Step) :
    run p (first ++ rest) =
      ((run (run p first).1 rest).1, (run p first).2 ++ (run (run p first).1 rest).2) := by
  induction first generalizing p with
  | nil => rfl
  | cons step first ih => simp only [List.cons_append, run, ih]

theorem length_answers (p : Program) (steps : List Step) :
    (run p steps).2.length = steps.length := by
  induction steps generalizing p with
  | nil => rfl
  | cons step rest ih => exact congrArg (· + 1) (ih (perform p step).1)

/-! ## Single bindings -/

/-- What comes of a binding: it is accepted exactly if its field is there and holds nothing,
and then the program behind it is the one that differs in that field alone; otherwise the
program stays, and the error says whether the field is taken or absent. -/
structure WritesOnce (p : Program) (binding : Binding) (error : Option BindError)
    (q : Program) : Prop where
  accepted : error = none ↔ p.field? binding.field = some none
  written : error = none → ∀ r : Program, r = q ↔
    r.field? binding.field = some (some binding.value) ∧
      (∀ other, other ≠ binding.field → r.field? other = p.field? other) ∧
      r.unbound = p.unbound
  refused : error ≠ none → q = p
  alreadyBound : error = some (.alreadyBound binding) ↔
    ∃ value, p.field? binding.field = some (some value)
  otherwise : ∀ failure, error = some failure → failure = .alreadyBound binding ∨
    ∃ init index member, binding = .designator init index member ∧
      p.field? (.designator init index) = none ∧ failure = .notAFieldDesignator init index

theorem writesOnce_of_fills {p q : Program} {binding : Binding} (fills : p.Fills binding q) :
    WritesOnce p binding none q where
  accepted := iff_of_true rfl fills.free
  written _ r := by
    refine ⟨?_, fun ⟨filled, others, bare⟩ => Program.ext_fields ?_ fun field => ?_⟩
    · rintro rfl
      exact ⟨fills.filled, fills.others, fills.unbound⟩
    · rw [bare, fills.unbound]
    · by_cases here : field = binding.field
      · rw [here, filled, fills.filled]
      · rw [others field here, fills.others field here]
  refused failed := absurd rfl failed
  alreadyBound := by simp [fills.free]
  otherwise _ failed := by cases failed

theorem writesOnce_of_refuses {p : Program} {binding : Binding} {error : BindError}
    (refuses : p.Refuses binding error) (owned : p.owns binding.node = true) :
    WritesOnce p binding (some error) p := by
  cases refuses with
  | missing missing => simp [owned] at missing
  | alreadyBound value taken =>
      exact {
        accepted := by simp [taken]
        written := fun accepted => by cases accepted
        refused := fun _ => rfl
        alreadyBound := iff_of_true rfl ⟨value, taken⟩
        otherwise := fun failure failed => .inl (Option.some.inj failed).symm }
  | notAFieldDesignator designates absent =>
      exact {
        accepted := by simp [absent]
        written := fun accepted => by cases accepted
        refused := fun _ => rfl
        alreadyBound := by simp [absent]
        otherwise := fun failure failed => .inr
          ⟨_, _, _, designates, by rwa [designates] at absent, (Option.some.inj failed).symm⟩ }

theorem perform_bind {p : Program} {binding : Binding} (owned : p.owns binding.node = true) :
    ∃ error, (perform p (.bind binding)).2 = .bound error ∧
      WritesOnce p binding error (perform p (.bind binding)).1 := by
  rw [perform]
  split
  · next accepted => exact ⟨none, rfl, writesOnce_of_fills (Program.fills_of_bind accepted)⟩
  · next error refused =>
      exact ⟨some error, rfl, writesOnce_of_refuses (Program.refuses_of_bind refused) owned⟩

/-! ## Whole sessions -/

/-- Behind each step of a session, whatever the others are: a binding has written its field
once or has been refused, what a field holds it keeps to the end, and walks and dumps from
every root are as they were. -/
theorem run_writes_once (p : Program) (steps : List Step)
    (owned : ∀ binding, Step.bind binding ∈ steps → p.owns binding.node = true)
    (before after : List Step) (step : Step) (split : steps = before ++ step :: after) :
    let q := (run p before).1
    let r := (perform q step).1
    let answer := (perform q step).2
    (run p steps).2[before.length]? = some answer ∧
      (∀ binding, step = .bind binding →
        ∃ error, answer = .bound error ∧ WritesOnce q binding error r) ∧
      (∀ field value, r.field? field = some (some value) →
        (run p steps).1.field? field = some (some value)) ∧
      ∀ root, r.walk root = q.walk root ∧ r.dumpFrom root = q.dumpFrom root := by
  intro q r answer
  have whole : run p steps = ((run (perform q step).1 after).1,
      (run p before).2 ++ (perform q step).2 :: (run (perform q step).1 after).2) := by
    rw [split, run_append]
    rfl
  refine ⟨?answered, ?bound, ?kept, ?seen⟩
  case answered =>
    rw [whole, ← length_answers p before, List.getElem?_append_right (Nat.le_refl _),
      Nat.sub_self, List.getElem?_cons_zero]
  case bound =>
    rintro binding rfl
    refine perform_bind ?_
    rw [Program.owns_of_unbound (evolves_run before p).unbound]
    exact owned binding (by simp [split])
  case kept =>
    intro field value held
    rw [whole]
    exact (evolves_run after _).keeps field value held
  case seen => exact Program.walk_of_unbound (evolves_perform q step).unbound

/-- A variable whose initializer has an item with two designators, of which the second one is
an index. -/
def designated : Program where
  file := "pair.c"
  decls := [⟨0⟩]
  arenas := {
    decls := #[{ name := "pair", type := ⟨0⟩, init := some ⟨0⟩, span := default }]
    types := #[.tagged .struct (some "pair") [] default]
    exprs := #[{ form := .number "1", span := default }]
    inits := #[
      { form := .braced [⟨1⟩], span := default },
      { designators := [.field "first" default, .index ⟨0⟩ default], form := .scalar ⟨0⟩,
        span := default }] }

def rebinding : List Step :=
  [.bind (.designator ⟨1⟩ 0 ⟨0⟩), .route {}, .bind (.group ⟨0⟩ "own"), .walk .program,
    .bind (.designator ⟨1⟩ 1 ⟨0⟩), .bind (.exprType ⟨0⟩ ⟨7⟩)]

theorem run_writes_once_rebinding :
    (∀ binding, Step.bind binding ∈ rebinding → designated.owns binding.node = true) ∧
      (run designated rebinding).2[2]? =
        some (.bound (some (.alreadyBound (.group ⟨0⟩ "own")))) ∧
      (run designated rebinding).2[4]? = some (.bound (some (.notAFieldDesignator ⟨1⟩ 1))) ∧
      (run designated rebinding).2[5]? = some (.bound none) ∧
      (run designated rebinding).1.field? (.group ⟨0⟩) = some (some (.name "other")) := by
  have owned : ∀ binding, Step.bind binding ∈ rebinding →
      designated.owns binding.node = true := by
    intro binding inside
    simp only [rebinding, List.mem_cons, Step.bind.injEq, reduceCtorEq, false_or,
      List.not_mem_nil, or_false] at inside
    rcases inside with rfl | rfl | rfl | rfl <;> decide +kernel
  have behind (count : Nat) (step : Step) (there : rebinding[count]? = some step) :=
    run_writes_once designated rebinding owned (rebinding.take count) (rebinding.drop (count + 1))
      step (by
        obtain ⟨inside, equal⟩ := List.getElem?_eq_some_iff.mp there
        rw [← equal, ← List.drop_eq_getElem_cons, List.take_append_drop])
  refine ⟨owned, ?taken, ?index, ?free, ?kept⟩
  case taken =>
    obtain ⟨answered, bound, -⟩ := behind 2 _ rfl
    obtain ⟨error, equal, once⟩ := bound _ rfl
    rw [once.alreadyBound.mpr ⟨.name "other", by decide +kernel⟩] at equal
    exact answered.trans (congrArg some equal)
  case index =>
    obtain ⟨answered, bound, -⟩ := behind 4 _ rfl
    obtain ⟨error, equal, once⟩ := bound _ rfl
    have absent : (run designated (rebinding.take 4)).1.field? (.designator ⟨1⟩ 1) = none := by
      decide +kernel
    have failed : error ≠ none := fun free => by
      simpa [Binding.field, absent] using once.accepted.mp free
    obtain ⟨failure, rfl⟩ := Option.ne_none_iff_exists'.mp failed
    rcases once.otherwise failure rfl with rfl | ⟨init, index, member, same, -, rfl⟩
    · simpa [Binding.field, absent] using once.alreadyBound.mp rfl
    · cases same
      exact answered.trans (congrArg some equal)
  case free =>
    obtain ⟨answered, bound, -⟩ := behind 5 _ rfl
    obtain ⟨error, equal, once⟩ := bound _ rfl
    rw [once.accepted.mpr (by decide +kernel)] at equal
    exact answered.trans (congrArg some equal)
  case kept =>
    obtain ⟨-, -, kept, -⟩ := behind 1 _ rfl
    exact kept _ _ (by decide +kernel)

end Session

end SyntaxGraph
