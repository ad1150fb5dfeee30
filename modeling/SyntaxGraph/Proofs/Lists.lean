/-!
# Lists and arrays

What the library does not say of lists: which values are taken from the front as long as a
condition holds, what is looked up in a table from which entries have been taken, and which
runs over a list succeed.  And what it does not say of arrays: what holds of all values still
does where one has been added or changed.
-/

set_option autoImplicit false

namespace SyntaxGraph

variable {α β ε : Type}

/-! ## Values in front -/

theorem drop_length_takeWhile (admits : α → Bool) (values : List α) :
    values.drop (values.takeWhile admits).length = values.dropWhile admits := by
  calc values.drop (values.takeWhile admits).length
      = (values.takeWhile admits ++ values.dropWhile admits).drop
          (values.takeWhile admits).length := by rw [List.takeWhile_append_dropWhile]
    _ = values.dropWhile admits := List.drop_left

theorem takeWhile_append_of_none {admits : α → Bool} {others : List α}
    (none : ∀ value ∈ others, admits value = false) (values : List α) :
    (values ++ others).takeWhile admits = values.takeWhile admits := by
  induction values with
  | nil =>
      cases others with
      | nil => rfl
      | cons value others =>
          exact List.takeWhile_cons_of_neg (by simp [none value List.mem_cons_self])
  | cons value values ih => rw [List.cons_append, List.takeWhile_cons, List.takeWhile_cons, ih]

theorem dropWhile_append_of_none {admits : α → Bool} {others : List α}
    (none : ∀ value ∈ others, admits value = false) (values : List α) :
    (values ++ others).dropWhile admits = values.dropWhile admits ++ others := by
  induction values with
  | nil =>
      cases others with
      | nil => rfl
      | cons value others =>
          exact List.dropWhile_cons_of_neg (by simp [none value List.mem_cons_self])
  | cons value values ih =>
      rw [List.cons_append, List.dropWhile_cons, List.dropWhile_cons, ih]
      split <;> rfl

/-- A condition that only values in front meet takes the values that meet it. -/
theorem takeWhile_eq_filter {values : List α} {meets : α → Bool}
    (early : values.Pairwise fun one other => meets other = true → meets one = true) :
    values.takeWhile meets = values.filter meets := by
  induction values with
  | nil => rfl
  | cons first rest ih =>
      obtain ⟨before, early⟩ := List.pairwise_cons.mp early
      by_cases met : meets first = true
      · rw [List.takeWhile_cons_of_pos met, List.filter_cons_of_pos met, ih early]
      · have none : rest.filter meets = [] :=
          List.filter_eq_nil_iff.mpr fun value member here => met (before value member here)
        rw [List.takeWhile_cons_of_neg met, List.filter_cons_of_neg met, none]

theorem dropWhile_eq_filter {values : List α} {meets : α → Bool}
    (early : values.Pairwise fun one other => meets other = true → meets one = true) :
    values.dropWhile meets = values.filter (!meets ·) := by
  induction values with
  | nil => rfl
  | cons first rest ih =>
      obtain ⟨before, early⟩ := List.pairwise_cons.mp early
      by_cases met : meets first = true
      · rw [List.dropWhile_cons_of_pos met, ih early]
        simp [met]
      · have all : rest.filter (!meets ·) = rest :=
          List.filter_eq_self.mpr fun value member => by
            simpa using fun here => met (before value member here)
        rw [List.dropWhile_cons_of_neg met]
        simp [met, all]

/-! ## Tables -/

/-- Entries of other keys do not count. -/
theorem lookup_filter_of_kept [DecidableEq α] (kept : α → Bool) {key : α}
    (keeps : kept key = true) (entries : List (α × β)) :
    (entries.filter fun entry => kept entry.1).lookup key = entries.lookup key := by
  induction entries with
  | nil => rfl
  | cons entry rest ih =>
      obtain ⟨held, value⟩ := entry
      cases here : kept held with
      | true => simp only [List.filter_cons, here, if_true, List.lookup_cons, ih]
      | false =>
          have apart : (key == held) = false := beq_eq_false_iff_ne.mpr fun same => by
            simp [← same, keeps] at here
          simp [here, List.lookup_cons, apart, ih]

/-! ## Runs that may fail -/

theorem mapM_ok {action : α → Except ε β} {result : α → β} {values : List α}
    (each : ∀ value ∈ values, action value = .ok (result value)) :
    values.mapM action = .ok (values.map result) := by
  induction values with
  | nil => rfl
  | cons value values ih =>
      have first := each value List.mem_cons_self
      have others := ih fun other member => each other (List.mem_cons_of_mem _ member)
      rw [List.mapM_cons, first, others]
      rfl

theorem exists_of_mapM_ok {action : α → Except ε β} {values : List α}
    {results : List β} (run : values.mapM action = .ok results) :
    ∀ value ∈ values, ∃ result, action value = .ok result := by
  induction values generalizing results with
  | nil => simp
  | cons value rest ih =>
      rw [List.mapM_cons] at run
      cases first : action value with
      | error error =>
          rw [first] at run
          cases run
      | ok result =>
          rw [first] at run
          cases others : rest.mapM action with
          | error error =>
              rw [others] at run
              cases run
          | ok results => exact List.forall_mem_cons.mpr ⟨⟨result, first⟩, ih others⟩

theorem map_eq_ok {run : Except ε α} {change : α → β} {result : β}
    (changed : change <$> run = .ok result) : ∃ value, run = .ok value ∧ change value = result := by
  cases run with
  | error error => cases changed
  | ok value => exact ⟨value, rfl, Except.ok.inj changed⟩

/-! ## Arrays -/

theorem forall_mem_push {holds : α → Prop} {values : Array α} {value : α}
    (all : ∀ other ∈ values, holds other) (one : holds value) :
    ∀ other ∈ values.push value, holds other := by
  intro other member
  rcases Array.mem_push.mp member with earlier | rfl
  · exact all other earlier
  · exact one

theorem forall_mem_modify {holds : α → Prop} {values : Array α} {change : α → α} {index : Nat}
    (all : ∀ value ∈ values, holds value)
    (changed : ∀ value, values[index]? = some value → holds (change value)) :
    ∀ value ∈ values.modify index change, holds value := by
  intro value member
  obtain ⟨place, found⟩ := Array.mem_iff_getElem?.mp member
  rw [Array.getElem?_modify] at found
  split at found
  · next same =>
    subst same
    obtain ⟨old, there, rfl⟩ := Option.map_eq_some_iff.mp found
    exact changed old there
  · exact all value (Array.mem_of_getElem? found)

end SyntaxGraph
