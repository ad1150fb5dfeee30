import Mathlib.Data.List.Nodup
import Mathlib.Data.List.Perm.Subperm
import SyntaxGraph.Program.Walk

/-!
# The steps of a walk

Every node that the arenas own has a slot of its own in the bitmap, so a bitmap is
as good as the list of the nodes marked in it.  `Walks` says what a walk does from
such a list and a stack on: which events it adds, and at which node it fails, if it
fails.  It has one rule for each kind of step, and everything else about walks is
read off these rules; `run_walks` ties them to the walk over a bitmap.
-/

set_option autoImplicit false

namespace SyntaxGraph

/-! ## Slots -/

namespace Arenas

variable {a : Arenas}

theorem slot_lt_slots {node : NodeRef} (owned : a.owns node = true) :
    a.slot node < a.slots := by
  cases node <;>
    simp only [owns, decide_eq_true_eq] at owned <;>
    simp only [slot, slots] <;>
    omega

/-- The kinds lie behind each other, so two owned nodes share a slot only if they
are of the same kind and have the same index. -/
theorem slot_injective {first second : NodeRef} (firstOwned : a.owns first = true)
    (secondOwned : a.owns second = true) (same : a.slot first = a.slot second) :
    first = second := by
  rcases first with _ | ⟨⟨i⟩⟩ | ⟨⟨i⟩⟩ | ⟨⟨i⟩⟩ | ⟨⟨i⟩⟩ | ⟨⟨i⟩⟩ | ⟨⟨i⟩⟩ <;>
    rcases second with _ | ⟨⟨j⟩⟩ | ⟨⟨j⟩⟩ | ⟨⟨j⟩⟩ | ⟨⟨j⟩⟩ | ⟨⟨j⟩⟩ | ⟨⟨j⟩⟩ <;>
    simp only [owns, slot, decide_eq_true_eq] at firstOwned secondOwned same <;>
    first
    | rfl
    | omega
    | (congr; omega)

/-- There are no more distinct owned nodes than slots. -/
theorem length_le_slots {nodes : List NodeRef} (distinct : nodes.Nodup)
    (owned : ∀ node ∈ nodes, a.owns node = true) : nodes.length ≤ a.slots := by
  have slotsDistinct : (nodes.map a.slot).Nodup := by
    refine List.Nodup.map_on (fun first firstMember second secondMember same => ?_) distinct
    exact slot_injective (owned first firstMember) (owned second secondMember) same
  have inside : nodes.map a.slot ⊆ List.range a.slots := by
    intro slot member
    obtain ⟨node, nodeMember, rfl⟩ := List.mem_map.mp member
    exact List.mem_range.mpr (slot_lt_slots (owned node nodeMember))
  have bounded := (List.subperm_of_subset slotsDistinct inside).length_le
  simpa using bounded

end Arenas

namespace Walk

variable {p : Program}

/-! ## Bitmaps -/

/-- The bitmap marks the owned nodes of a list, and no others. -/
structure Marks (p : Program) (seen : Array Bool) (marked : List NodeRef) : Prop where
  size : seen.size = p.arenas.slots
  marks : ∀ node, p.owns node = true →
    (seen[p.arenas.slot node]? = some true ↔ node ∈ marked)

theorem Marks.empty (p : Program) : Marks p (Array.replicate p.arenas.slots false) [] where
  size := Array.size_replicate
  marks node _ := by
    simp [Array.getElem?_replicate]

theorem Marks.slot_lt {seen : Array Bool} {marked : List NodeRef} (marks : Marks p seen marked)
    {node : NodeRef} (owned : p.owns node = true) : p.arenas.slot node < seen.size := by
  rw [marks.size]
  exact Arenas.slot_lt_slots owned

theorem Marks.free_iff {seen : Array Bool} {marked : List NodeRef} (marks : Marks p seen marked)
    {node : NodeRef} (owned : p.owns node = true) (bound : p.arenas.slot node < seen.size) :
    seen[p.arenas.slot node] = false ↔ node ∉ marked := by
  rw [← marks.marks node owned, Array.getElem?_eq_getElem bound]
  simp

theorem Marks.set {seen : Array Bool} {marked : List NodeRef} (marks : Marks p seen marked)
    {node : NodeRef} (owned : p.owns node = true) :
    Marks p (seen.set (p.arenas.slot node) true (marks.slot_lt owned)) (node :: marked) where
  size := by rw [Array.size_set, marks.size]
  marks other otherOwned := by
    rw [Array.getElem?_set, List.mem_cons]
    by_cases same : p.arenas.slot node = p.arenas.slot other
    · have equal : node = other := Arenas.slot_injective owned otherOwned same
      simp [equal]
    · have differs : other ≠ node := fun equal => same (by rw [equal])
      rw [if_neg same, marks.marks other otherOwned]
      simp [differs]

/-! ## Steps -/

/-- From the marked nodes and the stack on, the walk adds these events, and fails at
this node, if it fails. -/
inductive Walks (p : Program) :
    List NodeRef → List Frame → List Event → Option NodeRef → Prop
  | done (marked : List NodeRef) : Walks p marked [] [] none
  | exit {marked : List NodeRef} {node : NodeRef} {depth : Nat} {stack : List Frame}
      {events : List Event} {missing : Option NodeRef}
      (rest : Walks p marked stack events missing) :
      Walks p marked (.exit node depth :: stack) (.exit node depth :: events) missing
  | skip {marked : List NodeRef} {node : NodeRef} {depth : Nat} {stack : List Frame}
      {events : List Event} {missing : Option NodeRef}
      (owned : p.owns node = true) (old : node ∈ marked)
      (rest : Walks p marked stack events missing) :
      Walks p marked (.enter node depth :: stack) events missing
  | enter {marked : List NodeRef} {node : NodeRef} {depth : Nat} {stack : List Frame}
      {events : List Event} {missing : Option NodeRef}
      (owned : p.owns node = true) (fresh : node ∉ marked)
      (rest : Walks p (node :: marked) (opened p node depth ++ stack) events missing) :
      Walks p marked (.enter node depth :: stack) (.enter node depth :: events) missing
  | fail (marked : List NodeRef) {node : NodeRef} (depth : Nat) (stack : List Frame)
      (unowned : p.owns node = false) :
      Walks p marked (.enter node depth :: stack) [] (some node)

/-- What the walk over a bitmap does follows the rules. -/
theorem run_walks {seen : Array Bool} {marked : List NodeRef} (marks : Marks p seen marked)
    (before : Array Event) (stack : List Frame) :
    ∃ events missing, Walks p marked stack events missing ∧
      run p seen before stack = ⟨before ++ events, missing⟩ := by
  fun_induction run p seen before stack generalizing marked with
  | case1 seen before => exact ⟨[], none, .done marked, by simp⟩
  | case2 seen before node depth stack ih =>
      obtain ⟨events, missing, rest, equal⟩ := ih marks
      refine ⟨.exit node depth :: events, missing, .exit rest, ?_⟩
      rw [equal]
      simp
  | case3 seen before node depth stack owned bound free ih =>
      have fresh : node ∉ marked := (marks.free_iff owned bound).mp free
      obtain ⟨events, missing, rest, equal⟩ := ih (marks.set owned)
      refine ⟨.enter node depth :: events, missing, .enter owned fresh rest, ?_⟩
      rw [equal]
      simp
  | case4 seen before node depth stack owned bound taken ih =>
      have old : node ∈ marked := by
        by_contra fresh
        exact taken ((marks.free_iff owned bound).mpr fresh)
      obtain ⟨events, missing, rest, equal⟩ := ih marks
      exact ⟨events, missing, .skip owned old rest, equal⟩
  | case5 seen before node depth stack owned outside ih =>
      exact absurd (marks.slot_lt owned) outside
  | case6 seen before node depth stack unowned =>
      have unowned : p.owns node = false := by simpa using unowned
      exact ⟨[], some node, .fail marked depth stack unowned, by simp⟩

theorem trace_walks (p : Program) (root : NodeRef) :
    ∃ events missing, Walks p [] [.enter root 0] events missing ∧
      p.trace root = ⟨events.toArray, missing⟩ := by
  obtain ⟨events, missing, walks, equal⟩ := run_walks (Marks.empty p) #[] [.enter root 0]
  refine ⟨events, missing, walks, ?_⟩
  rw [Program.trace, equal]
  simp

end Walk

end SyntaxGraph
