import Mathlib.Logic.Relation
import SyntaxGraph.Proofs.Walk.Steps

/-!
# What a walk visits

A walk that does not fail enters exactly the nodes that can be reached from its
root, each once, and exits each of them once; in between, the nodes that have been
entered and not yet exited form a chain from the root, each a child of the one
below it, and the depth of an event is the length of that chain.  A walk fails
exactly if a node can be reached that the program does not own.
-/

set_option autoImplicit false

namespace SyntaxGraph

/-- A node follows another along the edges from nodes to their children. -/
def Program.Reachable (p : Program) : NodeRef → NodeRef → Prop :=
  Relation.ReflTransGen fun parent child => child ∈ p.children parent

namespace Walk

variable {p : Program} {root : NodeRef}

/-- Where a node may be entered: the root while nothing is open, any other node as a
child of the innermost open one. -/
def Opens (p : Program) (root : NodeRef) (active : List NodeRef) (node : NodeRef) : Prop :=
  match active with
  | [] => node = root
  | parent :: _ => node ∈ p.children parent

/-- The events enter nodes where they may be entered and exit the innermost open
node, each at the depth that the number of nodes open below it gives, and leave none
of the active nodes open. -/
inductive Nested (p : Program) (root : NodeRef) : List NodeRef → List Event → Prop
  | done : Nested p root [] []
  | enter {active : List NodeRef} {node : NodeRef} {events : List Event}
      (place : Opens p root active node) (rest : Nested p root (node :: active) events) :
      Nested p root active (.enter node active.length :: events)
  | exit {active : List NodeRef} {node : NodeRef} {events : List Event}
      (rest : Nested p root active events) :
      Nested p root (node :: active) (.exit node active.length :: events)

/-- What the events of a walk from a root amount to. -/
structure Visits (p : Program) (root : NodeRef) (events : Array Event) : Prop where
  nodup : ((entered events).map Prod.fst).Nodup
  mem_iff : ∀ node, node ∈ (entered events).map Prod.fst ↔ p.Reachable root node
  exits : ((exited events).map Prod.fst).Perm ((entered events).map Prod.fst)
  nested : Nested p root [] events.toList

/-! ## Nodes of events -/

def enteredNodes (events : List Event) : List NodeRef := (entered events.toArray).map Prod.fst

def exitedNodes (events : List Event) : List NodeRef := (exited events.toArray).map Prod.fst

@[simp] theorem enteredNodes_nil : enteredNodes [] = [] := rfl

@[simp] theorem enteredNodes_enter (node : NodeRef) (depth : Nat) (events : List Event) :
    enteredNodes (.enter node depth :: events) = node :: enteredNodes events := rfl

@[simp] theorem enteredNodes_exit (node : NodeRef) (depth : Nat) (events : List Event) :
    enteredNodes (.exit node depth :: events) = enteredNodes events := rfl

@[simp] theorem exitedNodes_nil : exitedNodes [] = [] := rfl

@[simp] theorem exitedNodes_enter (node : NodeRef) (depth : Nat) (events : List Event) :
    exitedNodes (.enter node depth :: events) = exitedNodes events := rfl

@[simp] theorem exitedNodes_exit (node : NodeRef) (depth : Nat) (events : List Event) :
    exitedNodes (.exit node depth :: events) = node :: exitedNodes events := rfl

/-! ## Nesting -/

/-- A stack whose frames could be done one after the other as they stand. -/
inductive Pending (p : Program) (root : NodeRef) : List NodeRef → List Frame → Prop
  | done : Pending p root [] []
  | enter {active : List NodeRef} {node : NodeRef} {stack : List Frame}
      (place : Opens p root active node) (rest : Pending p root active stack) :
      Pending p root active (.enter node active.length :: stack)
  | exit {active : List NodeRef} {node : NodeRef} {stack : List Frame}
      (rest : Pending p root active stack) :
      Pending p root (node :: active) (.exit node active.length :: stack)

theorem Pending.start (p : Program) (root : NodeRef) : Pending p root [] [.enter root 0] :=
  .enter rfl .done

/-- Entering a node puts its children on the stack, which may all be entered while
the node is open, and then the exit that closes it. -/
theorem Pending.opened {active : List NodeRef} {stack : List Frame} (node : NodeRef)
    (pending : Pending p root active stack) :
    Pending p root (node :: active) (opened p node active.length ++ stack) := by
  have children : ∀ list : List NodeRef, (∀ child ∈ list, child ∈ p.children node) →
      Pending p root (node :: active)
        (list.map (Frame.enter · (active.length + 1)) ++ .exit node active.length :: stack) := by
    intro list
    induction list with
    | nil =>
        intro _
        exact .exit pending
    | cons child rest ih =>
        intro inside
        have place : Opens p root (node :: active) child := inside child List.mem_cons_self
        have others : ∀ other ∈ rest, other ∈ p.children node :=
          fun other member => inside other (List.mem_cons_of_mem child member)
        exact .enter place (ih others)
  have whole := children (p.children node) fun _ member => member
  simpa [Walk.opened] using whole

theorem Walks.nested {marked : List NodeRef} {stack : List Frame} {events : List Event}
    {active : List NodeRef} (walks : Walks p marked stack events none)
    (pending : Pending p root active stack) : Nested p root active events := by
  generalize outcome : none = missing at walks
  induction walks generalizing active with
  | done marked =>
      cases pending
      exact .done
  | exit rest ih =>
      cases pending with
      | exit below => exact .exit (ih below outcome)
  | skip owned old rest ih =>
      cases pending with
      | enter place below => exact ih below outcome
  | enter owned fresh rest ih =>
      cases pending with
      | enter place below => exact .enter place (ih (below.opened _) outcome)
  | fail marked depth stack unowned => cases outcome

/-- Every node that is entered, and every node open from the start, is exited. -/
theorem Nested.exits {active : List NodeRef} {events : List Event}
    (nested : Nested p root active events) :
    (exitedNodes events).Perm (enteredNodes events ++ active) := by
  induction nested with
  | done => exact .nil
  | @enter active node events place rest ih =>
      rw [exitedNodes_enter, enteredNodes_enter]
      exact ih.trans List.perm_middle
  | @exit active node events rest ih =>
      rw [exitedNodes_exit, enteredNodes_exit]
      exact (ih.cons node).trans List.perm_middle.symm

/-! ## Each node once -/

theorem Walks.fresh {marked : List NodeRef} {stack : List Frame} {events : List Event}
    {missing : Option NodeRef} (walks : Walks p marked stack events missing) :
    ∀ node ∈ enteredNodes events, node ∉ marked := by
  induction walks with
  | done marked => simp
  | exit rest ih => simpa using ih
  | skip owned old rest ih => exact ih
  | enter owned fresh rest ih =>
      intro node member
      rcases List.mem_cons.mp member with rfl | member
      · exact fresh
      · exact fun old => ih node member (List.mem_cons_of_mem _ old)
  | fail marked depth stack unowned => simp

theorem Walks.nodup {marked : List NodeRef} {stack : List Frame} {events : List Event}
    {missing : Option NodeRef} (walks : Walks p marked stack events missing) :
    (enteredNodes events).Nodup := by
  induction walks with
  | done marked => exact .nil
  | exit rest ih => exact ih
  | skip owned old rest ih => exact ih
  | enter owned fresh rest ih =>
      rw [enteredNodes_enter, List.nodup_cons]
      exact ⟨fun again => rest.fresh _ again List.mem_cons_self, ih⟩
  | fail marked depth stack unowned => exact .nil

/-! ## Nothing but the closure of the root -/

theorem Walks.owned {marked : List NodeRef} {stack : List Frame} {events : List Event}
    {missing : Option NodeRef} (walks : Walks p marked stack events missing) :
    (∀ node ∈ enteredNodes events, p.owns node = true) ∧
      ∀ node ∈ missing, p.owns node = false := by
  induction walks with
  | done marked => simp
  | exit rest ih => exact ih
  | skip owned old rest ih => exact ih
  | enter owned fresh rest ih => simpa [owned] using ih
  | fail marked depth stack unowned => simpa using unowned

/-- The nodes that a stack is about to enter. -/
def Frame.Enters (stack : List Frame) (node : NodeRef) : Prop :=
  ∃ depth, .enter node depth ∈ stack

theorem enters_opened {node child : NodeRef} {depth : Nat} {stack : List Frame} :
    Frame.Enters (opened p node depth ++ stack) child ↔
      child ∈ p.children node ∨ Frame.Enters stack child := by
  simp only [Frame.Enters, opened, List.mem_append, List.mem_map, List.mem_singleton,
    Frame.enter.injEq, reduceCtorEq, or_false, exists_or]
  constructor
  · rintro (⟨_, other, member, rfl, _⟩ | pending)
    · exact .inl member
    · exact .inr pending
  · rintro (member | pending)
    · exact .inl ⟨depth + 1, child, member, rfl, rfl⟩
    · exact .inr pending

theorem Walks.reachable {marked : List NodeRef} {stack : List Frame} {events : List Event}
    {missing : Option NodeRef} (walks : Walks p marked stack events missing)
    (known : ∀ node, Frame.Enters stack node → p.Reachable root node) :
    (∀ node ∈ enteredNodes events, p.Reachable root node) ∧
      ∀ node ∈ missing, p.Reachable root node := by
  induction walks with
  | done marked => simp
  | exit rest ih =>
      refine ih fun node ⟨depth, member⟩ => known node ⟨depth, ?_⟩
      exact List.mem_cons_of_mem _ member
  | skip owned old rest ih =>
      refine ih fun node ⟨depth, member⟩ => known node ⟨depth, ?_⟩
      exact List.mem_cons_of_mem _ member
  | @enter marked node depth stack events missing owned fresh rest ih =>
      have here : p.Reachable root node := known node ⟨depth, List.mem_cons_self⟩
      have deeper := ih fun child enters => by
        rcases enters_opened.mp enters with member | ⟨depth, member⟩
        · exact here.tail member
        · exact known child ⟨depth, List.mem_cons_of_mem _ member⟩
      refine ⟨fun other member => ?_, deeper.2⟩
      rcases List.mem_cons.mp member with rfl | member
      · exact here
      · exact deeper.1 other member
  | @fail marked node depth stack unowned =>
      refine ⟨by simp, fun other same => ?_⟩
      cases Option.some.inj same
      exact known node ⟨depth, List.mem_cons_self⟩

/-! ## All of the closure of the root -/

/-- A walk that does not fail gets to every frame of its stack. -/
theorem Walks.gets_to {marked : List NodeRef} {stack : List Frame} {events : List Event}
    (walks : Walks p marked stack events none) {node : NodeRef}
    (enters : Frame.Enters stack node) :
    node ∈ marked ∨ node ∈ enteredNodes events := by
  generalize outcome : none = missing at walks
  obtain ⟨depth, member⟩ := enters
  induction walks generalizing depth with
  | done marked => cases member
  | exit rest ih =>
      rcases List.mem_cons.mp member with same | member
      · cases same
      · exact ih outcome depth member
  | skip owned old rest ih =>
      rcases List.mem_cons.mp member with same | member
      · cases same
        exact .inl old
      · exact ih outcome depth member
  | enter owned fresh rest ih =>
      rcases List.mem_cons.mp member with same | member
      · cases same
        exact .inr List.mem_cons_self
      · rcases ih outcome depth (List.mem_append_right _ member) with old | later
        · rcases List.mem_cons.mp old with rfl | old
          · exact .inr List.mem_cons_self
          · exact .inl old
        · exact .inr (List.mem_cons_of_mem _ later)
  | fail marked depth stack unowned => cases outcome

/-- The children of an entered node are on the stack when it is entered. -/
theorem Walks.children {marked : List NodeRef} {stack : List Frame} {events : List Event}
    (walks : Walks p marked stack events none) :
    ∀ node ∈ enteredNodes events, ∀ child ∈ p.children node,
      child ∈ marked ∨ child ∈ enteredNodes events := by
  generalize outcome : none = missing at walks
  induction walks with
  | done marked => simp
  | exit rest ih => exact ih outcome
  | skip owned old rest ih => exact ih outcome
  | @enter marked node depth stack events missing owned fresh rest ih =>
      subst outcome
      intro parent entered child member
      have found : child ∈ node :: marked ∨ child ∈ enteredNodes events := by
        rcases List.mem_cons.mp entered with rfl | entered
        · exact rest.gets_to (enters_opened.mpr (.inl member))
        · exact ih rfl parent entered child member
      simp only [enteredNodes_enter, List.mem_cons] at found ⊢
      tauto
  | fail marked depth stack unowned => cases outcome

theorem reachable_of_enters_root {node : NodeRef} (enters : Frame.Enters [.enter root 0] node) :
    p.Reachable root node := by
  obtain ⟨depth, member⟩ := enters
  cases List.mem_singleton.mp member
  exact .refl

theorem Walks.complete {events : List Event}
    (walks : Walks p [] [.enter root 0] events none) {node : NodeRef}
    (reachable : p.Reachable root node) : node ∈ enteredNodes events := by
  induction reachable with
  | refl =>
      have found := walks.gets_to ⟨0, List.mem_cons_self⟩
      simpa using found
  | tail _ member ih =>
      have found := walks.children _ ih _ member
      simpa using found

theorem Walks.visits {events : List Event} (walks : Walks p [] [.enter root 0] events none) :
    Visits p root events.toArray where
  nodup := walks.nodup
  mem_iff node :=
    ⟨(walks.reachable fun _ => reachable_of_enters_root).1 node, walks.complete⟩
  exits := by simpa [enteredNodes, exitedNodes] using (walks.nested (.start p root)).exits
  nested := walks.nested (.start p root)

/-! ## The walk from a root -/

/-- The closure of the root decides whether the walk fails. -/
theorem trace_outcome (p : Program) (root : NodeRef) :
    ((p.trace root).missing = none ∧ Visits p root (p.trace root).events ∧
        ∀ node, p.Reachable root node → p.owns node = true) ∨
      ∃ node, (p.trace root).missing = some node ∧ p.Reachable root node ∧
        p.owns node = false := by
  obtain ⟨events, missing, walks, equal⟩ := trace_walks p root
  rw [equal]
  cases missing with
  | none =>
      refine .inl ⟨rfl, walks.visits, fun node reachable => ?_⟩
      exact walks.owned.1 node (walks.complete reachable)
  | some node =>
      refine .inr ⟨node, rfl, ?_, walks.owned.2 node rfl⟩
      exact (walks.reachable fun _ => reachable_of_enters_root).2 node rfl

end Walk

/-- A walk over owned nodes visits the closure of its root, each node once and
properly nested; a walk that can reach a node that the program does not own fails at
such a node. -/
theorem Program.walk_visits_closure (p : Program) (root : NodeRef) :
    ((∀ node, p.Reachable root node → p.owns node = true) →
        ∃ events, p.walk root = .ok events ∧ Walk.Visits p root events) ∧
      ((∃ node, p.Reachable root node ∧ p.owns node = false) →
        ∃ node, p.walk root = .error (.reached node) ∧ p.Reachable root node ∧
          p.owns node = false) := by
  rcases Walk.trace_outcome p root with
    ⟨whole, visits, owned⟩ | ⟨node, failed, reachable, unowned⟩
  · refine ⟨fun _ => ⟨_, by simp only [walk, whole], visits⟩, ?_⟩
    rintro ⟨node, reachable, unowned⟩
    rw [owned node reachable] at unowned
    cases unowned
  · refine ⟨fun owned => ?_, fun _ => ⟨node, by simp only [walk, failed], reachable, unowned⟩⟩
    rw [owned node reachable] at unowned
    cases unowned

end SyntaxGraph
