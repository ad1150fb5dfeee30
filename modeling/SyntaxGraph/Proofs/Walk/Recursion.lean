import SyntaxGraph.Proofs.Walk.Steps

/-!
# The walk as a recursion

`Program.visit` is the depth-first procedure without a stack of its own: it fails at
a node that the program does not own, passes over a marked node, and otherwise marks
the node, enters it, visits its children one level deeper, and exits it.  The number
of visits inside each other is bounded, since the graph may have cycles; a visit that
needs more of them has no result.

The walk with a stack does what this procedure does under any bound above the number
of slots: to work off a stack is to visit the nodes of its frames one after the
other, where the frames that became stale in the meantime are the visits that pass
over a marked node.
-/

set_option autoImplicit false

namespace SyntaxGraph

/-- The nodes marked and the events so far. -/
structure Trail where
  marked : List NodeRef := []
  events : Array Event := #[]
deriving DecidableEq

namespace Trail

def emit (trail : Trail) (event : Event) : Trail :=
  { trail with events := trail.events.push event }

/-- Mark a node and enter it. -/
def mark (trail : Trail) (node : NodeRef) (depth : Nat) : Trail :=
  { trail.emit (.enter node depth) with marked := node :: trail.marked }

end Trail

/-- A visit changes the trail, and may fail at a node or have no result. -/
abbrev Visit := ExceptT NodeRef (StateT Trail Option)

namespace Visit

/-- The visit that has no result. -/
def unfinished : Visit Unit := ExceptT.mk fun _ => none

/-- The outcome of a visit that starts from a trail, and the trail it leaves. -/
def runFrom (visit : Visit Unit) (trail : Trail) : Option (Except NodeRef Unit × Trail) :=
  visit.run.run trail

end Visit

/-- Visit a node at a depth, with at most `bound` visits inside each other. -/
def Program.visit (p : Program) : (bound : Nat) → (node : NodeRef) → (depth : Nat) → Visit Unit
  | 0, _, _ => .unfinished
  | bound + 1, node, depth => do
    if p.owns node then
      if node ∈ (← get).marked then return
      modify (·.mark node depth)
      forM (p.children node) fun child => p.visit bound child (depth + 1)
      modify (·.emit (.exit node depth))
    else throw node

/-- What visiting a root does. -/
def Program.visitTrace (p : Program) (bound : Nat) (root : NodeRef) : Option Trace :=
  ((p.visit bound root 0).runFrom {}).map fun (outcome, trail) =>
    match outcome with
    | .ok _ => ⟨trail.events, none⟩
    | .error node => ⟨trail.events, some node⟩

/-! ## Visits one after the other -/

namespace Visit

theorem get_runFrom (next : Trail → Visit Unit) (trail : Trail) :
    (get >>= next : Visit Unit).runFrom trail = (next trail).runFrom trail := rfl

theorem modify_runFrom (change : Trail → Trail) (next : Visit Unit) (trail : Trail) :
    (modify change >>= fun _ => next : Visit Unit).runFrom trail =
      next.runFrom (change trail) := rfl

/-- A visit that ends well hands its trail over; one that fails is the last. -/
theorem bind_runFrom (first next : Visit Unit) (trail : Trail) :
    (first >>= fun _ => next).runFrom trail = (first.runFrom trail).bind fun
      | (.ok _, middle) => next.runFrom middle
      | (.error node, middle) => some (.error node, middle) := by
  change (first.run.run trail).bind _ = (first.run.run trail).bind _
  congr
  funext ⟨result, middle⟩
  cases result <;> rfl

/-- What comes next sees of a visit only what it does from the trail it starts at. -/
theorem bind_runFrom_congr {first other : Visit Unit} {trail begin : Trail}
    (same : first.runFrom trail = other.runFrom begin) (next : Visit Unit) :
    (first >>= fun _ => next).runFrom trail = (other >>= fun _ => next).runFrom begin := by
  rw [bind_runFrom, bind_runFrom, same]

end Visit

namespace Walk

variable {p : Program} {bound : Nat}

/-- What a frame stands for: a node that many levels deep has as many visits less
inside it. -/
def perform (p : Program) (bound : Nat) : Frame → Visit Unit
  | .enter node depth => p.visit (bound - depth) node depth
  | .exit node depth => modify (·.emit (.exit node depth))

/-- The outcome of a visit in terms of the node at which it fails. -/
def outcome : Option NodeRef → Except NodeRef Unit
  | none => .ok ()
  | some node => .error node

/-! ## The ways a visit can go -/

theorem perform_enter {depth : Nat} (room : depth < bound) (node : NodeRef) :
    ∃ inner, inner = bound - (depth + 1) ∧
      perform p bound (.enter node depth) = p.visit (inner + 1) node depth := by
  have enough : bound - depth = bound - (depth + 1) + 1 := by omega
  exact ⟨_, rfl, by rw [perform, enough]⟩

theorem perform_unowned {node : NodeRef} {depth : Nat} (room : depth < bound)
    (unowned : p.owns node = false) (trail : Trail) :
    (perform p bound (.enter node depth)).runFrom trail = some (.error node, trail) := by
  obtain ⟨inner, -, equal⟩ := perform_enter room node
  rw [equal, Program.visit, if_neg (by simp [unowned])]
  rfl

theorem perform_marked {node : NodeRef} {depth : Nat} (room : depth < bound)
    (owned : p.owns node = true) {trail : Trail} (old : node ∈ trail.marked) :
    (perform p bound (.enter node depth)).runFrom trail = some (.ok (), trail) := by
  obtain ⟨inner, -, equal⟩ := perform_enter room node
  rw [equal, Program.visit, if_pos owned, Visit.get_runFrom, if_pos old]
  rfl

/-- Visiting a free node is to mark it and then to do what its entry puts on the
stack. -/
theorem perform_free {node : NodeRef} {depth : Nat} (room : depth < bound)
    (owned : p.owns node = true) {trail : Trail} (free : node ∉ trail.marked) :
    (perform p bound (.enter node depth)).runFrom trail =
      (forM (opened p node depth) (perform p bound)).runFrom (trail.mark node depth) := by
  obtain ⟨inner, rfl, equal⟩ := perform_enter room node
  rw [equal, Program.visit, if_pos owned, Visit.get_runFrom, if_neg free, Visit.modify_runFrom]
  simp [opened, perform]

/-! ## Working off a stack -/

/-- The marked nodes are distinct owned nodes, and no frame lies deeper than there are
marked nodes. -/
structure Shallow (p : Program) (marked : List NodeRef) (stack : List Frame) : Prop where
  distinct : marked.Nodup
  owned : ∀ node ∈ marked, p.owns node = true
  depth_le : ∀ node depth, .enter node depth ∈ stack → depth ≤ marked.length

theorem Shallow.start (p : Program) (root : NodeRef) : Shallow p [] [.enter root 0] where
  distinct := .nil
  owned := by simp
  depth_le node depth member := by
    cases List.mem_singleton.mp member
    exact Nat.le_refl 0

theorem Shallow.tail {marked : List NodeRef} {frame : Frame} {stack : List Frame}
    (shallow : Shallow p marked (frame :: stack)) : Shallow p marked stack where
  distinct := shallow.distinct
  owned := shallow.owned
  depth_le node depth member := shallow.depth_le node depth (List.mem_cons_of_mem frame member)

theorem Shallow.room {marked : List NodeRef} {node : NodeRef} {depth : Nat} {stack : List Frame}
    (shallow : Shallow p marked (.enter node depth :: stack)) (enough : p.arenas.slots < bound) :
    depth < bound := by
  have depthLe := shallow.depth_le node depth List.mem_cons_self
  have fits := Arenas.length_le_slots shallow.distinct shallow.owned
  omega

theorem Shallow.opened {marked : List NodeRef} {node : NodeRef} {depth : Nat} {stack : List Frame}
    (shallow : Shallow p marked (.enter node depth :: stack)) (owned : p.owns node = true)
    (fresh : node ∉ marked) :
    Shallow p (node :: marked) (opened p node depth ++ stack) where
  distinct := List.nodup_cons.mpr ⟨fresh, shallow.distinct⟩
  owned other member := by
    rcases List.mem_cons.mp member with rfl | member
    · exact owned
    · exact shallow.owned other member
  depth_le other deep member := by
    have depthLe := shallow.depth_le node depth List.mem_cons_self
    simp only [Walk.opened, List.append_assoc, List.mem_append, List.mem_map, List.mem_singleton,
      reduceCtorEq, false_or, Frame.enter.injEq] at member
    rw [List.length_cons]
    rcases member with ⟨child, -, -, rfl⟩ | member
    · omega
    · have deepLe := shallow.depth_le other deep (List.mem_cons_of_mem _ member)
      omega

/-- What the rules of the walk derive from a stack is what visiting its frames one
after the other does. -/
theorem Walks.performs {marked : List NodeRef} {stack : List Frame} {events : List Event}
    {missing : Option NodeRef} (walks : Walks p marked stack events missing)
    (enough : p.arenas.slots < bound) (shallow : Shallow p marked stack)
    (before : Array Event) :
    ∃ after, (forM stack (perform p bound)).runFrom ⟨marked, before⟩ =
      some (outcome missing, ⟨after, before ++ events⟩) := by
  induction walks generalizing before with
  | done marked => exact ⟨marked, by simp [outcome]; rfl⟩
  | @exit marked node depth stack events missing rest ih =>
      obtain ⟨after, performed⟩ := ih shallow.tail (before.push (.exit node depth))
      refine ⟨after, ?_⟩
      rw [List.forM_cons, perform, Visit.modify_runFrom]
      simpa [Trail.emit] using performed
  | @skip marked node depth stack events missing owned old rest ih =>
      obtain ⟨after, performed⟩ := ih shallow.tail before
      refine ⟨after, ?_⟩
      rw [List.forM_cons, Visit.bind_runFrom, perform_marked (shallow.room enough) owned old]
      exact performed
  | @enter marked node depth stack events missing owned free rest ih =>
      obtain ⟨after, performed⟩ :=
        ih (shallow.opened owned free) (before.push (.enter node depth))
      refine ⟨after, ?_⟩
      rw [List.forM_cons,
        Visit.bind_runFrom_congr (perform_free (shallow.room enough) owned free)]
      simpa [Trail.mark, Trail.emit] using performed
  | fail marked depth stack unowned =>
      refine ⟨marked, ?_⟩
      rw [List.forM_cons, Visit.bind_runFrom, perform_unowned (shallow.room enough) unowned]
      simp [outcome]

end Walk

theorem Program.visitTrace_of_slots (p : Program) (root : NodeRef) {bound : Nat}
    (enough : p.arenas.slots < bound) : p.visitTrace bound root = some (p.trace root) := by
  obtain ⟨events, missing, walks, equal⟩ := Walk.trace_walks p root
  obtain ⟨after, performed⟩ := walks.performs enough (.start p root) #[]
  have visited : (p.visit bound root 0).runFrom {} =
      some (Walk.outcome missing, ⟨after, events.toArray⟩) := by
    simpa [Walk.perform] using performed
  rw [visitTrace, visited, equal]
  cases missing <;> rfl

/-- The walk with a stack and the recursion do the same, and fail at the same node, if
they fail; so a preorder or postorder traversal goes through the nodes that the
recursion enters or exits. -/
theorem Program.visitTrace_eq_trace (p : Program) (root : NodeRef) {bound : Nat}
    (enough : p.arenas.slots < bound) :
    p.visitTrace bound root = some (p.trace root) ∧
      (p.visitTrace bound root).map (fun trace => (entered trace.events).map Prod.fst) =
        some (p.preorder root) ∧
      (p.visitTrace bound root).map (fun trace => (exited trace.events).map Prod.fst) =
        some (p.postorder root) := by
  rw [visitTrace_of_slots p root enough]
  exact ⟨rfl, rfl, rfl⟩

/-- Two declarations of one structure, which has both of them as members. -/
def Program.mutualMembers : Program where
  file := "members.c"
  decls := [⟨0⟩, ⟨1⟩]
  arenas := {
    decls := #[
      { name := "first", type := ⟨0⟩, span := default },
      { name := "second", type := ⟨0⟩, span := default }]
    types := #[.tagged .struct (some "pair") [⟨1⟩, ⟨0⟩] default] }

theorem Program.visitTrace_mutualMembers :
    mutualMembers.arenas.slots < 5 ∧
      mutualMembers.visitTrace 5 .program = some (mutualMembers.trace .program) ∧
      mutualMembers.preorder .program = [.program, .decl ⟨0⟩, .type ⟨0⟩, .decl ⟨1⟩] ∧
      mutualMembers.postorder .program = [.decl ⟨1⟩, .type ⟨0⟩, .decl ⟨0⟩, .program] := by
  have enough : mutualMembers.arenas.slots < 5 := by decide
  obtain ⟨same, entered, exited⟩ := visitTrace_eq_trace mutualMembers .program enough
  refine ⟨enough, same, ?_, ?_⟩
  · exact Option.some.inj (entered.symm.trans (by decide +kernel))
  · exact Option.some.inj (exited.symm.trans (by decide +kernel))

end SyntaxGraph
