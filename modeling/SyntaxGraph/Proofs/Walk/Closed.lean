import SyntaxGraph.Program.Dump
import SyntaxGraph.Proofs.Graph.Ownership
import SyntaxGraph.Proofs.Lists
import SyntaxGraph.Proofs.Walk.Closure

/-!
# Walks over closed programs

From an owned node of a closed program only owned nodes can be reached, so a walk from
there does not fail, and neither does a dump.
-/

set_option autoImplicit false

namespace SyntaxGraph.Program

variable {p : Program} {root node : NodeRef}

theorem Closed.owns_reachable (closed : p.Closed) (owned : p.owns root = true)
    (reachable : p.Reachable root node) : p.owns node = true := by
  induction reachable with
  | refl => exact owned
  | tail _ member _ => exact closed _ (p.children_subset _ member)

theorem Closed.trace_visits (closed : p.Closed) (owned : p.owns root = true) :
    p.walk root = .ok (p.trace root).events ∧ Walk.Visits p root (p.trace root).events := by
  rcases Walk.trace_outcome p root with ⟨whole, visits, -⟩ | ⟨node, -, reachable, unowned⟩
  · exact ⟨by simp only [Program.walk, whole], visits⟩
  · rw [closed.owns_reachable owned reachable] at unowned
    cases unowned

theorem Closed.walk (closed : p.Closed) (owned : p.owns root = true) :
    ∃ events, p.walk root = .ok events ∧ Walk.Visits p root events :=
  ⟨_, closed.trace_visits owned⟩

theorem line?_owned (owned : p.owns node = true) : ∃ line, p.line? node = some line := by
  cases node <;>
    simp_all [line?, owns, Arenas.owns, decl?, type?, expr?, stmt?, init?, label?, Arenas.decl?,
      Arenas.type?, Arenas.expr?, Arenas.stmt?, Arenas.init?, Arenas.label?]

theorem Closed.mem_preorder (closed : p.Closed) (owned : p.owns root = true) :
    node ∈ p.preorder root ↔ p.Reachable root node :=
  (closed.trace_visits owned).2.mem_iff node

/-- Every node that the walk enters has a line. -/
theorem Closed.line?_entered (closed : p.Closed) (owned : p.owns root = true) :
    ∀ entry ∈ entered (p.trace root).events, ∃ line, p.line? entry.1 = some line := by
  intro entry member
  have reachable := (closed.mem_preorder owned).mp (List.mem_map_of_mem member)
  exact line?_owned (closed.owns_reachable owned reachable)

/-- The lines of a dump are those of the nodes that the walk enters. -/
theorem Closed.dumpFrom_eq (closed : p.Closed) (owned : p.owns root = true) :
    p.dumpFrom root = .ok (String.join ((entered (p.trace root).events).map fun entry =>
      indented entry.2 ((p.line? entry.1).getD ""))) := by
  have each : ∀ entry ∈ entered (p.trace root).events,
      (do return indented entry.2 (← p.describe entry.1) : Except MissingNode String) =
        .ok (indented entry.2 ((p.line? entry.1).getD "")) := by
    intro entry member
    obtain ⟨line, found⟩ := closed.line?_entered owned entry member
    rw [describe, found]
    rfl
  rw [Program.dumpFrom, (closed.trace_visits owned).1]
  change ((entered (p.trace root).events).mapM _ >>= _ : Except MissingNode String) = _
  rw [mapM_ok each]
  rfl

theorem Closed.dumpFrom (closed : p.Closed) (owned : p.owns root = true) :
    ∃ text, p.dumpFrom root = .ok text :=
  ⟨_, closed.dumpFrom_eq owned⟩

end SyntaxGraph.Program
