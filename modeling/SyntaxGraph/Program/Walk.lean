import SyntaxGraph.Program.Children
import SyntaxGraph.Program.Missing

/-!
# Walking the graph

A walk visits every node that can be reached from a root, depth first, each node
once: a node is entered when it is first reached, then its children are visited in
order, then it is exited.  A second path to a node is passed over.  Entering and
exiting a node have the depth at which it was entered, which is zero for the root.

What is still to be done is kept on a stack, so deep graphs need no deep recursion,
and the nodes entered so far are marked in one bitmap, in which each node has its
own slot.  Entering a node marks a free slot, and every other step makes the stack
shorter, so the walk ends whatever the graph looks like.  A walk that reaches a
node that the program does not own fails there, after what it has done so far.
-/

set_option autoImplicit false

namespace SyntaxGraph

namespace Arenas

/-- One slot for the program and one for each node. -/
def slots (a : Arenas) : Nat :=
  1 + a.decls.size + a.types.size + a.exprs.size + a.stmts.size + a.inits.size + a.labels.size

/-- The slot of a node; the kinds follow each other in the order of the arenas. -/
def slot (a : Arenas) : NodeRef → Nat
  | .program => 0
  | .decl id => 1 + id.index
  | .type id => 1 + a.decls.size + id.index
  | .expr id => 1 + a.decls.size + a.types.size + id.index
  | .stmt id => 1 + a.decls.size + a.types.size + a.exprs.size + id.index
  | .init id => 1 + a.decls.size + a.types.size + a.exprs.size + a.stmts.size + id.index
  | .label id =>
    1 + a.decls.size + a.types.size + a.exprs.size + a.stmts.size + a.inits.size + id.index

end Arenas

inductive Event
  | enter (node : NodeRef) (depth : Nat)
  | exit (node : NodeRef) (depth : Nat)
deriving DecidableEq

/-- What a walk does, in order, and the node at which it fails, if it fails. -/
structure Trace where
  events : Array Event
  missing : Option NodeRef
deriving DecidableEq

namespace Walk

/-- A step that is still to be done. -/
inductive Frame
  | enter (node : NodeRef) (depth : Nat)
  | exit (node : NodeRef) (depth : Nat)
deriving DecidableEq

/-- What entering a node puts on the stack: its children, and then its exit. -/
def opened (p : Program) (node : NodeRef) (depth : Nat) : List Frame :=
  (p.children node).map (Frame.enter · (depth + 1)) ++ [.exit node depth]

theorem count_set_lt {seen : Array Bool} {slot : Nat} (bound : slot < seen.size)
    (free : seen[slot] = false) :
    (seen.set slot true).count false < seen.count false := by
  have member : false ∈ seen := free ▸ Array.getElem_mem bound
  have positive : 0 < seen.count false := Array.count_pos_iff.mpr member
  rw [Array.count_set bound]
  simp only [free, beq_self_eq_true, if_true]
  have differs : (true == false) = false := rfl
  simp only [differs, Bool.false_eq_true, if_false]
  omega

/-- Work off the stack, adding to the events so far. -/
def run (p : Program) (seen : Array Bool) (events : Array Event) : List Frame → Trace
  | [] => ⟨events, none⟩
  | .exit node depth :: rest => run p seen (events.push (.exit node depth)) rest
  | .enter node depth :: rest =>
    if p.owns node then
      if bound : p.arenas.slot node < seen.size then
        if free : seen[p.arenas.slot node] = false then
          run p (seen.set (p.arenas.slot node) true) (events.push (.enter node depth))
            (opened p node depth ++ rest)
        else run p seen events rest
      else run p seen events rest
    else ⟨events, some node⟩
termination_by stack => (seen.count false, stack.length)
decreasing_by
  all_goals first
    | exact Prod.Lex.left _ _ (count_set_lt bound free)
    | exact Prod.Lex.right _ (by simp)

end Walk

namespace Program

def trace (p : Program) (root : NodeRef) : Trace :=
  Walk.run p (Array.replicate p.arenas.slots false) #[] [.enter root 0]

/-- The events of the walk from `root`, in order, if it does not fail. -/
def walk (p : Program) (root : NodeRef) : Except MissingNode (Array Event) :=
  let trace := p.trace root
  match trace.missing with
  | none => .ok trace.events
  | some node => .error (.reached node)

end Program

namespace Event

def node : Event → NodeRef
  | .enter node _ | .exit node _ => node

def depth : Event → Nat
  | .enter _ depth | .exit _ depth => depth

def isEnter : Event → Bool
  | .enter _ _ => true
  | .exit _ _ => false

end Event

/-- The nodes that a walk enters, in order, with their depths. -/
def entered (events : Array Event) : List (NodeRef × Nat) :=
  (events.toList.filter Event.isEnter).map fun event => (event.node, event.depth)

/-- The nodes that a walk exits, in order, with their depths. -/
def exited (events : Array Event) : List (NodeRef × Nat) :=
  (events.toList.filter fun event => !event.isEnter).map fun event => (event.node, event.depth)

namespace Program

/-- The nodes that the walk from `root` enters, in order. -/
def preorder (p : Program) (root : NodeRef) : List NodeRef :=
  (entered (p.trace root).events).map Prod.fst

/-- The nodes that the walk from `root` exits, in order. -/
def postorder (p : Program) (root : NodeRef) : List NodeRef :=
  (exited (p.trace root).events).map Prod.fst

end Program

end SyntaxGraph
