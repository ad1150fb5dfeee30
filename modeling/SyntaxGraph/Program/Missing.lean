import SyntaxGraph.Node.Id
import SyntaxGraph.Text.Quoted

/-!
# Nodes that are not there

An identity that names no node of a program can turn up in three ways: a walk
reaches it, somebody asks what node it is, or a look-up is made with it.  The first
two have wordings.
-/

set_option autoImplicit false

namespace SyntaxGraph

inductive MissingNode
  | reached (node : NodeRef)
  | asked (node : NodeRef) (file : String)
  | lookedUp (node : NodeRef)
deriving DecidableEq

def MissingNode.message? : MissingNode → Option String
  | .reached node => some s!"walk: unexpected syntax {node.describe}"
  | .asked node file => some s!"{node.describe} is not part of program {Text.quoted file}"
  | .lookedUp _ => none

end SyntaxGraph
