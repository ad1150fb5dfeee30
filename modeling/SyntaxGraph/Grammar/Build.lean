import SyntaxGraph.Grammar.TranslationUnit

/-!
# Builds of the reader

Not every build of the reader ends with an answer.  Each of them numbers the nodes of an
arena with 32 bits, and stops at a node for which there is no number.  A build with
assertions stops as well where a type is completed that has declarations already; without
assertions it loses these to the new ones.  What else is asserted is about the nodes that are
made, and holds of all of them.

The arenas and the log only grow while a source is read.  So the state in which reading ends
tells whether a build has stopped on the way.
-/

set_option autoImplicit false

namespace SyntaxGraph

open Grammar

/-- What makes a difference between two builds. -/
structure Build where
  assertions : Bool
deriving DecidableEq

/-- How many nodes of a kind a build has numbers for. -/
def Build.capacity : Nat := UInt32.size

/-- There is a number for each node. -/
def Arenas.numbered (a : Arenas) : Bool :=
  [a.decls.size, a.types.size, a.exprs.size, a.stmts.size, a.inits.size, a.labels.size].all
    (· ≤ Build.capacity)

/-- Whether a build has stopped before this state was reached. -/
def Build.stops (build : Build) (s : State) : Bool :=
  !s.arenas.numbered || build.assertions && !s.displaced.isEmpty

end SyntaxGraph
