import SyntaxGraph.Proofs.Walk.Closure

/-!
# Walks as outlines

An outline tells of each node how deep it lies and not where it belongs.  In the outline of
a walk this can be read back: a node has been reached from the nearest one in front of it
that lies less deep, since everything between the two has been exited by then.
-/

set_option autoImplicit false

namespace SyntaxGraph

/-! ## Outlines -/

namespace Outline

/-- The number of the nearest earlier entry that lies less deep.  The earlier entries are
given by their depths, the nearest one first. -/
def parent? : (earlier : List Nat) → (depth : Nat) → Option Nat
  | [], _ => none
  | above :: earlier, depth =>
    if above < depth then some earlier.length else parent? earlier depth

def parentsFrom : (earlier : List Nat) → (depths : List Nat) → List (Option Nat)
  | _, [] => []
  | earlier, depth :: depths => parent? earlier depth :: parentsFrom (depth :: earlier) depths

/-- For each entry the number of the one that it belongs to, if it belongs to one. -/
def parents (depths : List Nat) : List (Option Nat) := parentsFrom [] depths

example : parents [0, 1, 2, 2, 3, 1] = [none, some 0, some 1, some 1, some 3, some 0] := rfl

end Outline

namespace Walk

open Outline

/-! ## Open nodes -/

/-- For each node that is entered the number of the innermost one that is open then.  So many
nodes have been entered before, and these of them are open, the innermost one first. -/
def openersFrom : (count : Nat) → (active : List Nat) → List Event → List (Option Nat)
  | _, _, [] => []
  | count, active, .enter _ _ :: events =>
    active.head? :: openersFrom (count + 1) (count :: active) events
  | count, active, .exit _ _ :: events => openersFrom count active.tail events

/-- The tree of a walk: for each node that it enters the number of the node from which it gets
there. -/
def openers (events : Array Event) : List (Option Nat) := openersFrom 0 [] events.toList

def enteredDepths (events : List Event) : List Nat := (entered events.toArray).map Prod.snd

@[simp] theorem enteredDepths_enter (node : NodeRef) (depth : Nat) (events : List Event) :
    enteredDepths (.enter node depth :: events) = depth :: enteredDepths events := rfl

@[simp] theorem enteredDepths_exit (node : NodeRef) (depth : Nat) (events : List Event) :
    enteredDepths (.exit node depth :: events) = enteredDepths events := rfl

/-! ## The nearest entry that lies less deep -/

/-- At every depth at which a node may still be entered, the nearest earlier entry that lies
less deep is the innermost open node there. -/
def Tracks (earlier active : List Nat) : Prop :=
  ∀ depth ≤ active.length, parent? earlier depth = (active.drop (active.length - depth)).head?

theorem Tracks.start : Tracks [] [] := by
  intro depth _
  rw [List.drop_nil]
  rfl

theorem Tracks.innermost {earlier active : List Nat} (tracks : Tracks earlier active) :
    parent? earlier active.length = active.head? := by
  have innermost := tracks active.length (Nat.le_refl _)
  rwa [Nat.sub_self, List.drop_zero] at innermost

theorem Tracks.enter {earlier active : List Nat} (tracks : Tracks earlier active) :
    Tracks (active.length :: earlier) (earlier.length :: active) := by
  intro depth bound
  rw [List.length_cons] at bound ⊢
  rw [parent?]
  by_cases deepest : active.length < depth
  · -- Only a child of the new node can be entered so deep.
    obtain rfl : depth = active.length + 1 := by omega
    rw [if_pos deepest, Nat.sub_self]
    rfl
  · have rest : active.length + 1 - depth = active.length - depth + 1 := by omega
    rw [if_neg deepest, rest, List.drop_succ_cons]
    exact tracks depth (by omega)

theorem Tracks.exit {earlier active : List Nat} {innermost : Nat}
    (tracks : Tracks earlier (innermost :: active)) : Tracks earlier active := by
  intro depth bound
  have rest : active.length + 1 - depth = active.length - depth + 1 := by omega
  have same := tracks depth (Nat.le_succ_of_le bound)
  rwa [List.length_cons, rest, List.drop_succ_cons] at same

/-! ## The tree of a walk -/

variable {p : Program} {root : NodeRef} {nodes : List NodeRef} {events : List Event}

/-- What is entered next gets there from the nearest entry that lies less deep. -/
theorem Nested.openersFrom_eq (nested : Nested p root nodes events) :
    ∀ {earlier active : List Nat}, active.length = nodes.length → Tracks earlier active →
      openersFrom earlier.length active events = parentsFrom earlier (enteredDepths events) := by
  induction nested with
  | done =>
      intro earlier active _ _
      rfl
  | @enter nodes node events place rest ih =>
      intro earlier active length tracks
      have deeper : (earlier.length :: active).length = (node :: nodes).length :=
        congrArg Nat.succ length
      have next : openersFrom (earlier.length + 1) (earlier.length :: active) events =
          parentsFrom (active.length :: earlier) (enteredDepths events) := ih deeper tracks.enter
      rw [openersFrom, enteredDepths_enter, parentsFrom, ← length, tracks.innermost, next]
  | @exit nodes node events rest ih =>
      intro earlier active length tracks
      cases active with
      | nil => cases length
      | cons innermost active =>
          rw [openersFrom, enteredDepths_exit]
          exact ih (Nat.succ.inj length) tracks.exit

/-- The root hangs on nothing, and any other node on one of which it is a child. -/
def Hangs (p : Program) (root : NodeRef) (all : List NodeRef) (node : NodeRef) :
    Option Nat → Prop
  | none => node = root
  | some number => ∃ parent, all[number]? = some parent ∧ node ∈ p.children parent

theorem Opens.hangs {node : NodeRef} {all : List NodeRef} {active : List Nat}
    (place : Opens p root nodes node)
    (numbered : List.Forall₂ (fun number node => all[number]? = some node) active nodes) :
    Hangs p root all node active.head? := by
  cases numbered with
  | nil => exact place
  | cons innermost rest => exact ⟨_, innermost, place⟩

theorem Nested.openersFrom_hang (nested : Nested p root nodes events) :
    ∀ {before : List NodeRef} {active : List Nat},
      List.Forall₂ (fun number node => (before ++ enteredNodes events)[number]? = some node)
        active nodes →
      List.Forall₂ (Hangs p root (before ++ enteredNodes events)) (enteredNodes events)
        (openersFrom before.length active events) := by
  induction nested with
  | done =>
      intro before active _
      exact .nil
  | @enter nodes node events place rest ih =>
      intro before active numbered
      -- The list of all nodes stays the same: one of those to come is now one of those before.
      have split : before ++ enteredNodes (.enter node nodes.length :: events) =
          before ++ [node] ++ enteredNodes events := by
        rw [enteredNodes_enter, List.append_assoc]
        rfl
      rw [split] at numbered ⊢
      have here : (before ++ [node] ++ enteredNodes events)[before.length]? = some node := by simp
      have deeper := ih (.cons here numbered)
      rw [List.length_append] at deeper
      exact .cons (place.hangs numbered) deeper
  | @exit nodes node events rest ih =>
      intro before active numbered
      cases numbered with
      | cons innermost others => exact ih others

/-- The tree of a walk has the edges of the program, and it can be read back from the depths
of the nodes that the walk enters. -/
theorem Visits.openers_eq {events : Array Event} (visits : Visits p root events) :
    openers events = parents ((entered events).map Prod.snd) ∧
      List.Forall₂ (Hangs p root ((entered events).map Prod.fst)) ((entered events).map Prod.fst)
        (openers events) := by
  have none : List.Forall₂ (fun (number : Nat) (node : NodeRef) =>
      ([] ++ enteredNodes events.toList)[number]? = some node) [] [] := .nil
  exact ⟨visits.nested.openersFrom_eq rfl .start, visits.nested.openersFrom_hang none⟩

end Walk

end SyntaxGraph
