import SyntaxGraph.Proofs.Graph.Extension

/-!
# Arenas without comments

Comments are given to declarations when all nodes have been added.  All else is the same
before and afterwards, as far as one can see without comments.
-/

set_option autoImplicit false

namespace SyntaxGraph

def Decl.plain (decl : Decl) : Decl := { decl with comments := {} }

namespace Arenas

variable {a b : Arenas}

def plain (a : Arenas) : Arenas := { a with decls := a.decls.map Decl.plain }

theorem plain_decl? (a : Arenas) (id : DeclId) :
    a.plain.decl? id = (a.decl? id).map Decl.plain := by
  simp [decl?, plain]

theorem plain_owns (a : Arenas) (node : NodeRef) : a.plain.owns node = a.owns node := by
  cases node with
  | decl id => simp [owns, plain]
  | _ => rfl

theorem plain_span? (a : Arenas) (node : NodeRef) : a.plain.span? node = a.span? node := by
  cases node with
  | decl id =>
      simp only [span?, plain_decl?, Option.map_map]
      rfl
  | _ => rfl

theorem decl?_modifyComments (a : Arenas) (id other : DeclId) (change : Comments → Comments) :
    (a.modifyComments id change).decl? other =
      if id = other then (a.decl? id).map fun decl =>
        { decl with comments := change decl.comments }
      else a.decl? other := by
  change (a.decls.modify id.index _)[other.index]? = _
  rw [Array.getElem?_modify]
  obtain ⟨index⟩ := id
  obtain ⟨place⟩ := other
  by_cases same : index = place
  · subst same
    simp [decl?]
  · simp [decl?, same]

theorem plain_modifyComments (a : Arenas) (id : DeclId) (change : Comments → Comments) :
    (a.modifyComments id change).plain = a.plain := by
  have decls : (a.decls.modify id.index fun decl =>
      { decl with comments := change decl.comments }).map Decl.plain =
      a.decls.map Decl.plain := by
    refine Array.ext (by simp) fun place _ _ => ?_
    simp only [Array.getElem_map, Array.getElem_modify]
    split <;> rfl
  simp only [plain, modifyComments, decls]

/-- Change the comments of a declaration, if there is one. -/
def annotated (a : Arenas) (decl : Option DeclId) (change : Comments → Comments) : Arenas :=
  decl.elim a (a.modifyComments · change)

theorem plain_annotated (a : Arenas) (decl : Option DeclId) (change : Comments → Comments) :
    (a.annotated decl change).plain = a.plain := by
  cases decl with
  | none => rfl
  | some id => exact a.plain_modifyComments id change

/-- Other declarations keep their comments. -/
theorem decl?_annotated_of_ne {decl : Option DeclId} {id : DeclId} (other : decl ≠ some id)
    (a : Arenas) (change : Comments → Comments) :
    (a.annotated decl change).decl? id = a.decl? id := by
  cases decl with
  | none => rfl
  | some found =>
      have different : found ≠ id := fun same => other (congrArg some same)
      change (a.modifyComments found change).decl? id = _
      rw [decl?_modifyComments, if_neg different]

theorem decl?_annotated_self (a : Arenas) (id : DeclId) (change : Comments → Comments) :
    (a.annotated (some id) change).decl? id =
      (a.decl? id).map fun decl => { decl with comments := change decl.comments } := by
  change (a.modifyComments id change).decl? id = _
  rw [decl?_modifyComments, if_pos rfl]

end Arenas

end SyntaxGraph
