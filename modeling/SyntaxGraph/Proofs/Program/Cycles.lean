import SyntaxGraph.Proofs.Program.Read

/-!
# Where a program has cycles

The links of a program that has been read are its edges without those from a structure, a
union or an enumeration to its members.  They are well-founded, and from any node only
paths of bounded length follow them, so above the tagged types the graph is made of finite
trees.  Every cycle goes through the members of a tagged type.
-/

set_option autoImplicit false

namespace SyntaxGraph.Program

variable {file source : String}

theorem read_wellFounded {p : Program} (parsed : read file source = .ok p) :
    (WellFounded fun child parent => p.IsLink parent child) ∧
      (∀ node, ∃ height, ∀ path : List NodeRef, (node :: path).IsChain p.IsLink →
        path.length ≤ height) ∧
      ∀ (node : NodeRef) (path : List NodeRef), (node :: path ++ [node]).IsChain p.IsChild →
        ∃ parent child, [parent, child] <:+: node :: path ++ [node] ∧
          p.IsMember parent child := by
  obtain ⟨state, -, same, sound⟩ := parse_of_read parsed
  have ranked : p.arenas.Ranked := same ▸ sound.ranked
  obtain ⟨rank, above⟩ := exists_rank ranked
  have bounded : ∀ node, ∃ height, ∀ path : List NodeRef, (node :: path).IsChain p.IsLink →
      path.length ≤ height :=
    fun node => ⟨rank node, fun path chain => length_le_of_rank above path node chain⟩
  exact ⟨wellFounded_of_rank above, bounded, fun _ _ => exists_isMember_of_cycle above⟩

/-- The structure of the list leads back to itself, through its member `next`. -/
theorem read_wellFounded_listSource :
    ∃ p, read "list.c" listSource = .ok p ∧
      [NodeRef.type ⟨0⟩, .decl ⟨1⟩, .type ⟨1⟩, .type ⟨0⟩].IsChain p.IsChild ∧
      (WellFounded fun child parent => p.IsLink parent child) ∧
      ∃ parent child, p.IsMember parent child := by
  have shape : (read "list.c" listSource).toOption.map (fun p =>
      (p.children (.type ⟨0⟩), p.children (.decl ⟨1⟩), p.children (.type ⟨1⟩))) =
      some ([.decl ⟨1⟩, .decl ⟨2⟩], [.type ⟨1⟩], [.type ⟨0⟩]) := by
    decide +kernel
  obtain ⟨p, parsed, seen⟩ := exists_read_of_map shape
  simp only [Prod.mk.injEq] at seen
  obtain ⟨members, pointer, back⟩ := seen
  have cycle : [NodeRef.type ⟨0⟩, .decl ⟨1⟩, .type ⟨1⟩, .type ⟨0⟩].IsChain p.IsChild := by
    simp [IsChild, members, pointer, back]
  obtain ⟨wellFounded, -, through⟩ := read_wellFounded parsed
  obtain ⟨parent, child, -, member⟩ := through (.type ⟨0⟩) [.decl ⟨1⟩, .type ⟨1⟩] cycle
  exact ⟨p, parsed, cycle, wellFounded, parent, child, member⟩

end SyntaxGraph.Program
