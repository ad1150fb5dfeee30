/-!
# Sorted lists of strings

Strings are ordered by code points, from the left.  `insertText` keeps a list strictly
sorted, so a list built with it has no duplicates.
-/

set_option autoImplicit false

namespace SyntaxGraph.Text

/-- Insert a string into a strictly sorted list, unless it is there already. -/
def insertText (text : String) : List String → List String
  | [] => [text]
  | first :: rest =>
    if text < first then text :: first :: rest
    else if text = first then first :: rest
    else first :: insertText text rest

/-- The different strings of a list in order. -/
def sortedSet (texts : List String) : List String := texts.foldr insertText []

variable {text other : String} {texts : List String}

theorem mem_insertText : other ∈ insertText text texts ↔ other = text ∨ other ∈ texts := by
  induction texts with
  | nil => simp [insertText]
  | cons first rest ih =>
      rw [insertText]
      split
      · exact List.mem_cons
      split
      · next same => simp [same]
      · rw [List.mem_cons, ih, List.mem_cons]
        exact or_left_comm

theorem pairwise_insertText (sorted : texts.Pairwise (· < ·)) :
    (insertText text texts).Pairwise (· < ·) := by
  induction texts with
  | nil => exact List.pairwise_singleton _ _
  | cons first rest ih =>
      obtain ⟨before, behind⟩ := List.pairwise_cons.mp sorted
      rw [insertText]
      split
      · next less =>
          refine List.pairwise_cons.mpr ⟨List.forall_mem_cons.mpr ⟨less, ?_⟩, sorted⟩
          exact fun other member => String.lt_trans less (before other member)
      split
      · exact sorted
      · next notLess different =>
          have greater : first < text := Decidable.byContradiction fun notGreater =>
            different (String.le_antisymm (String.not_lt.mp notGreater) (String.not_lt.mp notLess))
          refine List.pairwise_cons.mpr ⟨fun other member => ?_, ih behind⟩
          rcases mem_insertText.mp member with rfl | early
          · exact greater
          · exact before other early

theorem mem_sortedSet : text ∈ sortedSet texts ↔ text ∈ texts := by
  induction texts with
  | nil => exact Iff.rfl
  | cons first rest ih =>
      rw [sortedSet, List.foldr_cons, mem_insertText, ← sortedSet, ih, List.mem_cons]

theorem pairwise_sortedSet (texts : List String) : (sortedSet texts).Pairwise (· < ·) := by
  induction texts with
  | nil => exact .nil
  | cons first rest ih => exact pairwise_insertText ih

end SyntaxGraph.Text
