import SyntaxGraph.Source.Path

/-!
# Parts of paths

No part of a path has a slash in it, and a path that is joined from two others has the parts
of the one and then those of the other.  A name that does not lead elsewhere is the only part
of itself.
-/

set_option autoImplicit false

namespace SyntaxGraph.Path

/-- The text can name a file or a directory in another one. -/
structure IsName (text : String) : Prop where
  some : text ≠ ""
  notHere : text ≠ "."
  notAbove : text ≠ ".."
  slashless : '/' ∉ text.toList

variable {path name : String}

/-! ## Parts -/

theorem parts_slash (front back : String) :
    parts (front ++ "/" ++ back) = parts front ++ parts back := by
  have split : (front ++ "/" ++ back).toList = front.toList ++ '/' :: back.toList := by simp
  rw [parts, split, List.splitOn_append_cons_self, List.map_append, List.filter_append]
  rfl

theorem parts_name (plain : IsName name) : parts name = [name] := by
  rw [parts, List.splitOn_eq_singleton plain.slashless]
  simp [plain.some, plain.notHere]

/-- What has been gathered in front has no slash, and neither have the pieces behind it. -/
theorem splitOnPPrepend_slashless {chars front : List Char} (gathered : '/' ∉ front) :
    ∀ piece ∈ List.splitOnPPrepend (· == '/') chars front, '/' ∉ piece := by
  induction chars generalizing front with
  | nil => simpa [List.splitOnPPrepend] using gathered
  | cons char rest ih =>
      rw [List.splitOnPPrepend_cons_eq_if]
      split
      · refine List.forall_mem_cons.mpr ⟨by simpa using gathered, ?_⟩
        rw [List.splitOnP_eq_splitOnPPrepend]
        exact ih List.not_mem_nil
      · next other =>
          refine ih fun slash => ?_
          rcases List.mem_cons.mp slash with rfl | early
          · exact other (beq_self_eq_true '/')
          · exact gathered early

theorem slashless_of_parts (member : name ∈ parts path) : '/' ∉ name.toList := by
  obtain ⟨piece, inside, rfl⟩ := List.mem_map.mp (List.mem_filter.mp member).1
  rw [List.splitOn_eq_splitOnP, List.splitOnP_eq_splitOnPPrepend] at inside
  rw [String.toList_ofList]
  exact splitOnPPrepend_slashless List.not_mem_nil piece inside

/-! ## Stems -/

theorem stemOf_slashless (plain : '/' ∉ name.toList) : '/' ∉ (stemOf name).toList := by
  rw [stemOf]
  split
  · exact plain
  next extension =>
  split
  · exact plain
  · intro slash
    rw [String.toList_ofList, List.mem_reverse] at slash
    have behind := List.dropWhile_subset (· ≠ '.') (extension ▸ List.mem_cons_of_mem _ slash)
    exact plain (List.mem_reverse.mp behind)

theorem stem_slashless (path : String) : '/' ∉ (stem path).toList := by
  rw [stem]
  split
  · simp
  next ending =>
  split
  · simp
  · exact stemOf_slashless (slashless_of_parts (List.mem_of_getLast? ending))

/-- A name with an extension is more than dots. -/
theorem isName_extended (plain : '/' ∉ name.toList) : IsName (name ++ ".txt") := by
  have long : 4 ≤ (name ++ ".txt").length := by
    rw [String.length_append]
    exact Nat.le_add_left 4 name.length
  refine ⟨?_, ?_, ?_, by simp [plain]⟩
  all_goals
    intro same
    rw [same] at long
    revert long
    decide

/-! ## Joining -/

theorem join_eq (base : String) (relative : isAbsolute path = false) :
    join base path = path ∧ base = "" ∨
      (∃ front, base = front ++ "/" ∧ join base path = front ++ "/" ++ path) ∨
        base ≠ "" ∧ join base path = base ++ "/" ++ path := by
  simp only [join, relative, Bool.false_eq_true, if_false, Bool.or_eq_true,
    String.isEmpty_iff, decide_eq_true_eq]
  by_cases empty : base = ""
  · exact .inl ⟨by simp [empty], empty⟩
  by_cases trailing : base.toList.getLast? = some '/'
  · obtain ⟨front, split⟩ := List.getLast?_eq_some_iff.mp trailing
    have same : base = String.ofList front ++ "/" := String.toList_inj.mp (by simp [split])
    exact .inr (.inl ⟨String.ofList front, same, by rw [if_pos (.inr trailing), ← same]⟩)
  · exact .inr (.inr ⟨empty, if_neg (not_or.mpr ⟨empty, trailing⟩)⟩)

theorem isAbsolute_append {front : String} (some : front ≠ "") (back : String) :
    isAbsolute (front ++ back) = isAbsolute front := by
  rw [isAbsolute, isAbsolute, String.toList_append]
  cases chars : front.toList with
  | nil => exact absurd (String.toList_inj.mp chars) some
  | cons first rest => rfl

theorem parts_join (base : String) (relative : isAbsolute path = false) :
    parts (join base path) = parts base ++ parts path := by
  rcases join_eq base relative with ⟨same, rfl⟩ | ⟨front, rfl, same⟩ | ⟨-, same⟩
  · rw [same]
    rfl
  · rw [same, parts_slash]
    have trailing : parts (front ++ "/") = parts front := by
      have split := parts_slash front ""
      rwa [String.append_empty, show parts "" = [] from rfl, List.append_nil] at split
    rw [trailing]
  · rw [same, parts_slash]

theorem isAbsolute_join (base : String) (relative : isAbsolute path = false) :
    isAbsolute (join base path) = isAbsolute base := by
  rcases join_eq base relative with ⟨same, rfl⟩ | ⟨front, rfl, same⟩ | ⟨some, same⟩
  · rw [same, relative]
    rfl
  · have some : front ++ "/" ≠ "" := fun empty => by simpa using congrArg String.toList empty
    rw [same, isAbsolute_append some]
  · rw [same, String.append_assoc, isAbsolute_append some]

end SyntaxGraph.Path
