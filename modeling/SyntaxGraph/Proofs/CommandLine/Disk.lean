import SyntaxGraph.CommandLine.Disk
import SyntaxGraph.Proofs.Lists

/-!
# What a disk holds after writing

A path leads to one place, whatever is on the disk; the disk only decides whether one gets
there.  Writing makes directories and takes none away, so a path by which a text has been
written leads to its place ever after, and what is read there is the text that has been
written to that place last.
-/

set_option autoImplicit false

namespace SyntaxGraph.CommandLine

/-- Follow one part of a path, whatever is there. -/
def Place.follow (place : Place) (part : String) : Place :=
  if part = ".." then place.parent else place.child part

namespace Disk

variable {disk next last : Disk} {place there : Place} {path text : String}

/-- The place that a path leads to. -/
def placeOf (path : String) : Place := (Path.parts path).foldl Place.follow (start path)

/-! ## Directories stay -/

/-- All directories of the disk are still there. -/
def Keeps (disk next : Disk) : Prop :=
  ∀ place, disk.isDirectory place = true → next.isDirectory place = true

theorem Keeps.refl (disk : Disk) : disk.Keeps disk := fun _ held => held

theorem Keeps.trans (first : disk.Keeps next) (second : next.Keeps last) : disk.Keeps last :=
  fun place held => second place (first place held)

theorem enter?_follow {part : String} (entered : disk.enter? place part = some there) :
    there = place.follow part := by
  rw [enter?] at entered
  rw [Place.follow]
  split at entered
  · next above => rw [if_pos above, ← Option.some.inj entered]
  · next named =>
      split at entered
      · rw [if_neg named, ← Option.some.inj entered]
      · cases entered

theorem Keeps.enter? {part : String} (keeps : disk.Keeps next)
    (entered : disk.enter? place part = some there) : next.enter? place part = some there := by
  rw [Disk.enter?] at entered ⊢
  split at entered
  · next above => rw [if_pos above, entered]
  · next named =>
      split at entered
      · next held => rw [if_neg named, if_pos (keeps _ held), entered]
      · cases entered

theorem Keeps.enters {parts : List String} (keeps : disk.Keeps next)
    (entered : parts.foldlM disk.enter? place = some there) :
    parts.foldlM next.enter? place = some there := by
  induction parts generalizing place with
  | nil => exact entered
  | cons part rest ih =>
      rw [List.foldlM_cons] at entered ⊢
      obtain ⟨middle, here, behind⟩ := Option.bind_eq_some_iff.mp entered
      exact Option.bind_eq_some_iff.mpr ⟨middle, keeps.enter? here, ih behind⟩

theorem enters_follow {parts : List String}
    (entered : parts.foldlM disk.enter? place = some there) :
    there = parts.foldl Place.follow place := by
  induction parts generalizing place with
  | nil => exact (Option.some.inj entered).symm
  | cons part rest ih =>
      rw [List.foldlM_cons] at entered
      obtain ⟨middle, here, behind⟩ := Option.bind_eq_some_iff.mp entered
      rw [List.foldl_cons, ← enter?_follow here]
      exact ih behind

/-! ## Directories are made -/

/-- A directory that is entered or made can be entered afterwards, and no file changes. -/
theorem enterOrMake?_some {part : String}
    (made : enterOrMake? (disk, place) part = some (next, there)) :
    next.enter? place part = some there ∧ next.files = disk.files ∧ disk.Keeps next := by
  rw [enterOrMake?] at made
  dsimp only at made
  split at made
  · next above =>
      cases made
      exact ⟨by rw [enter?, if_pos above], rfl, .refl disk⟩
  next named =>
  split at made
  · next held =>
      cases made
      exact ⟨by rw [enter?, if_neg named, if_pos held], rfl, .refl disk⟩
  split at made
  · cases made
  · cases made
    have held : isDirectory { disk with directories := place.child part :: disk.directories }
        (place.child part) = true := by
      simp [isDirectory]
    refine ⟨by rw [enter?, if_neg named, if_pos held], rfl, fun other there => ?_⟩
    simp only [isDirectory, List.contains_cons, Bool.or_eq_true] at there ⊢
    exact there.imp id .inr

theorem makes_some {parts : List String}
    (made : parts.foldlM enterOrMake? (disk, place) = some (next, there)) :
    parts.foldlM next.enter? place = some there ∧ next.files = disk.files ∧
      disk.Keeps next := by
  induction parts generalizing disk place with
  | nil =>
      cases made
      exact ⟨rfl, rfl, .refl _⟩
  | cons part rest ih =>
      rw [List.foldlM_cons] at made
      obtain ⟨⟨between, middle⟩, here, behind⟩ := Option.bind_eq_some_iff.mp made
      obtain ⟨entered, same, kept⟩ := enterOrMake?_some here
      obtain ⟨enters, files, keeps⟩ := ih behind
      rw [List.foldlM_cons]
      exact ⟨Option.bind_eq_some_iff.mpr ⟨middle, keeps.enter? entered, enters⟩,
        files.trans same, kept.trans keeps⟩

/-! ## Reading and writing -/

/-- One gets to the place of the path, where a file may be. -/
def Leads (disk : Disk) (path : String) : Prop :=
  ∃ parts name there, Path.parts path = parts ++ [name] ∧ name ≠ ".." ∧
    isPassable path = true ∧ parts.foldlM disk.enter? (start path) = some there

theorem Leads.keeps (leads : disk.Leads path) (keeps : disk.Keeps next) : next.Leads path := by
  obtain ⟨parts, name, there, split, named, passable, enters⟩ := leads
  exact ⟨parts, name, there, split, named, passable, keeps.enters enters⟩

theorem placeOf_child {parts : List String} {name : String}
    (split : Path.parts path = parts ++ [name]) (named : name ≠ "..")
    (enters : parts.foldlM disk.enter? (start path) = some there) :
    placeOf path = there.child name := by
  rw [placeOf, split, List.foldl_append, ← enters_follow enters, List.foldl_cons, List.foldl_nil,
    Place.follow, if_neg named]

/-- Where a path leads, it reads what is held at its place. -/
theorem Leads.read? (leads : disk.Leads path) (file : namesDirectory path = false) :
    disk.read? path = disk.file? (placeOf path) := by
  obtain ⟨parts, name, there, split, named, passable, enters⟩ := leads
  rw [placeOf_child split named enters, Disk.read?, split]
  simp [named, file, passable, enters]

theorem file?_of_read? (found : disk.read? path = some text) :
    disk.file? (placeOf path) = some text := by
  rw [Disk.read?] at found
  obtain ⟨name, ending, found⟩ := Option.bind_eq_some_iff.mp found
  obtain ⟨parts, split⟩ := List.getLast?_eq_some_iff.mp ending
  rw [split, List.dropLast_concat] at found
  split at found
  · cases found
  next proper =>
  obtain ⟨there, enters, found⟩ := Option.bind_eq_some_iff.mp found
  have named : name ≠ ".." := fun above => proper (by simp [above])
  rwa [placeOf_child split named enters]

theorem file?_put (disk : Disk) (place other : Place) (text : String) :
    (disk.put place text).file? other =
      if other = place then some text else disk.file? other := by
  rw [file?, put, List.lookup_cons]
  by_cases same : other = place
  · simp [same]
  · rw [beq_eq_false_iff_ne.mpr same, if_neg same]
    exact lookup_filter_of_kept (· ≠ place) (decide_eq_true same) disk.files

/-- A text that has been written is held at the place of its path. -/
theorem write?_some (written : disk.write? path text = some next) :
    next.Leads path ∧ disk.Keeps next ∧ ∀ place,
      next.file? place = if place = placeOf path then some text else disk.file? place := by
  rw [write?] at written
  obtain ⟨name, ending, written⟩ := Option.bind_eq_some_iff.mp written
  split at written
  · cases written
  next passable =>
  obtain ⟨⟨between, there⟩, made, written⟩ := Option.bind_eq_some_iff.mp written
  dsimp only at written
  split at written
  · cases written
  next proper =>
  cases written
  obtain ⟨parts, split⟩ := List.getLast?_eq_some_iff.mp ending
  rw [split, List.dropLast_concat] at made
  obtain ⟨enters, files, keeps⟩ := makes_some made
  have named : name ≠ ".." := fun above => proper (by simp [above])
  have reaches : (between.put (there.child name) text).Leads path :=
    ⟨parts, name, there, split, named, by simpa using passable, enters⟩
  refine ⟨reaches, keeps, fun place => ?_⟩
  rw [placeOf_child split named enters, file?_put, file?, files]
  rfl

/-! ## One text after the other -/

/-- Write texts in order, each to the file at its path. -/
def writeAll? (disk : Disk) (writes : List (String × String)) : Option Disk :=
  writes.foldlM (fun disk write => disk.write? write.1 write.2) disk

variable {writes late : List (String × String)} {write : String × String}

theorem writeAll?_cons (written : disk.writeAll? (write :: late) = some last) :
    ∃ next, disk.write? write.1 write.2 = some next ∧ next.writeAll? late = some last := by
  rw [writeAll?, List.foldlM_cons] at written
  exact Option.bind_eq_some_iff.mp written

theorem writeAll?_append (disk : Disk) (early late : List (String × String)) :
    disk.writeAll? (early ++ late) = (disk.writeAll? early).bind (·.writeAll? late) :=
  List.foldlM_append

theorem writeAll?_leads (written : disk.writeAll? writes = some last) :
    disk.Keeps last ∧ ∀ write ∈ writes, last.Leads write.1 := by
  induction writes generalizing disk with
  | nil =>
      obtain rfl := Option.some.inj written
      exact ⟨.refl disk, by simp⟩
  | cons write late ih =>
      obtain ⟨next, here, behind⟩ := writeAll?_cons written
      obtain ⟨leads, kept, -⟩ := write?_some here
      obtain ⟨keeps, others⟩ := ih behind
      exact ⟨kept.trans keeps, List.forall_mem_cons.mpr ⟨leads.keeps keeps, others⟩⟩

theorem writeAll?_others (written : disk.writeAll? writes = some last)
    (others : ∀ write ∈ writes, placeOf write.1 ≠ place) :
    last.file? place = disk.file? place := by
  induction writes generalizing disk with
  | nil => rw [Option.some.inj written]
  | cons write late ih =>
      obtain ⟨next, here, behind⟩ := writeAll?_cons written
      obtain ⟨-, -, held⟩ := write?_some here
      obtain ⟨other, others⟩ := List.forall_mem_cons.mp others
      rw [ih behind others, held, if_neg other.symm]

/-- The text that has been written to a place last is held there. -/
theorem writeAll?_held (early : List (String × String))
    (written : disk.writeAll? (early ++ write :: late) = some last)
    (others : ∀ other ∈ late, placeOf other.1 ≠ placeOf write.1) :
    last.file? (placeOf write.1) = some write.2 := by
  rw [writeAll?_append] at written
  obtain ⟨middle, -, behind⟩ := Option.bind_eq_some_iff.mp written
  obtain ⟨next, here, behind⟩ := writeAll?_cons behind
  obtain ⟨-, -, held⟩ := write?_some here
  rw [writeAll?_others behind others, held, if_pos rfl]

/-- The two texts do not get in each other's way. -/
def Agree (one other : String × String) : Prop :=
  placeOf one.1 = placeOf other.1 → one.2 = other.2

theorem writeAll?_agree (written : disk.writeAll? writes = some last)
    (agree : writes.Pairwise Agree) :
    ∀ write ∈ writes, last.file? (placeOf write.1) = some write.2 := by
  induction writes generalizing disk with
  | nil => simp
  | cons write late ih =>
      obtain ⟨next, here, behind⟩ := writeAll?_cons written
      obtain ⟨first, agree⟩ := List.pairwise_cons.mp agree
      have rest := ih behind agree
      refine List.forall_mem_cons.mpr ⟨?_, rest⟩
      by_cases again : ∃ other ∈ late, placeOf other.1 = placeOf write.1
      · obtain ⟨other, member, same⟩ := again
        rw [← same, rest other member, first other member same.symm]
      · exact writeAll?_held [] written fun other member same =>
          again ⟨other, member, same⟩

/-- All texts that have been written can be read in the end exactly if no two different ones
have been written to one place. -/
theorem writeAll?_holds_iff (written : disk.writeAll? writes = some last)
    (files : ∀ write ∈ writes, namesDirectory write.1 = false) :
    (∀ write ∈ writes, last.read? write.1 = some write.2) ↔ writes.Pairwise Agree := by
  constructor
  · intro held
    refine List.pairwise_of_forall_mem_list fun one first other second same => ?_
    have here := file?_of_read? (held one first)
    rw [same, file?_of_read? (held other second)] at here
    exact (Option.some.inj here).symm
  · intro agree write member
    rw [((writeAll?_leads written).2 write member).read? (files write member)]
    exact writeAll?_agree written agree write member

end Disk

end SyntaxGraph.CommandLine
