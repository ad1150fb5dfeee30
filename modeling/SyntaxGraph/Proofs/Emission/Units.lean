import Mathlib.Data.List.Forall2
import SyntaxGraph.Emission.Units

/-!
# What units hold

Each top-level declaration contributes an item to the unit of its key.  The keys of the units
are those of the declarations, and a unit is all the items of its key that are not empty, in
the order of the declarations and each with an empty line behind it.  The renderer only counts
where there is no directive.
-/

set_option autoImplicit false

namespace SyntaxGraph.Emission

variable {config : Config} {render : Renderer} {p : Program} {units : Units}
  {entries : List (String × String)} {key text : String}

/-! ## Keys -/

/-- The keys increase. -/
def Units.Sorted (units : Units) : Prop := units.Pairwise (·.1 < ·.1)

theorem Units.keys_append (key text : String) (units : Units) :
    (units.append key text).map Prod.fst = Text.insertText key (units.map Prod.fst) := by
  induction units with
  | nil => rfl
  | cons unit rest ih =>
      obtain ⟨first, held⟩ := unit
      rw [append, List.map_cons, Text.insertText]
      split
      · rfl
      split
      · rfl
      · rw [List.map_cons, ih]

theorem Units.mem_keys_append {other : String} :
    other ∈ (units.append key text).map Prod.fst ↔ other = key ∨ other ∈ units.map Prod.fst := by
  rw [keys_append, Text.mem_insertText]

theorem Units.sorted_iff : units.Sorted ↔ (units.map Prod.fst).Pairwise (· < ·) :=
  List.pairwise_map.symm

theorem Units.Sorted.append (sorted : units.Sorted) : (units.append key text).Sorted := by
  rw [sorted_iff, keys_append]
  exact Text.pairwise_insertText (sorted_iff.mp sorted)

/-- A unit behind an addition is an old one, or the one of the key with the text behind what
it has held. -/
theorem Units.Sorted.of_mem_append (sorted : units.Sorted) {unit : String × String}
    (member : unit ∈ units.append key text) :
    unit.1 ≠ key ∧ unit ∈ units ∨
      unit.1 = key ∧ ∃ held, unit.2 = held ++ text ∧
        ((key, held) ∈ units ∨ held = "" ∧ key ∉ units.map Prod.fst) := by
  induction units with
  | nil =>
      obtain rfl := List.mem_singleton.mp member
      exact .inr ⟨rfl, "", by simp⟩
  | cons unit' rest ih =>
      obtain ⟨first, held⟩ := unit'
      obtain ⟨before, behind⟩ := List.pairwise_cons.mp sorted
      rw [Units.append] at member
      split at member
      · next less =>
          have fresh : ∀ unit ∈ (first, held) :: rest, key < unit.1 :=
            List.forall_mem_cons.mpr
              ⟨less, fun unit later => String.lt_trans less (before unit later)⟩
          rcases List.mem_cons.mp member with rfl | old
          · refine .inr ⟨rfl, "", by simp, .inr ⟨rfl, fun there => ?_⟩⟩
            obtain ⟨unit, old, same⟩ := List.mem_map.mp there
            exact String.lt_irrefl _ (same ▸ fresh unit old)
          · exact .inl ⟨fun same => String.lt_irrefl _ (same ▸ fresh unit old), old⟩
      split at member
      · next same =>
          subst same
          rcases List.mem_cons.mp member with rfl | old
          · exact .inr ⟨rfl, held, rfl, .inl List.mem_cons_self⟩
          · refine .inl ⟨fun same => ?_, List.mem_cons_of_mem _ old⟩
            exact String.lt_irrefl _ (same ▸ before unit old)
      · next different =>
          rcases List.mem_cons.mp member with rfl | later
          · exact .inl ⟨Ne.symm different, List.mem_cons_self⟩
          · rcases ih behind later with ⟨other, old⟩ | ⟨same, held, text, old | ⟨empty, absent⟩⟩
            · exact .inl ⟨other, List.mem_cons_of_mem _ old⟩
            · exact .inr ⟨same, held, text, .inl (List.mem_cons_of_mem _ old)⟩
            · refine .inr ⟨same, held, text, .inr ⟨empty, ?_⟩⟩
              rw [List.map_cons, List.mem_cons, not_or]
              exact ⟨different, absent⟩

/-! ## Contents -/

/-- All items of a key that are not empty, each with an empty line behind it. -/
def contents (entries : List (String × String)) (key : String) : String :=
  String.join ((entries.filter fun entry => entry.1 = key ∧ entry.2 ≠ "").map (·.2 ++ "\n\n"))

theorem contents_append (entries : List (String × String)) (key item other : String) :
    contents (entries ++ [(key, item)]) other =
      contents entries other ++ if key = other then paragraph item else "" := by
  rw [contents, List.filter_append, List.map_append, String.join_append, ← contents]
  congr 1
  by_cases same : key = other
  · by_cases empty : item = ""
    · simp [same, empty, paragraph]
    · simp [same, empty, paragraph, String.isEmpty_iff]
  · simp [same]

theorem contents_of_notMem (absent : key ∉ entries.map Prod.fst) : contents entries key = "" := by
  have none : entries.filter (fun entry => entry.1 = key ∧ entry.2 ≠ "") = [] := by
    refine List.filter_eq_nil_iff.mpr fun entry member meets => absent ?_
    exact List.mem_map.mpr ⟨entry, member, (of_decide_eq_true meets).1⟩
  rw [contents, none]
  rfl

/-- The units hold the given items: there is one for each key of an entry, in order, and it
holds the items of its key. -/
structure Units.Collects (units : Units) (entries : List (String × String)) : Prop where
  sorted : units.Sorted
  keys : ∀ key, key ∈ units.map Prod.fst ↔ key ∈ entries.map Prod.fst
  texts : ∀ unit ∈ units, unit.2 = contents entries unit.1

/-- One item more. -/
theorem Units.Collects.append (collects : units.Collects entries) (key item : String) :
    (units.append key (paragraph item)).Collects (entries ++ [(key, item)]) where
  sorted := collects.sorted.append
  keys other := by
    rw [mem_keys_append, collects.keys, List.map_append, List.mem_append, or_comm]
    exact or_congr Iff.rfl List.mem_singleton.symm
  texts unit member := by
    rw [contents_append]
    rcases collects.sorted.of_mem_append member with
      ⟨other, old⟩ | ⟨same, held, text, old | ⟨empty, absent⟩⟩
    · rw [if_neg other.symm, collects.texts unit old, String.append_empty]
    · have before : held = contents entries key := collects.texts _ old
      rw [if_pos same.symm, text, same, before]
    · rw [if_pos same.symm, text, same, empty,
        contents_of_notMem fun there => absent ((collects.keys key).mpr there)]

/-! ## Items -/

/-- Texts with the separators in front of them; a separator is left out while nothing has been
written. -/
def setOut : List (String × String) → String
  | [] => ""
  | (_, text) :: rest =>
    if text = "" then setOut rest
    else text ++ String.join (rest.map fun piece => piece.1 ++ piece.2)

/-- A replacement among comments, piece by piece. -/
def pieces (comments : Comments) (replacement : String) : List (String × String) :=
  comments.before.map (fun comment => ("", comment ++ "\n")) ++ ("", replacement) ::
    (comments.suffix.map (fun comment => (" ", comment)) ++
      comments.after.map fun comment => ("\n", comment))

/-- Write one piece more. -/
def addPiece (written : String) (piece : String × String) : String :=
  if written.isEmpty then piece.2 else written ++ piece.1 ++ piece.2

theorem foldl_addPiece (written : String) (pieces : List (String × String)) :
    pieces.foldl addPiece written = if written = "" then setOut pieces
      else written ++ String.join (pieces.map fun piece => piece.1 ++ piece.2) := by
  induction pieces generalizing written with
  | nil => by_cases empty : written = "" <;> simp [setOut, empty]
  | cons piece rest ih =>
      obtain ⟨separator, text⟩ := piece
      rw [List.foldl_cons, ih]
      by_cases empty : written = ""
      · simp [addPiece, setOut, empty]
      · simp [addPiece, String.isEmpty_iff, empty, String.append_assoc]

theorem appendAll_eq (separator text : String) (others : List String) :
    appendAll separator text others =
      (others.map fun other => (separator, other)).foldl addPiece text := by
  rw [List.foldl_map]
  rfl

theorem foldl_addPiece_unseparated (written : String) (texts : List String) :
    (texts.map fun text => ("", text)).foldl addPiece written = written ++ String.join texts := by
  induction texts generalizing written with
  | nil => simp
  | cons text rest ih =>
      have first : addPiece written ("", text) = written ++ text := by
        by_cases empty : written = "" <;> simp [addPiece, String.isEmpty_iff, empty]
      rw [List.map_cons, List.foldl_cons, first, ih, String.join_cons, String.append_assoc]

theorem withComments_eq (comments : Comments) (replacement : String) :
    withComments comments replacement = setOut (pieces comments replacement) := by
  have whole := foldl_addPiece "" (pieces comments replacement)
  rw [if_pos rfl] at whole
  have front : (comments.before.map (fun comment => ("", comment ++ "\n"))).foldl addPiece "" =
      String.join (comments.before.map (· ++ "\n")) := by
    have texts := foldl_addPiece_unseparated "" (comments.before.map (· ++ "\n"))
    rwa [List.map_map, String.empty_append] at texts
  have middle (written : String) : addPiece written ("", replacement) = written ++ replacement := by
    by_cases empty : written = "" <;> simp [addPiece, String.isEmpty_iff, empty]
  rw [← whole, pieces, List.foldl_append, List.foldl_cons, List.foldl_append, front, middle,
    ← appendAll_eq, ← appendAll_eq]
  rfl

/-- What a top-level declaration contributes: the key of its unit, which is made of its group
and the stem of the file, and its item. -/
inductive Contributes (config : Config) (render : Renderer) (p : Program) (id : DeclId) :
    String × String → Prop
  | replaced {decl : Decl} {replacement : String} (found : p.decl? id = some decl)
    (directed : config.replacement? decl.name = some replacement) :
    Contributes config render p id
      (decl.group.getD (config.groupFor decl.name) ++ "/" ++ Path.stem p.file,
        setOut (pieces decl.comments replacement))
  | rendered {decl : Decl} {text : String} (found : p.decl? id = some decl)
    (free : config.replacement? decl.name = none) (renders : render p id = .ok text) :
    Contributes config render p id
      (decl.group.getD (config.groupFor decl.name) ++ "/" ++ Path.stem p.file, text)

/-- Why a top-level declaration cannot be emitted: it is not there, or the renderer, which only
counts if there is no directive, fails on it. -/
inductive Fails (config : Config) (render : Renderer) (p : Program) (id : DeclId) :
    MissingNode → Prop
  | absent (absent : p.decl? id = none) : Fails config render p id (.lookedUp (.decl id))
  | rendered {decl : Decl} {missing : MissingNode} (found : p.decl? id = some decl)
    (free : config.replacement? decl.name = none) (fails : render p id = .error missing) :
    Fails config render p id missing

/-! ## Emission -/

/-- One step of emission adds what the declaration contributes, or fails with it. -/
theorem emitOne_outcome (config : Config) (render : Renderer) (p : Program) (units : Units)
    (id : DeclId) :
    (∃ entry, Contributes config render p id entry ∧
        emitOne config render p units id = .ok (units.append entry.1 (paragraph entry.2))) ∨
      ∃ missing, Fails config render p id missing ∧
        emitOne config render p units id = .error missing := by
  rw [emitOne]
  cases found : p.decl? id with
  | none => exact .inr ⟨_, .absent found, rfl⟩
  | some decl =>
      simp only [item]
      cases directed : config.replacement? decl.name with
      | some replacement =>
          refine .inl ⟨_, .replaced found directed, ?_⟩
          rw [← withComments_eq]
          rfl
      | none =>
          cases rendered : render p id with
          | ok text => exact .inl ⟨_, .rendered found directed rendered, rfl⟩
          | error missing => exact .inr ⟨missing, .rendered found directed rendered, rfl⟩

theorem emitFrom_outcome (config : Config) (render : Renderer) (p : Program)
    (ids : List DeclId) (collects : units.Collects entries) :
    (∃ more last, List.Forall₂ (Contributes config render p) ids more ∧
        ids.foldlM (emitOne config render p) units = .ok last ∧
        last.Collects (entries ++ more)) ∨
      ∃ early id late missing, ids = early ++ id :: late ∧
        (∀ other ∈ early, ∃ entry, Contributes config render p other entry) ∧
        Fails config render p id missing ∧
        ids.foldlM (emitOne config render p) units = .error missing := by
  induction ids generalizing units entries with
  | nil => exact .inl ⟨[], units, .nil, rfl, by rwa [List.append_nil]⟩
  | cons id rest ih =>
      rw [List.foldlM_cons]
      rcases emitOne_outcome config render p units id with
        ⟨entry, contributes, emitted⟩ | ⟨missing, fails, emitted⟩
      · rw [emitted]
        rcases ih (collects.append entry.1 entry.2) with
          ⟨more, last, others, goesOn, collected⟩ |
          ⟨early, other, late, missing, split, others, fails, goesOn⟩
        · refine .inl ⟨entry :: more, last, .cons contributes others, goesOn, ?_⟩
          rwa [List.append_cons]
        · refine .inr ⟨id :: early, other, late, missing, by rw [split, List.cons_append],
            List.forall_mem_cons.mpr ⟨⟨entry, contributes⟩, others⟩, fails, goesOn⟩
      · rw [emitted]
        exact .inr ⟨[], id, rest, missing, rfl, by simp, fails, rfl⟩

theorem collects_nil : Units.Collects [] [] := ⟨.nil, fun _ => Iff.rfl, by simp⟩

theorem exists_contributes {ids : List DeclId} {entry : String × String}
    (contribute : List.Forall₂ (Contributes config render p) ids entries)
    (member : entry ∈ entries) : ∃ id ∈ ids, Contributes config render p id entry := by
  induction contribute with
  | nil => cases member
  | cons here _ ih =>
      rcases List.mem_cons.mp member with rfl | later
      · exact ⟨_, List.mem_cons_self, here⟩
      · obtain ⟨id, listed, contributes⟩ := ih later
        exact ⟨id, List.mem_cons_of_mem _ listed, contributes⟩

/-- The units of a program increase, and each has the key of a declaration. -/
theorem emit_keys (emitted : emit config render p = .ok units) :
    units.Sorted ∧ ∀ unit ∈ units, ∃ id decl, p.decl? id = some decl ∧
      unit.1 = unitKey config p.file decl := by
  rcases emitFrom_outcome config render p p.decls collects_nil with
    ⟨entries, last, contribute, ends, collects⟩ | ⟨_, _, _, missing, _, _, _, ends⟩
  · obtain rfl := Except.ok.inj (emitted.symm.trans ends)
    refine ⟨collects.sorted, fun unit member => ?_⟩
    have listed := (collects.keys unit.1).mp (List.mem_map_of_mem member)
    obtain ⟨entry, inside, same⟩ := List.mem_map.mp listed
    obtain ⟨id, -, contributes⟩ := exists_contributes contribute inside
    cases contributes with
    | replaced found | rendered found => exact ⟨id, _, found, same.symm⟩
  · cases emitted.symm.trans ends

/-- Emission goes the same way if each of its steps does. -/
theorem emit_congr {settings : Config} {other : Renderer} {q : Program} (same : q.decls = p.decls)
    (agree : ∀ id ∈ p.decls, ∀ units,
      emitOne settings other q units id = emitOne config render p units id) :
    emit settings other q = emit config render p := by
  have whole (ids : List DeclId) (listed : ids ⊆ p.decls) (units : Units) :
      ids.foldlM (emitOne settings other q) units = ids.foldlM (emitOne config render p) units := by
    induction ids generalizing units with
    | nil => rfl
    | cons id rest ih =>
        obtain ⟨here, listed⟩ := List.cons_subset.mp listed
        rw [List.foldlM_cons, List.foldlM_cons, agree id here]
        exact congrArg _ (funext fun next => ih listed next)
  rw [emit, emit, same]
  exact whole p.decls (List.Subset.refl _) []

/-- Emission does not depend on what a renderer makes of declarations with a directive. -/
theorem emit_render_congr {other : Renderer}
    (agree : ∀ id ∈ p.decls, ∀ decl, p.decl? id = some decl →
      config.replacement? decl.name = none → other p id = render p id) :
    emit config other p = emit config render p := by
  refine emit_congr rfl fun id listed units => ?_
  rw [emitOne, emitOne]
  cases found : p.decl? id with
  | none => rfl
  | some decl =>
      simp only [item]
      cases directed : config.replacement? decl.name with
      | some replacement => rfl
      | none => simp only [agree id listed decl found directed]

/-- Emission collects what the top-level declarations contribute, or it fails with the first
one that cannot be emitted; and a renderer only counts for declarations without a directive. -/
theorem emit_collects (config : Config) (render : Renderer) (p : Program) :
    ((∃ entries units, List.Forall₂ (Contributes config render p) p.decls entries ∧
        emit config render p = .ok units ∧ units.Collects entries) ∨
      ∃ early id late missing, p.decls = early ++ id :: late ∧
        (∀ other ∈ early, ∃ entry, Contributes config render p other entry) ∧
        Fails config render p id missing ∧ emit config render p = .error missing) ∧
    ∀ other : Renderer,
      (∀ id ∈ p.decls, ∀ decl, p.decl? id = some decl →
        config.replacement? decl.name = none → other p id = render p id) →
      emit config other p = emit config render p :=
  ⟨emitFrom_outcome config render p p.decls collects_nil, fun _ => emit_render_congr⟩

/-- A declaration in a group, listed twice, one to be replaced among its comments, and one to
be deleted. -/
def gathered : Program where
  file := "src/tool.c"
  decls := [⟨0⟩, ⟨1⟩, ⟨2⟩, ⟨0⟩]
  arenas := {
    decls := #[
      { name := "main", type := ⟨0⟩, group := some "cmd", span := default },
      { name := "DEBUG", type := ⟨0⟩, span := default,
        comments := { before := ["// prints"], suffix := ["// noisy"] } },
      { name := "gone", type := ⟨0⟩, span := default }] }

def gathering : Config where
  groups := [("main", "lost"), ("gone", "lib")]
  replace := [("debug", "D")]
  delete := ["gone"]

/-- A renderer that fails on all declarations but the first one. -/
def renderFirst : Renderer := fun p id =>
  if id = ⟨0⟩ then renderName p id else .error (.lookedUp (.decl id))

theorem emit_collects_gathered :
    (∀ id ∈ gathered.decls, ∀ decl, gathered.decl? id = some decl →
        gathering.replacement? decl.name = none →
        renderFirst gathered id = renderName gathered id) ∧
      ∃ entries, List.Forall₂ (Contributes gathering renderName gathered) gathered.decls entries ∧
        emit gathering renderFirst gathered = emit gathering renderName gathered ∧
        Units.Collects [("cmd/tool", "<main>\n\n<main>\n\n"), ("lib/tool", ""),
          ("other/tool", "// prints\nD // noisy\n\n")] entries := by
  have agree : ∀ id ∈ gathered.decls, ∀ decl, gathered.decl? id = some decl →
      gathering.replacement? decl.name = none →
      renderFirst gathered id = renderName gathered id := by
    intro id listed decl found free
    have rendered : ∀ id ∈ gathered.decls, id = ⟨0⟩ ∨
        ((gathered.decl? id).bind fun decl => gathering.replacement? decl.name).isSome := by
      decide +kernel
    rcases rendered id listed with rfl | directed
    · rfl
    · rw [found, Option.bind_some, free] at directed
      cases directed
  have shape : (emit gathering renderName gathered).toOption =
      some [("cmd/tool", "<main>\n\n<main>\n\n"), ("lib/tool", ""),
        ("other/tool", "// prints\nD // noisy\n\n")] := by
    decide +kernel
  obtain ⟨outcome, congr⟩ := emit_collects gathering renderName gathered
  refine ⟨agree, ?_⟩
  rcases outcome with ⟨entries, units, contribute, emitted, collects⟩ |
    ⟨_, _, _, missing, _, _, _, emitted⟩
  · rw [emitted] at shape
    obtain rfl := Option.some.inj shape
    exact ⟨entries, contribute, congr renderFirst agree, collects⟩
  · rw [emitted] at shape
    cases shape

end SyntaxGraph.Emission
