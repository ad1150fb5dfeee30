import SyntaxGraph.Proofs.CommandLine.Disk
import SyntaxGraph.Proofs.CommandLine.Files
import SyntaxGraph.Proofs.Emission.Units
import SyntaxGraph.Proofs.Source.Path

/-!
# Units below an output directory

A run with an output directory that ends well has written the units of each file before it
has read the next one.  What is written later to the same place takes the place of what was
there, without a word, and places are made of groups and the stems of files only.  So all
units are kept if and only if no two different texts have gone to one place.
-/

set_option autoImplicit false

namespace SyntaxGraph.CommandLine

open Emission (Config Units)

variable {formats : Formats} {settings : Config} {out : String} {disk next last : Disk}
  {units : Units} {batches : List Units} {files : List String}

/-- The path of the file that the unit of a key is written to. -/
def unitPath (out key : String) : String := Path.join out (key ++ ".txt")

def unitWrites (out : String) (units : Units) : List (String × String) :=
  units.map fun unit => (unitPath out unit.1, unit.2)

/-- The units that are emitted for a source. -/
def Emits (settings : Config) (file source : String) (units : Units) : Prop :=
  ∃ p, Program.read file source = .ok p ∧
    Emission.emit settings Emission.renderDump (Emission.route settings p).1 = .ok units

/-- The units of each file are written to the disk before the next file is read from it. -/
inductive Produces (settings : Config) (out : String) :
    Disk → List String → List Units → Disk → Prop
  | done (disk : Disk) : Produces settings out disk [] [] disk
  | file {disk next last : Disk} {path source : String} {files : List String} {units : Units}
    {batches : List Units} (found : disk.read? path = some source)
    (emits : Emits settings path source units)
    (written : disk.writeAll? (unitWrites out units) = some next)
    (rest : Produces settings out next files batches last) :
    Produces settings out disk (path :: files) (units :: batches) last

/-- All that is written, one unit after the other. -/
theorem Produces.writes (produces : Produces settings out disk files batches last) :
    disk.writeAll? (unitWrites out batches.flatten) = some last := by
  induction produces with
  | done => rfl
  | file _ _ written _ ih =>
      rw [unitWrites, List.flatten_cons, List.map_append, Disk.writeAll?_append]
      exact Option.bind_eq_some_iff.mpr ⟨_, written, ih⟩

/-! ## Runs -/

variable {world after : World}

theorem run_bind {α β : Type} {action : StateM World α} {rest : α → StateM World β} {value : β}
    (ran : (action >>= rest).run world = (value, after)) :
    ∃ answer middle, action.run world = (answer, middle) ∧
      (rest answer).run middle = (value, after) :=
  ⟨_, _, rfl, ran⟩

theorem bind_run {α β : Type} {action : StateM World α} {rest : α → StateM World β}
    {answer : α} {result : β × World} (first : action.run world = (answer, after))
    (others : (rest answer).run after = result) : (action >>= rest).run world = result := by
  rw [StateT.run_bind, first]
  exact others

theorem write_some {path text : String} (written : world.disk.write? path text = some disk) :
    (formats.host.write path text).run world = (true, { world with disk }) := by
  simp only [Formats.host, StateT.run_bind, StateT.run_get, pure_bind, written]
  rfl

theorem write_true {path text : String}
    (ran : (formats.host.write path text).run world = (true, after)) :
    world.disk.write? path text = some after.disk := by
  cases written : world.disk.write? path text with
  | none =>
      have refused : (formats.host.write path text).run world = (false, world) := by
        simp only [Formats.host, StateT.run_bind, StateT.run_get, pure_bind, written]
        rfl
      cases refused.symm.trans ran
  | some disk =>
      cases (write_some written).symm.trans ran
      rfl

theorem writeUnits_true
    (ran : (writeUnits formats.host out units).run world = (true, after)) :
    world.disk.writeAll? (unitWrites out units) = some after.disk := by
  induction units generalizing world with
  | nil =>
      cases ran
      rfl
  | cons unit rest ih =>
      obtain ⟨wrote, middle, first, ran⟩ := run_bind ran
      cases wrote with
      | false => cases ran
      | true =>
          rw [unitWrites, List.map_cons, Disk.writeAll?, List.foldlM_cons]
          exact Option.bind_eq_some_iff.mpr ⟨_, write_true first, ih ran⟩

theorem writeUnits_some (written : world.disk.writeAll? (unitWrites out units) = some next) :
    (writeUnits formats.host out units).run world = (true, { world with disk := next }) := by
  induction units generalizing world with
  | nil =>
      cases written
      rfl
  | cons unit rest ih =>
      obtain ⟨middle, here, behind⟩ := Disk.writeAll?_cons written
      refine bind_run (write_some here) ?_
      rw [if_pos rfl, ih behind]

theorem emitProgram_true {p : Program}
    (ran : (emitProgram formats.host settings (some out) p).run world = (true, after)) :
    ∃ units, Emission.emit settings Emission.renderDump (Emission.route settings p).1 =
        .ok units ∧
      world.disk.writeAll? (unitWrites out units) = some after.disk := by
  rw [emitProgram] at ran
  cases routed : Emission.route settings p with
  | mk bound error =>
      rw [routed] at ran
      cases error with
      | some error => cases ran
      | none =>
          dsimp only at ran
          split at ran
          · next units names emitted unused =>
              obtain ⟨_, middle, logged, ran⟩ := run_bind ran
              obtain ⟨output, adds⟩ : ∃ output,
                  Adds world.disk (logUnused formats.host bound.file names) () output :=
                logUnused_adds bound.file names
              obtain rfl : middle = world.add output :=
                (congrArg Prod.snd (logged.symm.trans (adds world rfl)) :)
              have written := writeUnits_true ran
              exact ⟨units, emitted, written⟩
          · cases ran

theorem emitProgram_some {file source : String} {p : Program}
    (parsed : Program.read file source = .ok p)
    (emitted : Emission.emit settings Emission.renderDump (Emission.route settings p).1 =
      .ok units)
    (written : world.disk.writeAll? (unitWrites out units) = some next) :
    ∃ after, (emitProgram formats.host settings (some out) p).run world = (true, after) ∧
      after.disk = next := by
  have routed := Emission.route_of_read settings parsed
  obtain ⟨names, unused⟩ :=
    (Emission.emits_of_read settings parsed (Emission.evolves_route settings p).unbound).2
  rw [emitProgram]
  cases outcome : Emission.route settings p with
  | mk bound error =>
      rw [outcome] at routed emitted unused
      obtain rfl : error = none := routed
      simp only [emitted, unused]
      obtain ⟨output, adds⟩ := logUnused_adds bound.file names
      exact ⟨_, bind_run (adds world rfl) (writeUnits_some written), rfl⟩

/-- A run that ends well has parsed each file and written all of its units. -/
theorem runFiles_success {ending : Ending}
    (ran : (runFiles formats.host (some settings) (some out) ending files).run world =
      (.success, after)) :
    ending = .success ∧ ∃ batches, Produces settings out world.disk files batches after.disk := by
  induction files generalizing ending world with
  | nil =>
      cases ran
      exact ⟨rfl, [], .done _⟩
  | cons path rest ih =>
      obtain ⟨found, middle, read, ran⟩ := run_bind ran
      cases read
      cases reads : world.disk.read? path with
      | none =>
          rw [reads] at ran
          cases ran
      | some source =>
          rw [reads] at ran
          dsimp only at ran
          cases reading : Program.read path source with
          | error error =>
              rw [reading] at ran
              obtain ⟨_, between, logged, ran⟩ := run_bind ran
              cases (ih ran).1
          | ok p =>
              rw [reading] at ran
              obtain ⟨kept, between, emits, ran⟩ := run_bind ran
              cases kept with
              | false => cases ran
              | true =>
                  obtain ⟨units, emitted, written⟩ := emitProgram_true emits
                  obtain ⟨ended, batches, produces⟩ := ih ran
                  exact ⟨ended, units :: batches,
                    .file reads ⟨p, reading, emitted⟩ written produces⟩

/-- If each file can be parsed and its units can be written the run goes on to its end. -/
theorem runFiles_produces (produces : Produces settings out disk files batches last)
    (ending : Ending) (same : world.disk = disk) :
    ∃ after, (runFiles formats.host (some settings) (some out) ending files).run world =
      (ending, after) ∧ after.disk = last := by
  induction produces generalizing world with
  | done => exact ⟨world, rfl, same⟩
  | file found emits written _ ih =>
      subst same
      obtain ⟨p, parsed, emitted⟩ := emits
      obtain ⟨middle, ran, wrote⟩ := emitProgram_some parsed emitted written
      obtain ⟨after, others, held⟩ := ih wrote
      refine ⟨after, bind_run (rfl : _ = (_, world)) ?_, held⟩
      simp only [found, parsed]
      exact bind_run ran others

/-- What a run with settings and an output directory comes to. -/
def outcomeBelow (formats : Formats) (out : String) (disk : Disk) (config : String)
    (files : List String) : Ending × World :=
  (run formats.host { files, config := some config, out := some out }).run { disk }

/-- The settings can be loaded, each file can be parsed, and its units can be written. -/
structure Delivers (formats : Formats) (out : String) (disk : Disk) (config : String)
    (files : List String) (settings : Config) (batches : List Units) (last : Disk) : Prop where
  loads : ∃ text, disk.read? config = some text ∧ formats.settings text = some settings
  produces : Produces settings out disk files batches last

theorem delivers_of_success {config : String}
    (ended : (outcomeBelow formats out disk config files).1 = .success) :
    ∃ settings batches, Delivers formats out disk config files settings batches
      (outcomeBelow formats out disk config files).2.disk := by
  have ran : (run formats.host { files, config := some config, out := some out }).run { disk } =
      (.success, (outcomeBelow formats out disk config files).2) := Prod.ext ended rfl
  obtain ⟨loaded, middle, load, ran⟩ := run_bind ran
  obtain ⟨found, between, read, load⟩ := run_bind load
  cases read
  cases reads : disk.read? config with
  | none =>
      rw [show World.disk { disk } = disk from rfl, reads] at load
      cases load
      cases ran
  | some text =>
      rw [show World.disk { disk } = disk from rfl, reads] at load
      dsimp only at load
      cases means : formats.host.settings text with
      | none =>
          rw [means] at load
          cases load
          cases ran
      | some settings =>
          rw [means] at load
          cases load
          obtain ⟨-, batches, produces⟩ := runFiles_success ran
          exact ⟨settings, batches, ⟨text, reads, means⟩, produces⟩

theorem Delivers.outcome {config : String}
    (delivers : Delivers formats out disk config files settings batches last) :
    (outcomeBelow formats out disk config files).1 = .success ∧
      (outcomeBelow formats out disk config files).2.disk = last := by
  obtain ⟨text, found, loaded⟩ := delivers.loads
  have start : (World.add { disk } {}).disk = disk := rfl
  obtain ⟨after, ran, held⟩ := runFiles_produces delivers.produces .success start
  have whole : outcomeBelow formats out disk config files = (.success, after) :=
    bind_run (loadConfig_adds found loaded { disk } rfl) ran
  rw [whole]
  exact ⟨rfl, held⟩

/-! ## Places of units -/

theorem placeOf_join (base : String) {path : String} (relative : Path.isAbsolute path = false) :
    Disk.placeOf (Path.join base path) =
      (Path.parts path).foldl Place.follow (Disk.placeOf base) := by
  rw [Disk.placeOf, Path.parts_join base relative, List.foldl_append, Disk.start,
    Path.isAbsolute_join base relative]
  rfl

/-- Units are written to files. -/
theorem unitPath_file (out key : String) : Disk.namesDirectory (unitPath out key) = false := by
  have ends : ∃ front, unitPath out key = front ++ ".txt" := by
    rw [unitPath, Path.join]
    split
    · exact ⟨key, rfl⟩
    split
    · exact ⟨out ++ key, String.append_assoc.symm⟩
    · exact ⟨out ++ "/" ++ key, String.append_assoc.symm⟩
  obtain ⟨front, same⟩ := ends
  rw [same, Disk.namesDirectory, String.toList_append, List.reverse_append]
  rfl

/-- The file of a stem in the directory of a group. -/
def unitPlace (out group stem : String) : Place :=
  ((Disk.placeOf out).child group).child (stem ++ ".txt")

theorem unitPlace_inj {group other stem another : String}
    (same : unitPlace out group stem = unitPlace out other another) :
    group = other ∧ stem = another := by
  simpa [unitPlace, Place.child, and_comm] using same

/-- The unit of a group that is a name lies in a directory of its own. -/
theorem placeOf_unitPath (out path : String) {group : String} (plain : Path.IsName group) :
    Disk.placeOf (unitPath out (group ++ "/" ++ Path.stem path)) =
      unitPlace out group (Path.stem path) := by
  have file := Path.isName_extended (Path.stem_slashless path)
  have relative : Path.isAbsolute (group ++ "/" ++ (Path.stem path ++ ".txt")) = false := by
    rw [String.append_assoc, Path.isAbsolute_append plain.some]
    exact decide_eq_false fun slash => plain.slashless (List.mem_of_head? slash)
  rw [unitPath, String.append_assoc, placeOf_join out relative, Path.parts_slash,
    Path.parts_name plain, Path.parts_name file]
  simp [Place.follow, plain.notAbove, file.notAbove, unitPlace]

theorem Emits.keys {path source : String} (emits : Emits settings path source units) :
    units.Sorted ∧
      ∀ unit ∈ units, ∃ name, unit.1 = settings.groupFor name ++ "/" ++ Path.stem path := by
  obtain ⟨p, parsed, emitted⟩ := emits
  obtain ⟨sorted, keys⟩ := Emission.emit_keys emitted
  refine ⟨sorted, fun unit member => ?_⟩
  obtain ⟨id, decl, found, same⟩ := keys unit member
  obtain ⟨name, key⟩ := Emission.unitKey_of_read settings parsed found
  exact ⟨name, same.trans key⟩

/-- Units go to different places if the files have different stems and groups are names. -/
theorem Produces.apart (produces : Produces settings out disk files batches last)
    (stems : (files.map Path.stem).Nodup)
    (plain : ∀ name, Path.IsName (settings.groupFor name)) :
    (∀ unit ∈ batches.flatten, ∃ path ∈ files, ∃ name,
        unit.1 = settings.groupFor name ++ "/" ++ Path.stem path ∧
          Disk.placeOf (unitPath out unit.1) =
            unitPlace out (settings.groupFor name) (Path.stem path)) ∧
      batches.flatten.Pairwise fun one other =>
        Disk.placeOf (unitPath out one.1) ≠ Disk.placeOf (unitPath out other.1) := by
  induction produces with
  | done => exact ⟨by simp, .nil⟩
  | @file disk next last path source files units batches _ emits _ _ ih =>
      obtain ⟨fresh, stems⟩ := List.nodup_cons.mp stems
      obtain ⟨placed, apart⟩ := ih stems
      obtain ⟨sorted, keys⟩ := emits.keys
      have here : ∀ unit ∈ units, ∃ name,
          unit.1 = settings.groupFor name ++ "/" ++ Path.stem path ∧
            Disk.placeOf (unitPath out unit.1) =
              unitPlace out (settings.groupFor name) (Path.stem path) := by
        intro unit member
        obtain ⟨name, key⟩ := keys unit member
        exact ⟨name, key, key ▸ placeOf_unitPath out path (plain name)⟩
      rw [List.flatten_cons]
      refine ⟨List.forall_mem_append.mpr ⟨fun unit member => ?_, fun unit member => ?_⟩,
        List.pairwise_append.mpr ⟨?within, apart, ?across⟩⟩
      · exact ⟨path, List.mem_cons_self, here unit member⟩
      · obtain ⟨other, listed, rest⟩ := placed unit member
        exact ⟨other, List.mem_cons_of_mem _ listed, rest⟩
      case within =>
        refine sorted.imp_of_mem fun first second less same => ?_
        obtain ⟨name, key, place⟩ := here _ first
        obtain ⟨another, otherKey, otherPlace⟩ := here _ second
        rw [place, otherPlace] at same
        rw [key, otherKey, (unitPlace_inj same).1] at less
        exact String.lt_irrefl _ less
      case across =>
        intro one first other second same
        obtain ⟨name, -, place⟩ := here one first
        obtain ⟨file, listed, another, -, otherPlace⟩ := placed other second
        rw [place, otherPlace] at same
        exact fresh ((unitPlace_inj same).2 ▸ List.mem_map_of_mem listed)

/-! ## What is kept -/

/-- Where a unit has been written to leads to its place. -/
theorem Produces.read? (produces : Produces settings out disk files batches last)
    {unit : String × String} (member : unit ∈ batches.flatten) :
    last.read? (unitPath out unit.1) = last.file? (Disk.placeOf (unitPath out unit.1)) :=
  ((Disk.writeAll?_leads produces.writes).2 _ (List.mem_map_of_mem member)).read?
    (unitPath_file out unit.1)

theorem Produces.later (produces : Produces settings out disk files batches last)
    {early late : Units} {unit : String × String}
    (split : batches.flatten = early ++ unit :: late)
    (others : ∀ other ∈ late,
      Disk.placeOf (unitPath out other.1) ≠ Disk.placeOf (unitPath out unit.1)) :
    last.read? (unitPath out unit.1) = some unit.2 := by
  have written := produces.writes
  rw [split, unitWrites, List.map_append, List.map_cons] at written
  have final := Disk.writeAll?_held _ written fun other listed => by
    obtain ⟨source, inside, rfl⟩ := List.mem_map.mp listed
    exact others source inside
  exact (produces.read? (by simp [split])).trans final

theorem Produces.held_iff (produces : Produces settings out disk files batches last) :
    (∀ unit ∈ batches.flatten, last.read? (unitPath out unit.1) = some unit.2) ↔
      batches.flatten.Pairwise fun one other =>
        Disk.placeOf (unitPath out one.1) = Disk.placeOf (unitPath out other.1) →
          one.2 = other.2 := by
  simpa only [unitWrites, List.forall_mem_map, List.pairwise_map, Disk.Agree] using
    Disk.writeAll?_holds_iff produces.writes (List.forall_mem_map.mpr fun unit _ =>
      unitPath_file out unit.1)

theorem Produces.named (produces : Produces settings out disk files batches last)
    (stems : (files.map Path.stem).Nodup)
    (plain : ∀ name, Path.IsName (settings.groupFor name)) :
    ∀ unit ∈ batches.flatten, ∃ path ∈ files, ∃ name,
      unit.1 = settings.groupFor name ++ "/" ++ Path.stem path ∧
        Disk.placeOf (unitPath out unit.1) =
          unitPlace out (settings.groupFor name) (Path.stem path) ∧
        last.read? (unitPath out unit.1) = some unit.2 := by
  intro unit member
  obtain ⟨placed, apart⟩ := produces.apart stems plain
  obtain ⟨path, listed, name, key, place⟩ := placed unit member
  have agree : batches.flatten.Pairwise fun one other =>
      Disk.placeOf (unitPath out one.1) = Disk.placeOf (unitPath out other.1) →
        one.2 = other.2 := apart.imp fun different same => absurd same different
  exact ⟨path, listed, name, key, place, produces.held_iff.mpr agree unit member⟩

/-- A run ends well exactly if the settings can be loaded, each file can be parsed and its
units can be written.  Then a unit can be read in the end unless a later one has gone to its
place, and all units can be read exactly if no two different texts have gone to one place.
That is so if no two files have the same stem and each group is a name. -/
theorem run_keeps_units (formats : Formats) (out : String) (disk : Disk) (config : String)
    (files : List String) :
    ((outcomeBelow formats out disk config files).1 = .success ↔
      ∃ settings batches last, Delivers formats out disk config files settings batches last) ∧
    ∀ settings batches last, Delivers formats out disk config files settings batches last →
      (outcomeBelow formats out disk config files).2.disk = last ∧
      (∀ early unit late, batches.flatten = early ++ unit :: late →
        (∀ other ∈ late,
          Disk.placeOf (unitPath out other.1) ≠ Disk.placeOf (unitPath out unit.1)) →
        last.read? (unitPath out unit.1) = some unit.2) ∧
      ((∀ unit ∈ batches.flatten, last.read? (unitPath out unit.1) = some unit.2) ↔
        batches.flatten.Pairwise fun one other =>
          Disk.placeOf (unitPath out one.1) = Disk.placeOf (unitPath out other.1) →
            one.2 = other.2) ∧
      ((files.map Path.stem).Nodup → (∀ name, Path.IsName (settings.groupFor name)) →
        ∀ unit ∈ batches.flatten, ∃ path ∈ files, ∃ name,
          unit.1 = settings.groupFor name ++ "/" ++ Path.stem path ∧
            Disk.placeOf (unitPath out unit.1) =
              unitPlace out (settings.groupFor name) (Path.stem path) ∧
            last.read? (unitPath out unit.1) = some unit.2) := by
  refine ⟨⟨fun ended => ?_, fun ⟨settings, batches, last, delivers⟩ => delivers.outcome.1⟩,
    fun settings batches last delivers => ?_⟩
  · obtain ⟨settings, batches, delivers⟩ := delivers_of_success ended
    exact ⟨settings, batches, _, delivers⟩
  · have produces := delivers.produces
    exact ⟨delivers.outcome.2, fun early unit late split => produces.later split,
      produces.held_iff, produces.named⟩

/-- Two files of one stem in different directories, and one of another stem. -/
def twinDisk : Disk := .ofFiles
  [("a/x.c", "int x; // one"), ("b/x.c", "int x; // two"), ("y.c", "int x;"),
    ("c.toml", "[replace]\nx = 'X'\n")]

theorem run_keeps_units_twinDisk :
    ∃ settings batches last,
      Delivers .standard "out" twinDisk "c.toml" ["a/x.c", "y.c"] settings batches last ∧
        ∀ unit ∈ batches.flatten, last.read? (unitPath "out" unit.1) = some unit.2 := by
  obtain ⟨ends, keeps⟩ := run_keeps_units .standard "out" twinDisk "c.toml" ["a/x.c", "y.c"]
  obtain ⟨settings, batches, last, delivers⟩ := ends.mp (by decide +kernel)
  obtain ⟨text, found, loaded⟩ := delivers.loads
  have written : twinDisk.read? "c.toml" = some "[replace]\nx = 'X'\n" := by decide +kernel
  obtain rfl := Option.some.inj (written.symm.trans found)
  have meant : Formats.standard.settings "[replace]\nx = 'X'\n" =
      some { replace := [("x", "X")] } := by
    decide +kernel
  obtain rfl := Option.some.inj (meant.symm.trans loaded)
  have plain : Path.IsName "other" := ⟨by decide, by decide, by decide, by decide⟩
  obtain ⟨-, -, -, named⟩ := keeps _ _ _ delivers
  refine ⟨_, batches, last, delivers, fun unit member => ?_⟩
  obtain ⟨_, _, _, -, -, read⟩ := named (by decide +kernel) (fun _ => plain) unit member
  exact read

/-- The unit of the first file is overwritten by that of the second one. -/
theorem run_loses_unit :
    (outcomeBelow .standard "out" twinDisk "c.toml" ["a/x.c", "b/x.c"]).1 = .success ∧
      Formats.standard.settings "[replace]\nx = 'X'\n" =
        some { replace := [("x", "X")] } ∧
      Emits { replace := [("x", "X")] } "a/x.c" "int x; // one" [("other/x", "X // one\n\n")] ∧
      (outcomeBelow .standard "out" twinDisk "c.toml" ["a/x.c", "b/x.c"]).2.disk.read?
        (unitPath "out" "other/x") = some "X // two\n\n" := by
  refine ⟨by decide +kernel, by decide +kernel, ?_, by decide +kernel⟩
  have shape : (Program.read "a/x.c" "int x; // one").toOption.map (fun p =>
      (Emission.emit { replace := [("x", "X")] } Emission.renderDump
        (Emission.route { replace := [("x", "X")] } p).1).toOption) =
      some (some [("other/x", "X // one\n\n")]) := by
    decide +kernel
  obtain ⟨p, parsed, emitted⟩ := Program.exists_read_of_map shape
  refine ⟨p, parsed, ?_⟩
  cases outcome : Emission.emit { replace := [("x", "X")] } Emission.renderDump
      (Emission.route { replace := [("x", "X")] } p).1 with
  | error missing =>
      rw [outcome] at emitted
      cases emitted
  | ok units =>
      rw [outcome] at emitted
      exact congrArg Except.ok (Option.some.inj emitted)

end SyntaxGraph.CommandLine
