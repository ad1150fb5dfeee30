import SyntaxGraph.CommandLine.Run
import SyntaxGraph.Proofs.Program.Fresh

/-!
# Runs over several files

Without an output directory a run writes nothing: it only adds to what has been printed and
logged.  What it adds for a file depends on the settings and on that file alone, so the run
on some files and then others is the one run followed by the other.  A source that cannot be
parsed adds one line to the log, and nothing else stops a run whose files can be read.
-/

set_option autoImplicit false

namespace SyntaxGraph.CommandLine

open Emission (Config Units)

/-! ## Files one after the other -/

/-- A run goes on with further files as it ended with the first ones. -/
theorem runFiles_append {m : Type → Type} [Monad m] [LawfulMonad m] (host : Host m)
    (config : Option Config) (out : Option String) (files others : List String)
    {ending : Ending} (lasting : ending ≠ .fatal) :
    runFiles host config out ending (files ++ others) = (do
      match ← runFiles host config out ending files with
      | .fatal => return .fatal
      | ending => runFiles host config out ending others) := by
  induction files generalizing ending with
  | nil => cases ending <;> simp_all [runFiles]
  | cons path rest ih =>
      simp only [List.cons_append, runFiles, bind_assoc]
      refine bind_congr fun source => ?_
      cases source with
      | none => simp only [pure_bind]
      | some source =>
          cases outcome : Program.read path source with
          | error error => simp [ih, outcome]
          | ok program =>
              simp only [bind_assoc, outcome]
              refine bind_congr fun goes => ?_
              cases goes <;> simp [ih lasting]

/-! ## Output -/

/-- What is printed and logged. -/
structure Output where
  printed : String := ""
  logged : List (Level × String) := []

instance : Append Output where
  append first second := ⟨first.printed ++ second.printed, first.logged ++ second.logged⟩

def World.add (world : World) (output : Output) : World :=
  { world with
    printed := world.printed ++ output.printed
    logged := world.logged ++ output.logged }

theorem World.add_append (world : World) (first second : Output) :
    world.add (first ++ second) = (world.add first).add second := by
  change World.mk _ (_ ++ (_ ++ _)) (_ ++ (_ ++ _)) = _
  rw [← String.append_assoc, ← List.append_assoc]
  rfl

theorem World.add_empty (world : World) : world.add {} = world := by
  simp [add]

/-- With this disk the action answers the value, and only adds to what has been printed and
logged. -/
def Adds {α : Type} (disk : Disk) (action : StateM World α) (value : α) (output : Output) :
    Prop :=
  ∀ world : World, world.disk = disk → action.run world = (value, world.add output)

variable {α β : Type} {formats : Formats} {disk : Disk} {action : StateM World α} {value : α}
  {output : Output}

theorem Adds.bind {next : α → StateM World β} {last : β} {more : Output}
    (first : Adds disk action value output) (rest : Adds disk (next value) last more) :
    Adds disk (action >>= next) last (output ++ more) := by
  intro world same
  rw [StateT.run_bind, first world same, world.add_append]
  exact rest (world.add output) same

theorem Adds.pure (value : α) : Adds disk (pure value) value {} :=
  fun world _ => congrArg (Prod.mk value) world.add_empty.symm

/-- What comes in front of an action adds nothing. -/
theorem Adds.then {next : α → StateM World β} {last : β}
    (first : Adds disk action value {}) (rest : Adds disk (next value) last output) :
    Adds disk (action >>= next) last output := by
  intro world same
  rw [StateT.run_bind, first world same, world.add_empty]
  exact rest world same

/-- What comes behind an action adds nothing. -/
theorem Adds.done {next : α → StateM World β} {last : β}
    (first : Adds disk action value output) (rest : Adds disk (next value) last {}) :
    Adds disk (action >>= next) last output := by
  intro world same
  rw [StateT.run_bind, first world same]
  exact (rest (world.add output) same).trans (congrArg _ (world.add output).add_empty)

theorem adds_read (path : String) : Adds disk (formats.host.read path) (disk.read? path) {} := by
  rintro world rfl
  exact congrArg (Prod.mk _) world.add_empty.symm

theorem adds_print (text : String) :
    Adds disk (formats.host.print text) () { printed := text } := by
  intro world _
  change ((), { world with printed := world.printed ++ text }) = _
  simp [World.add]

theorem adds_report (level : Level) (text : String) :
    Adds disk (report formats.host level text) ()
      { logged := [(level, formats.line text)] } := by
  intro world _
  change ((), { world with logged := world.logged ++ [(level, formats.line text)] }) = _
  simp [World.add]

theorem printUnits_adds (units : Units) :
    ∃ output, Adds disk (printUnits formats.host units) () output := by
  induction units with
  | nil => exact ⟨{}, .pure ()⟩
  | cons unit rest ih =>
      obtain ⟨output, adds⟩ := ih
      exact ⟨_, (adds_print _).bind adds⟩

theorem logUnused_adds (file : String) (names : List String) :
    ∃ output, Adds disk (logUnused formats.host file names) () output := by
  induction names with
  | nil => exact ⟨{}, .pure ()⟩
  | cons name rest ih =>
      obtain ⟨output, adds⟩ := ih
      exact ⟨_, (adds_report _ _).bind adds⟩

/-! ## One file -/

variable {file source : String} {p : Program}

theorem emitProgram_adds (parsed : Program.read file source = .ok p) (settings : Config) :
    ∃ output, Adds disk (emitProgram formats.host settings none p) true output := by
  have same := (Emission.evolves_route settings p).unbound
  have routed := Emission.route_of_read settings parsed
  obtain ⟨⟨units, emitted⟩, names, unused⟩ := Emission.emits_of_read settings parsed same
  rw [emitProgram]
  cases outcome : Emission.route settings p with
  | mk bound error =>
      rw [outcome] at routed emitted unused same
      obtain rfl : error = none := routed
      simp only [emitted, unused]
      obtain ⟨_, warns⟩ := logUnused_adds bound.file names
      obtain ⟨_, prints⟩ := printUnits_adds units
      exact ⟨_, warns.bind (prints.done (.pure true))⟩

theorem dumpProgram_adds (parsed : Program.read file source = .ok p) :
    ∃ output, Adds disk (dumpProgram formats.host p) true output := by
  obtain ⟨text, dumped⟩ : ∃ text, p.dumpFrom .program = .ok text :=
    (Program.closed_of_read parsed).dumpFrom rfl
  rw [dumpProgram, Program.dump, dumped]
  exact ⟨_, (adds_print text).done (.pure true)⟩

theorem processProgram_adds (parsed : Program.read file source = .ok p)
    (config : Option Config) :
    ∃ output, Adds disk (processProgram formats.host config none p) true output := by
  cases config with
  | none => exact dumpProgram_adds parsed
  | some settings => exact emitProgram_adds parsed settings

/-! ## All files -/

/-- The source file at a path can be parsed. -/
def Parses (disk : Disk) (path : String) : Prop :=
  ∃ source p, disk.read? path = some source ∧ Program.read path source = .ok p

/-- The files are processed and the run goes on; in the end it fails if one of them could not
be parsed. -/
def Processes (formats : Formats) (disk : Disk) (config : Option Config) (files : List String)
    (failed : Bool) (output : Output) : Prop :=
  ∀ ending, ending ≠ .fatal → Adds disk (runFiles formats.host config none ending files)
    (if failed then .failure else ending) output

variable {config : Option Config} {files others : List String} {failed : Bool} {more : Output}

theorem Processes.append {either : Bool} (first : Processes formats disk config files failed output)
    (second : Processes formats disk config others either more) :
    Processes formats disk config (files ++ others) (failed || either) (output ++ more) := by
  intro ending lasting
  rw [runFiles_append formats.host config none files others lasting]
  refine (first ending lasting).bind ?_
  cases failed with
  | true => simpa using second .failure (by simp)
  | false => cases ending <;> first | exact absurd rfl lasting | exact second _ lasting

theorem processes_refused {path : String} {error : ParseError}
    (found : disk.read? path = some source) (refused : Program.read path source = .error error) :
    Processes formats disk config [path] true
      { logged := [(.error, formats.line error.message)] } := by
  intro ending _
  refine (adds_read path).then ?_
  simp only [found, refused]
  exact (adds_report .error error.message).done (.pure Ending.failure)

theorem processes_parsed {path : String} (found : disk.read? path = some source)
    (parsed : Program.read path source = .ok p) :
    ∃ output, Processes formats disk config [path] false output := by
  obtain ⟨output, adds⟩ : ∃ output,
      Adds disk (processProgram formats.host config none p) true output :=
    processProgram_adds parsed config
  refine ⟨output, fun ending _ => (adds_read path).then ?_⟩
  simp only [found, parsed]
  exact adds.done (.pure ending)

/-- Files that can be read are processed, whether or not they can be parsed. -/
theorem processes_readable (config : Option Config)
    (readable : ∀ path ∈ files, (disk.read? path).isSome = true) :
    ∃ failed output, Processes formats disk config files failed output ∧
      (failed = true ↔ ∃ path ∈ files, ¬ Parses disk path) := by
  induction files with
  | nil => exact ⟨false, {}, fun ending _ => .pure ending, by simp⟩
  | cons path rest ih =>
      obtain ⟨failed, more, processes, some⟩ := ih (List.forall_mem_of_forall_mem_cons readable)
      obtain ⟨source, found⟩ := Option.isSome_iff_exists.mp (readable path List.mem_cons_self)
      cases outcome : Program.read path source with
      | ok p =>
          obtain ⟨output, one⟩ := processes_parsed found outcome
          refine ⟨_, _, one.append processes, ?_⟩
          have parses : Parses disk path := ⟨source, p, found, outcome⟩
          simp [some, parses]
      | error error =>
          refine ⟨_, _, (processes_refused found outcome).append processes, ?_⟩
          have refused : ¬ Parses disk path := by
            rintro ⟨_, p, same, parsed⟩
            cases found.symm.trans same
            cases outcome.symm.trans parsed
          simp [refused]

/-! ## Whole runs -/

/-- What a run without an output directory comes to. -/
def outcome (formats : Formats) (disk : Disk) (config : Option String) (files : List String) :
    Ending × World :=
  (run formats.host { files, config }).run { disk }

/-- The file with the settings, if there is to be one, can be read and holds settings. -/
def Loads (formats : Formats) (disk : Disk) (config : Option String) : Prop :=
  ∀ path, config = some path → ∃ text settings,
    disk.read? path = some text ∧ formats.settings text = some settings

theorem loadConfig_adds {path text : String} {settings : Config}
    (found : disk.read? path = some text) (loaded : formats.settings text = some settings) :
    Adds disk (loadConfig formats.host path) (.ok settings) {} := by
  have means : formats.host.settings text = some settings := loaded
  refine (adds_read path).then ?_
  simp only [found, means]
  exact .pure _

/-- The settings are the same for all files. -/
theorem outcome_of_processes {config : Option String} (loads : Loads formats disk config) :
    ∃ settings, ∀ files failed output, Processes formats disk settings files failed output →
      outcome formats disk config files =
        (if failed then .failure else .success, ⟨disk, output.printed, output.logged⟩) := by
  have start (output : Output) : World.add { disk } output =
      ⟨disk, output.printed, output.logged⟩ := by
    simp [World.add]
  cases config with
  | none =>
      refine ⟨none, fun files failed output processes => ?_⟩
      rw [← start]
      exact processes .success (by simp) { disk } rfl
  | some path =>
      obtain ⟨text, settings, found, loaded⟩ := loads path rfl
      refine ⟨some settings, fun files failed output processes => ?_⟩
      rw [← start]
      exact (loadConfig_adds found loaded).then (processes .success (by simp)) { disk } rfl

theorem outcome_append {config : Option String} {files others : List String}
    (loads : Loads formats disk config)
    (readable : ∀ path ∈ files, (disk.read? path).isSome = true)
    (readables : ∀ path ∈ others, (disk.read? path).isSome = true) :
    (outcome formats disk config (files ++ others)).2 =
      ⟨disk, (outcome formats disk config files).2.printed ++
          (outcome formats disk config others).2.printed,
        (outcome formats disk config files).2.logged ++
          (outcome formats disk config others).2.logged⟩ := by
  obtain ⟨settings, equal⟩ := outcome_of_processes loads
  obtain ⟨failed, output, first, -⟩ := processes_readable settings readable
  obtain ⟨either, more, second, -⟩ := processes_readable settings readables
  rw [equal _ _ _ (first.append second), equal _ _ _ first, equal _ _ _ second]
  rfl

theorem outcome_ending {config : Option String} {files : List String}
    (loads : Loads formats disk config)
    (readable : ∀ path ∈ files, (disk.read? path).isSome = true) :
    (outcome formats disk config files).1 = .success ∧ (∀ path ∈ files, Parses disk path) ∨
      (outcome formats disk config files).1 = .failure ∧ ∃ path ∈ files, ¬ Parses disk path := by
  obtain ⟨settings, equal⟩ := outcome_of_processes loads
  obtain ⟨failed, output, processes, fails⟩ := processes_readable settings readable
  rw [equal _ _ _ processes]
  cases failed with
  | true => exact .inr ⟨rfl, fails.mp rfl⟩
  | false =>
      refine .inl ⟨rfl, fun path member => ?_⟩
      by_contra refused
      cases fails.mpr ⟨path, member, refused⟩

theorem outcome_refused {config : Option String} {path : String} (loads : Loads formats disk config)
    (readable : (disk.read? path).isSome = true) (refused : ¬ Parses disk path) :
    ∃ source error, disk.read? path = some source ∧ Program.read path source = .error error ∧
      outcome formats disk config [path] =
        (.failure, ⟨disk, "", [(.error, formats.line error.message)]⟩) := by
  obtain ⟨settings, equal⟩ := outcome_of_processes loads
  obtain ⟨source, found⟩ := Option.isSome_iff_exists.mp readable
  cases reading : Program.read path source with
  | ok p => exact absurd ⟨source, p, found, reading⟩ refused
  | error error =>
      exact ⟨source, error, found, reading, equal _ _ _ (processes_refused found reading)⟩

/-- A run on files that can be read is the run on the first ones followed by the run on the
others.  It fails exactly if one of them cannot be parsed, which is then logged in one line and
changes nothing else, and no program that is read in it is refused by routing. -/
theorem run_over_files {config : Option String} {files others : List String}
    (loads : Loads formats disk config)
    (readable : ∀ path ∈ files ++ others, (disk.read? path).isSome = true) :
    let first := outcome formats disk config files
    let second := outcome formats disk config others
    let both := outcome formats disk config (files ++ others)
    both.2 = ⟨disk, first.2.printed ++ second.2.printed, first.2.logged ++ second.2.logged⟩ ∧
      (both.1.exitCode = 0 ↔ ∀ path ∈ files ++ others, Parses disk path) ∧
      (both.1.exitCode = 1 ↔ ∃ path ∈ files ++ others, ¬ Parses disk path) ∧
      (∀ front bad back, files ++ others = front ++ bad :: back → ¬ Parses disk bad →
        ∃ source error, disk.read? bad = some source ∧ Program.read bad source = .error error ∧
          outcome formats disk config [bad] =
            (.failure, ⟨disk, "", [(.error, formats.line error.message)]⟩) ∧
          both.2.printed = (outcome formats disk config (front ++ back)).2.printed ∧
          (outcome formats disk config (front ++ back)).2.logged =
            (outcome formats disk config front).2.logged ++
              (outcome formats disk config back).2.logged ∧
          both.2.logged = (outcome formats disk config front).2.logged ++
            (.error, formats.line error.message) :: (outcome formats disk config back).2.logged) ∧
      ∀ path ∈ files ++ others, ∀ source p, disk.read? path = some source →
        Program.read path source = .ok p →
          p.decls.Nodup ∧ (∀ id ∈ p.decls, ∃ decl, p.decl? id = some decl ∧ decl.group = none) ∧
            ∀ settings, (Emission.route settings p).2 = none := by
  obtain ⟨early, late⟩ := List.forall_mem_append.mp readable
  refine ⟨outcome_append loads early late, ?succeeds, ?fails, ?refused, ?routed⟩
  case succeeds =>
    rcases outcome_ending loads readable with ⟨ended, parse⟩ | ⟨ended, path, member, refused⟩
    · simpa [ended, Ending.exitCode] using parse
    · simp only [ended, Ending.exitCode]
      exact iff_of_false (by decide) fun parse => refused (parse path member)
  case fails =>
    rcases outcome_ending loads readable with ⟨ended, parse⟩ | ⟨ended, refused⟩
    · simp only [ended, Ending.exitCode]
      exact iff_of_false (by decide) fun ⟨path, member, refused⟩ => refused (parse path member)
    · simpa [ended, Ending.exitCode] using refused
  case refused =>
    intro front bad back split refused
    rw [split] at readable ⊢
    obtain ⟨before, readable⟩ := List.forall_mem_append.mp readable
    obtain ⟨here, behind⟩ := List.forall_mem_cons.mp readable
    obtain ⟨source, error, found, failed, alone⟩ := outcome_refused loads here refused
    have without := outcome_append loads before behind
    have whole := outcome_append loads before readable
    have one : ∀ path ∈ [bad], (disk.read? path).isSome = true := by simpa using here
    have tail := outcome_append loads one behind
    rw [List.singleton_append, alone] at tail
    rw [tail] at whole
    refine ⟨source, error, found, failed, alone, ?_, ?_, ?_⟩
    · simp [whole, without]
    · simp [without]
    · simp [whole]
  case routed =>
    exact fun path member source p found parsed => ⟨Program.nodup_of_read parsed,
      fun id listed => Program.ungrouped_of_read parsed listed,
      fun settings => Emission.route_of_read settings parsed⟩

/-- Between two others a source that cannot be parsed. -/
def mixedDisk : Disk := .ofFiles
  [("a.c", "int x; // one"), ("sub/b.c", "int x = ;"), ("c.c", "char x;"),
    ("c.toml", "[groups]\nx = 'data'\n[replace]\nx = 'X'\n")]

theorem run_over_files_mixedDisk :
    Loads .standard mixedDisk (some "c.toml") ∧
      (∀ path ∈ ["a.c", "sub/b.c"] ++ ["c.c"], (mixedDisk.read? path).isSome = true) ∧
      (outcome .standard mixedDisk (some "c.toml") (["a.c", "sub/b.c"] ++ ["c.c"])).1.exitCode = 1 ∧
      (outcome .standard mixedDisk (some "c.toml") (["a.c", "sub/b.c"] ++ ["c.c"])).2.printed =
        "== data/a ==\nX // one\n\n== data/c ==\nX\n\n" ∧
      ∃ text,
        (outcome .standard mixedDisk (some "c.toml") (["a.c", "sub/b.c"] ++ ["c.c"])).2.logged =
          [(.error, text)] := by
  have loads : Loads .standard mixedDisk (some "c.toml") := by
    rintro path ⟨⟩
    exact ⟨"[groups]\nx = 'data'\n[replace]\nx = 'X'\n",
      { groups := [("x", "data")], replace := [("x", "X")] }, by decide +kernel,
      by decide +kernel⟩
  have readable : ∀ path ∈ ["a.c", "sub/b.c"] ++ ["c.c"],
      (mixedDisk.read? path).isSome = true := by
    decide +kernel
  have refused : ¬ Parses mixedDisk "sub/b.c" := by
    rintro ⟨source, p, found, parsed⟩
    have held : mixedDisk.read? "sub/b.c" = some "int x = ;" := by decide +kernel
    obtain rfl := Option.some.inj (held.symm.trans found)
    have failed : (Program.read "sub/b.c" "int x = ;").toOption.isNone = true := by decide +kernel
    rw [parsed] at failed
    cases failed
  obtain ⟨-, -, fails, lost, -⟩ := run_over_files loads readable
  obtain ⟨_, error, -, -, -, printed, -, logged⟩ :=
    lost ["a.c"] "sub/b.c" ["c.c"] rfl refused
  refine ⟨loads, readable, fails.mpr ⟨"sub/b.c", by decide, refused⟩, ?_,
    Formats.standard.line error.message, ?_⟩
  · rw [printed]
    decide +kernel
  · have front : (outcome .standard mixedDisk (some "c.toml") ["a.c"]).2.logged = [] := by
      decide +kernel
    have back : (outcome .standard mixedDisk (some "c.toml") ["c.c"]).2.logged = [] := by
      decide +kernel
    rw [logged, front, back]
    rfl

end SyntaxGraph.CommandLine
