/-
# `Proofs.Batch.Isolation` — the files of a run do not disturb each other

Each file is read from the directory as the files before it left it.  A file
that is processed is at most rewritten itself (`process_snd_cases`), and paths
keep leading where they led.  So as long as the paths of a run lead to different
files, each of them is found as it was at the start: `Progress` carries this
from file to file, and `Isolated` says what follows for the whole run.

The counts hold for every list of paths, also for one with repetitions.
-/
import JestMigration.Batch
import JestMigration.Proofs.Directory.Writing
import JestMigration.Proofs.Syntax.Nesting

namespace JestMigration

/-! ## Counting -/

/-- The summary counts the files of the report. -/
structure Report.Tallied (report : Report) : Prop where
  scanned : report.summary.scanned = report.files.length
  changed : report.summary.changed = report.files.countP FileReport.changed
  failed : report.summary.failed = report.files.countP fun file => file.failure?.isSome
  warnings : report.summary.warnings = (report.files.map fun file => file.warnings.length).sum

theorem Report.Tallied.empty : Report.Tallied {} :=
  ⟨rfl, rfl, rfl, rfl⟩

theorem Report.Tallied.add {report : Report} (h : report.Tallied) (file : FileReport) :
    (report.add file).Tallied where
  scanned := by simp [Report.add, Summary.count, h.scanned]
  changed := by
    simp only [Report.add, Summary.count, h.changed, List.countP_append, List.countP_singleton]
    split <;> rfl
  failed := by
    simp only [Report.add, Summary.count, h.failed, List.countP_append, List.countP_singleton]
    split <;> rfl
  warnings := by simp [Report.add, Summary.count, h.warnings]

/-- The files of a report decide on its summary. -/
theorem Report.Tallied.eq {a b : Report} (ha : a.Tallied) (hb : b.Tallied)
    (h : a.files = b.files) : a = b := by
  obtain ⟨files, scanned, changed, failed, warnings⟩ := a
  obtain ⟨files', scanned', changed', failed', warnings'⟩ := b
  cases h
  cases ha.scanned.trans hb.scanned.symm
  cases ha.changed.trans hb.changed.symm
  cases ha.failed.trans hb.failed.symm
  cases ha.warnings.trans hb.warnings.symm
  rfl

/-- The paths lead to no common file. -/
def Directory.Distinct (directory : Directory) (a b : String) : Prop :=
  ∀ location, directory.locate a = .ok (some location) →
    directory.locate b ≠ .ok (some location)

namespace Batch

variable {parser : Parser} {invocation : Invocation} {options : Options}
  {directory initial current : Directory} {path output : String} {paths done : List String}
  {location : Location} {report : Report} {result : Migrated}

/-! ## One file -/

/-- The report on a file, given what its migration came to. -/
def outcome (invocation : Invocation) (path : String) : Except Failure Migrated → FileReport
  | .error failure => .ofFailure path failure
  | .ok migrated => .ofMigrated invocation path migrated

theorem process_fst : (process parser invocation options directory path).1 =
    outcome invocation path (migrated parser options directory path) := by
  unfold process
  cases migrated parser options directory path <;> rfl

theorem file_process : (process parser invocation options directory path).1.file = path := by
  rw [process_fst]
  cases migrated parser options directory path <;> rfl

/-- What is migrated is the text of a file. -/
theorem exists_of_migrated (h : migrated parser options directory path = .ok result) :
    ∃ location text, directory.locate path = .ok (some location) ∧
      directory.entry? location = some (.text text) ∧
      migrateFile parser path text options = .ok result := by
  simp only [migrated, read] at h
  cases hread : directory.read path with
  | error obstacle => simp [hread] at h
  | ok text =>
      obtain ⟨location, hlocate, hentry⟩ := Directory.read_eq_ok_iff.mp hread
      rw [hread] at h
      exact ⟨location, text, hlocate, hentry, h⟩

/-- Processing the file at `path` puts `output` at `location`. -/
structure Rewrites (parser : Parser) (invocation : Invocation) (options : Options)
    (directory : Directory) (path : String) (location : Location) (output : String) : Prop where
  located : directory.locate path = .ok (some location)
  live : invocation.dryRun = false
  result : ∃ result, migrated parser options directory path = .ok result ∧
    result.changed = true ∧ result.output = output

/-- Processing a file rewrites it, or leaves the directory as it is. -/
theorem process_snd_cases (parser : Parser) (invocation : Invocation) (options : Options)
    (directory : Directory) (path : String) :
    (∃ location content output, Rewrites parser invocation options directory path location output ∧
      directory.entry? location = some (.text content) ∧
      (process parser invocation options directory path).2 = directory.put location output) ∨
    (∀ location output, ¬ Rewrites parser invocation options directory path location output) ∧
      (process parser invocation options directory path).2 = directory := by
  unfold process
  cases hmigrated : migrated parser options directory path with
  | error failure =>
      refine .inr ⟨?_, rfl⟩
      rintro location output ⟨_, _, result, hresult, _⟩
      simp [hmigrated] at hresult
  | ok result =>
      by_cases hwrite : (result.changed && !invocation.dryRun) = true
      · obtain ⟨location, content, hlocate, hentry, _⟩ := exists_of_migrated hmigrated
        obtain ⟨hchanged, hlive⟩ : result.changed = true ∧ invocation.dryRun = false := by
          simpa using hwrite
        refine .inl ⟨location, content, result.output,
          ⟨hlocate, hlive, result, hmigrated, hchanged, rfl⟩, hentry, ?_⟩
        simp only [hwrite, if_true, Directory.write, hlocate]
      · refine .inr ⟨?_, by simp only [hwrite, Bool.false_eq_true, if_false]⟩
        rintro location output ⟨_, hlive, other, hother, hchanged, _⟩
        rw [hmigrated] at hother
        cases hother
        exact hwrite (by simp [hchanged, hlive])

theorem Rewrites.eq {location' : Location} {output' : String}
    (h : Rewrites parser invocation options directory path location output)
    (h' : Rewrites parser invocation options directory path location' output') :
    location = location' ∧ output = output' := by
  obtain ⟨hlocate, _, result, hresult, _, rfl⟩ := h
  obtain ⟨hlocate', _, result', hresult', _, rfl⟩ := h'
  rw [hlocate] at hlocate'
  rw [hresult] at hresult'
  cases hlocate'
  cases hresult'
  exact ⟨rfl, rfl⟩

theorem alike_process :
    Directory.Alike (process parser invocation options directory path).2 directory := by
  rcases process_snd_cases parser invocation options directory path with
    ⟨location, content, output, _, hentry, hput⟩ | ⟨_, hsame⟩
  · rw [hput]
    exact Directory.alike_put hentry output
  · rw [hsame]
    exact .refl directory

theorem entry?_process_of_rewrites
    (h : Rewrites parser invocation options directory path location output) :
    Directory.entry? (process parser invocation options directory path).2 location =
      some (.text output) := by
  rcases process_snd_cases parser invocation options directory path with
    ⟨found, content, text, hrewrites, hentry, hput⟩ | ⟨hnone, _⟩
  · obtain ⟨rfl, rfl⟩ := h.eq hrewrites
    rw [hput, Directory.entry?_put hentry, if_pos rfl]
  · exact absurd h (hnone location output)

theorem entry?_process_of_not_rewrites
    (h : ∀ output, ¬ Rewrites parser invocation options directory path location output) :
    Directory.entry? (process parser invocation options directory path).2 location =
      directory.entry? location := by
  rcases process_snd_cases parser invocation options directory path with
    ⟨found, content, text, hrewrites, hentry, hput⟩ | ⟨_, hsame⟩
  · rw [hput, Directory.entry?_put hentry, if_neg]
    rintro rfl
    exact h text hrewrites
  · rw [hsame]

/-! ## One file after others -/

/-- What the directory is like when some files of it have been processed: each of them holds what
it was rewritten to, and all else is as it was. -/
structure Progress (parser : Parser) (invocation : Invocation) (options : Options)
    (initial : Directory) (done : List String) (current : Directory) : Prop where
  alike : Directory.Alike current initial
  written : ∀ path ∈ done, ∀ location output,
    Rewrites parser invocation options initial path location output →
    current.entry? location = some (.text output)
  kept : ∀ location,
    (∀ path ∈ done, ∀ output,
      ¬ Rewrites parser invocation options initial path location output) →
    current.entry? location = initial.entry? location

theorem Progress.start (parser : Parser) (invocation : Invocation) (options : Options)
    (initial : Directory) : Progress parser invocation options initial [] initial where
  alike := .refl initial
  written := fun _ h => absurd h List.not_mem_nil
  kept := fun _ _ => rfl

/-- A file that none of the others is gets the same result as at the start. -/
theorem Progress.migrated_eq (h : Progress parser invocation options initial done current)
    (hdistinct : ∀ earlier ∈ done, initial.Distinct earlier path) :
    migrated parser options current path = migrated parser options initial path := by
  have hread : current.read path = initial.read path := by
    refine h.alike.read ?_
    intro location hlocate
    refine h.kept location ?_
    intro earlier hearlier output hrewrites
    exact hdistinct earlier hearlier location hrewrites.located hlocate
  simp only [migrated, read, hread]

theorem Progress.step (h : Progress parser invocation options initial done current)
    (hdistinct : ∀ earlier ∈ done, initial.Distinct earlier path) :
    (process parser invocation options current path).1 =
        (process parser invocation options initial path).1 ∧
      Progress parser invocation options initial (done ++ [path])
        (process parser invocation options current path).2 := by
  have hmigrated := h.migrated_eq hdistinct
  have hrewrites : ∀ location output,
      Rewrites parser invocation options current path location output ↔
        Rewrites parser invocation options initial path location output := by
    intro location output
    constructor
    · rintro ⟨hlocate, hlive, hresult⟩
      exact ⟨h.alike.locate path ▸ hlocate, hlive, hmigrated ▸ hresult⟩
    · rintro ⟨hlocate, hlive, hresult⟩
      exact ⟨(h.alike.locate path).trans hlocate, hlive, hmigrated.symm ▸ hresult⟩
  refine ⟨by rw [process_fst, process_fst, hmigrated], alike_process.trans h.alike, ?_, ?_⟩
  · intro other hother location output hother'
    rcases List.mem_append.mp hother with hdone | hlast
    · -- The file at `path` is another one, so this one stays.
      rw [entry?_process_of_not_rewrites, h.written other hdone location output hother']
      intro text htext
      exact hdistinct other hdone location hother'.located ((hrewrites _ _).mp htext).located
    · rw [List.mem_singleton.mp hlast] at hother'
      exact entry?_process_of_rewrites ((hrewrites _ _).mpr hother')
  · intro location hnone
    rw [entry?_process_of_not_rewrites, h.kept]
    · intro other hother
      exact hnone other (List.mem_append_left _ hother)
    · intro output htext
      exact hnone path (by simp) output ((hrewrites _ _).mp htext)

theorem Progress.exists_rewrites (h : Progress parser invocation options initial done current)
    (hne : current.entry? location ≠ initial.entry? location) :
    ∃ path ∈ done, ∃ output, Rewrites parser invocation options initial path location output := by
  by_contra hnone
  refine hne (h.kept location ?_)
  intro path hpath output hrewrites
  exact hnone ⟨path, hpath, output, hrewrites⟩

/-- A file that fails is kept, since no other path leads to it. -/
theorem Progress.entry?_of_failure (h : Progress parser invocation options initial done current)
    (hdistinct : done.Pairwise initial.Distinct) (hpath : path ∈ done) {failure : Failure}
    (hfailure : migrated parser options initial path = .error failure)
    (hlocate : initial.locate path = .ok (some location)) :
    current.entry? location = initial.entry? location := by
  refine h.kept location ?_
  intro other hother output hrewrites
  by_cases hsame : other = path
  · obtain ⟨_, _, result, hresult, _⟩ := hrewrites
    rw [hsame, hfailure] at hresult
    cases hresult
  · rcases Node.or_of_pairwise hdistinct hother hpath hsame with hlt | hgt
    · exact hlt location hrewrites.located hlocate
    · exact hgt location hlocate hrewrites.located

/-! ## All files -/

theorem Progress.steps (h : Progress parser invocation options initial done current)
    (hpairs : (done ++ paths).Pairwise initial.Distinct) (report : Report) :
    (processAll parser invocation options report current paths).1.files = report.files ++
        paths.map (fun path => (process parser invocation options initial path).1) ∧
      Progress parser invocation options initial (done ++ paths)
        (processAll parser invocation options report current paths).2 := by
  induction paths generalizing done current report with
  | nil => simpa [processAll] using h
  | cons path rest ih =>
      have hdistinct : ∀ earlier ∈ done, initial.Distinct earlier path := by
        intro earlier hearlier
        exact (List.pairwise_append.mp hpairs).2.2 earlier hearlier path List.mem_cons_self
      obtain ⟨hreport, hnext⟩ := h.step hdistinct
      obtain ⟨hfiles, hlast⟩ := ih hnext (by simpa using hpairs)
        (report.add (process parser invocation options current path).1)
      refine ⟨?_, by simpa [processAll] using hlast⟩
      rw [processAll, hfiles, hreport]
      simp [Report.add]

/-- Files that are different are reported as they are found at the start. -/
theorem files_of_distinct (hdistinct : paths.Pairwise initial.Distinct) :
    (processAll parser invocation options {} initial paths).1.files =
      paths.map fun path => outcome invocation path (migrated parser options initial path) := by
  rw [((Progress.start parser invocation options initial).steps hdistinct {}).1]
  simp only [process_fst]
  rfl

theorem tallied_processAll (h : report.Tallied) (directory : Directory) (paths : List String) :
    (processAll parser invocation options report directory paths).1.Tallied := by
  induction paths generalizing report directory with
  | nil => exact h
  | cons path rest ih => exact ih (h.add _) _

theorem files_processAll (report : Report) (directory : Directory) (paths : List String) :
    (processAll parser invocation options report directory paths).1.files.map FileReport.file =
      report.files.map FileReport.file ++ paths := by
  induction paths generalizing report directory with
  | nil => simp [processAll]
  | cons path rest ih => simp [processAll, ih, Report.add, file_process]

theorem run_eq (hoptions : Batch.options directory invocation = .ok options) :
    run parser invocation directory =
      (.ok (processAll parser invocation options {} directory invocation.files).1,
        (processAll parser invocation options {} directory invocation.files).2) := by
  rw [run, hoptions]

/-- A file that cannot be read, that no grammar reads, or that does not follow its grammar. -/
inductive Unusable (parser : Parser) (directory : Directory) (path : String) : Prop
  | unreadable {obstacle : Obstacle} : directory.read path = .error obstacle →
      Unusable parser directory path
  | unsupported {failure : Failure} : Grammar.ofPath path = .error failure →
      Unusable parser directory path
  | unparsable {text : String} {grammar : Grammar} : directory.read path = .ok text →
      Grammar.ofPath path = .ok grammar → parser grammar text = none →
      Unusable parser directory path

theorem Unusable.exists_failure (h : Unusable parser directory path) (options : Options) :
    ∃ failure, migrated parser options directory path = .error failure := by
  cases h with
  | unreadable hread => exact ⟨_, by rw [migrated, read, hread]⟩
  | @unsupported failure hpath =>
      cases hread : directory.read path with
      | error obstacle => exact ⟨_, by rw [migrated, read, hread]⟩
      | ok text =>
          refine ⟨failure, ?_⟩
          simp only [migrated, read, hread, migrateFile, Parser.parse, hpath]
  | @unparsable text grammar hread hpath htree =>
      refine ⟨grammar.syntaxErrors, ?_⟩
      simp only [migrated, read, hread, migrateFile, Parser.parse, hpath, htree]

/-- The files of a run are processed as if each were the only one.  A file and the report on it have
the same index. -/
structure Isolated (parser : Parser) (invocation : Invocation) (options : Options)
    (initial : Directory) (report : Report) (final : Directory) : Prop where
  /-- A run over the one file, from the same directory, reports the same of it. -/
  alone : ∀ (i : Nat) path file, invocation.files[i]? = some path → report.files[i]? = some file →
    ∃ summary left, run parser { invocation with files := [path] } initial =
      (.ok ⟨[file], summary⟩, left)
  /-- Only files that are reported as changed are, and none in a dry run. -/
  untouched : ∀ location, final.entry? location ≠ initial.entry? location →
    ∃ (i : Nat) (path : String) (file : FileReport),
      invocation.files[i]? = some path ∧ report.files[i]? = some file ∧
      initial.locate path = .ok (some location) ∧
      file.changed = true ∧ file.failure? = none ∧ invocation.dryRun = false
  /-- They hold what the migration of their text gives. -/
  written : ∀ (i : Nat) path file, invocation.files[i]? = some path → report.files[i]? = some file →
    file.changed = true → invocation.dryRun = false →
    ∃ location text migrated, initial.locate path = .ok (some location) ∧
      initial.entry? location = some (.text text) ∧
      migrateFile parser path text options = .ok migrated ∧
      final.entry? location = some (.text migrated.output)
  /-- A file of which nothing can be made is reported with a failure and kept. -/
  unusable : ∀ (i : Nat) path file, invocation.files[i]? = some path →
    report.files[i]? = some file → Unusable parser initial path →
    file.changed = false ∧ file.warnings = [] ∧ file.output? = none ∧
      file.failure?.isSome = true ∧
      ∀ location, initial.locate path = .ok (some location) →
        final.entry? location = initial.entry? location
  /-- A dry run reports the same. -/
  dry : ∀ dryRun, (run parser { invocation with dryRun } initial).1 = .ok report

theorem isolated_run (hoptions : Batch.options initial invocation = .ok options)
    (hdistinct : invocation.files.Pairwise initial.Distinct) :
    Isolated parser invocation options initial
      (processAll parser invocation options {} initial invocation.files).1
      (processAll parser invocation options {} initial invocation.files).2 := by
  have hprogress := ((Progress.start parser invocation options initial).steps hdistinct {}).2
  rw [List.nil_append] at hprogress
  have hfiles : (processAll parser invocation options {} initial invocation.files).1.files = _ :=
    files_of_distinct hdistinct
  have hfile : ∀ {i : Nat} {path : String} {file : FileReport}, invocation.files[i]? = some path →
      (processAll parser invocation options {} initial invocation.files).1.files[i]? = some file →
      file = outcome invocation path (migrated parser options initial path) := by
    intro i path file hpath hfile
    rw [hfiles, List.getElem?_map, hpath] at hfile
    exact (Option.some.inj hfile).symm
  refine ⟨?alone, ?untouched, ?written, ?unusable, ?dry⟩
  case alone =>
    intro i path file hpath hreport
    have hsingle : Batch.options initial { invocation with files := [path] } = .ok options :=
      hoptions
    have hsame : (processAll parser { invocation with files := [path] } options {} initial
        [path]).1.files = [file] := by
      rw [files_of_distinct (List.pairwise_singleton _ path), hfile hpath hreport]
      rfl
    rw [run_eq hsingle, ← hsame]
    exact ⟨_, _, rfl⟩
  case untouched =>
    intro location hne
    obtain ⟨path, hpath, output, hlocate, hlive, result, hresult, hchanged, _⟩ :=
      hprogress.exists_rewrites hne
    obtain ⟨i, hi⟩ := List.mem_iff_getElem?.mp hpath
    refine ⟨i, path, outcome invocation path (.ok result), hi, ?_, hlocate, hchanged, rfl, hlive⟩
    rw [hfiles, List.getElem?_map, hi, Option.map_some, hresult]
  case written =>
    intro i path file hpath hreport hchanged hlive
    rw [hfile hpath hreport] at hchanged
    cases hresult : migrated parser options initial path with
    | error failure =>
        rw [hresult] at hchanged
        cases hchanged
    | ok result =>
        rw [hresult] at hchanged
        obtain ⟨location, text, hlocate, hentry, hmigrate⟩ := exists_of_migrated hresult
        refine ⟨location, text, result, hlocate, hentry, hmigrate, ?_⟩
        exact hprogress.written path (List.mem_of_getElem? hpath) location result.output
          ⟨hlocate, hlive, result, hresult, hchanged, rfl⟩
  case unusable =>
    intro i path file hpath hreport hunusable
    obtain ⟨failure, hfailure⟩ := hunusable.exists_failure options
    rw [hfile hpath hreport, hfailure]
    refine ⟨rfl, rfl, rfl, rfl, ?_⟩
    intro location hlocate
    exact hprogress.entry?_of_failure hdistinct (List.mem_of_getElem? hpath) hfailure hlocate
  case dry =>
    intro dryRun
    have hother : Batch.options initial { invocation with dryRun } = .ok options := hoptions
    rw [run_eq hother]
    refine congrArg Except.ok (Report.Tallied.eq ?_ ?_ ?_)
    · exact tallied_processAll .empty _ _
    · exact tallied_processAll .empty _ _
    · rw [hfiles, files_of_distinct hdistinct]
      rfl

/-- A run with valid options reports on every path, in order, and counts right.  If the paths lead
to different files, none of them is disturbed by the others. -/
theorem run_isolates (parser : Parser) (invocation : Invocation) (options : Options)
    (directory : Directory) (hoptions : Batch.options directory invocation = .ok options) :
    ∃ report final, run parser invocation directory = (.ok report, final) ∧
      report.files.map FileReport.file = invocation.files ∧ report.Tallied ∧
      (invocation.files.Pairwise directory.Distinct →
        Isolated parser invocation options directory report final) :=
  ⟨_, _, run_eq hoptions, files_processAll {} directory invocation.files,
    tallied_processAll .empty directory invocation.files, isolated_run hoptions⟩

end Batch

namespace Mixed

/-- A file that can be migrated. -/
def text : String := "import 'ava';\n"

/-- The tree of the file. -/
def tree : Tree :=
  Sample.node .program 0 14 none
    [ Sample.node .importStatement 0 13 none
        [ Sample.token "import" 0 6, Sample.quoted 7 12 (some .source), Sample.token ";" 12 13 ] ]

/-- A parser that knows only the one text. -/
def parser : Parser :=
  fun grammar given => if grammar = .javascript ∧ given = text then some tree else none

/-- A directory with the file, and with another one that cannot be parsed. -/
def directory : Directory :=
  ⟨[(["good.js"], .text text), (["broken.js"], .text "import (")]⟩

/-- A run over both, and over a file that is not there. -/
def invocation : Invocation where
  files := ["broken.js", "gone.js", "good.js"]

end Mixed

namespace Batch

/-- The broken file and the one that is not there fail, and the file after them is migrated. -/
theorem run_isolates_mixed :
    Batch.options Mixed.directory Mixed.invocation = .ok {} ∧
    Mixed.invocation.files.Pairwise Mixed.directory.Distinct ∧
    ∃ report final, run Mixed.parser Mixed.invocation Mixed.directory = (.ok report, final) ∧
      report.files.map FileReport.changed = [false, false, true] ∧
      report.summary.scanned = 3 ∧ report.summary.changed = 1 ∧
      final.entry? ["good.js"] = some (.text "") ∧
      final.entry? ["broken.js"] = some (.text "import (") := by
  have hoptions : Batch.options Mixed.directory Mixed.invocation = .ok {} := rfl
  have hbroken : Mixed.directory.locate "broken.js" = .ok (some ["broken.js"]) := by decide +kernel
  have hgone : Mixed.directory.locate "gone.js" = .error .missing := by decide +kernel
  have hgood : Mixed.directory.locate "good.js" = .ok (some ["good.js"]) := by decide +kernel
  have hdistinct : Mixed.invocation.files.Pairwise Mixed.directory.Distinct := by
    simp [Mixed.invocation, Directory.Distinct, hbroken, hgone, hgood]
  have hmigrate : migrateFile Mixed.parser "good.js" Mixed.text {} = .ok ⟨"", true, []⟩ := by
    decide +kernel
  have hread : Mixed.directory.read "broken.js" = .ok "import (" := by decide +kernel
  have hpath : Grammar.ofPath "broken.js" = .ok .javascript := by decide +kernel
  have hunusable : Unusable Mixed.parser Mixed.directory "broken.js" :=
    .unparsable hread hpath (by decide +kernel)
  obtain ⟨report, final, hrun, _, htallied, hisolated⟩ :=
    run_isolates Mixed.parser Mixed.invocation {} Mixed.directory hoptions
  have hchanged : report.files.map FileReport.changed = [false, false, true] := by
    have hfirst : (run Mixed.parser Mixed.invocation Mixed.directory).1.toOption.map
        (fun report => report.files.map FileReport.changed) = some [false, false, true] := by
      decide +kernel
    rw [hrun] at hfirst
    exact Option.some.inj hfirst
  have hlength : report.files.length = 3 := by simpa using congrArg List.length hchanged
  have hcount : report.files.countP FileReport.changed = 1 := by
    have hcount := congrArg (List.countP id) hchanged
    rwa [List.countP_map] at hcount
  refine ⟨hoptions, hdistinct, report, final, hrun, hchanged, htallied.scanned.trans hlength,
    htallied.changed.trans hcount, ?_, ?_⟩
  · obtain ⟨file, hfile, hfile'⟩ : ∃ file, report.files[2]? = some file ∧ file.changed = true := by
      have hthird := congrArg (·[2]?) hchanged
      simpa [List.getElem?_map] using hthird
    obtain ⟨location, text, migrated, hlocate, hentry, hmigrated, hfinal⟩ :=
      (hisolated hdistinct).written 2 "good.js" file rfl hfile hfile' rfl
    rw [hgood] at hlocate
    cases hlocate
    cases (show some (Entry.text Mixed.text) = some (.text text) from hentry)
    rw [hmigrate] at hmigrated
    cases hmigrated
    exact hfinal
  · have hfile : report.files[0]? = some (report.files.get ⟨0, by omega⟩) := by simp
    have hkept := (hisolated hdistinct).unusable 0 "broken.js" _ rfl hfile hunusable
    exact (hkept.2.2.2.2 ["broken.js"] hbroken).trans rfl

end Batch

end JestMigration
