import PatchSearch.CommandLine
import PatchSearch.Proofs.Files.Paths
import PatchSearch.Proofs.Yields

/-!
The places that commands are told. The directories of a candidate are made by the program, in its
own directory, and named to a command that starts in one of them. An absolute path means the same
in both. A relative one is taken a second time from below itself, so it means the same only where
its way up leads back out of what it leads into.
-/
namespace PatchSearch

open FileTree

namespace BuildCommand

variable {σ : Type}

/-- The directory that the sources of a candidate are written below. -/
def sourceDir (c : BuildCommand) (id : ℕ) : String :=
  joinPath (c.directory id) "src"

/-- The directory that a candidate is built into. -/
def outputDir (c : BuildCommand) (id : ℕ) : String :=
  joinPath (c.directory id) "out"

/-- The artifact of a candidate. -/
def artifact (c : BuildCommand) (id : ℕ) : Artifact :=
  ⟨id, c.outputDir id⟩

/-- The directories that a build is told. -/
def told (c : BuildCommand) (id : ℕ) : List String :=
  [c.sourceDir id, c.outputDir id]

/-- How the build of a candidate is started. -/
def call (c : BuildCommand) (id : ℕ) : CommandCall where
  program := c.program
  args := fillPlaceholders c.args [("\x7bsrc\x7d", c.sourceDir id), ("\x7bout\x7d", c.outputDir id),
    ("\x7bid\x7d", toString id)]
  directory := c.directory id
  limit := c.limit

/-- A build prepares the directories of its candidate and then starts its command. -/
theorem compile_of_prepare {files : Storage σ} {c : BuildCommand} {id : ℕ}
    {sources : TextMap String} {world world' : σ}
    (h : prepare files (c.directory id) sources world = (.ok (), world')) (launch : Launcher σ) :
    c.compile files launch id sources world =
      ((launch (c.call id) world').1.map (resultOf (c.artifact id)),
        (launch (c.call id) world').2) := by
  unfold compile
  dsimp only
  rw [h]
  rfl

end BuildCommand

namespace TestCommand

variable {σ : Type}

/-- The file that lists the tests of a long run. -/
def listPath (artifact : Artifact) : String :=
  joinPath artifact.path "tests.txt"

/-- How a test run is started, with a list of its tests or with the tests themselves. -/
def call (c : TestCommand) (files : Storage σ) (artifact : Artifact) (tests : List String)
    (limit : Duration) (world : σ) : CommandCall where
  program := c.program
  args := fillPlaceholders c.args
      [("\x7bartifact\x7d", artifact.path), ("\x7bid\x7d", toString artifact.id)] ++
    if maxInlineTests < tests.length then ["@" ++ listPath artifact] else tests
  directory := directory files artifact world
  limit := limit

/-- A test run puts its arguments together and then starts its command. -/
theorem runTests_of_arguments {files : Storage σ} {c : TestCommand} {artifact : Artifact}
    {tests args : List String} {world world' : σ} (hne : tests ≠ [])
    (h : c.arguments files artifact tests world = (.ok args, world')) (launch : Launcher σ)
    (limit : Duration) :
    c.runTests files launch artifact tests limit world =
      ((launch (c.call files artifact tests limit world') world').1.map resultOf,
        (launch (c.call files artifact tests limit world') world').2) := by
  have hargs : args = (c.call files artifact tests limit world').args := by
    unfold arguments at h
    dsimp only at h
    split at h
    · next hmany =>
      unfold writeList at h
      split at h
      · cases h
      · next path _ hwritten =>
        cases h
        split at hwritten
        · cases hwritten
        · dsimp only at hwritten
          split at hwritten
          · cases hwritten
          · cases hwritten
            simp [call, listPath, hmany]
    · next hfew =>
      cases h
      simp [call, hfew]
  unfold runTests
  rw [if_neg (by simpa using hne), h, hargs]
  rfl

end TestCommand

/-- The places that a test run of a candidate is told: the artifact and the list of the tests. -/
def BuildCommand.tested (c : BuildCommand) (id : ℕ) : List String :=
  [c.outputDir id, TestCommand.listPath (c.artifact id)]

section Spots

variable {here : Position} {c : BuildCommand} {id id' : ℕ}

theorem isName_src : IsName "src" := ⟨by decide, by decide, by decide, by decide⟩

theorem isName_out : IsName "out" := ⟨by decide, by decide, by decide, by decide⟩

theorem isName_tests : IsName "tests.txt" := ⟨by decide, by decide, by decide, by decide⟩

/-- The name of the directory of a candidate. -/
def binName (id : ℕ) : String :=
  "bin_" ++ toString id

theorem binName_eq (id : ℕ) : binName id = "bin_" ++ toString id ++ "" := by
  rw [String.append_empty]
  rfl

theorem toList_binName (id : ℕ) :
    (binName id).toList = ['b', 'i', 'n', '_'] ++ Nat.toDigits 10 id := by
  simp [binName, Nat.toString_eq_repr]

theorem isName_binName (id : ℕ) : IsName (binName id) :=
  binName_eq id ▸ isName_numbered (c := 'b') "bin_" "" (by decide) (by decide) (by decide)
    (by decide) id

theorem binName_injective : Function.Injective binName := by
  intro id id' h
  rw [binName_eq, binName_eq] at h
  exact numbered_injective "bin_" "" h

theorem spot_directory (here : Position) (c : BuildCommand) (id : ℕ) :
    spot here (c.directory id) = spot here c.workDir ++ [binName id] := by
  unfold BuildCommand.directory
  rw [spot_joinPath]
  exact (isName_binName id).spot _

theorem ofPath_directory (c : BuildCommand) (id : ℕ) :
    Route.ofPath (c.directory id) =
      ⟨(Route.ofPath c.workDir).up, (Route.ofPath c.workDir).down ++ [binName id]⟩ :=
  Route.ofPath_joinPath_name _ (isName_binName id)

end Spots

section Commands

/-- A path means the same to a command that is started in a directory as to the program that
started it. -/
def MeansSame (here : Position) (directory path : String) : Prop :=
  spot (spot here directory) path = spot here path

/-- A way up and down, with so many names more, leads back to where it started from. -/
def Route.Returns (r : Route) (here : Position) (names : ℕ) : Prop :=
  r.down.length + names = r.up ∨ here.length ≤ r.up ∧ r.down.length + names ≤ r.up

/-- A way leads to the same place from where another one of the same height leads exactly when it
goes up as far as that one leads down, or when both end up at the root. -/
theorem Route.leads_leads_iff {a b : Route} (h : b.up = a.up) (here : Position) :
    b.leads (a.leads here) = b.leads here ↔
      a.down.length = a.up ∨ here.length ≤ a.up ∧ a.down.length ≤ a.up := by
  unfold leads
  rw [List.append_left_inj, h]
  generalize hq : here.take (here.length - a.up) ++ a.down = q
  have hlength : q.length = (here.length - a.up) + a.down.length := by
    rw [← hq, List.length_append, List.length_take, Nat.min_eq_left (Nat.sub_le _ _)]
  constructor
  · intro heq
    have hsize := congrArg List.length heq
    rw [List.length_take, List.length_take, hlength] at hsize
    omega
  · intro hback
    have hsize : q.length - a.up = (here.take (here.length - a.up)).length := by
      rw [hlength, List.length_take]
      omega
    rw [hsize, ← hq, List.take_left]

/-- Relative paths below one base mean the same in a directory below it or they do not. -/
theorem meansSame_iff {here : Position} {directory path : String}
    (hdirectory : isAbsolutePath directory = false) (hpath : isAbsolutePath path = false)
    (hup : (Route.ofPath path).up = (Route.ofPath directory).up) :
    MeansSame here directory path ↔ (Route.ofPath directory).Returns here 0 := by
  unfold MeansSame Route.Returns
  rw [← Route.leads_ofPath hpath, ← Route.leads_ofPath hpath, ← Route.leads_ofPath hdirectory]
  exact Route.leads_leads_iff hup here

/-- The command that builds the candidates of a run. -/
def RunManifest.buildCommand (m : RunManifest) : BuildCommand where
  program := m.compile.program
  args := m.compile.args
  workDir := m.workDir
  limit := Duration.ofMillis m.config.evaluation.compileTimeoutMs

/-- The command that tests the candidates of a run. -/
def RunManifest.testCommand (m : RunManifest) : TestCommand where
  program := m.test.program
  args := m.test.args

/-- The work directory of a run is absolute when the manifest writes it so, or lies in an absolute
place itself. -/
theorem RunManifest.isAbsolutePath_workDir {σ : Type} {files : Storage σ} {path : String}
    {world : σ} {m : RunManifest} (h : load files path world = .ok m) :
    ∃ raw, files.readDocument decode path world = .ok raw ∧
      (parentPath path ≠ none →
        isAbsolutePath m.workDir = (isAbsolutePath raw.workDir || isAbsolutePath path)) := by
  obtain ⟨raw, hraw, h⟩ := bind_eq_ok_iff.mp h
  cases h
  refine ⟨raw, hraw, fun hparent => ?_⟩
  obtain ⟨base, hbase⟩ := Option.ne_none_iff_exists'.mp hparent
  rw [hbase, ← isAbsolutePath_parentPath hbase]
  exact isAbsolutePath_joinPath base raw.workDir

section Relative

variable {here : Position} {c : BuildCommand} {id : ℕ}

theorem isAbsolutePath_joinPath_name (base : String) {name : String} (h : IsName name) :
    isAbsolutePath (joinPath base name) = isAbsolutePath base := by
  rw [isAbsolutePath_joinPath, h.relative, Bool.false_or]

theorem isAbsolutePath_directory (c : BuildCommand) (id : ℕ) :
    isAbsolutePath (c.directory id) = isAbsolutePath c.workDir :=
  isAbsolutePath_joinPath_name c.workDir (isName_binName id)

theorem spot_dot (here : Position) : spot here "." = here := by
  have hsteps : pathSteps "." = ["."] := pathSteps_of_not_mem (by decide) (by decide)
  unfold spot
  rw [hsteps]
  rfl

/-- What commands are told is as absolute as the work directory, and goes up as far. -/
theorem told_like_workDir {p : String} (hp : p ∈ c.told id ++ c.tested id) :
    isAbsolutePath p = isAbsolutePath c.workDir ∧
      (Route.ofPath p).up = (Route.ofPath c.workDir).up := by
  have hnext {base name : String} (hname : IsName name)
      (h : isAbsolutePath base = isAbsolutePath c.workDir ∧
        (Route.ofPath base).up = (Route.ofPath c.workDir).up) :
      isAbsolutePath (joinPath base name) = isAbsolutePath c.workDir ∧
        (Route.ofPath (joinPath base name)).up = (Route.ofPath c.workDir).up := by
    rw [isAbsolutePath_joinPath_name base hname, Route.ofPath_joinPath_name base hname]
    exact h
  have hdirectory : isAbsolutePath (c.directory id) = isAbsolutePath c.workDir ∧
      (Route.ofPath (c.directory id)).up = (Route.ofPath c.workDir).up :=
    hnext (isName_binName id) ⟨rfl, rfl⟩
  have hsource : isAbsolutePath (c.sourceDir id) = isAbsolutePath c.workDir ∧
      (Route.ofPath (c.sourceDir id)).up = (Route.ofPath c.workDir).up :=
    hnext isName_src hdirectory
  have houtput : isAbsolutePath (c.outputDir id) = isAbsolutePath c.workDir ∧
      (Route.ofPath (c.outputDir id)).up = (Route.ofPath c.workDir).up :=
    hnext isName_out hdirectory
  have hlist : TestCommand.listPath (c.artifact id) = joinPath (c.outputDir id) "tests.txt" := rfl
  unfold BuildCommand.told BuildCommand.tested at hp
  rw [hlist] at hp
  simp only [List.cons_append, List.nil_append, List.mem_cons, List.not_mem_nil, or_false] at hp
  rcases hp with hp | hp | hp | hp
  · rw [hp]
    exact hsource
  · rw [hp]
    exact houtput
  · rw [hp]
    exact houtput
  · rw [hp]
    exact hnext isName_tests houtput

/-- Below a relative work directory a build is told what it finds exactly if its own directory leads
back out. -/
theorem meansSame_build (h : isAbsolutePath c.workDir = false) {p : String} (hp : p ∈ c.told id) :
    MeansSame here (c.directory id) p ↔ (Route.ofPath c.workDir).Returns here 1 := by
  obtain ⟨hpath, hup⟩ := told_like_workDir (List.mem_append_left (c.tested id) hp)
  rw [meansSame_iff ((isAbsolutePath_directory c id).trans h) (hpath.trans h)
    (by rw [hup, ofPath_directory]), ofPath_directory]
  simp [Route.Returns]

/-- And likewise a test run, which starts one directory further down. -/
theorem meansSame_test (h : isAbsolutePath c.workDir = false) {p : String}
    (hp : p ∈ c.tested id) :
    MeansSame here (c.outputDir id) p ↔ (Route.ofPath c.workDir).Returns here 2 := by
  have hroute : Route.ofPath (c.outputDir id) = ⟨(Route.ofPath c.workDir).up,
      (Route.ofPath c.workDir).down ++ [binName id, "out"]⟩ := by
    unfold BuildCommand.outputDir
    rw [Route.ofPath_joinPath_name _ isName_out, ofPath_directory, List.append_assoc]
    rfl
  have houtput : isAbsolutePath (c.outputDir id) = false :=
    (isAbsolutePath_joinPath_name _ isName_out).trans ((isAbsolutePath_directory c id).trans h)
  obtain ⟨hpath, hup⟩ := told_like_workDir (List.mem_append_right (c.told id) hp)
  rw [meansSame_iff houtput (hpath.trans h) (by rw [hup, hroute]), hroute]
  simp [Route.Returns]

/-- An absolute path means the same everywhere. -/
theorem meansSame_of_isAbsolutePath {directory p : String} (h : isAbsolutePath p = true) :
    MeansSame here directory p := by
  unfold MeansSame spot startFrom
  rw [h, if_pos rfl, if_pos rfl]

/-- All paths mean the same where the work directory is absolute, or leads from everywhere up to the
root and so far beyond that it stays there. -/
theorem told_meansSame_iff :
    (∀ p ∈ c.told id, MeansSame here (c.directory id) p) ∧
        (∀ p ∈ c.tested id, MeansSame here (c.outputDir id) p) ↔
      isAbsolutePath c.workDir = true ∨ here.length ≤ (Route.ofPath c.workDir).up ∧
        (Route.ofPath c.workDir).down.length + 2 ≤ (Route.ofPath c.workDir).up := by
  cases h : isAbsolutePath c.workDir with
  | true =>
    have hsame {directory p : String} (hp : p ∈ c.told id ++ c.tested id) :
        MeansSame here directory p :=
      meansSame_of_isAbsolutePath ((told_like_workDir hp).1.trans h)
    refine iff_of_true ⟨fun p hp => ?_, fun p hp => ?_⟩ (Or.inl rfl)
    · exact hsame (List.mem_append_left (c.tested id) hp)
    · exact hsame (List.mem_append_right (c.told id) hp)
  | false =>
    have hbuild : (∀ p ∈ c.told id, MeansSame here (c.directory id) p) ↔
        (Route.ofPath c.workDir).Returns here 1 :=
      ⟨fun hall => (meansSame_build h List.mem_cons_self).mp (hall _ List.mem_cons_self),
        fun hback p hp => (meansSame_build h hp).mpr hback⟩
    have htest : (∀ p ∈ c.tested id, MeansSame here (c.outputDir id) p) ↔
        (Route.ofPath c.workDir).Returns here 2 :=
      ⟨fun hall => (meansSame_test h List.mem_cons_self).mp (hall _ List.mem_cons_self),
        fun hback p hp => (meansSame_test h hp).mpr hback⟩
    rw [hbuild, htest]
    unfold Route.Returns
    simp only [Bool.false_eq_true, false_or]
    omega

end Relative

/-- In a tree without links, a path that a command finds where the program made something means the
same to both. -/
theorem meansSame_of_locate {t : FileTree} (hlinks : ∀ p target, t.entry? p ≠ some (.link target))
    {directory path : String} {p : Position} (hmade : t.locate path = .ok p)
    (hfound : t.locate (joinPath directory path) = .ok p) : MeansSame t.here directory path := by
  have hchild := locate_eq_spot hlinks hfound
  rw [spot_joinPath] at hchild
  exact hchild.symm.trans (locate_eq_spot hlinks hmade)

/-- The paths that commands are told mean the same where the commands start exactly if the work
directory is absolute, or leads from everywhere up to the root and so far beyond that it stays
there. A build is started in the directory of its candidate, a test run in the artifact or, where
that is no directory, in the directory of the program. The work directory is absolute when the
manifest writes it so or has an absolute path itself; then a path is the same text from every
directory. A relative one is taken from where the command starts: a build finds its two directories
again only where the work directory goes up just as far as the directory of the candidate leads
down, and a test run the artifact and the list of its tests only where it goes up one further. What
means another place is not what was made, as far as no links stand in the tree. -/
theorem paths_meanSame_iff {σ : Type} {files : Storage σ} {path : String} {world : σ}
    {m : RunManifest} (hload : RunManifest.load files path world = .ok m) (id : ℕ)
    (here : Position) :
    let c := m.buildCommand
    let route := Route.ofPath m.workDir
    CommandLine.toolchain m =
      commandToolchain Host.storage Host.launch Host.clock c m.testCommand ∧
    (∀ launch sources w w', BuildCommand.prepare files (c.directory id) sources w = (.ok (), w') →
      c.compile files launch id sources w =
        ((launch (c.call id) w').1.map (BuildCommand.resultOf (c.artifact id)),
          (launch (c.call id) w').2)) ∧
    (∀ launch tests limit w args w', tests ≠ [] →
      m.testCommand.arguments files (c.artifact id) tests w = (.ok args, w') →
      let call := m.testCommand.call files (c.artifact id) tests limit w'
      m.testCommand.runTests files launch (c.artifact id) tests limit w =
          ((launch call w').1.map TestCommand.resultOf, (launch call w').2) ∧
        (call.directory = c.outputDir id ∨ call.directory = ".")) ∧
    (∃ raw, files.readDocument RunManifest.decode path world = .ok raw ∧
      (parentPath path ≠ none →
        isAbsolutePath m.workDir = (isAbsolutePath raw.workDir || isAbsolutePath path))) ∧
    (isAbsolutePath m.workDir = true →
      ∀ p ∈ c.told id ++ c.tested id, ∀ directory, joinPath directory p = p) ∧
    (isAbsolutePath m.workDir = false →
      (∀ p ∈ c.told id, MeansSame here (c.directory id) p ↔ route.Returns here 1) ∧
      ∀ p ∈ c.tested id, MeansSame here (c.outputDir id) p ↔ route.Returns here 2) ∧
    ((∀ p ∈ c.told id, MeansSame here (c.directory id) p) ∧
        (∀ p ∈ c.tested id, MeansSame here (c.outputDir id) p) ↔
      isAbsolutePath m.workDir = true ∨
        here.length ≤ route.up ∧ route.down.length + 2 ≤ route.up) ∧
    (∀ p, MeansSame here "." p) ∧
    ∀ t : FileTree, t.here = here → (∀ p target, t.entry? p ≠ some (.link target)) →
      ∀ directory p q, t.locate p = .ok q → t.locate (joinPath directory p) = .ok q →
        MeansSame here directory p := by
  have hdir : m.buildCommand.workDir = m.workDir := rfl
  have hraw := RunManifest.isAbsolutePath_workDir hload
  have htools : CommandLine.toolchain m = commandToolchain Host.storage Host.launch Host.clock
      m.buildCommand m.testCommand := rfl
  generalize m.buildCommand = c at hdir htools ⊢
  rw [← hdir] at hraw ⊢
  intro c' route
  refine ⟨htools, fun launch sources w w' h => BuildCommand.compile_of_prepare h launch,
    fun launch tests limit w args w' hne h =>
      ⟨TestCommand.runTests_of_arguments hne h launch limit, ?_⟩, hraw, fun h p hp directory => ?_,
    fun h => ⟨fun p hp => ?_, fun p hp => ?_⟩, told_meansSame_iff, fun p => ?_, ?_⟩
  · change TestCommand.directory files (c.artifact id) w' = _ ∨
      TestCommand.directory files (c.artifact id) w' = _
    unfold TestCommand.directory
    split
    · exact Or.inl rfl
    · exact Or.inr rfl
  · exact joinPath_of_isAbsolutePath directory p ((told_like_workDir hp).1.trans h)
  · exact meansSame_build h hp
  · exact meansSame_test h hp
  · unfold MeansSame
    rw [spot_dot]
  · rintro t rfl hlinks directory p q hmade hfound
    exact meansSame_of_locate hlinks hmade hfound

/-- A manifest that names no work directory and hands the sources to its build. -/
def plainManifest : String :=
  "\x7b\"coverage\":\"c\",\"catalog\":\"p\",\"source_root\":\"s\"," ++
    "\"compile\":\x7b\"program\":\"b\",\"args\":[\"\x7bsrc\x7d\"]\x7d," ++
    "\"test\":\x7b\"program\":\"t\"\x7d\x7d"

/-- A tree with nothing in it but the manifest. -/
def manifestTree : FileTree where
  items := [(["m.json"], ⟨.file (Text.encode plainManifest), 1, 420, 0⟩)]
  here := []
  nextNumber := 2

theorem load_plainManifest : ∃ m, RunManifest.load FileTree.storage "m.json" manifestTree = .ok m ∧
    m.workDir = "evorepair-work" ∧ m.compile.args = ["\x7bsrc\x7d"] := by
  have hload : (RunManifest.load FileTree.storage "m.json" manifestTree).map
      (fun m => (m.workDir, m.compile.args)) = .ok ("evorepair-work", ["\x7bsrc\x7d"]) := by
    decide +kernel
  cases h : RunManifest.load FileTree.storage "m.json" manifestTree with
  | error e =>
    rw [h] at hload
    cases hload
  | ok m =>
    rw [h] at hload
    obtain ⟨hdir, hargs⟩ := Prod.mk.inj (Except.ok.inj hload)
    exact ⟨m, rfl, hdir, hargs⟩

/-- Seen from the root, the default work directory does not lead back out of itself. -/
theorem paths_meanSame_iff_of_plain :
    ∃ m, RunManifest.load FileTree.storage "m.json" manifestTree = .ok m ∧
      ¬ MeansSame [] (m.buildCommand.directory 0) (m.buildCommand.sourceDir 0) := by
  obtain ⟨m, hload, hdir, -⟩ := load_plainManifest
  obtain ⟨-, -, -, -, -, hrelative, -⟩ := paths_meanSame_iff hload 0 []
  rw [hdir] at hrelative
  refine ⟨m, hload, fun hsame => ?_⟩
  have hroute : Route.ofPath "evorepair-work" = ⟨0, ["evorepair-work"]⟩ := by
    unfold Route.ofPath
    rw [pathSteps_of_not_mem (by decide) (by decide)]
    rfl
  have hback := ((hrelative (by decide)).1 _ List.mem_cons_self).mp hsame
  rw [hroute] at hback
  simp [Route.Returns] at hback

/-- The directory that a build is told holds its sources is not there for it, though it was made:
the relative path of the work directory is taken a second time, from below itself. -/
theorem told_sources_missing :
    ∃ m t', RunManifest.load FileTree.storage "m.json" manifestTree = .ok m ∧
      BuildCommand.prepare FileTree.storage (m.buildCommand.directory 0) [] manifestTree =
        (.ok (), t') ∧
      (m.buildCommand.call 0).args = ["evorepair-work/bin_0/src"] ∧
      t'.locate "evorepair-work/bin_0/src" = .ok ["evorepair-work", "bin_0", "src"] ∧
      t'.isDirectoryAt ["evorepair-work", "bin_0", "src"] = true ∧
      t'.locate (joinPath (m.buildCommand.call 0).directory "evorepair-work/bin_0/src") =
        .error .notFound := by
  obtain ⟨m, hload, hdir, hargs⟩ := load_plainManifest
  have hdirectory : m.buildCommand.directory 0 = "evorepair-work/bin_0" := by
    have hjoined : joinPath "evorepair-work" ("bin_" ++ toString 0) = "evorepair-work/bin_0" := by
      decide +kernel
    rw [← hjoined, ← hdir]
    rfl
  have hcall : (m.buildCommand.call 0).args = ["evorepair-work/bin_0/src"] := by
    have hfilled : fillPlaceholders ["\x7bsrc\x7d"]
        [("\x7bsrc\x7d", joinPath "evorepair-work/bin_0" "src"),
          ("\x7bout\x7d", joinPath "evorepair-work/bin_0" "out"), ("\x7bid\x7d", toString 0)] =
        ["evorepair-work/bin_0/src"] := by
      decide +kernel
    rw [← hfilled, ← hargs, ← hdirectory]
    rfl
  have hrun : (match BuildCommand.prepare FileTree.storage "evorepair-work/bin_0" []
        manifestTree with
      | (answer, t') => (answer, t'.locate "evorepair-work/bin_0/src",
          t'.isDirectoryAt ["evorepair-work", "bin_0", "src"],
          t'.locate (joinPath "evorepair-work/bin_0" "evorepair-work/bin_0/src"))) =
      (.ok (), .ok ["evorepair-work", "bin_0", "src"], true, .error .notFound) := by
    decide +kernel
  rcases hall : BuildCommand.prepare FileTree.storage "evorepair-work/bin_0" [] manifestTree
    with ⟨answer, t'⟩
  rw [hall] at hrun
  simp only [Prod.mk.injEq] at hrun
  obtain ⟨hprepared, hmade, hthere, hmissing⟩ := hrun
  have hdirectory' : (m.buildCommand.call 0).directory = "evorepair-work/bin_0" := hdirectory
  refine ⟨m, t', hload, ?_, hcall, hmade, hthere, ?_⟩
  · rw [hdirectory, hall]
    exact congrArg (·, t') hprepared
  · rw [hdirectory']
    exact hmissing

end Commands

end PatchSearch
