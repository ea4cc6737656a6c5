import PatchSearch.Command
import PatchSearch.Proofs.SortedList
import PatchSearch.Proofs.Text.ByteLines
import PatchSearch.Proofs.Toolchain

/-!
What becomes of the failures that a test command reports. A line reports a failed test when it is
by itself the text of a report; what other bytes the output holds is of no concern to the report.
The run keeps every report if the output is UTF-8 throughout. If it is not, the whole output reads
as empty, every report is lost, and the run counts as one in which nothing failed.
-/
namespace PatchSearch.TestCommand

open Text (byteLines decode? isBlank)

variable {σ : Type}

/-- Some line of an output is by itself the text that reports a test as failed. -/
def ReportsFailure (stdout : ByteArray) (test : String) : Prop :=
  test ≠ "" ∧ Text.trimString test = test ∧
    ∃ line ∈ byteLines stdout, decode? line.toByteArray = some (failureMark ++ " " ++ test)

/-- The answer of a run is an error or holds every test that the output reports. -/
def KeepsReports (stdout : ByteArray) : Except HarnessError (List String) → Prop
  | .error _ => True
  | .ok failed => ∀ test, ReportsFailure stdout test → test ∈ failed

/-- A command that writes given bytes to its standard output and exits with status zero, however
it is called. How long it takes, what else it writes and what it does to the state is left to
`course`. -/
def writing (stdout : ByteArray) (course : CommandCall → σ → (Duration × ByteArray) × σ) :
    Launcher σ := fun call world =>
  let ((duration, stderr), world) := course call world
  (⟨duration, some (.ok ⟨.code 0, stdout, stderr⟩)⟩, world)

/-- A run gets as far as calling the command: tests are asked for, and the arguments can be put
together. -/
def Starts (files : Storage σ) (c : TestCommand) (artifact : Artifact) (tests : List String)
    (world : σ) : Prop :=
  tests ≠ [] ∧ ∃ args, (c.arguments files artifact tests world).1 = .ok args

/-- A text that starts and ends with characters that are not blank stays as it is. -/
theorem trim_eq_self {cs : List Char} {a b : Char} (ha : cs.head? = some a)
    (hb : cs.getLast? = some b) (hab : isBlank a = false) (hbb : isBlank b = false) :
    Text.trim cs = cs := by
  have hstart : Text.trimStart cs = cs := by
    cases cs with
    | nil => cases ha
    | cons c cs =>
      obtain rfl : c = a := by simpa using ha
      simp [Text.trimStart, hab]
  unfold Text.trim Text.trimEnd
  rw [hstart]
  rw [← List.head?_reverse] at hb
  cases hr : cs.reverse with
  | nil => simp [hr] at hb
  | cons c rest =>
    obtain rfl : c = b := by simpa [hr] using hb
    rw [List.dropWhile_cons_of_neg (by simp [hbb]), ← hr, List.reverse_reverse]

/-- A text of a report ends in a character that is not blank. -/
theorem getLast?_report {test : String} (hne : test ≠ "") (htrim : Text.trimString test = test) :
    ∃ c, (failureMark ++ " " ++ test).toList.getLast? = some c ∧ isBlank c = false := by
  obtain ⟨c, hc⟩ : ∃ c, test.toList.getLast? = some c :=
    Option.isSome_iff_exists.mp (by simpa using hne)
  have htest : Text.trim test.toList = test.toList := by
    simpa [Text.trimString] using congrArg String.toList htrim
  refine ⟨c, ?_, Text.getLast?_trim test.toList c (by rw [htest, hc])⟩
  rw [String.toList_append, List.getLast?_append, hc]
  rfl

/-- Whether a line is a report is told by what is left of it when it is trimmed. -/
theorem reportedTest?_congr {line line' : List Char} (h : Text.trim line = Text.trim line') :
    reportedTest? line = reportedTest? line' := by
  unfold reportedTest?
  rw [h]

/-- A line is a report of what follows the mark. -/
theorem reportedTest?_of_trim {line rest : List Char}
    (h : Text.trim line = failureMark.toList ++ rest) :
    reportedTest? line = some (String.ofList (Text.trim rest)) := by
  have hlength : failureMark.length = failureMark.toList.length := rfl
  unfold reportedTest?
  dsimp only
  rw [h, if_pos (by simp), hlength, List.drop_left]

theorem reportedTest?_of_not_prefix {line : List Char}
    (h : ¬ failureMark.toList <+: Text.trim line) : reportedTest? line = none :=
  if_neg (by simpa using h)

/-- The line that reports a test is read as a report of that test. -/
theorem reportedTest?_report {test : String} (hne : test ≠ "")
    (htrim : Text.trimString test = test) :
    reportedTest? (failureMark ++ " " ++ test).toList = some test := by
  obtain ⟨c, hc, hblank⟩ := getLast?_report hne htrim
  have hhead : (failureMark ++ " " ++ test).toList.head? = some 'F' := by simp [failureMark]
  have hline : Text.trim (failureMark ++ " " ++ test).toList =
      failureMark.toList ++ ([' '] ++ test.toList) := by
    rw [trim_eq_self hhead hc (by decide) hblank]
    simp
  rw [reportedTest?_of_trim hline,
    Text.trim_append_of_blank_left (List.forall_mem_singleton.mpr rfl)]
  exact congrArg some htrim

/-- The reports of a text are all kept. -/
theorem keepsReports_failedTests {stdout : ByteArray} {s : String} (hs : decode? stdout = some s) :
    KeepsReports stdout (failedTests s) := by
  unfold failedTests
  dsimp only
  split
  · trivial
  · rintro test ⟨hne, htrim, line, hline, htext⟩
    obtain ⟨c, hc, hblank⟩ := getLast?_report hne htrim
    rw [mem_textSet, List.mem_filterMap]
    refine ⟨_, Text.mem_lines_of_mem_byteLines hs hline htext ?_ ?_,
      reportedTest?_report hne htrim⟩
    · simp [failureMark]
    · intro hreturn
      obtain rfl := Option.some.inj (hc.symm.trans hreturn)
      exact absurd hblank (by decide)

/-- A run that gets as far as calling the command answers what the output says; any other run
answers with an error. -/
theorem runTests_writing (files : Storage σ) (stdout : ByteArray)
    (course : CommandCall → σ → (Duration × ByteArray) × σ) (c : TestCommand)
    (artifact : Artifact) (tests : List String) (limit : Duration) (world : σ) :
    let answer := (c.runTests files (writing stdout course) artifact tests limit world).1.result
    (Starts files c artifact tests world ∧ answer = some (failedTests (streamText stdout))) ∨
      (¬ Starts files c artifact tests world ∧ ∃ e, answer = some (.error e)) := by
  intro answer
  by_cases hnil : tests = []
  · refine Or.inr ⟨fun h => h.1 hnil, .noTests, ?_⟩
    simp [answer, runTests, hnil, Work.done]
  · have hempty : tests.isEmpty = false := by simpa using hnil
    rcases hargs : c.arguments files artifact tests world with ⟨e | args, w⟩
    · refine Or.inr ⟨?_, .io e, ?_⟩
      · rintro ⟨-, args, h⟩
        simp [hargs] at h
      · simp [answer, runTests, hempty, hargs, Work.done]
    · refine Or.inl ⟨⟨hnil, args, by rw [hargs]⟩, ?_⟩
      simp [answer, runTests, hempty, hargs, writing, Work.map, resultOf, ExitStatus.success]

theorem failedTests_empty : failedTests "" = .ok [] := by
  simp [failedTests, Text.lines_nil, textSet, sortedSet, dropRepeats]

/-- An output that is not UTF-8 throughout reads as empty, and its reports are gone. -/
theorem failedTests_of_not_text {stdout : ByteArray} (h : decode? stdout = none) :
    failedTests (streamText stdout) = .ok [] := by
  rw [streamText, h, Option.getD_none, failedTests_empty]

/-- A run keeps the reports of its output exactly when it ends in an error, its output is UTF-8
throughout, or nothing was reported. A request one of whose tests is reported is taken to have
passed exactly when the command was called, wrote bytes that are not UTF-8, and met the
deadline. -/
theorem reports_kept_iff (files : Storage σ) (stdout : ByteArray)
    (course : CommandCall → σ → (Duration × ByteArray) × σ) (clock : σ → Nat)
    (build : BuildCommand) (c : TestCommand) (artifact : Artifact) (r : TestRequest)
    (limit : Duration) (world : σ) :
    let tools := commandToolchain files (writing stdout course) clock build c
    let run := (tools.runTests artifact r.all limit world).1
    let outcome := (tools.execute artifact r limit world).1
    (∃ answer, run.result = some answer ∧
      (KeepsReports stdout answer ↔
        (Starts files c artifact r.all world →
          (decode? stdout).isSome ∨ ∀ test, ¬ ReportsFailure stdout test))) ∧
    ((∃ test ∈ r.all, ReportsFailure stdout test) →
      (outcome.allPassed = true ↔
        Starts files c artifact r.all world ∧ decode? stdout = none ∧ run.duration ≤ limit)) := by
  intro tools run outcome
  have houtcome : outcome = TestOutcome.ofRun r limit run := rfl
  have hrun := runTests_writing files stdout course c artifact r.all limit world
  change (_ ∧ run.result = _) ∨ (_ ∧ ∃ e, run.result = some (.error e)) at hrun
  rw [houtcome, TestOutcome.allPassed_ofRun_iff]
  rcases hrun with ⟨hstart, hresult⟩ | ⟨hstart, e, hresult⟩
  · cases htext : decode? stdout with
    | none =>
      rw [failedTests_of_not_text htext] at hresult
      refine ⟨⟨_, hresult, by simp [KeepsReports, hstart]⟩, fun _ => ?_⟩
      constructor
      · rintro ⟨failed, ⟨hintime, -⟩, -⟩
        exact ⟨hstart, rfl, hintime⟩
      · rintro ⟨-, -, hintime⟩
        exact ⟨[], ⟨hintime, hresult⟩, by simp⟩
    | some s =>
      have hstream : streamText stdout = s := by simp [streamText, htext]
      have hkept := keepsReports_failedTests htext
      rw [hstream] at hresult
      refine ⟨⟨_, hresult, by simp [hkept]⟩, ?_⟩
      rintro ⟨test, htest, hreport⟩
      constructor
      · rintro ⟨failed, ⟨-, hfailed⟩, hall⟩
        rw [hresult, Option.some.injEq] at hfailed
        rw [hfailed] at hkept
        exact absurd (hkept test hreport) (hall test htest)
      · rintro ⟨-, hnone, -⟩
        cases hnone
  · refine ⟨⟨_, hresult, ?_⟩, fun _ => ?_⟩
    · simp [KeepsReports, hstart]
    · simp [TestOutcome.Completes, hresult, hstart]

/-- A report, a line feed, and a line of one byte that is no UTF-8. -/
def spoiledOutput : ByteArray :=
  (Text.encode (failureMark ++ " T#a\n")).push 0xff

/-- One byte after a report loses it: the run answers that nothing failed, and a request for the
reported test counts as passed. -/
theorem report_lost_by_one_byte :
    let tools := commandToolchain FileTree.storage
      (writing spoiledOutput fun _ world => ((⟨0⟩, ByteArray.empty), world)) (fun _ => 0)
      ⟨"javac", [], "work", ⟨0⟩⟩ ⟨"junit", []⟩
    ReportsFailure spoiledOutput "T#a" ∧
      (tools.runTests ⟨0, "out"⟩ ["T#a"] ⟨0⟩ FileTree.empty).1.result = some (.ok []) ∧
      (tools.execute ⟨0, "out"⟩ ⟨["T#a"], []⟩ ⟨0⟩ FileTree.empty).1.allPassed = true := by
  intro tools
  have hanswer : (tools.runTests ⟨0, "out"⟩ ["T#a"] ⟨0⟩ FileTree.empty).1.result = some (.ok []) := by
    rw [← failedTests_of_not_text (by decide +kernel : decode? spoiledOutput = none)]
    rfl
  refine ⟨⟨by decide, by decide +kernel, (Text.encode "FailedTest: T#a").data.toList,
    by decide +kernel, by decide +kernel⟩, hanswer, ?_⟩
  apply (TestOutcome.allPassed_ofRun_iff _ _ _).mpr
  exact ⟨[], ⟨by decide, hanswer⟩, by simp⟩

end PatchSearch.TestCommand

/-!
Reports in an output that is text. An output is told by its lines, of which some were written to
report tests; each of these is read as the report it was written for, whatever line break follows,
and any other line as none.
-/
namespace PatchSearch.TestCommand

open Text (isBlank)

/-- The name of a test as a report can give it: on one line, and with no blank at either end. -/
structure IsTestName (test : String) : Prop where
  nonempty : test ≠ ""
  noFeed : '\n' ∉ test.toList
  head : ∀ c, test.toList.head? = some c → isBlank c = false
  last : ∀ c, test.toList.getLast? = some c → isBlank c = false

/-- A line of an output without its line break: the report of a test, or any other line. -/
inductive OutputLine where
  | report (before between : List Char) (test : String) (after : List Char)
  | other (text : List Char)

namespace OutputLine

def text : OutputLine → List Char
  | report before between test after =>
    before ++ (failureMark.toList ++ (between ++ (test.toList ++ after)))
  | other text => text

/-- The test that a line reports. -/
def test? : OutputLine → Option String
  | report _ _ test _ => some test
  | other _ => none

/-- A report has nothing but spaces and tabs around its parts. Any other line does not start with
the mark of a report, even when it is trimmed. -/
def WellFormed : OutputLine → Prop
  | report before between test after =>
    (∀ c ∈ before ++ between ++ after, c = ' ' ∨ c = '\t') ∧ IsTestName test
  | other text => '\n' ∉ text ∧ ¬ failureMark.toList <+: Text.trim text

end OutputLine

/-- An output by its lines: some with a line break of either kind, and perhaps a last one
without. -/
structure TestOutput where
  closed : List (OutputLine × List Char)
  last : Option OutputLine
  wellFormed : ∀ line ∈ closed.map Prod.fst ++ last.toList, line.WellFormed
  breaks : ∀ line ∈ closed, line.2 = ['\n'] ∨ line.2 = ['\r', '\n']

namespace TestOutput

def lines (o : TestOutput) : List OutputLine :=
  o.closed.map Prod.fst ++ o.last.toList

def text (o : TestOutput) : List Char :=
  o.closed.flatMap (fun line => line.1.text ++ line.2) ++ o.last.toList.flatMap OutputLine.text

def Reports (o : TestOutput) (test : String) : Prop :=
  ∃ line ∈ o.lines, line.test? = some test

end TestOutput

theorem IsTestName.trim_eq_self {test : String} (h : IsTestName test) :
    Text.trim test.toList = test.toList := by
  obtain ⟨a, ha⟩ : ∃ a, test.toList.head? = some a :=
    Option.isSome_iff_exists.mp (by simpa using h.nonempty)
  obtain ⟨b, hb⟩ : ∃ b, test.toList.getLast? = some b :=
    Option.isSome_iff_exists.mp (by simpa using h.nonempty)
  exact TestCommand.trim_eq_self ha hb (h.head a ha) (h.last b hb)

namespace OutputLine

variable {line : OutputLine}

theorem WellFormed.noFeed (h : line.WellFormed) : '\n' ∉ line.text := by
  cases line with
  | report before between test after =>
    obtain ⟨hblank, htest⟩ := h
    have hspace {cs : List Char} (hcs : cs ⊆ before ++ between ++ after) : '\n' ∉ cs := by
      intro hmem
      obtain hc | hc := hblank _ (hcs hmem) <;> cases hc
    have hmark : '\n' ∉ failureMark.toList := by decide
    have hbefore : '\n' ∉ before := hspace (by simp)
    have hbetween : '\n' ∉ between := hspace (by simp)
    have hafter : '\n' ∉ after := hspace (by simp)
    simp [text, hmark, hbefore, hbetween, hafter, htest.noFeed]
  | other text => exact h.1

/-- A well-formed line reports the test that it was written for, and no other line reports any. -/
theorem WellFormed.reportedTest? (h : line.WellFormed) : reportedTest? line.text = line.test? := by
  cases line with
  | report before between test after =>
    obtain ⟨hblank, htest⟩ := h
    have hspace {cs : List Char} (hcs : cs ⊆ before ++ between ++ after) :
        ∀ c ∈ cs, isBlank c = true := by
      intro c hc
      obtain rfl | rfl := hblank c (hcs hc) <;> decide
    have hafter : ∀ c ∈ after, isBlank c = true := hspace (by simp)
    obtain ⟨b, hb⟩ : ∃ b, test.toList.getLast? = some b :=
      Option.isSome_iff_exists.mp (by simpa using htest.nonempty)
    have htrim : Text.trim (text (report before between test after)) =
        failureMark.toList ++ (between ++ test.toList) := by
      have hhead : (failureMark.toList ++ (between ++ test.toList)).head? = some 'F' := rfl
      have hlast : (failureMark.toList ++ (between ++ test.toList)).getLast? = some b := by
        simp [List.getLast?_append, hb]
      unfold text
      rw [Text.trim_append_of_blank_left (hspace (by simp)), ← List.append_assoc between,
        ← List.append_assoc, Text.trim_append_of_blank hafter]
      exact TestCommand.trim_eq_self hhead hlast (by decide) (htest.last b hb)
    rw [reportedTest?_of_trim htrim, Text.trim_append_of_blank_left (hspace (by simp)),
      htest.trim_eq_self, String.ofList_toList]
    rfl
  | other text => exact reportedTest?_of_not_prefix h.2

end OutputLine

/-- A line with a line break after it is read as that line, up to blanks at its end. -/
theorem filterMap_lines_append {line ending : List Char} (h : '\n' ∉ line)
    (hending : ending = ['\n'] ∨ ending = ['\r', '\n']) (rest : List Char) :
    (Text.lines (line ++ ending ++ rest)).filterMap reportedTest? =
      (reportedTest? line).toList ++ (Text.lines rest).filterMap reportedTest? := by
  have hread {cs : List Char} (hcs : '\n' ∉ cs) (htrim : Text.trim cs = Text.trim line) :
      (Text.lines (cs ++ '\n' :: rest)).filterMap reportedTest? =
        (reportedTest? line).toList ++ (Text.lines rest).filterMap reportedTest? := by
    have hsame : reportedTest? (Text.dropReturn cs.reverse).reverse = reportedTest? line :=
      reportedTest?_congr ((Text.trim_dropReturn cs).trans htrim)
    unfold Text.lines
    rw [Text.linesFrom_append_feed hcs, List.append_nil, List.filterMap_cons, hsame]
    cases reportedTest? line <;> rfl
  obtain rfl | rfl := hending
  · rw [List.append_assoc, List.singleton_append]
    exact hread h rfl
  · have hreturn : ∀ c ∈ ['\r'], isBlank c = true := List.forall_mem_singleton.mpr rfl
    have hsplit : line ++ ['\r', '\n'] ++ rest = (line ++ ['\r']) ++ '\n' :: rest := by simp
    rw [hsplit]
    exact hread (by simp [h]) (Text.trim_append_of_blank hreturn)

/-- A last line without a line break is read as it is, or not at all if it is empty. -/
theorem filterMap_lines_of_not_mem {line : List Char} (h : '\n' ∉ line) :
    (Text.lines line).filterMap reportedTest? = (reportedTest? line).toList := by
  unfold Text.lines
  rw [Text.linesFrom_of_not_mem h, List.append_nil, Text.linesFrom]
  split
  · next hempty =>
    rw [List.reverse_eq_nil_iff.mp (List.isEmpty_iff.mp hempty)]
    rfl
  · rw [List.reverse_reverse, List.filterMap_cons]
    cases reportedTest? line <;> rfl

/-- What is read as reported is what the lines report, in their order. -/
theorem TestOutput.filterMap_lines (o : TestOutput) :
    (Text.lines o.text).filterMap reportedTest? = o.lines.filterMap OutputLine.test? := by
  obtain ⟨closed, last, hwell, hbreaks⟩ := o
  unfold TestOutput.text TestOutput.lines
  dsimp only
  induction closed with
  | nil =>
    cases last with
    | none => rfl
    | some line =>
      have hline : line.WellFormed := hwell line (by simp)
      rw [List.flatMap_nil, List.nil_append, Option.toList_some, List.flatMap_singleton,
        filterMap_lines_of_not_mem hline.noFeed, hline.reportedTest?]
      cases h : line.test? <;> simp [h]
  | cons first closed ih =>
    obtain ⟨line, ending⟩ := first
    have hline : line.WellFormed := hwell line (by simp)
    have hlater := ih (fun line h => hwell line (by simp_all))
      (fun line h => hbreaks line (List.mem_cons_of_mem _ h))
    rw [List.flatMap_cons, List.append_assoc,
      filterMap_lines_append hline.noFeed (hbreaks _ List.mem_cons_self), hlater,
      hline.reportedTest?]
    cases h : line.test? <;> simp [h]

/-- A line that stands between line feeds, or at an end of an output. -/
structure StandsAlone (front line back : List Char) : Prop where
  noFeed : '\n' ∉ line
  front : front = [] ∨ ∃ rest, front = rest ++ ['\n']
  back : back = [] ∨ ∃ rest, back = '\n' :: rest

/-- An output with a line that is marked as a report and names no test is refused. -/
theorem failedTests_of_nameless {front line back blanks : List Char}
    (halone : StandsAlone front line back) (hblank : ∀ c ∈ blanks, isBlank c = true)
    (hline : Text.trim line = failureMark.toList ++ blanks) :
    failedTests (String.ofList (front ++ (line ++ back))) =
      .error (.malformedOutput (failureMark ++ " line without a test id")) := by
  have hback : back = [] ∨ ∃ returns rest, back = returns ++ '\n' :: rest ∧ '\n' ∉ returns ∧
      ∀ c ∈ returns, isBlank c = true :=
    halone.back.imp_right fun ⟨rest, hrest⟩ => ⟨[], rest, hrest, List.not_mem_nil, nofun⟩
  have hread := Text.trim_line_between halone.noFeed hback halone.front
  rw [hline] at hread
  cases hthere : (Text.lines (front ++ (line ++ back)))[front.count '\n']? with
  | none =>
    rw [hthere] at hread
    cases hread
  | some found =>
    rw [hthere, Option.getD_some] at hread
    have hreported : reportedTest? found = some "" := by
      have htrim : Text.trim blanks = [] := by
        rw [← List.append_nil blanks, Text.trim_append_of_blank_left hblank]
        rfl
      rw [reportedTest?_of_trim hread, htrim]
    have hmem : "" ∈ (Text.lines (front ++ (line ++ back))).filterMap reportedTest? :=
      List.mem_filterMap.mpr ⟨found, List.mem_of_getElem? hthere, hreported⟩
    unfold failedTests
    dsimp only
    rw [String.toList_ofList, if_pos (List.contains_iff_mem.mpr hmem)]

theorem failedTests_of_output (o : TestOutput) {tests : List String}
    (h : ∀ test, test ∈ tests ↔ o.Reports test) :
    failedTests (String.ofList o.text) = .ok (textSet tests) := by
  have hmem (test : String) : test ∈ o.lines.filterMap OutputLine.test? ↔ test ∈ tests := by
    rw [h, List.mem_filterMap]
    rfl
  have hnamed : ¬ (o.lines.filterMap OutputLine.test?).contains "" = true := by
    rw [List.contains_iff_mem, List.mem_filterMap]
    rintro ⟨line, hline, htest⟩
    have hwell := o.wellFormed line hline
    cases line with
    | report before between test after => exact hwell.2.nonempty (Option.some.inj htest)
    | other text => cases htest
  unfold failedTests
  dsimp only
  rw [String.toList_ofList, o.filterMap_lines, if_neg hnamed]
  exact congrArg Except.ok (textSet_ext fun test => by rw [mem_textSet, mem_textSet, hmem])

/-- Reading an output undoes reporting. Whatever reports an output holds, among whatever other
lines, with whatever spaces and tabs around their parts, with line breaks of either kind and with
or without one at the end, what is read are the tests that were reported, each once; a test may
have the mark of a report in its name. A line that is marked as a report and names no test makes
any output malformed. -/
theorem reading_undoes_reports :
    (∀ (o : TestOutput) (tests : List String), (∀ test, test ∈ tests ↔ o.Reports test) →
      failedTests (String.ofList o.text) = .ok (textSet tests)) ∧
    ∀ front line back blanks, StandsAlone front line back → (∀ c ∈ blanks, isBlank c = true) →
      Text.trim line = failureMark.toList ++ blanks →
        failedTests (String.ofList (front ++ (line ++ back))) =
          .error (.malformedOutput "FailedTest: line without a test id") :=
  ⟨fun o _ h => failedTests_of_output o h, fun _ _ _ _ => failedTests_of_nameless⟩

/-- Three reports of two tests, one of them named like a report, around a line that only looks
like one. -/
def mixedOutput : TestOutput where
  closed := [(.report ['\t', ' '] [] "T#b" [' '], ['\r', '\n']),
    (.other "x FailedTest: T#c\r".toList, ['\n']),
    (.report [] [' '] "FailedTest: T#a" [], ['\n'])]
  last := some (.report [] ['\t'] "T#b" [])
  wellFormed := by
    have hname {test : String} {a b : Char} (hfeed : '\n' ∉ test.toList)
        (hhead : test.toList.head? = some a) (hlast : test.toList.getLast? = some b)
        (ha : isBlank a = false) (hb : isBlank b = false) : IsTestName test := by
      refine ⟨fun hempty => ?_, hfeed, fun c hc => ?_, fun c hc => ?_⟩
      · rw [hempty] at hhead
        cases hhead
      · exact Option.some.inj (hhead.symm.trans hc) ▸ ha
      · exact Option.some.inj (hlast.symm.trans hc) ▸ hb
    simp only [List.map_cons, List.map_nil, Option.toList_some, List.cons_append, List.nil_append,
      List.forall_mem_cons, List.not_mem_nil, false_imp_iff, implies_true, and_true]
    have hb : IsTestName "T#b" := hname (by decide) rfl rfl (by decide) (by decide)
    have ha : IsTestName "FailedTest: T#a" := hname (by decide) rfl rfl (by decide) (by decide)
    exact ⟨⟨by simp, hb⟩, ⟨by decide, by decide +kernel⟩, ⟨by simp, ha⟩, ⟨by simp, hb⟩⟩
  breaks := by decide

theorem reading_undoes_reports_of_mixed :
    failedTests ("\t FailedTest:T#b \r\nx FailedTest: T#c\r\n" ++
        "FailedTest: FailedTest: T#a\nFailedTest:\tT#b") =
        .ok (textSet ["T#b", "FailedTest: T#a"]) ∧
      failedTests "FailedTest: T#a\n FailedTest:  \r\n" =
        .error (.malformedOutput "FailedTest: line without a test id") := by
  refine ⟨?_, ?_⟩
  · have hreports (test : String) :
        test ∈ ["T#b", "FailedTest: T#a"] ↔ mixedOutput.Reports test := by
      simp [TestOutput.Reports, TestOutput.lines, mixedOutput, OutputLine.test?, eq_comm]
      tauto
    exact reading_undoes_reports.1 mixedOutput _ hreports
  · exact reading_undoes_reports.2 "FailedTest: T#a\n".toList " FailedTest:  \r".toList ['\n'] []
      ⟨by decide, Or.inr ⟨"FailedTest: T#a".toList, by decide⟩, Or.inr ⟨[], rfl⟩⟩
      (List.forall_mem_nil _) (by decide +kernel)

end PatchSearch.TestCommand
