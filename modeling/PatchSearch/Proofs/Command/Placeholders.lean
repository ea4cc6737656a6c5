import PatchSearch.Proofs.Command.Places
import PatchSearch.Proofs.Text.Passes

/-!
What commands are told in place of placeholders. The paths of a candidate are put in before its
number, and the path of its sources before that of its output, so a work directory whose name has to
do with a later placeholder is told in another form. The names behind the work directory have no
braces and begin with a separator, so nothing else of a path matters.
-/
namespace PatchSearch

open Text

/-- A text with its value for each placeholder in it, all put in at once. -/
def filledAtOnce (values : List (String × String)) (text : String) : String :=
  String.ofList (substituteAll (values.map fun v => (v.1.toList, v.2.toList)) text.toList)

theorem toList_foldl_substituteString (values : List (String × String)) (text : String) :
    (values.foldl (fun text v => substituteString v.1 v.2 text) text).toList =
      (values.map fun v => (v.1.toList, v.2.toList)).foldl
        (fun text v => substitute v.1 v.2 text) text.toList := by
  induction values generalizing text with
  | nil => rfl
  | cons v values ih => rw [List.foldl_cons, ih, List.map_cons, List.foldl_cons, substituteString,
      String.toList_ofList]

theorem isPlaceholder_src : IsPlaceholder "\x7bsrc\x7d".toList :=
  ⟨"src".toList, by decide, by decide, by decide, by decide⟩

theorem isPlaceholder_out : IsPlaceholder "\x7bout\x7d".toList :=
  ⟨"out".toList, by decide, by decide, by decide, by decide⟩

theorem isPlaceholder_artifact : IsPlaceholder "\x7bartifact\x7d".toList :=
  ⟨"artifact".toList, by decide, by decide, by decide, by decide⟩

theorem isPlaceholder_id : IsPlaceholder "\x7bid\x7d".toList :=
  ⟨"id".toList, by decide, by decide, by decide, by decide⟩

/-- The values of the placeholders of a build. -/
def BuildCommand.values (c : BuildCommand) (id : ℕ) : List (String × String) :=
  [("\x7bsrc\x7d", c.sourceDir id), ("\x7bout\x7d", c.outputDir id), ("\x7bid\x7d", toString id)]

/-- The values of the placeholders of a test run. -/
def TestCommand.values (artifact : Artifact) : List (String × String) :=
  [("\x7bartifact\x7d", artifact.path), ("\x7bid\x7d", toString artifact.id)]

theorem not_mem_toString {c : Char} (hc : c.isDigit = false) (n : ℕ) : c ∉ (toString n).toList := by
  intro hmem
  rw [Nat.toString_eq_repr, Nat.toList_repr] at hmem
  have := Nat.isDigit_of_mem_toDigits (by decide) (by decide) hmem
  rw [hc] at this
  cases this

/-- The directories of a candidate are written as the work directory, and then without braces. -/
theorem BuildCommand.exists_toList_place (c : BuildCommand) (id : ℕ) {name : String}
    (h : IsName name) (hopen : '{' ∉ name.toList) (hclose : '}' ∉ name.toList) :
    ∃ tail, (joinPath (c.directory id) name).toList = c.workDir.toList ++ tail ∧
      '{' ∉ tail ∧ '}' ∉ tail ∧ '/' ∈ tail := by
  obtain ⟨sep, hdir, hsep, -⟩ := toList_joinPath_name c.workDir (isName_binName id)
  obtain ⟨sep', hplace, -, hsep'⟩ := toList_joinPath_name (c.directory id) h
  have hlast : ∃ d, (c.directory id).toList.getLast? = some d ∧ d ≠ '/' := by
    obtain ⟨d, hd⟩ : ∃ d, (binName id).toList.getLast? = some d :=
      Option.isSome_iff_exists.mp (by simpa using (isName_binName id).some)
    refine ⟨d, ?_, ?_⟩
    · rw [BuildCommand.directory, show "bin_" ++ toString id = binName id from rfl, hdir,
        List.getLast?_append, List.getLast?_append, hd, Option.some_or, Option.some_or]
    · rintro rfl
      exact (isName_binName id).separator (List.mem_of_getLast? hd)
  obtain ⟨d, hd, hslash⟩ := hlast
  rw [hsep' (by simp [hd]) (by simpa [hd] using hslash)] at hplace
  have hbin {d : Char} (hd : d ∉ ['b', 'i', 'n', '_']) (hdigit : d.isDigit = false) :
      d ∉ (binName id).toList := by
    rw [toList_binName, List.mem_append, not_or]
    refine ⟨hd, fun hmem => ?_⟩
    have := Nat.isDigit_of_mem_toDigits (by decide) (by decide) hmem
    rw [hdigit] at this
    cases this
  refine ⟨sep ++ (binName id).toList ++ (['/'] ++ name.toList), ?_, ?_, ?_, by simp⟩
  · rw [hplace, BuildCommand.directory, show "bin_" ++ toString id = binName id from rfl, hdir,
      List.append_assoc]
  · have := hbin (d := '{') (by decide) (by decide)
    obtain rfl | rfl := hsep <;> simp [this, hopen]
  · have := hbin (d := '}') (by decide) (by decide)
    obtain rfl | rfl := hsep <;> simp [this, hclose]

/-- Filling every list of arguments at once is filling every text at once. -/
theorem fillPlaceholders_eq_iff (values : List (String × String)) :
    (∀ args, fillPlaceholders args values = args.map (filledAtOnce values)) ↔
      ∀ text, (values.map fun v => (v.1.toList, v.2.toList)).foldl
          (fun text v => substitute v.1 v.2 text) text =
        substituteAll (values.map fun v => (v.1.toList, v.2.toList)) text := by
  constructor
  · intro h text
    have hone := congrArg (List.map String.toList) (h [String.ofList text])
    simpa [fillPlaceholders, toList_foldl_substituteString, filledAtOnce] using hone
  · intro h args
    refine List.map_congr_left fun arg _ => ?_
    rw [← String.toList_inj, toList_foldl_substituteString, filledAtOnce, String.toList_ofList, h]

section Commands

variable (c : BuildCommand) (id : ℕ)

theorem BuildCommand.map_toList_values :
    (c.values id).map (fun v => (v.1.toList, v.2.toList)) =
      [("\x7bsrc\x7d".toList, (c.sourceDir id).toList),
        ("\x7bout\x7d".toList, (c.outputDir id).toList),
        ("\x7bid\x7d".toList, (toString id).toList)] := by
  simp only [BuildCommand.values, List.map_cons, List.map_nil]

theorem TestCommand.map_toList_values (artifact : Artifact) :
    (TestCommand.values artifact).map (fun v => (v.1.toList, v.2.toList)) =
      [("\x7bartifact\x7d".toList, artifact.path.toList),
        ("\x7bid\x7d".toList, (toString artifact.id).toList)] := by
  simp only [TestCommand.values, List.map_cons, List.map_nil]

theorem BuildCommand.isPlaceholder_values (source output number : List Char) :
    ∀ v ∈ [("\x7bsrc\x7d".toList, source), ("\x7bout\x7d".toList, output),
      ("\x7bid\x7d".toList, number)], IsPlaceholder v.1 :=
  List.forall_mem_cons.mpr ⟨isPlaceholder_src, List.forall_mem_cons.mpr
    ⟨isPlaceholder_out, List.forall_mem_singleton.mpr isPlaceholder_id⟩⟩

theorem TestCommand.isPlaceholder_values (path number : List Char) :
    ∀ v ∈ [("\x7bartifact\x7d".toList, path), ("\x7bid\x7d".toList, number)],
      IsPlaceholder v.1 :=
  List.forall_mem_cons.mpr
    ⟨isPlaceholder_artifact, List.forall_mem_singleton.mpr isPlaceholder_id⟩

/-- A build is told what its templates say exactly if the work directory is clear of the two
placeholders that are filled after a path. -/
theorem BuildCommand.filledAtOnce_iff :
    (∀ args, fillPlaceholders args (c.values id) = args.map (filledAtOnce (c.values id))) ↔
      Clear "\x7bout\x7d".toList c.workDir.toList ∧ Clear "\x7bid\x7d".toList c.workDir.toList := by
  obtain ⟨tail, hsrc, hopen, hclose, hsep⟩ :
      ∃ tail, (c.sourceDir id).toList = c.workDir.toList ++ tail ∧
        '{' ∉ tail ∧ '}' ∉ tail ∧ '/' ∈ tail :=
    c.exists_toList_place id isName_src (by decide) (by decide)
  obtain ⟨tail', hout, hopen', hclose', hsep'⟩ :
      ∃ tail, (c.outputDir id).toList = c.workDir.toList ++ tail ∧
        '{' ∉ tail ∧ '}' ∉ tail ∧ '/' ∈ tail :=
    c.exists_toList_place id isName_out (by decide) (by decide)
  rw [fillPlaceholders_eq_iff, c.map_toList_values, hsrc, hout]
  have hvalues := BuildCommand.isPlaceholder_values (c.workDir.toList ++ tail)
    (c.workDir.toList ++ tail') (toString id).toList
  constructor
  · intro h
    refine ⟨?_, ?_⟩
    · by_contra hclear
      obtain ⟨k, hk, hinfix⟩ := exists_infix_of_not_clear isPlaceholder_out.ne_nil hclear tail
      obtain ⟨hturns, hpass⟩ := foldl_take_append [] hvalues nofun isPlaceholder_out hk
      have hsame := (hturns.symm.trans (h _)).trans hpass
      exact substitute_substitute_ne_of_infix isPlaceholder_out isPlaceholder_id hinfix
        (List.mem_append_right _ hsep') hsame
    · by_contra hclear
      obtain ⟨k, hk, hinfix⟩ := exists_infix_of_not_clear isPlaceholder_id.ne_nil hclear tail'
      have hother : ¬ "\x7bsrc\x7d".toList <+: "\x7bout\x7d".toList := by decide
      obtain ⟨hturns, hpass⟩ := foldl_take_append [_] hvalues
        (List.forall_mem_singleton.mpr hother) isPlaceholder_id hk
      have hsame := (hturns.symm.trans (h _)).trans hpass
      exact substitute_ne_of_infix isPlaceholder_id hinfix (not_mem_toString (by decide) id) hsame
  · rintro ⟨hclearOut, hclearId⟩ text
    refine foldl_substitute _ hvalues ?_ text
    have hsrcOut := hclearOut.inert isPlaceholder_out hopen hclose hsep
    have hsrcId := hclearId.inert isPlaceholder_id hopen hclose hsep
    have houtId := hclearId.inert isPlaceholder_id hopen' hclose' hsep'
    exact List.pairwise_cons.mpr ⟨List.forall_mem_cons.mpr
      ⟨hsrcOut, List.forall_mem_singleton.mpr hsrcId⟩, List.pairwise_pair.mpr houtId⟩

/-- For a test run, which is told a path by its first placeholder alone, the second one matters. -/
theorem TestCommand.filledAtOnce_iff :
    (∀ args, fillPlaceholders args (TestCommand.values (c.artifact id)) =
        args.map (filledAtOnce (TestCommand.values (c.artifact id)))) ↔
      Clear "\x7bid\x7d".toList c.workDir.toList := by
  obtain ⟨tail, hout, hopen, hclose, hsep⟩ :=
    c.exists_toList_place id isName_out (by decide) (by decide)
  have hpath : (c.artifact id).path = joinPath (c.directory id) "out" := rfl
  rw [fillPlaceholders_eq_iff, TestCommand.map_toList_values, hpath, hout]
  have hvalues := TestCommand.isPlaceholder_values (c.workDir.toList ++ tail)
    (toString (c.artifact id).id).toList
  constructor
  · intro h
    by_contra hclear
    obtain ⟨k, hk, hinfix⟩ := exists_infix_of_not_clear isPlaceholder_id.ne_nil hclear tail
    obtain ⟨hturns, hpass⟩ := foldl_take_append [] hvalues nofun isPlaceholder_id hk
    have hsame := (hturns.symm.trans (h _)).trans hpass
    exact substitute_ne_of_infix isPlaceholder_id hinfix (not_mem_toString (by decide) id) hsame
  · intro hclear text
    refine foldl_substitute _ hvalues ?_ text
    have houtId := hclear.inert isPlaceholder_id hopen hclose hsep
    exact List.pairwise_pair.mpr houtId

end Commands

/-- Placeholders are filled at once exactly if the work directory lets them alone. An argument of a
build is its template with the value in place of every placeholder in it, for all templates, if and
only if the work directory neither holds the placeholder of the output or of the number nor starts
with the end of one; for a test run the placeholder of the number alone matters, as the artifact is
put in before it. Whatever the number of the candidate is makes no difference. -/
theorem placeholders_at_once_iff (build : BuildCommand) (test : TestCommand) (id : ℕ) :
    let filledBuild := filledAtOnce (build.values id)
    let filledTest := filledAtOnce (TestCommand.values (build.artifact id))
    ((∀ args, ({ build with args }.call id).args = args.map filledBuild) ↔
      Clear "\x7bout\x7d".toList build.workDir.toList ∧
        Clear "\x7bid\x7d".toList build.workDir.toList) ∧
    ∀ {σ : Type} (files : Storage σ) (tests : List String) (limit : Duration) (world : σ),
      (∀ args, ({ test with args }.call files (build.artifact id) tests limit world).args =
          args.map filledTest ++ if TestCommand.maxInlineTests < tests.length then
            ["@" ++ TestCommand.listPath (build.artifact id)] else tests) ↔
        Clear "\x7bid\x7d".toList build.workDir.toList := by
  refine ⟨build.filledAtOnce_iff id, fun files tests limit world => ?_⟩
  refine Iff.trans (forall_congr' fun args => ?_) (TestCommand.filledAtOnce_iff build id)
  exact List.append_left_inj _

/-- A work directory that is named like a placeholder is told to a build with the number of the
candidate in its place. -/
theorem path_text_substituted :
    let build : BuildCommand := ⟨"make", ["\x7bsrc\x7d"], "w\x7bid\x7d", ⟨0⟩⟩
    (build.call 7).args = ["w7/bin_7/src"] ∧
      build.args.map (filledAtOnce (build.values 7)) = ["w\x7bid\x7d/bin_7/src"] := by
  decide +kernel

end PatchSearch
