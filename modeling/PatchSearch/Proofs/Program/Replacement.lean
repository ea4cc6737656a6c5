import PatchSearch.Proofs.Evaluation.Decoding
import PatchSearch.Proofs.Program.Applicable

/-!
Replaced lines. A replacement that the filter lets pass says something else than the statement, and
where the line of a point is its statement it says something else than the line; blanks at either
end count for neither. What it puts in stands in the rendered text between what comes of the lines
above and of the lines below. So replacements alone always change a file: a text without further
line feeds has a changed line, and one with further line feeds has more of them.
-/
namespace PatchSearch

section EditedTexts

variable {edits : List LineEdit} {text t : String} {n : ℕ} {line : List Char}

/-- What edits make of the lines of a text above line `n`, each with its line break. -/
def renderedAbove (text : String) (edits : List LineEdit) (n : ℕ) : List Char :=
  (editedFrom edits 1 ((Text.lines text.toList).take (n - 1))).flatMap
    (· ++ Text.lineBreak text.toList)

/-- What edits make of the lines of a text below line `n`, each after a line break, and the line
break at the end of the text. -/
def renderedBelow (text : String) (edits : List LineEdit) (n : ℕ) : List Char :=
  (editedFrom edits (n + 1) ((Text.lines text.toList).drop n)).flatMap
      (Text.lineBreak text.toList ++ ·) ++
    if Text.endsWithBreak text.toList then Text.lineBreak text.toList else []

/-- Among the edited lines a replacement stands in the place of its line. -/
theorem editedFrom_replaced {lines : List (List Char)} (hn : n ≠ 0)
    (hline : lines[n - 1]? = some line) (hedit : edits.lookup n = some (.replace t)) :
    editedFrom edits 1 lines = editedFrom edits 1 (lines.take (n - 1)) ++
      (Text.indent line ++ Text.trim t.toList) :: editedFrom edits (n + 1) (lines.drop n) := by
  obtain ⟨k, rfl⟩ := Nat.exists_eq_succ_of_ne_zero hn
  rw [Nat.succ_eq_add_one, Nat.add_sub_cancel] at *
  obtain ⟨hlt, rfl⟩ := List.getElem?_eq_some_iff.mp hline
  have hplace : 1 + (lines.take k).length = k + 1 := by
    rw [List.length_take]
    omega
  have hsplit : lines.take k ++ lines[k] :: lines.drop (k + 1) = lines := by
    rw [← List.drop_eq_getElem_cons, List.take_append_drop]
  conv_lhs => rw [← hsplit]
  rw [editedFrom_append, editedFrom_cons, hplace, hedit]
  rfl

/-- The rendered text around a replacement. -/
theorem toList_editedText_replaced (hn : n ≠ 0)
    (hline : (Text.lines text.toList)[n - 1]? = some line)
    (hedit : edits.lookup n = some (.replace t)) :
    (editedText text edits).toList = renderedAbove text edits n ++
      ((Text.indent line ++ Text.trim t.toList) ++ renderedBelow text edits n) := by
  unfold editedText renderedAbove renderedBelow
  rw [String.toList_ofList, editedFrom_replaced hn hline hedit, Text.joinWith_append_cons]
  split <;> simp

theorem renderedAbove_cases (text : String) (edits : List LineEdit) (n : ℕ) :
    renderedAbove text edits n = [] ∨ ∃ rest, renderedAbove text edits n = rest ++ ['\n'] := by
  unfold renderedAbove
  obtain ⟨returns, hbreak, -⟩ := Text.lineBreak_eq text.toList
  generalize editedFrom edits 1 _ = above
  rcases List.eq_nil_or_concat above with rfl | ⟨above, last, rfl⟩
  · exact Or.inl rfl
  · rw [hbreak, List.concat_eq_append, List.flatMap_append, List.flatMap_singleton,
      ← List.append_assoc, ← List.append_assoc]
    exact Or.inr ⟨_, rfl⟩

theorem renderedBelow_cases (text : String) (edits : List LineEdit) (n : ℕ) :
    renderedBelow text edits n = [] ∨ ∃ returns rest,
      renderedBelow text edits n = returns ++ '\n' :: rest ∧ '\n' ∉ returns ∧
        ∀ c ∈ returns, Text.isBlank c = true := by
  unfold renderedBelow
  obtain ⟨returns, hbreak, hreturns⟩ := Text.lineBreak_eq text.toList
  rw [hbreak]
  generalize editedFrom edits (n + 1) _ = below
  obtain _ | ⟨l, below⟩ := below
  · split
    · exact Or.inr ⟨returns, [], rfl, hreturns⟩
    · exact Or.inl rfl
  · refine Or.inr ⟨returns, l ++ (below.flatMap (returns ++ ['\n'] ++ ·) ++
      if Text.endsWithBreak text.toList then returns ++ ['\n'] else []), ?_, hreturns⟩
    rw [List.flatMap_cons]
    simp only [List.append_assoc, List.cons_append, List.nil_append]

/-- A replacement that is a single line is what the rendered text has on that line. -/
theorem trim_line_replaced (hn : n ≠ 0)
    (hline : (Text.lines text.toList)[n - 1]? = some line)
    (hedit : edits.lookup n = some (.replace t))
    (hsingle : '\n' ∉ Text.indent line ++ Text.trim t.toList) :
    Text.trim ((Text.lines (editedText text edits).toList)[(renderedAbove text edits n).count
      '\n']?.getD []) = Text.trim t.toList := by
  rw [toList_editedText_replaced hn hline hedit,
    Text.trim_line_between hsingle (renderedBelow_cases text edits n)
      (renderedAbove_cases text edits n),
    Text.trim_indent_append_trim]

section Replacements

variable (hreplace : ∀ e ∈ edits, ∃ t, e.2 = .replace t)
include hreplace

theorem length_editedFrom_of_replace (start : ℕ) (lines : List (List Char)) :
    (editedFrom edits start lines).length = lines.length := by
  induction lines generalizing start with
  | nil => rfl
  | cons line lines ih =>
    rw [editedFrom_cons, List.length_append, ih, List.length_cons]
    cases hlookup : edits.lookup start with
    | none => exact Nat.add_comm 1 _
    | some kind =>
      obtain ⟨before, after, rfl, -⟩ := List.lookup_eq_some_iff.mp hlookup
      obtain ⟨t, ht⟩ := hreplace (start, kind) (by simp)
      obtain rfl : kind = .replace t := ht
      exact Nat.add_comm 1 _

/-- Above a line there are as many line feeds as lines, if replacements put in none. -/
theorem count_renderedAbove (hn : n - 1 ≤ (Text.lines text.toList).length)
    (hsingle : ∀ l ∈ editedFrom edits 1 ((Text.lines text.toList).take (n - 1)), '\n' ∉ l) :
    (renderedAbove text edits n).count '\n' = n - 1 := by
  have hnone : (editedFrom edits 1 ((Text.lines text.toList).take (n - 1))).flatten.count '\n' =
      0 := by
    rw [List.count_eq_zero, List.mem_flatten]
    rintro ⟨l, hl, hfeed⟩
    exact hsingle l hl hfeed
  rw [renderedAbove, Text.count_closed (Text.count_lineBreak _), hnone,
    length_editedFrom_of_replace hreplace, List.length_take, Nat.min_eq_left hn, Nat.zero_add]

/-- Replacements that leave a text as it is put in no line feeds: the rendered text has those that
set the lines apart, as the original has, and then those that were put in. -/
theorem not_mem_of_editedText_eq (hsome : Text.lines text.toList ≠ [])
    (hsame : editedText text edits = text) :
    ∀ l ∈ editedFrom edits 1 (Text.lines text.toList), '\n' ∉ l := by
  have hlength := length_editedFrom_of_replace hreplace 1 (Text.lines text.toList)
  have hne : text.toList ≠ [] := by
    intro hnil
    rw [hnil] at hsome
    exact hsome rfl
  have hedited : editedFrom edits 1 (Text.lines text.toList) ≠ [] := by
    intro hnil
    rw [hnil] at hlength
    exact hsome (List.eq_nil_of_length_eq_zero hlength.symm)
  have hjoined := Text.count_joinWith (Text.count_lineBreak text.toList) hedited
  have horiginal := Text.length_lines hne
  have hrendered := congrArg (List.count '\n' ∘ String.toList) hsame
  rw [Function.comp_apply, Function.comp_apply, editedText, String.toList_ofList] at hrendered
  have hnone : (editedFrom edits 1 (Text.lines text.toList)).flatten.count '\n' = 0 := by
    cases hend : Text.endsWithBreak text.toList with
    | true =>
      rw [hend, if_pos rfl] at horiginal
      rw [hend, if_pos rfl, List.count_append, Text.count_lineBreak] at hrendered
      omega
    | false =>
      rw [hend, if_neg Bool.false_ne_true] at horiginal hrendered
      omega
  intro l hl hfeed
  exact List.count_eq_zero.mp hnone (List.mem_flatten_of_mem hl hfeed)

/-- Replacements change a text, if one of them says something else than its line. -/
theorem editedText_ne_of_replaced (hn : n ≠ 0)
    (hline : (Text.lines text.toList)[n - 1]? = some line)
    (hedit : edits.lookup n = some (.replace t))
    (hother : Text.trim t.toList ≠ Text.trim line) : editedText text edits ≠ text := by
  intro hsame
  have hmem : line ∈ Text.lines text.toList := List.mem_of_getElem? hline
  have hsingle := not_mem_of_editedText_eq hreplace (List.ne_nil_of_mem hmem) hsame
  rw [editedFrom_replaced hn hline hedit] at hsingle
  obtain ⟨habove, hreplaced⟩ := List.forall_mem_append.mp hsingle
  obtain ⟨hlt, -⟩ := List.getElem?_eq_some_iff.mp hline
  have hcount := count_renderedAbove hreplace hlt.le habove
  have hread := trim_line_replaced hn hline hedit (hreplaced _ List.mem_cons_self)
  rw [hcount, hsame, hline] at hread
  exact hother hread.symm

end Replacements

end EditedTexts

section Files

/-- Where the line of a point is in its file, it is the statement, up to the blanks around both. -/
def Point.StandsIn (p : Point) (tree : SourceTree) : Prop :=
  ∀ text line, tree.file? p.location.file = some text → p.location.line ≠ 0 →
    (Text.lines text.toList)[p.location.line - 1]? = some line →
      Text.trim line = Text.trim p.statement.toList

/-- In the rendered text of its file an edit has put something in the place of its line, between
what the edits of the file make of the lines above and of those below. It is the ingredient of the
edit, up to the blanks around it, and it is not the line; and if it is a single line, the text has
on that line something else than the line was. -/
def AppliedEdit.Alters (e : AppliedEdit) (tree : SourceTree) (edits : List LineEdit)
    (files : TextMap String) : Prop :=
  ∃ (text result source : String) (line new : List Char),
    tree.file? e.location.file = some text ∧ e.location.line ≠ 0 ∧
    (Text.lines text.toList)[e.location.line - 1]? = some line ∧
    files.lookup e.location.file = some result ∧
    result.toList = renderedAbove text edits e.location.line ++
      (new ++ renderedBelow text edits e.location.line) ∧
    e.ingredient = some source ∧ Text.trim new = Text.trim source.toList ∧
    Text.trim new ≠ Text.trim line ∧
    ('\n' ∉ new → Text.trim ((Text.lines result.toList)[(renderedAbove text edits
      e.location.line).count '\n']?.getD []) ≠ Text.trim line)

variable {σ : Type} {tools : Toolchain σ} {points : List Point} {tree : SourceTree}
  {script : List Edit} {edits : List AppliedEdit} {limit : Option ℕ} {files : TextMap String}
  {world world' : σ} {file : String}

/-- A replacement that passes the filter puts in an ingredient that does not repeat the
statement. -/
theorem AppliedEdit.Fits.replacement {p : Point} {e : AppliedEdit} (h : e.Fits true p)
    (ho : e.operator = .replace) :
    ∃ x, e.ingredientIndex.bind (p.ingredients[·]?) = some x ∧ e.ingredient = some x.source ∧
      ¬ p.Repeats x := by
  obtain ⟨k, hk⟩ : ∃ k, e.ingredientIndex = some k :=
    Option.isSome_iff_exists.mp (h.needed.trans (by rw [ho]; rfl))
  obtain ⟨x, hx⟩ : ∃ x, p.ingredients[k]? = some x :=
    ⟨_, List.getElem?_eq_getElem (h.ingredient k hk)⟩
  have hchosen : e.ingredientIndex.bind (p.ingredients[·]?) = some x := by
    rw [hk, Option.bind_some, hx]
  have hingredient : e.ingredient = _ := congrArg AppliedEdit.ingredient h.edit
  have haccepted := h.accepted rfl
  rw [hchosen] at haccepted
  refine ⟨x, hchosen, ?_, not_repeats_of_accept (by rw [ho]; nofun) haccepted⟩
  rw [hingredient, appliedEdit, hchosen, Option.map_some]

theorem lineEdit_eq_ok {p : Point} {o : Operator} {i : Option Ingredient} {edit : Edit}
    (h : lineEdit p o i = .ok edit) : edit.location = p.location ∧
      (o = .replace → ∃ x, i = some x ∧ edit.kind = .replace x.source) := by
  cases o <;> cases i <;> cases h <;> simp

theorem AppliedEdit.Patched.lineEdit (htools : tools.patch = linePatcher) {e : AppliedEdit}
    {edit : Edit} (h : e.Patched points tools edit) : ∃ p, points[e.point]? = some p ∧
      lineEdit p e.operator (e.ingredientIndex.bind (p.ingredients[·]?)) = .ok edit := by
  obtain ⟨p, world, hp, h⟩ := h
  rw [htools] at h
  exact ⟨p, hp, mapError_eq_ok_iff.mp h⟩

theorem exists_of_forall₂ {β γ : Type} {R : β → γ → Prop} {xs : List β} {ys : List γ}
    (h : List.Forall₂ R xs ys) :
    (∀ x ∈ xs, ∃ y ∈ ys, R x y) ∧ ∀ y ∈ ys, ∃ x ∈ xs, R x y := by
  induction h with
  | nil => exact ⟨nofun, nofun⟩
  | cons hxy _ ih =>
    refine ⟨List.forall_mem_cons.mpr ⟨⟨_, List.mem_cons_self, hxy⟩, fun x hx => ?_⟩,
      List.forall_mem_cons.mpr ⟨⟨_, List.mem_cons_self, hxy⟩, fun y hy => ?_⟩⟩
    · obtain ⟨y, hy, h⟩ := ih.1 x hx
      exact ⟨y, List.mem_cons_of_mem _ hy, h⟩
    · obtain ⟨x, hx, h⟩ := ih.2 y hy
      exact ⟨x, List.mem_cons_of_mem _ hx, h⟩

/-- Files are edited by rendering the script of the edits. -/
theorem editedFiles_eq_ok {setup : Setup}
    (h : (editedFiles setup tools edits world).1 = .ok files) : ∃ script world',
      scriptOf tools setup.model.points edits world = (.ok script, world') ∧
        EditScript.render ⟨script⟩ setup.sources = .ok files := by
  unfold editedFiles at h
  split at h
  · cases h
  · next script world' hscript => exact ⟨script, world', hscript, mapError_eq_ok_iff.mp h⟩

section Rendered

variable (htools : tools.patch = linePatcher) (hselected : Selected points true limit edits)
  (hscript : scriptOf tools points edits world = (.ok script, world'))
include htools hselected hscript

/-- A script has the edits of whole lines that the selected edits are, each at the place of one. -/
theorem script_of_selected :
    (∀ e ∈ edits, e.operator = .replace → ∃ p x, p ∈ points ∧ e.location = p.location ∧
      ⟨e.location, .replace x.source⟩ ∈ script ∧ e.ingredient = some x.source ∧
        ¬ p.Repeats x) ∧
    ∀ edit ∈ script, ∃ e ∈ edits, e.location = edit.location ∧
      (e.operator = .replace → ∃ t, edit.kind = .replace t) := by
  have hfits {e : AppliedEdit} {p : Point} (he : e ∈ edits) (hp : points[e.point]? = some p) :
      e.Fits true p := by
    obtain ⟨p', hp', hfit⟩ := hselected.fits e he
    exact Option.some.inj (hp'.symm.trans hp) ▸ hfit
  have hpoints (e : AppliedEdit) (he : e ∈ edits) : e.point < points.length := by
    obtain ⟨p, hp, -⟩ := hselected.fits e he
    exact (List.getElem?_eq_some_iff.mp hp).1
  obtain ⟨hthere, hback⟩ := exists_of_forall₂ (patched_scriptOf hpoints hscript)
  refine ⟨fun e he ho => ?_, fun edit hedit => ?_⟩
  · obtain ⟨edit, hedit, hpatched⟩ := hthere e he
    obtain ⟨p, hp, hline⟩ := hpatched.lineEdit htools
    have hfit := hfits he hp
    obtain ⟨x, hx, hingredient, hother⟩ := hfit.replacement ho
    obtain ⟨hplace, hkind⟩ := lineEdit_eq_ok hline
    obtain ⟨x', hx', hkind⟩ := hkind ho
    obtain rfl := Option.some.inj (hx.symm.trans hx')
    refine ⟨p, x, List.mem_of_getElem? hp, hfit.location, ?_, hingredient, hother⟩
    rw [hfit.location, ← hplace, ← hkind]
    exact hedit
  · obtain ⟨e, he, hpatched⟩ := hback edit hedit
    obtain ⟨p, hp, hline⟩ := hpatched.lineEdit htools
    obtain ⟨hplace, hkind⟩ := lineEdit_eq_ok hline
    refine ⟨e, he, (hfits he hp).location.trans hplace.symm, fun ho => ?_⟩
    obtain ⟨x, -, hkind⟩ := hkind ho
    exact ⟨x.source, hkind⟩

variable (hlines : ∀ p ∈ points, p.StandsIn tree)
  (hrender : EditScript.render ⟨script⟩ tree = .ok files)
include hlines hrender

/-- The line of a selected replacement, and what becomes of it. -/
theorem exists_replaced_line {e : AppliedEdit} (he : e ∈ edits) (ho : e.operator = .replace) :
    let here := EditScript.editsOf ⟨script⟩ e.location.file
    ∃ text line x, tree.file? e.location.file = some text ∧ e.location.line ≠ 0 ∧
      (Text.lines text.toList)[e.location.line - 1]? = some line ∧
      here.lookup e.location.line = some (.replace x) ∧
      files.lookup e.location.file = some (editedText text here) ∧
      e.ingredient = some x ∧ Text.trim x.toList ≠ Text.trim line := by
  intro here
  obtain ⟨p, x, hp, hplace, hedit, hingredient, hother⟩ :=
    (script_of_selected htools hselected hscript).1 e he ho
  have hname : EditScript.Names ⟨script⟩ e.location.file := ⟨_, hedit, rfl⟩
  obtain ⟨text, htext, hfit⟩ :=
    EditScript.fits_of_render hrender (EditScript.mem_files_iff.mpr hname)
  have hhere : (e.location.line, .replace x.source) ∈ here :=
    EditScript.mem_editsOf_iff.mpr ⟨_, hedit, rfl, rfl⟩
  obtain ⟨hpos, hle⟩ := hfit.present _ hhere
  obtain ⟨line, hline⟩ : ∃ line, (Text.lines text.toList)[e.location.line - 1]? = some line :=
    ⟨_, List.getElem?_eq_getElem (by omega)⟩
  have hstatement : Text.trim line = Text.trim p.statement.toList :=
    hlines p hp text line (hplace ▸ htext) (hplace ▸ hpos) (hplace ▸ hline)
  refine ⟨text, line, x.source, htext, hpos, hline, (lookup_eq_some_iff_mem hfit.apart).mpr hhere,
    (EditScript.lookup_of_render hrender).mpr ⟨hname, text, htext, hfit, rfl⟩, hingredient, ?_⟩
  rw [hstatement]
  exact hother

theorem alters_of_replace {e : AppliedEdit} (he : e ∈ edits) (ho : e.operator = .replace) :
    e.Alters tree (EditScript.editsOf ⟨script⟩ e.location.file) files := by
  obtain ⟨text, line, x, htext, hpos, hline, hhere, hresult, hingredient, hother⟩ :=
    exists_replaced_line htools hselected hscript hlines hrender he ho
  have hnew := Text.trim_indent_append_trim line x.toList
  refine ⟨text, _, x, line, _, htext, hpos, hline, hresult,
    toList_editedText_replaced hpos hline hhere, hingredient, hnew, ?_, fun hsingle => ?_⟩
  · rw [hnew]
    exact hother
  · rw [trim_line_replaced hpos hline hhere hsingle]
    exact hother

/-- A file in which only lines were replaced is not rendered as it was. -/
theorem file_ne_of_replacements {result : String}
    (hresult : files.lookup file = some result)
    (honly : ∀ e ∈ edits, e.location.file = file → e.operator = .replace) :
    tree.file? file ≠ some result := by
  intro hsame
  obtain ⟨⟨edit, hedit, rfl⟩, text, htext, -, rfl⟩ :=
    (EditScript.lookup_of_render hrender).mp hresult
  have hback := (script_of_selected htools hselected hscript).2
  have hreplace : ∀ e ∈ EditScript.editsOf ⟨script⟩ edit.location.file,
      ∃ t, e.2 = .replace t := by
    intro e he
    obtain ⟨edit', hedit', hfile, rfl⟩ := EditScript.mem_editsOf_iff.mp he
    obtain ⟨e, he, hplace, hkind⟩ := hback edit' hedit'
    exact hkind (honly e he ((congrArg Location.file hplace).trans hfile))
  obtain ⟨e, he, hplace, -⟩ := hback edit hedit
  have ho := honly e he (congrArg Location.file hplace)
  obtain ⟨text', line, x, htext', hpos, hline, hhere, -, -, hother⟩ :=
    exists_replaced_line htools hselected hscript hlines hrender he ho
  rw [hplace] at htext' hpos hline hhere
  obtain rfl := Option.some.inj (htext.symm.trans htext')
  exact editedText_ne_of_replaced hreplace hpos hline hhere hother
    (Option.some.inj (htext.symm.trans hsame)).symm

end Rendered

/-- The filter drops a point only if all its ingredients repeat its statement. -/
theorem repeats_of_dropped {c c' : Chromosome} (hequipped : ∀ p ∈ points, p.Equipped)
    (hc : c.Shaped points.length) (h : selectEdits points true none c = .ok (edits, c')) {i : ℕ}
    {p : Point} (hp : points[i]? = some p) (hactive : c.active[i]? = some true)
    (hdropped : i ∉ edits.map (·.point)) :
    p.ingredients ≠ [] ∧ ∀ x ∈ p.ingredients, p.Repeats x := by
  obtain ⟨proposals, -, hmem, hretains, -⟩ := selectEdits_proposals hequipped hc h
  obtain rfl : edits = proposals := hretains.sublist.eq_of_length hretains.length
  obtain ⟨n, o, k, hreads, hroom⟩ :=
    hc.exists_reads hp (hequipped p (List.mem_of_getElem? hp)) hactive
  obtain ⟨e, he, rfl⟩ | ⟨-, ho, hall, -⟩ := hreads.proposes_or_dropped hroom true
  · exact absurd (List.mem_map_of_mem ((hmem e).mpr he)) hdropped
  · exact ⟨hroom ho, hall⟩

/-- The filter leaves no replacement that changes nothing. Where the line of each point is its
statement up to blanks, and what is selected under the filter is rendered, each replacement has
put something else than its line in the place of that line; so a file in which lines were only
replaced is never rendered as it was. And the filter drops a point only if all its ingredients
repeat its statement. -/
theorem replacements_change_lines {catalog : List Point} {maxPoints : ℕ} {g g' : Random}
    {setup : Setup} {c : Chromosome}
    (hmodel : ProgramModel.ofCatalog catalog maxPoints g = .ok (setup.model, g'))
    (htools : tools.patch = linePatcher)
    (hlines : ∀ p ∈ setup.model.points, p.StandsIn setup.sources)
    (hc : c.Shaped setup.model.points.length) :
    (∀ limit, ∃ edits c', selectEdits setup.model.points true limit c = .ok (edits, c') ∧
      ∀ world files, (editedFiles setup tools edits world).1 = .ok files →
        ∃ script, (scriptOf tools setup.model.points edits world).1 = .ok script ∧
          (∀ e ∈ edits, e.operator = .replace →
            e.Alters setup.sources (EditScript.editsOf ⟨script⟩ e.location.file) files) ∧
          ∀ file result, files.lookup file = some result →
            (∀ e ∈ edits, e.location.file = file → e.operator = .replace) →
              setup.sources.file? file ≠ some result) ∧
    ∃ all c₁, selectEdits setup.model.points true none c = .ok (all, c₁) ∧
      ∀ i p, setup.model.points[i]? = some p → c.active[i]? = some true →
        i ∉ all.map (·.point) → p.ingredients ≠ [] ∧ ∀ x ∈ p.ingredients, p.Repeats x := by
  refine ⟨fun limit => ?_, ?_⟩
  · obtain ⟨⟨edits, c'⟩, hselect, -⟩ := Chromosome.yields_selectEdits hc true limit
    refine ⟨edits, c', hselect, fun world files hfiles => ?_⟩
    have hselected := selected_of_selectEdits hc hselect
    obtain ⟨script, world', hscript, hrender⟩ := editedFiles_eq_ok hfiles
    exact ⟨script, congrArg Prod.fst hscript,
      fun e he ho => alters_of_replace htools hselected hscript hlines hrender he ho,
      fun file result hresult honly =>
        file_ne_of_replacements htools hselected hscript hlines hrender hresult honly⟩
  · obtain ⟨⟨all, c₁⟩, hselect, -⟩ := Chromosome.yields_selectEdits hc true none
    exact ⟨all, c₁, hselect, fun i p hp hactive hdropped =>
      repeats_of_dropped (ProgramModel.equipped hmodel) hc hselect hp hactive hdropped⟩

end Files

/-- Two lines that may be replaced: the first one by itself or by another one, the second one by
itself alone. -/
def repeatedCatalog : List Point :=
  [⟨⟨"A.java", 1⟩, "x++;", 0.5, [⟨0, " x++;"⟩, ⟨1, "x--; "⟩], [.replace]⟩,
    ⟨⟨"A.java", 2⟩, "y++;", 0.5, [⟨0, "y++;"⟩], [.replace]⟩]

def repeatedSetup : Setup :=
  { oneLineSetup with
    model := ⟨repeatedCatalog.map Point.normalize⟩
    sources := SourceTree.ofFiles [("A.java", "\tx++;\r\n  y++;")] }

/-- With both points switched on the first line is rendered as its other ingredient, and the second
point is dropped. -/
theorem replacements_change_lines_of_repeated :
    ProgramModel.ofCatalog repeatedCatalog 40 (Random.ofSeed 0) =
        .ok (repeatedSetup.model, Random.ofSeed 0) ∧
      idleTools.patch = linePatcher ∧
      (∀ p ∈ repeatedSetup.model.points, p.StandsIn repeatedSetup.sources) ∧
      (⟨[true, true], [0, 0], [0, 0]⟩ : Chromosome).Shaped repeatedSetup.model.points.length ∧
      ∃ edits c', selectEdits repeatedSetup.model.points true none ⟨[true, true], [0, 0], [0, 0]⟩ =
          .ok (edits, c') ∧
        (editedFiles repeatedSetup idleTools edits ()).1 =
          .ok [("A.java", "\tx--;\r\n  y++;")] ∧
        repeatedSetup.sources.file? "A.java" ≠ some "\tx--;\r\n  y++;" ∧
        ∀ x ∈ repeatedSetup.model.points[1].ingredients,
          repeatedSetup.model.points[1].Repeats x := by
  let c : Chromosome := ⟨[true, true], [0, 0], [0, 0]⟩
  let edit : AppliedEdit := ⟨0, 0, .replace, some 1, ⟨"A.java", 1⟩, "x++;", some "x--; "⟩
  have hmodel : ProgramModel.ofCatalog repeatedCatalog 40 (Random.ofSeed 0) =
      .ok (repeatedSetup.model, Random.ofSeed 0) := rfl
  have hlines : ∀ p ∈ repeatedSetup.model.points, p.StandsIn repeatedSetup.sources := by
    intro p hp text line htext _ hline
    have hfile : repeatedSetup.sources.file? "A.java" = some "\tx++;\r\n  y++;" := by
      decide +kernel
    rcases List.mem_cons.mp hp with rfl | hp
    · obtain rfl := Option.some.inj (hfile.symm.trans htext)
      obtain rfl : line = "\tx++;".toList := Option.some.inj (hline.symm.trans (by decide +kernel))
      decide +kernel
    · obtain rfl := List.mem_singleton.mp hp
      obtain rfl := Option.some.inj (hfile.symm.trans htext)
      obtain rfl : line = "  y++;".toList := Option.some.inj (hline.symm.trans (by decide +kernel))
      decide +kernel
  have hshaped : c.Shaped repeatedSetup.model.points.length := ⟨rfl, rfl, rfl⟩
  have hselect : selectEdits repeatedSetup.model.points true none c =
      .ok ([edit], ⟨[true, false], [0, 0], [1, 0]⟩) := by
    decide +kernel
  have hfiles : (editedFiles repeatedSetup idleTools [edit] ()).1 =
      .ok [("A.java", "\tx--;\r\n  y++;")] := by
    decide +kernel
  have htools : idleTools.patch = linePatcher := rfl
  obtain ⟨hrender, all, c₁, hall, hdropped⟩ :=
    replacements_change_lines hmodel htools hlines hshaped
  obtain ⟨edits, c', hedits, hchanged⟩ := hrender none
  cases hselect.symm.trans hedits
  cases hselect.symm.trans hall
  obtain ⟨script, -, -, hother⟩ := hchanged () _ hfiles
  refine ⟨hmodel, htools, hlines, hshaped, _, _, hselect, hfiles, hother "A.java" _ rfl ?_,
    (hdropped 1 _ rfl rfl (by decide)).2⟩
  intro e he _
  rw [List.mem_singleton.mp he]

end PatchSearch
