import Mathlib.Data.List.Basic
import Mathlib.Data.List.DropRight
import Mathlib.Data.List.TakeWhile
import PatchSearch.Text.Basic

/-!
Lines of bytes and lines of characters. A line feed is the one byte 10 and no other character's
encoding has that byte, so encoding a text and splitting it at line feeds can be done in either
order. A text has its line feeds at the ends of its lines, so counting them counts the lines, and
what stands between two line breaks is read as a line. Trimming takes the blanks of line breaks
away.
-/
namespace PatchSearch.Text

/-- The lines of some bytes: what lies between line feeds. -/
def byteLines (bytes : ByteArray) : List (List UInt8) :=
  bytes.data.toList.splitOnP (· == 10)

theorem decode?_eq_some_iff (bytes : ByteArray) (s : String) :
    decode? bytes = some s ↔ s.toByteArray = bytes := by
  unfold decode? String.fromUTF8?
  split
  · next h =>
    rw [Option.some_inj, ← String.toByteArray_inj]
    exact eq_comm
  · next h =>
    constructor
    · intro hs
      cases hs
    · intro hs
      exact absurd (hs ▸ s.isValidUTF8) h

theorem bytes_toByteArray (s : String) :
    s.toByteArray.data.toList = s.toList.flatMap String.utf8EncodeChar := by
  rw [← String.utf8Encode_toList, List.utf8Encode]
  simp

/-- Texts with the same bytes are equal. -/
theorem eq_of_flatMap_utf8EncodeChar_eq {cs ds : List Char}
    (h : cs.flatMap String.utf8EncodeChar = ds.flatMap String.utf8EncodeChar) : cs = ds := by
  have hs : String.ofList cs = String.ofList ds := by
    rw [← String.toByteArray_inj, String.toByteArray_ofList, String.toByteArray_ofList,
      List.utf8Encode, List.utf8Encode, h]
  simpa using congrArg String.toList hs

/-- Encodings of characters beyond ASCII have no byte below 128. -/
theorem lineFeed_mem_utf8EncodeChar_iff (c : Char) :
    10 ∈ String.utf8EncodeChar c ↔ c = '\n' := by
  have hbyte (n : Nat) : (10 : UInt8) = UInt8.ofNat n ↔ n % 256 = 10 := by
    rw [← UInt8.toNat_inj, UInt8.toNat_ofNat']
    exact eq_comm
  have hchar : c = '\n' ↔ c.val.toNat = 10 := by
    rw [← Char.val_inj, ← UInt32.toNat_inj]
    rfl
  rw [hchar]
  unfold String.utf8EncodeChar
  dsimp only
  split
  · simp only [List.mem_singleton, hbyte]
    omega
  · split
    · simp only [List.mem_cons, List.not_mem_nil, or_false, hbyte]
      omega
    · split
      · simp only [List.mem_cons, List.not_mem_nil, or_false, hbyte]
        omega
      · simp only [List.mem_cons, List.not_mem_nil, or_false, hbyte]
        omega

theorem splitOnP_append_of_not_mem {β : Type} {p : β → Bool} {xs : List β}
    (h : ∀ x ∈ xs, p x = false) (ys : List β) :
    (xs ++ ys).splitOnP p = (ys.splitOnP p).modifyHead (xs ++ ·) := by
  induction xs with
  | nil =>
    cases hys : ys.splitOnP p <;> simp [hys]
  | cons x xs ih =>
    have hx : p x = false := h x (by simp)
    rw [List.cons_append, List.splitOnP_cons_eq_if_modifyHead, hx,
      ih fun y hy => h y (by simp [hy])]
    simp [List.modifyHead_modifyHead, Function.comp_def]

/-- Splitting the bytes of a text at line feeds gives the bytes of its parts. -/
theorem splitOnP_flatMap_utf8EncodeChar (cs : List Char) :
    (cs.flatMap String.utf8EncodeChar).splitOnP (· == 10) =
      (cs.splitOnP (· == '\n')).map fun line => line.flatMap String.utf8EncodeChar := by
  induction cs with
  | nil => rfl
  | cons c cs ih =>
    rw [List.flatMap_cons, List.splitOnP_cons_eq_if_modifyHead]
    by_cases hc : c = '\n'
    · subst hc
      have henc : String.utf8EncodeChar '\n' = [10] := rfl
      rw [henc, List.singleton_append, List.splitOnP_cons_eq_if_modifyHead, ih]
      simp
    · have hfree : ∀ b ∈ String.utf8EncodeChar c, (b == 10) = false := by
        intro b hb
        rw [beq_eq_false_iff_ne]
        rintro rfl
        exact hc ((lineFeed_mem_utf8EncodeChar_iff c).mp hb)
      rw [splitOnP_append_of_not_mem hfree, ih]
      cases cs.splitOnP (· == '\n') <;> simp [hc]

/-- A part between line feeds is a line, unless it is empty or its end counts as part of the line
break. -/
theorem mem_linesFrom (pending cs line : List Char)
    (h : line ∈ List.splitOnPPrepend (· == '\n') cs pending) (hne : line ≠ [])
    (hreturn : line.getLast? ≠ some '\r') : line ∈ linesFrom pending cs := by
  induction cs generalizing pending with
  | nil =>
    rw [List.splitOnPPrepend_nil, List.mem_singleton] at h
    subst h
    have hp : pending.isEmpty = false := by
      cases pending with
      | nil => exact absurd rfl hne
      | cons c cs => rfl
    simp [linesFrom, hp]
  | cons c cs ih =>
    unfold linesFrom
    rw [List.splitOnPPrepend_cons_eq_if] at h
    split
    · next hc =>
      rw [if_pos (by simp [hc]), List.mem_cons] at h
      rcases h with rfl | h
      · have hdrop : dropReturn pending = pending := by
          unfold dropReturn
          split
          · simp at hreturn
          · rfl
        simp [hdrop]
      · exact List.mem_cons_of_mem _ (ih [] h)
    · next hc =>
      rw [if_neg (by simp [hc])] at h
      exact ih (c :: pending) h

/-- A line of the bytes of a text that is by itself the encoding of a text other than the empty
one, and one that does not end in a carriage return, is a line of the text. -/
theorem mem_lines_of_mem_byteLines {bytes : ByteArray} {s t : String} {line : List UInt8}
    (hs : decode? bytes = some s) (hline : line ∈ byteLines bytes)
    (ht : decode? line.toByteArray = some t) (hne : t.toList ≠ [])
    (hreturn : t.toList.getLast? ≠ some '\r') : t.toList ∈ lines s.toList := by
  rw [decode?_eq_some_iff] at hs ht
  have hline' : line = t.toList.flatMap String.utf8EncodeChar := by
    rw [← bytes_toByteArray, ht]
    simp
  unfold byteLines at hline
  rw [← hs, bytes_toByteArray, splitOnP_flatMap_utf8EncodeChar, List.mem_map] at hline
  obtain ⟨part, hpart, hbytes⟩ := hline
  have heq : part = t.toList := eq_of_flatMap_utf8EncodeChar_eq (hbytes.trans hline')
  subst heq
  exact mem_linesFrom [] s.toList _ hpart hne hreturn

end PatchSearch.Text

/-!
Lines that are joined again. A line holds no line feed, and between line feeds without carriage
returns it does not end in a carriage return either. Such lines, each with a line break after it,
are the lines of the text that they make.
-/
namespace PatchSearch.Text

theorem hasReturnBreak_iff (cs : List Char) :
    hasReturnBreak cs = true ↔ ['\r', '\n'] <:+: cs := by
  fun_induction hasReturnBreak cs with
  | case1 cs => simpa using List.IsPrefix.isInfix (List.prefix_append ['\r', '\n'] cs)
  | case2 c cs hnot ih =>
    rw [ih, List.infix_cons_iff, iff_or_self]
    rintro ⟨rest, hrest⟩
    rw [List.cons_append, List.cons_append, List.nil_append] at hrest
    cases hrest
    exact (hnot rest rfl rfl).elim
  | case3 => simp

theorem joinWith_eq_intercalate (separator : List Char) (ls : List (List Char)) :
    joinWith separator ls = List.intercalate separator ls := by
  fun_induction joinWith separator ls with
  | case1 => rfl
  | case2 l => simp [List.intercalate]
  | case3 l l' ls ih =>
    rw [ih, List.intercalate, List.intercalate, List.intersperse_cons_cons, List.flatten_cons,
      List.flatten_cons, List.append_assoc]

theorem lineBreak_cases (cs : List Char) :
    lineBreak cs = ['\n'] ∧ ¬ ['\r', '\n'] <:+: cs ∨
      lineBreak cs = ['\r', '\n'] ∧ ['\r', '\n'] <:+: cs := by
  unfold lineBreak
  split
  · next h => exact Or.inr ⟨rfl, (hasReturnBreak_iff cs).mp h⟩
  · next h => exact Or.inl ⟨rfl, fun hinfix => h ((hasReturnBreak_iff cs).mpr hinfix)⟩

/-- A line that a line break after it leaves as it is. -/
structure Unbroken (separator line : List Char) : Prop where
  noFeed : '\n' ∉ line
  noReturn : separator = ['\n'] → line.getLast? ≠ some '\r'

theorem dropReturn_eq_self {cs : List Char} (h : cs.head? ≠ some '\r') : dropReturn cs = cs := by
  unfold dropReturn
  split
  · simp at h
  · rfl

/-- What is read up to a line feed is a line. -/
theorem linesFrom_append_feed {line : List Char} (h : '\n' ∉ line) (pending cs : List Char) :
    linesFrom pending (line ++ '\n' :: cs) =
      (dropReturn (line.reverse ++ pending)).reverse :: lines cs := by
  induction line generalizing pending with
  | nil => rw [List.nil_append, linesFrom, if_pos rfl, List.reverse_nil, List.nil_append, lines]
  | cons c line ih =>
    have hc : c ≠ '\n' := (List.ne_of_not_mem_cons h).symm
    rw [List.cons_append, linesFrom, if_neg hc, ih (List.not_mem_of_not_mem_cons h),
      List.reverse_cons, List.append_assoc, List.singleton_append]

theorem Unbroken.lines_append {separator line : List Char}
    (hseparator : separator = ['\n'] ∨ separator = ['\r', '\n']) (h : Unbroken separator line)
    (cs : List Char) : lines (line ++ separator ++ cs) = line :: lines cs := by
  unfold lines
  obtain rfl | rfl := hseparator
  · have hlast := h.noReturn rfl
    rw [← List.head?_reverse] at hlast
    rw [List.append_assoc, List.singleton_append, linesFrom_append_feed h.noFeed,
      List.append_nil, dropReturn_eq_self hlast, List.reverse_reverse, lines]
  · have hfeed : '\n' ∉ line ++ ['\r'] := by
      rw [List.mem_append, not_or]
      exact ⟨h.noFeed, by decide⟩
    have hsplit : line ++ ['\r', '\n'] ++ cs = (line ++ ['\r']) ++ '\n' :: cs := by simp
    rw [hsplit, linesFrom_append_feed hfeed, List.append_nil, List.reverse_append,
      List.reverse_singleton, List.singleton_append, dropReturn, List.reverse_reverse, lines]

/-- Joined lines with a line break at the end are read as they were. -/
theorem lines_joinWith {separator : List Char}
    (hseparator : separator = ['\n'] ∨ separator = ['\r', '\n']) {ls : List (List Char)}
    (hne : ls ≠ []) (h : ∀ l ∈ ls, Unbroken separator l) :
    lines (joinWith separator ls ++ separator) = ls := by
  fun_induction joinWith separator ls with
  | case1 => exact absurd rfl hne
  | case2 l =>
    have hread := (h l (List.mem_singleton_self l)).lines_append hseparator []
    rwa [List.append_nil, lines_nil] at hread
  | case3 l l' ls ih =>
    obtain ⟨hl, hrest⟩ := List.forall_mem_cons.mp h
    rw [List.append_assoc _ _ separator, hl.lines_append hseparator,
      ih (List.cons_ne_nil l' ls) hrest]

theorem dropReturn_isSuffix (cs : List Char) : dropReturn cs <:+ cs := by
  unfold dropReturn
  split
  · exact List.suffix_cons _ _
  · exact List.suffix_rfl

theorem not_mem_of_mem_linesFrom {pending cs line : List Char} (hpending : '\n' ∉ pending)
    (h : line ∈ linesFrom pending cs) : '\n' ∉ line := by
  fun_induction linesFrom pending cs with
  | case1 => cases h
  | case2 pending =>
    rwa [List.mem_singleton.mp h, List.mem_reverse]
  | case3 pending cs ih =>
    rcases List.mem_cons.mp h with rfl | h
    · rw [List.mem_reverse]
      exact fun hmem => hpending ((dropReturn_isSuffix pending).subset hmem)
    · exact ih List.not_mem_nil h
  | case4 pending c cs hc ih =>
    refine ih ?_ h
    rw [List.mem_cons, not_or]
    exact ⟨Ne.symm hc, hpending⟩

/-- Without line breaks that have a carriage return, only a last line without a line break can end
in one. -/
theorem getLast?_of_mem_linesFrom (pending cs : List Char) {line : List Char}
    (hbreak : ¬ ['\r', '\n'] <:+: pending.reverse ++ cs)
    (hend : ∀ c, (pending.reverse ++ cs).getLast? = some c → c = '\n')
    (h : line ∈ linesFrom pending cs) : line.getLast? ≠ some '\r' := by
  fun_induction linesFrom pending cs with
  | case1 => cases h
  | case2 pending =>
    rw [List.mem_singleton.mp h]
    intro hreturn
    rw [List.append_nil] at hend
    exact absurd (hend _ hreturn) (by decide)
  | case3 pending cs ih =>
    rcases List.mem_cons.mp h with rfl | h
    · have hhead : pending.head? ≠ some '\r' := by
        rintro hreturn
        obtain ⟨rest, rfl⟩ := List.head?_eq_some_iff.mp hreturn
        exact hbreak ⟨rest.reverse, cs, by simp⟩
      rwa [dropReturn_eq_self hhead, List.getLast?_reverse]
    · refine ih (fun hinfix => hbreak ?_) (fun c hc => hend c ?_) h
      · exact hinfix.trans ⟨pending.reverse ++ ['\n'], [], by simp⟩
      · rw [List.reverse_nil, List.nil_append] at hc
        simp [List.getLast?_cons, hc]
  | case4 pending c cs hc ih =>
    rw [List.reverse_cons, List.append_assoc, List.singleton_append] at ih
    exact ih hbreak hend h

/-- The lines of a text that ends in a line break are left as they are by its line breaks. -/
theorem unbroken_of_mem_lines {cs line : List Char} (hend : cs.getLast? = some '\n')
    (h : line ∈ lines cs) : Unbroken (lineBreak cs) line := by
  refine ⟨not_mem_of_mem_linesFrom List.not_mem_nil h, fun hfeed => ?_⟩
  obtain ⟨-, hbreak⟩ | ⟨hreturn, -⟩ := lineBreak_cases cs
  · have hends : ∀ c, (([] : List Char).reverse ++ cs).getLast? = some c → c = '\n' := by
      intro c hc
      rw [List.reverse_nil, List.nil_append, hend] at hc
      exact (Option.some.inj hc).symm
    exact getLast?_of_mem_linesFrom [] cs hbreak hends h
  · rw [hreturn] at hfeed
    cases hfeed

/-- The last character of a trimmed text is not blank. -/
theorem getLast?_trim (cs : List Char) (c : Char) (h : (trim cs).getLast? = some c) :
    isBlank c = false := by
  unfold trim trimEnd at h
  rw [List.getLast?_reverse] at h
  simpa [h] using List.head?_dropWhile_not isBlank (trimStart cs).reverse

theorem trim_subset (cs : List Char) : trim cs ⊆ cs := by
  unfold trim trimEnd trimStart
  intro c hc
  rw [List.mem_reverse] at hc
  exact (List.dropWhile_suffix isBlank).subset
    (List.mem_reverse.mp ((List.dropWhile_suffix isBlank).subset hc))

theorem trim_ne_nil {cs : List Char} {c : Char} (hc : c ∈ cs) (hblank : isBlank c = false) :
    trim cs ≠ [] := by
  intro hnil
  unfold trim trimEnd at hnil
  rw [List.reverse_eq_nil_iff, List.dropWhile_eq_nil_iff] at hnil
  have hall : isBlank c = true := by
    rw [← indent_append_trimStart cs] at hc
    rcases List.mem_append.mp hc with hc | hc
    · exact List.mem_takeWhile_imp hc
    · exact hnil c (List.mem_reverse.mpr hc)
  rw [hblank] at hall
  cases hall

/-- A text that is not blank, indented like a line and trimmed, is left as it is by any line
break. -/
theorem unbroken_indent_append_trim {line cs : List Char} (separator : List Char)
    (hline : '\n' ∉ line) (hcs : '\n' ∉ cs) (hsome : ∃ c ∈ cs, isBlank c = false) :
    Unbroken separator (indent line ++ trim cs) := by
  obtain ⟨c, hc, hblank⟩ := hsome
  refine ⟨?_, fun _ hreturn => ?_⟩
  · rw [List.mem_append, not_or]
    exact ⟨fun hmem => hline ((List.takeWhile_prefix isBlank).subset hmem),
      fun hmem => hcs (trim_subset cs hmem)⟩
  · rw [List.getLast?_append_of_ne_nil _ (trim_ne_nil hc hblank)] at hreturn
    exact absurd (getLast?_trim cs '\r' hreturn) (by decide)

section Trimming

variable {cs bs : List Char}

theorem trim_append_of_blank (h : ∀ c ∈ bs, isBlank c = true) : trim (cs ++ bs) = trim cs := by
  have hend (xs : List Char) : trimEnd (xs ++ bs) = trimEnd xs := by
    unfold trimEnd
    rw [List.reverse_append, List.dropWhile_append_of_pos]
    simpa using h
  unfold trim trimStart
  rw [List.dropWhile_append]
  split
  · next hempty =>
    rw [List.isEmpty_iff.mp hempty, List.dropWhile_eq_nil_iff.mpr h]
  · exact hend _

theorem trim_append_of_blank_left (h : ∀ c ∈ bs, isBlank c = true) :
    trim (bs ++ cs) = trim cs := by
  unfold trim trimStart
  rw [List.dropWhile_append_of_pos h]

theorem trimStart_trim (cs : List Char) : trimStart (trim cs) = trim cs := by
  have hprefix : trim cs <+: trimStart cs := List.rdropWhile_prefix isBlank _
  cases htrim : trim cs with
  | nil => rfl
  | cons c rest =>
    obtain ⟨more, hmore⟩ := hprefix
    rw [htrim] at hmore
    have hblank : isBlank c = false := by
      have hhead := List.head?_dropWhile_not isBlank cs
      rw [show cs.dropWhile isBlank = c :: (rest ++ more) from hmore.symm] at hhead
      simpa using hhead
    simp [trimStart, hblank]

theorem trim_trim (cs : List Char) : trim (trim cs) = trim cs := by
  rw [trim, trimStart_trim]
  exact List.rdropWhile_idempotent isBlank _

/-- Indented like a line, a trimmed text is still that text. -/
theorem trim_indent_append_trim (line cs : List Char) : trim (indent line ++ trim cs) = trim cs :=
  (trim_append_of_blank_left fun _ hc => List.mem_takeWhile_imp hc).trans (trim_trim cs)

/-- The carriage return that a line break takes with it is blank. -/
theorem trim_dropReturn (cs : List Char) : trim (dropReturn cs.reverse).reverse = trim cs := by
  unfold dropReturn
  split
  · next rest hreturn =>
    have hcs : cs = rest.reverse ++ ['\r'] := by
      rw [← List.reverse_reverse cs, hreturn, List.reverse_cons]
    rw [hcs, trim_append_of_blank (by simp; decide)]
  · rw [List.reverse_reverse]

end Trimming

section Feeds

theorem linesFrom_append_cons_feed (pending front cs : List Char) :
    linesFrom pending (front ++ '\n' :: cs) = linesFrom pending (front ++ ['\n']) ++ lines cs := by
  induction front generalizing pending with
  | nil => simp [linesFrom, lines]
  | cons c front ih =>
    rw [List.cons_append, List.cons_append, linesFrom, linesFrom]
    split
    · rw [ih, List.cons_append]
    · exact ih _

/-- The lines up to a line feed and those after it are read apart. -/
theorem lines_append_cons_feed (front cs : List Char) :
    lines (front ++ '\n' :: cs) = lines (front ++ ['\n']) ++ lines cs :=
  linesFrom_append_cons_feed [] front cs

theorem linesFrom_of_not_mem {line : List Char} (h : '\n' ∉ line) (pending : List Char) :
    linesFrom pending line = linesFrom (line.reverse ++ pending) [] := by
  induction line generalizing pending with
  | nil => rfl
  | cons c line ih =>
    have hc : c ≠ '\n' := (List.ne_of_not_mem_cons h).symm
    have hstep : linesFrom pending (c :: line) = linesFrom (c :: pending) line := if_neg hc
    rw [hstep, ih (List.not_mem_of_not_mem_cons h), List.reverse_cons, List.append_assoc,
      List.singleton_append]

/-- A text has a line for each line feed, and one more if it does not end there. -/
theorem length_linesFrom {pending cs : List Char} (hpending : '\n' ∉ pending)
    (hne : pending.reverse ++ cs ≠ []) : (linesFrom pending cs).length =
      cs.count '\n' + if endsWithBreak (pending.reverse ++ cs) then 0 else 1 := by
  fun_induction linesFrom pending cs with
  | case1 pending hempty => simp_all
  | case2 pending hsome =>
    obtain _ | ⟨c, pending⟩ := pending
    · exact absurd rfl hsome
    · have hc : c ≠ '\n' := (List.ne_of_not_mem_cons hpending).symm
      simp [endsWithBreak, hc]
  | case3 pending cs ih =>
    by_cases hcs : cs = []
    · subst hcs
      simp [linesFrom, endsWithBreak]
    · have hend : endsWithBreak (pending.reverse ++ '\n' :: cs) = endsWithBreak cs := by
        unfold endsWithBreak
        rw [List.getLast?_append_of_ne_nil _ (List.cons_ne_nil _ _), ← List.singleton_append,
          List.getLast?_append_of_ne_nil _ hcs]
      have hlater := ih List.not_mem_nil (by simpa using hcs)
      rw [List.length_cons, hlater, hend, List.count_cons_self, List.reverse_nil, List.nil_append]
      omega
  | case4 pending c cs hc ih =>
    have hpending' : '\n' ∉ c :: pending := by
      rw [List.mem_cons, not_or]
      exact ⟨Ne.symm hc, hpending⟩
    have hsame : (c :: pending).reverse ++ cs = pending.reverse ++ c :: cs := by simp
    rw [ih hpending' (hsame ▸ hne), hsame, List.count_cons_of_ne hc]

theorem length_lines {cs : List Char} (hne : cs ≠ []) :
    (lines cs).length = cs.count '\n' + if endsWithBreak cs then 0 else 1 :=
  length_linesFrom List.not_mem_nil hne

section Between

variable {new back : List Char} (hnew : '\n' ∉ new)
  (hback : back = [] ∨ ∃ returns rest, back = returns ++ '\n' :: rest ∧ '\n' ∉ returns ∧
    ∀ c ∈ returns, isBlank c = true)
include hnew hback

/-- What stands before the first line break is the first line, up to the blanks around it. -/
theorem trim_first_line : trim ((lines (new ++ back))[0]?.getD []) = trim new := by
  rcases hback with rfl | ⟨returns, rest, rfl, hreturns, hblank⟩
  · rw [List.append_nil, lines, linesFrom_of_not_mem hnew, List.append_nil, linesFrom]
    split
    · next hempty =>
      rw [List.reverse_eq_nil_iff.mp (List.isEmpty_iff.mp hempty)]
      rfl
    · rw [List.getElem?_cons_zero, Option.getD_some, List.reverse_reverse]
  · have hunbroken : '\n' ∉ new ++ returns := by
      rw [List.mem_append, not_or]
      exact ⟨hnew, hreturns⟩
    rw [← List.append_assoc, lines, linesFrom_append_feed hunbroken, List.append_nil,
      List.getElem?_cons_zero, Option.getD_some, trim_dropReturn, trim_append_of_blank hblank]

/-- What stands alone on a line is read as that line, up to the blanks around it. -/
theorem trim_line_between {front : List Char}
    (hfront : front = [] ∨ ∃ rest, front = rest ++ ['\n']) :
    trim ((lines (front ++ (new ++ back)))[front.count '\n']?.getD []) = trim new := by
  have hhere := trim_first_line hnew hback
  rcases hfront with rfl | ⟨rest, rfl⟩
  · exact hhere
  · have hcount : (lines (rest ++ ['\n'])).length = (rest ++ ['\n']).count '\n' := by
      have hend : endsWithBreak (rest ++ ['\n']) = true := by simp [endsWithBreak]
      rw [length_lines (List.concat_ne_nil _ _), hend, if_pos rfl, Nat.add_zero]
    rw [← hcount, List.append_assoc, List.singleton_append, lines_append_cons_feed,
      List.getElem?_append_right le_rfl, Nat.sub_self]
    exact hhere

end Between

/-- A line break is a line feed, with a blank before it or none. -/
theorem lineBreak_eq (cs : List Char) : ∃ returns, lineBreak cs = returns ++ ['\n'] ∧
    '\n' ∉ returns ∧ ∀ c ∈ returns, isBlank c = true := by
  obtain ⟨hbreak, -⟩ | ⟨hbreak, -⟩ := lineBreak_cases cs
  · exact ⟨[], hbreak, List.not_mem_nil, nofun⟩
  · exact ⟨['\r'], hbreak, by decide, List.forall_mem_singleton.mpr (by decide)⟩

theorem count_lineBreak (cs : List Char) : (lineBreak cs).count '\n' = 1 := by
  obtain ⟨hbreak, -⟩ | ⟨hbreak, -⟩ := lineBreak_cases cs <;> rw [hbreak] <;> rfl

end Feeds

section Joined

variable {separator : List Char}

theorem joinWith_cons (separator l : List Char) (ls : List (List Char)) :
    joinWith separator (l :: ls) = l ++ ls.flatMap (separator ++ ·) := by
  induction ls generalizing l with
  | nil => simp [joinWith]
  | cons l' ls ih => rw [joinWith, ih, List.flatMap_cons, List.append_assoc, List.append_assoc]

/-- Joined lines, taken apart at one of them. -/
theorem joinWith_append_cons (separator l : List Char) (above below : List (List Char)) :
    joinWith separator (above ++ l :: below) =
      above.flatMap (· ++ separator) ++ (l ++ below.flatMap (separator ++ ·)) := by
  induction above with
  | nil => exact joinWith_cons separator l below
  | cons a above ih =>
    obtain ⟨l', ls, hls⟩ := List.exists_cons_of_ne_nil (List.append_ne_nil_of_right_ne_nil above
      (List.cons_ne_nil l below))
    rw [List.cons_append, hls, joinWith, ← hls, ih, List.flatMap_cons]
    simp only [List.append_assoc]

/-- Lines, each with its line break, have their own line feeds and one for each line. -/
theorem count_closed (hseparator : separator.count '\n' = 1) (ls : List (List Char)) :
    (ls.flatMap (· ++ separator)).count '\n' = ls.flatten.count '\n' + ls.length := by
  induction ls with
  | nil => rfl
  | cons l ls ih =>
    rw [List.flatMap_cons, List.count_append, List.count_append, hseparator, ih, List.flatten_cons,
      List.count_append, List.length_cons]
    omega

/-- Joined lines have their own line feeds and those that set them apart. -/
theorem count_joinWith (hseparator : separator.count '\n' = 1) {ls : List (List Char)}
    (hne : ls ≠ []) :
    (joinWith separator ls).count '\n' + 1 = ls.flatten.count '\n' + ls.length := by
  obtain ⟨above, last, rfl⟩ := (List.eq_nil_or_concat' ls).resolve_left hne
  rw [joinWith_append_cons, List.flatMap_nil, List.append_nil, List.count_append,
    count_closed hseparator, List.flatten_append, List.flatten_singleton, List.count_append,
    List.length_append, List.length_singleton]
  omega

end Joined

end PatchSearch.Text
