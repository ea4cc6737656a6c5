import PatchSearch.Shell.Regex.Reader
import PatchSearch.Shell.Utility.Dump
import PatchSearch.Shell.Utility.Print

/-!
Splitting an input into files: `split` makes files of so many lines, of so many octets or of equal
shares, and `csplit` cuts where lines match.
-/
namespace PatchSearch.Shell

open Run

/-- How the parts of an input are found. -/
inductive SplitRule where
  | lines (n : Nat)
  | octets (n : Nat)
  | fullLines (n : Nat)
  | shares (n : Nat)
  | lineShares (n : Nat)
  | turns (n : Nat)

/-- Items taken by so many at a time. -/
def portions {β : Type} (size : Nat) : Nat → List β → List (List β)
  | 0, _ => []
  | _, [] => []
  | n + 1, items => items.take size :: portions size n (items.drop size)

/-- Lines taken together as long as they have at most so many octets; a longer line is cut. -/
def fullLinePortions (size : Nat) : Nat → List Char → List (List Char)
  | 0, _ => []
  | _, [] => []
  | n + 1, cs =>
    let window := cs.take size
    let kept := if window.length < size then window
      else
        let front := (window.reverse.dropWhile (· != '\n')).reverse
        if front.isEmpty then window else front
    kept :: fullLinePortions size n (cs.drop kept.length)

/-- The ends of equal shares of a size; the last share takes what is left. -/
def shareEnds (size n : Nat) : List Nat :=
  (List.range n).map fun i => if i + 1 = n then size else (i + 1) * (size / n)

/-- Shares of whole lines: a line belongs to the share that it starts in. -/
def sharesOfLines (lines : List String) (ends : List Nat) : List String :=
  let starts := lines.foldl (fun (state : Nat × List (Nat × String)) l =>
    (state.1 + l.length, (state.1, l) :: state.2)) (0, [])
  let placed := starts.2.reverse
  (ends.zip (0 :: ends)).map fun (high, low) =>
    String.join ((placed.filter fun p => low ≤ p.1 && p.1 < high).map Prod.snd)

/-- The parts of a text. -/
def SplitRule.parts (rule : SplitRule) (ending : Char) (s : String) : List String :=
  let lines :=
    let ls := linesEndedBy ending s
    ls.zipIdx.map fun (l, i) =>
      if i + 1 = ls.length && !s.endsWith (String.singleton ending) then l else l.push ending
  match rule with
  | .lines n => (portions n (lines.length + 1) lines).map String.join
  | .octets n => (portions n (s.length + 1) s.toList).map String.ofList
  | .fullLines n => (fullLinePortions n (s.length + 1) s.toList).map String.ofList
  | .shares n =>
    let ends := shareEnds s.length n
    (ends.zip (0 :: ends)).map fun (high, low) => String.ofList ((s.toList.take high).drop low)
  | .lineShares n => sharesOfLines lines (shareEnds s.length n)
  | .turns n => (List.range n).map fun k =>
      String.join ((lines.zipIdx.filter fun p => p.2 % n == k).map Prod.fst)

/-- How the names of parts are made. -/
structure PartNames where
  front : String := "x"
  digits : List Char := "abcdefghijklmnopqrstuvwxyz".toList
  length : Nat := 2
  /-- Whether names become longer when they run out. -/
  grows : Bool := true
  start : Nat := 0
  behind : String := ""

namespace PartNames

/-- A number in the digits of names. -/
def spelled (p : PartNames) : Nat → Nat → List Char
  | 0, _ => []
  | n + 1, k =>
    p.spelled n (k / p.digits.length) ++ [(p.digits[k % p.digits.length]?).getD 'a']

/-- The name of a part; nothing if names have run out. Names that grow keep the last digit of each
length for the longer ones. -/
def name? (p : PartNames) : Nat → Nat → String → Nat → Option String
  | 0, _, _, _ => none
  | n + 1, length, front, k =>
    let base := p.digits.length
    let room := if p.grows then Nat.pow base (length - 1) * (base - 1) else Nat.pow base length
    if k < room then
      some (p.front ++ front ++ String.ofList (p.spelled length k) ++ p.behind)
    else if p.grows then
      p.name? n (length + 1) (front.push (p.digits.getLastD 'z')) (k - room)
    else none

/-- The name of a part. -/
def get? (p : PartNames) (k : Nat) : Option String :=
  p.name? 20 p.length "" (p.start + k)

example : ({} : PartNames).get? 0 = some "xaa" := by decide +kernel

example : ({} : PartNames).get? 650 = some "xzaaa" := by decide +kernel

end PartNames

/-- What `split` understands. -/
def splitOptions : OptionNames :=
  { plain := "deuxν", valued := "abClntσφ", attached := "δη", counting := some 'l'
    long := [("lines", 'l'), ("bytes", 'b'), ("line-bytes", 'C'), ("number", 'n'),
      ("suffix-length", 'a'), ("additional-suffix", 'σ'), ("numeric-suffixes", 'δ'),
      ("hex-suffixes", 'η'), ("elide-empty-files", 'e'), ("verbose", 'ν'), ("separator", 't'),
      ("unbuffered", 'u'), ("filter", 'φ')] }

/-- The rule that options ask for, and the part that alone is written, if there is one. -/
def splitRuleOf (o : Options) : Run (SplitRule × Option Nat) := do
  let rules := o.flags.filter fun f => ['l', 'b', 'C', 'n'].contains f.1
  if 1 < rules.length && !(rules.all (·.1 == 'l')) then
    misuse "split" 1 "cannot split in more than one way"
  let most : Int := 0x7fffffffffffffff
  let size (s : String) : Run Nat := do
    match octetCount? s with
    | some n =>
      if n = 0 then
        fail "split" 1 ("invalid number of bytes: " ++ cited s ++
          ": Numerical result out of range")
      return n
    | none => fail "split" 1 ("invalid number of bytes: " ++ cited s)
  match rules.getLast? with
  | none => return (.lines 1000, none)
  | some ('l', s) =>
    return (.lines (← decimalWithin "split" "invalid number of lines" 1 most s).toNat, none)
  | some ('b', s) => return (.octets (← size s), none)
  | some ('C', s) => return (.fullLines (← size s), none)
  | some (_, s) =>
    let (kind, rest) := match s.toList with
      | 'l' :: '/' :: rest => ('l', String.ofList rest)
      | 'r' :: '/' :: rest => ('r', String.ofList rest)
      | _ => ('n', s)
    let chunks (t : String) : Run Nat := do
      return (← decimalWithin "split" "invalid number of chunks" 1 most t).toNat
    let (n, only) ← match rest.splitOn "/" with
      | [k, n] => do
        let n ← chunks n
        let k ← decimalWithin "split" "invalid chunk number" 1 n k
        pure (n, some (k.toNat - 1))
      | _ => do pure (← chunks rest, none)
    return (if kind == 'l' then .lineShares n else if kind == 'r' then .turns n else .shares n, only)

/-- The names that options ask for. -/
def partNamesOf (o : Options) (front : String) (rule : SplitRule) : Run PartNames := do
  let length ← match o.value? 'a' with
    | none => pure 0
    | some s => do
      pure (← decimalWithin "split" "invalid suffix length" 0 0x7fffffff s).toNat
  let kind := o.last? ['d', 'x', 'δ', 'η']
  let digits := match kind with
    | some 'd' => "0123456789".toList
    | some 'δ' => "0123456789".toList
    | some _ => "0123456789abcdef".toList
    | none => "abcdefghijklmnopqrstuvwxyz".toList
  let start ← match kind with
    | some 'δ' => pure ((o.value? 'δ').getD "")
    | some 'η' => pure ((o.value? 'η').getD "")
    | _ => pure ""
  let count := match rule with
    | .shares n => n
    | .lineShares n => n
    | .turns n => n
    | _ => 0
  let needed := (List.range 12).find? fun k => count ≤ Nat.pow digits.length k
  let first := ((Arithmetic.numeral? (if kind == some 'η' then ("0x" ++ start).toList
    else start.toList)).map Prod.fst).getD 0
  let behind := (o.value? 'σ').getD ""
  if behind.toList.contains '/' then
    misuse "split" 1 ("invalid suffix " ++ cited behind ++ ", contains directory separator")
  return { front, digits
           length := if length != 0 then length else max 2 (needed.getD 2)
           grows := length = 0 && start.isEmpty && count = 0
           start := first, behind }

/-- `split`. -/
def splitInput : Utility :=
  withOptions "split" splitOptions fun o => do
    let (rule, only) ← splitRuleOf o
    let ending ← match o.value? 't' with
      | none => pure '\n'
      | some s =>
        match s.toList with
        | [c] => pure c
        | ['\\', '0'] => pure '\x00'
        | [] => fail "split" 1 "empty record separator"
        | _ => fail "split" 1 ("multi-character separator " ++ cited s)
    if let some extra := o.operands[2]? then misuse "split" 1 ("extra operand " ++ cited extra)
    let names ← partNamesOf o ((o.operands[1]?).getD "x") rule
    let input := o.operands.headD "-"
    match ← openInput input with
    | .error e =>
      fail "split" 1 ("cannot open " ++ inQuotes input ++ " for reading: " ++ causeText e)
    | .ok none => fail "split" 1 (shownName input ++ ": Bad file descriptor")
    | .ok (some c) =>
      match ← readAll c with
      | .error e => fail "split" 1 (shownName input ++ ": " ++ e.message)
      | .ok s =>
        let parts := rule.parts ending s
        let parts := if o.has 'e' then parts.filter (!·.isEmpty) else parts
        match only with
        | some k => emit "split" ((parts[k]?).getD "")
        | none =>
          for (part, k) in parts.zipIdx do
            match names.get? k with
            | none => fail "split" 1 "output file suffixes exhausted"
            | some name =>
              if o.has 'ν' then emit "split" ("creating file " ++ inQuotes name ++ "\n")
              if let .error cause ← storeText name part then
                fail "split" 1 (shownName name ++ ": " ++ cause)

/-- Where `csplit` cuts: at a line, or a few lines from the next one that matches; what lies in
front of a cut may be left out. -/
inductive Cut where
  | line (n : Nat) (text : String)
  | matching (r : Regex) (offset : Int) (keeps : Bool) (text : String)

/-- A cut and how often it is repeated; as often as it matches if that is nothing. -/
structure RepeatedCut where
  cut : Cut
  repeats : Option Nat := some 0

/-- A cut from its text. -/
def readCut (s : String) : Except String Cut := do
  let pattern (mark : Char) (cs : List Char) : Except String Cut := do
    let shown := String.singleton mark
    let reversed := cs.reverse
    let behind := reversed.takeWhile (· != mark)
    match reversed.drop behind.length with
    | _ :: body =>
      let source := String.ofList body.reverse
      let offset := String.ofList behind.reverse
      let r ← match Regex.read (RegexStyle.basic true) source with
        | .ok r => pure r
        | .error fault => throw (cited s ++ ": invalid regular expression: " ++ fault)
      if offset.isEmpty then return .matching r 0 (mark == '/') s
      match integer? offset with
      | some n => return .matching r n (mark == '/') s
      | none => throw (cited s ++ ": integer expected after delimiter")
    | [] => throw (s ++ ": closing delimiter \x27" ++ shown ++ "\x27 missing")
  match s.toList with
  | '/' :: cs => pattern '/' cs
  | '%' :: cs => pattern '%' cs
  | _ =>
    let number := String.ofList (s.toList.dropWhile isSpace)
    match if number.startsWith "-" then none else integer? number with
    | some n =>
      if n = 0 then throw (s ++ ": line number must be greater than zero")
      return .line n.toNat s
    | none => throw (cited s ++ ": invalid pattern")

/-- How often a cut is repeated, from a text in braces. -/
def readRepeats (t : String) : Except String (Option Nat) := do
  let body := String.ofList (t.toList.drop 1)
  if !body.endsWith "\x7d" then throw (cited t ++ ": \x27\x7d\x27 is required in repeat count")
  let count := String.ofList body.toList.dropLast
  if count == "*" then return none
  match if count.trimAsciiStart.startsWith "-" then none else integer? count with
  | some n => return some n.toNat
  | none =>
    throw (cited (String.ofList t.toList.dropLast) ++
      "\x7d: integer required between \x27\x7b\x27 and \x27\x7d\x27")

/-- A cut at a line must not lie in front of the one given before it. -/
def cutOrder (last : Nat) : Cut → Run Nat
  | .line n text => do
    if n < last then
      fail "csplit" 1 ("line number " ++ cited text ++
        " is smaller than preceding line number, " ++ toString last)
    if n = last then
      warn "csplit" ("warning: line number " ++ cited text ++
        " is the same as preceding line number")
    return n
  | .matching .. => return last

/-- Cuts with their repetitions. -/
def readCuts (last : Nat) : List String → Run (List RepeatedCut)
  | [] => return []
  | s :: rest => do
    let cut ← match readCut s with
      | .ok cut => pure cut
      | .error text => fail "csplit" 1 text
    let last ← cutOrder last cut
    match rest with
    | [] => return [{ cut }]
    | t :: rest' =>
      if t.startsWith "\x7b" then
        match readRepeats t with
        | .ok repeats => return ⟨cut, repeats⟩ :: (← readCuts last rest')
        | .error text => fail "csplit" 1 text
      else return { cut } :: (← readCuts last (t :: rest'))

/-- Why a run of `csplit` stops early. -/
structure CutFault where
  text : String
  /-- Whether the sizes of the parts finished so far are written in front of the message. -/
  flushes : Bool := false
  /-- Whether the last part is left unfinished, and all parts stay. -/
  abandons : Bool := false

/-- What a run of `csplit` leaves: the parts that are written, and why it stops early. -/
structure CutResult where
  parts : List String := []
  fault : Option CutFault := none

/-- Cuts a list of lines. `position` counts the lines in front of `lines`, and lines in front of
`searchFrom` were searched before. -/
def cutLinesAt (drops : Bool) :
    Nat → List RepeatedCut → Nat → Nat → Nat → List String → CutResult
  | 0, _, _, _, _, lines => { parts := [String.join lines] }
  | _, [], _, _, _, lines => { parts := [String.join lines] }
  | n + 1, c :: cuts, done, position, searchFrom, lines =>
    let total := position + lines.length
    let suffix := if done = 0 then "" else " on repetition " ++ toString done
    let goOn (kept : Bool) (cutAt : Nat) (search : Nat) : CutResult :=
      let part := String.join (lines.take (cutAt - position))
      let behind := if drops then cutAt + 1 else cutAt
      let rest := lines.drop (behind - position)
      let next := if c.repeats.all (done < ·) then
          cutLinesAt drops n (c :: cuts) (done + 1) behind search rest
        else cutLinesAt drops n cuts 0 behind search rest
      { next with parts := if kept then part :: next.parts else next.parts }
    match c.cut with
    | .line k _ =>
      let goal := (done + 1) * k - 1
      let outOfRange : CutResult :=
        { parts := [String.join lines]
          fault := some { text := cited (toString k) ++ ": line number out of range" ++ suffix } }
      if lines.isEmpty then
        if drops then outOfRange
        else
          { parts := [""]
            fault := some { text := "input disappeared", flushes := true, abandons := true } }
      else if total < goal || total = goal && !drops then outOfRange
      else goOn true (max goal position) (max searchFrom (if drops then goal + 1 else goal))
    | .matching r offset keeps text =>
      let ahead := lines.drop (searchFrom - position)
      let found := (ahead.zipIdx (max searchFrom position)).find? fun p =>
        r.isIn (if p.1.endsWith "\n" then String.ofList p.1.toList.dropLast else p.1)
      match found with
      | none =>
        let parts := if keeps then [String.join lines] else []
        if c.repeats.isNone then { parts }
        else { parts, fault := some { text := cited text ++ ": match not found" ++ suffix } }
      | some (_, i) =>
        let cutAt := (i : Int) + offset
        if cutAt < position || (total : Int) < cutAt then
          { parts := if !keeps then [] else if 0 ≤ offset then
              [String.join (if cutAt < position then [] else lines)] else [""]
            fault := some
              { text := cited text ++ ": line number out of range", flushes := true } }
        else goOn keeps cutAt.toNat (if 0 < offset then cutAt.toNat + 1 else i + 1)

/-- Whether one format of a number stands in a text; the fault of another text. -/
def checkPartFormat : Nat → Bool → List Char → Except String Unit
  | 0, _, _ => .ok ()
  | _, formatted, [] =>
    if formatted then .ok () else .error "missing % conversion specification in suffix"
  | n + 1, formatted, '%' :: '%' :: cs => checkPartFormat n formatted cs
  | n + 1, formatted, '%' :: cs => do
    if formatted then throw "too many % conversion specifications in suffix"
    let flags := cs.takeWhile fun c => c == '-' || c == '0' || c == '\x27' || c == '#'
    let rest := (cs.drop flags.length).dropWhile Char.isDigit
    let rest := if rest.head? == some '.' then (rest.drop 1).dropWhile Char.isDigit else rest
    let within (c : Char) (foreignFlag : Char) : Except String Unit :=
      if flags.contains foreignFlag then
        throw ("invalid flags in conversion specification: %" ++ String.ofList [foreignFlag, c])
      else .ok ()
    match rest with
    | [] => throw "missing conversion specifier in suffix"
    | c :: behind =>
      if c == 'd' || c == 'i' || c == 'u' then within (if c == 'i' then 'd' else c) '#'
      else if c == 'o' || c == 'x' || c == 'X' then within c '\x27'
      else throw ("invalid conversion specifier in suffix: " ++ String.singleton c)
      checkPartFormat n true behind
  | n + 1, formatted, _ :: cs => checkPartFormat n formatted cs

/-- A text with a number in the place of its format. -/
def numbered (k : Nat) : Nat → List Char → String
  | 0, _ => ""
  | _, [] => ""
  | n + 1, '%' :: '%' :: cs => "%" ++ numbered k n cs
  | n + 1, '%' :: cs =>
    let flags := cs.takeWhile fun c => c == '-' || c == '0' || c == '\x27' || c == '#'
    match Conversion.read (flags.filter (· != '\x27') ++ cs.drop flags.length) [] with
    | some (conversion, rest, _) => conversion.number k ++ numbered k n rest
    | none => ""
  | n + 1, c :: cs => String.singleton c ++ numbered k n cs

/-- The number in the name of a part, in a format if there is one. -/
def partNumber (format : Option String) (digits k : Nat) : String :=
  match format with
  | none => DumpItem.padded 10 digits k
  | some f => numbered k (f.length + 1) f.toList

/-- `csplit`. -/
def cutInput : Utility :=
  withOptions "csplit"
    { plain := "ksqzδ", valued := "fbn"
      long := [("prefix", 'f'), ("suffix-format", 'b'), ("digits", 'n'), ("keep-files", 'k'),
        ("silent", 's'), ("quiet", 's'), ("elide-empty-files", 'z'), ("suppress-matched", 'δ')] }
    fun o => do
      let digits ← match o.value? 'n' with
        | none => pure 2
        | some s => do
          let text := "invalid number: " ++ cited s
          match integer? (String.ofList (s.toList.dropWhile isSpace)) with
          | some n =>
            if n < 0 || 0x80000000 ≤ n then
              fail "csplit" 1 (text ++ if n < 0x40000000 then ": Numerical result out of range"
                else ": Value too large for defined data type")
            else pure n.toNat
          | none => fail "csplit" 1 text
      if let some f := o.value? 'b' then
        if let .error text := checkPartFormat (f.length + 1) false f.toList then
          fail "csplit" 1 text
      match o.operands with
      | [] => misuse "csplit" 1 "missing operand"
      | [input] => misuse "csplit" 1 ("missing operand after " ++ cited input)
      | input :: patterns =>
        let cuts ← readCuts 0 patterns
        match ← openInput input with
        | .error e =>
          fail "csplit" 1 ("cannot open " ++ inQuotes input ++ " for reading: " ++ causeText e)
        | .ok none => fail "csplit" 1 "read error: Bad file descriptor"
        | .ok (some c) =>
          let result ← match ← readAll c with
            | .error e =>
              let keeps := match cuts.head?.map (·.cut) with
                | some (.matching _ _ keeps _) => keeps
                | _ => true
              pure { parts := if keeps then [""] else []
                     fault := some { text := "read error: " ++ e.message } }
            | .ok s =>
              let lines := fullLines s
              let size := (lines.length + 2) * (cuts.length + 1)
              pure (cutLinesAt (o.has 'δ') size cuts 0 0 0 lines)
          let parts := if o.has 'z' then result.parts.filter (!·.isEmpty) else result.parts
          let name (k : Nat) : String :=
            (o.value? 'f').getD "xx" ++ partNumber (o.value? 'b') digits k
          let isSilent := o.has 's' || o.has 'q'
          let tell (f : CutFault) : Run Unit := lament "csplit" f.text
          let flushes := result.fault.any (·.flushes)
          if !flushes then result.fault.forM tell
          for (part, k) in parts.zipIdx do
            let isLast := k + 1 = parts.length
            if flushes && isLast then result.fault.forM tell
            match ← storeText (name k) part with
            | .ok () =>
              if !(isSilent || isLast && result.fault.any (·.abandons)) then
                emit "csplit" (toString part.length ++ "\n")
            | .error cause => fail "csplit" 1 (shownName (name k) ++ ": " ++ cause)
          if flushes && parts.isEmpty then result.fault.forM tell
          if result.fault.any (!·.abandons) && !o.has 'k' then
            for (_, k) in parts.zipIdx do
              discard (tryFiles fun t => do return t.remove (← t.resolve false (path (name k))))

end PatchSearch.Shell
