import PatchSearch.Shell.Difference.Report

/-!
Both texts in one, by formats. A format for each kind of group tells how lines that both texts have,
lines of one text only and changed lines are shown, and a format for each kind of line how a single
line is. Formats hold letters with a value for the numbers of lines, and choices between two texts.
-/
namespace PatchSearch.Shell.Difference

/-- Formats for groups of lines and for lines. -/
structure MergeForm where
  same : String := "%="
  old : String := "%<"
  new : String := "%>"
  changed : String := "%<%>"
  sameLine : String := "%l\n"
  oldLine : String := "%l\n"
  newLine : String := "%l\n"

namespace MergeForm

/-- The formats that put lines of one text only between conditions on a name. -/
def conditional (name : String) : MergeForm :=
  let opened (word : String) : String := "#" ++ word ++ " " ++ name ++ "\n"
  { old := opened "ifndef" ++ "%<#endif /* ! " ++ name ++ " */\n"
    new := opened "ifdef" ++ "%>#endif /* " ++ name ++ " */\n"
    changed := opened "ifndef" ++ "%<#else /* " ++ name ++ " */\n%>#endif /* " ++ name ++ " */\n" }

end MergeForm

/-- A number as a letter of a format asks for it: with dashes, a width, a least count of digits,
and a base. What follows is the letter that chooses the number. -/
def formattedNumber? (number : Char → Option Nat) (cs : List Char) : Option (String × List Char) :=
  let dashes := cs.takeWhile (· == '-')
  let cs := cs.drop dashes.length
  let width := cs.takeWhile Char.isDigit
  let cs := cs.drop width.length
  let (digits, cs) := match cs with
    | '.' :: cs => (cs.takeWhile Char.isDigit, cs.dropWhile Char.isDigit)
    | cs => ([], cs)
  let value (ds : List Char) : Nat := ds.foldl (fun n d => 10 * n + (d.toNat - 48)) 0
  match cs with
  | base :: letter :: rest => do
    let n ← number letter
    let text ← match base with
      | 'd' => some (toString n)
      | 'o' => some (String.ofList (Nat.toDigits 8 n))
      | 'x' => some (String.ofList (Nat.toDigits 16 n))
      | 'X' => some (String.ofList ((Nat.toDigits 16 n).map Char.toUpper))
      | _ => none
    let text := String.ofList (List.replicate (value digits - text.length) '0') ++ text
    let blanks := String.ofList (List.replicate (value width - text.length) ' ')
    some (if dashes.isEmpty then blanks ++ text else text ++ blanks, rest)
  | _ => none

/-- A character that a format quotes, behind the opening quote. -/
def quotedChar? : List Char → Option (Char × List Char)
  | '\\' :: cs =>
    let digits := (cs.takeWhile fun c => '0' ≤ c && c ≤ '7').take 3
    match cs.drop digits.length with
    | '\x27' :: rest =>
      if digits.isEmpty then none
      else some (Char.ofNat (digits.foldl (fun n d => 8 * n + (d.toNat - 48)) 0), rest)
    | _ => none
  | c :: '\x27' :: rest => if c == '\x27' then none else some (c, rest)
  | _ => none

/-- A text by a format for a line. -/
def lineText (f : LineForm) (n : Nat) (line : String) : Nat → List Char → String
  | 0, _ => ""
  | _, [] => ""
  | fuel + 1, '%' :: cs =>
    let plain : String := "%" ++ lineText f n line fuel cs
    match cs with
    | '%' :: rest => "%" ++ lineText f n line fuel rest
    | 'c' :: '\x27' :: rest =>
      match quotedChar? rest with
      | some (c, rest) => String.singleton c ++ lineText f n line fuel rest
      | none => plain
    | 'l' :: rest =>
      f.body (String.ofList (line.toList.takeWhile (· != '\n'))) ++ lineText f n line fuel rest
    | 'L' :: rest => f.body line ++ lineText f n line fuel rest
    | cs =>
      match formattedNumber? (fun c => if c == 'n' then some n else none) cs with
      | some (text, rest) => text ++ lineText f n line fuel rest
      | none => plain
  | fuel + 1, c :: cs => String.singleton c ++ lineText f n line fuel cs

/-- Lines from a place on by a format. Where the format is as plain as can be, what comes last has
an end in any case. -/
def formattedLines (f : LineForm) (format : String) (start : Nat) (lines : List String) : String :=
  let cs := format.toList
  String.join ((lines.zipIdx start).map fun (l, i) => lineText f (i + 1) l (cs.length + 1) cs)

/-- A group of lines: what is shown for the lines of either text, and where they start and end. -/
structure LineGroup where
  left : Nat
  leftEnd : Nat
  right : Nat
  rightEnd : Nat

namespace LineGroup

/-- The number that a letter stands for: small ones tell of the left text, capital ones of the
right one. -/
def number? (g : LineGroup) (c : Char) : Option Nat :=
  let (start, stop) := if c.isUpper then (g.right, g.rightEnd) else (g.left, g.leftEnd)
  match c.toLower with
  | 'e' => some start
  | 'f' => some (start + 1)
  | 'l' => some stop
  | 'm' => some (stop + 1)
  | 'n' => some (stop - start)
  | _ => none

end LineGroup

/-- What a format still has to show: choices that are open hold the end of the text that counts and
of the one that is passed over. -/
def groupText (g : LineGroup) (shown : Char → Option String) : Nat → List Char → Char →
    String × List Char
  | 0, cs, _ => ("", cs)
  | _, [], _ => ("", [])
  | fuel + 1, c :: cs, stop =>
    if c == stop && stop != '\x00' then ("", cs)
    else
      let go (front : String) (rest : List Char) : String × List Char :=
        let (text, rest) := groupText g shown fuel rest stop
        (front ++ text, rest)
      if c != '%' then go (String.singleton c) cs
      else
        match cs with
        | '%' :: rest => go "%" rest
        | '(' :: rest =>
          let value (cs : List Char) : Option (Nat × List Char) :=
            match cs with
            | d :: _ =>
              if d.isDigit then
                let ds := cs.takeWhile Char.isDigit
                some (ds.foldl (fun n d => 10 * n + (d.toNat - 48)) 0, cs.drop ds.length)
              else (g.number? d).map fun n => (n, cs.drop 1)
            | [] => none
          match (do
              let (a, rest) ← value rest
              let rest ← match rest with
                | '=' :: rest => some rest
                | _ => none
              let (b, rest) ← value rest
              let rest ← match rest with
                | '?' :: rest => some rest
                | _ => none
              return (a == b, rest)) with
          | some (holds, rest) =>
            let (yes, rest) := groupText g shown fuel rest ':'
            let (no, rest) := groupText g shown fuel rest ')'
            go (if holds then yes else no) rest
          | none => go "%" cs
        | 'c' :: '\x27' :: rest =>
          match quotedChar? rest with
          | some (c, rest) => go (String.singleton c) rest
          | none => go "%" cs
        | letter :: rest =>
          match shown letter with
          | some text => go text rest
          | none =>
            match formattedNumber? g.number? cs with
            | some (text, rest) => go text rest
            | none => go "%" cs
        | [] => go "%" []

namespace Comparison

/-- A group by its format. -/
def groupShown (c : Comparison) (m : MergeForm) (format : String) (g : LineGroup) : String :=
  let left := linesAt c.left g.left g.leftEnd
  let right := linesAt c.right g.right g.rightEnd
  let shown (letter : Char) : Option String :=
    match letter with
    | '<' => some (formattedLines c.form m.oldLine g.left left)
    | '>' => some (formattedLines c.form m.newLine g.right right)
    | '=' => some (formattedLines c.form m.sameLine g.left left)
    | _ => none
  (groupText g shown (2 * format.length + 2) format.toList '\x00').1

/-- Both texts in one, from a place in each on. -/
def mergedFrom (c : Comparison) (m : MergeForm) : Nat → Nat → List Hunk → String
  | i, j, hunks =>
    let common (left right : Nat) : String :=
      if i < left || j < right then c.groupShown m m.same ⟨i, left, j, right⟩ else ""
    match hunks with
    | [] => common c.left.size c.right.size
    | h :: rest =>
      let format := if !h.adds then m.old else if h.removes then m.changed else m.new
      common h.left h.right ++
        c.groupShown m format ⟨h.left, h.leftEnd, h.right, h.rightEnd⟩ ++
        c.mergedFrom m h.leftEnd h.rightEnd rest

def merged (c : Comparison) (m : MergeForm) : String :=
  c.mergedFrom m 0 0 c.hunks

end Comparison

end PatchSearch.Shell.Difference
