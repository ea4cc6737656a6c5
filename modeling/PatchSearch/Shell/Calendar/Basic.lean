/-!
The calendar. A moment is a day of a year with a time of the day; it stands for a number of
nanoseconds from the start of 1970 on. Formats spell its parts, each behind a percent sign.
-/
namespace PatchSearch.Shell

structure Moment where
  year : Int
  month : Nat
  day : Nat
  /-- Nanoseconds from the start of the day. -/
  nanos : Nat
  deriving DecidableEq, Repr

namespace Moment

/-- Nanoseconds in a second, and seconds in a day. -/
def second : Int := 1000000000

def daySeconds : Int := 86400

/-- Days from the start of 1970 to a day. Years are counted from March on, so that the day that
some of them lack comes last, and repeat after four centuries. -/
def dayNumber (year : Int) (month : Int) (day : Int) : Int :=
  let y := if month ≤ 2 then year - 1 else year
  let era := y.fdiv 400
  let ofEra := y - era * 400
  let ofYear := (153 * (if 2 < month then month - 3 else month + 9) + 2) / 5 + day - 1
  era * 146097 + ofEra * 365 + ofEra / 4 - ofEra / 100 + ofYear - 719468

/-- The day that is so many days from the start of 1970: year, month and day. -/
def dayOf (number : Int) : Int × Nat × Nat :=
  let z := number + 719468
  let era := z.fdiv 146097
  let ofEra := z - era * 146097
  let year := (ofEra - ofEra / 1460 + ofEra / 36524 - ofEra / 146096) / 365
  let ofYear := ofEra - (365 * year + year / 4 - year / 100)
  let m := (5 * ofYear + 2) / 153
  let month := if m < 10 then m + 3 else m - 9
  (year + era * 400 + (if month ≤ 2 then 1 else 0), month.toNat,
    (ofYear - (153 * m + 2) / 5 + 1).toNat)

example : dayNumber 1970 1 1 = 0 ∧ dayOf 59 = (1970, 3, 1) := by decide

example : dayNumber 2000 2 29 = 11016 ∧ dayOf 11016 = (2000, 2, 29) := by decide

/-- The moment of a number of nanoseconds. -/
def ofNanos (n : Int) : Moment :=
  let whole := daySeconds * second
  let day := n.fdiv whole
  let (year, month, d) := dayOf day
  ⟨year, month, d, (n - day * whole).toNat⟩

/-- The days from the start of 1970. -/
def days (m : Moment) : Int :=
  dayNumber m.year m.month m.day

/-- The nanoseconds from the start of 1970. -/
def toNanos (m : Moment) : Int :=
  m.days * daySeconds * second + m.nanos

def seconds (m : Moment) : Nat := m.nanos / 1000000000

def hour (m : Moment) : Nat := m.seconds / 3600

def minute (m : Moment) : Nat := m.seconds / 60 % 60

/-- The day of the week; Sunday is zero. -/
def weekday (m : Moment) : Nat :=
  ((m.days + 4) % 7).toNat

/-- The day of the year, from zero on. -/
def yearDay (m : Moment) : Nat :=
  (m.days - dayNumber m.year 1 1).toNat

def weekdayNames : List String :=
  ["Sunday", "Monday", "Tuesday", "Wednesday", "Thursday", "Friday", "Saturday"]

def monthNames : List String :=
  ["January", "February", "March", "April", "May", "June", "July", "August", "September",
    "October", "November", "December"]

def shortName (s : String) : String :=
  String.ofList (s.toList.take 3)

def weekdayName (m : Moment) : String :=
  (weekdayNames[m.weekday]?).getD ""

def monthName (m : Moment) : String :=
  (monthNames[m.month - 1]?).getD ""

/-- The year and the number of its week that a day belongs to, where weeks start on Monday and
belong to the year that holds most of their days. -/
def weekOfYear (m : Moment) : Int × Int :=
  let thursday := m.days - (m.weekday + 6 : Int) % 7 + 3
  let (year, _, _) := dayOf thursday
  (year, (thursday - dayNumber year 1 1) / 7 + 1)

/-- A part of a moment as a format asks for it: a number with its width and what fills that up, or
a text. -/
inductive Part where
  | number (n : Int) (width : Nat) (filler : Char)
  | text (s : String)

/-- The format that a letter stands for, if it stands for one. -/
def longFormat? : Char → Option String
  | 'c' => some "%a %b %e %H:%M:%S %Y"
  | 'D' => some "%m/%d/%y"
  | 'F' => some "%Y-%m-%d"
  | 'r' => some "%I:%M:%S %p"
  | 'R' => some "%H:%M"
  | 'T' => some "%H:%M:%S"
  | 'x' => some "%m/%d/%y"
  | 'X' => some "%H:%M:%S"
  | _ => none

/-- The part that a letter stands for. -/
def part? (m : Moment) (c : Char) : Option Part :=
  let two (n : Int) : Option Part := some (.number n 2 '0')
  let hour12 := (m.hour + 11) % 12 + 1
  match c with
  | 'a' => some (.text (shortName m.weekdayName))
  | 'A' => some (.text m.weekdayName)
  | 'b' | 'h' => some (.text (shortName m.monthName))
  | 'B' => some (.text m.monthName)
  | 'C' => two (m.year / 100)
  | 'd' => two m.day
  | 'e' => some (.number m.day 2 ' ')
  | 'g' => two (m.weekOfYear.1 % 100)
  | 'G' => some (.number m.weekOfYear.1 4 '0')
  | 'H' => two m.hour
  | 'I' => two hour12
  | 'j' => some (.number (m.yearDay + 1) 3 '0')
  | 'k' => some (.number m.hour 2 ' ')
  | 'l' => some (.number hour12 2 ' ')
  | 'm' => two m.month
  | 'M' => two m.minute
  | 'n' => some (.text "\n")
  | 'p' => some (.text (if m.hour < 12 then "AM" else "PM"))
  | 'P' => some (.text (if m.hour < 12 then "am" else "pm"))
  | 'q' => some (.number ((m.month - 1) / 3 + 1) 1 '0')
  | 's' => some (.number (m.toNanos.fdiv second) 1 '0')
  | 'S' => two (m.seconds % 60)
  | 't' => some (.text "\t")
  | 'u' => some (.number ((m.weekday + 6) % 7 + 1) 1 '0')
  | 'U' => two ((m.yearDay + 7 - m.weekday) / 7)
  | 'V' => two m.weekOfYear.2
  | 'w' => some (.number m.weekday 1 '0')
  | 'W' => two ((m.yearDay + 7 - (m.weekday + 6) % 7) / 7)
  | 'y' => two (m.year % 100)
  | 'Y' => some (.number m.year 4 '0')
  | 'z' => some (.text "+0000")
  | 'Z' => some (.text "UTC")
  | _ => none

/-- A text with a filler in front up to a width. -/
def filled (width : Nat) (filler : Char) (s : String) : String :=
  String.ofList (List.replicate (width - s.length) filler) ++ s

/-- A part as its flags and its width want it. -/
def Part.render (flags : List Char) (width : Option Nat) : Part → String
  | .number n least filler =>
    let filler := match flags.reverse.find? ['_', '0', '-', '+'].contains with
      | some '_' => ' '
      | some '-' => '-'
      | some _ => '0'
      | none => filler
    let digits := toString n.natAbs
    let sign := if n < 0 then "-" else ""
    if filler == '-' then sign ++ digits
    else if filler == ' ' then filled (width.getD least) ' ' (sign ++ digits)
    else sign ++ filled (width.getD least - sign.length) '0' digits
  | .text s =>
    let lowers := s == "AM" || s == "PM" || s == "UTC"
    let s := if flags.contains '^' then String.ofList (s.toList.map Char.toUpper)
      else if flags.contains '#' then
        String.ofList (s.toList.map fun c => if lowers then c.toLower else c.toUpper)
      else s
    if flags.contains '-' then s
    else filled (width.getD 0) (if flags.contains '0' then '0' else ' ') s

/-- The nanoseconds of a second, of which a width gives the number of digits. -/
def fraction (m : Moment) (width : Option Nat) : String :=
  let digits := filled 9 '0' (toString (m.nanos % 1000000000))
  match width with
  | some w => String.ofList (digits.toList.take w) ++ String.ofList (List.replicate (w - 9) '0')
  | none => digits

/-- The zone of a moment with so many colons. -/
def zone : Nat → String
  | 0 => "+0000"
  | 1 => "+00:00"
  | 2 => "+00:00:00"
  | _ => "+00"

/-- The parts that a format asks for; the number bounds formats inside of formats and their
length. -/
def formatFrom (m : Moment) : Nat → List Char → String
  | 0, _ => ""
  | _, [] => ""
  | n + 1, '%' :: cs =>
    let flags := cs.takeWhile ['-', '_', '0', '^', '#', '+'].contains
    let cs' := cs.drop flags.length
    let digits := cs'.takeWhile Char.isDigit
    let width := if digits.isEmpty then none
      else some (digits.foldl (fun n c => 10 * n + (c.toNat - 48)) 0)
    let cs' := (cs'.drop digits.length).dropWhile fun c => c == 'E' || c == 'O'
    let colons := cs'.takeWhile (· == ':')
    match cs'.drop colons.length with
    | [] => "%" ++ String.ofList cs
    | c :: rest =>
      let text : Option String :=
        if c == '%' then if rest.length + 1 = cs.length then some "%" else none
        else if c == 'z' then some (zone colons.length)
        else if !colons.isEmpty then none
        else if c == 'N' then some (m.fraction width)
        else match longFormat? c with
          | some f => some ((Part.text (formatFrom m n f.toList)).render flags width)
          | none => (m.part? c).map (Part.render flags width)
      match text with
      | some s => s ++ formatFrom m n rest
      | none => "%" ++ formatFrom m n cs
  | n + 1, c :: cs => String.ofList [c] ++ formatFrom m n cs

/-- A moment in a format. -/
def format (m : Moment) (s : String) : String :=
  m.formatFrom (s.length + 32) s.toList

end Moment

end PatchSearch.Shell
