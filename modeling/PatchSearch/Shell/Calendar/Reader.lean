import PatchSearch.Shell.Calendar.Basic

/-!
Reading dates. A date is written as items in any order: days, times, zones, names of days, and
distances such as `2 days ago`. What is not given is taken from the present moment; a day without
a time is its start.
-/
namespace PatchSearch.Shell

/-- A word of a date: digits, letters, or a mark; `joined` tells whether it stands right behind the
word before it. -/
structure DateWord where
  text : String
  joined : Bool

namespace DateWord

def isNumber (w : DateWord) : Bool :=
  w.text.toList.all Char.isDigit

/-- The value of digits. -/
def value (w : DateWord) : Int :=
  w.text.toList.foldl (fun n c => 10 * n + (c.toNat - 48)) 0

/-- The words of a text. -/
def split : Nat → Bool → List Char → List DateWord
  | 0, _, _ => []
  | _, _, [] => []
  | n + 1, joined, c :: cs =>
    let run (test : Char → Bool) : List DateWord :=
      let more := cs.takeWhile test
      ⟨String.ofList ((c :: more).map Char.toLower), joined⟩ :: split n true (cs.drop more.length)
    if c == ' ' || c == '\t' || c == '\n' then split n false cs
    else if c.isDigit then run Char.isDigit
    else if c.isAlpha then run fun d => d.isAlpha || d == '.'
    else ⟨String.ofList [c], joined⟩ :: split n true cs

end DateWord

/-- What the items of a date have said so far. -/
structure DateReading where
  day : Option (Int × Int × Int) := none
  /-- Whether the year of the day was given. -/
  hasYear : Bool := false
  /-- Nanoseconds from the start of the day. -/
  time : Option Int := none
  zone : Option Int := none
  weekday : Option (Nat × Int) := none
  months : Int := 0
  days : Int := 0
  nanos : Int := 0
  moment : Option Int := none

namespace DateReading

/-- Whether any distance was given. -/
def isShifted (r : DateReading) : Bool :=
  r.months != 0 || r.days != 0 || r.nanos != 0

/-- The number of a name that others start with its first three letters. -/
def nameNumber? (names : List String) (s : String) : Option Nat :=
  let s := if s.endsWith "." then String.ofList s.toList.dropLast else s
  names.findIdx? fun name =>
    let name := String.ofList (name.toList.map Char.toLower)
    s == name || s == Moment.shortName name || s == "sept" && name == "september" ||
      s == "tues" && name == "tuesday" || s == "thurs" && name == "thursday"

def month? (s : String) : Option Int :=
  (nameNumber? Moment.monthNames s).map fun n => (n : Int) + 1

/-- Adds a number of units. -/
def shift? (r : DateReading) (n : Int) (unit : String) : Option DateReading :=
  let unit := if unit.endsWith "s" && unit != "s" then String.ofList unit.toList.dropLast else unit
  match unit with
  | "year" => some { r with months := r.months + 12 * n }
  | "month" => some { r with months := r.months + n }
  | "fortnight" => some { r with days := r.days + 14 * n }
  | "week" => some { r with days := r.days + 7 * n }
  | "day" => some { r with days := r.days + n }
  | "hour" => some { r with nanos := r.nanos + 3600 * n * Moment.second }
  | "minute" | "min" => some { r with nanos := r.nanos + 60 * n * Moment.second }
  | "second" | "sec" => some { r with nanos := r.nanos + n * Moment.second }
  | _ => none

/-- A time of the day from its parts, perhaps of a half day. -/
def timeOf? (hour minute second fraction : Int) (half : Option String) : Option Int :=
  let hour? : Option Int := match half with
    | none => if hour < 24 then some hour else none
    | some h =>
      if hour < 1 || 12 < hour then none
      else some (hour % 12 + if h.startsWith "p" then 12 else 0)
  if 59 < minute || 59 < second then none
  else hour?.map fun h => (h * 3600 + minute * 60 + second) * Moment.second + fraction

/-- The half of the day that words start with, and the words behind. -/
def half (ws : List DateWord) : Option String × List DateWord :=
  match ws with
  | w :: rest => if ["am", "pm", "a.m.", "p.m."].contains w.text then (some w.text, rest)
      else (none, ws)
  | [] => (none, ws)

/-- The nanoseconds of a decimal fraction. -/
def fractionOf (digits : String) : Int :=
  let ds := (digits.toList ++ List.replicate 9 '0').take 9
  ds.foldl (fun n c => 10 * n + (c.toNat - 48)) 0

/-- A time that starts with an hour and a minute, and the words behind it. -/
def readTime (r : DateReading) (hour minute : DateWord) (ws : List DateWord) :
    Option (DateReading × List DateWord) :=
  let (second, fraction, ws) := match ws with
    | ⟨":", _⟩ :: s :: ⟨mark, _⟩ :: f :: rest =>
      if s.isNumber && (mark == "." || mark == ",") && f.isNumber && f.joined then
        (s.value, fractionOf f.text, rest)
      else (s.value, 0, ws.drop 2)
    | ⟨":", _⟩ :: s :: rest => (s.value, 0, rest)
    | _ => (0, 0, ws)
  let (half, ws) := half ws
  let zoned : Option Int × List DateWord := match half, ws with
    | none, ⟨sign, _⟩ :: n :: rest =>
      if (sign == "+" || sign == "-") && n.isNumber then
        let turn (seconds : Int) : Option Int := some (if sign == "-" then -seconds else seconds)
        match rest with
        | ⟨":", true⟩ :: m :: rest => (turn (n.value * 3600 + m.value * 60), rest)
        | _ =>
          if n.text.length ≤ 2 then (turn (n.value * 3600), rest)
          else (turn (n.value / 100 * 3600 + n.value % 100 * 60), rest)
      else (none, ws)
    | _, _ => (none, ws)
  if r.time.isSome then none
  else (timeOf? hour.value minute.value second fraction half).map fun t =>
    ({ r with time := some t, zone := zoned.1.or r.zone }, zoned.2)

/-- Settles the day. -/
def withDay (r : DateReading) (year month day : Int) (hasYear : Bool := true) :
    Option DateReading :=
  if r.day.isSome || month < 1 || 12 < month || day < 1 || 31 < day then none
  else some { r with day := some (year, month, day), hasYear }

/-- A year that may be written with two digits. -/
def fullYear (w : DateWord) : Int :=
  if w.text.length ≤ 2 then if w.value < 69 then w.value + 2000 else w.value + 1900 else w.value

/-- An item that starts with digits, and the words behind it. -/
def readNumber (r : DateReading) (year : Int) (a : DateWord) (ws : List DateWord) :
    Option (DateReading × List DateWord) :=
  let behind (rest : List DateWord) (d : Option DateReading) :
      Option (DateReading × List DateWord) := d.map fun r => (r, rest)
  let plain : Option (DateReading × List DateWord) :=
    if !r.hasYear && r.day.isSome && !r.isShifted && (r.time.isSome || 2 < a.text.length) then
      behind ws (r.day.map fun d => { r with day := some (fullYear a, d.2), hasYear := true })
    else if 4 < a.text.length && r.day.isNone then
      behind ws (r.withDay (a.value / 10000) (a.value / 100 % 100) (a.value % 100))
    else if r.time.isSome then none
    else if a.text.length ≤ 2 then
      behind ws ((timeOf? a.value 0 0 0 none).map fun t => { r with time := some t })
    else if a.text.length = 4 then
      behind ws ((timeOf? (a.value / 100) (a.value % 100) 0 0 none).map fun t =>
        { r with time := some t })
    else none
  match ws with
  | ⟨"-", true⟩ :: b :: ⟨"-", true⟩ :: c :: rest =>
    if b.isNumber then
      behind rest (r.withDay (fullYear a) b.value c.value)
    else (month? b.text).bind fun m => behind rest (r.withDay (fullYear c) m a.value)
  | ⟨"/", true⟩ :: b :: ⟨"/", true⟩ :: c :: rest =>
    if 4 ≤ a.text.length then behind rest (r.withDay a.value b.value c.value)
    else behind rest (r.withDay (fullYear c) a.value b.value)
  | ⟨"/", true⟩ :: b :: rest => behind rest (r.withDay year a.value b.value false)
  | ⟨":", true⟩ :: b :: rest => r.readTime a b rest
  | w :: rest =>
    if ["am", "pm", "a.m.", "p.m."].contains w.text then
      if r.time.isSome then none
      else behind rest ((timeOf? a.value 0 0 0 (some w.text)).map fun t => { r with time := some t })
    else
      match month? w.text, r.shift? a.value w.text with
      | some m, _ =>
        match rest with
        | y :: more =>
          if y.isNumber && more.head?.all (·.text != ":") then
            behind more (r.withDay (fullYear y) m a.value)
          else behind rest (r.withDay year m a.value false)
        | [] => behind rest (r.withDay year m a.value false)
      | none, some shifted =>
        match rest with
        | ⟨"ago", _⟩ :: more => behind more (r.shift? (-a.value) w.text)
        | _ => some (shifted, rest)
      | none, none => plain
  | [] => plain

/-- How many units a word such as `next` means. -/
def ordinal? : String → Option Int
  | "last" => some (-1)
  | "this" => some 0
  | "next" => some 1
  | _ => none

/-- Zones by name, with the hours that they are ahead. -/
def zoneNames : List (String × Int) :=
  [("utc", 0), ("gmt", 0), ("ut", 0), ("z", 0), ("wet", 0), ("est", -5), ("edt", -4), ("cst", -6),
    ("cdt", -5), ("mst", -7), ("mdt", -6), ("pst", -8), ("pdt", -7), ("bst", 1), ("cet", 1),
    ("cest", 2), ("met", 1), ("eet", 2), ("eest", 3), ("msk", 3), ("jst", 9), ("nzst", 12)]

/-- An item that starts with letters, and the words behind it. -/
def readName (r : DateReading) (year : Int) (name : String) (ws : List DateWord) :
    Option (DateReading × List DateWord) :=
  let behind (rest : List DateWord) (d : Option DateReading) :
      Option (DateReading × List DateWord) := d.map fun r => (r, rest)
  match name with
  | "now" | "today" => some (r, ws)
  | "yesterday" => some ({ r with days := r.days - 1 }, ws)
  | "tomorrow" => some ({ r with days := r.days + 1 }, ws)
  | "t" => if r.day.isSome && ws.head?.any DateWord.isNumber then some (r, ws) else none
  | _ =>
    match zoneNames.lookup name with
    | some hours => some ({ r with zone := some (hours * 3600) }, ws)
    | none =>
    match ordinal? name, month? name, nameNumber? Moment.weekdayNames name with
    | some n, _, _ =>
      match ws with
      | w :: rest =>
        match r.shift? n w.text, nameNumber? Moment.weekdayNames w.text with
        | some r, _ => some (r, rest)
        | none, some d => some ({ r with weekday := some (d, n) }, rest)
        | none, none => none
      | [] => none
    | _, some m, _ =>
      match ws with
      | d :: ⟨",", _⟩ :: y :: rest => behind rest (r.withDay (fullYear y) m d.value)
      | d :: y :: rest =>
        if d.isNumber && y.isNumber && rest.head?.all (·.text != ":") then
          behind rest (r.withDay (fullYear y) m d.value)
        else if d.isNumber then behind (ws.drop 1) (r.withDay year m d.value false)
        else none
      | [d] => if d.isNumber then behind [] (r.withDay year m d.value false) else none
      | [] => none
    | _, _, some d => some ({ r with weekday := some (d, 0) }, ws.dropWhile (·.text == ","))
    | none, none, none =>
      match ws with
      | ⟨"ago", _⟩ :: rest => behind rest (r.shift? (-1) name)
      | _ => behind ws (r.shift? 1 name)

/-- All items of a date. -/
def readItems (year : Int) : Nat → List DateWord → DateReading → Option DateReading
  | 0, _, _ => none
  | _, [], r => some r
  | n + 1, w :: ws, r =>
    let go (x : Option (DateReading × List DateWord)) : Option DateReading :=
      x.bind fun (r, rest) => readItems year n rest r
    match w.text, ws with
    | "@", ⟨"-", _⟩ :: s :: rest =>
      if s.isNumber then readItems year n rest { r with moment := some (-s.value * Moment.second) }
      else none
    | "@", s :: ⟨".", _⟩ :: f :: rest =>
      readItems year n rest { r with moment := some (s.value * Moment.second + fractionOf f.text) }
    | "@", s :: rest =>
      if s.isNumber then readItems year n rest { r with moment := some (s.value * Moment.second) }
      else none
    | ",", _ => readItems year n ws r
    | sign, a :: unit :: rest =>
      if (sign == "+" || sign == "-") && a.isNumber then
        let k := if sign == "-" then -a.value else a.value
        match rest with
        | ⟨"ago", _⟩ :: more => go ((r.shift? (-k) unit.text).map (·, more))
        | _ => go ((r.shift? k unit.text).map (·, rest))
      else if w.isNumber then go (r.readNumber year w ws)
      else go (r.readName year w.text ws)
    | _, _ =>
      if w.isNumber then go (r.readNumber year w ws) else go (r.readName year w.text ws)

/-- The day of so many months on. -/
def addMonths (year month : Int) (months : Int) : Int × Int :=
  let total := year * 12 + (month - 1) + months
  (total.fdiv 12, total.fmod 12 + 1)

/-- The nanoseconds that a reading stands for, given the present. -/
def settle (r : DateReading) (now : Int) : Option Int :=
  match r.moment with
  | some n => some (n + r.nanos + r.days * Moment.daySeconds * Moment.second)
  | none =>
    let present := Moment.ofNanos now
    let (year, month, day) := r.day.getD (present.year, present.month, present.day)
    if (Moment.dayOf (Moment.dayNumber year month day)).2.1 != month.toNat then none
    else
      let time := r.time.getD
        (if r.day.isSome || r.weekday.isSome then 0 else (present.nanos : Int))
      let (year, month) := addMonths year month r.months
      let number := Moment.dayNumber year month day + r.days
      let number := match r.day, r.weekday with
        | some _, _ | _, none => number
        | none, some (d, n) =>
          let ahead := ((d : Int) - (number + 4) % 7 + 7) % 7
          number + ahead + 7 * (if 0 < n && ahead = 0 then n else if 0 < n then n - 1 else n)
      some (number * Moment.daySeconds * Moment.second + time + r.nanos -
        (r.zone.getD 0) * Moment.second)

end DateReading

/-- The nanoseconds that a written date stands for, given the present. -/
def readDate? (now : Int) (s : String) : Option Int :=
  let words := DateWord.split (s.length + 1) false s.toList
  let year := (Moment.ofNanos now).year
  (DateReading.readItems year (words.length + 1) words {}).bind (·.settle now)

/-- The nanoseconds that digits stand for, two each for month, day, hour and minute, perhaps behind
a year and in front of seconds. -/
def readStamp? (now : Int) (s : String) : Option Int :=
  let cs := s.toList
  let digits := cs.takeWhile Char.isDigit
  let seconds : Option Int := match cs.drop digits.length with
    | [] => some 0
    | ['.', a, b] =>
      if a.isDigit && b.isDigit then some ((a.toNat - 48) * 10 + (b.toNat - 48) : Nat) else none
    | _ => none
  let value (from' size : Nat) : Int :=
    ((digits.drop from').take size).foldl (fun n c => 10 * n + (c.toNat - 48)) 0
  let year : Option (Int × Nat) :=
    if digits.length = 8 then some ((Moment.ofNanos now).year, 0)
    else if digits.length = 10 then some (DateReading.fullYear ⟨String.ofList (digits.take 2), false⟩, 2)
    else if digits.length = 12 then some (value 0 4, 4)
    else none
  match year, seconds with
  | some (y, k), some s =>
    let r : Option DateReading := (({} : DateReading).withDay y (value k 2) (value (k + 2) 2)).bind fun r =>
      (DateReading.timeOf? (value (k + 4) 2) (value (k + 6) 2) s 0 none).map fun t =>
        { r with time := some t }
    r.bind (·.settle now)
  | _, _ => none

end PatchSearch.Shell
