import PatchSearch.Shell.Pattern
import PatchSearch.Shell.Numerals
import PatchSearch.Shell.Utility.Facts
import PatchSearch.Shell.Utility.Sorting

/-!
Listings of directories. A listing is laid out in lines of facts, one name in a line, in columns or
with commas; its names are ordered, marked by what they stand for, and written in some style of
quoting. Directories come behind the files that are listed with them.
-/
namespace PatchSearch.Shell

open Run

/-- An item in a listing: the name it is shown by, and where it stands. A link that leads nowhere
is known by its name alone where links are followed. -/
structure Listed where
  name : String
  position : Position
  item : Item
  isLost : Bool := false

/-- How a listing is laid out. -/
inductive ListLayout where
  | facts
  | single
  | columns
  | rows
  | commas
  deriving DecidableEq

/-- What names are ordered by. -/
inductive ListOrder where
  | name
  | time
  | size
  | ending
  | version
  | width
  | none
  deriving DecidableEq

/-- Which items are marked behind their names: directories, all but files, or runnable files too. -/
inductive ListMarks where
  | none
  | directories
  | kinds
  | all
  deriving DecidableEq

/-- Which names that start with a point are listed: none, all, or all but those of the directory
and of the one it stands in. -/
inductive ListScope where
  | visible
  | almostAll
  | all
  deriving DecidableEq

/-- Which links are followed: none, those to directories among the operands, all operands, or all. -/
inductive LinkScope where
  | none
  | directories
  | operands
  | all
  deriving DecidableEq

/-- How names are listed. -/
structure ListMode where
  now : Nat
  layout : ListLayout := .single
  order : ListOrder := .name
  isReversed : Bool := false
  directoriesFirst : Bool := false
  marks : ListMarks := .none
  scope : ListScope := .visible
  hidden : List String := []
  ignored : List String := []
  links : LinkScope := .directories
  /-- Whether directories are listed like files. -/
  asItself : Bool := false
  recurses : Bool := false
  quoting : QuotingStyle := .plain
  hidesControls : Bool := false
  sizes : SizeStyle × Nat := ({}, 1)
  blocks : SizeStyle × Nat := ({}, 1024)
  showsNumber : Bool := false
  showsBlocks : Bool := false
  showsOwner : Bool := true
  showsGroup : Bool := true
  showsAuthor : Bool := false
  showsContext : Bool := false
  isNumeric : Bool := false
  /-- The formats of times long ago and of recent ones. -/
  times : String × String := listedTimes
  width : Nat := 80
  tabWidth : Nat := 8
  ending : String := "\n"

namespace ListMode

/-- Characters that names in a listing must not show as they are. -/
def special (m : ListMode) : String :=
  (if m.quoting == .escaping then " " else "") ++
    match m.marks with
    | .kinds => "*=>@|"
    | .all => "=>@|"
    | _ => ""

/-- The mark behind a name that tells what it is. -/
def mark (m : ListMode) (x : Item) : String :=
  match x.entry with
  | .directory => if m.marks == .none then "" else "/"
  | .link _ => if m.marks == .kinds || m.marks == .all then "@" else ""
  | .file _ => if m.marks == .all && x.isRunnable then "*" else ""

/-- The ending of a name, with its dot. -/
def ending? (name : String) : String :=
  let cs := name.toList.reverse
  if cs.contains '.' then "." ++ String.ofList (cs.takeWhile (· != '.')).reverse else ""

/-- What a link stands for in the end, and where. -/
def linked? (t : FileTree) (x : Listed) : Option (Position × Item) :=
  match x.item.entry with
  | .link target =>
    match t.followLinks true FileTree.maxLinks
        (FileTree.startFrom x.position.dropLast target) (pathSteps target) with
    | .ok p => (t.item? p).map (p, ·)
    | .error _ => none
  | _ => none

/-- A name as a listing shows it. -/
def nameText (m : ListMode) (name : String) : String :=
  let text := m.quoting.text m.special name
  if !m.hidesControls then text
  else
    onCharacters text fun s =>
      String.ofList (s.toList.map fun c => if isUnprintable c then '?' else c)

/-- The columns that a text takes. -/
def columnsOf (s : String) : Nat :=
  (spell s).length

/-- Names in the order in which they are listed. -/
def ordered (m : ListMode) (t : FileTree) (names : List Listed) : List Listed :=
  let byOrder (a b : Listed) : Ordering :=
    match m.order with
    | .size => compare (itemSize b.item) (itemSize a.item)
    | .time => compare b.item.changed a.item.changed
    | .ending => compare (ending? a.name) (ending? b.name)
    | .version => Version.compare a.name.toList b.name.toList
    | .width => compare (columnsOf (m.nameText a.name)) (columnsOf (m.nameText b.name))
    | _ => .eq
  let isBefore (a b : Listed) : Bool := ((byOrder a b).then (compare a.name b.name)) != .gt
  let sorted := if m.order == .none then names else names.mergeSort isBefore
  let turned := if m.isReversed && m.order != .none then sorted.reverse else sorted
  let isDirectory (x : Listed) : Bool :=
    x.item.entry.isDirectory || (linked? t x).any (·.2.entry.isDirectory)
  if m.directoriesFirst && m.order != .none then
    turned.filter isDirectory ++ turned.filter (!isDirectory ·)
  else turned

/-- A number of bytes, and one of blocks of a kilobyte. -/
def sizeText (m : ListMode) (size : Nat) : String :=
  m.sizes.1.text size 1 m.sizes.2

def blockText (m : ListMode) (blocks : Nat) : String :=
  m.blocks.1.text blocks 1024 m.blocks.2

/-- A text with blanks in front of it. -/
def right (width : Nat) (s : String) : String :=
  String.ofList (List.replicate (width - s.length) ' ') ++ s

/-- The widths of some facts of a listing: numbers of files, blocks, numbers of names, and sizes. -/
structure Widths where
  number : Nat
  blocks : Nat
  count : Nat
  owner : Nat
  size : Nat

/-- Facts that may be unknown. -/
def known (x : Listed) (text : String) : String :=
  if x.isLost then "?" else text

def numberText (x : Listed) : String :=
  known x (toString (x.item.number + 2))

def blocksOf (m : ListMode) (x : Listed) : String :=
  known x (m.blockText (itemBlocks x.item))

def countText (t : FileTree) (x : Listed) : String :=
  known x (toString (linkCount t x.position x.item))

def sizeOf (m : ListMode) (x : Listed) : String :=
  known x (m.sizeText (itemSize x.item))

/-- The widths that the facts of some names need. -/
def widths (m : ListMode) (t : FileTree) (names : List Listed) : Widths :=
  let widest (f : Listed → String) : Nat := names.foldl (fun n x => max n (f x).length) 0
  ⟨widest numberText, widest m.blocksOf, widest (countText t),
    widest (known · (if m.isNumeric then "0" else "root")), widest m.sizeOf⟩

/-- What stands in front of a name in any layout. -/
def frontText (m : ListMode) (w : Widths) (x : Listed) : String :=
  let (numbers, blocks) := if m.layout == .commas then (0, 0) else (w.number, w.blocks)
  (if m.showsNumber then right numbers (numberText x) ++ " " else "") ++
    (if m.showsBlocks then right blocks (m.blocksOf x) ++ " " else "") ++
    if m.showsContext && m.layout != .facts then "? " else ""

/-- A blank in front of a name without quotes, where others of the listing have them. -/
def padText (m : ListMode) (names : List Listed) (x : Listed) : String :=
  let aligns := m.quoting.isMixed && (m.layout == .facts ||
    (m.layout == .columns || m.layout == .rows) && m.width != 0)
  let quotes (y : Listed) : Bool := m.quoting.quotes m.special y.name
  if aligns && names.any quotes && !quotes x then " " else ""

/-- The facts about an item in front of its name. -/
def factsText (m : ListMode) (t : FileTree) (w : Widths) (x : Listed) : String :=
  let user := known x (if m.isNumeric then "0" else "root")
  let owner := padded (!m.isNumeric) w.owner user ++ " "
  let time := if x.isLost then right (Moment.ofNanos 0 |>.format m.times.2).length "?"
    else itemTime m.now m.times x.item
  (if x.isLost then "l?????????" else itemRights x.item) ++ " " ++
    right w.count (countText t x) ++ " " ++ (if m.showsOwner then owner else "") ++
    (if m.showsGroup then owner else "") ++ (if m.showsAuthor then owner else "") ++
    (if m.showsContext then "? " else "") ++ right w.size (m.sizeOf x) ++ " " ++ time ++ " "

/-- A text for each name, as wide as it needs to be beside others. -/
def lines (m : ListMode) (t : FileTree) (others names : List Listed) : List String :=
  let w := m.widths t (others ++ names)
  names.map fun x =>
    let name := m.padText names x ++ m.nameText x.name
    m.frontText w x ++
      if m.layout == .facts then
        m.factsText t w x ++ name ++
          match x.item.entry, x.isLost with
          | .link target, false =>
            let mark := if m.marks == .directories then "" else ((linked? t x).map (m.mark ·.2)).getD ""
            " -> " ++ m.nameText (octets target) ++ mark
          | _, true => ""
          | _, _ => m.mark x.item
      else name ++ m.mark x.item

/-- The column of an item out of so many, and the widths of so many columns. -/
def columnOf (down : Bool) (count columns i : Nat) : Nat :=
  if down then i / ((count + columns - 1) / columns) else i % columns

def columnWidths (down : Bool) (items : List String) (columns : Nat) : List Nat :=
  (List.range columns).map fun k =>
    (items.zipIdx.filter fun x => columnOf down items.length columns x.2 == k).foldl
      (fun n x => max n (columnsOf x.1 + if k + 1 = columns then 0 else 2)) 3

/-- Blanks from one place of a line to another one, with tabs where they reach. -/
def blanksTo (tab : Nat) : Nat → Nat → Nat → String
  | 0, _, _ => ""
  | n + 1, start, goal =>
    if goal ≤ start then ""
    else if tab != 0 && (start + 1) / tab < goal / tab then
      "\t" ++ blanksTo tab n ((start / tab + 1) * tab) goal
    else " " ++ blanksTo tab n (start + 1) goal

/-- Items in as many columns as a line has room for, filled one after the other or row by row. -/
def inColumns (m : ListMode) (down : Bool) (items : List String) : String :=
  let count := items.length
  let most := min count ((m.width + 2) / 3)
  let fits (columns : Nat) : Bool :=
    let widths := columnWidths down items columns
    widths.foldl (· + ·) 0 < m.width || widths.all (· == 3)
  let columns := (((List.range most).map (· + 1)).reverse.find? fits).getD 1
  let widths := columnWidths down items columns
  let rows := (count + columns - 1) / columns
  let inRow (r : Nat) : List String :=
    if down then (List.range columns).filterMap fun k => items[k * rows + r]?
    else (items.drop (r * columns)).take columns
  let line (r : Nat) : String :=
    let names := inRow r
    let parts := names.zipIdx.foldl (fun (state : String × Nat) x =>
      let goal := state.2 + (widths[x.2]?).getD 0
      let blanks := if x.2 + 1 = names.length then ""
        else blanksTo m.tabWidth goal (state.2 + columnsOf x.1) goal
      (state.1 ++ x.1 ++ blanks, goal)) ("", 0)
    parts.1 ++ m.ending
  String.join ((List.range rows).map line)

/-- Items with something between them, in lines that are not too long. -/
def withSeparator (m : ListMode) (separator : String) (items : List String) : String :=
  let state := items.zipIdx.foldl (fun (state : String × Nat) x =>
    let (s, i) := x
    let size := columnsOf s
    if i = 0 then (s, size)
    else if m.width = 0 || state.2 + size + 2 < m.width then
      (state.1 ++ separator ++ " " ++ s, state.2 + size + 2)
    else (state.1 ++ separator ++ m.ending ++ s, size)) ("", 0)
  state.1 ++ m.ending

/-- Lines of a listing as its text. -/
def text (m : ListMode) (lines : List String) : String :=
  if lines.isEmpty then ""
  else
    match m.layout with
    | .commas => m.withSeparator "," lines
    | .columns => if m.width = 0 then m.withSeparator " " lines else m.inColumns true lines
    | .rows => if m.width = 0 then m.withSeparator " " lines else m.inColumns false lines
    | _ => String.join (lines.map (· ++ m.ending))

/-- Whether a name is left out. -/
def leavesOut (m : ListMode) (name : String) : Bool :=
  let fits (p : String) : Bool :=
    (!name.startsWith "." || p.startsWith ".") &&
      matchesPattern (pattern (p.toList.map (·, false))) name.toList
  (m.scope == .visible && (name.startsWith "." || m.hidden.any fits)) ||
    (m.scope == .almostAll && (name == "." || name == "..")) || m.ignored.any fits

/-- Whether links below a directory are followed: only if anything but their names matters. -/
def followsInside (m : ListMode) : Bool :=
  m.links == .all && (m.order == .time || m.order == .size || m.layout == .facts ||
    m.showsBlocks || m.showsContext || m.showsNumber || m.recurses || m.directoriesFirst ||
    m.marks != .none)

/-- An item as it is listed below a directory. -/
def listed (m : ListMode) (t : FileTree) (name : String) (p : Position) (x : Item) : Listed :=
  let plain : Listed := { name, position := p, item := x }
  match m.followsInside, x.entry with
  | true, .link _ =>
    match linked? t plain with
    | some (q, y) => { plain with position := q, item := y }
    | none => { plain with isLost := true }
  | _, _ => plain

/-- What is listed of a directory. -/
def inside (m : ListMode) (t : FileTree) (p : Position) : List Listed :=
  let names := (t.namesBelow p).filterMap fun n =>
    (t.item? (p ++ [n])).map fun x => m.listed t (octets n) (p ++ [n]) x
  let own (name : String) (p : Position) : List Listed :=
    (t.item? p).toList.map fun x => { name, position := p, item := x }
  m.ordered t ((own "." p ++ own ".." p.dropLast ++ names).filter fun x => !m.leavesOut x.name)

/-- The total of the blocks of some items, in a line. -/
def totalText (m : ListMode) (names : List Listed) : String :=
  if m.layout == .facts || m.showsBlocks then
    let blocks := names.foldl (fun n x => if x.isLost then n else n + itemBlocks x.item) 0
    "total " ++ m.blockText blocks ++ m.ending
  else ""

/-- Lists a directory, and those below it if that is asked for. `titled` tells that its name stands
in front. -/
def tellDirectory (m : ListMode) (program : String) (titled : Bool) :
    Nat → Bool → String → Position → Run Unit
  | 0, _, _, _ => return
  | n + 1, isFirst, name, p => do
    let t ← files
    let found := m.inside t p
    for x in found do
      if x.isLost then
        let shown := if name == "." then x.name else below name x.name
        lament program ("cannot access " ++ inQuotes shown ++ ": No such file or directory")
    let title := if titled then m.quoting.text ":" name ++ ":" ++ m.ending else ""
    emit program ((if isFirst then "" else m.ending) ++ title ++ m.totalText found ++
      m.text (m.lines t [] found))
    if m.recurses then
      for x in found do
        if x.item.entry.isDirectory && x.name != "." && x.name != ".." then
          m.tellDirectory program titled n false (below name x.name) x.position

end ListMode

/-- What listings understand. -/
def listOptions : OptionNames :=
  { plain := "1aAbBcCdDfFgGhHiklLmnNopqQrRsStuUvxXZγωτζςαδξ", valued := "wITσψφλμρβη"
    attached := "κχυ"
    long := [("all", 'a'), ("almost-all", 'A'), ("author", 'α'), ("escape", 'b'),
      ("block-size", 'β'), ("ignore-backups", 'B'), ("color", 'κ'), ("directory", 'd'),
      ("dired", 'D'), ("classify", 'χ'), ("file-type", 'τ'), ("format", 'λ'), ("full-time", 'ω'),
      ("group-directories-first", 'γ'), ("no-group", 'G'), ("human-readable", 'h'), ("si", 'ς'),
      ("dereference-command-line", 'H'), ("dereference-command-line-symlink-to-dir", 'δ'),
      ("hide", 'η'), ("hyperlink", 'υ'), ("indicator-style", 'μ'), ("inode", 'i'),
      ("ignore", 'I'), ("kibibytes", 'k'), ("dereference", 'L'), ("numeric-uid-gid", 'n'),
      ("literal", 'N'), ("hide-control-chars", 'q'), ("show-control-chars", 'ξ'),
      ("quote-name", 'Q'), ("quoting-style", 'ρ'), ("reverse", 'r'), ("recursive", 'R'),
      ("size", 's'), ("sort", 'σ'), ("time", 'φ'), ("time-style", 'ψ'), ("tabsize", 'T'),
      ("width", 'w'), ("context", 'Z'), ("zero", 'ζ')] }

/-- The words for whether something is done. -/
def occasionWords : List (List String) :=
  [["always", "yes", "force"], ["never", "no", "none"], ["auto", "tty", "if-tty"]]

/-- The formats of times that a word or a format asks for. -/
def ListMode.withTimeStyle (program : String) (m : ListMode) (value : String) : Run ListMode := do
  let style := if value.startsWith "posix-" then String.ofList (value.toList.drop 6) else value
  let both (format : String) : ListMode := { m with times := (format, format) }
  if value.startsWith "posix-" then return m
  else if style.startsWith "+" then
    match (String.ofList (style.toList.drop 1)).splitOn "\n" with
    | [format] => return both format
    | [old, recent] => return { m with times := (old, recent) }
    | _ => fail program 2 ("invalid time style format " ++ cited style)
  else
    let words := ["full-iso", "long-iso", "iso", "locale"]
    match wordOf? words style with
    | some "full-iso" => return both "%Y-%m-%d %H:%M:%S.%N %z"
    | some "long-iso" => return both "%Y-%m-%d %H:%M"
    | some "iso" => return { m with times := ("%Y-%m-%d ", "%m-%d %H:%M") }
    | some _ => return { m with times := listedTimes }
    | none =>
      misuse program 2 ("invalid argument " ++ cited style ++ " for " ++ cited "time style" ++
        "\nValid arguments are:\n  - [posix-]full-iso\n  - [posix-]long-iso\n  - [posix-]iso" ++
        "\n  - [posix-]locale\n  - +FORMAT (e.g., +%H:%M) for a \x27date\x27-style format")

/-- Options that change the layout, the order and the marks of a listing. -/
def ListMode.withOption (program : String) (m : ListMode) : Char × String → Run ListMode
  | (c, value) => do
    let word (option : String) (groups : List (List String)) : Run String :=
      chosenWord program 1 option groups value
    let alone (words : List String) : List (List String) := words.map ([·])
    match c with
    | 'l' => return { m with layout := .facts }
    | 'n' => return { m with layout := .facts, isNumeric := true }
    | 'g' => return { m with layout := .facts, showsOwner := false }
    | 'o' => return { m with layout := .facts, showsGroup := false }
    | 'ω' =>
      let format := "%Y-%m-%d %H:%M:%S.%N %z"
      return { m with layout := .facts, times := (format, format) }
    | '1' => return if m.layout == .facts then m else { m with layout := .single }
    | 'C' => return { m with layout := .columns }
    | 'x' => return { m with layout := .rows }
    | 'm' => return { m with layout := .commas }
    | 'λ' =>
      let w ← word "--format" [["verbose", "long"], ["commas"], ["horizontal", "across"],
        ["vertical"], ["single-column"]]
      let layout : ListLayout := match w with
        | "verbose" => .facts
        | "commas" => .commas
        | "horizontal" => .rows
        | "vertical" => .columns
        | _ => .single
      return { m with layout }
    | 'f' =>
      let layout := if m.layout == .facts then .single else m.layout
      return { m with layout, order := .none, scope := .all, showsBlocks := false }
    | 'ζ' =>
      let layout := if m.layout == .facts then .facts else .single
      return { m with layout, ending := "\x00", quoting := .plain, hidesControls := false }
    | 't' => return { m with order := .time }
    | 'S' => return { m with order := .size }
    | 'X' => return { m with order := .ending }
    | 'v' => return { m with order := .version }
    | 'U' => return { m with order := .none }
    | 'σ' =>
      let w ← word "--sort" (alone ["none", "time", "size", "extension", "version", "width"])
      let order : ListOrder := match w with
        | "none" => .none
        | "time" => .time
        | "size" => .size
        | "extension" => .ending
        | "version" => .version
        | _ => .width
      return { m with order }
    | 'φ' =>
      discard <| word "--time"
        [["atime", "access", "use"], ["ctime", "status"], ["birth", "creation"]]
      return m
    | 'F' => return { m with marks := .all }
    | 'χ' =>
      let w ← if value.isEmpty then pure "always" else word "--classify" occasionWords
      return if w == "always" then { m with marks := .all } else m
    | 'κ' =>
      if !value.isEmpty then discard <| word "--color" occasionWords
      return m
    | 'υ' =>
      if !value.isEmpty then discard <| word "--hyperlink" occasionWords
      return m
    | 'p' => return { m with marks := .directories }
    | 'τ' => return { m with marks := .kinds }
    | 'μ' =>
      let w ← word "--indicator-style" (alone ["none", "slash", "file-type", "classify"])
      let marks : ListMarks := match w with
        | "none" => .none
        | "slash" => .directories
        | "file-type" => .kinds
        | _ => .all
      return { m with marks }
    | 'b' => return { m with quoting := .escaping }
    | 'N' => return { m with quoting := .plain }
    | 'Q' => return { m with quoting := .double true }
    | 'ρ' =>
      let w ← word "--quoting-style" (alone (QuotingStyle.named.map Prod.fst))
      return { m with quoting := (QuotingStyle.named.lookup w).getD .plain }
    | 'h' => return { m with sizes := (.short, 1), blocks := (.short, 1) }
    | 'ς' =>
      return { m with sizes := (.shortByThousands, 1), blocks := (.shortByThousands, 1) }
    | 'β' =>
      match SizeStyle.read value with
      | .ok style => return { m with sizes := style, blocks := style }
      | .error fault => fail program 2 (fault.message "--block-size" value)
    | 'a' => return { m with scope := .all }
    | 'A' => return { m with scope := .almostAll }
    | 'B' => return { m with ignored := "*~" :: ".*~" :: m.ignored }
    | 'I' => return { m with ignored := value :: m.ignored }
    | 'η' => return { m with hidden := value :: m.hidden }
    | 'q' => return { m with hidesControls := true }
    | 'ξ' => return { m with hidesControls := false }
    | 'w' =>
      match readSize true "" value with
      | .ok n => return { m with width := n }
      | .error .tooLarge => return { m with width := 0 }
      | .error _ => fail program 2 ("invalid line width: " ++ cited value)
    | 'T' =>
      match readSize true "" value with
      | .ok n => return { m with tabWidth := n }
      | .error _ => fail program 2 ("invalid tab size: " ++ cited value)
    | 'ψ' => m.withTimeStyle program value
    | _ => return m

/-- A mode with what variables ask for. -/
def ListMode.withVariables (program : String) (m : ListMode) (o : Options) : Run ListMode := do
  let exported := (← get).environment
  let valueOf (name : String) : Option String := exported.lookup name
  let ignoring (what name value : String) : Run Unit :=
    warn program ("ignoring invalid " ++ what ++ " " ++ name ++ ": " ++ cited value)
  let mut m := m
  let blocks := SizeStyle.ofVariables "LS_BLOCK_SIZE" valueOf
  let sizesToo := ["LS_BLOCK_SIZE", "BLOCK_SIZE"].any fun n => (valueOf n).isSome
  m := { m with blocks, sizes := if sizesToo then blocks else m.sizes }
  if let some s := valueOf "QUOTING_STYLE" then
    match (wordOf? (QuotingStyle.named.map Prod.fst) s).bind (List.lookup · QuotingStyle.named) with
    | some quoting => m := { m with quoting }
    | none => ignoring "value of environment variable" "QUOTING_STYLE" s
  let inLines := ['C', 'x', 'm'].any o.has || (o.value? 'λ').any fun w =>
    !(["long", "verbose", "single-column"].contains w)
  if inLines || m.layout == .columns then
    if let some s := (valueOf "COLUMNS").filter fun s => !s.isEmpty && !o.has 'w' then
      match readSize true "" s with
      | .ok width => m := { m with width }
      | .error _ => ignoring "width in environment variable" "COLUMNS" s
    if let some s := (valueOf "TABSIZE").filter fun _ => !o.has 'T' then
      match readSize true "" s with
      | .ok tabWidth => m := { m with tabWidth }
      | .error _ => ignoring "tab size in environment variable" "TABSIZE" s
  return m

/-- What options ask of a listing that starts from another mode. -/
def listModeOf (program : String) (initial : ListMode) (o : Options) : Run ListMode := do
  let initial ← initial.withVariables program o
  let m ← o.flags.foldlM (ListMode.withOption program) initial
  let m ← match (← get).environment.lookup "TIME_STYLE" with
    | some style =>
      if m.layout == .facts && !o.has 'ψ' && !o.has 'ω' then m.withTimeStyle program style
      else pure m
    | none => pure m
  let timed := ['c', 'u', 'φ'].any o.has
  let ordered := ['t', 'S', 'X', 'v', 'U', 'f', 'σ'].any o.has
  let sized := ['h', 'ς', 'β'].any o.has
  let plainly := o.has 'd' || m.marks == .all || m.layout == .facts
  let links : LinkScope := match o.last? ['L', 'H', 'δ'] with
    | some 'L' => .all
    | some 'H' => .operands
    | some _ => .directories
    | none => if plainly then .none else .directories
  return { m with
    links
    order := if timed && !ordered && m.layout != .facts then .time else m.order
    isReversed := o.has 'r'
    directoriesFirst := o.has 'γ'
    asItself := o.has 'd'
    recurses := o.has 'R'
    blocks := if sized || !o.has 'k' then m.blocks else ({}, 1024)
    showsNumber := o.has 'i'
    showsBlocks := m.showsBlocks && o.has 's'
    showsGroup := m.showsGroup && !o.has 'G'
    showsAuthor := o.has 'α'
    showsContext := o.has 'Z' }

/-- An operand of a listing as it is shown. -/
def listedOperand (m : ListMode) (t : FileTree) (name : String) :
    Except FileError Listed := do
  let plain : Except FileError Listed := do
    let (p, x) ← t.findLinkItem (path name)
    return { name, position := p, item := x }
  let followed : Except FileError Listed := do
    let (p, x) ← t.findItem (path name)
    return { name, position := p, item := x }
  match m.links with
  | .none => plain
  | .all => followed
  | .operands =>
    match followed with
    | .ok x => return x
    | .error _ => plain
  | .directories =>
    match followed with
    | .ok x => if x.item.entry.isDirectory then return x else plain
    | .error _ => plain

/-- `ls`, and others that start from another mode. -/
def listFiles (program : String) (initial : ListMode) : Utility :=
  withOptions program listOptions (fun o => do
    let t ← files
    let m ← listModeOf program { initial with now := t.now, showsBlocks := true } o
    let mut single : List Listed := []
    let mut directories : List Listed := []
    for name in if o.operands.isEmpty then ["."] else o.operands do
      match listedOperand m t name with
      | .error e =>
        if deviceNames.contains name then
          single := { name, position := [], item := ⟨.file .empty, 0, 438, 0⟩ } :: single
        else
          warn program ("cannot access " ++ inQuotes name ++ ": " ++ causeText e)
          setStatus 2
      | .ok x =>
        if x.item.entry.isDirectory && !m.asItself then directories := x :: directories
        else single := x :: single
    let found := m.ordered t single.reverse
    emit program (m.text (m.lines t directories found))
    let titled := 1 < o.operands.length || m.recurses
    for (d, i) in (m.ordered t directories.reverse).zipIdx do
      m.tellDirectory program titled (t.items.length + 1) (i = 0 && found.isEmpty) d.name d.position)
    true 2

/-- `ls`. -/
def listPlainly : Utility :=
  listFiles "ls" { now := 0 }

/-- `dir`. -/
def listInColumns : Utility :=
  listFiles "dir" { now := 0, layout := .columns, quoting := .escaping }

/-- `vdir`. -/
def listWithFacts : Utility :=
  listFiles "vdir" { now := 0, layout := .facts, quoting := .escaping }

end PatchSearch.Shell
