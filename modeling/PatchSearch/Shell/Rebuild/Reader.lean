import PatchSearch.Shell.Rebuild.Expand

/-!
Reading rules. A line sets a value, opens or closes a condition, reads a further text, or names
targets and what they need; lines behind a tab are the recipe of the rule in front of them. Lines
may go on behind a backslash.
-/
namespace PatchSearch.Shell.Rebuild

open Run

/-- A line with those that it goes on in, and the number of the first of them. -/
structure FullLine where
  number : Nat
  parts : List String

/-- Whether a line goes on. -/
def goesOn (line : String) : Bool :=
  (line.toList.reverse.takeWhile (· == '\\')).length % 2 = 1

/-- Lines grouped with those that they go on in. -/
def fullLinesOf (number : Nat) : List String → List FullLine
  | [] => []
  | line :: rest =>
    if goesOn line then
      match fullLinesOf (number + 1) rest with
      | next :: more => ⟨number, line :: next.parts⟩ :: more
      | [] => [⟨number, [line]⟩]
    else ⟨number, [line]⟩ :: fullLinesOf (number + 1) rest

namespace FullLine

/-- The text as one line, with a blank for each break. -/
def text (l : FullLine) : String :=
  let cut (s : String) : List Char := if goesOn s then s.toList.dropLast else s.toList
  match l.parts with
  | [] => ""
  | [s] => s
  | first :: rest =>
    let trimEnd (cs : List Char) : List Char := (cs.reverse.dropWhile isSpace).reverse
    let middle := rest.map fun s => (cut s).dropWhile isSpace
    String.ofList (middle.foldl (fun done cs => trimEnd done ++ ' ' :: cs) (cut first))

def isRecipe (l : FullLine) : Bool :=
  (l.parts.headD "").startsWith "\t"

/-- The text of a command: breaks stay, and one tab goes from each line. -/
def command (l : FullLine) : String :=
  let withoutTab (s : String) : String :=
    if s.startsWith "\t" then String.ofList (s.toList.drop 1) else s
  String.intercalate "\n" (l.parts.map withoutTab)

end FullLine

/-- A text up to a sign for a remark; a backslash takes the meaning of the sign away. -/
def withoutRemark : List Char → List Char
  | [] => []
  | '\\' :: '#' :: cs => '#' :: withoutRemark cs
  | '#' :: _ => []
  | c :: cs => c :: withoutRemark cs

/-- What stands before the first of some characters outside of references, and from it on. -/
def splitOutside (test : Char → Bool) : Nat → List Char → List Char → List Char × List Char
  | _, taken, [] => (taken.reverse, [])
  | 0, taken, '$' :: c :: cs =>
    if c == '(' || c == '\x7b' then splitOutside test 1 (c :: '$' :: taken) cs
    else splitOutside test 0 (c :: '$' :: taken) cs
  | 0, taken, '\\' :: c :: cs =>
    if test c then splitOutside test 0 (c :: taken) cs
    else splitOutside test 0 ('\\' :: taken) (c :: cs)
  | 0, taken, c :: cs =>
    if test c then (taken.reverse, c :: cs) else splitOutside test 0 (c :: taken) cs
  | depth + 1, taken, c :: cs =>
    let depth := if c == '(' || c == '\x7b' then depth + 2
      else if c == ')' || c == '\x7d' then depth else depth + 1
    splitOutside test depth (c :: taken) cs
termination_by _ _ cs => cs.length

/-- A setting with its value, if a text is one. -/
def assignment? (s : String) : Option Assignment :=
  let cs := s.toList.dropWhile isSpace
  let (name, rest) := splitOutside (fun c => isSpace c || "=:+?!#".toList.contains c) 0 [] cs
  let rec operator : Nat → List Char → List Char → Option (String × Setter × List Char)
    | 0, _, _ => none
    | n + 1, name, cs =>
      let isGap := cs.head?.any isSpace
      let found (setter : Setter) (k : Nat) : Option (String × Setter × List Char) :=
        some (String.ofList name, setter, (cs.dropWhile isSpace).drop k)
      match cs.dropWhile isSpace with
      | '=' :: _ => found .deferred 1
      | ':' :: '=' :: _ => found .direct 2
      | ':' :: ':' :: '=' :: _ => found .direct 3
      | '+' :: '=' :: _ => found .added 2
      | '?' :: '=' :: _ => found .missingOnly 2
      | '!' :: '=' :: _ => found .output 2
      | c :: rest =>
        if isGap || c == ':' || c == '#' then none
        else
          let (more, rest) :=
            splitOutside (fun c => isSpace c || "=:+?!#".toList.contains c) 0 [] rest
          operator n (name ++ c :: more) rest
      | [] => none
  match operator (s.length + 1) name rest with
  | some (name, setter, rest) =>
    if name.isEmpty then none
    else some { name, setter, value := String.ofList (rest.dropWhile isSpace) }
  | none => none

/-- A setting behind words that mark it. -/
def markedAssignment? : Nat → String → Option Assignment
  | 0, _ => none
  | n + 1, s =>
    match assignment? s with
    | some a => some a
    | none =>
      let cs := s.toList.dropWhile isSpace
      let word := String.ofList (cs.takeWhile (!isSpace ·))
      let rest := String.ofList (cs.drop word.length)
      match word with
      | "export" => (markedAssignment? n rest).map fun a => { a with exported := some true }
      | "unexport" => (markedAssignment? n rest).map fun a => { a with exported := some false }
      | "override" => (markedAssignment? n rest).map fun a => { a with overrides := true }
      | "private" => markedAssignment? n rest
      | _ => none

/-- How deep expansions go. -/
def depthLimit : Nat := 100000

/-- The setting that an assignment makes, given the one before it. -/
def settingOf (s : Surroundings) (a : Assignment) (old : Option Setting) (origin : Origin) :
    Build (Option Setting) := do
  let origin := if a.overrides then .overriding else origin
  let exported := a.exported
  match a.setter with
  | .deferred => return some { value := a.value, origin, exported }
  | .direct =>
    return some { value := ← expand s depthLimit a.value, isDeferred := false, origin, exported }
  | .output =>
    let value ← outputOf s (← expand s depthLimit a.value)
    return some { value, origin, exported }
  | .missingOnly => return if old.isSome then none else some { value := a.value, origin, exported }
  | .added =>
    match old with
    | none => return some { value := a.value, origin, exported }
    | some v =>
      let more ← if v.isDeferred then pure a.value else expand s depthLimit a.value
      let value := if v.value.isEmpty then more else v.value ++ " " ++ more
      let origin := if v.origin == .overriding && !a.overrides then .file else origin
      return some { v with value, origin, exported := exported.orElse fun _ => v.exported }

/-- Gives a setting its value for all rules. -/
def assign (s : Surroundings) (a : Assignment) (origin : Origin) : Build Unit := do
  let name := trimmed (← expand s depthLimit a.name)
  if name.isEmpty then Build.stopHere "empty variable name"
  let place := (← Build.book).place
  match ← settingOf s a ((← Build.book).settings[name]?) origin with
  | some v =>
    Build.put name { v with place }
    if name == ".DEFAULT_GOAL" then
      let goal ← expand s depthLimit v.value
      modifyThe Book fun b => { b with goal := if goal.isEmpty then none else some (trimmed goal) }
  | none => return

/-- Part of a text under a condition: whether its lines count, whether an earlier part counted or
none can, and whether it is the last part. -/
structure Condition where
  counts : Bool
  isSettled : Bool
  isLast : Bool := false

/-- A rule whose recipe may still go on. -/
structure OpenRule where
  line : Nat
  targets : List String
  needs : List Need
  isSeparate : Bool := false
  isGrouped : Bool := false
  /-- The pattern that targets are compared with to find their stems. -/
  pattern : Option String := none
  /-- The line of the first command, and the commands, last one first. -/
  recipeLine : Option Nat := none
  commands : List String := []

/-- How far a text was read. -/
structure TextReading where
  conditions : List Condition := []
  open? : Option OpenRule := none
  /-- Whether recipes are passed over since their rule had no targets. -/
  passesRecipe : Bool := false

namespace TextReading

def isActive (r : TextReading) : Bool :=
  r.conditions.all (·.counts)

end TextReading

/-- What is needed, with a bar in front of what only has to be there first. -/
def needsOf (words : List String) : List Need :=
  let front := words.takeWhile (· != "|")
  let back := words.drop (front.length + 1)
  front.map (fun w => ⟨plainName w, false⟩) ++ back.map fun w => ⟨plainName w, true⟩

/-- A name of two endings as a rule for patterns: what it needs and what it makes. -/
def endingPair? (endings : List String) (name : String) : Option (String × String) :=
  if endings.contains name then some (name, "")
  else
    endings.findSome? fun a =>
      if name.startsWith a then
        let rest := String.ofList (name.toList.drop a.length)
        if endings.contains rest then some (a, rest) else none
      else none

/-- Adds a rule for one target. -/
def addRule (name : String) (rule : Rule) (isSeparate : Bool) (file : Option (String × Nat)) :
    Build Unit := do
  let t ← Build.target name
  for need in rule.needs do
    modifyThe Book fun b => { b with mentioned := b.mentioned.insert need.name () }
  if t.isTarget && (!t.separate.isEmpty != isSeparate) && (isSeparate || !t.separate.isEmpty) then
    modifyThe Book fun b => { b with place := file }
    Build.stopHere ("target file \x27" ++ name ++ "\x27 has both : and :: entries")
  if isSeparate then
    Build.changeTarget name fun t =>
      { t with isTarget := true, separate := t.separate ++ [rule] }
  else
    match rule.recipe, t.rule.recipe with
    | some new, some old =>
      let warn (r : Recipe) (text : String) : Build Unit :=
        Build.run (tell ((r.file.getD "") ++ ":" ++ toString r.line ++ ": warning: " ++ text ++
          " for target \x27" ++ name ++ "\x27\n"))
      warn new "overriding recipe"
      warn old "ignoring old recipe"
    | _, _ => pure ()
    Build.changeTarget name fun t =>
      let needs := if rule.recipe.isSome then rule.needs ++ t.rule.needs
        else t.rule.needs ++ rule.needs
      let base := if rule.recipe.isSome || t.rule.recipe.isNone && t.rule.stem.isEmpty then
          { rule with recipe := rule.recipe.orElse fun _ => t.rule.recipe }
        else t.rule
      { t with isTarget := true, rule := { base with needs } }

/-- Takes a rule to the book once its recipe is complete. -/
def closeRule (file : String) (r : TextReading) : Build TextReading := do
  match r.open? with
  | none => return r
  | some o =>
    let recipe : Option Recipe := o.recipeLine.map fun line =>
      ⟨some file, line, o.commands.reverse⟩
    let place := (file, o.line)
    let b ← Build.book
    let stopAt (text : String) : Build Unit := do
      modifyThe Book fun b => { b with place := some place }
      Build.stopHere text
    if o.pattern.isNone && o.targets.any hasPercent then
      if !o.targets.all hasPercent then stopAt "mixed implicit and normal rules"
      modifyThe Book fun b => { b with patterns :=
        let same (p : PatternRule) : Bool := p.targets == o.targets && p.needs == o.needs
        (b.patterns.filter (!same ·)) ++
          [⟨o.targets, o.needs, recipe, o.isSeparate⟩] }
    else
      for name in o.targets do
        match o.pattern with
        | some p =>
          match stem? p name with
          | some stem =>
            let needs := o.needs.map fun d => { d with name := withStem d.name stem }
            addRule name { needs, recipe, stem } o.isSeparate (some place)
          | none =>
            Build.run (tell (file ++ ":" ++ toString o.line ++ ": target \x27" ++ name ++
              "\x27 doesn\x27t match the target pattern\n"))
        | none =>
          if name == ".SUFFIXES" then
            modifyThe Book fun b => { b with
              endings := if o.needs.isEmpty then [] else b.endings ++ o.needs.map (·.name) }
          match endingPair? b.endings name, recipe with
          | some (source, made), some recipe =>
            if o.needs.isEmpty then
              let rule : PatternRule := ⟨["%" ++ made], [⟨"%" ++ source, false⟩], some recipe, false⟩
              let same (p : PatternRule) : Bool :=
                p.targets == rule.targets && p.needs == rule.needs
              modifyThe Book fun b => { b with patterns := b.patterns.filter (!same ·) ++ [rule] }
          | _, _ => pure ()
          let siblings := if o.isGrouped then o.targets.filter (· != name) else []
          addRule name { needs := o.needs, recipe, siblings } o.isSeparate (some place)
        let b ← Build.book
        let isHidden := name.startsWith "." && !name.toList.contains '/'
        if b.goal.isNone && !isHidden && (endingPair? b.endings name).isNone then
          modifyThe Book fun b => { b with goal := some name }
    return { r with open? := none }

/-- Whether a condition holds that compares two texts, as it stands behind its word. -/
def comparedTexts? (cs : List Char) : Option (String × String) :=
  match cs.dropWhile isSpace with
  | '(' :: rest =>
    let rec go : Nat → List Char → List Char → Option (List Char × List Char)
      | _, _, [] => none
      | depth, taken, c :: cs =>
        if c == ',' && depth = 0 then some (taken.reverse, cs)
        else go (if c == '(' then depth + 1 else if c == ')' then depth - 1 else depth)
          (c :: taken) cs
    match go 0 [] rest with
    | none => none
    | some (a, rest) =>
      match upToClosing? '(' 0 [] rest with
      | some (b, _) =>
        some (String.ofList ((a.reverse.dropWhile isSpace).reverse), String.ofList (b.dropWhile isSpace))
      | none => none
  | q :: rest =>
    if q != '"' && q != '\x27' then none
    else
      let a := rest.takeWhile (· != q)
      match (rest.drop (a.length + 1)).dropWhile isSpace with
      | q' :: rest' =>
        if q' != '"' && q' != '\x27' then none
        else some (String.ofList a, String.ofList (rest'.takeWhile (· != q')))
      | [] => none
  | [] => none

/-- Whether a condition holds; nothing if it cannot be read. -/
def conditionHolds? (s : Surroundings) (word rest : String) : Build (Option Bool) := do
  match word with
  | "ifdef" | "ifndef" =>
    let name := trimmed (← expand s depthLimit rest)
    if name.isEmpty || (wordsOf name).length != 1 then return none
    let isSet := ((← Build.setting? name).map fun v => !v.value.isEmpty).getD false
    return some (isSet == (word == "ifdef"))
  | _ =>
    match comparedTexts? rest.toList with
    | none => return none
    | some (a, b) =>
      let a ← expand s depthLimit a
      let b ← expand s depthLimit b
      return some ((a == b) == (word == "ifeq"))

/-- Reads a line of a condition. -/
def readCondition (s : Surroundings) (word rest : String) (r : TextReading) :
    Build TextReading := do
  let isOuter := r.isActive
  let begin' (word rest : String) : Build Condition := do
    match ← conditionHolds? s word rest with
    | some holds => return ⟨holds, holds, false⟩
    | none => Build.stopHere "invalid syntax in conditional"
  match word with
  | "endif" =>
    match r.conditions with
    | _ :: cs => return { r with conditions := cs }
    | [] => Build.stopHere "extraneous \x27endif\x27"
  | "else" =>
    match r.conditions with
    | [] => Build.stopHere "extraneous \x27else\x27"
    | c :: cs =>
      if c.isLast then Build.stopHere "only one \x27else\x27 per conditional"
      let words := wordsOf rest
      match words with
      | [] =>
        return { r with conditions := ⟨!c.isSettled, true, true⟩ :: cs }
      | word :: _ =>
        if !(["ifdef", "ifndef", "ifeq", "ifneq"].contains word) then
          Build.tellHere "extraneous text after \x27else\x27 directive"
          return { r with conditions := ⟨!c.isSettled, true, true⟩ :: cs }
        if c.isSettled then return { r with conditions := { c with counts := false } :: cs }
        let behind := String.ofList ((rest.toList.dropWhile isSpace).drop word.length)
        return { r with conditions := (← begin' word behind) :: cs }
  | _ =>
    if isOuter then return { r with conditions := (← begin' word rest) :: r.conditions }
    else return { r with conditions := ⟨false, true, false⟩ :: r.conditions }

/-- The lines of a definition up to its end, and what follows it. -/
def definitionLines? : Nat → List FullLine → Option (List String × List FullLine)
  | _, [] => none
  | depth, l :: ls =>
    let text := l.text
    let word := ((wordsOf text).head?).getD ""
    let add (depth : Nat) : Option (List String × List FullLine) :=
      (definitionLines? depth ls).map fun (lines, rest) => (text :: lines, rest)
    if l.isRecipe then add depth
    else if word == "define" then add (depth + 1)
    else if word == "endef" then
      match depth with
      | 0 => some ([], ls)
      | depth + 1 => add depth
    else add depth

/-- Where further texts are looked for, and how they are read. -/
structure TextSources where
  surroundings : Surroundings
  read : String → String → Build Unit

/-- Reads a further text if it is there. -/
def includeText (t : TextSources) (name : String) (isOptional : Bool) : Build Unit := do
  let directories := (← Build.book).mode.included
  let candidates := name :: if name.startsWith "/" then [] else directories.map (· ++ "/" ++ name)
  let tree ← Build.run files
  match candidates.find? fun c => tree.isFile (textOfOctets c) with
  | some path =>
    match ← Build.run (openForReading path) with
    | .ok c =>
      let text := (← Build.run (readAll c)).toOption.getD ""
      let place := (← Build.book).place
      t.read path text
      modifyThe Book fun b => { b with place }
    | .error _ => return
  | none =>
    let place := (← Build.book).place
    if !isOptional then
      modifyThe Book fun b => { b with unread := b.unread ++ [(name, place)] }
    else if name != "" then
      modifyThe Book fun b => { b with unread := b.unread ++ [(name, none)] }

/-- Reads a line with a rule. -/
def readRule (s : Surroundings) (l : FullLine) (r : TextReading) : Build TextReading := do
  let raw := l.text.toList
  let (front, behind) := splitOutside (fun c => c == ';' || c == '#') 0 [] raw
  let (body, inline) := match behind with
    | ';' :: cs => (front, some (String.ofList (cs.dropWhile isSpace)))
    | _ => (front, none)
  let (left, right) := splitOutside (· == ':') 0 [] body
  let missing : Build TextReading :=
    Build.stopHere (if (l.parts.headD "").startsWith "        " then
      "missing separator (did you mean TAB instead of 8 spaces?)" else "missing separator")
  let (left, right) ← match right with
    | [] => do
      let whole ← expand s depthLimit (String.ofList left)
      pure (splitOutside (· == ':') 0 [] whole.toList)
    | right => do pure ((← expand s depthLimit (String.ofList left)).toList, right)
  if (trimmed (String.ofList left)).isEmpty && right.isEmpty then
    return { r with passesRecipe := true }
  match right with
  | [] => missing
  | _ :: right =>
    let (isSeparate, right) := match right with
      | ':' :: rest => (true, rest)
      | rest => (false, rest)
    let isGrouped := left.getLast? == some '&'
    let left := if isGrouped then left.dropLast else left
    let targets := (← Build.spread (wordsOf (String.ofList left))).map plainName
    if targets.isEmpty then
      if (trimmed (String.ofList left)).isEmpty then
        let rest ← expand s depthLimit (String.ofList right)
        if !(trimmed rest).isEmpty then Build.stopHere "missing separator"
      return { r with passesRecipe := true }
    let rightText := String.ofList right
    let setting := markedAssignment? 10 (rightText ++ match inline with
      | some c => ";" ++ c
      | none => "")
    match setting with
    | some a =>
      let name := trimmed (← expand s depthLimit a.name)
      let a := { a with name }
      for t in targets do
        if hasPercent t then
          modifyThe Book fun b => { b with patternSettings := b.patternSettings ++ [(t, a)] }
        else Build.changeTarget t fun t => { t with settings := t.settings ++ [a] }
      return { r with passesRecipe := false }
    | none =>
      let rest ← expand s depthLimit rightText
      let (rest, inline) := match inline with
        | some c => (rest, some c)
        | none =>
          match splitOutside (· == ';') 0 [] rest.toList with
          | (a, _ :: b) => (String.ofList a, some (String.ofList (b.dropWhile isSpace)))
          | (_, []) => (rest, none)
      let (first, second) := splitOutside (· == ':') 0 [] rest.toList
      let (pattern, needText) ← match second with
        | _ :: more => do
          let ps := wordsOf (String.ofList first)
          match ps with
          | [p] => do
            if !hasPercent p then Build.stopHere "target pattern contains no \x27%\x27"
            pure (some p, String.ofList more)
          | [] => Build.stopHere "missing target pattern"
          | _ => Build.stopHere "multiple target patterns"
        | [] => pure (none, String.ofList first)
      let needs := needsOf (← Build.spread (wordsOf needText))
      return { r with
        passesRecipe := false
        open? := some {
          line := l.number, targets, needs, isSeparate, isGrouped, pattern
          recipeLine := inline.map fun _ => l.number
          commands := inline.toList } }

/-- Reads lines one after the other. The number bounds them. -/
def readLines (t : TextSources) (file : String) :
    Nat → TextReading → List FullLine → Build TextReading
  | 0, r, _ => return r
  | _, r, [] => return r
  | n + 1, r, l :: ls => do
    let s := t.surroundings
    modifyThe Book fun b => { b with place := some (file, l.number) }
    let next (r : TextReading) : Build TextReading := readLines t file n r ls
    if l.isRecipe && r.passesRecipe then next r
    else if l.isRecipe && r.open?.isSome then
      if !r.isActive then next r
      else
        next { r with open? := r.open?.map fun o => { o with
          recipeLine := some (o.recipeLine.getD l.number)
          commands := l.command :: o.commands } }
    else
      let text := String.ofList (withoutRemark l.text.toList)
      let words := wordsOf text
      let word := words.headD ""
      let rest := String.ofList ((text.toList.dropWhile isSpace).drop word.length)
      if words.isEmpty then next r
      else
        match markedAssignment? 10 text with
        | some a =>
          let r' ← closeRule file r
          modifyThe Book fun b => { b with place := some (file, l.number) }
          if r.isActive then
            assign s a .file
            next r'
          else next r
        | none =>
          if ["ifdef", "ifndef", "ifeq", "ifneq", "else", "endif"].contains word then
            next (← readCondition s word rest r)
          else
            let (isDefinition, body, overrides, exported) := match words with
              | "define" :: _ => (true, rest, false, none)
              | "override" :: "define" :: _ =>
                (true, String.ofList ((rest.toList.dropWhile isSpace).drop 6), true, none)
              | "export" :: "define" :: _ =>
                (true, String.ofList ((rest.toList.dropWhile isSpace).drop 6), false, some true)
              | _ => (false, rest, false, none)
            if isDefinition then
              match definitionLines? 0 ls with
              | none => Build.stopHere "missing \x27endef\x27, unterminated \x27define\x27"
              | some (lines, ls) =>
                let value := String.intercalate "\n" lines
                let header := (assignment? body).getD ⟨body, .deferred, "", false, none⟩
                let r' ← closeRule file r
                if r.isActive then
                  assign s { header with value, overrides, exported } .file
                  readLines t file n r' ls
                else readLines t file n r ls
            else if !r.isActive then next r
            else
              match word with
              | "undefine" =>
                let name := trimmed (← expand s depthLimit rest)
                modifyThe Book fun b => { b with settings := b.settings.erase name }
                next (← closeRule file r)
              | "export" | "unexport" =>
                let r ← closeRule file r
                let names := wordsOf (← expand s depthLimit rest)
                let mark := word == "export"
                if names.isEmpty then modifyThe Book fun b => { b with exportsAll := mark }
                for name in names do
                  modifyThe Book fun b =>
                    let old : Setting := (b.settings[name]?).getD { value := "" }
                    { b with settings := b.settings.insert name { old with exported := some mark } }
                next r
              | "include" | "-include" | "sinclude" =>
                let r ← closeRule file r
                modifyThe Book fun b => { b with place := some (file, l.number) }
                for name in ← Build.spread (wordsOf (← expand s depthLimit rest)) do
                  includeText t name (word != "include")
                next r
              | "vpath" =>
                match wordsOf (← expand s depthLimit rest) with
                | [] => modifyThe Book fun b => { b with searched := [] }
                | [p] =>
                  modifyThe Book fun b => { b with searched := b.searched.filter (·.1 != p) }
                | p :: directories =>
                  let all := directories.flatMap fun d => (d.splitOn ":").filter (!·.isEmpty)
                  modifyThe Book fun b => { b with searched := b.searched ++ [(p, all)] }
                next (← closeRule file r)
              | "endef" => Build.stopHere "extraneous \x27endef\x27"
              | _ =>
                if l.isRecipe then Build.stopHere "recipe commences before first target"
                else
                  let r ← closeRule file r
                  modifyThe Book fun b => { b with place := some (file, l.number) }
                  next (← readRule s l r)

/-- Notes that a text is read. -/
def Build.noteText (file : String) : Build Unit :=
  modifyThe Book fun b =>
    let old := ((b.settings["MAKEFILE_LIST"]?).map (·.value)).getD ""
    let value := if old.isEmpty then file else old ++ " " ++ file
    { b with settings := b.settings.insert "MAKEFILE_LIST" { value, isDeferred := false } }

/-- Reads a text. The number bounds texts in texts. -/
def readText (become : List String → Run FileError) : Nat → String → Nat → String → Build Unit
  | 0, _, _, _ => return
  | n + 1, file, start, text => do
    let evaluate (body : String) : Build Unit := do
      let place := (← Build.book).place
      let (file, line) := place.getD ("", 1)
      readText become n file line body
      modifyThe Book fun b => { b with place }
    let sources : TextSources := {
      surroundings := { become, evaluate }
      read := fun file text => do
        Build.noteText file
        readText become n file 1 text }
    let parts := text.splitOn "\n"
    let lines := if parts.getLast? == some "" then parts.dropLast else parts
    let lines := lines.map fun l =>
      if l.endsWith "\x0d" then String.ofList l.toList.dropLast else l
    let full := fullLinesOf start lines
    let r ← readLines sources file (full.length + 1) {} full
    if !r.conditions.isEmpty then
      modifyThe Book fun b => { b with place := some (file, start + lines.length) }
      Build.stopHere "missing \x27endif\x27"
    discard (closeRule file r)

end PatchSearch.Shell.Rebuild
