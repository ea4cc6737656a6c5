import PatchSearch.Shell.Rebuild.Reader

/-!
The search for a rule among those for patterns. A rule can make a file if what it needs is there or
is mentioned by other rules; failing that, files on the way are looked for in the same manner, and
no rule is used twice on one way.
-/
namespace PatchSearch.Shell.Rebuild

open Run

namespace Build

/-- Whether a name stands behind one that has a meaning of its own. -/
def isNeedOf (special name : String) : Build Bool := do
  return (← target special).rule.needs.any fun d => d.name == name

def isPhony (name : String) : Build Bool :=
  isNeedOf ".PHONY" name

/-- The path of a file in the directories to search. -/
def searchedPath? (name : String) : Build (Option String) := do
  let b ← book
  let general := ((b.settings["VPATH"]?).map (·.value)).getD ""
  let everywhere := (wordsOf general).flatMap fun w => (w.splitOn ":").filter (!·.isEmpty)
  let fitting := (b.searched.filter fun p => (stem? p.1 name).isSome).flatMap Prod.snd
  let t ← run files
  let paths := if name.startsWith "/" then []
    else (fitting ++ everywhere).map fun d => if d.endsWith "/" then d ++ name else d ++ "/" ++ name
  return paths.find? fun p => (t.find (textOfOctets p)).toOption.isSome

/-- When a file was changed last, as it was found when it was first asked for. -/
def age (name : String) : Build Age := do
  let k ← known name
  match k.age with
  | some a => return a
  | none =>
    let b ← book
    let a : Age ←
      if ← isPhony name then pure .missing
      else
        let here := (← run files).findItem (textOfOctets name)
        let path ← if here.toOption.isSome then pure none else searchedPath? name
        if path.isSome then changeKnown name fun k => { k with foundAt := path }
        match (← run files).findItem (textOfOctets (path.getD name)) with
        | .ok (_, x) =>
          if b.mode.newFiles.contains name then pure .newest
          else if b.mode.oldFiles.contains name then pure (.changed 0)
          else pure (.changed x.changed)
        | .error _ => pure .missing
    changeKnown name fun k => { k with age := some a }
    return a

/-- Whether a file is there. -/
def isThere (name : String) : Build Bool := do
  return ((← run files).find (textOfOctets name)).toOption.isSome

/-- Whether a file is there or in a directory to search. -/
def isFound (name : String) : Build Bool := do
  return (← isThere name) || (← searchedPath? name).isSome

end Build

/-- A way to make a file: the rule, and rules for files on the way. -/
structure Way where
  rule : Rule
  onTheWay : List (String × Rule) := []

/-- A rule for patterns that fits a name. -/
structure Candidate where
  index : Nat
  rule : PatternRule
  /-- The directory in front of the name where the pattern has none, and the stem behind it. -/
  directory : String
  stem : String
  fitsAll : Bool

namespace Candidate

/-- A name in the rule for this stem. -/
def filled (c : Candidate) (pattern : String) : String :=
  if hasPercent pattern then c.directory ++ withStem pattern c.stem else pattern

def fullStem (c : Candidate) : String :=
  c.directory ++ c.stem

end Candidate

/-- The rules that fit a name, those with the shortest stems first. -/
def candidatesFor (b : Book) (name : String) (isInner : Bool) : List Candidate :=
  let all := b.patterns.zipIdx.flatMap fun (rule, index) =>
    rule.targets.filterMap fun pattern =>
      let hasSlash := pattern.toList.contains '/'
      let directory := if hasSlash || !name.toList.contains '/' then "" else frontOf name
      let base := if directory.isEmpty then name else backOf name
      match percentParts? [] pattern.toList with
      | some (front, back) =>
        (stemBetween? front back base).bind fun stem =>
          if stem.isEmpty then none
          else some ⟨index, rule, directory, stem, pattern == "%"⟩
      | none => none
  let isSpecific := (all.any fun c => !c.fitsAll) || b.endings.any fun e =>
    name.endsWith e && e.length < name.length
  let kept := all.filter fun c =>
    c.rule.recipe.isSome && (!c.fitsAll || c.rule.isFinal || !isInner && !isSpecific)
  kept.mergeSort fun a b => a.stem.length ≤ b.stem.length

/-- Looks for a way to make a file. The number bounds the files on the way. -/
def findWay : Nat → Bool → List Nat → String → Build (Option Way)
  | 0, _, _, _ => return none
  | n + 1, isInner, used, name => do
    let b ← Build.book
    let candidates := (candidatesFor b name isInner).filter fun c => !used.contains c.index
    for passing in [false, true] do
      for c in candidates do
        if passing && c.rule.isFinal then continue
        let mut onTheWay : List (String × Rule) := []
        let mut works := true
        for need in c.rule.needs do
          let file := plainName (c.filled need.name)
          if works then
            let isKnown := b.mentioned.contains file || (b.targets[file]?.any (·.isTarget))
            if isKnown && file != name then pure ()
            else if ← Build.isFound file then pure ()
            else if passing then
              match ← findWay n true (c.index :: used) file with
              | some way => onTheWay := onTheWay ++ way.onTheWay ++ [(file, way.rule)]
              | none => works := false
            else works := false
        if works then
          let needs := c.rule.needs.map fun d => { d with name := plainName (c.filled d.name) }
          let siblings := (c.rule.targets.map fun t => plainName (c.filled t)).filter (· != name)
          let rule : Rule := { needs, recipe := c.rule.recipe, stem := c.fullStem, siblings }
          return some { rule, onTheWay }
    return none

/-- Gives a target without a recipe the rule of a way to make it, if there is one. -/
def supplyRule (name : String) : Build Unit := do
  let k ← Build.known name
  let t ← Build.target name
  if t.rule.recipe.isNone && t.separate.isEmpty && !k.triedPatterns && !(← Build.isPhony name) then
    Build.changeKnown name fun k => { k with triedPatterns := true }
    match ← findWay 10 false [] name with
    | none => return
    | some way =>
      let isMentioned := (← Build.book).mentioned.contains name
      Build.changeTarget name fun t =>
        { t with rule := { way.rule with needs := way.rule.needs ++ t.rule.needs } }
      if !isMentioned then
        modifyThe Book fun b => { b with mentioned := b.mentioned.erase name }
      for (file, rule) in way.onTheWay do
        let isMentioned := (← Build.book).mentioned.contains file
        Build.changeTarget file fun t => { t with rule := { rule with needs := rule.needs ++ t.rule.needs } }
        Build.changeKnown file fun k =>
          { k with triedPatterns := true, isPassing := !isMentioned }

/-!
Bringing files up to date. What a file needs is brought up to date first; then its recipe runs if
the file is missing or older than something it needs. A file that was dealt with once is not looked
at again.
-/

/-- How the work on a file came out. -/
inductive Outcome where
  | done
  | failed
  /-- It is not up to date, which was only asked. -/
  | wanted
  deriving DecidableEq

namespace Outcome

/-- The worse one of two. -/
def worse : Outcome → Outcome → Outcome
  | failed, _ => failed
  | _, failed => failed
  | wanted, _ => wanted
  | _, o => o

end Outcome

/-- Words that need a shell to run. -/
def shellWords : List String :=
  [".", ":", "alias", "bg", "break", "case", "cd", "command", "continue", "eval", "exec", "exit",
    "export", "fc", "fg", "for", "getopts", "hash", "if", "jobs", "login", "logout", "read",
    "readonly", "return", "set", "shift", "test", "times", "trap", "type", "ulimit", "umask",
    "unalias", "unset", "wait", "while"]

/-- The words of a command that can run without a shell; nothing if it needs one. -/
def directWords? (command : String) : Option (List String) :=
  let rec go : Nat → List Char → Bool → List Char → Option (List (List Char))
    | 0, _, _, _ => none
    | _, word, started, [] => some (if started then [word.reverse] else [])
    | n + 1, word, started, c :: cs =>
      if "#;\"*?[]&|<>()\x7b\x7d$\x60^~!=\n".toList.contains c then none
      else if c == ' ' || c == '\t' then
        if started then (go n [] false cs).map (word.reverse :: ·) else go n [] false cs
      else if c == '\\' then
        match cs with
        | '\n' :: cs => go n word started cs
        | d :: cs => go n (d :: word) true cs
        | [] => some [word.reverse]
      else if c == '\x27' then
        let inner := cs.takeWhile (· != '\x27')
        match cs.drop inner.length with
        | _ :: cs => if inner.contains '\n' then none else go n (inner.reverse ++ word) true cs
        | [] => none
      else go n (c :: word) true cs
  match go (command.length + 1) [] false command.toList with
  | some ws =>
    let words := ws.map String.ofList
    if words.head?.any fun w => shellWords.contains w then none else some words
  | none => none

/-- The signs in front of a command: whether it is not shown, whether its failure counts, whether
it runs in any case, and the rest. -/
structure CommandSigns where
  isSilent : Bool := false
  mayFail : Bool := false
  always : Bool := false

/-- Takes the signs from the front of a command. -/
def takeSigns (signs : CommandSigns) : List Char → CommandSigns × List Char
  | '@' :: cs => takeSigns { signs with isSilent := true } cs
  | '-' :: cs => takeSigns { signs with mayFail := true } cs
  | '+' :: cs => takeSigns { signs with always := true } cs
  | c :: cs => if c == ' ' || c == '\t' then takeSigns signs cs else (signs, c :: cs)
  | [] => (signs, [])

/-- The lines of a text that do not go on behind a backslash. -/
def commandLines (pending : List Char) : List Char → List String
  | [] => [String.ofList pending.reverse]
  | '\\' :: '\n' :: cs => commandLines ('\n' :: '\\' :: pending) cs
  | '\n' :: cs => String.ofList pending.reverse :: commandLines [] cs
  | c :: cs => commandLines (c :: pending) cs

/-- The settings that commands see. -/
def exportedSettings (s : Surroundings) : Build (List (String × Option String)) := do
  let b ← Build.book
  let named := (b.scopes.flatMap fun scope => scope.toList) ++ b.settings.toList
  let distinct := named.foldl (fun (seen : Std.HashMap String Setting) (name, v) =>
    if seen.contains name then seen else seen.insert name v) ∅
  let mut found : List (String × Option String) := []
  for (name, v) in distinct.toList.mergeSort fun a b => a.1 ≤ b.1 do
    let isSeen := match v.exported with
      | some e => e
      | none => v.origin == .environment || v.origin == .commandLine ||
          b.exportsAll && isName name && v.origin != .builtIn && v.origin != .automatic
    if v.exported == some false then found := (name, none) :: found
    else if isSeen && name != "SHELL" then
      found := (name, some (← if v.isDeferred then expand s depthLimit v.value else pure v.value))
        :: found
  return found.reverse

/-- Runs a command to its end. -/
def runCommand (s : Surroundings) (command : String) : Build ExitStatus := do
  let settings ← exportedSettings s
  let mode := (← Build.book).mode
  let shell ← valueOf s depthLimit "SHELL"
  let flags ← valueOf s depthLimit ".SHELLFLAGS"
  let makeFlags ← valueOf s depthLimit "MAKEFLAGS"
  let own ← Build.ownName
  let words := match directWords? command with
    | some ws => if shell == "/bin/sh" then ws else [shell, flags, command]
    | none => wordsOf shell ++ wordsOf flags ++ [command]
  let child ← Build.run <| start (fun cs => cs.filter (·.1 < keptFrom)) do
    for (name, value) in settings do
      match value with
      | some v => modify fun m => m.assign name v true
      | none => modify fun m => m.restoreVariable name none
    modify fun m => m.assign "MAKELEVEL" (toString (mode.level + 1)) true
    modify fun m => m.assign "MAKEFLAGS" makeFlags true
    let e ← s.become words
    tell (own ++ ": " ++ words.headD "" ++ ": " ++ causeText e ++ "\n")
    setStatus 127
  Build.run (waitEnd child)

/-- A need and whether it counts as changed. -/
structure MetNeed where
  need : Need
  changed : Bool

/-- Names in order, each of them once. -/
def onlyOnce (names : List String) : List String :=
  (names.foldl (fun done w => if done.contains w then done else w :: done) []).reverse

/-- The automatic settings of a recipe. -/
def automaticSettings (b : Book) (name : String) (rule : Rule) (isPlain : Bool)
    (needs : List MetNeed) : Std.HashMap String Setting :=
  let path (d : MetNeed) : String := ((b.known[d.need.name]?).bind (·.foundAt)).getD d.need.name
  let needs := needs.map fun d => { d with need := { d.need with name := path d } }
  let plain := (needs.filter fun d => !d.need.orderOnly).map (·.need.name)
  let newer := (needs.filter fun d => d.changed && !d.need.orderOnly).map (·.need.name)
  let ordered := (needs.filter fun d => d.need.orderOnly).map (·.need.name)
  let stem := if !rule.stem.isEmpty then rule.stem
    else if b.endings.any fun e => name.endsWith e && e.length < name.length then bareName name
    else ""
  let values : List (String × String) :=
    [("@", name), ("*", stem), ("<", if isPlain then name else plain.headD ""), ("^", joinWords (onlyOnce plain)),
      ("+", joinWords plain), ("?", joinWords (onlyOnce newer)),
      ("|", joinWords (onlyOnce (ordered.filter (!plain.contains ·)))), ("%", "")]
  values.foldl (fun scope (k, value) =>
    scope.insert k { value, isDeferred := false, origin := .automatic : Setting }) ∅

/-- Tells that a command failed. -/
def tellFailure (name : String) (place : String) (isIgnored : Bool) (status : ExitStatus) :
    Build Unit := do
  let (front, back) := if isIgnored then ("", " (ignored)") else ("*** ", "")
  let words : String := match status with
    | .code n => "Error " ++ toString n
    | .signal n => match n with
      | 1 => "Hangup" | 2 => "Interrupt" | 3 => "Quit" | 6 => "Aborted" | 9 => "Killed"
      | 11 => "Segmentation fault" | 13 => "Broken pipe" | 14 => "Alarm clock" | 15 => "Terminated"
      | n => "Signal " ++ toString n
  Build.tellText (front ++ "[" ++ place ++ ": " ++ name ++ "] " ++ words ++ back)

/-- Runs the commands of a line one after the other; whether they all came out well. -/
def runCommands (s : Surroundings) (name place : String) (base : CommandSigns) (silent : Bool) :
    List String → Build Outcome
  | [] => return .done
  | line :: rest => do
    let mode := (← Build.book).mode
    let (signs, cs) := takeSigns base line.toList
    let command := String.ofList cs
    if (trimmed command).isEmpty then runCommands s name place base silent rest
    else if mode.onlyAsks && !signs.always then return .wanted
    else
      if mode.onlyPrints || !(signs.isSilent || silent) then Build.print (command ++ "\n")
      modifyThe Book fun b => { b with started := b.started + 1 }
      if mode.onlyPrints && !signs.always then runCommands s name place base silent rest
      else
        let status ← runCommand s command
        if status == .code 0 then runCommands s name place base silent rest
        else
          let isIgnored := signs.mayFail || mode.ignoresErrors
          tellFailure name place isIgnored status
          if isIgnored then runCommands s name place base silent rest else return .failed

/-- Runs a recipe. -/
def runRecipe (s : Surroundings) (name : String) (recipe : Recipe) : Build Outcome := do
  let mode := (← Build.book).mode
  let whole (special : String) : Build Bool := do
    let t ← Build.target special
    return t.isTarget && (t.rule.needs.isEmpty || t.rule.needs.any fun d => d.name == name)
  let silent := mode.silent || (← whole ".SILENT")
  let mayFail ← whole ".IGNORE"
  let isOneShell := (← Build.target ".ONESHELL").isTarget
  let placeOf (i : Nat) : String := match recipe.file with
    | some f => f ++ ":" ++ toString (recipe.line + i)
    | none => "<builtin>"
  let mut prepared : List (Nat × CommandSigns × String) := []
  for (line, i) in recipe.lines.zipIdx do
    modifyThe Book fun b => { b with place := recipe.file.map fun f => (f, recipe.line + i) }
    let (signs, _) := takeSigns { mayFail } line.toList
    let callsItself := (line.splitOn "$(MAKE)").length > 1 ||
      (line.splitOn "$\x7bMAKE\x7d").length > 1
    let text ← expand s depthLimit line
    prepared := (i, { signs with always := signs.always || callsItself }, text) :: prepared
  modifyThe Book fun b => { b with place := none }
  if mode.touches && !(prepared.any fun p => p.2.1.always) then
    if !recipe.lines.isEmpty && !(← Build.isPhony name) then
      if !silent then Build.print ("touch " ++ name ++ "\n")
      modifyThe Book fun b => { b with started := b.started + 1 }
      if !mode.onlyPrints then
        discard <| Build.run <| do
          match ← openForWriting name .append with
          | .ok _ => onFiles fun t =>
            ((), match t.findItem (textOfOctets name) with
              | .ok (_, x) => t.change x.number fun x => { x with changed := t.now }
              | .error _ => t)
          | .error _ => pure ()
    return .done
  let groups : List (Nat × CommandSigns × List String) :=
    if isOneShell then
      match prepared.reverse with
      | [] => []
      | (i, signs, first) :: rest =>
        let (_, cs) := takeSigns signs first.toList
        let others := rest.map fun (_, _, t) => String.ofList (takeSigns {} t.toList).2
        [(i, signs, [String.intercalate "\n" (String.ofList cs :: others)])]
    else prepared.reverse.map fun (i, signs, text) => (i, signs, commandLines [] text.toList)
  for (i, signs, lines) in groups do
    let outcome ← runCommands s name (placeOf i) signs silent lines
    if outcome != .done then
      if outcome == .failed && (← Build.target ".DELETE_ON_ERROR").isTarget then
        if ← Build.isThere name then
          let before ← Build.age name
          Build.changeKnown name fun k => { k with age := none }
          if before != (← Build.age name) then
            Build.tellText ("*** Deleting file \x27" ++ name ++ "\x27")
            discard <| Build.run <| tryFiles' name
      return outcome
  return .done
where
  tryFiles' (name : String) : Run Unit :=
    onFiles fun t =>
      ((), match t.findLink (textOfOctets name) with
        | .ok (p, _) => t.remove p
        | .error _ => t)

/-- Tells that nothing makes a file that something needs. -/
def complain (name : String) : Build Unit := do
  let k ← Build.known name
  let needed := match k.parent with
    | some p => ", needed by \x27" ++ p ++ "\x27"
    | none => ""
  let text := "No rule to make target \x27" ++ name ++ "\x27" ++ needed
  if (← Build.book).mode.keepsGoing then Build.tellText ("*** " ++ text ++ ".")
  else Build.stop text

/-- The settings that hold for a target only. -/
def targetScope (s : Surroundings) (name : String) : Build (Std.HashMap String Setting) := do
  let b ← Build.book
  let t ← Build.target name
  let fitting := (b.patternSettings.filter fun (p, _) => (stem? p name).isSome).map Prod.snd
  let mut scope : Std.HashMap String Setting := ∅
  for a in fitting ++ t.settings do
    let outer ← Build.setting? a.name
    let old := (scope[a.name]?).orElse fun _ => outer
    let isFixed := old.any fun v => (v.origin == .commandLine) && !a.overrides
    if !isFixed then
      match ← Build.withScope scope (settingOf s a old .file) with
      | some v => scope := scope.insert a.name v
      | none => pure ()
  return scope

/-- Runs the recipe of a file, or says why there is none. -/
def make (s : Surroundings) (name : String) (rule : Rule) (needs : List MetNeed) :
    Build Outcome := do
  let isPlain := !(← Build.target name).isTarget && rule.recipe.isSome &&
    (← Build.target name).rule.recipe.isNone
  let isPhony ← Build.isPhony name
  match rule.recipe with
  | none =>
    if isPhony || (← Build.target name).isTarget then return .done
    complain name
    return .failed
  | some recipe =>
    let scope := automaticSettings (← Build.book) name rule isPlain needs
    let outcome ← Build.withScope scope (runRecipe s name recipe)
    let hasOnlyPrinted := (← Build.book).mode.onlyPrints
    for file in name :: rule.siblings do
      let isPhony ← Build.isPhony file
      Build.changeKnown file fun k => { k with
        foundAt := none
        age := if isPhony then some .missing else if hasOnlyPrinted then some .newest else none }
      if file != name then
        Build.changeKnown file fun k => { k with progress := .finished (outcome == .done) }
    return outcome

mutual

/-- Brings a file up to date, with how deep it lies below a goal. -/
def update (s : Surroundings) : Nat → Nat → String → Build Outcome
  | 0, _, _ => return .failed
  | n + 1, depth, name => do
    match (← Build.known name).progress with
    | .finished true | .busy => return .done
    | .finished false => return .failed
    | .wanted => return .wanted
    | .untouched =>
      Build.changeKnown name fun k => { k with progress := .busy }
      let scope ← targetScope s name
      let outcome ← Build.withScope scope (updateRules s n depth name)
      Build.changeKnown name fun k => { k with progress :=
        match outcome with
        | .done => .finished true
        | .failed => .finished false
        | .wanted => .wanted }
      return outcome

/-- Brings a file up to date by its rule, or by each of its separate rules. -/
def updateRules (s : Surroundings) : Nat → Nat → String → Build Outcome
  | 0, _, _ => return .failed
  | n + 1, depth, name => do
    let t ← Build.target name
    if t.separate.isEmpty then
      supplyRule name
      let t ← Build.target name
      let rule ← if t.rule.recipe.isNone && !t.isTarget then do
          let plain ← Build.target ".DEFAULT"
          pure { t.rule with recipe := plain.rule.recipe }
        else pure t.rule
      updateBy s n depth name rule false
    else
      let mut all := Outcome.done
      for rule in t.separate do
        if all != .failed || (← Build.book).mode.keepsGoing then
          all := all.worse (← updateBy s n depth name rule true)
      return all

/-- Sees to something that a file needs: how that came out, and whether the file has to be made
because of it. -/
def check (s : Surroundings) : Nat → Nat → String → Age → Build (Outcome × Bool)
  | 0, _, _, _ => return (.failed, false)
  | n + 1, depth, name, limit => do
    let k ← Build.known name
    if !k.isPassing || (← Build.isPhony name) then
      let outcome ← update s n depth name
      let age ← Build.age name
      return (outcome, age.isMissing || age.isLater limit)
    else
      supplyRule name
      let age ← Build.age name
      if age.isLater limit then return (.done, true)
      else
        let mut all := Outcome.done
        let mut must := false
        for d in (← Build.target name).rule.needs do
          if all == .done || (← Build.book).mode.keepsGoing then
            if (← Build.known d.name).progress == .busy then
              Build.tellText ("Circular " ++ name ++ " <- " ++ d.name ++ " dependency dropped.")
            else
              Build.changeKnown d.name fun k => { k with parent := some name }
              let (outcome, needed) ← check s n (depth + 1) d.name limit
              all := all.worse outcome
              if !d.orderOnly && needed then must := true
        return (all, must)

/-- Brings a file up to date by one rule. -/
def updateBy (s : Surroundings) : Nat → Nat → String → Rule → Bool → Build Outcome
  | 0, _, _, _, _ => return .failed
  | n + 1, depth, name, rule, isSeparate => do
    let mode := (← Build.book).mode
    let limit ← Build.age name
    let isMissing := limit.isMissing
    let mut must := isMissing
    let mut all := Outcome.done
    let mut met : List MetNeed := []
    for d in rule.needs do
      if all == .done || mode.keepsGoing then
        let before ← Build.age d.name
        if (← Build.known d.name).progress == .busy then
          Build.tellText ("Circular " ++ name ++ " <- " ++ d.name ++ " dependency dropped.")
        else
          Build.changeKnown d.name fun k => { k with parent := some name }
          let (outcome, needed) ← check s n (depth + 1) d.name limit
          all := all.worse outcome
          if needed && !d.orderOnly then must := true
          let after ← Build.age d.name
          met := ⟨d, after != before || before.isMissing⟩ :: met
    let mut needs := met.reverse
    if must || mode.always then
      let mut again : List MetNeed := []
      for d in needs do
        if (← Build.known d.need.name).isPassing && (all == .done || mode.keepsGoing) then
          let before ← Build.age d.need.name
          Build.changeKnown d.need.name fun k => { k with parent := some name }
          all := all.worse (← update s n (depth + 1) d.need.name)
          let after ← Build.age d.need.name
          again := { d with changed := after != before } :: again
        else again := d :: again
      needs := again.reverse
    if all != .done then
      if all == .failed && depth = 0 && mode.keepsGoing && !mode.onlyPrints && !mode.onlyAsks then
        Build.tellText ("Target \x27" ++ name ++ "\x27 not remade because of errors.")
      return all
    let mut anyChanged := false
    let mut final : List MetNeed := []
    for d in needs do
      let age ← Build.age d.need.name
      if !d.need.orderOnly then
        if age.isMissing && !(← Build.known d.need.name).isPassing then must := true
        if d.changed then anyChanged := true
      final := { d with changed := d.changed || isMissing || age.isLater limit } :: final
    let isTarget := (← Build.target name).isTarget
    if isSeparate && rule.needs.isEmpty then must := true
    else if !isMissing && isTarget && !anyChanged && rule.recipe.isNone && !mode.always then
      must := false
    else if !must && rule.recipe.isSome && mode.always then must := true
    if !must then return .done
    else
      if (← Build.known name).isPassing && rule.recipe.isSome then
        modifyThe Book fun b => { b with passing := b.passing ++ [name] }
      make s name rule final.reverse

end

/-- Takes away the files that were only made on the way. -/
def removePassing : Build Unit := do
  let b ← Build.book
  let mut removed : List String := []
  for name in b.passing do
    let isKept := (← Build.isNeedOf ".PRECIOUS" name) || (← Build.isNeedOf ".SECONDARY" name)
    if !isKept then
      if b.mode.onlyPrints then removed := name :: removed
      else if ← Build.isThere name then
        Build.run (runRecipe.tryFiles' name)
        removed := name :: removed
  if !removed.isEmpty && !b.mode.silent then
    Build.print ("rm " ++ joinWords removed.reverse ++ "\n")

/-- Brings goals up to date one after the other. -/
def updateGoals (s : Surroundings) : Outcome → List String → Build Outcome
  | all, [] => return all
  | all, goal :: goals => do
    let mode := (← Build.book).mode
    let before := (← Build.book).started
    let name := plainName goal
    let outcome ← update s depthLimit 0 name
    let all := all.worse outcome
    let b ← Build.book
    if outcome == .done && b.started = before && !mode.silent && !mode.onlyAsks then
      let t ← Build.target name
      let hasRecipe := t.rule.recipe.isSome || t.separate.any fun r => r.recipe.isSome
      if (← Build.isPhony name) || !hasRecipe then
        Build.print ((← Build.ownName) ++ ": Nothing to be done for \x27" ++ name ++ "\x27.\n")
      else Build.print ((← Build.ownName) ++ ": \x27" ++ name ++ "\x27 is up to date.\n")
    if outcome == .failed && !mode.keepsGoing then return all
    else if outcome == .wanted then return all
    else updateGoals s all goals

end PatchSearch.Shell.Rebuild
