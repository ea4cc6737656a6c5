import PatchSearch.Shell.RecordScript.Fields

/-!
Reading scripts. Expressions bind from loose to tight: assignment, choice, or, and, membership,
fitting, comparison, joining, sums, products, signs, powers. In the items of a print statement a
`>` outside brackets names a sink. After a fault reading goes on behind the end of the statement,
so several faults can be told.
-/
namespace PatchSearch.Shell.RecordScript

/-- How a name is used. -/
inductive Usage where
  | plain
  | array
  deriving DecidableEq, Repr

/-- What surrounds a statement. -/
structure Surroundings where
  loops : Nat := 0
  inFunction : Bool := false
  /-- Whether there is a record that can be left. -/
  hasRecord : Bool := false
  parameters : List String := []

/-- How far a script is read. -/
structure Reading where
  tokens : List (Nat × Token)
  line : Nat := 1
  functions : List String := []
  /-- How many parameters the functions have that were read. -/
  arities : List (String × Nat) := []
  /-- The calls of functions: name, number of arguments and line. -/
  calls : List (String × Nat × Nat) := []
  usages : List (String × Usage) := []
  /-- How the parameters of the present function are used. -/
  locals : List (String × Usage) := []
  brackets : Nat := 0
  braces : Nat := 0
  /-- Whether nothing more can be read. -/
  isOver : Bool := false
  /-- What is told, last one first, with the lines. -/
  faults : List String := []

/-- Reading of a part; what is thrown has been told already. -/
abbrev Reader := ExceptT Unit (StateM Reading)

namespace Reader

/-- Tells a fault. -/
def note (text : String) : Reader Unit := do
  modify fun s => if s.isOver then s else { s with faults := text :: s.faults }

/-- Tells a fault on the present line. -/
def noteHere (text : String) : Reader Unit := do
  note ("line " ++ toString (← get).line ++ ": " ++ text)

/-- Tells what is stray in front of the next token. The number bounds it. -/
def passStray : Nat → Reader Unit
  | 0 => return
  | n + 1 => do
    match (← get).tokens with
    | (line, .stray message) :: rest =>
      if message.startsWith "unexpected" then
        note (toString line ++ ": " ++ message)
        modify fun s => { s with tokens := [], isOver := true }
        throw ()
      else
        note ("line " ++ toString line ++ ": " ++ message)
        modify fun s => { s with tokens := rest }
        passStray n
    | _ => return

/-- The next token, which stays. What is stray in front of it is told. -/
def peek : Reader Token := do
  passStray (← get).tokens.length
  match (← get).tokens with
  | (line, t) :: _ =>
    modify fun s => { s with line }
    return t
  | [] => return .finish

/-- Takes the next token. -/
def advance : Reader Unit := do
  let t ← peek
  modify fun s => { s with
    tokens := s.tokens.drop 1
    brackets := if t.isSign "(" then s.brackets + 1
      else if t.isSign ")" then s.brackets - 1 else s.brackets
    braces := if t.isSign "\x7b" then s.braces + 1
      else if t.isSign "\x7d" then s.braces - 1 else s.braces }

/-- Ends a part at a token that does not belong there. -/
def reject {α : Type} : Reader α := do
  let t ← peek
  let s ← get
  let closes := match t with
    | .finish => true
    | .newline => true
    | .ending => true
    | t => t.isSign ";" || t.isSign "\x7d"
  let starts := match t with
    | .finish => true
    | t => t.isWord "BEGIN" || t.isWord "END"
  if closes && 0 < s.brackets then
    noteHere ("missing ) near " ++ t.shown)
    modify fun s => { s with brackets := 0 }
  else if starts && 0 < s.braces then
    noteHere ("missing \x7d near " ++ t.shown)
    modify fun s => { s with braces := 0 }
  else noteHere ("syntax error at or near " ++ t.shown)
  modify fun s => { s with brackets := 0 }
  throw ()

/-- Takes a sign that has to come next. -/
def expect (s : String) : Reader Unit := do
  if (← peek).isSign s then advance else reject

/-- Takes a sign if it comes next. -/
def accept (s : String) : Reader Bool := do
  if (← peek).isSign s then
    advance
    return true
  else return false

/-- Takes line ends. The number bounds them. -/
def skipLines : Nat → Reader Unit
  | 0 => return
  | n + 1 => do
    match ← peek with
    | .newline =>
      advance
      skipLines n
    | _ => return

/-- Takes all line ends. -/
def lineEnds : Reader Unit := do
  skipLines ((← get).tokens.length + 1)

/-- Notes how a name is used, and tells a fault if it was used otherwise. -/
def use (parameters : List String) (name : String) (usage : Usage) : Reader Unit := do
  let isLocal := parameters.contains name
  let s ← get
  if s.functions.contains name && !isLocal then reject
  match (if isLocal then s.locals else s.usages).lookup name with
  | none =>
    modify fun s =>
      if isLocal then { s with locals := (name, usage) :: s.locals }
      else { s with usages := (name, usage) :: s.usages }
  | some other =>
    if other != usage then
      noteHere ("illegal reference to " ++ (if isLocal then "local " else "") ++
        (if other == .array then "array " else "variable ") ++ name)

/-- Reads a regular expression. -/
def pattern (source : String) : Reader Pattern := do
  match readPattern source with
  | .ok p => return p
  | .error e =>
    noteHere ("regular expression compile failed (" ++ e ++ ")\n" ++ source)
    return ⟨source, .nothing⟩

/-- The name that comes next, whatever stands behind it. -/
def nameHere : Reader String := do
  match ← peek with
  | .name s =>
    advance
    return s
  | .call s =>
    advance
    return s
  | _ => reject

/-- The operation that an assigning sign brings along. -/
def assigning? : Token → Option (Option Arithmetical)
  | .sign "=" => some none
  | .sign "+=" => some (some .add)
  | .sign "-=" => some (some .subtract)
  | .sign "*=" => some (some .multiply)
  | .sign "/=" => some (some .divide)
  | .sign "%=" => some (some .remainder)
  | .sign "^=" => some (some .power)
  | _ => none

def comparison? (inPrint : Bool) : Token → Option Comparison
  | .sign "<" => some .less
  | .sign "<=" => some .atMost
  | .sign "==" => some .equal
  | .sign "!=" => some .unequal
  | .sign ">" => if inPrint then none else some .greater
  | .sign ">=" => some .atLeast
  | _ => none

/-- Whether an expression can take a value. -/
def isTarget : Expr → Bool
  | .name _ => true
  | .item _ _ => true
  | .field _ => true
  | _ => false

/-- Whether a token can open an operand that is joined to the one before. -/
def opensOperand : Token → Bool
  | .number _ _ => true
  | .text _ => true
  | .pattern _ => true
  | .name _ => true
  | .call _ => true
  | .ready _ => true
  | .word s => s == "getline"
  | .sign s => ["(", "$", "!", "++", "--", "-", "+"].contains s
  | _ => false

mutual

/-- An expression. -/
def expression (ps : List String) : Nat → Bool → Reader Expr
  | 0, _ => reject
  | n + 1, inPrint => do
    let a ← disjunction ps n inPrint
    if ← accept "?" then
      let b ← expression ps n inPrint
      expect ":"
      let c ← expression ps n inPrint
      return .choice a b c
    else return a

def disjunction (ps : List String) : Nat → Bool → Reader Expr
  | 0, _ => reject
  | n + 1, inPrint => do
    let a ← conjunction ps n inPrint
    if ← accept "||" then
      lineEnds
      return .either a (← disjunction ps n inPrint)
    else return a

def conjunction (ps : List String) : Nat → Bool → Reader Expr
  | 0, _ => reject
  | n + 1, inPrint => do
    let a ← membership ps n inPrint
    if ← accept "&&" then
      lineEnds
      return .both a (← conjunction ps n inPrint)
    else return a

def membership (ps : List String) : Nat → Bool → Reader Expr
  | 0, _ => reject
  | n + 1, inPrint => do
    membershipOf ps n (← fitting ps n inPrint)

def membershipOf (ps : List String) : Nat → Expr → Reader Expr
  | 0, _ => reject
  | n + 1, a => do
    if (← peek).isWord "in" then
      advance
      let array ← nameHere
      use ps array .array
      membershipOf ps n (.contains [a] array)
    else return a

def fitting (ps : List String) : Nat → Bool → Reader Expr
  | 0, _ => reject
  | n + 1, inPrint => do
    fittingOf ps n inPrint (← comparing ps n inPrint)

def fittingOf (ps : List String) : Nat → Bool → Expr → Reader Expr
  | 0, _, _ => reject
  | n + 1, inPrint, a => do
    if ← accept "~" then
      fittingOf ps n inPrint (.fits true a (← comparing ps n inPrint))
    else if ← accept "!~" then
      fittingOf ps n inPrint (.fits false a (← comparing ps n inPrint))
    else return a

def comparing (ps : List String) : Nat → Bool → Reader Expr
  | 0, _ => reject
  | n + 1, inPrint => do
    comparingOf ps n inPrint (← assignment ps n inPrint)

def comparingOf (ps : List String) : Nat → Bool → Expr → Reader Expr
  | 0, _, _ => reject
  | n + 1, inPrint, a => do
    match comparison? inPrint (← peek) with
    | some c =>
      advance
      comparingOf ps n inPrint (.compare c a (← assignment ps n inPrint))
    | none => return a

/-- Joined operands, or an assignment to a target that stands alone. -/
def assignment (ps : List String) : Nat → Bool → Reader Expr
  | 0, _ => reject
  | n + 1, inPrint => do
    let a ← sum ps n inPrint
    match assigning? (← peek) with
    | some op =>
      if isTarget a then
        advance
        return .assign op a (← expression ps n inPrint)
      else return a
    | none => joining ps n inPrint a

def joining (ps : List String) : Nat → Bool → Expr → Reader Expr
  | 0, _, _ => reject
  | n + 1, inPrint, a => do
    if opensOperand (← peek) then joining ps n inPrint (.joined a (← sum ps n inPrint))
    else return a

def sum (ps : List String) : Nat → Bool → Reader Expr
  | 0, _ => reject
  | n + 1, inPrint => do
    sumOf ps n inPrint (← product ps n inPrint)

def sumOf (ps : List String) : Nat → Bool → Expr → Reader Expr
  | 0, _, _ => reject
  | n + 1, inPrint, a => do
    if ← accept "+" then sumOf ps n inPrint (.calculate .add a (← product ps n inPrint))
    else if ← accept "-" then sumOf ps n inPrint (.calculate .subtract a (← product ps n inPrint))
    else return a

def product (ps : List String) : Nat → Bool → Reader Expr
  | 0, _ => reject
  | n + 1, inPrint => do
    productOf ps n inPrint (← signed ps n inPrint)

def productOf (ps : List String) : Nat → Bool → Expr → Reader Expr
  | 0, _, _ => reject
  | n + 1, inPrint, a => do
    let op : Option Arithmetical := match ← peek with
      | .sign "*" => some .multiply
      | .sign "/" => some .divide
      | .sign "%" => some .remainder
      | _ => none
    match op with
    | some op =>
      advance
      productOf ps n inPrint (.calculate op a (← signed ps n inPrint))
    | none => return a

def signed (ps : List String) : Nat → Bool → Reader Expr
  | 0, _ => reject
  | n + 1, inPrint => do
    if ← accept "!" then return .opposite (← signed ps n inPrint)
    else if ← accept "-" then return .negative (← signed ps n inPrint)
    else if ← accept "+" then return .positive (← signed ps n inPrint)
    else piped ps n inPrint (← power ps n inPrint)

/-- A command whose output is read. -/
def piped (ps : List String) : Nat → Bool → Expr → Reader Expr
  | 0, _, _ => reject
  | n + 1, inPrint, a => do
    if inPrint then return a
    else if ← accept "|" then
      if (← peek).isWord "getline" then
        advance
        piped ps n inPrint (.readLine .command (some a) (← target? ps n))
      else reject
    else return a

def power (ps : List String) : Nat → Bool → Reader Expr
  | 0, _ => reject
  | n + 1, inPrint => do
    let a ← counted ps n
    if ← accept "^" then return .calculate .power a (← exponent ps n inPrint)
    else return a

/-- What stands behind a power sign. -/
def exponent (ps : List String) : Nat → Bool → Reader Expr
  | 0, _ => reject
  | n + 1, inPrint => do
    if ← accept "!" then return .opposite (← exponent ps n inPrint)
    else if ← accept "-" then return .negative (← exponent ps n inPrint)
    else if ← accept "+" then return .positive (← exponent ps n inPrint)
    else power ps n inPrint

/-- An operand that is perhaps counted up or down behind its use. -/
def counted (ps : List String) : Nat → Reader Expr
  | 0 => reject
  | n + 1 => do
    let a ← operand ps n
    if isTarget a then
      if ← accept "++" then return .step true false a
      else if ← accept "--" then return .step false false a
      else return a
    else return a

/-- What a field number stands behind its sign. -/
def fieldNumber (ps : List String) : Nat → Reader Expr
  | 0 => reject
  | n + 1 => do
    if ← accept "-" then return .negative (← fieldNumber ps n)
    else if ← accept "+" then return .positive (← fieldNumber ps n)
    else if ← accept "!" then return .opposite (← fieldNumber ps n)
    else operand ps n

/-- A target that may come next. -/
def target? (ps : List String) : Nat → Reader (Option Expr)
  | 0 => return none
  | n + 1 => do
    let opens := match ← peek with
      | .name _ => true
      | t => t.isSign "$"
    if opens then return some (← operand ps n) else return none

def operand (ps : List String) : Nat → Reader Expr
  | 0 => reject
  | n + 1 => do
    match ← peek with
    | .number x _ =>
      advance
      return .number x
    | .text s =>
      advance
      return .text s
    | .pattern source =>
      advance
      return .pattern (← pattern source)
    | .sign "$" =>
      advance
      return .field (← fieldNumber ps n)
    | .sign "++" =>
      advance
      match ← target? ps n with
      | some a => return .step true true a
      | none => reject
    | .sign "--" =>
      advance
      match ← target? ps n with
      | some a => return .step false true a
      | none => reject
    | .sign "(" =>
      advance
      let es ← expressions ps n
      expect ")"
      match es with
      | [e] => return .grouped e
      | _ =>
        if (← peek).isWord "in" then
          advance
          let array ← nameHere
          use ps array .array
          return .contains es array
        else reject
    | .word "getline" =>
      advance
      let target ← target? ps n
      if ← accept "<" then return .readLine .file (some (← power ps n false)) target
      else return .readLine .inputs none target
    | .name s =>
      advance
      if (← get).functions.contains s && !ps.contains s then
        if (← peek).isSign "(" then arguments ps n s else reject
      else if ← accept "[" then
        let index ← expressions ps n
        expect "]"
        use ps s .array
        return .item s index
      else return .name s
    | .call s =>
      advance
      arguments ps n s
    | .ready s =>
      advance
      let bare ← if (← peek).isSign "(" then pure false
        else if s == "length" then pure true
        else reject
      let args ← if bare then pure []
        else do
          advance
          let args ← if (← peek).isSign ")" then pure [] else readyArguments ps n s 0
          expect ")"
          pure args
      let (least, most) := (readyFunctions.lookup s).getD (0, 0)
      if args.length < least || most < args.length then
        noteHere ("wrong number of arguments in call to " ++ s)
      match s, args with
      | "length", [.name _] => pure ()
      | "split", _ :: .name a :: _ => use ps a .array
      | _, args =>
        for a in args do
          if let .name a := a then use ps a .plain
      return .ready s args
    | _ => reject

/-- The arguments of a call. -/
def arguments (ps : List String) : Nat → String → Reader Expr
  | 0, _ => reject
  | n + 1, s => do
    expect "("
    let args ← if (← peek).isSign ")" then pure [] else expressions ps n
    expect ")"
    modify fun r => { r with calls := (s, args.length, r.line) :: r.calls }
    return .call s args

/-- The arguments of a function that every script has. Some of them have to be names. -/
def readyArguments (ps : List String) : Nat → String → Nat → Reader (List Expr)
  | 0, _, _ => reject
  | n + 1, s, k => do
    let t ← peek
    let isName := match t with
      | .name _ => true
      | _ => false
    if s == "split" && k = 1 && !isName then reject
    if (s == "sub" || s == "gsub") && k = 2 && !isName && !t.isSign "$" then reject
    let e ← if (s == "sub" || s == "gsub") && k = 2 then operand ps n else expression ps n false
    if ← accept "," then
      lineEnds
      return e :: (← readyArguments ps n s (k + 1))
    else return [e]

/-- Expressions with commas between them. -/
def expressions (ps : List String) : Nat → Reader (List Expr)
  | 0 => reject
  | n + 1 => do
    let e ← expression ps n false
    if ← accept "," then
      lineEnds
      return e :: (← expressions ps n)
    else return [e]

/-- The items of a print statement without brackets around them. -/
def printItems (ps : List String) : Nat → Reader (List Expr)
  | 0 => reject
  | n + 1 => do
    let e ← expression ps n true
    if ← accept "," then
      lineEnds
      return e :: (← printItems ps n)
    else return [e]

end

mutual

/-- The names that an expression uses as plain values. -/
def plainNames : Expr → List String
  | .name s => [s]
  | .number _ => []
  | .text _ => []
  | .pattern _ => []
  | .item _ index => plainNamesOf index
  | .field e => plainNames e
  | .assign _ a b => plainNames a ++ plainNames b
  | .choice a b c => plainNames a ++ plainNames b ++ plainNames c
  | .both a b => plainNames a ++ plainNames b
  | .either a b => plainNames a ++ plainNames b
  | .contains index _ => plainNamesOf index
  | .fits _ a b => plainNames a ++ plainNames b
  | .compare _ a b => plainNames a ++ plainNames b
  | .joined a b => plainNames a ++ plainNames b
  | .calculate _ a b => plainNames a ++ plainNames b
  | .opposite e => plainNames e
  | .negative e => plainNames e
  | .positive e => plainNames e
  | .step _ _ e => plainNames e
  | .call _ args => plainNamesInside args
  | .ready _ args => plainNamesInside args
  | .readLine _ none none => []
  | .readLine _ (some e) none => plainNames e
  | .readLine _ none (some e) => plainNames e
  | .readLine _ (some a) (some b) => plainNames a ++ plainNames b
  | .grouped e => plainNames e

def plainNamesOf : List Expr → List String
  | [] => []
  | e :: es => plainNames e ++ plainNamesOf es

/-- Those of arguments, of which a bare name can be an array. -/
def plainNamesInside : List Expr → List String
  | [] => []
  | .name _ :: es => plainNamesInside es
  | e :: es => plainNames e ++ plainNamesInside es

end

/-- Notes the names that an expression uses as plain values. -/
def settle (ps : List String) (e : Expr) : Reader Expr := do
  for s in plainNames e do
    use ps s .plain
  return e

/-- A whole expression. -/
def wholeExpression (ps : List String) : Reader Expr := do
  settle ps (← expression ps (20 * (← get).tokens.length + 20) false)

/-- Whether a token ends a statement. -/
def endsStatement : Token → Bool
  | .newline => true
  | .ending => true
  | t => t.isSign ";"

/-- Takes the end of a statement. -/
def statementEnd : Reader Unit := do
  let t ← peek
  if endsStatement t then
    advance
    if t.isSign ";" then lineEnds
  else if t.isSign "\x7d" then return
  else reject

/-- The items of a print statement. Several of them may stand between brackets. -/
def items (ps : List String) : Reader (List Expr) := do
  let t ← peek
  if endsStatement t || t.isSign ">" || t.isSign ">>" || t.isSign "|" || t.isSign "\x7d" then return []
  let before ← get
  let fuel := 20 * before.tokens.length + 20
  let listed : Option (List Expr) ←
    if t.isSign "(" then do
      advance
      let es ← expressions ps fuel
      expect ")"
      if 1 < es.length && !(← peek).isWord "in" then pure (some es)
      else
        set before
        pure none
    else pure none
  let es ← match listed with
    | some es => pure es
    | none => printItems ps fuel
  es.mapM (settle ps)

/-- The sink of a print statement. -/
def sink? (ps : List String) : Reader (Option (Sink × Expr)) := do
  let kind : Option Sink := match ← peek with
    | .sign ">" => some .file
    | .sign ">>" => some .appended
    | .sign "|" => some .command
    | _ => none
  match kind with
  | some k =>
    advance
    return some (k, ← wholeExpression ps)
  | none => return none

/-- Goes on behind the end of a statement with a fault. -/
def resume : Nat → Reader Unit
  | 0 => return
  | n + 1 => do
    match ← peek with
    | .finish => return
    | t =>
      if endsStatement t then
        advance
        lineEnds
      else if t.isSign "\x7d" then return
      else
        advance
        resume n

mutual

/-- A statement with its end. -/
def statement (k : Surroundings) : Nat → Reader Statement
  | 0 => reject
  | n + 1 => do
    let ps := k.parameters
    match ← peek with
    | .sign "\x7b" =>
      advance
      return .block (← block k n)
    | .sign ";" =>
      advance
      lineEnds
      return .block []
    | .newline =>
      advance
      return .block []
    | .ending =>
      advance
      return .block []
    | .word "if" =>
      advance
      expect "("
      let c ← wholeExpression ps
      expect ")"
      lineEnds
      let a ← statement k n
      let before ← get
      lineEnds
      if (← peek).isWord "else" then
        advance
        lineEnds
        return .branch c a (some (← statement k n))
      else
        set before
        return .branch c a none
    | .word "while" =>
      advance
      expect "("
      let c ← wholeExpression ps
      expect ")"
      lineEnds
      return .while c (← statement { k with loops := k.loops + 1 } n)
    | .word "do" =>
      advance
      lineEnds
      let body ← statement { k with loops := k.loops + 1 } n
      lineEnds
      if (← peek).isWord "while" then advance else reject
      expect "("
      let c ← wholeExpression ps
      expect ")"
      statementEnd
      return .doWhile body c
    | .word "for" =>
      advance
      expect "("
      match (← get).tokens with
      | (_, .name x) :: (_, .word "in") :: (_, .name a) :: (_, .sign ")") :: _ =>
        advance
        advance
        advance
        advance
        use ps x .plain
        use ps a .array
        lineEnds
        return .each x a (← statement { k with loops := k.loops + 1 } n)
      | _ =>
        let part (close : String) : Reader (Option Expr) := do
          if ← accept close then return none
          let e ← wholeExpression ps
          expect close
          return some e
        let first ← part ";"
        lineEnds
        let condition ← part ";"
        lineEnds
        let step ← part ")"
        lineEnds
        return .count (first.map .evaluate) condition (step.map .evaluate)
          (← statement { k with loops := k.loops + 1 } n)
    | .word "break" =>
      advance
      if k.loops = 0 then noteHere "break statement outside of loop"
      statementEnd
      return .break
    | .word "continue" =>
      advance
      if k.loops = 0 then noteHere "continue statement outside of loop"
      statementEnd
      return .continue
    | .word "next" =>
      advance
      if !k.hasRecord then noteHere "improper use of next"
      statementEnd
      return .next
    | .word "nextfile" =>
      advance
      if !k.hasRecord then noteHere "improper use of nextfile"
      statementEnd
      return .nextFile
    | .word "exit" =>
      advance
      let t ← peek
      let e ← if endsStatement t || t.isSign "\x7d" then pure none
        else do pure (some (← wholeExpression ps))
      statementEnd
      return .exit e
    | .word "return" =>
      advance
      if !k.inFunction then
        noteHere "return outside function body"
      let t ← peek
      let e ← if endsStatement t || t.isSign "\x7d" then pure none
        else do pure (some (← wholeExpression ps))
      statementEnd
      return .return e
    | .word "delete" =>
      advance
      let array ← nameHere
      use ps array .array
      if ← accept "[" then
        let index ← expressions ps n
        expect "]"
        let index ← index.mapM (settle ps)
        statementEnd
        return .delete array index
      else
        statementEnd
        return .clear array
    | .word "print" =>
      advance
      let es ← items ps
      let sink ← sink? ps
      statementEnd
      return .print es sink
    | .word "printf" =>
      advance
      let es ← items ps
      let sink ← sink? ps
      if es.isEmpty then noteHere "no arguments in call to printf"
      statementEnd
      return .printFormat es sink
    | _ =>
      let e ← wholeExpression ps
      statementEnd
      return .evaluate e

/-- The statements of a block up to its closing brace. -/
def block (k : Surroundings) : Nat → Reader (List Statement)
  | 0 => reject
  | n + 1 => do
    match ← peek with
    | .sign "\x7d" =>
      advance
      return []
    | .newline =>
      advance
      block k n
    | .ending =>
      advance
      block k n
    | .finish => reject
    | t =>
      if t.isWord "BEGIN" || t.isWord "END" then reject
      let body : Reader Statement := tryCatch (statement k n) fun _ => do
        resume (← get).tokens.length
        return .block []
      let s ← body
      return s :: (← block k n)

end

/-- The names of the functions that a script defines. -/
def definedNames : List (Nat × Token) → List String
  | (_, .word w) :: (l, .name s) :: rest =>
    if w == "function" || w == "func" then s :: definedNames rest else definedNames ((l, .name s) :: rest)
  | (_, .word w) :: (l, .call s) :: rest =>
    if w == "function" || w == "func" then s :: definedNames rest else definedNames ((l, .call s) :: rest)
  | _ :: rest => definedNames rest
  | [] => []

/-- The parameters of a function up to the closing bracket. -/
def parameterNames (function : String) : Nat → List String → Reader (List String)
  | 0, _ => reject
  | n + 1, done => do
    if done.isEmpty && (← peek).isSign ")" then
      advance
      return []
    match ← peek with
    | .name s =>
      if s == function then noteHere "function parameter cannot be the function"
      if done.contains s then noteHere (s ++ " is duplicated in argument list")
      advance
      if ← accept "," then
        lineEnds
        parameterNames function n (done ++ [s])
      else
        expect ")"
        return done ++ [s]
    | _ => reject

/-- A function behind its keyword. -/
def function (n : Nat) : Reader Function := do
  let name ← nameHere
  if ((← get).arities.lookup name).isSome then noteHere ("redefinition of " ++ name)
  expect "("
  let parameters ← parameterNames name n []
  modify fun s => { s with arities := (name, parameters.length) :: s.arities, locals := [] }
  lineEnds
  if !(← peek).isSign "\x7b" then reject
  advance
  let body ← block { inFunction := true, parameters } n
  return ⟨name, parameters, .block body⟩

/-- An action between braces. -/
def action (k : Surroundings) (n : Nat) : Reader Statement := do
  if !(← peek).isSign "\x7b" then reject
  advance
  return .block (← block k n)

/-- The next part of a script. -/
def part (n : Nat) (s : Script) : Reader Script := do
  match ← peek with
  | .word "BEGIN" =>
    advance
    return { s with beginnings := s.beginnings ++ [← action {} n] }
  | .word "END" =>
    advance
    return { s with endings := s.endings ++ [← action {} n] }
  | .word w =>
    if w == "function" || w == "func" then
      advance
      return { s with functions := s.functions ++ [← function n] }
    else if w == "getline" then rule n s
    else reject
  | _ => rule n s
where
  /-- A rule. -/
  rule (n : Nat) (s : Script) : Reader Script := do
    let record : Surroundings := { hasRecord := true }
    if (← peek).isSign "\x7b" then
      return { s with rules := s.rules ++ [⟨.always, some (← action record n)⟩] }
    else
      let a ← wholeExpression []
      let condition ← if ← accept "," then do
          lineEnds
          pure (Condition.span a (← wholeExpression []))
        else pure (Condition.holds a)
      if (← peek).isSign "\x7b" then
        return { s with rules := s.rules ++ [⟨condition, some (← action record n)⟩] }
      else
        let t ← peek
        if endsStatement t then
          advance
          return { s with rules := s.rules ++ [⟨condition, none⟩] }
        else if t matches .finish then return { s with rules := s.rules ++ [⟨condition, none⟩] }
        else reject

/-- Goes on behind a fault outside braces, at the next action or behind the end of a line. -/
def resumeOutside : Nat → Reader Unit
  | 0 => return
  | n + 1 => do
    match ← peek with
    | .finish => return
    | t =>
      if t.isSign "\x7b" then return
      else
        advance
        if !(endsStatement t || t.isSign "\x7d") then resumeOutside n

/-- The most faults that are told. -/
def maxFaults : Nat := 5

/-- All parts of a script. -/
def parts : Nat → Nat → Script → Reader Script
  | 0, _, s => return s
  | n + 1, size, s => do
    if maxFaults ≤ (← get).faults.length then return s
    match ← peek with
    | .finish => return s
    | .newline =>
      advance
      parts n size s
    | t =>
      if t.isSign ";" then
        advance
        parts n size s
      else
        let next : Reader Script := tryCatch (part size s) fun _ => do
          resumeOutside (← get).tokens.length
          return s
        parts n size (← next)

/-- The calls of functions that do not exist or take fewer arguments. -/
def checkCalls : Reader Unit := do
  let s ← get
  if !s.faults.isEmpty then return
  for (name, count, line) in s.calls.reverse do
    match s.arities.lookup name with
    | none => noteHere ("function " ++ name ++ " never defined")
    | some n =>
      if n < count then
        note ("line " ++ toString line ++ ": too many arguments in call to " ++ name)

end Reader

/-- A script, or what is told about its faults. -/
def readScript (text : String) : Except (List String) Script :=
  let lexing := tokensOf text
  let tokens := lexing.tokens.reverse
  let size := 20 * tokens.length + 20
  let work : Reader Script := do
    let s ← Reader.parts (tokens.length + 1) size {}
    Reader.checkCalls
    return s
  let start : Reading := { tokens, functions := Reader.definedNames tokens }
  let (result, reading) := Id.run (StateT.run (ExceptT.run work) start)
  let faults := reading.faults.reverse.take Reader.maxFaults
  match lexing.fault with
  | some text => .error ["line " ++ toString lexing.line ++ ": " ++ text]
  | none =>
    match result with
    | .ok s => if faults.isEmpty then .ok s else .error faults
    | .error _ => .error faults

end PatchSearch.Shell.RecordScript
