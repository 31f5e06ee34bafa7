import HeaderWrap.Toml.Scalar

/-! The grammar of TOML 1.1: a document as a list of statements. -/
namespace HeaderWrap.Toml

abbrev Reader := StateT (List Char) Option

def peek? : Reader (Option Char) := fun s => some (s.head?, s)

def advance : Reader Unit := fun s => some ((), s.drop 1)

private def expect (text : String) : Reader Unit := fun s =>
  if text.toList.isPrefixOf s then some ((), s.drop text.length) else none

def takeAll (p : Char → Bool) : Reader (List Char) := fun s =>
  some (s.takeWhile p, s.dropWhile p)

def startsWith (text : String) : Reader Bool := fun s => some (text.toList.isPrefixOf s, s)

def bound : Reader Nat := fun s => some (2 * s.length + 2, s)

/-! ### Blanks, line ends and comments -/

def isSpace (c : Char) : Bool := c == ' ' || c == '\t'

private def isPlain (c : Char) : Bool := c == '\t' || (0x20 ≤ c.toNat && c.toNat ≠ 0x7F)

private def skipSpaces : Reader Unit := do
  let _ ← takeAll isSpace

def newline : Reader Bool := do
  if ← startsWith "\n" then
    advance
    pure true
  else if ← startsWith "\r\n" then
    advance
    advance
    pure true
  else pure false

def comment : Reader Unit := do
  if (← peek?) == some '#' then
    let _ ← takeAll isPlain

private def endLine : Reader Unit := do
  skipSpaces
  comment
  if (← peek?).isSome then guard (← newline)

private def dropLines (inComment : Bool) : List Char → List Char
  | [] => []
  | '\r' :: '\n' :: s => dropLines false s
  | c :: s =>
    if c == '\n' || (!inComment && isSpace c) then dropLines false s
    else if (inComment && isPlain c) || (!inComment && c == '#') then dropLines true s
    else c :: s

private def skipAll : Reader Unit := fun s => some ((), dropLines false s)

/-! ### Strings -/

private def hexChar (width : Nat) : Reader Char := fun s =>
  let ds := s.take width
  let code := ofDigits 16 ds
  if ds.length = width && ds.all isHexDigit && code.isValidChar then
    some (Char.ofNat code, s.drop width)
  else none

private def escape : Reader Char := do
  let next ← peek?
  advance
  match next with
  | some 'b' => pure '\x08'
  | some 't' => pure '\t'
  | some 'n' => pure '\n'
  | some 'f' => pure '\x0c'
  | some 'r' => pure '\r'
  | some 'e' => pure '\x1b'
  | some '"' => pure '"'
  | some '\\' => pure '\\'
  | some 'x' => hexChar 2
  | some 'u' => hexChar 4
  | some 'U' => hexChar 8
  | _ => failure

private def basicRest : Nat → List Char → Reader String
  | 0, _ => failure
  | n + 1, text => do
    let next ← peek?
    advance
    match next with
    | some '"' => pure (String.ofList text.reverse)
    | some '\\' => basicRest n ((← escape) :: text)
    | some c =>
      guard (isPlain c)
      basicRest n (c :: text)
    | none => failure

private def literalRest : Reader String := do
  let text ← takeAll fun c => isPlain c && c != '\''
  expect "'"
  pure (String.ofList text)

/-- Reads a run of three to five quotes that ends a string over several lines, or a shorter run
inside it, and says which of its quotes belong to the string. -/
private def closingQuotes (quote : Char) : Reader (List Char × Bool) := do
  let s ← get
  let run := (s.takeWhile (· == quote)).take 5
  set (s.drop run.length)
  if 3 ≤ run.length then pure (run.drop 3, true) else pure (run, false)

private def skipFolded : Nat → Reader Unit
  | 0 => pure ()
  | n + 1 => do
    skipSpaces
    if ← newline then skipFolded n

private def atLineEnd : Reader Bool := fun s =>
  let rest := s.dropWhile isSpace
  some (['\n'].isPrefixOf rest || ['\r', '\n'].isPrefixOf rest, s)

private def multilineRest (quote : Char) : Nat → List Char → Reader String
  | 0, _ => failure
  | n + 1, text => do
    match ← peek? with
    | none => failure
    | some c =>
      if c == quote then
        let (inside, closed) ← closingQuotes quote
        if closed then pure (String.ofList (text.reverse ++ inside))
        else multilineRest quote n (inside ++ text)
      else if c == '\\' && quote == '"' then
        advance
        if ← atLineEnd then
          skipFolded (← bound)
          multilineRest quote n text
        else multilineRest quote n ((← escape) :: text)
      else if ← startsWith "\r\n" then
        advance
        advance
        multilineRest quote n ('\n' :: '\r' :: text)
      else
        guard (c == '\n' || isPlain c)
        advance
        multilineRest quote n (c :: text)

/-- Reads a string over several lines whose opening quotes were read. A line end right behind them
is left out. -/
private def multiline (quote : Char) : Reader String := do
  let _ ← newline
  multilineRest quote (← bound) []

private def singleLine? : Reader (Option String) := do
  match ← peek? with
  | some '"' =>
    advance
    some <$> basicRest (← bound) []
  | some '\'' =>
    advance
    some <$> literalRest
  | _ => pure none

/-! ### Keys -/

private def isKeyChar (c : Char) : Bool := c.isAlphanum || c == '_' || c == '-'

private def simpleKey : Reader String := do
  match ← singleLine? with
  | some key => pure key
  | none =>
    let key ← takeAll isKeyChar
    guard (key ≠ [])
    pure (String.ofList key)

private def keyRest : Nat → Reader (List String)
  | 0 => failure
  | n + 1 => do
    skipSpaces
    if (← peek?) == some '.' then
      advance
      skipSpaces
      return (← simpleKey) :: (← keyRest n)
    else return []

private def maxDepth : Nat := 80

private def dottedKey : Reader (List String × String) := do
  let first ← simpleKey
  let rest ← keyRest (← bound)
  guard (rest.length < maxDepth)
  return ((first :: rest).dropLast, rest.getLast?.getD first)

/-! ### Values -/

/-- A value, with the pairs of its tables still in the order and form they are written in. -/
inductive Term where
  | value (v : Value)
  | array (items : List Term)
  | inlineTable (pairs : List ((List String × String) × Term))
  deriving Inhabited

private def endsWords (c : Char) : Bool :=
  ['\n', '\r', ',', '=', '[', ']', '\x7b', '\x7d', '#'].contains c

/-- Cuts off bare words with the blanks between and behind them. A quote ends them only behind a
blank. -/
private def cutWords (afterBlank : Bool) : List Char → List Char × List Char
  | [] => ([], [])
  | c :: s =>
    if endsWords c || (afterBlank && (c == '"' || c == '\'')) then ([], c :: s)
    else
      let (words, rest) := cutWords (isSpace c) s
      (c :: words, rest)

def words : Reader (List Char) := fun s =>
  let (words, rest) := cutWords false s
  some ((words.reverse.dropWhile isSpace).reverse, rest)

mutual

private def term : Nat → Nat → Reader Term
  | 0, _ => failure
  | n + 1, depth => do
    if ← startsWith "\"\"\"" then
      expect "\"\"\""
      return .value (.string (← multiline '"'))
    else if ← startsWith "'''" then
      expect "'''"
      return .value (.string (← multiline '\''))
    else
      match ← singleLine? with
      | some s => return .value (.string s)
      | none =>
        match ← peek? with
        | some '[' =>
          guard (depth < maxDepth)
          advance
          return .array (← termItems n (depth + 1))
        | some '\x7b' =>
          guard (depth < maxDepth)
          advance
          return .inlineTable (← termPairs n (depth + 1))
        | _ =>
          let some v := scalar? (← words) | failure
          return .value v

private def termItems : Nat → Nat → Reader (List Term)
  | 0, _ => failure
  | n + 1, depth => do
    skipAll
    if (← peek?) == some ']' then
      advance
      return []
    else
      let item ← term n depth
      skipAll
      if (← peek?) == some ',' then
        advance
        return item :: (← termItems n depth)
      else
        expect "]"
        return [item]

private def termPairs : Nat → Nat → Reader (List ((List String × String) × Term))
  | 0, _ => failure
  | n + 1, depth => do
    skipAll
    if (← peek?) == some '\x7d' then
      advance
      return []
    else
      let key ← dottedKey
      skipAll
      expect "="
      skipAll
      let item ← term n depth
      skipAll
      if (← peek?) == some ',' then
        advance
        return (key, item) :: (← termPairs n depth)
      else
        expect "\x7d"
        return [(key, item)]

end

/-! ### Statements -/

inductive Statement where
  /-- `[key]`. -/
  | table (path : List String) (name : String)
  /-- `[[key]]`. -/
  | arrayItem (path : List String) (name : String)
  /-- `key = value`. -/
  | pair (path : List String) (name : String) (value : Term)

def statement : Reader Statement := do
  if ← startsWith "[[" then
    expect "[["
    skipSpaces
    let (path, name) ← dottedKey
    expect "]]"
    return .arrayItem path name
  else if ← startsWith "[" then
    expect "["
    skipSpaces
    let (path, name) ← dottedKey
    expect "]"
    return .table path name
  else
    let (path, name) ← dottedKey
    expect "="
    skipSpaces
    return .pair path name (← term (← bound) 0)

private def statementsFrom : Nat → Reader (List Statement)
  | 0 => failure
  | n + 1 => do
    skipAll
    if (← peek?).isNone then return []
    else
      let first ← statement
      endLine
      return first :: (← statementsFrom n)

def statements? (text : String) : Option (List Statement) :=
  let s := match text.toList with
    | '\uFEFF' :: s => s
    | s => s
  (statementsFrom (s.length + 1) s).map Prod.fst

end HeaderWrap.Toml
