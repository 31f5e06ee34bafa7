import HeaderWrap.Header.Token

/-! Function declarations in a header: a lenient scan, line by line, for the shape
`[qualifiers] type name(parameters)[;]`. -/
namespace HeaderWrap

structure Signature where
  /-- The name without leading underscores. -/
  name : String
  /-- The result type as written, without qualifiers. -/
  result : String
  params : List String
  deriving DecidableEq, Repr

namespace Header
open Text

/-- A function declaration as it stands in a header, its parameter list uncut. -/
structure Prototype where
  name : List Char
  result : List Char
  /-- What stands between the parentheses. -/
  args : List Char
  deriving DecidableEq, Repr

def maxQualifiers : Nat := 3

/-- `inline`, `static`, or a macro name in capitals. -/
def isQualifier (word : List Char) : Bool :=
  word == "inline".toList || word == "static".toList || word.all fun c => c.isUpper || c == '_'

def isStatementWord (word : List Char) : Bool :=
  word == "else".toList || word == "typedef".toList || word == "return".toList

/-- The tokens without newlines, whose text counts as skipped. -/
def joinLines : List Token → List Token
  | [] => []
  | t :: ts => if t.kind = .newline then Token.skip t.source (joinLines ts) else t :: joinLines ts

/-- Drops at most `n` leading qualifiers that have a word behind them. -/
def dropQualifiers : Nat → List Token → List Token
  | n + 1, t :: t' :: ts =>
    if t.kind = .word ∧ isQualifier t.text ∧ t'.kind = .word then dropQualifiers n (t' :: ts)
    else t :: t' :: ts
  | _, ts => ts

def spanText : List Token → List Char
  | [] => []
  | t :: ts => t.text ++ ts.flatMap Token.source

def readHead (head : List Token) : Option (List Char × List Char) :=
  match head.getLast?, dropQualifiers maxQualifiers head.dropLast with
  | some last, first :: rest =>
    let name := last.text.dropWhile (· == '_')
    if last.kind = .word ∧ name ≠ [] ∧ first.kind = .word ∧ !isStatementWord first.text then
      some (name, spanText (first :: rest))
    else none
  | _, _ => none

/-- Cuts a parameter list at its commas; blank parts are no parameters. -/
def splitParams (args : List Char) : List (List Char) :=
  ((args.splitOn ',').map trim).filter (· ≠ [])

def isHeadToken (t : Token) : Bool := t.kind = .word || t.kind = .star || t.kind = .newline

def isArgToken (t : Token) : Bool :=
  t.kind = .word || t.kind = .star || t.kind = .amp || t.kind = .comma || t.kind = .newline

/-- What follows a declaration: an optional semicolon and the end of its line. -/
def readEnd : List Token → Option (List Token)
  | [] => some []
  | t :: ts =>
    if t.kind = .newline then some ts
    else if t.kind = .semi then
      match ts with
      | [] => some []
      | t' :: ts => if t'.kind = .newline then some ts else none
    else none

def Prototype.signature (p : Prototype) : Signature :=
  ⟨String.ofList p.name, String.ofList p.result, (splitParams p.args).map String.ofList⟩

def readPrototype (ts : List Token) : Option (Prototype × List Token) :=
  match ts.dropWhile isHeadToken with
  | [] => none
  | lparen :: rest =>
    if lparen.kind = .lparen then
      match readHead (joinLines (ts.takeWhile isHeadToken)), rest.dropWhile isArgToken with
      | some (name, result), rparen :: after =>
        if rparen.kind = .rparen then
          let args := (rest.takeWhile isArgToken).flatMap Token.source ++ rparen.skipped
          (readEnd after).map fun next => (⟨name, result, args⟩, next)
        else none
      | _, _ => none
    else none

private theorem readEnd_suffix {ts rest : List Token} (h : readEnd ts = some rest) : rest <:+ ts := by
  unfold readEnd at h
  split at h
  · obtain rfl := Option.some.inj h
    exact List.suffix_rfl
  · split at h
    · obtain rfl := Option.some.inj h
      exact List.suffix_cons _ _
    · split at h
      · split at h
        · obtain rfl := Option.some.inj h
          exact List.nil_suffix
        · split at h
          · obtain rfl := Option.some.inj h
            exact (List.suffix_cons _ _).trans (List.suffix_cons _ _)
          · contradiction
      · contradiction

/-- The parts that a declaration is read from. -/
theorem readPrototype_parts {ts rest : List Token} {p : Prototype}
    (h : readPrototype ts = some (p, rest)) :
    ∃ lparen after rparen tail, ts.dropWhile isHeadToken = lparen :: after ∧
      lparen.kind = .lparen ∧ after.dropWhile isArgToken = rparen :: tail ∧
      rparen.kind = .rparen ∧ readEnd tail = some rest ∧
      readHead (joinLines (ts.takeWhile isHeadToken)) = some (p.name, p.result) ∧
      p.args = (after.takeWhile isArgToken).flatMap Token.source ++ rparen.skipped := by
  unfold readPrototype at h
  split at h
  · contradiction
  · rename_i lparen after head
    split at h
    · rename_i opening
      split at h
      · rename_i name result rparen tail named args
        split at h
        · rename_i closing
          obtain ⟨next, ending, h⟩ := Option.map_eq_some_iff.mp h
          obtain ⟨rfl, rfl⟩ := Prod.mk.inj h
          exact ⟨lparen, after, rparen, tail, head, opening, args, closing, ending, named, rfl⟩
        · contradiction
      · contradiction
    · contradiction

/-- What is read of a declaration up to its parameter list. -/
theorem readPrototype_head {ts rest : List Token} {p : Prototype}
    (h : readPrototype ts = some (p, rest)) :
    ∃ lparen after, ts.dropWhile isHeadToken = lparen :: after ∧ lparen.kind = .lparen ∧
      rest <:+ after ∧
      readHead (joinLines (ts.takeWhile isHeadToken)) = some (p.name, p.result) := by
  obtain ⟨lparen, after, rparen, tail, head, opening, args, -, ending, named, -⟩ :=
    readPrototype_parts h
  have inner : rparen :: tail <:+ after := args ▸ List.dropWhile_suffix _
  have left := ((readEnd_suffix ending).trans (List.suffix_cons rparen tail)).trans inner
  exact ⟨lparen, after, head, opening, left, named⟩

/-- What is left lies behind the parenthesis that opens the parameter list. -/
theorem readPrototype_suffix {ts rest : List Token} {p : Prototype}
    (h : readPrototype ts = some (p, rest)) :
    ∃ lparen after, lparen :: after <:+ ts ∧ rest <:+ after := by
  obtain ⟨lparen, after, head, -, left, -⟩ := readPrototype_head h
  exact ⟨lparen, after, head ▸ List.dropWhile_suffix _, left⟩

/-- A declaration takes at least its parentheses. -/
theorem readPrototype_length {ts rest : List Token} {p : Prototype}
    (h : readPrototype ts = some (p, rest)) : rest.length < ts.length := by
  obtain ⟨lparen, after, outer, inner⟩ := readPrototype_suffix h
  exact Nat.lt_of_lt_of_le (Nat.lt_succ_of_le inner.length_le) outer.length_le

def nextLine (ts : List Token) : List Token := (ts.dropWhile (·.kind ≠ .newline)).drop 1

theorem nextLine_suffix (ts : List Token) : nextLine ts <:+ ts :=
  (List.drop_suffix 1 _).trans (List.dropWhile_suffix _)

theorem nextLine_length (t : Token) (ts : List Token) :
    (nextLine (t :: ts)).length < (t :: ts).length := by
  have h := (List.dropWhile_sublist (l := ts) (·.kind ≠ .newline)).length_le
  unfold nextLine
  rw [List.dropWhile_cons]
  split
  · simp only [List.length_drop, List.length_cons]
    omega
  · simp

/-- The declarations of a token list. A line that begins none is passed over. -/
def prototypesOf : List Token → List Prototype
  | [] => []
  | t :: ts =>
    if t.kind = .newline then prototypesOf ts
    else
      match _h : readPrototype (t :: ts) with
      | some (p, rest) => p :: prototypesOf rest
      | none => prototypesOf (nextLine (t :: ts))
termination_by ts => ts.length
decreasing_by
  · simp
  · exact readPrototype_length _h
  · exact nextLine_length t ts

/-- A line is read if it begins a declaration, and passed over otherwise. -/
theorem prototypesOf_cons {t : Token} (ts : List Token) (plain : t.kind ≠ .newline) :
    prototypesOf (t :: ts) =
      match readPrototype (t :: ts) with
      | some (p, rest) => p :: prototypesOf rest
      | none => prototypesOf (nextLine (t :: ts)) := by
  rw [prototypesOf, if_neg plain]
  split
  · rename_i found
    rw [found]
  · rename_i found
    rw [found]

def prototypes (text : String) : List Prototype := prototypesOf (tokens .code text.toList)

def signatures (text : String) : List Signature := (prototypes text).map Prototype.signature

end Header
end HeaderWrap
