import HeaderWrap.Decimal.Shortest
import HeaderWrap.Document.Mismatch
import HeaderWrap.Text.Position

/-! Reading JSON from a text piece by piece. A fault tells how many bytes were read when it showed;
a byte that was only looked at counts as read. -/
namespace HeaderWrap.Json
open Document Text

structure Cursor where
  rest : List Char
  offset : Nat
  deriving Repr

/-- A fault of the syntax, or a mismatch of the content. A mismatch gets its place where the value
that holds it ends. -/
structure Fault where
  mismatch? : Option Mismatch
  offset? : Option Nat
  deriving Repr

abbrev Reader := EStateM Fault Cursor

def failAt {α : Type} (offset : Nat) : Reader α := throw ⟨none, some offset⟩

def failAhead {α : Type} : Reader α := fun c =>
  failAt (if c.rest.isEmpty then c.offset else c.offset + 1) c

def refuse {α : Type} (m : Mismatch) : Reader α := throw ⟨some m, none⟩

private def Fault.settle (f : Fault) (c : Cursor) : Fault :=
  { f with offset? := f.offset? <|> some c.offset }

def settled {α : Type} (r : Reader α) : Reader α := fun c =>
  match r c with
  | .ok a c => .ok a c
  | .error f c => .error (f.settle c) c

/-- Reads a body and then its end. The end is read also after a fault, since it says where a
mismatch lies. -/
def enclosed {α : Type} (body : Reader α) (close : Reader Unit) : Reader α := fun c =>
  match body c with
  | .ok a c =>
    match close c with
    | .ok _ c => .ok a c
    | .error f c => .error (f.settle c) c
  | .error f c =>
    match close c with
    | .ok _ c => .error (f.settle c) c
    | .error _ c => .error (f.settle c) c

def peek? : Reader (Option Char) := fun c => .ok c.rest.head? c

def advance : Reader Unit := fun c =>
  match c.rest with
  | [] => .ok () c
  | x :: s => .ok () ⟨s, c.offset + x.utf8Size⟩

def isSpace (c : Char) : Bool := c == ' ' || c == '\n' || c == '\t' || c == '\r'

def takeAll (p : Char → Bool) : Reader (List Char) := fun c =>
  let run := c.rest.takeWhile p
  .ok run ⟨c.rest.dropWhile p, c.offset + byteLength run⟩

def peekPiece? : Reader (Option Char) := do
  let _ ← takeAll isSpace
  peek?

def expectAll : List Char → Reader Unit
  | [] => pure ()
  | x :: xs => fun c =>
    match c.rest with
    | [] => failAt c.offset c
    | y :: s => if x = y then expectAll xs ⟨s, c.offset + y.utf8Size⟩ else failAt (c.offset + 1) c

/-! ### Strings -/

private def hexValue? (c : Char) : Option Nat :=
  if c.isDigit then some (c.toNat - 48)
  else if 'a' ≤ c ∧ c ≤ 'f' then some (c.toNat - 87)
  else if 'A' ≤ c ∧ c ≤ 'F' then some (c.toNat - 55)
  else none

private def hexFour (offset : Nat) (s : List Char) : Except Nat (Nat × List Char) :=
  if byteLength s < 4 then .error (offset + byteLength s)
  else
    match s with
    | a :: b :: c :: d :: s =>
      match hexValue? a, hexValue? b, hexValue? c, hexValue? d with
      | some a, some b, some c, some d => .ok (((a * 16 + b) * 16 + c) * 16 + d, s)
      | _, _, _, _ => .error (offset + 4)
    | _ => .error (offset + 4)

private def isLowSurrogate (n : Nat) : Bool := 0xDC00 ≤ n && n ≤ 0xDFFF

private def isHighSurrogate (n : Nat) : Bool := 0xD800 ≤ n && n ≤ 0xDBFF

private def lowEscape (offset : Nat) : List Char → Except Nat (Nat × List Char)
  | [] => .error offset
  | '\\' :: s =>
    match s with
    | [] => .error (offset + 1)
    | 'u' :: s => do
      let (n, s) ← hexFour (offset + 2) s
      if isLowSurrogate n then .ok (n, s) else .error (offset + 6)
    | _ => .error (offset + 2)
  | _ => .error (offset + 1)

private def escapeChar? : Char → Option Char
  | '"' => some '"'
  | '\\' => some '\\'
  | '/' => some '/'
  | 'b' => some '\x08'
  | 'f' => some '\x0c'
  | 'n' => some '\n'
  | 'r' => some '\r'
  | 't' => some '\t'
  | _ => none

/-- The characters up to the closing quote, what follows it, and its offset; or the offset of the
fault. Where the value is not wanted, `strict` is off: surrogates need not come in pairs, and a
control character is not read before it is refused. The number bounds the characters. -/
private def stringFrom (strict : Bool) :
    Nat → Nat → List Char → List Char → Except Nat (List Char × List Char × Nat)
  | 0, offset, _, _ => .error offset
  | _ + 1, offset, _, [] => .error offset
  | _ + 1, offset, text, '"' :: s => .ok (text.reverse, s, offset + 1)
  | _ + 1, offset, _, ['\\'] => .error (offset + 1)
  | n + 1, offset, text, '\\' :: 'u' :: s => do
    let (high, s) ← hexFour (offset + 2) s
    if !strict then stringFrom strict n (offset + 6) text s
    else if isLowSurrogate high then .error (offset + 6)
    else if isHighSurrogate high then do
      let (low, s) ← lowEscape (offset + 6) s
      let code := (high - 0xD800) * 0x400 + (low - 0xDC00) + 0x10000
      stringFrom strict n (offset + 12) (Char.ofNat code :: text) s
    else stringFrom strict n (offset + 6) (Char.ofNat high :: text) s
  | n + 1, offset, text, '\\' :: c :: s =>
    match escapeChar? c with
    | some e => stringFrom strict n (offset + 2) (e :: text) s
    | none => .error (offset + 2)
  | n + 1, offset, text, c :: s =>
    if c.toNat < 0x20 then .error (if strict then offset + 1 else offset)
    else stringFrom strict n (offset + c.utf8Size) (c :: text) s

def stringBody (strict : Bool) : Reader String := fun c =>
  match stringFrom strict (c.rest.length + 1) c.offset [] c.rest with
  | .ok (text, rest, offset) => .ok (String.ofList text) ⟨rest, offset⟩
  | .error offset => failAt offset c

/-! ### Numbers -/

/-- A number, as an integer if it is written as one and fits into 64 bits. -/
inductive Number where
  | integer (n : Int)
  | float (x : Float)

private def maxWord : Nat := 0xFFFFFFFFFFFFFFFF

/-- Appends decimal digits to a significand as long as it fits into 64 bits; also says how many
digits were taken. -/
private def appendDigits (significand taken : Nat) : List Char → Nat × Nat
  | [] => (significand, taken)
  | d :: ds =>
    let next := significand * 10 + (d.toNat - 48)
    if maxWord < next then (significand, taken) else appendDigits next (taken + 1) ds

/-- `significand` times or divided by a power of ten, as a double with a rounding at each step;
nothing if it is too large. Below the table of powers it is divided in steps, of which two leave
nothing of any 64-bit significand. -/
private def scaled (significand : Nat) (exponent : Int) : Option Float :=
  let shrink : Float × Int → Float × Int := fun (f, e) =>
    if e < -308 ∧ f != 0.0 then (f / 1e308, e + 308) else (f, e)
  let (f, e) := shrink (shrink (Float.ofNat significand, exponent))
  if f == 0.0 then some f
  else if e < 0 then some (f / Float.ofScientific 1 false e.natAbs)
  else if 308 < e then none
  else
    let f := f * Float.ofScientific 1 false e.natAbs
    if f.isInf then none else some f

private def maxExponent : Nat := 0x7FFFFFFF

/-- Reads the digits of an exponent after its first. One that grows too large is a fault if the
number does, and makes the number zero otherwise. -/
private def exponentFrom (vast : Bool) : Nat → List Char → Nat → Except Nat (Option Nat)
  | value, [], _ => .ok (some value)
  | value, d :: ds, offset =>
    let next := value * 10 + (d.toNat - 48)
    if maxExponent < next then if vast then .error (offset + 1) else .ok none
    else exponentFrom vast next ds (offset + 1)

def exponent (significand : Nat) : Reader (Option Int) := do
  advance
  let sign ← peek?
  if sign == some '+' || sign == some '-' then advance
  let c ← get
  match c.rest with
  | [] => failAt c.offset
  | d :: _ =>
    if !d.isDigit then failAt (c.offset + 1)
    else
      let digits ← takeAll Char.isDigit
      match exponentFrom (significand != 0 && sign != some '-') 0 digits c.offset with
      | .error offset => failAt offset
      | .ok none => pure none
      | .ok (some n) => pure (some (if sign == some '-' then -(n : Int) else n))

def fraction (negative : Bool) (significand : Nat) (dropped : Nat) : Reader Number := do
  let (significand, scale) ← do
    if (← peek?) == some '.' then
      advance
      let digits ← takeAll Char.isDigit
      if digits.isEmpty then failAhead
      let (significand, taken) := appendDigits significand 0 digits
      pure (significand, (dropped : Int) - taken)
    else pure (significand, (dropped : Int))
  let next ← peek?
  let scale? ← if next == some 'e' || next == some 'E' then
      (·.map (scale + ·)) <$> exponent significand
    else pure (some scale)
  let c ← get
  match scale? with
  | none => pure (.float (if negative then -0.0 else 0.0))
  | some scale =>
    match scaled significand scale with
    | some x => pure (.float (if negative then -x else x))
    | none => failAt c.offset

private def numberBody (negative : Bool) : Reader Number := do
  let c ← get
  match c.rest with
  | [] => failAt c.offset
  | d :: _ =>
    if !d.isDigit then failAt (c.offset + 1)
    else
      let digits ← if d == '0' then do
          advance
          if (← peek?).any Char.isDigit then failAhead
          pure ['0']
        else takeAll Char.isDigit
      let (significand, taken) := appendDigits 0 0 digits
      let next ← peek?
      if taken < digits.length || next == some '.' || next == some 'e' || next == some 'E' then
        fraction negative significand (digits.length - taken)
      else if !negative then pure (.integer significand)
      else if 0 < significand && significand ≤ 0x8000000000000000 then
        pure (.integer (-significand))
      else pure (.float (-Float.ofNat significand))

def number : Reader Number := do
  if (← peek?) == some '-' then
    advance
    numberBody true
  else numberBody false

private def skipNumber : Reader Unit := do
  if (← peek?) == some '-' then advance
  let c ← get
  match c.rest with
  | [] => failAt c.offset
  | d :: _ =>
    if !d.isDigit then failAt (c.offset + 1)
    if d == '0' then
      advance
      if (← peek?).any Char.isDigit then failAhead
    else let _ ← takeAll Char.isDigit
    if (← peek?) == some '.' then
      advance
      if (← takeAll Char.isDigit).isEmpty then failAhead
    let next ← peek?
    if next == some 'e' || next == some 'E' then
      advance
      let sign ← peek?
      if sign == some '+' || sign == some '-' then advance
      let c ← get
      match c.rest with
      | [] => failAt c.offset
      | d :: _ =>
        if !d.isDigit then failAt (c.offset + 1)
        let _ ← takeAll Char.isDigit

/-! ### Values that are not wanted -/

mutual

private def skipValue : Nat → Reader Unit
  | 0 => failAhead
  | n + 1 => do
    match ← peekPiece? with
    | some 'n' => expectAll "null".toList
    | some 't' => expectAll "true".toList
    | some 'f' => expectAll "false".toList
    | some '"' =>
      advance
      let _ ← stringBody false
    | some '[' =>
      advance
      if (← peekPiece?) == some ']' then advance else skipItems n
    | some '\x7b' =>
      advance
      if (← peekPiece?) == some '\x7d' then advance else skipMembers n
    | some c => if c == '-' || c.isDigit then skipNumber else failAhead
    | none => failAhead

private def skipItems : Nat → Reader Unit
  | 0 => failAhead
  | n + 1 => do
    skipValue n
    match ← peekPiece? with
    | some ']' => advance
    | some ',' =>
      advance
      skipItems n
    | _ => failAhead

private def skipMembers : Nat → Reader Unit
  | 0 => failAhead
  | n + 1 => do
    if (← peekPiece?) != some '"' then failAhead
    advance
    let _ ← stringBody false
    if (← peekPiece?) != some ':' then failAhead
    advance
    skipValue n
    match ← peekPiece? with
    | some '\x7d' => advance
    | some ',' =>
      advance
      skipMembers n
    | _ => failAhead

end

def skip : Reader Unit := fun c => skipValue (2 * c.rest.length + 2) c

def readAll {α : Type} (r : Reader α) (text : String) : Except Fault α :=
  let whole : Reader α := do
    let a ← r
    if (← peekPiece?).isSome then failAhead
    pure a
  match whole ⟨text.toList, 0⟩ with
  | .ok a _ => .ok a
  | .error f _ => .error f

end HeaderWrap.Json
