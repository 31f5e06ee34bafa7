/-! TOML values, and the texts of numbers, booleans, dates and times. -/
namespace HeaderWrap.Toml

inductive Value where
  | string (s : String)
  | integer (n : Int)
  | float (x : Float)
  /-- A number that no type holds, or an integer without digits or with stray characters. What is
  wrong with it shows when it is read. -/
  | unreadable
  | boolean (b : Bool)
  /-- A date, a time or both, as it is shown. -/
  | datetime (text : String)
  | array (items : List Value)
  | table (entries : List (String × Value))
  deriving Inhabited

def sortEntries {α : Type} (es : List (String × α)) : List (String × α) :=
  es.mergeSort fun a b => a.1 ≤ b.1

private def digitValue (c : Char) : Nat :=
  if c.isDigit then c.toNat - 48 else if c.isLower then c.toNat - 87 else c.toNat - 55

def ofDigits (base : Nat) (s : List Char) : Nat := s.foldl (fun n c => n * base + digitValue c) 0

def isHexDigit (c : Char) : Bool :=
  c.isDigit || ('a' ≤ c && c ≤ 'f') || ('A' ≤ c && c ≤ 'F')

private def isDigitOf (base : Nat) (c : Char) : Bool := isHexDigit c && digitValue c < base

private def splitSign : List Char → Option Char × List Char
  | '+' :: s => (some '+', s)
  | '-' :: s => (some '-', s)
  | s => (none, s)

private def applySign (sign? : Option Char) (n : Int) : Int := if sign? == some '-' then -n else n

/-- Whether each underscore stands between two digits. `afterDigit` tells whether a digit stands in
front of the text. -/
private def isSeparated (isDigit : Char → Bool) (afterDigit : Bool) : List Char → Bool
  | [] => true
  | '_' :: s => afterDigit && s.head?.any isDigit && isSeparated isDigit false s
  | c :: s => isSeparated isDigit (isDigit c) s

private def unseparated? (isDigit : Char → Bool) (s : List Char) : Option (List Char) :=
  if isSeparated isDigit false s then some (s.filter (· ≠ '_')) else none

/-! ### Integers -/

/-- The value of an integer: one that has only digits and that 128 bits hold, signed or not, can be
read. -/
private def integerOf (base : Nat) (sign? : Option Char) (ds : List Char) : Value :=
  if ds ≠ [] ∧ ds.all (isDigitOf base) then
    let n := applySign sign? (ofDigits base ds)
    if -Nat.pow 2 127 ≤ n ∧ n < Nat.pow 2 128 then .integer n else .unreadable
  else .unreadable

private def integer? (base : Nat) (s : List Char) : Option Value :=
  if s.all fun c => c == '_' || isDigitOf base c then
    (unseparated? isHexDigit s).map (integerOf base none)
  else none

/-- A decimal integer, of which no other begins with zero. From its first underscore on, only the
characters beside underscores are checked, and that there is no space. -/
private def decimal? (sign? : Option Char) (s : List Char) : Option Value :=
  if s.head? == some '0' && s.length ≠ 1 then none
  else if (s.dropWhile Char.isDigit).head?.any (· ≠ '_') || s.contains ' ' then none
  else (unseparated? isHexDigit s).map (integerOf 10 sign?)

/-! ### Floating-point numbers -/

private def digits? (s : List Char) : Option (List Char) :=
  (unseparated? Char.isDigit s).filter fun ds => ds ≠ [] && ds.all Char.isDigit

private def nearest (negative : Bool) (digits : List Char) (exponent : Int) : Value :=
  let n := ofDigits 10 digits
  let point := exponent + digits.length
  let x :=
    if n = 0 ∨ point < -400 then 0.0
    else if 400 < point - (digits.takeWhile (· == '0')).length then 1.0 / 0.0
    else Float.ofScientific (n * Nat.pow 10 exponent.toNat) true (-exponent).toNat
  if x.isInf then .unreadable else .float (if negative then -x else x)

private def isExponentMark (c : Char) : Bool := c == 'e' || c == 'E'

private def float? (sign? : Option Char) (s : List Char) : Option Value := do
  let mantissa := s.takeWhile (!isExponentMark ·)
  let exponent ← match s.dropWhile (!isExponentMark ·) with
    | [] => some 0
    | _ :: e =>
      let (sign?, e) := splitSign e
      (digits? e).map fun ds => applySign sign? (ofDigits 10 ds)
  let whole ← digits? (mantissa.takeWhile (· ≠ '.'))
  guard (whole.head? ≠ some '0' ∨ whole.length = 1)
  let fraction ← match mantissa.dropWhile (· ≠ '.') with
    | [] => some []
    | _ :: f => digits? f
  return nearest (sign? == some '-') (whole ++ fraction) (exponent - fraction.length)

/-! ### Dates and times -/

private def fixed? (width : Nat) (s : List Char) : Option (Nat × List Char) :=
  let ds := s.take width
  if ds.length = width && ds.all Char.isDigit then some (ofDigits 10 ds, s.drop width) else none

private def isLeapYear (year : Nat) : Bool := (year % 4 = 0 && year % 100 ≠ 0) || year % 400 = 0

private def daysIn (year : Nat) : Nat → Nat
  | 2 => if isLeapYear year then 29 else 28
  | 4 | 6 | 9 | 11 => 30
  | _ => 31

private def padded (width n : Nat) : List Char :=
  let ds := Nat.toDigits 10 n
  List.replicate (width - ds.length) '0' ++ ds

private def date? (s : List Char) : Option (List Char × List Char) := do
  let (year, s) ← fixed? 4 s
  let '-' :: s := s | none
  let (month, s) ← fixed? 2 s
  let '-' :: s := s | none
  let (day, s) ← fixed? 2 s
  guard (1 ≤ month ∧ month ≤ 12 ∧ 1 ≤ day ∧ day ≤ daysIn year month)
  return (padded 4 year ++ '-' :: padded 2 month ++ '-' :: padded 2 day, s)

/-- A fraction of a second as it is shown: nine digits at most, without trailing zeros, and nothing
if no digit is left. -/
private def shownFraction (ds : List Char) : List Char :=
  match ((ds.take 9).reverse.dropWhile (· == '0')).reverse with
  | [] => []
  | ds => '.' :: ds

private def time? (s : List Char) : Option (List Char × List Char) := do
  let (hour, s) ← fixed? 2 s
  let ':' :: s := s | none
  let (minute, s) ← fixed? 2 s
  guard (hour ≤ 23 ∧ minute ≤ 59)
  let shown (second : Nat) := padded 2 hour ++ ':' :: padded 2 minute ++ ':' :: padded 2 second
  match s with
  | ':' :: s =>
    let (second, s) ← fixed? 2 s
    guard (second ≤ 60)
    match s with
    | '.' :: s =>
      let ds := s.takeWhile Char.isDigit
      guard (ds ≠ [])
      return (shown second ++ shownFraction ds, s.dropWhile Char.isDigit)
    | s => return (shown second, s)
  | s => return (shown 0, s)

private def zone? (s : List Char) : Option (List Char) := do
  match s with
  | [] => return []
  | ['Z'] | ['z'] => return ['Z']
  | sign :: s =>
    guard (sign = '+' ∨ sign = '-')
    let (hour, s) ← fixed? 2 s
    let ':' :: s := s | none
    let (minute, s) ← fixed? 2 s
    guard (hour ≤ 23 ∧ minute ≤ 59 ∧ s = [])
    return (if hour = 0 ∧ minute = 0 then '+' else sign) :: padded 2 hour ++ ':' :: padded 2 minute

private def datetime? (s : List Char) : Option Value := do
  let shown ← match date? s with
    | some (date, []) => some date
    | some (date, mark :: s) =>
      guard (mark = 'T' ∨ mark = 't' ∨ mark = ' ')
      let (time, s) ← time? s
      return .datetime (String.ofList (date ++ 'T' :: time ++ (← zone? s)))
    | none =>
      let (time, s) ← time? s
      guard (s = [])
      some time
  return .datetime (String.ofList shown)

/-- The value that bare words spell. The mark of a base, or what follows the leading digits, tells
what it is. -/
def scalar? (word : List Char) : Option Value :=
  let (sign?, s) := splitSign word
  let rest := s.dropWhile Char.isDigit
  match word with
  | '0' :: 'x' :: s => integer? 16 s
  | '0' :: 'o' :: s => integer? 8 s
  | '0' :: 'b' :: s => integer? 2 s
  | _ =>
    if word == "true".toList then some (.boolean true)
    else if word == "false".toList then some (.boolean false)
    else if s == "inf".toList then
      some (.float (if sign? == some '-' then -1.0 / 0.0 else 1.0 / 0.0))
    else if s == "nan".toList then some (.float (0.0 / 0.0))
    else if !s.head?.any Char.isDigit then none
    else if rest.head? == some '-' || rest.head? == some ':' then datetime? word
    else if rest.any fun c => c == '.' || isExponentMark c then float? sign? s
    else decimal? sign? s

end HeaderWrap.Toml
