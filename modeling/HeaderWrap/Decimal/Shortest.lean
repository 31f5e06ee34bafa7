/-! The shortest decimal of a binary floating-point number, and its notations. -/
namespace HeaderWrap.Decimal

/-- A finite positive number `mantissa · 2 ^ exponent`. Its lower neighbour is only half as far as
the upper one if it is `narrow`. -/
structure Binary where
  mantissa : Nat
  exponent : Int
  narrow : Bool

private def Binary.ofBits (bits : Nat) : Binary :=
  let fraction : Nat := bits % Nat.pow 2 52
  let field : Nat := bits / Nat.pow 2 52 % Nat.pow 2 11
  if field = 0 then ⟨fraction, -1074, false⟩
  else ⟨Nat.pow 2 52 + fraction, (field : Int) - 1075, fraction = 0 && 1 < field⟩

/-- The multiple of `10 ^ scale` that reads back as the number and is nearest to it, if some
multiple reads back. Everything is counted in quarters of the gap to the upper neighbour; both ends
of the interval read back if the mantissa is even. -/
private def Binary.atScale (b : Binary) (scale : Int) : Option Nat :=
  let num := Nat.pow 2 (b.exponent - 2).toNat * Nat.pow 10 (-scale).toNat
  let den := Nat.pow 2 (2 - b.exponent).toNat * Nat.pow 10 scale.toNat
  let low := (4 * b.mantissa - if b.narrow then 1 else 2) * num
  let mid := 4 * b.mantissa * num
  let high := (4 * b.mantissa + 2) * num
  let readsBack (c : Nat) : Bool :=
    if b.mantissa % 2 = 0 then low ≤ c * den && c * den ≤ high
    else low < c * den && c * den < high
  let c := mid / den
  if readsBack c then
    if readsBack (c + 1) then
      let below := mid - c * den
      let above := (c + 1) * den - mid
      some (if below < above || (below = above && c % 2 = 0) then c else c + 1)
    else some c
  else if readsBack (c + 1) then some (c + 1) else none

/-- The digits of the shortest decimal that reads back, and its scale: the largest scale that has
such a decimal. -/
private def Binary.shortest (b : Binary) : Nat × Int :=
  ((List.range 660).findSome? fun (i : Nat) =>
    let scale : Int := 310 - i
    (b.atScale scale).map fun c => (c, scale)).getD (0, 0)

structure Notation where
  /-- The decimal point positions written without an exponent; all of them if there is no window. -/
  window? : Option (Int × Int)

def scientific : Notation := ⟨some (-4, 16)⟩

def positional : Notation := ⟨none⟩

private def zeros (n : Int) : String := String.ofList (List.replicate n.toNat '0')

def Notation.write (n : Notation) (digits : List Char) (point : Int) : String :=
  let text (s : List Char) := String.ofList s
  if n.window?.all fun (low, high) => low ≤ point && point ≤ high then
    if point ≤ 0 then "0." ++ zeros (-point) ++ text digits
    else if digits.length ≤ point then text digits ++ zeros (point - digits.length) ++ ".0"
    else text (digits.take point.toNat) ++ "." ++ text (digits.drop point.toNat)
  else
    text (digits.take 1) ++ (if digits.length = 1 then "" else "." ++ text (digits.drop 1)) ++
      (if 0 < point then "e+" else "e-") ++ toString (point - 1).natAbs

def Notation.render (n : Notation) (x : Float) : String :=
  let bits := x.toBits.toNat
  let sign := if Nat.pow 2 63 ≤ bits then "-" else ""
  if x.isNaN then "NaN"
  else if x.isInf then sign ++ "inf"
  else if bits % Nat.pow 2 63 = 0 then sign ++ "0.0"
  else
    let (c, scale) := (Binary.ofBits bits).shortest
    let digits := Nat.toDigits 10 c
    sign ++ n.write digits (digits.length + scale)

end HeaderWrap.Decimal
