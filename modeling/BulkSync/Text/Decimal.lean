namespace BulkSync

/-- The value `digits * 10 ^ exponent`. -/
structure Decimal where
  digits : Nat
  exponent : Int
deriving DecidableEq, Repr

/-- The value `mantissa * 2 ^ exponent` of a finite double without its sign. `narrow` says that
the double below is only half as far away as the one above. -/
structure Binary where
  mantissa : Nat
  exponent : Int
  narrow : Bool
deriving DecidableEq, Repr

/-- Takes a finite double apart. -/
def Binary.ofBits (bits : Nat) : Binary :=
  let scale : Nat := bits / Nat.pow 2 52 % Nat.pow 2 11
  let fraction : Nat := bits % Nat.pow 2 52
  if scale = 0 then ⟨fraction, -1074, false⟩
  else ⟨Nat.pow 2 52 + fraction, (scale : Int) - 1075, fraction == 0 && 1 < scale⟩

/-- `a * 10 ^ i` and `b * 2 ^ j` multiplied by the same factor, so that both are whole. -/
def commonScale (a : Nat) (i : Int) (b : Nat) (j : Int) : Nat × Nat :=
  (a * Nat.pow 10 i.toNat * Nat.pow 2 (-j).toNat,
    b * Nat.pow 2 j.toNat * Nat.pow 10 (-i).toNat)

/-- Whether a decimal lies among the numbers that round to a double: from half way to the double
below to half way to the one above, the ends included if the mantissa is even. -/
def Binary.readsBack (x : Binary) (d : Decimal) : Bool :=
  let below := if x.narrow then 4 * x.mantissa - 1 else 4 * x.mantissa - 2
  let (a, lower) := commonScale d.digits d.exponent below (x.exponent - 2)
  let (b, upper) := commonScale d.digits d.exponent (4 * x.mantissa + 2) (x.exponent - 2)
  if x.mantissa % 2 = 0 then lower ≤ a && b ≤ upper else lower < a && b < upper

/-- The multiple of `10 ^ exponent` that a double is written with, if one reads back: of the two
around the double the nearer one, and the greater one if both are equally near. -/
def Binary.onGrid? (x : Binary) (exponent : Int) : Option Decimal :=
  let (unit, value) := commonScale 1 exponent x.mantissa x.exponent
  let down : Decimal := ⟨value / unit, exponent⟩
  let up : Decimal := ⟨value / unit + 1, exponent⟩
  let upIsNearer := unit ≤ 2 * (value % unit)
  match x.readsBack down, x.readsBack up with
  | true, true => some (if upIsNearer then up else down)
  | true, false => some down
  | false, true => some up
  | false, false => none

/-- The first grid, from coarse to fine, on which a double can be written. -/
def Binary.coarsest? (x : Binary) : (grids : Nat) → (exponent : Int) → Option Decimal
  | 0, _ => none
  | grids + 1, exponent =>
    match x.onGrid? exponent with
    | some d => some d
    | none => x.coarsest? grids (exponent - 1)

/-- An exponent of ten above the leading digit of a double: three tenths of its binary
logarithm, rounded up generously. -/
def Binary.coarseExponent (x : Binary) : Int :=
  (x.exponent + x.mantissa.log2 + 1) * 30103 / 100000 + 2

/-- The decimal with the fewest digits that reads back as a positive double. Seventeen digits
always do, so the double itself is never needed. -/
def Binary.shortest (x : Binary) : Decimal :=
  (x.coarsest? 24 x.coarseExponent).getD ⟨x.mantissa, 0⟩

/-- A decimal without an exponent: as many zeros as it takes, and a point only before digits. -/
def Decimal.positional (d : Decimal) : String :=
  let digits := Nat.toDigits 10 d.digits
  if 0 ≤ d.exponent then
    String.ofList (digits ++ List.replicate d.exponent.toNat '0')
  else
    let places := (-d.exponent).toNat
    let padded := List.replicate (places + 1 - digits.length) '0' ++ digits
    let whole := padded.length - places
    String.ofList (padded.take whole ++ '.' :: padded.drop whole)

/-- The text of a double: the fewest digits that read back, never with an exponent. -/
def doubleText (x : Float) : String :=
  if x.isNaN then "NaN"
  else
    let sign := if x.toBits.toNat < Nat.pow 2 63 then "" else "-"
    if x.isInf then sign ++ "inf"
    else
      let b := Binary.ofBits (x.toBits.toNat % Nat.pow 2 63)
      if b.mantissa = 0 then sign ++ "0" else sign ++ b.shortest.positional

/-- A number as it is written: the digits, and the exponent of ten of the last one. -/
structure WrittenNumber where
  digits : List Nat
  exponent : Int

def decimalDigit? (c : Char) : Option Nat :=
  if '0' ≤ c ∧ c ≤ '9' then some (c.toNat - '0'.toNat) else none

def isDecimalDigit (c : Char) : Bool :=
  (decimalDigit? c).isSome

def digitsNumber (digits : List Nat) : Nat :=
  digits.foldl (fun n d => 10 * n + d) 0

/-- The exponent after the letter `e`: an optional sign and at least one digit. -/
def readExponent? (cs : List Char) : Option Int :=
  let (negative, cs) := match cs with
    | '-' :: cs => (true, cs)
    | '+' :: cs => (false, cs)
    | cs => (false, cs)
  if cs.isEmpty then none
  else (cs.mapM decimalDigit?).map fun digits =>
    if negative then -(digitsNumber digits : Int) else digitsNumber digits

/-- Digits with an optional point among them and an optional exponent after them. -/
def readNumber? (cs : List Char) : Option WrittenNumber := do
  let whole := cs.takeWhile isDecimalDigit
  let rest := cs.dropWhile isDecimalDigit
  let (fraction, rest) := match rest with
    | '.' :: rest => (rest.takeWhile isDecimalDigit, rest.dropWhile isDecimalDigit)
    | rest => ([], rest)
  if whole.isEmpty && fraction.isEmpty then none
  let exponent ← match rest with
    | [] => some 0
    | c :: rest => if c = 'e' ∨ c = 'E' then readExponent? rest else none
  let digits ← (whole ++ fraction).mapM decimalDigit?
  return ⟨digits, exponent - fraction.length⟩

/-- The whole number nearest to `a / b`, the even one of two that are equally near. -/
def roundQuotient (a b : Nat) : Nat :=
  let down := a / b
  let rest := 2 * (a % b)
  if b < rest || (rest == b && down % 2 == 1) then down + 1 else down

/-- `a / b` divided by `2 ^ exponent`, as a quotient of whole numbers. -/
def scaleQuotient (a b : Nat) (exponent : Int) : Nat × Nat :=
  (a * Nat.pow 2 (-exponent).toNat, b * Nat.pow 2 exponent.toNat)

/-- The exponent of the double nearest to `a / b`: the mantissa has 53 bits, or fewer where the
exponent cannot be smaller. -/
def quotientExponent (a b : Nat) : Int :=
  let guess : Int := a.log2 - b.log2 - 52
  if guess ≤ -1074 then -1074
  else
    let (a, b) := scaleQuotient a b guess
    if Nat.pow 2 52 * b ≤ a then guess else guess - 1

/-- The bits of infinity. -/
def infinityBits : Nat := 2047 * Nat.pow 2 52

/-- The bits of the double nearest to `a / b`. A mantissa that is rounded up to 54 bits carries
over into the exponent, and an exponent that is too large makes infinity. -/
def nearestBits (a b : Nat) : Nat :=
  let exponent := quotientExponent a b
  let (a, b) := scaleQuotient a b exponent
  min infinityBits ((exponent + 1074).toNat * Nat.pow 2 52 + roundQuotient a b)

/-- The double nearest to a number. What is beyond all doubles needs no arithmetic. -/
def WrittenNumber.toDouble (n : WrittenNumber) : Float :=
  let digits := n.digits.dropWhile (· == 0)
  let leading := n.exponent + digits.length
  let bits :=
    if digits.isEmpty || leading < -400 then 0
    else if 400 < leading then infinityBits
    else nearestBits (digitsNumber digits * Nat.pow 10 n.exponent.toNat)
      (Nat.pow 10 (-n.exponent).toNat)
  Float.ofBits (UInt64.ofNat bits)

/-- Reads a double: an optional sign and a number, or one of the names of the values that are
not finite, in any case. -/
def readDouble? (text : String) : Option Float :=
  let (negative, cs) := match text.toList with
    | '-' :: cs => (true, cs)
    | '+' :: cs => (false, cs)
    | cs => (false, cs)
  let name := String.ofList (cs.map Char.toLower)
  let magnitude :=
    if name = "inf" ∨ name = "infinity" then some (1.0 / 0.0)
    else if name = "nan" then some (0.0 / 0.0)
    else (readNumber? cs).map WrittenNumber.toDouble
  magnitude.map fun x => if negative then -x else x

end BulkSync
