namespace BulkSync

/-- The two kinds of 64-bit cell a node value is made of. -/
inductive Scalar where
  | long
  | double
deriving DecidableEq, Repr

/-- A double as its 64 bits, so that every not-a-number keeps its sign and its payload. As a `Float`
they are all the same. -/
structure Double where
  bits : UInt64
deriving DecidableEq, Repr

namespace Double

def ofFloat (x : Float) : Double :=
  ⟨x.toBits⟩

/-- The number that the bits stand for. -/
def toFloat (x : Double) : Float :=
  .ofBits x.bits

end Double

/-- The contents of one cell. -/
abbrev Scalar.Cell : Scalar → Type
  | .long => Int64
  | .double => Double

/-- What callbacks calculate with. A result that is not a number has no sign or payload of its
own. -/
abbrev Scalar.Number : Scalar → Type
  | .long => Int64
  | .double => Float

/-- The cell that holds a number. -/
def Scalar.ofNumber : (s : Scalar) → s.Number → s.Cell
  | .long, x => x
  | .double, x => Double.ofFloat x

/-- The number in a cell. -/
def Scalar.toNumber : (s : Scalar) → s.Cell → s.Number
  | .long, x => x
  | .double, x => Double.toFloat x

/-- The cell that holds a count. -/
def Scalar.ofCount : (s : Scalar) → Nat → s.Cell
  | .long, n => Int64.ofNat n
  | .double, n => Double.ofFloat (Float.ofNat n)

/-- Every cell starts with all its bits clear, which is the zero of its kind. -/
def Scalar.zero : (s : Scalar) → s.Cell
  | .long => (0 : Int64)
  | .double => (⟨0⟩ : Double)

/-- Equality of cells as numbers; for doubles a NaN differs from itself and the two zeros agree. -/
def Scalar.agree : (s : Scalar) → s.Cell → s.Cell → Bool
  | .long, x, y => decide ((x : Int64) = y)
  | .double, x, y => Double.toFloat x == Double.toFloat y

/-- The declared type of a node value: one cell, or a fixed number of cells. -/
inductive ValueType where
  | single (scalar : Scalar)
  | array (scalar : Scalar) (width : Nat)
deriving DecidableEq, Repr

def ValueType.scalar : ValueType → Scalar
  | .single s => s
  | .array s _ => s

/-- The number of cells one node occupies. -/
def ValueType.width : ValueType → Nat
  | .single _ => 1
  | .array _ w => w

def ValueType.describe : ValueType → String
  | .single .long => "Long"
  | .single .double => "Double"
  | .array .long w => s!"LongArray({w})"
  | .array .double w => s!"DoubleArray({w})"

/-- A node value together with its kind. -/
inductive Value where
  | single (scalar : Scalar) (cell : scalar.Cell)
  | array (scalar : Scalar) (cells : List scalar.Cell)

def Value.type : Value → ValueType
  | .single s _ => .single s
  | .array s xs => .array s xs.length

/-- Two lists of cells agree when they are equally long and agree position by position. -/
def Scalar.agreeAll (s : Scalar) : List s.Cell → List s.Cell → Bool
  | [], [] => true
  | x :: xs, y :: ys => s.agree x y && s.agreeAll xs ys
  | _, _ => false

def Value.agree : Value → Value → Bool
  | .single .long x, .single .long y => Scalar.agree .long x y
  | .single .double x, .single .double y => Scalar.agree .double x y
  | .array .long xs, .array .long ys => Scalar.agreeAll .long xs ys
  | .array .double xs, .array .double ys => Scalar.agreeAll .double xs ys
  | _, _ => false

end BulkSync
