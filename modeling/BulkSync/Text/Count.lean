import BulkSync.Fault

namespace BulkSync

def digitValue? (c : Char) : Option Nat :=
  if '0' ≤ c ∧ c ≤ '9' then some (c.toNat - '0'.toNat) else none

/-- Appends one decimal digit to a count, refusing numbers that no longer fit. -/
def appendDigit (count : Nat) (c : Char) : Option Nat := do
  let d ← digitValue? c
  let next := count * 10 + d
  if next < countLimit then some next else none

def readDigits? : List Char → Option Nat
  | [] => none
  | cs => cs.foldlM appendDigit 0

/-- Reads a count: an optional plus sign and decimal digits. -/
def readCount? : List Char → Option Nat
  | '+' :: cs => readDigits? cs
  | cs => readDigits? cs

end BulkSync
