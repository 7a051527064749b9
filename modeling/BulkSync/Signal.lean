namespace BulkSync

/-- A flag by which a run can be asked to stop. Copies of a signal are the same signal. -/
structure Signal where
  id : Nat
deriving DecidableEq, Repr

/-- All signals made so far, and which of them are raised. -/
structure Signals where
  raised : Array Bool

namespace Signals

def none : Signals := ⟨#[]⟩

/-- A new signal, not raised. -/
def create (signals : Signals) : Signal × Signals :=
  (⟨signals.raised.size⟩, ⟨signals.raised.push false⟩)

def raise (signal : Signal) (signals : Signals) : Signals :=
  ⟨signals.raised.setIfInBounds signal.id true⟩

def isRaised (signal : Signal) (signals : Signals) : Bool :=
  signals.raised.getD signal.id false

end Signals

end BulkSync
