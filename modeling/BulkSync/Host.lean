import BulkSync.Failure

namespace BulkSync

/-- The content of a file, or why there is none. -/
abbrev Content := Except ReadProblem (List UInt8)

/-- What a tool asks of the system it runs on. A request to write is answered by whether the whole
file was written. -/
structure Host (m : Type → Type) where
  read : String → m Content
  write : String → String → m Bool
  print : String → m Unit
  complain : String → m Unit

/-- The status a process ends with after a failure. -/
def Failure.exitCode : Failure → Nat
  | .fault _ => 101
  | _ => 1

/-- Reports why a tool stopped, and ends with its status. -/
def Host.stop {m : Type → Type} [Monad m] (host : Host m) (failure : Failure) : m Nat := do
  host.complain (failure.message?.getD "arithmetic fault")
  return failure.exitCode

end BulkSync
