import BulkSync.Command
import BulkSync.ConfigText

namespace BulkSync

/-- The environment variable that sets the number of workers. -/
def workersVariable : String := "PREGEL_MAX_THREADS"

/-- The number of workers where neither the command line nor the environment names one. -/
def defaultConcurrency : IO Nat := do
  let setting ← IO.getEnv workersVariable
  return (concurrencyOfEnvironment? setting).getD 1

def readContent (path : String) : IO Content := do
  try
    let bytes ← IO.FS.readBinFile path
    return .ok bytes.toList
  catch e =>
    IO.eprintln e.toString
    return .error .notFound

def writeContent (path text : String) : IO Bool := do
  try
    IO.FS.writeFile path text
    return true
  catch e =>
    IO.eprintln e.toString
    return false

/-- The system that the process runs on. -/
def systemHost : Host IO where
  read := readContent
  write := writeContent
  print := IO.println
  complain := IO.eprintln

end BulkSync

def main (arguments : List String) : IO UInt32 := do
  let code ← BulkSync.runCommand BulkSync.systemHost (← BulkSync.defaultConcurrency) arguments
  return UInt32.ofNat code
