import BulkSync.Failure
import BulkSync.Partition

namespace BulkSync

structure Config where
  concurrency : Nat
  maxSupersteps : Nat
  partitionThreshold : Nat
  partitioning : Partitioning
deriving DecidableEq, Repr

namespace Config

/-- The settings that hold where nothing else is said, for a number of workers. -/
def standard (concurrency : Nat) : Config :=
  ⟨concurrency, 20, 1024, .range⟩

/-- The three numbers have to be positive; the first that is not is named. -/
def validate (config : Config) : Except Failure Unit :=
  if config.concurrency = 0 then .error (.invalidSetting .concurrency)
  else if config.maxSupersteps = 0 then .error (.invalidSetting .maxSupersteps)
  else if config.partitionThreshold = 0 then .error (.invalidSetting .partitionThreshold)
  else .ok ()

end Config

end BulkSync
