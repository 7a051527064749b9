import BulkSync.Config
import BulkSync.Json
import BulkSync.Text.Count

namespace BulkSync

def Partitioning.name : Partitioning → String
  | .range => "Range"
  | .degree => "Degree"
  | .auto => "Auto"

def Partitioning.ofName? (name : List Char) : Option Partitioning :=
  [Partitioning.range, .degree, .auto].find? fun p => p.name.toList == name

/-- A partitioning is written as its name, or as an object with its name for the only key. -/
def Partitioning.ofJson? : Json → Option Partitioning
  | .string written => do
    let name ← Json.decodeString written
    Partitioning.ofName? name
  | .object [(written, .null)] => do
    let name ← Json.decodeString written
    Partitioning.ofName? name
  | _ => none

/-- A count is written with decimal digits alone. -/
def countOfJson? : Json → Option Nat
  | .number written => readDigits? written
  | _ => none

/-- The settings a text gives; the others keep their standard values. -/
structure GivenSettings where
  concurrency : Option Nat
  maxSupersteps : Option Nat
  partitionThreshold : Option Nat
  partitioning : Option Partitioning
deriving DecidableEq, Repr

namespace GivenSettings

def none : GivenSettings :=
  ⟨.none, .none, .none, .none⟩

def fill (given : GivenSettings) (standard : Config) : Config :=
  ⟨given.concurrency.getD standard.concurrency,
    given.maxSupersteps.getD standard.maxSupersteps,
    given.partitionThreshold.getD standard.partitionThreshold,
    given.partitioning.getD standard.partitioning⟩

/-- A setting may be given once. -/
def once {α : Type} (old : Option α) (new : Option α) : Option (Option α) :=
  match old, new with
  | .none, some x => some (some x)
  | _, _ => .none

/-- Takes in one member of an object. Members with other names say nothing. -/
def member (given : GivenSettings) (m : List Char × Json) : Option GivenSettings := do
  let name ← Json.decodeString m.1
  if name = "concurrency".toList then
    let concurrency ← once given.concurrency (countOfJson? m.2)
    return { given with concurrency }
  else if name = "max_supersteps".toList then
    let maxSupersteps ← once given.maxSupersteps (countOfJson? m.2)
    return { given with maxSupersteps }
  else if name = "partition_threshold".toList then
    let partitionThreshold ← once given.partitionThreshold (countOfJson? m.2)
    return { given with partitionThreshold }
  else if name = "partitioning".toList then
    let partitioning ← once given.partitioning (Partitioning.ofJson? m.2)
    return { given with partitioning }
  else return given

/-- Settings are an object with any of them, or an array of the first few. -/
def ofJson? : Json → Option GivenSettings
  | .object members => members.foldlM member none
  | .array items =>
    match items with
    | [] => some none
    | [a] => do
      let a ← countOfJson? a
      return ⟨a, .none, .none, .none⟩
    | [a, b] => do
      let a ← countOfJson? a
      let b ← countOfJson? b
      return ⟨a, b, .none, .none⟩
    | [a, b, c] => do
      let a ← countOfJson? a
      let b ← countOfJson? b
      let c ← countOfJson? c
      return ⟨a, b, c, .none⟩
    | [a, b, c, d] => do
      let a ← countOfJson? a
      let b ← countOfJson? b
      let c ← countOfJson? c
      let d ← Partitioning.ofJson? d
      return ⟨a, b, c, d⟩
    | _ => .none
  | _ => .none

end GivenSettings

namespace Config

/-- Reads a configuration; settings that are not given keep their standard values. -/
def ofText? (standard : Config) (text : List Char) : Option Config := do
  let json ← Json.parse text
  let given ← GivenSettings.ofJson? json
  return given.fill standard

/-- Writes a configuration as an object of all settings. -/
def toText (config : Config) : List Char :=
  "\x7b\"concurrency\":".toList ++ Nat.toDigits 10 config.concurrency ++
    ",\"max_supersteps\":".toList ++ Nat.toDigits 10 config.maxSupersteps ++
    ",\"partition_threshold\":".toList ++ Nat.toDigits 10 config.partitionThreshold ++
    ",\"partitioning\":\"".toList ++ config.partitioning.name.toList ++ "\"\x7d".toList

end Config

/-- The number of workers that the environment asks for, if it asks for any. -/
def concurrencyOfEnvironment? (setting : Option String) : Option Nat := do
  let text ← setting
  let count ← readCount? text.toList
  if 0 < count then some count else none

end BulkSync
