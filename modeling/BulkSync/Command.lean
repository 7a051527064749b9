import BulkSync.ComponentTool
import BulkSync.PathTool
import BulkSync.RankTool

namespace BulkSync

inductive Tool where
  | rank
  | paths
  | components
deriving DecidableEq, Repr

def Tool.ofName? : String → Option Tool
  | "page-rank" => some .rank
  | "sssp" => some .paths
  | "wcc" => some .components
  | _ => none

/-- The status a process ends with when its arguments cannot be read. -/
def usageExitCode : Nat := 2

/-- Says how the tools are called. -/
def Host.usage {m : Type → Type} [Monad m] (host : Host m) : m Nat := do
  host.complain "usage: page-rank|sssp|wcc EDGES [OPTIONS]"
  return usageExitCode

/-- Runs a tool with its arguments, and answers the status that the process ends with. -/
def Tool.run {m : Type → Type} [Monad m] (tool : Tool) (host : Host m) (concurrency : Nat)
    (arguments : List String) : m Nat :=
  match tool with
  | .rank =>
    match RankOptions.read? arguments with
    | some options => options.run host concurrency
    | none => host.usage
  | .paths =>
    match PathOptions.read? arguments with
    | some options => options.run host concurrency
    | none => host.usage
  | .components =>
    match ComponentOptions.read? arguments with
    | some options => options.run host concurrency
    | none => host.usage

/-- Runs the tool that the first argument names. -/
def runCommand {m : Type → Type} [Monad m] (host : Host m) (concurrency : Nat) :
    List String → m Nat
  | [] => host.usage
  | name :: arguments =>
    match Tool.ofName? name with
    | some tool => tool.run host concurrency arguments
    | none => host.usage

end BulkSync
