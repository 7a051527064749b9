import BulkSync.Host

namespace BulkSync

/-- The most bytes of a file name. -/
def longestName : Nat := 255

/-- The most bytes of a path. -/
def longestPath : Nat := 4095

/-- Where a path leads that can be the path of a file: to a name in the folder itself, or out to
one of the folders above it. -/
inductive FilePlace where
  | inside (name : String)
  | above
deriving DecidableEq, Repr

/-- Follows the steps of a path. The folder holds files only, so a name has to be the last step:
what goes on after a name, if only by a slash or a dot, leads nowhere. -/
def FilePlace.ofSteps? (start : String → FilePlace) : List String → Option FilePlace
  | [] => none
  | [name] =>
    if name ∈ ["", ".", ".."] ∨ longestName < name.utf8ByteSize then none else some (start name)
  | step :: next :: rest =>
    if step ∈ ["", "."] then ofSteps? start (next :: rest)
    else if step = ".." then ofSteps? (fun _ => .above) (next :: rest)
    else none

/-- Where a relative path leads. -/
def FilePlace.ofPath? (path : String) : Option FilePlace :=
  if path.startsWith "/" ∨ longestPath < path.utf8ByteSize then none
  else ofSteps? .inside (path.splitOn "/")

/-- A folder with the files that it was given, those that were written since, and the lines that
were printed. -/
structure Folder where
  given : List (String × List UInt8)
  written : List (String × String)
  printed : List String

namespace Folder

/-- A folder in which nothing has happened yet. -/
def ofFiles (files : List (String × List UInt8)) : Folder := ⟨files, [], []⟩

/-- A file that was written hides the given one of its name. -/
def find? (folder : Folder) (name : String) : Option (List UInt8) :=
  match folder.written.lookup name with
  | some text => some text.toUTF8.toList
  | none => folder.given.lookup name

/-- The null device and the standard input are empty. -/
def read (folder : Folder) : String → Content
  | "/dev/null" | "/dev/stdin" => .ok []
  | path =>
    match FilePlace.ofPath? path with
    | some (.inside name) =>
      match folder.find? name with
      | some bytes => .ok bytes
      | none => .error .notFound
    | _ => .error .notFound

/-- The lines of a text whose last line is ended too. -/
def linesOf (text : String) : List String :=
  (text.splitOn "\n").dropLast

/-- A text written to the standard output is printed; one written to another stream, or above the
folder, leaves the folder as it is. -/
def write (folder : Folder) (path text : String) : Bool × Folder :=
  match path with
  | "/dev/null" | "/dev/stderr" => (true, folder)
  | "/dev/stdout" => (true, { folder with printed := folder.printed ++ linesOf text })
  | path =>
    match FilePlace.ofPath? path with
    | some (.inside name) => (true, { folder with written := (name, text) :: folder.written })
    | some .above => (true, folder)
    | none => (false, folder)

def print (folder : Folder) (line : String) : Folder :=
  { folder with printed := folder.printed ++ [line] }

/-- A host that has a folder and no more. -/
def host : Host (StateM Folder) where
  read path := return (← get).read path
  write path text := modifyGet fun folder => folder.write path text
  print line := modify fun folder => folder.print line
  complain _ := return ()

end Folder

end BulkSync
