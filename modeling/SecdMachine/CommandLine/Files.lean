import SecdMachine.Text.Words

/-!
# SecdMachine.CommandLine.Files

What the command line needs to know of the file system: what a file holds, and
whether a file can be written.  `Files.ofDirectory` is the file system that
consists of one working directory with given files.
-/

namespace SecdMachine.CommandLine

/-- Why a file cannot be used: what was tried, on what path, and the reason. -/
structure FileError where
  operation : String
  path : String
  reason : String
deriving DecidableEq, Repr

/-- The text of a file error. -/
def FileError.text (e : FileError) : String :=
  e.operation ++ " " ++ e.path ++ ": " ++ e.reason

/-- The reason that there is no file of a name. -/
def FileError.noSuchFile : String := "no such file or directory"

/-- The reason that a path names a directory. -/
def FileError.isADirectory : String := "is a directory"

/-- The reason that a path goes through something that is no directory. -/
def FileError.notADirectory : String := "not a directory"

/-- A view of the file system. -/
structure Files where
  /-- What a file holds. -/
  read : String → Except FileError String
  /-- Why a file cannot be written, if it cannot. -/
  writeError? : String → Option FileError

/-! ## One directory -/

/-- What a path leads to. -/
inductive Place where
  | file (content : String)
  | directory
  /-- Nothing, but in an existing directory. -/
  | vacant
  | missing
  | blocked
deriving DecidableEq, Repr

/-- The names along a path, without empty ones and dots. -/
def pathNames (path : String) : List String :=
  ((Text.splitWhere (· == '/') path.toList).filter fun n => n != [] && n != ['.']).map
    String.ofList

/-- What a path inside the directory leads to, where the files are given by
the names along their paths. -/
def placeOf (files : List (List String × String)) (names : List String) : Place :=
  if names.all (· == "..") then .directory
  else
    match files.lookup names with
    | some content => .file content
    | none =>
      if files.any fun f => names.isPrefixOf f.1 then .directory
      else if files.any fun f => f.1.isPrefixOf names then .blocked
      else if names.length = 1 || files.any fun f => names.dropLast.isPrefixOf f.1 then .vacant
      else .missing

/-- What a path leads to.  The empty path leads nowhere, and so does an
absolute one other than the root. -/
def placeAt (files : List (List String × String)) (path : String) : Place :=
  let names := pathNames path
  match path.toList with
  | [] => .missing
  | '/' :: _ => if names.isEmpty then .directory else .missing
  | _ => placeOf files names

/-- Whether a path asks for a directory by ending in a slash. -/
def asksForDirectory (path : String) : Bool :=
  path.toList.getLast? == some '/'

/-- What a file holds that a path leads to. -/
def readPlace (path : String) : Place → Except FileError String
  | .file content =>
    if asksForDirectory path then .error ⟨"open", path, FileError.notADirectory⟩
    else .ok content
  | .directory => .error ⟨"read", path, FileError.isADirectory⟩
  | .blocked => .error ⟨"open", path, FileError.notADirectory⟩
  | .vacant | .missing => .error ⟨"open", path, FileError.noSuchFile⟩

/-- Why a file cannot be written where a path leads to. -/
def writeErrorAt? (path : String) : Place → Option FileError
  | .file _ =>
    if asksForDirectory path then some ⟨"open", path, FileError.notADirectory⟩ else none
  | .vacant =>
    if asksForDirectory path then some ⟨"open", path, FileError.isADirectory⟩ else none
  | .directory => some ⟨"open", path, FileError.isADirectory⟩
  | .blocked => some ⟨"open", path, FileError.notADirectory⟩
  | .missing => some ⟨"open", path, FileError.noSuchFile⟩

/-- The file system of one working directory, with files given by their paths
and contents. -/
def Files.ofDirectory (files : List (String × String)) : Files :=
  let files := files.map fun f => (pathNames f.1, f.2)
  { read := fun path => readPlace path (placeAt files path)
    writeError? := fun path => writeErrorAt? path (placeAt files path) }

end SecdMachine.CommandLine
