import JsonUnpack.Command.Run

/-! A tree of directories and files, as a system of its own. It makes a run a function from what is
there before to what is there after. -/
namespace JsonUnpack.Command

/-- The names that lead from the root to a file or a directory. -/
abbrev Location := List String

/-- Where a run works, and directories that are there whether or not anything is in them. -/
structure Surroundings where
  working : Location := []
  directories : List Location := []

/-- Files by their locations, and the standard input. -/
structure Directory where
  files : List (Location × ByteArray) := []
  input : ByteArray := .empty

namespace Directory

/-- The content of the file at a location. -/
def content? (directory : Directory) (location : Location) : Option ByteArray :=
  (directory.files.find? (·.1 = location)).map (·.2)

/-- Directories that have to be there. All that they are in are there too. -/
def lowest (directory : Directory) (around : Surroundings) : List Location :=
  around.working :: around.directories ++ directory.files.map (·.1.dropLast)

/-- Whether there is a directory at a location. -/
def isDirectory (directory : Directory) (around : Surroundings) (location : Location) : Bool :=
  (directory.lowest around).any location.isPrefixOf

/-- Replaces the file at a location, or adds one. -/
def put (directory : Directory) (location : Location) (content : ByteArray) : Directory :=
  { directory with files := (location, content) :: directory.files.filter (·.1 ≠ location) }

/-- What a path leads to. A vacant location is one where a file could be added. -/
inductive Target
  | file (location : Location)
  | directory
  | vacant (location : Location)
  deriving DecidableEq

/-- Follows names from a location. What is above the root is the root itself. -/
def follow (directory : Directory) (around : Surroundings) (location : Location) :
    List String → Except Reason Target
  | [] =>
    if directory.isDirectory around location then .ok .directory
    else if (directory.content? location).isSome then .ok (.file location)
    else .ok (.vacant location)
  | name :: rest =>
    if directory.isDirectory around location then
      if name = "" ∨ name = "." then directory.follow around location rest
      else if name = ".." then directory.follow around location.dropLast rest
      else directory.follow around (location ++ [name]) rest
    else if (directory.content? location).isSome then .error .notDirectory
    else .error .notFound

/-- The names between the slashes of a path. -/
def names (path : String) : List String := (path.toList.splitOn '/').map .ofList

/-- Where a path starts: at the root if a slash comes first, else where the run works. -/
def origin (around : Surroundings) (path : String) : Location :=
  if path.toList.head? = some '/' then [] else around.working

/-- What a path leads to. The empty path leads nowhere. -/
def target (directory : Directory) (around : Surroundings) (path : String) :
    Except Reason Target :=
  if path = "" then .error .notFound
  else directory.follow around (origin around path) (names path)

/-- A directory opens, but it cannot be read. -/
def read (directory : Directory) (path : String) (around : Surroundings := {}) :
    Except ReadFault ByteArray :=
  match directory.target around path with
  | .error reason => .error (.opening reason)
  | .ok (.vacant _) => .error (.opening .notFound)
  | .ok .directory => .error (.reading .isDirectory)
  | .ok (.file location) =>
    match directory.content? location with
    | some content => .ok content
    | none => .error (.opening .notFound)

/-- A path without the slashes it ends in, unless there is nothing else in it. -/
def withoutEndSlashes (path : String) : String :=
  match (path.toList.reverse.dropWhile (· = '/')).reverse with
  | [] => path
  | bare => .ofList bare

/-- Writes a whole file. A path that ends in a slash asks for a directory, and a directory is not
written to. -/
def write (directory : Directory) (path text : String) (around : Surroundings := {}) :
    Except Reason Directory :=
  let bare := withoutEndSlashes path
  match directory.target around bare with
  | .error reason => .error reason
  | .ok .directory => .error .isDirectory
  | .ok (.file location) | .ok (.vacant location) =>
    if bare = path then .ok (directory.put location text.toUTF8) else .error .isDirectory

/-- The tree as a system to run on. -/
def host (around : Surroundings := {}) : Host (StateM Directory) where
  read path := fun directory => (directory.read path around, directory)
  readInput := fun directory => (.ok directory.input, directory)
  write path text := fun directory =>
    match directory.write path text around with
    | .ok after => (.ok (), after)
    | .error reason => (.error reason, directory)

end Directory

end JsonUnpack.Command
