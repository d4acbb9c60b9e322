/-
  Reflash.Loader.Files

  The files that a program can reach from where it is started. A path is followed
  name by name: each step leads on from a directory, an empty name or a dot stays,
  two dots lead upwards, and above the root there is only the root. Of what lies
  outside the start only that is known which every system has.
-/
import Reflash.Bytes.LittleEndian
import Reflash.Text.Failure

namespace Reflash

/-! ## Errors -/

/-- Why a file cannot be read. -/
inductive FileError where
  | notFound
  | notADirectory
  | isADirectory
  | nameTooLong
  /-- A path cannot hold the zero character. -/
  | zeroCharacter
  deriving DecidableEq, Inhabited

namespace FileError

def failure : FileError → Failure
  | notFound => .system 2 .notFound "No such file or directory"
  | notADirectory => .system 20 .notADirectory "Not a directory"
  | isADirectory => .system 21 .isADirectory "Is a directory"
  | nameTooLong => .system 36 .invalidFilename "File name too long"
  | zeroCharacter => .fixed .invalidInput "file name contained an unexpected NUL byte"

def message (error : FileError) : String :=
  error.failure.message

end FileError

/-! ## Places -/

/-- Where names lead on from. -/
inductive Origin where
  /-- So many directories above the start. -/
  | above (levels : Nat)
  | root
  deriving DecidableEq, Inhabited

/-- A place among the files, whether or not there is something. -/
structure Place where
  origin : Origin := .above 0
  /-- The names that lead to it, the last one first. -/
  names : List String := []
  deriving DecidableEq, Inhabited

namespace Place

/-- The place above. -/
def up (place : Place) : Place :=
  match place.names, place.origin with
  | _ :: names, _ => { place with names }
  | [], .above levels => { origin := .above (levels + 1) }
  | [], .root => place

/-- The place that a name leads to. -/
def step (place : Place) (name : String) : Place :=
  if name = "" || name = "." then place
  else if name = ".." then place.up
  else { place with names := name :: place.names }

/-- The places that a path passes through after its beginning. -/
def through (place : Place) : List String → List Place
  | [] => []
  | name :: names => place.step name :: through (place.step name) names

/-- Where a path begins. -/
def beginning (path : String) : Place where
  origin := if path.startsWith "/" then .root else .above 0

/-- The places on a path, the last one where it leads to. -/
def ofPath (path : String) : List Place :=
  (beginning path).through (path.splitOn "/")

end Place

/-! ## Files -/

/-- What can stand at a place. -/
inductive Entry where
  | file (bytes : Bytes)
  | directory
  deriving DecidableEq, Inhabited

/-- The files and directories there are; of two at one place the first one counts. -/
structure Files where
  entries : List (Place × Entry) := []
  deriving Inhabited

namespace Files

/-- A path of so many bytes is too long. -/
def pathLimit : Nat := 4096

/-- A name of more bytes is too long. -/
def nameLimit : Nat := 255

/-- What stands at a place. The places that names lead on from are directories. -/
def find? (files : Files) (place : Place) : Option Entry :=
  if place.names.isEmpty then some .directory else files.entries.lookup place

/-- Makes a directory and those on the way to it. What is there stays. -/
def makeDirectory (files : Files) (path : String) : Files where
  entries := files.entries ++ (Place.ofPath path).map fun place => (place, .directory)

/-- Adds a file and the directories on the way to it. -/
def add (files : Files) (path : String) (bytes : Bytes) : Files where
  entries := files.entries ++ match (Place.ofPath path).reverse with
    | [] => []
    | place :: way => (place, .file bytes) :: way.map fun place => (place, .directory)

/-- Directories below the root of every system. -/
def commonDirectories : List String :=
  ["/bin", "/boot", "/dev", "/etc", "/home", "/lib", "/media", "/mnt", "/opt", "/proc", "/root",
    "/run", "/sbin", "/srv", "/sys", "/tmp", "/usr", "/var"]

/-- What there is when nothing has been put at the start. -/
def bare : Files :=
  (commonDirectories.foldl makeDirectory {}).add "/dev/null" []

/-- The files with the given paths and contents. -/
def ofList (entries : List (String × Bytes)) : Files :=
  entries.foldl (fun files (path, bytes) => files.add path bytes) bare

/-- Follows a name. It is looked up in a directory only, and only there its length matters. -/
def follow (files : Files) (place : Place) (name : String) : Except FileError Place :=
  match files.find? place with
  | none => .error .notFound
  | some (.file _) => .error .notADirectory
  | some .directory =>
    if nameLimit < name.utf8ByteSize then .error .nameTooLong else .ok (place.step name)

/-- The place where a path leads. There need not be anything, but there is the way. -/
def resolve (files : Files) (path : String) : Except FileError Place :=
  if path.toList.contains '\x00' then .error .zeroCharacter
  else if path.isEmpty then .error .notFound
  else if pathLimit ≤ path.utf8ByteSize then .error .nameTooLong
  else (path.splitOn "/").foldlM files.follow (Place.beginning path)

/-- Reads a file. -/
def read (files : Files) (path : String) : Except FileError Bytes := do
  match files.find? (← files.resolve path) with
  | none => .error .notFound
  | some .directory => .error .isADirectory
  | some (.file bytes) => .ok bytes

/-- Whether a file can be written where a path leads. -/
def checkWritable (files : Files) (path : String) : Except FileError Unit := do
  match files.find? (← files.resolve path) with
  | some .directory => .error .isADirectory
  | _ => .ok ()

end Files

end Reflash
