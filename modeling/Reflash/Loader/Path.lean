/-
  Reflash.Loader.Path

  File paths, whose names stand between slashes, and the label that a file goes by.
-/

namespace Reflash

namespace Path

/-- The names in a path; empty ones and single dots lead nowhere. -/
def parts (path : String) : List String :=
  (path.splitOn "/").filter fun part => part != "" && part != "."

/-- The last name, unless it leads upwards. -/
def fileName? (path : String) : Option String :=
  (parts path).getLast?.filter (· != "..")

/-- A name below a directory. -/
def join (directory name : String) : String :=
  if directory.isEmpty || directory.endsWith "/" then directory ++ name
  else directory ++ "/" ++ name

/-- A name without its extension. A dot in front belongs to the name. -/
def stem (name : String) : String :=
  match (name.splitOn ".").reverse with
  | _ :: rest@(_ :: _) =>
    -- The only dot is the one in front.
    if rest == [""] then name else ".".intercalate rest.reverse
  | _ => name

/-- The last name of a path without its extension; empty if there is none. -/
def label (path : String) : String :=
  match fileName? path with
  | some name => stem name
  | none => ""

end Path

end Reflash
