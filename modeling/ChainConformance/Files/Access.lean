import ChainConformance.Error

/-!
# Access to files

The operations on files that commands need, in any monad. `FileTree` has them on a tree in memory;
a program has them on the disk.
-/

namespace ChainConformance

/-- Operations on files, which are named by their paths. -/
structure FileAccess (m : Type → Type) where
  exists? : String → m Bool
  read : String → m (Except FileFault Bytes)
  /-- Writes a whole file, whether it is there or not. -/
  write : String → Bytes → m (Except FileFault Unit)
  /-- Makes a directory and those above it, as far as they are missing. -/
  makeDirectories : String → m (Except FileFault Unit)

namespace FilePath

/-- The steps of a path stand between its slashes. -/
def steps (path : String) : List String :=
  ((Text.splitOn '/' path.toList).map String.ofList).filter (· ≠ "")

/-- The steps that are names; a single point leads nowhere. -/
def names (path : String) : List String := (steps path).filter (· ≠ ".")

/-- The path without its last name; none for a path without names. -/
def parent? (path : String) : Option String :=
  match (names path).reverse with
  | [] => none
  | _ :: before =>
    some ((if path.toList.head? = some '/' then "/" else "") ++ Text.join "/" before.reverse)

/-- A path inside a directory. -/
def join (directory name : String) : String :=
  if directory = "" ∨ directory.toList.getLast? = some '/' then directory ++ name
  else directory ++ "/" ++ name

/-- The last name of a path, unless it leads upwards. -/
def fileName? (path : String) : Option String :=
  match (names path).getLast? with
  | some ".." => none
  | n => n

/-- The last name of a path up to its last point; a point at the start does not count. -/
def stem? (path : String) : Option String :=
  (fileName? path).map fun name =>
    let after := name.toList.reverse.takeWhile (· ≠ '.')
    let before := (name.toList.reverse.dropWhile (· ≠ '.')).drop 1
    if after.length = name.length ∨ before = [] then name else String.ofList before.reverse

end FilePath

end ChainConformance
