import ChainConformance.Files.Access

/-!
# File trees

Files and directories in memory. A path is walked step by step from the working directory, and every
step must start at a directory.
-/

namespace ChainConformance

/-- What a path can lead to. -/
inductive FileNode where
  | directory
  | file (contents : Bytes)
  deriving DecidableEq, Repr

/-- The nodes under the working directory by the names that lead to them. -/
structure FileTree where
  nodes : List (List String × FileNode)
  deriving DecidableEq, Repr

namespace FileTree

def empty : FileTree := ⟨[]⟩

/-- The node at a place; the working directory is always there. -/
def get? (t : FileTree) (place : List String) : Option FileNode :=
  if place = [] then some .directory else (t.nodes.find? (·.1 = place)).map (·.2)

/-- The tree with a node at a place. -/
def put (t : FileTree) (place : List String) (node : FileNode) : FileTree :=
  ⟨t.nodes.filter (·.1 ≠ place) ++ [(place, node)]⟩

theorem get?_put_self (t : FileTree) {place : List String} (node : FileNode) (h : place ≠ []) :
    (t.put place node).get? place = some node := by
  simp only [get?, h, if_false, put, List.find?_append]
  have : (t.nodes.filter (·.1 ≠ place)).find? (·.1 = place) = none := by
    simp only [List.find?_eq_none, List.mem_filter]
    rintro x ⟨_, hx⟩
    simpa using hx
  rw [this]
  simp

theorem get?_put_of_ne (t : FileTree) {place other : List String} (node : FileNode)
    (h : other ≠ place) : (t.put place node).get? other = t.get? other := by
  simp only [get?, put, List.find?_append, List.find?_filter]
  by_cases hr : other = []
  · simp [hr]
  · simp only [hr, if_false]
    have same : (fun x : List String × FileNode => decide (x.1 ≠ place) && decide (x.1 = other)) =
        fun x => decide (x.1 = other) := by
      funext x
      by_cases hx : x.1 = other <;> simp [hx, h]
    have last : (List.find? (fun x : List String × FileNode => decide (x.1 = other))
        [(place, node)]) = none := by
      rw [List.find?_eq_none]
      intro x hx
      rw [List.mem_singleton] at hx
      simpa [hx] using fun e => h (Eq.symm e)
    simp only [decide_not] at same ⊢
    simp [same, last]

/-! ## Paths -/

/-- Where a step of a path leads from a place. -/
def next (place : List String) (step : String) : List String :=
  if step = "." then place else if step = ".." then place.dropLast else place ++ [step]

/-- The place that steps lead to from a place, each of them from a directory. -/
def walk (t : FileTree) (place : List String) : List String → Except FileFault (List String)
  | [] => .ok place
  | step :: rest =>
    match t.get? place with
    | none => .error .notFound
    | some (.file _) => .error .notADirectory
    | some .directory => t.walk (next place step) rest

/-- Whether the path can only be that of a directory. -/
def endsInSlash (path : String) : Bool := path.toList.getLast? = some '/'

/-- The place of a path. -/
def locate (t : FileTree) (path : String) : Except FileFault (List String) :=
  if path = "" then .error .notFound else t.walk [] (FilePath.steps path)

/-- The node that a path leads to. -/
def find (t : FileTree) (path : String) : Except FileFault FileNode := do
  match t.get? (← t.locate path) with
  | some (.file contents) =>
    if endsInSlash path then throw .notADirectory else return .file contents
  | some .directory => return .directory
  | none => throw .notFound

/-! ## Operations -/

def exists? (t : FileTree) (path : String) : Bool := (t.find path).toBool

def read (t : FileTree) (path : String) : Except FileFault Bytes := do
  match ← t.find path with
  | .file contents => return contents
  | .directory => throw .isADirectory

def write (t : FileTree) (path : String) (contents : Bytes) : Except FileFault FileTree := do
  let place ← t.locate path
  if endsInSlash path || t.get? place = some .directory then throw .isADirectory
  return t.put place (.file contents)

/-- Makes the directories that names lead to from a place, as far as they are missing. A file in
the way ends this, and what is `made` so far stays; the file counts as the one to be made if it is
the last one or the missing ones begin before it. -/
def makeFrom (t : FileTree) (made : Bool) (place : List String) :
    List String → Except FileFault Unit × FileTree
  | [] => (.ok (), t)
  | name :: rest =>
    match t.get? (next place name) with
    | some .directory => t.makeFrom made (next place name) rest
    | some (.file _) => (.error (if made || rest.isEmpty then .exists else .notADirectory), t)
    | none => (t.put (next place name) .directory).makeFrom true (next place name) rest

/-- The tree with the directories of a path, if all of them can be made. -/
def makeDirectories (t : FileTree) (path : String) : Except FileFault FileTree :=
  let (made, after) := t.makeFrom false [] (FilePath.names path)
  made.map fun _ => after

/-- Runs a change of the tree; a change that fails leaves it as it was. -/
def change (f : FileTree → Except FileFault FileTree) : StateM FileTree (Except FileFault Unit) :=
  fun t =>
    match f t with
    | .ok after => (.ok (), after)
    | .error fault => (.error fault, t)

/-- The operations on a tree that is kept as a state. -/
def access : FileAccess (StateM FileTree) where
  exists? path := return (← get).exists? path
  read path := return (← get).read path
  write path contents := change (·.write path contents)
  makeDirectories path := fun t => t.makeFrom false [] (FilePath.names path)

end FileTree

end ChainConformance
