import ChainConformance.Client.Command
import ChainConformance.Client.Shell.Evaluation

/-!
# Clients in a console

A console is where clients run one after the other: each finds the files that the ones before it
left, and its output follows theirs. `Console.spawn` starts clients there.
-/

namespace ChainConformance

structure Console where
  tree : FileTree
  output : Bytes
  errors : Bytes

namespace Console

def ofTree (tree : FileTree) : Console := ⟨tree, [], []⟩

def spawn : Spawner Console := fun invocation limit c =>
  match Shell.start ⟨invocation.files, c.tree⟩ limit invocation.program invocation.arguments with
  | .error fault => (.error fault, c)
  | .ok conduct =>
    (.ok conduct.status,
      ⟨conduct.tree, c.output ++ conduct.output, c.errors ++ conduct.errors⟩)

end Console

end ChainConformance
