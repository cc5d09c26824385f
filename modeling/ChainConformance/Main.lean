import ChainConformance.CommandLine.Execution
import ChainConformance.X509.Seeded
import Std.Time.DateTime.Timestamp

/-!
# The program

Carries out the request of the command line on the disk, with random draws and the time of day.
-/

namespace ChainConformance

/-- The number by which the system names an error. -/
def systemCode : IO.Error → UInt32
  | .alreadyExists _ code _ | .inappropriateType _ code _ | .noFileOrDirectory _ code _ => code
  | .otherError code _ | .unsupportedOperation code _ | .illegalOperation code _ => code
  | .permissionDenied _ code _ | .resourceExhausted _ code _ | .noSuchThing _ code _ => code
  | _ => 0

def FileFault.ofSystem (e : IO.Error) : FileFault :=
  match systemCode e with
  | 2 => .notFound
  | 17 => .exists
  | 20 => .notADirectory
  | 21 => .isADirectory
  | _ => .other (toString e)

/-- Runs an action on the disk. -/
def onDisk {α : Type} (action : IO α) : IO (Except FileFault α) := do
  try
    return .ok (← action)
  catch e =>
    return .error (.ofSystem e)

/-- The operations on the files of the disk. -/
def diskAccess : FileAccess IO where
  exists? path := do
    match ← onDisk (do let _ ← IO.FS.Handle.mk path .read) with
    | .error .notFound | .error .notADirectory => return false
    | _ => return true
  read path := onDisk do return (← IO.FS.readBinFile path).data.toList
  write path contents := onDisk (IO.FS.writeBinFile path ⟨contents.toArray⟩)
  makeDirectories path := if path = "" then return .ok () else onDisk (IO.FS.createDirAll path)

/-- Puts the files of a tree on the disk. -/
def keepOnDisk (tree : FileTree) : IO Unit :=
  tree.nodes.forM fun n => do
    let path := Text.join "/" n.1
    match n.2 with
    | .directory => IO.FS.createDirAll path
    | .file contents => IO.FS.writeBinFile path ⟨contents.toArray⟩

/-- The surroundings of the program, with draws from a seed. -/
def diskEnvironment (seed : Bytes) (now : Int) : CommandLine.Environment IO where
  files := diskAccess
  sign := KeyPair.sign
  rootDraws := .seeded (X509.Draws.testSeed seed "root" 0) now
  draws suite index := .seeded (X509.Draws.testSeed seed suite index) now
  workingFiles := return .empty
  keep := keepOnDisk
  handedRoot := "/tmp/certsuite-root-" ++ Bytes.hex (seed.take 3) ++ ".pem"
  handedChain := "/tmp/certsuite-chain-" ++ Bytes.hex (seed.take 3) ++ ".pem"
  servedPort := 8443

end ChainConformance

def main (arguments : List String) : IO UInt32 := do
  let seed := (← IO.getRandomBytes 32).data.toList
  let now := (← Std.Time.Timestamp.now).toSecondsSinceUnixEpoch.val
  let environment := ChainConformance.diskEnvironment seed now
  let outcome ← ChainConformance.CommandLine.execute environment arguments
  IO.print outcome.output
  IO.eprint outcome.errors
  return UInt32.ofNat outcome.code
