import ChainConformance.Encoding.Base64
import ChainConformance.Encoding.Bits
import ChainConformance.Text.Blank
import ChainConformance.Text.Pieces

/-!
# PEM

A block is a label and a byte string, written as base-64 lines between a `BEGIN` and an `END` line.
`Pem.render` writes one block; `Pem.read` finds every block in a text, skips what stands between
them and does not compare the label of the `END` line.
-/

namespace ChainConformance.Pem

/-- A label with the bytes that stand under it. -/
structure Block where
  label : String
  contents : Bytes
  deriving DecidableEq, Repr

/-- Why a text is no sequence of blocks. -/
inductive Fault where
  | invalidHeader
  | incomplete
  | invalidBase64
  | invalidUtf8
  deriving DecidableEq, Repr

def Fault.message : Fault → String
  | .invalidHeader => "invalid header"
  | .incomplete => "incomplete PEM"
  | .invalidBase64 => "base64 decode error"
  | .invalidUtf8 => "IO error: stream did not contain valid UTF-8"

/-! ## Writing -/

/-- The base-64 text in lines of 64 symbols. -/
def wrap (b : Bytes) : List Char := Text.intercalate ['\n'] (Bits.groups 63 (Base64.encode b))

def render (label : String) (b : Bytes) : String :=
  "-----BEGIN " ++ label ++ "-----\n" ++ String.ofList (wrap b) ++ "\n-----END " ++ label ++
    "-----\n"

/-! ## Reading -/

def dashes : List Char := ['-', '-', '-', '-', '-']

/-- Whether `what` stands somewhere in the text. -/
def occursIn (what : List Char) : List Char → Bool
  | [] => what.isEmpty
  | c :: rest => what.isPrefixOf (c :: rest) || occursIn what rest

/-- The label of a line that starts a block, given what follows its `BEGIN`: the text up to the
first dash, provided that five dashes stand somewhere. -/
def headerLabel? (rest : List Char) : Option String :=
  if occursIn dashes rest then some (String.ofList (rest.takeWhile (· ≠ '-'))) else none

/-- The lines of a byte string, without their line feeds. -/
def lines : Bytes → List Bytes
  | [] => [[]]
  | x :: rest =>
    if x = 10 then [] :: lines rest
    else match lines rest with
      | [] => [[x]]
      | line :: others => (x :: line) :: others

/-- The blocks of the lines; `pending` is the label and the text of a block that is still open. -/
def blocksOfLines (pending : Option (String × List Char)) : List Bytes → Except Fault (List Block)
  | [] => if pending.isSome then .error .incomplete else .ok []
  | line :: others =>
    match Bytes.text? line with
    | none => .error .invalidUtf8
    | some text =>
      match pending with
      | none =>
        match Text.afterPrefix? "-----BEGIN ".toList text.toList with
        | none => blocksOfLines none others
        | some rest =>
          match headerLabel? rest with
          | none => .error .invalidHeader
          | some label => blocksOfLines (some (label, [])) others
      | some (label, body) =>
        if "-----END ".toList.isPrefixOf text.toList then
          match Base64.decode? body with
          | none => .error .invalidBase64
          | some contents => (blocksOfLines none others).map (⟨label, contents⟩ :: ·)
        else blocksOfLines (some (label, body ++ Text.trimEnd text.toList)) others

/-- The blocks of a text, in order. -/
def read (input : Bytes) : Except Fault (List Block) := blocksOfLines none (lines input)

end ChainConformance.Pem
