import ChainConformance.CommandLine.Address
import ChainConformance.Expectation
import ChainConformance.Proofs.NameConstraints.San
import ChainConformance.X509.Template

/-!
# The verdict of a client

What a client that enforces name constraints makes of a leaf, from what it is shown and nothing
else: the host name that it asked for, the common name, the alternative names, and the constraints
of the issuer. RFC 5280 says which names the constraints exclude.
-/

namespace ChainConformance.NameConstraints

open X509

/-- A name with its kind. -/
inductive GeneralName where
  | dns (name : Bytes)
  | ip (address : Bytes)
  deriving DecidableEq, Repr

namespace GeneralName

/-- A dotted quad is an address, and any other text a DNS name. -/
def ofText (s : String) : GeneralName :=
  if Address.isDotted s.toList then
    .ip ((Text.splitOn '.' s.toList).map fun part =>
      UInt8.ofNat ((Text.Numeral.read 256 part).toOption.getD 0))
  else .dns (Bytes.ofString s)

/-- The name that an element of the alternative names is, if it is of one of the two kinds: they
have the numbers 2 and 7 in the context class. -/
def ofElement? (e : Strict.Element) : Option GeneralName :=
  if e.tag = 0x82 then some (.dns e.contents)
  else if e.tag = 0x87 then some (.ip e.contents)
  else none

/-- Whether the tree is one of names of this kind. -/
def comparable : GeneralName → Subtree → Bool
  | .dns _, .domain _ | .ip _, .network _ _ => true
  | _, _ => false

/-- A DNS name lies in a domain if it is the domain or ends in a point and the domain, an address in
a network if it agrees with that under the mask. -/
def liesIn : GeneralName → Subtree → Bool
  | .dns name, .domain domain =>
    name = Bytes.ofString domain || (Bytes.ofString ("." ++ domain)).isSuffixOf name
  | .ip address, .network network mask =>
    address.length = mask.length && List.zipWith (· &&& ·) address mask = network
  | _, _ => false

/-- A name is excluded if it lies in an excluded tree, or in none of the permitted ones although
there are some of its kind. -/
def isExcludedBy (n : GeneralName) (k : Constraints) : Bool :=
  k.excluded.any n.liesIn || k.permitted.any n.comparable && !k.permitted.any n.liesIn

end GeneralName

/-- The names in the value of an extension for alternative names. -/
def names? (extension : Bytes) : Option (List GeneralName) :=
  (sanElements? extension).map (·.filterMap GeneralName.ofElement?)

/-- The verdict on a leaf: the requested name must be one of the alternative names, or else the
common name, and must not be excluded. That the common name alone carries it, or that another
alternative name is excluded, is a soft failure; that only the common name is excluded, a soft
pass. -/
def verdict (hostname : String) (commonName : Option String) (names : List GeneralName)
    (constraints : Option Constraints) : Expectation :=
  let requested := GeneralName.ofText hostname
  let excluded (n : GeneralName) : Bool := constraints.any n.isExcludedBy
  if requested ∉ names ∧ commonName ≠ some hostname then .fail
  else if excluded requested then .fail
  else if requested ∉ names ∨ names.any excluded then .softFail
  else if (commonName.map GeneralName.ofText).any excluded then .softPass
  else .pass

end ChainConformance.NameConstraints
