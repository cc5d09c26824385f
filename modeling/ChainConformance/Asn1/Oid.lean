import ChainConformance.Asn1.Writer
import ChainConformance.Text.Numeral
import ChainConformance.Text.Pieces

/-!
# Object identifiers in texts

The contents of an object identifier are shown as numbers separated by points. The first byte
stands for two numbers, its quotient and its remainder by 40.
-/

namespace ChainConformance.Oid

/-- The numbers of seven-bit groups, each closed by a byte without the high bit or by the end. -/
def arcsFrom (value : Nat) (isOpen : Bool) : Bytes → List Nat
  | [] => if isOpen then [value] else []
  | x :: rest =>
    let value := value * 128 + x.toNat % 128
    if x < 128 then value :: arcsFrom 0 false rest else arcsFrom value true rest

/-- The numbers of the contents of an object identifier. -/
def arcs : Bytes → List Nat
  | [] => []
  | [0] => [0]
  | x :: rest => x.toNat / 40 :: x.toNat % 40 :: arcsFrom 0 false rest

/-- The dotted text of the contents. -/
def render (contents : Bytes) : String := Text.join "." ((arcs contents).map Text.decimal)

/-- The contents of an object identifier given by its numbers. -/
def ofArcs (arcs : List Nat) : Bytes := Der.oidContents arcs

def commonName : Bytes := ofArcs [2, 5, 4, 3]
def surname : Bytes := ofArcs [2, 5, 4, 4]
def serialNumber : Bytes := ofArcs [2, 5, 4, 5]
def country : Bytes := ofArcs [2, 5, 4, 6]
def locality : Bytes := ofArcs [2, 5, 4, 7]
def state : Bytes := ofArcs [2, 5, 4, 8]
def streetAddress : Bytes := ofArcs [2, 5, 4, 9]
def organization : Bytes := ofArcs [2, 5, 4, 10]
def organizationalUnit : Bytes := ofArcs [2, 5, 4, 11]
def title : Bytes := ofArcs [2, 5, 4, 12]
def postalCode : Bytes := ofArcs [2, 5, 4, 17]
def givenName : Bytes := ofArcs [2, 5, 4, 42]
def emailAddress : Bytes := ofArcs [1, 2, 840, 113549, 1, 9, 1]
def domainComponent : Bytes := ofArcs [0, 9, 2342, 19200300, 100, 1, 25]
def userId : Bytes := ofArcs [0, 9, 2342, 19200300, 100, 1, 1]

def subjectKeyId : Bytes := ofArcs [2, 5, 29, 14]
def keyUsage : Bytes := ofArcs [2, 5, 29, 15]
def subjectAltName : Bytes := ofArcs [2, 5, 29, 17]
def basicConstraints : Bytes := ofArcs [2, 5, 29, 19]
def nameConstraints : Bytes := ofArcs [2, 5, 29, 30]
def authorityKeyId : Bytes := ofArcs [2, 5, 29, 35]
def extendedKeyUsage : Bytes := ofArcs [2, 5, 29, 37]
def serverAuth : Bytes := ofArcs [1, 3, 6, 1, 5, 5, 7, 3, 1]
def emailProtection : Bytes := ofArcs [1, 3, 6, 1, 5, 5, 7, 3, 4]

def ecPublicKey : Bytes := ofArcs [1, 2, 840, 10045, 2, 1]
def p256 : Bytes := ofArcs [1, 2, 840, 10045, 3, 1, 7]
def p384 : Bytes := ofArcs [1, 3, 132, 0, 34]
def rsaEncryption : Bytes := ofArcs [1, 2, 840, 113549, 1, 1, 1]
def ed25519 : Bytes := ofArcs [1, 3, 101, 112]
def ecdsaWithSha1 : Bytes := ofArcs [1, 2, 840, 10045, 4, 1]
def ecdsaWithSha256 : Bytes := ofArcs [1, 2, 840, 10045, 4, 3, 2]
def ecdsaWithSha384 : Bytes := ofArcs [1, 2, 840, 10045, 4, 3, 3]
def sha256 : Bytes := ofArcs [2, 16, 840, 1, 101, 3, 4, 2, 1]
def rsaWithSha256 : Bytes := ofArcs [1, 2, 840, 113549, 1, 1, 11]

end ChainConformance.Oid
