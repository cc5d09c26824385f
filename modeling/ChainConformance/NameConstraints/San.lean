import ChainConformance.Asn1.Strict
import ChainConformance.Asn1.Writer
import ChainConformance.NameConstraints.Fixture

/-!
# Subject alternative names from raw entries

Each entry becomes a primitive element of the context class with the entry's tag and contents, so
any tag can carry any contents. Tags above 30 do not fit into one octet, and neither an entry's
contents nor the whole extension may reach the length limit.
-/

namespace ChainConformance.NameConstraints

/-- The tag of DNS names. -/
def dnsTag : UInt8 := 2

/-- The tag of IP addresses. -/
def ipTag : UInt8 := 7

def ExtraName.encode (e : ExtraName) : Except Error Bytes :=
  if 30 < e.tag then .error (.sanTag e.tag.toNat)
  else if Strict.lengthLimit ≤ e.value.length then .error (.sanLength .entry)
  else .ok (Der.tagged e.tag e.value)

/-- The extension's value: a sequence of the entries in order. -/
def encodeSan (entries : List ExtraName) : Except Error Bytes := do
  let extension := Der.sequence (← entries.mapM ExtraName.encode)
  if Strict.lengthLimit ≤ extension.length then throw (.sanLength .extension)
  return extension

/-- The entries of a leaf certificate. -/
def Fixture.sanEntries (f : Fixture) : List ExtraName :=
  (match f.dnsSan with
    | .absent => []
    | .valid => [⟨dnsTag, Bytes.ofString validDnsName⟩]
    | .invalid => [⟨dnsTag, Bytes.ofString invalidDnsName⟩]) ++
  (match f.ipSan with
    | .absent => []
    | .valid => [⟨ipTag, validIp⟩]
    | .invalid => [⟨ipTag, invalidIp⟩]) ++ f.extra.toList

end ChainConformance.NameConstraints
