import ChainConformance.Encoding.Base32
import ChainConformance.Encoding.Pem
import ChainConformance.Expectation
import ChainConformance.IndexSet
import ChainConformance.TrustGraph.Basic
import ChainConformance.Wire.Field

/-!
# Errors

Every way in which an operation of the library can fail. `Error.kind` sorts the causes by the
subject they belong to, `Error.message` words them.
-/

namespace ChainConformance

/-- What an error is about. -/
inductive ErrorKind where
  | issuance
  | pem
  | der
  | unsupported
  | identifier
  | catalog
  | testCase
  | invariant
  | sanity
  | execution
  | tls
  | io
  | json
  deriving DecidableEq, Repr

/-- The words before the cause. -/
def ErrorKind.heading : ErrorKind → String
  | .issuance => "Certificate generation failed: "
  | .pem => "Invalid PEM format: "
  | .der => "Invalid DER format: "
  | .unsupported => "Unsupported feature: "
  | .identifier => "Invalid test identifier: "
  | .catalog => "Trust graph catalog error: "
  | .testCase => "Invalid test case: "
  | .invariant => "Fixture invariant violated: "
  | .sanity => "Sanity check failed for suite "
  | .execution => "Execution error: "
  | .tls => "TLS error: "
  | .io => "IO error: "
  | .json => "JSON serialization error: "

/-- Why the file system refused an operation. -/
inductive FileFault where
  | notFound
  | exists
  | notADirectory
  | isADirectory
  | other (message : String)
  deriving DecidableEq, Repr

def FileFault.message : FileFault → String
  | .notFound => "No such file or directory (os error 2)"
  | .exists => "File exists (os error 17)"
  | .notADirectory => "Not a directory (os error 20)"
  | .isADirectory => "Is a directory (os error 21)"
  | .other message => message

/-- The string types of names in certificates. -/
inductive StringKind where
  | utf8
  | printable
  | ia5
  | teletex
  | bmp
  | universal
  deriving DecidableEq, Repr

def StringKind.typeName : StringKind → String
  | .utf8 => "UTF8String"
  | .printable => "PrintableString"
  | .ia5 => "IA5String"
  | .teletex => "TeletexString"
  | .bmp => "BmpString"
  | .universal => "UniversalString"

/-- Why a root bundle has no root. -/
inductive BundleFault where
  | noCertificate
  | noPrivateKey
  deriving DecidableEq, Repr

/-- What keeps the DER of a certificate from being used. -/
inductive CertificateFault where
  | atDepth (depth : Nat)
  | undecodable
  /-- DER has no room for what is to be signed. -/
  | partTooLong
  /-- DER has no room for the certificate as a whole. -/
  | tooLong
  | unreadableRoot
  | subjectOid
  | subjectNotText
  deriving DecidableEq, Repr

/-- A part of the extension for alternative names. -/
inductive SanPart where
  | entry
  | extension
  deriving DecidableEq, Repr

inductive Error where
  | invalidString (kind : StringKind) (text : String)
  | unreadableKey
  | unreadableCertificate
  | pem (fault : Pem.Fault)
  | noCertificates
  | bundle (fault : BundleFault)
  | certificate (fault : CertificateFault)
  | unknownFeature (suite : String) (feature : UInt32)
  | featureNotInManifest (feature : UInt32)
  | resigningKey
  | base32 (label : String) (fault : Base32.Fault)
  | wire (label : String) (field : Option String) (fault : Wire.Fault)
  | indexTooLarge (what : String) (index : Nat)
  | graphIndex (index : Nat)
  | nodeIndex (index : Nat) (graph : String)
  | edgeIndex (index : Nat) (graph : String)
  | defectCode (code : Nat)
  | noServerName
  | unknownGraph (name : String)
  | foreignNode (node graph : String)
  | foreignEdge (edge : Edge) (graph : String)
  | unknownEntity (node : String)
  | unknownSuite (name : String) (available : List String)
  | noSuchTest (suite : String) (index count : Nat)
  | sanTag (tag : Nat)
  /-- A name, or all of them together, that DER has no room for. -/
  | sanLength (what : SanPart)
  | brokenWithoutReason (edge : Edge)
  | indexSet (fault : IndexSet.Fault)
  | softBothWays
  | sanityContradicted (suite : String) (expected : Expectation) (actual : Outcome)
  | coverage (results expectations : Nat)
  | noTestSelected
  | emptyCommand
  | notStarted (program : String) (fault : FileFault)
  | timedOut (program duration : String)
  | file (fault : FileFault)
  | json
  /-- An error of a suite or a client that this library does not provide. -/
  | foreign (kind : ErrorKind) (detail : String)
  deriving DecidableEq, Repr

namespace Error

def kind : Error → ErrorKind
  | invalidString .. | unreadableKey | unreadableCertificate => .issuance
  | pem _ | noCertificates | bundle _ => .pem
  | certificate _ | sanLength _ => .der
  | unknownFeature .. | featureNotInManifest _ | resigningKey => .unsupported
  | base32 .. | wire .. | indexTooLarge .. | graphIndex _ | nodeIndex .. | edgeIndex ..
  | defectCode _ | noServerName => .identifier
  | unknownGraph _ | foreignNode .. | foreignEdge .. | unknownEntity _ => .catalog
  | unknownSuite .. | noSuchTest .. | sanTag _ | brokenWithoutReason _ | indexSet _ => .testCase
  | softBothWays => .invariant
  | sanityContradicted .. => .sanity
  | coverage .. | noTestSelected | emptyCommand | notStarted .. | timedOut .. => .execution
  | file _ => .io
  | json => .json
  | foreign kind _ => kind

private def base32Fault : Base32.Fault → String
  | .length offset => "invalid length at " ++ Text.decimal offset
  | .symbol offset => "invalid symbol at " ++ Text.decimal offset
  | .trailingBits offset => "non-zero trailing bits at " ++ Text.decimal offset

private def certificateFault : CertificateFault → String
  | .atDepth depth => "certificate at depth " ++ Text.decimal depth
  | .undecodable => "failed to decode certificate"
  | .partTooLong => "failed to encode TBS certificate"
  | .tooLong => "failed to encode certificate"
  | .unreadableRoot => "failed to parse root certificate"
  | .subjectOid => "root subject OID out of range"
  | .subjectNotText => "root subject attribute is not a string"

private def edgeText (e : Edge) : String := e.source ++ " -> " ++ e.destination

/-- The words after the heading. -/
def detail : Error → String
  | invalidString kind text => "Invalid " ++ kind.typeName ++ ": '" ++ text ++ "'"
  | unreadableKey => "Could not parse key pair"
  | unreadableCertificate => "Could not parse certificate"
  | pem fault => "failed to parse PEM: " ++ fault.message
  | noCertificates => "no certificates found in PEM input"
  | bundle .noCertificate => "no CERTIFICATE block in root bundle"
  | bundle .noPrivateKey => "no PRIVATE KEY block in root bundle"
  | certificate fault => certificateFault fault
  | unknownFeature suite feature => suite ++ " feature " ++ Text.decimal feature.toNat
  | featureNotInManifest feature => "feature " ++ Text.decimal feature.toNat ++ " not in manifest"
  | resigningKey => "SHA-1 re-signing needs a P-256 issuer key"
  | base32 label fault => "invalid base-32 label " ++ Text.quoted label ++ ": " ++ base32Fault fault
  | wire label field fault =>
    "invalid test identifier " ++ Text.quoted label ++ ": failed to decode Protobuf message: " ++
      (match field with
        | some name => "HostnameEncodedTestCase." ++ name ++ ": "
        | none => "") ++ fault.message
  | indexTooLarge what index => what ++ " index " ++ Text.decimal index ++ " does not fit in u32"
  | graphIndex index => "trust graph index " ++ Text.decimal index ++ " out of range"
  | nodeIndex index graph =>
    "node index " ++ Text.decimal index ++ " out of range for trust graph " ++ graph
  | edgeIndex index graph =>
    "edge index " ++ Text.decimal index ++ " out of range for trust graph " ++ graph
  | defectCode code => "unknown invalid reason code " ++ Text.decimal code
  | noServerName => "client sent no server name"
  | unknownGraph name => "unknown trust graph " ++ Text.quoted name
  | foreignNode node graph => "node " ++ Text.quoted node ++ " is not in trust graph " ++ graph
  | foreignEdge edge graph => "edge " ++ edgeText edge ++ " is not in trust graph " ++ graph
  | unknownEntity node => "node " ++ Text.quoted node ++ " is not in the trust graph"
  | unknownSuite name available =>
    "unknown suite " ++ Text.quoted name ++ " (available: " ++ Text.join ", " available ++ ")"
  | noSuchTest suite index count =>
    suite ++ " has no test case " ++ Text.decimal index ++ " (count " ++ Text.decimal count ++ ")"
  | sanTag tag => "SAN tag " ++ Text.decimal tag ++ " does not fit a low-tag-number form"
  | sanLength .entry => "failed to encode SAN entry"
  | sanLength .extension => "failed to encode SAN extension"
  | brokenWithoutReason edge =>
    "edge " ++ edgeText edge ++ " is broken but no invalid reason is set"
  | indexSet fault => fault.message
  | softBothWays => "fixture is both soft-pass and soft-fail"
  | sanityContradicted suite expected actual =>
    suite ++ ": expected " ++ expected.name ++ ", got " ++ actual.word
  | coverage results expectations =>
    "results cover " ++ Text.decimal results ++ " tests but the manifest lists " ++
      Text.decimal expectations
  | noTestSelected => "no test selected"
  | emptyCommand => "empty client command"
  | notStarted program fault => "failed to start " ++ program ++ ": " ++ fault.message
  | timedOut program duration => program ++ " did not finish within " ++ duration
  | file fault => fault.message
  | json => "not a value of the expected form"
  | foreign _ detail => detail

def message (e : Error) : String := e.kind.heading ++ e.detail

end Error

end ChainConformance
