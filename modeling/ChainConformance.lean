import ChainConformance.Asn1.Algorithm
import ChainConformance.Asn1.Oid
import ChainConformance.Asn1.Reader
import ChainConformance.Asn1.Strict
import ChainConformance.Asn1.Time
import ChainConformance.Asn1.Writer
import ChainConformance.Bytes
import ChainConformance.Client.Command
import ChainConformance.Client.Duration
import ChainConformance.Client.Shell.Command
import ChainConformance.Client.Shell.Condition
import ChainConformance.Client.Shell.Console
import ChainConformance.Client.Shell.Evaluation
import ChainConformance.Client.Shell.Expansion
import ChainConformance.Client.Shell.Filter
import ChainConformance.Client.Shell.Pattern
import ChainConformance.Client.Shell.Printing
import ChainConformance.Client.Shell.Reader
import ChainConformance.Client.Shell.Redirection
import ChainConformance.Client.Shell.Script
import ChainConformance.Client.Shell.Search
import ChainConformance.Client.Shell.Session
import ChainConformance.Client.Shell.Surroundings
import ChainConformance.Client.Shell.Utility
import ChainConformance.Collection
import ChainConformance.CommandLine.Address
import ChainConformance.CommandLine.Environment
import ChainConformance.CommandLine.Execution
import ChainConformance.CommandLine.Failure
import ChainConformance.CommandLine.Grammar
import ChainConformance.CommandLine.Request
import ChainConformance.CommandLine.Score
import ChainConformance.CommandLine.ShownTest
import ChainConformance.CommandLine.Value
import ChainConformance.Crypto.Curve
import ChainConformance.Crypto.Ecdsa
import ChainConformance.Crypto.Ed25519
import ChainConformance.Crypto.KeyPair
import ChainConformance.Crypto.Modular
import ChainConformance.Crypto.Rsa
import ChainConformance.Crypto.Sha1
import ChainConformance.Crypto.Sha256
import ChainConformance.Crypto.Sha512
import ChainConformance.Encoding.Base32
import ChainConformance.Encoding.Base64
import ChainConformance.Encoding.Bits
import ChainConformance.Encoding.Pem
import ChainConformance.Error
import ChainConformance.Expectation
import ChainConformance.Export
import ChainConformance.Files.Access
import ChainConformance.Files.Tree
import ChainConformance.IndexSet
import ChainConformance.Json.Basic
import ChainConformance.Json.Decode
import ChainConformance.Json.Printer
import ChainConformance.Json.Reader
import ChainConformance.Json.Sorted
import ChainConformance.Main
import ChainConformance.NameConstraints.Fixture
import ChainConformance.NameConstraints.Oracle
import ChainConformance.NameConstraints.San
import ChainConformance.NameConstraints.Suite
import ChainConformance.NameConstraints.Synthesis
import ChainConformance.PathBuilding.Identifier
import ChainConformance.PathBuilding.Label
import ChainConformance.PathBuilding.Scenario
import ChainConformance.PathBuilding.Suite
import ChainConformance.PathBuilding.Synthesis
import ChainConformance.Proofs.Asn1.Deciding
import ChainConformance.Proofs.Asn1.Form
import ChainConformance.Proofs.Asn1.Oid
import ChainConformance.Proofs.Asn1.Reader
import ChainConformance.Proofs.Asn1.Rereading
import ChainConformance.Proofs.Asn1.Strict
import ChainConformance.Proofs.Asn1.Time
import ChainConformance.Proofs.Asn1.Writer
import ChainConformance.Proofs.Client.Command
import ChainConformance.Proofs.Collection
import ChainConformance.Proofs.CommandLine.Job
import ChainConformance.Proofs.CommandLine.Score
import ChainConformance.Proofs.Crypto.Ecdsa
import ChainConformance.Proofs.Crypto.KeyPair
import ChainConformance.Proofs.Encoding.Base32
import ChainConformance.Proofs.Encoding.Base64
import ChainConformance.Proofs.Encoding.Bits
import ChainConformance.Proofs.Encoding.Pem
import ChainConformance.Proofs.Export
import ChainConformance.Proofs.Files.Directories
import ChainConformance.Proofs.Files.Path
import ChainConformance.Proofs.Files.Tree
import ChainConformance.Proofs.IndexSet
import ChainConformance.Proofs.Json.Decode
import ChainConformance.Proofs.Json.RoundTrip
import ChainConformance.Proofs.NameConstraints.Extension
import ChainConformance.Proofs.NameConstraints.Oracle
import ChainConformance.Proofs.NameConstraints.San
import ChainConformance.Proofs.NameConstraints.Verdict
import ChainConformance.Proofs.Outcome
import ChainConformance.Proofs.PathBuilding.Brevity
import ChainConformance.Proofs.PathBuilding.Defects
import ChainConformance.Proofs.PathBuilding.Growth
import ChainConformance.Proofs.PathBuilding.Identifier
import ChainConformance.Proofs.PathBuilding.Label
import ChainConformance.Proofs.PathBuilding.Layout
import ChainConformance.Proofs.PathBuilding.Leaf
import ChainConformance.Proofs.PathBuilding.Length
import ChainConformance.Proofs.PathBuilding.Linking
import ChainConformance.Proofs.PathBuilding.Locality
import ChainConformance.Proofs.PathBuilding.Message
import ChainConformance.Proofs.PathBuilding.NormalForm
import ChainConformance.Proofs.PathBuilding.Oracle
import ChainConformance.Proofs.PathBuilding.Refusal
import ChainConformance.Proofs.PathBuilding.RootName
import ChainConformance.Proofs.PathBuilding.RoundTrip
import ChainConformance.Proofs.PathBuilding.Suite
import ChainConformance.Proofs.PathBuilding.Synthesis
import ChainConformance.Proofs.PathBuilding.Verdict
import ChainConformance.Proofs.Root
import ChainConformance.Proofs.Root.Bundle
import ChainConformance.Proofs.Root.Generated
import ChainConformance.Proofs.Root.Load
import ChainConformance.Proofs.Run.Course
import ChainConformance.Proofs.Run.Events
import ChainConformance.Proofs.Run.Gating
import ChainConformance.Proofs.Run.Phases
import ChainConformance.Proofs.Run.Results
import ChainConformance.Proofs.Run.Scoring
import ChainConformance.Proofs.Run.Served
import ChainConformance.Proofs.Run.Simulation
import ChainConformance.Proofs.Run.Suites
import ChainConformance.Proofs.Run.Summary
import ChainConformance.Proofs.Run.Transcript
import ChainConformance.Proofs.Server.EncodedName
import ChainConformance.Proofs.Server.Event
import ChainConformance.Proofs.Server.Interleaving
import ChainConformance.Proofs.Server.Lookup
import ChainConformance.Proofs.Server.Selection
import ChainConformance.Proofs.SortedMap
import ChainConformance.Proofs.Suite.Manifest
import ChainConformance.Proofs.Text.ByteOrder
import ChainConformance.Proofs.Text.Numeral
import ChainConformance.Proofs.Text.Pieces
import ChainConformance.Proofs.Text.Substitution
import ChainConformance.Proofs.TrustGraph.Backtracking
import ChainConformance.Proofs.TrustGraph.Canonical
import ChainConformance.Proofs.TrustGraph.FirstPath
import ChainConformance.Proofs.TrustGraph.Nodes
import ChainConformance.Proofs.TrustGraph.Reachability
import ChainConformance.Proofs.Wire.Field
import ChainConformance.Proofs.Wire.Varint
import ChainConformance.Proofs.X509.Bundle
import ChainConformance.Proofs.X509.Certificate
import ChainConformance.Proofs.X509.Content
import ChainConformance.Proofs.X509.Decoding
import ChainConformance.Proofs.X509.DistinguishedName
import ChainConformance.Proofs.X509.Issued
import ChainConformance.Proofs.X509.Resigning
import ChainConformance.Proofs.X509.Signed
import ChainConformance.Proofs.X509.Signing
import ChainConformance.Proofs.X509.Size
import ChainConformance.Root
import ChainConformance.Run.Execution
import ChainConformance.Run.Logged
import ChainConformance.Run.Results
import ChainConformance.Run.Served
import ChainConformance.Run.Suites
import ChainConformance.Run.Summary
import ChainConformance.Server.Control
import ChainConformance.Server.Selection
import ChainConformance.SortedMap
import ChainConformance.Suite.Basic
import ChainConformance.Suite.Manifest
import ChainConformance.Text.Blank
import ChainConformance.Text.FormData
import ChainConformance.Text.Numeral
import ChainConformance.Text.Pieces
import ChainConformance.Text.Quoted
import ChainConformance.Text.Unprintable
import ChainConformance.TrustGraph.Basic
import ChainConformance.TrustGraph.Catalog
import ChainConformance.TrustGraph.Search
import ChainConformance.Wire.Field
import ChainConformance.Wire.Varint
import ChainConformance.X509.Bundle
import ChainConformance.X509.Certificate
import ChainConformance.X509.Description
import ChainConformance.X509.DistinguishedName
import ChainConformance.X509.Draws
import ChainConformance.X509.Issued
import ChainConformance.X509.Name
import ChainConformance.X509.Resigning
import ChainConformance.X509.Seeded
import ChainConformance.X509.Signed
import ChainConformance.X509.Template
