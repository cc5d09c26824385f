import ChainConformance.Json.Decode
import ChainConformance.Json.Printer
import ChainConformance.Json.Reader
import ChainConformance.Suite.Basic

/-!
# Results of a suite

What a run of one suite leaves behind: the outcome of every test in order, and which features the
client was found to support. Results are written as JSON and read back.
-/

namespace ChainConformance

structure SuiteResults where
  outcomes : List Outcome
  supported : List Feature
  unsupported : List Feature
  deriving DecidableEq, Repr

namespace SuiteResults

def toJson (r : SuiteResults) : Json :=
  .obj [
    ("testCaseResults", .list (fun o => .str (Outcome.name o)) r.outcomes),
    ("supportedFeatures", .list (fun f => .nat f.toNat) r.supported),
    ("unsupportedFeatures", .list (fun f => .nat f.toNat) r.unsupported)]

def ofJson? (v : Json) : Option SuiteResults := do
  let [outcomes, supported, unsupported] ← v.asRecord?
    ["testCaseResults", "supportedFeatures", "unsupportedFeatures"] | none
  return {
    outcomes := ← outcomes.asList? (Json.asWord? Outcome.ofName?)
    supported := ← supported.asList? Json.asUInt32?
    unsupported := ← unsupported.asList? Json.asUInt32? }

def render (r : SuiteResults) : String := r.toJson.pretty

def read (s : String) : Except Error SuiteResults :=
  match (Json.read s).bind ofJson? with
  | some r => .ok r
  | none => .error .json

end SuiteResults

end ChainConformance
