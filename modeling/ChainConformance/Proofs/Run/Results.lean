import ChainConformance.Proofs.Json.Decode
import ChainConformance.Proofs.SortedMap
import ChainConformance.Run.Results
import ChainConformance.Suite.Manifest

/-!
# Results and manifests as texts

Results and manifests are written as JSON. Proved here, for every value and for both layouts:

* `SuiteResults.ofJson?_render`, `SuiteResults.read_render`: results are read back as they were;
* `Manifest.ofJson?_render`, `Manifest.read_render`: so are manifests.
-/

namespace ChainConformance

open Json

theorem Outcome.ofName?_name (o : Outcome) : ofName? o.name = some o := by
  cases o <;> decide

theorem Expectation.ofName?_name (e : Expectation) : ofName? e.name = some e := by
  cases e <;> decide

/-! ## Results -/

namespace SuiteResults

theorem ofJson?_toJson (r : SuiteResults) : ofJson? r.toJson = some r := by
  have record : r.toJson = obj
      (["testCaseResults", "supportedFeatures", "unsupportedFeatures"].zip
        [.list (fun o => .str (Outcome.name o)) r.outcomes,
          .list (fun f => .nat (UInt32.toNat f)) r.supported,
          .list (fun f => .nat (UInt32.toNat f)) r.unsupported]) := rfl
  have fields := asRecord?_of_eq record (by decide) rfl
  have outcomes : (list (fun o => str (Outcome.name o)) r.outcomes).asList?
      (asWord? Outcome.ofName?) = some r.outcomes :=
    asList?_list fun o _ => asWord?_str o o.ofName?_name
  have features (fs : List Feature) :
      (list (fun f => nat (UInt32.toNat f)) fs).asList? asUInt32? = some fs :=
    asList?_list fun f _ => asUInt32?_nat f
  simp [ofJson?, fields, outcomes, features]

theorem written_toJson (r : SuiteResults) : Written r.toJson := by
  apply Written.obj
  simp only [List.forall_mem_cons, List.not_mem_nil, false_implies, implies_true, and_true]
  refine ⟨?_, ?_, ?_⟩
  · exact written_list fun o _ => .str _
  · exact written_list fun f _ => written_nat _
  · exact written_list fun f _ => written_nat _

theorem ofJson?_render (r : SuiteResults) (layout : Layout) :
    (Json.read (String.ofList (Json.render layout 0 r.toJson))).bind ofJson? = some r := by
  rw [Json.read_render (written_toJson r), Option.bind_some, ofJson?_toJson]

/-- Results that are written are read back as they were. -/
theorem read_render (r : SuiteResults) : read r.render = .ok r := by
  have text := ofJson?_render r .pretty
  rw [read, render, pretty, text]

end SuiteResults

/-! ## Manifests -/

namespace SuiteManifest

theorem ofJson?_toJson (m : SuiteManifest) : ofJson? m.toJson = some m := by
  have record : m.toJson = obj
      (["features", "sanityCheckTestCase", "featureTestCases", "expectedResults"].zip
        [.obj (m.features.entries.map fun e => (Text.decimal e.1.toNat, .str e.2)),
          .nat m.sanityIndex.toNat,
          .obj (m.representatives.entries.map fun e => (e.1, .list (fun n => .nat n.toNat) e.2)),
          .list (fun e => .str (Expectation.name e)) m.expectations]) := rfl
  have fields := asRecord?_of_eq record (by decide) rfl
  have features : (obj (m.features.entries.map fun e =>
      (Text.decimal e.1.toNat, str e.2))).asEntries? Literal.asUInt32? asString? =
        some m.features.entries :=
    asEntries?_obj (fun f => Text.decimal f.toNat) str
      (fun e _ => Literal.asUInt32?_decimal e.1) fun e _ => asString?_str e.2
  have representatives : (obj (m.representatives.entries.map fun e =>
      (e.1, list (fun n => nat n.toNat) e.2))).asEntries? (·.text) (asList? asUInt64?) =
        some m.representatives.entries :=
    asEntries?_obj id (list fun n => nat n.toNat) (fun _ _ => rfl) fun e _ =>
      asList?_list fun n _ => asUInt64?_nat n
  have expectations : (list (fun e => str (Expectation.name e)) m.expectations).asList?
      (asWord? Expectation.ofName?) = some m.expectations :=
    asList?_list fun e _ => asWord?_str e e.ofName?_name
  simp [ofJson?, fields, features, asUInt64?_nat, representatives, expectations,
    SortedMap.ofList_entries]

theorem written_toJson (m : SuiteManifest) : Written m.toJson := by
  apply Written.obj
  simp only [List.forall_mem_cons, List.not_mem_nil, false_implies, implies_true, and_true]
  refine ⟨?_, written_nat _, ?_, ?_⟩
  · apply Written.obj
    intro entry member
    obtain ⟨e, -, rfl⟩ := List.mem_map.mp member
    exact .str _
  · apply Written.obj
    intro entry member
    obtain ⟨e, -, rfl⟩ := List.mem_map.mp member
    exact written_list fun n _ => written_nat _
  · exact written_list fun e _ => .str _

end SuiteManifest

namespace Manifest

theorem ofJson?_toJson (m : Manifest) : ofJson? m.toJson = some m := by
  have record : m.toJson = obj
      (["version", "catalogVersion", "suiteManifests"].zip
        [.str m.version, .nat m.catalogVersion.toNat,
          .obj (m.suites.entries.map fun e => (e.1, e.2.toJson))]) := rfl
  have fields := asRecord?_of_eq record (by decide) rfl
  have suites : (obj (m.suites.entries.map fun e => (e.1, e.2.toJson))).asEntries? (·.text)
      SuiteManifest.ofJson? = some m.suites.entries :=
    asEntries?_obj id SuiteManifest.toJson (fun _ _ => rfl) fun e _ => e.2.ofJson?_toJson
  simp [ofJson?, fields, asString?_str, asUInt32?_nat, suites, SortedMap.ofList_entries]

theorem written_toJson (m : Manifest) : Written m.toJson := by
  apply Written.obj
  simp only [List.forall_mem_cons, List.not_mem_nil, false_implies, implies_true, and_true]
  refine ⟨.str _, written_nat _, ?_⟩
  apply Written.obj
  intro entry member
  obtain ⟨e, -, rfl⟩ := List.mem_map.mp member
  exact e.2.written_toJson

theorem ofJson?_render (m : Manifest) (layout : Layout) :
    (Json.read (String.ofList (Json.render layout 0 m.toJson))).bind ofJson? = some m := by
  rw [Json.read_render (written_toJson m), Option.bind_some, ofJson?_toJson]

/-- A manifest that is written is read back as it was. -/
theorem read_render (m : Manifest) : read m.render = .ok m := by
  have text := ofJson?_render m .pretty
  rw [read, render, pretty, text]

end Manifest

end ChainConformance
