import ChainConformance.PathBuilding.Suite
import ChainConformance.Proofs.Run.Scoring
import ChainConformance.Run.Logged

/-!
# The suite over a catalog

The path-building suite is made from any catalog that has the four graphs it asks for by name;
their edges do not matter. Its indices, its features and the expansion of its templates are written
apart from each other. Proved here is that they agree:

* `exists_suite_iff`: when there is a suite, and `suite_eq_ok_iff`: what it consists of;
* `standsFor_expand`: a template is expanded in place, once for each defect;
* `exists_featureName_iff`, `exists_representatives_iff`: which features are known;
* `features_of_representative`: a representative requires the feature that it represents, and no
  other;
* `suite_wellMade`: all of this for every catalog, and how a run of the suite can end.
-/

namespace ChainConformance

/-! ## Graphs by name -/

namespace Catalog

variable {c : Catalog} {name : String} {g : TrustGraph}

theorem graph_eq_ok_iff : c.graph name = .ok g ↔ c.graphs.find? (·.name = name) = some g := by
  rw [graph]
  cases c.graphs.find? (·.name = name) <;> simp

theorem exists_graph_iff : (∃ g, c.graph name = .ok g) ↔ ∃ g ∈ c.graphs, g.name = name := by
  simp only [graph_eq_ok_iff, ← Option.isSome_iff_exists, List.find?_isSome, decide_eq_true_eq]

theorem name_of_graph (h : c.graph name = .ok g) : g.name = name := by
  simpa using List.find?_some (graph_eq_ok_iff.mp h)

/-- The catalog has graphs with the standard names, whatever their edges are. -/
def NamesStandard (c : Catalog) : Prop :=
  ∀ name ∈ ["LINEAR_TRUST_GRAPH", "TWO_ROOTS", "FIGURE_SEVEN", "BRIDGE_CA_PKI"],
    ∃ g ∈ c.graphs, g.name = name

instance (c : Catalog) : Decidable c.NamesStandard :=
  inferInstanceAs (Decidable (∀ name ∈ _, ∃ g ∈ c.graphs, g.name = name))

end Catalog

namespace PathBuilding

/-! ## Scenarios -/

/-- The hand-written scenario stands for these: a template for one scenario per defect, in order,
that differs from it in nothing else, and any other one for itself. -/
def StandsFor (x : Scenario) (block : List Scenario) : Prop :=
  if x.isTemplate then
    block.map Scenario.defect =
      [some .expired, some .nameConstraints, some .badEku, some .missingBasicConstraints,
        some .notACa, some .deprecatedCrypto] ∧
    ∀ y ∈ block, { y with defect := x.defect } = x
  else block = [x]

theorem standsFor_expand (x : Scenario) : StandsFor x (expand x) := by
  rw [StandsFor, expand]
  split
  · refine ⟨rfl, fun y member => ?_⟩
    obtain ⟨d, -, rfl⟩ := List.mem_map.mp member
    rfl
  · rfl

theorem isTemplate_of_defect {x : Scenario} {d : Defect} (h : x.defect = some d) :
    x.isTemplate = false := by
  rw [Scenario.isTemplate, h, Option.isNone_some, Bool.and_false]

theorem isTemplate_of_mem_expand {x y : Scenario} (member : y ∈ expand x) :
    y.isTemplate = false := by
  rw [expand] at member
  split at member
  · obtain ⟨d, -, rfl⟩ := List.mem_map.mp member
    exact isTemplate_of_defect rfl
  · next sound =>
    obtain rfl := List.mem_singleton.mp member
    simpa using sound

/-- The scenarios that come first, before the hand-written ones. -/
def fixed (linear twoRoots : TrustGraph) : List Scenario :=
  [.sound linear "Trust Anchor" "EE", .sound twoRoots "Root1" "EE", .sound twoRoots "Root2" "EE"] ++
    Defect.all.map (representative linear)

theorem isTemplate_of_mem_fixed {linear twoRoots : TrustGraph} {x : Scenario}
    (member : x ∈ fixed linear twoRoots) : x.isTemplate = false := by
  rcases List.mem_append.mp member with sound | broken
  · have kinds : x = .sound linear "Trust Anchor" "EE" ∨ x = .sound twoRoots "Root1" "EE" ∨
        x = .sound twoRoots "Root2" "EE" := by simpa using sound
    rcases kinds with rfl | rfl | rfl <;> rfl
  · obtain ⟨d, -, rfl⟩ := List.mem_map.mp broken
    exact isTemplate_of_defect rfl

section
variable {c : Catalog}

theorem exists_explicitScenarios_iff :
    (∃ explicit, explicitScenarios c = .ok explicit) ↔ c.NamesStandard := by
  have names : c.NamesStandard ↔ (∃ g, c.graph TrustGraph.linear.name = .ok g) ∧
      (∃ g, c.graph TrustGraph.twoRoots.name = .ok g) ∧
      (∃ g, c.graph TrustGraph.figureSeven.name = .ok g) ∧
      ∃ g, c.graph TrustGraph.bridgeCa.name = .ok g := by
    simp only [Catalog.exists_graph_iff, Catalog.NamesStandard, List.forall_mem_cons,
      List.not_mem_nil, IsEmpty.forall_iff, implies_true, and_true]
    rfl
  rw [names]
  simp only [explicitScenarios, bind_eq_ok_iff, pure_eq_ok_iff]
  constructor
  · rintro ⟨_, linear, h₁, twoRoots, h₂, figureSeven, h₃, bridge, h₄, -⟩
    exact ⟨⟨_, h₁⟩, ⟨_, h₂⟩, ⟨_, h₃⟩, ⟨_, h₄⟩⟩
  · rintro ⟨⟨linear, h₁⟩, ⟨twoRoots, h₂⟩, ⟨figureSeven, h₃⟩, ⟨bridge, h₄⟩⟩
    exact ⟨_, linear, h₁, twoRoots, h₂, figureSeven, h₃, bridge, h₄, rfl⟩

theorem scenarios_eq_ok_iff {all : List Scenario} :
    scenarios c = .ok all ↔ ∃ linear twoRoots explicit,
      c.graph TrustGraph.linear.name = .ok linear ∧
      c.graph TrustGraph.twoRoots.name = .ok twoRoots ∧ explicitScenarios c = .ok explicit ∧
      all = fixed linear twoRoots ++ explicit.flatMap expand := by
  simp only [scenarios, bind_eq_ok_iff, pure_eq_ok_iff]
  constructor
  · rintro ⟨linear, h₁, twoRoots, h₂, explicit, h₃, rfl⟩
    exact ⟨linear, twoRoots, explicit, h₁, h₂, h₃, rfl⟩
  · rintro ⟨linear, twoRoots, explicit, h₁, h₂, h₃, rfl⟩
    exact ⟨linear, h₁, twoRoots, h₂, explicit, h₃, rfl⟩

end

/-! ## Features -/

/-- The features that the suite lists. -/
def listedFeatures : List Feature := branching :: Defect.all.map Defect.feature

theorem Defect.mem_all (d : Defect) : d ∈ Defect.all := by
  cases d <;> decide

variable {f : Feature}

theorem mem_listedFeatures_iff :
    f ∈ listedFeatures ↔ f = branching ∨ ∃ d ∈ Defect.all, d.feature = f := by
  rw [listedFeatures, List.mem_cons, List.mem_map]

theorem Scenario.listed_features (x : Scenario) : ∀ f ∈ x.features, f ∈ listedFeatures := by
  intro f member
  rw [mem_listedFeatures_iff]
  rcases List.mem_append.mp member with branched | broken
  · split at branched
    · cases branched
    · exact .inl (List.mem_singleton.mp branched)
  · split at broken
    · cases broken
    · obtain ⟨d, -, rfl⟩ := List.mem_map.mp broken
      exact .inr ⟨d, d.mem_all, rfl⟩

theorem exists_featureName_iff : (∃ name, featureName f = .ok name) ↔ f ∈ listedFeatures := by
  rw [mem_listedFeatures_iff, featureName]
  split
  · next first => simp [first]
  · next other =>
    cases found : Defect.all.find? (·.feature = f) with
    | none => simpa [other] using found
    | some d =>
      have same : d.feature = f := by simpa using List.find?_some found
      simpa [other] using ⟨d, List.mem_of_find?_eq_some found, same⟩

theorem representatives_eq_ok_iff {indices : List Nat} : representatives f = .ok indices ↔
    (f = branching ∧ indices = [1, 2]) ∨ (f ≠ branching ∧
      ∃ i, Defect.all.findIdx? (·.feature = f) = some i ∧ indices = [3 + i]) := by
  rw [representatives]
  split
  · next first => simp [first, eq_comm]
  · next other =>
    cases Defect.all.findIdx? (·.feature = f) <;> simp [other, eq_comm]

theorem exists_representatives_iff :
    (∃ indices, representatives f = .ok indices) ↔ f ∈ listedFeatures := by
  have placed : (∃ i, Defect.all.findIdx? (·.feature = f) = some i) ↔
      ∃ d ∈ Defect.all, d.feature = f := by
    rw [← Option.isSome_iff_exists, List.findIdx?_isSome]
    simp
  rw [mem_listedFeatures_iff, ← placed]
  simp only [representatives_eq_ok_iff]
  by_cases first : f = branching
  · simp [first]
  · simp [first]

/-- The representatives of a feature stand among the first tests, and require just this feature. -/
theorem features_of_representative {linear twoRoots : TrustGraph} {indices : List Nat}
    (one : linear.name = TrustGraph.linear.name) (two : twoRoots.name = TrustGraph.twoRoots.name)
    (h : representatives f = .ok indices) : ∀ index ∈ indices, ∃ x,
      (fixed linear twoRoots)[index]? = some x ∧ x.features = [f] := by
  intro index member
  rcases representatives_eq_ok_iff.mp h with ⟨rfl, rfl⟩ | ⟨-, i, found, rfl⟩
  · have apart : twoRoots.name ≠ TrustGraph.linear.name := two ▸ by decide
    have either : index = 1 ∨ index = 2 := by simpa using member
    rcases either with rfl | rfl
    · exact ⟨.sound twoRoots "Root1" "EE", rfl, by simp [Scenario.features, Scenario.sound, apart]⟩
    · exact ⟨.sound twoRoots "Root2" "EE", rfl, by simp [Scenario.features, Scenario.sound, apart]⟩
  · obtain rfl := List.mem_singleton.mp member
    obtain ⟨below, same, -⟩ := List.findIdx?_eq_some_iff_getElem.mp found
    have known : Defect.all[i].feature = f := by simpa using same
    refine ⟨representative linear Defect.all[i], ?_, ?_⟩
    · rw [fixed, Nat.add_comm, List.getElem?_append_right (by simp)]
      simp [below]
    · simp [Scenario.features, representative, written, one, known]

/-! ## The suite -/

/-- The suite over a catalog is laid out as the hand-written scenarios say, and its features, tests
and indices agree. -/
structure WellMade (c : Catalog) (s : Suite Scenario) : Prop where
  /-- Nine tests come first; the hand-written scenarios follow with their templates expanded. -/
  laidOut : ∃ (first explicit : List Scenario) (blocks : List (List Scenario)),
    first.length = 9 ∧ explicitScenarios c = .ok explicit ∧
    List.Forall₂ StandsFor explicit blocks ∧ s.count = (first ++ blocks.flatten).length ∧
    ∀ index t, s.test index = .ok t ↔
      (first ++ blocks.flatten)[index]?.map Scenario.toTest = some t
  noTemplate : ∀ index t, s.test index = .ok t → t.scenario.isTemplate = false
  listed : ∀ index t, s.test index = .ok t → ∀ f ∈ t.features, f ∈ s.features
  named : ∀ f, (∃ name, s.featureName f = .ok name) ↔ f ∈ s.features
  represented : ∀ f, (∃ indices, s.representatives f = .ok indices) ↔ f ∈ s.features
  sanity : s.sanityIndex < s.count
  representatives : ∀ f indices, s.representatives f = .ok indices → ∀ index ∈ indices,
    index < s.count ∧ ∃ t, s.test index = .ok t ∧ t.features = [f]

/-- The suite of these scenarios. -/
def ofScenarios (all : List Scenario) : Suite Scenario where
  name := suiteName
  count := all.length
  test := Suite.testOf suiteName (all.map Scenario.toTest).toArray
  sanityIndex := 0
  features := listedFeatures
  featureName := featureName
  representatives := representatives

theorem test_ofScenarios_iff {all : List Scenario} {index : Nat} {t : TestCase Scenario} :
    (ofScenarios all).test index = .ok t ↔ all[index]?.map Scenario.toTest = some t := by
  rw [ofScenarios, Suite.testOf_eq_ok_iff, List.getElem?_toArray, List.getElem?_map]

theorem mem_of_test {all : List Scenario} {index : Nat} {t : TestCase Scenario}
    (found : (ofScenarios all).test index = .ok t) : ∃ x ∈ all, x.toTest = t := by
  obtain ⟨x, here, same⟩ := Option.map_eq_some_iff.mp (test_ofScenarios_iff.mp found)
  exact ⟨x, List.mem_of_getElem? here, same⟩

section
variable {c : Catalog} {s : Suite Scenario}

theorem suite_eq_ok_iff :
    suite c = .ok s ↔ ∃ linear twoRoots explicit,
      c.graph TrustGraph.linear.name = .ok linear ∧
      c.graph TrustGraph.twoRoots.name = .ok twoRoots ∧ explicitScenarios c = .ok explicit ∧
      s = ofScenarios (fixed linear twoRoots ++ explicit.flatMap expand) := by
  have assembled (all : List Scenario) : ({
      name := suiteName
      count := (all.map Scenario.toTest).toArray.size
      test := Suite.testOf suiteName (all.map Scenario.toTest).toArray
      sanityIndex := 0
      features := branching :: Defect.all.map Defect.feature
      featureName := featureName
      representatives := representatives } : Suite Scenario) = ofScenarios all := by
    rw [List.size_toArray, List.length_map]
    rfl
  simp only [suite, bind_eq_ok_iff, pure_eq_ok_iff, assembled, scenarios_eq_ok_iff]
  constructor
  · rintro ⟨_, ⟨linear, twoRoots, explicit, one, two, written, rfl⟩, rfl⟩
    exact ⟨linear, twoRoots, explicit, one, two, written, rfl⟩
  · rintro ⟨linear, twoRoots, explicit, one, two, written, rfl⟩
    exact ⟨_, ⟨linear, twoRoots, explicit, one, two, written, rfl⟩, rfl⟩

theorem exists_suite_iff : (∃ s, suite c = .ok s) ↔ c.NamesStandard := by
  simp only [← exists_explicitScenarios_iff, suite_eq_ok_iff]
  constructor
  · rintro ⟨-, -, -, explicit, -, -, written, -⟩
    exact ⟨explicit, written⟩
  · rintro ⟨explicit, written⟩
    have standard := exists_explicitScenarios_iff.mp ⟨explicit, written⟩
    obtain ⟨linear, one⟩ :=
      Catalog.exists_graph_iff.mpr (standard TrustGraph.linear.name (by decide))
    obtain ⟨twoRoots, two⟩ :=
      Catalog.exists_graph_iff.mpr (standard TrustGraph.twoRoots.name (by decide))
    exact ⟨_, linear, twoRoots, explicit, one, two, written, rfl⟩

theorem wellMade_of_suite (made : suite c = .ok s) : WellMade c s := by
  obtain ⟨linear, twoRoots, explicit, one, two, written, rfl⟩ := suite_eq_ok_iff.mp made
  have expanded : List.Forall₂ StandsFor explicit (explicit.map expand) := by
    rw [List.forall₂_map_right_iff, List.forall₂_same]
    exact fun x _ => standsFor_expand x
  exact {
    laidOut := by
      refine ⟨fixed linear twoRoots, explicit, explicit.map expand, rfl, written, expanded, ?_⟩
      rw [← List.flatMap_def]
      exact ⟨rfl, fun index t => test_ofScenarios_iff⟩
    noTemplate := by
      intro index t found
      obtain ⟨x, present, rfl⟩ := mem_of_test found
      rcases List.mem_append.mp present with first | later
      · exact isTemplate_of_mem_fixed first
      · obtain ⟨y, -, inside⟩ := List.mem_flatMap.mp later
        exact isTemplate_of_mem_expand inside
    listed := by
      intro index t found
      obtain ⟨x, -, rfl⟩ := mem_of_test found
      exact x.listed_features
    named := fun f => exists_featureName_iff
    represented := fun f => exists_representatives_iff
    sanity := by simp [ofScenarios, fixed]
    representatives := by
      intro f indices represented index inside
      obtain ⟨x, here, required⟩ := features_of_representative (Catalog.name_of_graph one)
        (Catalog.name_of_graph two) represented index inside
      obtain ⟨below, -⟩ := List.getElem?_eq_some_iff.mp here
      refine ⟨?_, x.toTest, test_ofScenarios_iff.mpr ?_, required⟩
      · simp only [ofScenarios, List.length_append]
        exact Nat.lt_add_right _ below
      · rw [List.getElem?_append_left below, here]
        rfl }

/-- The tests of the suite are those below its count. -/
theorem WellMade.indexed (wellMade : WellMade c s) {index : Nat} :
    (∃ t, s.test index = .ok t) ↔ index < s.count := by
  obtain ⟨first, explicit, blocks, -, -, -, count, test⟩ := wellMade.laidOut
  simp only [test, count, Option.map_eq_some_iff, List.getElem?_eq_some_iff]
  exact ⟨fun ⟨_, _, ⟨below, _⟩, _⟩ => below, fun below => ⟨_, _, ⟨below, rfl⟩, rfl⟩⟩

theorem WellMade.complete (wellMade : WellMade c s) : s.Complete where
  sanity := wellMade.indexed.mpr wellMade.sanity
  representatives := by
    intro f listed
    obtain ⟨indices, represented⟩ := (wellMade.represented f).mpr listed
    refine ⟨indices, represented, fun index member => ?_⟩
    exact wellMade.indexed.mpr (wellMade.representatives f indices represented index member).1
  tests := fun _ below => wellMade.indexed.mpr below

theorem wellFormed_of_suite (made : suite c = .ok s) : s.WellFormed where
  toComplete := (wellMade_of_suite made).complete
  distinct := by
    obtain ⟨-, -, -, -, -, -, rfl⟩ := suite_eq_ok_iff.mp made
    exact (by decide : listedFeatures.Nodup)
  named := fun f => ((wellMade_of_suite made).named f).mpr
  listed := fun index _ => (wellMade_of_suite made).listed index

end

/-- There is a suite over a catalog if and only if the catalog has graphs with the standard names.
The suite is well made, and a run over it ends with results, at a contradicted sanity test, or with
the client's own error; a log changes nothing in this. -/
theorem suite_wellMade (c : Catalog) :
    ((∃ s, suite c = .ok s) ↔ c.NamesStandard) ∧
    ∀ s, suite c = .ok s → WellMade c s ∧
      ∀ (τ : Type) (filter : RunFilter) (client : Client Scenario τ) (first : τ),
        Run.Ending s client (Run.start (Run.suite filter s client) first).2
          (Run.start (Run.suite filter s client) first).1 ∧
        Run.start (Run.suiteLogged filter s client) first =
          Run.start (Run.suite filter s client) first := by
  refine ⟨exists_suite_iff, fun s made => ⟨wellMade_of_suite made, fun τ filter client first => ?_⟩⟩
  have wellFormed := wellFormed_of_suite made
  refine ⟨Run.start_suite_ending wellFormed.toComplete filter client first, ?_⟩
  rw [Run.suiteLogged_eq_suite filter client wellFormed.named]

/-- A catalog of a user's own: the standard names in another order, with edges that lead nowhere,
and a graph that no scenario asks for. -/
def sparseCatalog : Catalog :=
  ⟨7, [.ofPairs "BRIDGE_CA_PKI" [], .ofPairs "RING" [("A", "B"), ("B", "A")],
    .ofPairs "FIGURE_SEVEN" [("B", "EE")], .ofPairs "LINEAR_TRUST_GRAPH" [("EE", "ICA")],
    .ofPairs "TWO_ROOTS" []]⟩

/-- The suite over the sparse catalog has as many tests as the standard one. Without the last of its
graphs there is none. -/
theorem wellMade_of_sparseCatalog :
    (∃ s, suite sparseCatalog = .ok s ∧ s.count = 81 ∧ WellMade sparseCatalog s ∧
      Run.Ending s (fun _ _ (shown : Nat) => (.ok false, shown + 1))
        (Run.start (Run.suite .all s fun _ _ shown => (.ok false, shown + 1)) 0).2
        (Run.start (Run.suite .all s fun _ _ shown => (.ok false, shown + 1)) 0).1) ∧
    ¬ ∃ s, suite { sparseCatalog with graphs := sparseCatalog.graphs.take 4 } = .ok s := by
  obtain ⟨exists_iff, wellMade⟩ := suite_wellMade sparseCatalog
  constructor
  · obtain ⟨s, made⟩ := exists_iff.mpr (by decide)
    have counted : (suite sparseCatalog).map (·.count) = .ok 81 := by decide +kernel
    obtain ⟨good, runs⟩ := wellMade s made
    refine ⟨s, made, ?_, good, (runs Nat .all _ 0).1⟩
    simpa [made, Except.map] using counted
  · rw [(suite_wellMade _).1]
    decide

end PathBuilding

end ChainConformance
