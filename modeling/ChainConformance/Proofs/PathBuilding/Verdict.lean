import ChainConformance.PathBuilding.Scenario
import ChainConformance.Proofs.TrustGraph.FirstPath

/-!
# How a verdict reacts to changes of the scenario

The expectation depends on which edges are declared and which are broken, not on their order or
number. Breaking more edges never turns a failure into a pass, and leaves the path that is found as
it is unless one of its own edges is broken (`verdict_of_change`).
-/

namespace ChainConformance.PathBuilding

open TrustGraph

theorem expected_eq_fail_iff {s : Scenario} : s.expected = .fail ↔ s.path? = none := by
  rw [Scenario.expected]
  cases s.path? <;> simp

theorem expected_eq_pass_iff {s : Scenario} : s.expected = .pass ↔
    Relation.ReflTransGen (s.graph.Sound s.broken) s.source s.target := by
  rw [← path?_isSome, Scenario.expected, Scenario.path?]
  cases s.graph.path? s.broken s.source s.target <;> simp

/-- Scenarios that lead to a pass under the same conditions have the same expectation. -/
theorem expected_eq_of_pass_iff {s s' : Scenario} (h : s'.expected = .pass ↔ s.expected = .pass) :
    s'.expected = s.expected := by
  rw [Scenario.expected, Scenario.expected] at h ⊢
  cases found : s.path? <;> cases found' : s'.path? <;> simp_all

/-- Two scenarios with the same ends. If the same edges are declared and the same are broken, in
whatever order and number, the expectation is the same. If the graph is the same and the second one
has all broken edges of the first, a failure stays a failure; and if none of the edges that are
broken there alone belongs to the path that is found in the first, that path is found again. -/
theorem verdict_of_change {s s' : Scenario} (source : s'.source = s.source)
    (target : s'.target = s.target) :
    ((∀ e, e ∈ s'.graph.edges ↔ e ∈ s.graph.edges) → (∀ e, e ∈ s'.broken ↔ e ∈ s.broken) →
      s'.expected = s.expected) ∧
    (s'.graph = s.graph → (∀ e ∈ s.broken, e ∈ s'.broken) →
      (s.expected = .fail → s'.expected = .fail) ∧
      ((∀ p, s.path? = some p → ∀ e ∈ hops p, ¬ (e ∈ s'.broken ∧ e ∉ s.broken)) →
        s'.path? = s.path?)) := by
  refine ⟨fun edges broken => ?_, fun graph fewer => ?_⟩
  · have sound : s'.graph.Sound s'.broken = s.graph.Sound s.broken := by
      funext a b
      simp only [Sound, edges, broken]
    apply expected_eq_of_pass_iff
    rw [expected_eq_pass_iff, expected_eq_pass_iff, sound, source, target]
  · have path' : s'.path? = s.graph.path? s'.broken s.source s.target := by
      rw [Scenario.path?, graph, source, target]
    refine ⟨fun failure => ?_, fun apart => ?_⟩
    · rw [expected_eq_fail_iff] at failure ⊢
      rw [path']
      exact path?_eq_none_of_more fewer failure
    · cases found : s.path? with
      | none =>
        rw [path']
        exact path?_eq_none_of_more fewer found
      | some p =>
        rw [path']
        refine path?_of_more fewer found fun e hop broken => ?_
        have sound := isChain_sound_iff.mp (isPath_of_path? found).sound e hop
        exact apart p found e hop ⟨broken, sound.2⟩

/-- The direct way over `A` comes first, and is the one that is found. -/
def crossed : Scenario where
  graph := .ofPairs "CROSSED" [("S", "A"), ("A", "T"), ("S", "B"), ("B", "T"), ("B", "A")]
  source := "S"
  target := "T"
  broken := [⟨"B", "A"⟩]
  defect := some .expired
  expectFailure := false
  comment := ""

/-- The same edges in another order, one of them twice, and the broken one twice. -/
def shuffled : Scenario :=
  { crossed with
    graph := .ofPairs "CROSSED"
      [("S", "B"), ("B", "T"), ("B", "A"), ("S", "B"), ("A", "T"), ("S", "A")]
    broken := [⟨"B", "A"⟩, ⟨"B", "A"⟩] }

/-- Breaking the detour over `B` as well does not matter to the path over `A`; in the other order a
path over `B` is found, with the same expectation; and once both ways are cut, cutting more of them
changes nothing. -/
theorem verdict_of_change_of_crossed :
    { crossed with broken := [⟨"B", "T"⟩, ⟨"B", "A"⟩] }.path? = some ["S", "A", "T"] ∧
      shuffled.path? = some ["S", "B", "T"] ∧ shuffled.expected = .pass ∧
      { crossed with broken := [⟨"A", "T"⟩, ⟨"S", "A"⟩, ⟨"S", "B"⟩] }.expected = .fail := by
  have found : crossed.path? = some ["S", "A", "T"] := by decide +kernel
  have pass : crossed.expected = .pass := by decide +kernel
  have cut : { crossed with broken := [⟨"A", "T"⟩, ⟨"S", "B"⟩] }.expected = .fail := by
    decide +kernel
  have edges : shuffled.graph.edges ⊆ crossed.graph.edges ∧
      crossed.graph.edges ⊆ shuffled.graph.edges := by decide
  have broken : shuffled.broken ⊆ crossed.broken ∧ crossed.broken ⊆ shuffled.broken := by decide
  refine ⟨?_, by decide +kernel, ?_, ?_⟩
  · rw [← found]
    refine ((verdict_of_change rfl rfl).2 rfl (by decide)).2 fun p path => ?_
    cases found.symm.trans path
    decide
  · rw [← pass]
    have source : shuffled.source = crossed.source := rfl
    exact (verdict_of_change source rfl).1 (fun _ => ⟨@edges.1 _, @edges.2 _⟩)
      fun _ => ⟨@broken.1 _, @broken.2 _⟩
  · exact ((verdict_of_change rfl rfl).2 rfl (by decide)).1 cut

end ChainConformance.PathBuilding
