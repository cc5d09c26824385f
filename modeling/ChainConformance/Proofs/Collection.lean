import ChainConformance.Proofs.PathBuilding.Suite
import ChainConformance.Proofs.Server.Lookup

/-!
# The suites of a collection

* `NameConstraints.wellFormed_suite`: the name-constraints suite is well formed, as is the
  path-building suite over any catalog;
* `Suite.WellFormed.map`: so is a suite whose scenarios are read as those of any suite;
* `Collection.wellFormed_of_ofRoot`: every suite of the collection for a root is.
-/

namespace ChainConformance

theorem Suite.WellFormed.map {σ τ : Type} {s : Suite σ} (h : s.WellFormed) (f : σ → τ) :
    (s.map f).WellFormed := by
  have found {index : Nat} (present : ∃ t, s.test index = .ok t) :
      ∃ t, (s.map f).test index = .ok t := by
    obtain ⟨t, here⟩ := present
    exact ⟨t.map f, map_eq_ok_iff.mpr ⟨t, here, rfl⟩⟩
  exact {
    sanity := found h.sanity
    representatives := by
      intro g listed
      obtain ⟨indices, represented, all⟩ := h.representatives g listed
      exact ⟨indices, represented, fun index member => found (all index member)⟩
    tests := fun index below => found (h.tests index below)
    distinct := h.distinct
    named := h.named
    listed := by
      intro index below t here
      obtain ⟨t', here', rfl⟩ := map_eq_ok_iff.mp here
      exact h.listed index below t' here' }

/-! ## Name constraints -/

namespace NameConstraints

theorem Fixture.listed_features (f : Fixture) :
    ∀ g ∈ f.features, g ∈ [enforcesConstraints, validatesDns, validatesIp] := by
  intro g member
  rcases List.mem_append.mp member with constrained | unnamed
  · split at constrained
    · simp [List.mem_singleton.mp constrained]
    · cases constrained
  · split at unnamed
    · cases unnamed
    · split at unnamed <;> simp [List.mem_singleton.mp unnamed]

/-- The sanity test and the representatives come first. -/
theorem exists_fixtures_eq : ∃ rest, fixtures = sanityFixture :: featureFixtures ++ rest := by
  refine ⟨urlSmuggling :: combinations ++ (foreignTags ++ separators), ?_⟩
  rw [fixtures, List.append_assoc, List.append_assoc]

theorem wellFormed_suite {s : Suite Fixture} (made : suite = .ok s) : s.WellFormed := by
  obtain ⟨tests, related, result⟩ := bind_eq_ok_iff.mp made
  obtain rfl := pure_eq_ok_iff.mp result
  have each := mapM_eq_ok_iff.mp related
  have present {index : Nat} (below : index < tests.toArray.size) :
      ∃ t, Suite.testOf suiteName tests.toArray index = .ok t := Suite.exists_testOf_iff.mpr below
  have six : 6 ≤ tests.toArray.size := by
    obtain ⟨rest, split⟩ := exists_fixtures_eq
    rw [List.size_toArray, ← each.length_eq, split, List.length_append]
    exact Nat.le_add_right 6 rest.length
  have known : ∀ g ∈ [enforcesConstraints, validatesDns, validatesIp],
      (∃ name, featureName g = .ok name) ∧
      ∃ indices, representatives g = .ok indices ∧ ∀ index ∈ indices, index < 6 := by
    simp only [List.forall_mem_cons]
    refine ⟨⟨⟨_, rfl⟩, [1], rfl, by decide⟩, ⟨⟨_, rfl⟩, [2, 3], rfl, by decide⟩,
      ⟨⟨_, rfl⟩, [4, 5], rfl, by decide⟩, fun g none => nomatch none⟩
  exact {
    sanity := present (Nat.lt_of_lt_of_le (by decide : 0 < 6) six)
    representatives := by
      intro g listed
      obtain ⟨-, indices, represented, low⟩ := known g listed
      exact ⟨indices, represented, fun index member =>
        present (Nat.lt_of_lt_of_le (low index member) six)⟩
    tests := fun _ => present
    distinct := (by decide : [enforcesConstraints, validatesDns, validatesIp].Nodup)
    named := fun g listed => (known g listed).1
    listed := by
      intro index below t found
      rw [Suite.testOf_eq_ok_iff, List.getElem?_toArray] at found
      obtain ⟨f, -, made'⟩ := exists_of_mem_right each (List.mem_of_getElem? found)
      obtain ⟨e, -, result⟩ := bind_eq_ok_iff.mp made'
      obtain rfl := pure_eq_ok_iff.mp result
      exact f.listed_features }

end NameConstraints

/-! ## Both suites -/

namespace Collection

theorem wellFormed_of_ofRoot {root : Root} {c : Collection} (made : ofRoot root = .ok c) :
    ∀ s ∈ c.suites, s.WellFormed := by
  obtain ⟨names, named, made⟩ := bind_eq_ok_iff.mp made
  obtain ⟨paths, listed, made⟩ := bind_eq_ok_iff.mp made
  obtain rfl := pure_eq_ok_iff.mp made
  intro s member
  rcases List.mem_cons.mp member with rfl | member
  · exact (NameConstraints.wellFormed_suite named).map _
  · rw [List.mem_singleton.mp member]
    exact (PathBuilding.wellFormed_of_suite listed).map _

end Collection

end ChainConformance
