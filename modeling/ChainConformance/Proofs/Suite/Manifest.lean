import ChainConformance.Proofs.Outcome
import ChainConformance.Proofs.SortedMap
import ChainConformance.Suite.Manifest

/-!
# What a manifest says about its suite

`Describes m s`: the manifest has the expectation of every test, and the name of every feature.

* `exists_describes`: a suite has a manifest that describes it, as long as its look-ups succeed.
-/

namespace ChainConformance.SuiteManifest

variable {σ : Type} {s : Suite σ}

/-- The manifest has what a run of the suite is scored against. -/
structure Describes (m : SuiteManifest) (s : Suite σ) : Prop where
  length : m.expectations.length = s.count
  expectations : ∀ index < s.count, ∃ t, s.test index = .ok t ∧
    m.expectations[index]? = some t.expected
  features : ∀ f ∈ s.features, ∃ name, s.featureName f = .ok name ∧ m.features.get? f = some name

/-! ## Features -/

/-- The maps of a manifest with one more feature in them. -/
def putFeature (s : Suite σ) (maps : SortedMap UInt32 String × SortedMap String (List UInt64))
    (f : Feature) : Except Error (SortedMap UInt32 String × SortedMap String (List UInt64)) := do
  let name ← s.featureName f
  let tests ← s.representatives f
  return (maps.1.insert f name, maps.2.insert name (tests.map UInt64.ofNat))

theorem featureMaps_eq (s : Suite σ) :
    featureMaps s = s.features.foldlM (putFeature s) (.empty, .empty) := rfl

/-- Features that can be described are put into the maps, where the others stay as they were. -/
theorem foldlM_putFeature {features : List Feature}
    (named : ∀ f ∈ features, ∃ name, s.featureName f = .ok name)
    (represented : ∀ f ∈ features, ∃ indices, s.representatives f = .ok indices)
    (maps : SortedMap UInt32 String × SortedMap String (List UInt64)) :
    ∃ maps', features.foldlM (putFeature s) maps = .ok maps' ∧
      (∀ f ∈ features, ∃ name, s.featureName f = .ok name ∧ maps'.1.get? f = some name) ∧
      ∀ f ∉ features, maps'.1.get? f = maps.1.get? f := by
  induction features generalizing maps with
  | nil => exact ⟨maps, rfl, by simp, by simp⟩
  | cons f rest ih =>
    obtain ⟨name, called⟩ := named f List.mem_cons_self
    obtain ⟨indices, listed⟩ := represented f List.mem_cons_self
    have put : putFeature s maps f =
        .ok (maps.1.insert f name, maps.2.insert name (indices.map UInt64.ofNat)) := by
      rw [putFeature, called, listed]
      rfl
    obtain ⟨maps', all, present, kept⟩ :=
      ih (fun g member => named g (List.mem_cons_of_mem _ member))
        (fun g member => represented g (List.mem_cons_of_mem _ member))
        (maps.1.insert f name, maps.2.insert name (indices.map UInt64.ofNat))
    refine ⟨maps', ?_, ?_, ?_⟩
    · rw [List.foldlM_cons, put]
      exact all
    · intro g member
      by_cases again : g ∈ rest
      · exact present g again
      · obtain rfl : g = f := by simpa [again] using member
        exact ⟨name, called, by rw [kept g again, SortedMap.get?_insert_self]⟩
    · intro g absent
      rw [List.mem_cons, not_or] at absent
      rw [kept g absent.2, SortedMap.get?_insert_of_ne _ absent.1]

/-! ## Expectations -/

/-- The expectations of the tests below a count, in order. -/
theorem exists_expectations {count : Nat} (tests : ∀ index < count, ∃ t, s.test index = .ok t) :
    ∃ expectations, (List.range count).mapM (fun i => (s.test i).map (·.expected)) =
        .ok expectations ∧ expectations.length = count ∧
      ∀ index < count, ∃ t, s.test index = .ok t ∧ expectations[index]? = some t.expected := by
  have each : ∀ index ∈ List.range count, ∃ e, (s.test index).map (·.expected) = .ok e := by
    intro index member
    obtain ⟨t, found⟩ := tests index (List.mem_range.mp member)
    exact ⟨t.expected, by rw [found]; rfl⟩
  obtain ⟨expectations, related⟩ := exists_forall₂_iff.mpr each
  refine ⟨expectations, mapM_eq_ok_iff.mpr related, ?_, fun index below => ?_⟩
  · rw [← related.length_eq, List.length_range]
  · obtain ⟨lengths, here⟩ := List.forall₂_iff_get.mp related
    rw [List.length_range] at lengths
    have there : index < expectations.length := lengths ▸ below
    have expected := here index (by simpa using below) there
    obtain ⟨t, found, same⟩ := map_eq_ok_iff.mp expected
    refine ⟨t, by simpa using found, ?_⟩
    rw [List.getElem?_eq_getElem there, same]
    rfl

theorem exists_describes (tests : ∀ index < s.count, ∃ t, s.test index = .ok t)
    (named : ∀ f ∈ s.features, ∃ name, s.featureName f = .ok name)
    (represented : ∀ f ∈ s.features, ∃ indices, s.representatives f = .ok indices) :
    ∃ m, ofSuite s = .ok m ∧ m.Describes s := by
  obtain ⟨maps, put, present, -⟩ := foldlM_putFeature named represented (.empty, .empty)
  obtain ⟨expectations, listed, length, each⟩ := exists_expectations tests
  refine ⟨⟨maps.1, UInt64.ofNat s.sanityIndex, maps.2, expectations⟩, ?_, length, each, present⟩
  rw [ofSuite, featureMaps_eq, put]
  exact bind_eq_ok_iff.mpr ⟨maps, rfl, bind_eq_ok_iff.mpr ⟨expectations, listed, rfl⟩⟩

end ChainConformance.SuiteManifest
