import ChainConformance.Proofs.PathBuilding.Length
import ChainConformance.Proofs.PathBuilding.Oracle
import ChainConformance.Proofs.Server.Lookup

/-!
# Server names that hold a scenario

A server in the mode for encoded names makes the chain of the scenario that the first label of the
server name stands for, unless that label is the one for verification. Proved here:

* `firstLabel_append`: the first label of a name that starts with the label of a scenario;
* `not_verify_of_encode`: no scenario has the label for verification, in any case of its letters;
* `serves_encoded_name`: which chain a server name gets.
-/

namespace ChainConformance

theorem Collection.of_ofRoot {root : Root} {c : Collection}
    (made : Collection.ofRoot root = .ok c) : c.root = root ∧ c.catalog = .standard := by
  simp only [Collection.ofRoot, bind_eq_ok_iff, pure_eq_ok_iff] at made
  obtain ⟨names, -, paths, -, rfl⟩ := made
  exact ⟨rfl, rfl⟩

namespace Server

variable {c : Catalog} {s : PathBuilding.Scenario} {label label' : String}

/-! ## First labels -/

/-- A label is the whole of a name, or what stands before its first point. -/
theorem firstLabel_append (inner : ∀ x ∈ label.toList, x ≠ '.') {suffix : String}
    (starts : suffix = "" ∨ ∃ rest, suffix = "." ++ rest) :
    firstLabel (label ++ suffix) = label := by
  rw [firstLabel, String.toList_append, List.takeWhile_append_of_pos (by simpa using inner)]
  have ends : suffix.toList.takeWhile (· ≠ '.') = [] := by
    rcases starts with rfl | ⟨rest, rfl⟩
    · rfl
    · rw [String.toList_append]
      rfl
  rw [ends, List.append_nil, String.ofList_toList]

/-- No spelling of a scenario's label has a point. -/
theorem ne_point_of_encode (encoded : PathBuilding.encode s c = .ok label)
    (same : Text.upper label' = Text.upper label) : ∀ x ∈ label'.toList, x ≠ '.' := by
  rintro _ member rfl
  have raised : '.' ∈ label.toList := by
    rw [← PathBuilding.upper_of_encode encoded, ← same, Text.upper, String.toList_ofList]
    exact List.mem_map.mpr ⟨'.', member, rfl⟩
  have none : ¬ PathBuilding.IsSymbol '.' := by
    simp only [PathBuilding.IsSymbol]
    decide
  exact none (PathBuilding.mem_encode encoded '.' raised)

/-- Five bits a character, a label of six characters would hold three bytes and six bits. -/
theorem not_verify_of_encode (encoded : PathBuilding.encode s c = .ok label)
    (same : Text.upper label' = Text.upper label) :
    Text.sameIgnoringCase label' verifyLabel = false := by
  obtain ⟨m, -, length⟩ := PathBuilding.length_encode encoded
  refine decide_eq_false fun verify => ?_
  have six := congrArg String.length (same.symm.trans verify)
  rw [Text.length_upper, Text.length_upper, length] at six
  change _ = 6 at six
  omega

/-! ## The chain for a name -/

section
variable {collection : Collection} {name : String}

theorem chain_of_encodedScenario {d : PathBuilding.Scenario}
    (scenario : encodedScenario collection.catalog name = .ok d)
    (selected : Option SelectedTest) (draws : X509.Draws) :
    chain ⟨collection, .encodedName, selected⟩ draws (some name) =
      d.chain collection.root draws name := by
  rw [chain]
  dsimp only
  rw [scenario]
  rfl

theorem encodedScenario_of_decode {d : PathBuilding.Scenario}
    (other : Text.sameIgnoringCase (firstLabel name) verifyLabel = false)
    (decoded : PathBuilding.decode (firstLabel name) c = .ok d) :
    encodedScenario c name = .ok d := by
  rw [encodedScenario, other]
  exact decoded

theorem encodedScenario_of_verify
    (verify : Text.sameIgnoringCase (firstLabel name) verifyLabel = true) :
    encodedScenario .standard name = .ok (.sound .linear "Trust Anchor" "ICA") := by
  rw [encodedScenario, if_pos verify]
  rfl

end

/-- The second scenario is the first one over the graph that the catalog has under its name, which
is the graph of the first one if the catalog has that. -/
structure Restores (c : Catalog) (s d : PathBuilding.Scenario) : Prop where
  graph : c.graphs.find? (·.name = s.graph.name) = some d.graph
  own : s.graph ∈ c.graphs → d.graph = s.graph
  source : d.source = s.source
  target : d.target = s.target
  broken : d.broken = s.broken
  defect : d.defect = s.defect

/-- Any spelling of a scenario's label is decoded to the scenario. -/
theorem exists_restores (distinct : (c.graphs.map (·.name)).Nodup)
    (encoded : PathBuilding.encode s c = .ok label) (short : label.length < UInt64.size)
    (same : Text.upper label' = Text.upper label) :
    ∃ d, PathBuilding.decode label' c = .ok d ∧ Restores c s d := by
  obtain ⟨m, numbered, rfl⟩ := PathBuilding.encode_eq_ok_iff.mp encoded
  obtain ⟨g, numbers⟩ := PathBuilding.identify_eq_ok_iff.mp numbered
  have found := (PathBuilding.exists_numbers_iff.mp ⟨m, numbers⟩).first
  have fits := Nat.lt_of_le_of_lt (PathBuilding.length_le_of_encode m.toBytes) short
  have decoded := PathBuilding.decode_of_holds (PathBuilding.holds_encode same) fits
    (PathBuilding.resolve_of_numbers numbers)
  refine ⟨_, decoded, found, fun member => ?_, rfl, rfl, rfl, rfl⟩
  rw [PathBuilding.find?_of_distinct_names distinct member] at found
  exact (Option.some.inj found).symm

/-- A name that starts with the label of a scenario, in any case of its letters, gets the chain of
the scenario that the label is decoded to, made for the whole name. The label for verification is
none of these, and always gets the chain of one certificate under the root. Labels are shorter than
2^64, as any text of the machine is. -/
theorem serves_encoded_name (root : Root) : ∃ c, Collection.ofRoot root = .ok c ∧
    (∀ s label, PathBuilding.encode s c.catalog = .ok label → label.length < UInt64.size →
      ∀ label' suffix, Text.upper label' = Text.upper label →
        (suffix = "" ∨ ∃ rest, suffix = "." ++ rest) →
        Text.sameIgnoringCase (firstLabel (label' ++ suffix)) verifyLabel = false ∧
        ∃ d, PathBuilding.decode label' c.catalog = .ok d ∧ Restores c.catalog s d ∧
          ∀ selected draws, chain ⟨c, .encodedName, selected⟩ draws (some (label' ++ suffix)) =
            d.chain root draws (label' ++ suffix)) ∧
    ∀ name, Text.sameIgnoringCase (firstLabel name) verifyLabel = true →
      (∀ s label, PathBuilding.encode s c.catalog = .ok label →
        Text.upper (firstLabel name) ≠ Text.upper label) ∧
      ∀ selected draws, chain ⟨c, .encodedName, selected⟩ draws (some name) =
        (PathBuilding.Scenario.sound .linear "Trust Anchor" "ICA").chain root draws name := by
  obtain ⟨c, made, -⟩ := Collection.exists_ofRoot root
  obtain ⟨rfl, standard⟩ := Collection.of_ofRoot made
  refine ⟨c, made, ?_, ?_⟩
  · intro s label encoded short label' suffix same starts
    have first := firstLabel_append (ne_point_of_encode encoded same) starts
    have other := not_verify_of_encode encoded same
    have distinct := PathBuilding.distinct_standard
    rw [← standard] at distinct
    obtain ⟨d, decoded, restores⟩ := exists_restores distinct encoded short same
    refine ⟨first.symm ▸ other, d, decoded, restores, ?_⟩
    exact chain_of_encodedScenario
      (encodedScenario_of_decode (first.symm ▸ other) (first.symm ▸ decoded))
  · intro name verify
    refine ⟨fun s label encoded same => ?_, chain_of_encodedScenario ?_⟩
    · rw [not_verify_of_encode encoded same] at verify
      cases verify
    · rw [standard]
      exact encodedScenario_of_verify verify

/-- A name with the label of a scenario in mixed case. -/
theorem encoded_name_of_looped : ∃ c d, Collection.ofRoot PathBuilding.unsignedRoot = .ok c ∧
    PathBuilding.decode "babbabayaMRAGBABAQUAC" c.catalog = .ok d ∧
    d.graph = .figureSeven ∧ d.broken = PathBuilding.looped.broken ∧ ∀ selected draws,
      chain ⟨c, .encodedName, selected⟩ draws (some "babbabayaMRAGBABAQUAC.example.com") =
        d.chain PathBuilding.unsignedRoot draws "babbabayaMRAGBABAQUAC.example.com" := by
  obtain ⟨c, made, encoded, -⟩ := serves_encoded_name PathBuilding.unsignedRoot
  obtain ⟨-, standard⟩ := Collection.of_ofRoot made
  have printed : PathBuilding.encode PathBuilding.looped c.catalog =
      .ok "BABBABAYAMRAGBABAQUAC" := by
    rw [standard, PathBuilding.encode_eq_ok_iff]
    exact ⟨⟨2, 4, 3, [4, 1, 4], 1⟩, by decide +kernel, by decide +kernel⟩
  obtain ⟨-, d, decoded, restores, served⟩ := encoded _ _ printed (by decide)
    "babbabayaMRAGBABAQUAC" ".example.com" (by decide +kernel) (Or.inr ⟨"example.com", rfl⟩)
  have own : d.graph = .figureSeven := restores.own (standard ▸ by decide +kernel)
  exact ⟨c, d, made, decoded, own, restores.broken, served⟩

end Server

end ChainConformance
