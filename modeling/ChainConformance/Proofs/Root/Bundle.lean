import ChainConformance.Proofs.Crypto.KeyPair
import ChainConformance.Proofs.PathBuilding.RootName

/-!
# Root bundles

A bundle holds its root in two blocks, the first certificate and the first private key. Proved here:

* `ofPem_of_adds`: adding blocks of other labels anywhere, or of these two after the first of each,
  leaves the root as it is; `adds_of_parts` says what such an addition is in a written bundle;
* `bundle_stable`: this for any number of additions, with the root read back from what it is
  written as, and the error where one of the two blocks is missing.
-/

namespace ChainConformance.Root

variable {input input' : Bytes} {root : Root}

/-! ## First blocks -/

theorem firstBlock?_append (label : String) (before after : List Pem.Block) :
    firstBlock? label (before ++ after) =
      (firstBlock? label before).or (firstBlock? label after) := by
  rw [firstBlock?, List.find?_append, Option.map_or]
  rfl

theorem firstBlock?_eq_none_iff {label : String} {blocks : List Pem.Block} :
    firstBlock? label blocks = none ↔ ∀ b ∈ blocks, b.label ≠ label := by
  simp [firstBlock?]

theorem firstBlock?_eq_some_iff {label : String} {blocks : List Pem.Block} {contents : Bytes} :
    firstBlock? label blocks = some contents ↔ ∃ before after,
      blocks = before ++ ⟨label, contents⟩ :: after ∧ ∀ b ∈ before, b.label ≠ label := by
  rw [firstBlock?, Option.map_eq_some_iff]
  simp only [List.find?_eq_some_iff_append, decide_eq_true_eq, Bool.not_eq_true',
    decide_eq_false_iff_not]
  constructor
  · rintro ⟨b, ⟨rfl, before, after, split, others⟩, rfl⟩
    exact ⟨before, after, split, others⟩
  · rintro ⟨before, after, split, others⟩
    exact ⟨⟨label, contents⟩, ⟨rfl, before, after, split, others⟩, rfl⟩

/-- Blocks in between change nothing, if they only repeat the label where it was seen before. -/
theorem firstBlock?_insert {label : String} {before blocks : List Pem.Block}
    (repeats : ∀ b ∈ blocks, b.label = label → ∃ first ∈ before, first.label = label)
    (after : List Pem.Block) :
    firstBlock? label (before ++ (blocks ++ after)) = firstBlock? label (before ++ after) := by
  rw [firstBlock?_append, firstBlock?_append, firstBlock?_append]
  cases seen : firstBlock? label before with
  | some contents => rfl
  | none =>
    have others := firstBlock?_eq_none_iff.mp seen
    have absent : firstBlock? label blocks = none :=
      firstBlock?_eq_none_iff.mpr fun b member labelled =>
        let ⟨first, earlier, same⟩ := repeats b member labelled
        others first earlier same
    rw [absent]
    rfl

/-! ## Additions -/

/-- The second text is the first one with lines added where no block is open. The lines hold whole
blocks, and those that could be taken for the root's come after the ones that are. -/
inductive Adds (input input' : Bytes) : Prop
  | between (front added back : List Bytes) (before blocks : List Pem.Block)
      (whole : Pem.lines input = front ++ back)
      (whole' : Pem.lines input' = front ++ (added ++ back))
      (ahead : Pem.blocksOfLines none front = .ok before)
      (complete : Pem.blocksOfLines none added = .ok blocks)
      (repeats : ∀ label ∈ ["CERTIFICATE", "PRIVATE KEY"], ∀ b ∈ blocks, b.label = label →
        ∃ first ∈ before, first.label = label)

/-- The blocks of the longer text are those of the shorter one with some in between. -/
theorem exists_blocks_of_adds {all : List Pem.Block} (adds : Adds input input')
    (read : pemBlocks input = .ok all) : ∃ before blocks after, all = before ++ after ∧
      pemBlocks input' = .ok (before ++ (blocks ++ after)) ∧
      ∀ label ∈ ["CERTIFICATE", "PRIVATE KEY"], ∀ b ∈ blocks, b.label = label →
        ∃ first ∈ before, first.label = label := by
  obtain ⟨front, added, back, before, blocks, whole, whole', ahead, complete, repeats⟩ := adds
  rw [pemBlocks, mapError_eq_ok_iff, Pem.read, whole, Pem.blocksOfLines_append ahead] at read
  obtain ⟨after, rest, rfl⟩ := map_eq_ok_iff.mp read
  refine ⟨before, blocks, after, rfl, ?_, repeats⟩
  rw [pemBlocks, Pem.read, whole', Pem.blocksOfLines_append ahead,
    Pem.blocksOfLines_append complete, rest]
  rfl

theorem ofPem_of_adds (read : ofPem input = .ok root) (adds : Adds input input') :
    ofPem input' = .ok root := by
  obtain ⟨all, pkcs8, issuer, held, certificate, key, usable, issues⟩ := ofPem_eq_ok_iff.mp read
  obtain ⟨before, blocks, after, rfl, held', repeats⟩ := exists_blocks_of_adds adds held
  refine ofPem_eq_ok_iff.mpr ⟨_, pkcs8, issuer, held', ?_, ?_, usable, issues⟩
  · rwa [firstBlock?_insert (repeats _ (by simp))]
  · rwa [firstBlock?_insert (repeats _ (by simp))]

theorem ofPem_of_additions (read : ofPem input = .ok root)
    (adds : Relation.ReflTransGen Adds input input') : ofPem input' = .ok root := by
  induction adds with
  | refl => exact read
  | tail _ last ih => exact ofPem_of_adds ih last

section
variable {ending : List Char} {rest : List String}

/-- The lines of parts, as they stand in the bytes of a bundle. -/
def encodedLines (ending : List Char) (parts : List (List String × Pem.Block)) : List Bytes :=
  (parts.flatMap Bundle.partLines).map fun line => Pem.encoded (line ++ ending)

theorem blocksOfLines_encodedLines (e : Pem.IsEnding ending)
    {parts : List (List String × Pem.Block)} (wellFormed : Bundle.WellFormed ⟨parts, rest⟩) :
    Pem.blocksOfLines none (encodedLines ending parts) = .ok (parts.map (·.2)) := by
  have read : Pem.blocksOfLines none (encodedLines ending parts ++ []) =
      .ok (parts.map (·.2) ++ []) :=
    Bundle.blocksOfLines_parts e (fun part h => (wellFormed.labels part.2 (Bundle.mem_blocks h)).1)
      (fun part h line member => (wellFormed.fillers line (Bundle.mem_fillers h member)).2) rfl
  rwa [List.append_nil, List.append_nil] at read

theorem wellFormed_of_subset {parts others : List (List String × Pem.Block)}
    (wellFormed : Bundle.WellFormed ⟨parts, rest⟩) (within : others ⊆ parts) :
    Bundle.WellFormed ⟨others, rest⟩ where
  labels := by
    intro block member
    obtain ⟨part, inParts, rfl⟩ := List.mem_map.mp member
    exact wellFormed.labels _ (Bundle.mem_blocks (within inParts))
  fillers := by
    intro line member
    rcases List.mem_append.mp member with inPart | inRest
    · obtain ⟨part, inParts, before⟩ := List.mem_flatMap.mp inPart
      exact wellFormed.fillers line (Bundle.mem_fillers (within inParts) before)
    · exact wellFormed.fillers line (List.mem_append_right _ inRest)

/-- Parts written into a bundle between two of its own, or at its ends, are an addition, whatever
the ends of the lines are. -/
theorem adds_of_parts (e : Pem.IsEnding ending)
    (front added back : List (List String × Pem.Block)) {text text' : String}
    (wellFormed : Bundle.WellFormed ⟨front ++ (added ++ back), rest⟩)
    (written : text.toList =
      (Bundle.lines ⟨front ++ back, rest⟩).flatMap (· ++ (ending ++ ['\n'])))
    (written' : text'.toList =
      (Bundle.lines ⟨front ++ (added ++ back), rest⟩).flatMap (· ++ (ending ++ ['\n'])))
    (repeats : ∀ label ∈ ["CERTIFICATE", "PRIVATE KEY"], ∀ b ∈ added.map (·.2), b.label = label →
      ∃ first ∈ front.map (·.2), first.label = label) :
    Adds (Bytes.ofString text) (Bytes.ofString text') := by
  have shorter : Bundle.WellFormed ⟨front ++ back, rest⟩ :=
    wellFormed_of_subset wellFormed (by simp)
  refine .between (encodedLines ending front) (encodedLines ending added)
    (encodedLines ending back ++ (rest.map fun line => Pem.encoded (line.toList ++ ending)) ++ [[]])
    (front.map (·.2)) (added.map (·.2)) ?_ ?_ ?_ ?_ repeats
  · rw [Bundle.lines_of_text e shorter written]
    simp [Bundle.lines, encodedLines, Function.comp_def]
  · rw [Bundle.lines_of_text e wellFormed written']
    simp [Bundle.lines, encodedLines, Function.comp_def]
  · exact blocksOfLines_encodedLines e (wellFormed_of_subset wellFormed (by simp))
  · exact blocksOfLines_encodedLines e
      (wellFormed_of_subset wellFormed fun part h => by simp [h])

end

/-! ## What decides the root -/

/-- A bundle that some root is read from gives the same root when it is written anew, and whatever
is added to it: the root is the first certificate with the first private key. Where the blocks can
be read but one of the two is missing, the error is about the bundle. -/
theorem bundle_stable :
    (∀ input root, ofPem input = .ok root →
      ofPem (Bytes.ofString root.pem) = .ok root ∧
      (∃ blocks, pemBlocks input = .ok blocks ∧
        (∃ before after, blocks = before ++ ⟨"CERTIFICATE", root.certificate⟩ :: after ∧
          ∀ b ∈ before, b.label ≠ "CERTIFICATE") ∧
        ∃ before after, blocks = before ++ ⟨"PRIVATE KEY", root.key.pkcs8⟩ :: after ∧
          ∀ b ∈ before, b.label ≠ "PRIVATE KEY") ∧
      ∀ input', Relation.ReflTransGen Adds input input' → ofPem input' = .ok root) ∧
    ∀ input blocks, pemBlocks input = .ok blocks →
      (∀ b ∈ blocks, b.label ≠ "CERTIFICATE") ∨ (∀ b ∈ blocks, b.label ≠ "PRIVATE KEY") →
      ∃ e, ofPem input = .error e ∧ e.kind = .pem ∧
        (e = .bundle .noCertificate ↔ ∀ b ∈ blocks, b.label ≠ "CERTIFICATE") := by
  constructor
  · intro input root read
    obtain ⟨blocks, pkcs8, issuer, held, certificate, key, usable, issues⟩ :=
      ofPem_eq_ok_iff.mp read
    obtain rfl : root.key.pkcs8 = pkcs8 := KeyPair.pkcs8_of_read? usable
    exact ⟨ofPem_pem usable issues, ⟨blocks, held, firstBlock?_eq_some_iff.mp certificate,
      firstBlock?_eq_some_iff.mp key⟩, fun input' adds => ofPem_of_additions read adds⟩
  · intro input blocks held missing
    simp only [← firstBlock?_eq_none_iff] at missing ⊢
    cases certificate : firstBlock? "CERTIFICATE" blocks with
    | none =>
      have refused : ofPem input = .error (.bundle .noCertificate) := by
        simp [ofPem, held, ok_bind, certificate]
      exact ⟨_, refused, rfl, by simp⟩
    | some contents =>
      have key : firstBlock? "PRIVATE KEY" blocks = none :=
        missing.resolve_left (by simp [certificate])
      have refused : ofPem input = .error (.bundle .noPrivateKey) := by
        simp [ofPem, held, ok_bind, certificate, key]
      exact ⟨_, refused, rfl, by simp⟩

open PathBuilding in
/-- The key stands before the certificate, with lines of other text around both. -/
def keyFirst : List (List String × Pem.Block) :=
  [(["Bag Attributes"], ⟨"PRIVATE KEY", (namedRoot threeKinds).key.pkcs8⟩),
    (["", "subject=CN=root"], ⟨"CERTIFICATE", (namedRoot threeKinds).certificate⟩)]

/-- A list of revoked certificates. -/
def revoked : List String × Pem.Block := (["none"], ⟨"X509 CRL", [0x30, 0x00]⟩)

/-- A second block of either label, from which no root could be read. -/
def seconds : List (List String × Pem.Block) :=
  [([], ⟨"CERTIFICATE", [0x05, 0x00]⟩), ([], ⟨"PRIVATE KEY", []⟩)]

/-- The bundle with the parts and a last line. -/
def bundleOf (parts : List (List String × Pem.Block)) : Bundle := ⟨parts, ["end"]⟩

open PathBuilding in
/-- A block of another label goes in front of the root's, the second blocks go behind them. The
certificate alone is no bundle. -/
theorem bundle_stable_of_key_first :
    ofPem (Bytes.ofString (bundleOf keyFirst).text) = .ok (namedRoot threeKinds) ∧
      Relation.ReflTransGen Adds (Bytes.ofString (bundleOf keyFirst).text)
        (Bytes.ofString (bundleOf (revoked :: keyFirst ++ seconds)).text) ∧
      ofPem (Bytes.ofString (bundleOf (revoked :: keyFirst ++ seconds)).text) =
        .ok (namedRoot threeKinds) ∧
      ofPem (Bytes.ofString (namedRoot threeKinds).pem) = .ok (namedRoot threeKinds) ∧
      pemBlocks (Bytes.ofString (bundleOf [revoked, seconds[0]]).text) =
        .ok [⟨"X509 CRL", [0x30, 0x00]⟩, ⟨"CERTIFICATE", [0x05, 0x00]⟩] ∧
      ∃ e, ofPem (Bytes.ofString (bundleOf [revoked, seconds[0]]).text) = .error e ∧
        e.kind = .pem := by
  have wellFormed : (bundleOf (revoked :: keyFirst ++ seconds)).WellFormed :=
    ⟨by decide, by decide⟩
  have two : (bundleOf (revoked :: keyFirst)).WellFormed :=
    wellFormed_of_subset wellFormed (List.subset_append_left ..)
  obtain ⟨issuer, issues⟩ : ∃ issuer, (namedRoot threeKinds).issuer = .ok issuer :=
    exists_ok_of_toBool (by decide +kernel)
  have held := Bundle.pemBlocks_text (Or.inl rfl)
    (wellFormed_of_subset two (List.subset_cons_self ..)) (Bundle.toList_text (bundleOf keyFirst))
  have read : ofPem (Bytes.ofString (bundleOf keyFirst).text) = .ok (namedRoot threeKinds) :=
    ofPem_eq_ok_iff.mpr ⟨_, _, issuer, held, rfl, rfl, read?_ofP256_one, issues⟩
  have front : Adds (Bytes.ofString (bundleOf keyFirst).text)
      (Bytes.ofString (bundleOf (revoked :: keyFirst)).text) :=
    adds_of_parts (Or.inl rfl) [] [revoked] keyFirst two (Bundle.toList_text (bundleOf keyFirst))
      (Bundle.toList_text (bundleOf (revoked :: keyFirst))) (by decide)
  have back : Adds (Bytes.ofString (bundleOf (revoked :: keyFirst)).text)
      (Bytes.ofString (bundleOf (revoked :: keyFirst ++ seconds)).text) :=
    adds_of_parts (Or.inl rfl) (revoked :: keyFirst) seconds [] wellFormed
      (Bundle.toList_text (bundleOf (revoked :: keyFirst)))
      (Bundle.toList_text (bundleOf (revoked :: keyFirst ++ seconds))) (by decide)
  have adds := (Relation.ReflTransGen.single front).tail back
  have incomplete := Bundle.pemBlocks_text (Or.inl rfl)
    (wellFormed_of_subset wellFormed (by simp [seconds]))
    (Bundle.toList_text (bundleOf [revoked, seconds[0]]))
  obtain ⟨again, -, kept⟩ := bundle_stable.1 _ _ read
  obtain ⟨e, refused, kind, -⟩ := bundle_stable.2 _ _ incomplete (Or.inr (by decide))
  exact ⟨read, adds, kept _ adds, again, incomplete, e, refused, kind⟩

end ChainConformance.Root
