import ChainConformance.Proofs.PathBuilding.RoundTrip
import Mathlib.Data.List.Nodup

/-!
# One label for every scenario that can be decoded

Many labels stand for one scenario: numbers may be written too long, fields may be repeated, split,
unknown or out of order, edges that are declared twice have two numbers. What is decoded can be
encoded again, to a label that depends on the scenario alone. Proved here, for catalogs in which
graphs are told apart by their names:

* `encodable_of_denotes`: what a message stands for has positions in the catalog;
* `length_toBytes_lt`: its identifier needs hardly more bytes than the message had;
* `decode_has_normal_label`: the label that is encoded is decoded to the same scenario.
-/

namespace ChainConformance.PathBuilding

variable {c : Catalog} {es : List Entry} {s : Scenario} {m : Identifier}

/-! ## Positions -/

theorem find?_of_distinct_names {α : Type} {name : α → String} {xs : List α}
    (distinct : (xs.map name).Nodup) {x : α} (member : x ∈ xs) :
    xs.find? (fun y => name y = name x) = some x := by
  cases found : xs.find? (fun y => name y = name x) with
  | none => exact absurd (List.find?_eq_none.mp found x member) (by simp)
  | some y =>
    have named : name y = name x := by simpa using List.find?_some found
    have same := List.inj_on_of_nodup_map distinct (List.mem_of_find?_eq_some found) member named
    rw [same]

theorem low_lt (n : Nat) : low n < UInt32.size := Nat.mod_lt n (by decide)

theorem low_le (n : Nat) : low n ≤ n := Nat.mod_le n UInt32.size

theorem index_le_of_denotes (h : Denotes c es s) {i : Nat}
    (found : c.indexOf? s.graph.name = some i) : i ≤ low (last .graph es) := by
  obtain ⟨_, -, before⟩ := List.findIdx?_eq_some_iff_getElem.mp found
  obtain ⟨bound, e⟩ := List.getElem?_eq_some_iff.mp h.graph
  rcases Nat.lt_or_ge (low (last .graph es)) i with earlier | later
  · exact absurd (decide_eq_true (congrArg TrustGraph.name e)) (before _ earlier)
  · exact later

/-- A scenario that a message stands for has positions in the catalog. -/
theorem encodable_of_denotes (distinct : (c.graphs.map (·.name)).Nodup) (h : Denotes c es s) :
    Encodable s c s.graph where
  first := find?_of_distinct_names distinct (List.mem_of_getElem? h.graph)
  source := List.mem_of_getElem? h.source
  target := List.mem_of_getElem? h.target
  broken e member := by
    obtain ⟨n, -, place⟩ := exists_of_mem_right h.broken member
    exact List.mem_of_getElem? place
  graphFits i found := Nat.lt_of_le_of_lt (index_le_of_denotes h found) (low_lt _)
  sourceFits i found := Nat.lt_of_le_of_lt (TrustGraph.le_of_indexOf? found h.source) (low_lt _)
  targetFits i found := Nat.lt_of_le_of_lt (TrustGraph.le_of_indexOf? found h.target) (low_lt _)
  brokenFits e member i found := by
    obtain ⟨n, -, place⟩ := exists_of_mem_right h.broken member
    exact Nat.lt_of_le_of_lt (TrustGraph.le_of_indexOf? found place) (low_lt n)

/-- Broken edges are numbered by their first declarations, which no number that was given for them
precedes. -/
theorem broken_le_of_denotes (h : Denotes c es s) (numbers : Numbers s c s.graph m) :
    List.Forall₂ (· ≤ ·) (m.broken.map (·.toNat)) (listed es) := by
  rw [List.forall₂_map_left_iff]
  have pairs := numbers.broken.flip
  have given := h.broken.flip
  generalize s.broken = broken at pairs given
  generalize m.broken = positions at pairs ⊢
  generalize listed es = ns at given ⊢
  induction pairs generalizing ns with
  | nil =>
    cases given
    exact .nil
  | cons found _ ih =>
    cases given with
    | cons place others =>
      exact .cons (Nat.le_trans (TrustGraph.le_of_indexOf? found place) (low_le _)) (ih _ others)

/-! ## Lengths -/

theorem length_of_holds {label : String} {b : Bytes} (h : Holds label b) :
    8 * b.length ≤ 5 * label.length := by
  have bits := Base32.bits_le_of_isText h
  obtain ⟨ns, below, text, -⟩ := h
  -- every symbol is one character, so the upper-case text has as many characters as bytes
  have spelled : Text.upper label = String.ofList
      (ns.map fun n => Char.toUpper (Char.ofNat (Base32.symbol n).toNat)) := by
    have same : Bytes.ofString (Text.upper label) = Bytes.ofString (String.ofList
        (ns.map fun n => Char.toUpper (Char.ofNat (Base32.symbol n).toNat))) := by
      rw [text, Bytes.ofString_ofList, List.flatMap_map, List.map_eq_flatMap]
      exact List.flatMap_congr fun n member => (utf8EncodeChar_symbol n (below n member)).symm
    have read := congrArg Bytes.text? same
    rwa [Bytes.text?_ofString, Bytes.text?_ofString, Option.some.injEq] at read
  have characters := congrArg String.length spelled
  rw [Text.upper, String.length_ofList, String.length_ofList, List.length_map, List.length_map,
    String.length_toList] at characters
  rw [text, List.length_map] at bits
  omega

theorem length_toBytes_le (m : Identifier)
    (small : ((m.broken.map (·.toNat)).flatMap Wire.varint).length < UInt64.size) :
    m.toBytes.length ≤ ((m.broken.map (·.toNat)).flatMap Wire.varint).length + 55 := by
  have fits : ∀ n : UInt32, n.toNat < UInt64.size := fun n => Nat.lt_trans n.toNat_lt (by decide)
  have graph := Wire.length_writeNumber_le 1 (by decide) (fits m.graph)
  have source := Wire.length_writeNumber_le 2 (by decide) (fits m.source)
  have target := Wire.length_writeNumber_le 3 (by decide) (fits m.target)
  have broken := Wire.length_writePacked_le 4 (by decide) small
  have defect := Wire.length_writeNumber_le 5 (by decide) (fits m.defect)
  simp only [Identifier.toBytes, List.length_append]
  omega

/-- The identifier of what a label holds has fewer than 2^64 bytes, as the label has characters. -/
theorem length_toBytes_lt {label : String} {b : Bytes} {depth : Nat} (holds : Holds label b)
    (short : label.length < UInt64.size) (message : IsMessage depth b es) (h : Denotes c es s)
    (numbers : Numbers s c s.graph m) : m.toBytes.length < UInt64.size := by
  have read := length_of_holds holds
  have listed := message.length_listed_le
  have written := Wire.length_flatMap_varint_mono (broken_le_of_denotes h numbers)
  change label.length < 18446744073709551616 at short
  have total := length_toBytes_le m (by
    change _ < 18446744073709551616
    omega)
  change _ < 18446744073709551616
  omega

/-! ## The normal label -/

section
variable {label l : String} {d : Scenario} (distinct : (c.graphs.map (·.name)).Nodup)
include distinct

/-- What is decoded can be encoded. -/
theorem exists_encode_of_decode (h : decode label c = .ok d) : ∃ l, encode d c = .ok l := by
  obtain ⟨b, m, -, read, found⟩ := decode_eq_ok_iff.mp h
  obtain ⟨es, -, rfl⟩ := Identifier.isMessage_of_ofBytes read
  have encodable := encodable_of_denotes distinct (resolve_ofEntries.mp found)
  obtain ⟨m, numbers⟩ := exists_numbers_iff.mpr encodable
  exact ⟨_, encode_eq_ok_iff.mpr ⟨m, identify_eq_ok_iff.mpr ⟨d.graph, numbers⟩, rfl⟩⟩

/-- The label of what is decoded leads back to it, in upper, lower or mixed case. -/
theorem decode_of_encode_of_decode (short : label.length < UInt64.size)
    (h : decode label c = .ok d) (encoded : encode d c = .ok l) {l' : String}
    (same : Text.upper l' = Text.upper l) : decode l' c = .ok d := by
  obtain ⟨b, _, holds, read, found⟩ := decode_eq_ok_iff.mp h
  obtain ⟨es, message, rfl⟩ := Identifier.isMessage_of_ofBytes read
  have denotes := resolve_ofEntries.mp found
  obtain ⟨m, numbered, rfl⟩ := encode_eq_ok_iff.mp encoded
  obtain ⟨g, numbers⟩ := identify_eq_ok_iff.mp numbered
  have first := (exists_numbers_iff.mp ⟨m, numbers⟩).first
  rw [(encodable_of_denotes distinct denotes).first] at first
  cases first
  have fits := length_toBytes_lt holds short message denotes numbers
  have resolved : resolve m c = .ok d := by
    rw [resolve_of_numbers numbers, isNone_path?_eq_iff.mpr denotes.hint, ← denotes.comment]
  exact decode_of_holds (holds_encode same) fits resolved

end

/-- What is decoded has a normal label. It is decoded to the same scenario, in upper, lower or mixed
case, that scenario has it again, and no other scenario that can be decoded has it. The labels that
are read are shorter than 2^64, as any text of the machine is. -/
theorem decode_has_normal_label (c : Catalog) (distinct : (c.graphs.map (·.name)).Nodup)
    (label : String) (short : label.length < UInt64.size) (d : Scenario)
    (h : decode label c = .ok d) :
    ∃ l, encode d c = .ok l ∧ decode l c = .ok d ∧ decode l c >>= (encode · c) = .ok l ∧
      (∀ l', Text.upper l' = Text.upper l → decode l' c = .ok d) ∧
      ∀ label' d', label'.length < UInt64.size → decode label' c = .ok d' →
        encode d' c = .ok l → d' = d := by
  obtain ⟨l, encoded⟩ := exists_encode_of_decode distinct h
  have decoded := decode_of_encode_of_decode distinct short h encoded rfl
  refine ⟨l, encoded, decoded, bind_eq_ok_iff.mpr ⟨d, decoded, encoded⟩, ?_, ?_⟩
  · intro l' same
    exact decode_of_encode_of_decode distinct short h encoded same
  · intro label' d' short' h' encoded'
    have decoded' := decode_of_encode_of_decode distinct short' h' encoded' rfl
    exact Except.ok.inj (decoded'.symm.trans decoded)

/-- A catalog whose second graph declares an edge twice. -/
def doubled : Catalog :=
  ⟨7, [.linear, .ofPairs "DOUBLED" [("R", "I"), ("I", "E"), ("R", "I")]]⟩

/-- In lower case, with numbers that are too long, unknown fields and a group, repeated scalars,
edges one by one and packed, and the second number of an edge. -/
def crooked : String := "bacrbaqagia76iacbcaqaoyiae6cea4baabcqajiaq"

/-- The crooked label has a straight one. -/
theorem normal_label_of_crooked : ∃ d, decode crooked doubled = .ok d ∧
    d.broken = [⟨"R", "I"⟩, ⟨"I", "E"⟩, ⟨"R", "I"⟩] ∧
    encode d doubled = .ok "BAARAARCAMAACABIAQ" ∧ decode "baaraarcamaacabiaq" doubled = .ok d := by
  have succeeds : ((decode crooked doubled).map (·.broken)).toOption =
      some [⟨"R", "I"⟩, ⟨"I", "E"⟩, ⟨"R", "I"⟩] := by
    decide +kernel
  cases read : decode crooked doubled with
  | error e =>
    rw [read] at succeeds
    cases succeeds
  | ok d =>
    rw [read] at succeeds
    obtain ⟨l, encoded, -, -, respelled, -⟩ :=
      decode_has_normal_label doubled (by decide) crooked (by decide) d read
    have printed : (decode crooked doubled >>= (encode · doubled)).toOption =
        some "BAARAARCAMAACABIAQ" := by
      decide +kernel
    rw [read] at printed
    change (encode d doubled).toOption = _ at printed
    rw [encoded] at printed
    cases printed
    exact ⟨d, rfl, Option.some.inj succeeds, encoded, respelled _ (by decide +kernel)⟩

end ChainConformance.PathBuilding
