import ChainConformance.Proofs.PathBuilding.NormalForm
import Mathlib.Data.List.Perm.Subperm

/-!
# How long labels are

A label of a host name has between 1 and 63 characters. The label of a scenario has five bits a
character; how many bits there are depends on which of its numbers are zero and on how many edges
are broken. Proved here:

* `mem_encode`, `length_encode`: the characters of a label, and how many there are;
* `length_toBytes`: the bytes of a message whose numbers are below 128;
* `label_fits_iff`: which scenarios over the standard graphs have a label that fits;
* `labels_do_not_fit`: with all edges of the largest graph broken the label is too long, and with
  nothing but zeros it is empty.
-/

namespace ChainConformance.PathBuilding

variable {s : Scenario} {c : Catalog} {g : TrustGraph} {m : Identifier} {label : String}

/-! ## Characters -/

/-- The symbols of base-32 texts. -/
def IsSymbol (x : Char) : Prop := ('A' ≤ x ∧ x ≤ 'Z') ∨ ('2' ≤ x ∧ x ≤ '7')

theorem isSymbol_symbol : ∀ n < 32, IsSymbol (Char.ofNat (Base32.symbol n).toNat) := by
  simp only [IsSymbol]
  decide

/-- Symbols are no lower-case letters. -/
theorem IsSymbol.toUpper {x : Char} (symbol : IsSymbol x) : x.toUpper = x := by
  have below : x.toNat < 'a'.toNat := by
    rcases symbol with ⟨-, high⟩ | ⟨-, high⟩
    · exact Nat.lt_of_le_of_lt (UInt32.le_iff_toNat_le.mp high) (by decide)
    · exact Nat.lt_of_le_of_lt (UInt32.le_iff_toNat_le.mp high) (by decide)
  refine dif_neg ?_
  rintro ⟨low, -⟩
  exact Nat.not_le_of_lt below (UInt32.le_iff_toNat_le.mp low)

theorem mem_encode (h : encode s c = .ok label) : ∀ x ∈ label.toList, IsSymbol x := by
  obtain ⟨m, -, rfl⟩ := encode_eq_ok_iff.mp h
  intro x member
  rw [String.toList_ofList, List.mem_map] at member
  obtain ⟨b, symbol, rfl⟩ := member
  obtain ⟨ns, below, text, -⟩ := Base32.isText_encode m.toBytes
  rw [text, List.mem_map] at symbol
  obtain ⟨n, listed, rfl⟩ := symbol
  exact isSymbol_symbol n (below n listed)

theorem upper_of_encode (h : encode s c = .ok label) : Text.upper label = label := by
  have kept : label.toList.map Char.toUpper = label.toList :=
    (List.map_congr_left fun x member => (mem_encode h x member).toUpper).trans (List.map_id _)
  rw [Text.upper, kept, String.ofList_toList]

/-- A label has as many characters as the bits of some bytes need. -/
theorem length_encode (h : encode s c = .ok label) :
    ∃ m, identify s c = .ok m ∧ label.length = (8 * m.toBytes.length + 4) / 5 := by
  obtain ⟨m, identified, rfl⟩ := encode_eq_ok_iff.mp h
  exact ⟨m, identified, by rw [String.length_ofList, List.length_map, Base32.length_encode]⟩

/-! ## Bytes -/

/-- The bytes of a number: none for zero, otherwise a key and the number. -/
def numberLength (n : UInt32) : Nat := if n = 0 then 0 else 2

/-- A message with small numbers takes two bytes for every number that is not zero and, if edges
are broken, one byte for each of them and two for the list. -/
theorem length_toBytes (graph : m.graph.toNat < 128) (source : m.source.toNat < 128)
    (target : m.target.toNat < 128) (defect : m.defect.toNat < 128)
    (broken : ∀ n ∈ m.broken, n.toNat < 128) (few : m.broken.length < 128) :
    m.toBytes.length = numberLength m.graph + numberLength m.source + numberLength m.target +
      (if m.broken = [] then 0 else m.broken.length + 2) + numberLength m.defect := by
  have number (tag : Nat) (low : 8 * tag < 128) {n : UInt32} (small : n.toNat < 128) :
      (Wire.writeNumber tag n.toNat).length = numberLength n := by
    rw [Wire.length_writeNumber_of_lt tag low small, numberLength]
    simp only [← UInt32.toNat_inj, UInt32.toNat_zero]
  have edges : (Wire.writePacked 4 (m.broken.map (·.toNat))).length =
      if m.broken = [] then 0 else m.broken.length + 2 := by
    rw [Wire.length_writePacked_of_lt 4 (by decide) (by simpa using broken) (by simpa using few)]
    simp only [List.map_eq_nil_iff, List.length_map]
  rw [Identifier.toBytes, List.length_append, List.length_append, List.length_append,
    List.length_append, number 1 (by decide) graph, number 2 (by decide) source,
    number 3 (by decide) target, number 5 (by decide) defect, edges]

/-! ## Standard graphs -/

/-- The bytes of the message for a scenario over a standard graph: two each for a graph that is not
the first one, for a source and a target that are not the first node of the graph and for a defect,
and for broken edges one each and two for the list. -/
def Scenario.messageLength (s : Scenario) : Nat :=
  (if s.graph = .twoRoots then 0 else 2) + (if s.graph.nodes.head? = some s.source then 0 else 2) +
    (if s.graph.nodes.head? = some s.target then 0 else 2) +
    (if s.broken = [] then 0 else s.broken.length + 2) + (if s.defect = none then 0 else 2)

theorem distinct_standard : (Catalog.standard.graphs.map (·.name)).Nodup := by decide

/-- No standard graph has more than 36 edges, and all its nodes have numbers below 128. -/
theorem small_standard : ∀ g ∈ Catalog.standard.graphs,
    g.nodes.length < 128 ∧ g.edges.length ≤ 36 := by
  decide +kernel

/-- The first element has the number zero. -/
theorem numberLength_eq {α : Type} [DecidableEq α] {x : α} {xs : List α} {n : UInt32}
    (found : TrustGraph.indexOf? x xs = some n.toNat) :
    numberLength n = if xs.head? = some x then 0 else 2 := by
  have zero : n = 0 ↔ xs.head? = some x := by
    rw [List.head?_eq_getElem?]
    constructor
    · rintro rfl
      exact TrustGraph.getElem?_of_indexOf? found
    · intro first
      have least := TrustGraph.le_of_indexOf? found first
      exact UInt32.toNat_inj.mp (Nat.le_zero.mp least)
  simp only [numberLength, zero]

theorem numberLength_graph (numbers : Numbers s .standard s.graph m) :
    numberLength m.graph = if s.graph = .twoRoots then 0 else 2 := by
  have zero : m.graph = 0 ↔ s.graph = .twoRoots := by
    constructor
    · intro zero
      have first := numbers.graph
      rw [zero] at first
      exact (Option.some.inj first).symm
    · intro first
      have index := numbers.index
      rw [first] at index
      exact UInt32.toNat_inj.mp (Option.some.inj index).symm
  simp only [numberLength, zero]

theorem numberLength_defect (numbers : Numbers s c g m) :
    numberLength m.defect = if s.defect = none then 0 else 2 := by
  rw [← numbers.defect]
  cases s.defect with
  | none => rfl
  | some d => cases d <;> rfl

/-- Distinct broken edges are no more than the graph has. -/
theorem length_broken_le (numbers : Numbers s c g m) (distinct : s.broken.Nodup) :
    m.broken.length ≤ g.edges.length := by
  have edges := (exists_numbers_iff.mp ⟨m, numbers⟩).broken
  rw [← numbers.broken.length_eq]
  exact (List.subperm_of_subset distinct edges).length_le

theorem length_message (standard : s.graph ∈ Catalog.standard.graphs) (distinct : s.broken.Nodup)
    (numbers : Numbers s .standard s.graph m) : m.toBytes.length = s.messageLength := by
  obtain ⟨nodes, edges⟩ := small_standard s.graph standard
  have node {name : String} {n : UInt32} (found : s.graph.nodeIndex? name = some n.toNat) :
      n.toNat < 128 := by
    obtain ⟨bound, -⟩ := List.getElem?_eq_some_iff.mp (TrustGraph.getElem?_of_indexOf? found)
    exact Nat.lt_trans bound nodes
  have graph : m.graph.toNat < 128 := by
    obtain ⟨bound, -⟩ := List.getElem?_eq_some_iff.mp numbers.graph
    exact Nat.lt_trans bound (by decide)
  have defect : m.defect.toNat < 128 := by
    rw [← numbers.defect]
    cases s.defect with
    | none => decide
    | some d => cases d <;> decide
  have few := length_broken_le numbers distinct
  have broken : ∀ n ∈ m.broken, n.toNat < 128 := by
    intro n member
    obtain ⟨e, -, found⟩ := exists_of_mem_right numbers.broken member
    obtain ⟨bound, -⟩ := List.getElem?_eq_some_iff.mp (TrustGraph.getElem?_of_indexOf? found)
    omega
  have lengths := numbers.broken.length_eq
  have none : m.broken = [] ↔ s.broken = [] := by
    rw [← List.length_eq_zero_iff, ← lengths, List.length_eq_zero_iff]
  rw [length_toBytes graph (node numbers.source) (node numbers.target) defect broken (by omega),
    numberLength_graph numbers, numberLength_eq numbers.source, numberLength_eq numbers.target,
    numberLength_defect numbers, ← lengths, Scenario.messageLength]
  simp only [none]

/-! ## Labels that fit -/

/-- The label of a scenario over a standard graph, whose broken edges are distinct, is made of
base-32 symbols, five bits of the message each. So it is a label of a host name if and only if the
message has between 1 and 39 bytes. -/
theorem label_fits_iff (s : Scenario) (standard : s.graph ∈ Catalog.standard.graphs)
    (distinct : s.broken.Nodup) (label : String) (encoded : encode s .standard = .ok label) :
    (∀ x ∈ label.toList, IsSymbol x) ∧
    label.length = (8 * s.messageLength + 4) / 5 ∧
    (1 ≤ label.length ∧ label.length ≤ 63 ↔ 1 ≤ s.messageLength ∧ s.messageLength ≤ 39) := by
  obtain ⟨m, identified, length⟩ := length_encode encoded
  obtain ⟨g, numbers⟩ := identify_eq_ok_iff.mp identified
  have first := (exists_numbers_iff.mp ⟨m, numbers⟩).first
  rw [find?_of_distinct_names distinct_standard standard] at first
  cases first
  rw [length_message standard distinct numbers] at length
  refine ⟨mem_encode encoded, length, ?_⟩
  rw [length]
  omega

/-- A scenario over the largest graph in which the first edges are broken. -/
def shattered (count : Nat) : Scenario where
  graph := .bridgeCa
  source := "TA Z"
  target := "EE"
  broken := TrustGraph.bridgeCa.edges.take count
  defect := some .expired
  expectFailure := true
  comment := ""

/-- With 29 broken edges the label is as long as a label may be. -/
theorem label_fits_of_shattered : ∃ label, encode (shattered 29) .standard = .ok label ∧
    (∀ x ∈ label.toList, IsSymbol x) ∧ label.length = 63 := by
  have succeeds : (encode (shattered 29) .standard).map (fun _ => ()) = .ok () := by decide +kernel
  obtain ⟨label, encoded, -⟩ := map_eq_ok_iff.mp succeeds
  obtain ⟨symbols, length, -⟩ :=
    label_fits_iff (shattered 29) (by decide +kernel) (by decide +kernel) label encoded
  have bytes : (shattered 29).messageLength = 39 := by decide +kernel
  rw [bytes] at length
  exact ⟨label, encoded, symbols, length⟩

/-- Not every label fits: with all 36 edges of the largest graph broken it has 74 characters, and
with nothing broken between the first node of the first graph and itself it has none. -/
theorem labels_do_not_fit :
    ((shattered 36).graph ∈ Catalog.standard.graphs ∧ (shattered 36).broken.Nodup ∧
      ∃ label, encode (shattered 36) .standard = .ok label ∧ ¬ label.length ≤ 63) ∧
    (Scenario.sound .twoRoots "EE" "EE").graph ∈ Catalog.standard.graphs ∧
      encode (.sound .twoRoots "EE" "EE") .standard = .ok "" := by
  have length : (encode (shattered 36) .standard).map String.length = .ok 74 := by decide +kernel
  obtain ⟨label, encoded, long⟩ := map_eq_ok_iff.mp length
  refine ⟨⟨by decide +kernel, by decide +kernel, label, encoded, ?_⟩, by decide +kernel, ?_⟩
  · rw [long]
    decide
  · exact encode_eq_ok_iff.mpr ⟨.empty, by decide +kernel, by decide +kernel⟩

end ChainConformance.PathBuilding
