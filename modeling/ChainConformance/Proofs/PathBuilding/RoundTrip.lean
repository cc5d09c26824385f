import ChainConformance.Proofs.PathBuilding.Label
import ChainConformance.Proofs.TrustGraph.Nodes

/-!
# Labels give back their scenarios

A scenario has a label over a catalog when the first graph with the name of its graph has its nodes
and its broken edges, all at positions of 32 bits (`Encodable`). `Numbers` relates the scenario to
the identifier in between. Proved here:

* `holds_encode`: the printed base-32 text of bytes holds them, in upper and in lower case;
* `identify_eq_ok_iff`: the identifier of a scenario has the scenario's positions;
* `resolve_of_numbers`: these positions lead back to the scenario;
* `decode_encode`: which scenarios have a label, and what their labels are decoded to.
-/

namespace ChainConformance.PathBuilding

/-- `g` is the first graph of the catalog with the name of the scenario's graph and has the nodes
and the broken edges of the scenario, and all positions fit into 32 bits. -/
structure Encodable (s : Scenario) (c : Catalog) (g : TrustGraph) : Prop where
  first : c.graphs.find? (·.name = s.graph.name) = some g
  source : s.source ∈ g.nodes
  target : s.target ∈ g.nodes
  broken : ∀ e ∈ s.broken, e ∈ g.edges
  graphFits : ∀ i, c.indexOf? s.graph.name = some i → i < UInt32.size
  sourceFits : ∀ i, g.nodeIndex? s.source = some i → i < UInt32.size
  targetFits : ∀ i, g.nodeIndex? s.target = some i → i < UInt32.size
  brokenFits : ∀ e ∈ s.broken, ∀ i, g.edgeIndex? e = some i → i < UInt32.size

/-- The identifier has the positions of the scenario's parts in the catalog and in the graph. -/
structure Numbers (s : Scenario) (c : Catalog) (g : TrustGraph) (m : Identifier) : Prop where
  index : c.indexOf? s.graph.name = some m.graph.toNat
  graph : c.get? m.graph.toNat = some g
  source : g.nodeIndex? s.source = some m.source.toNat
  target : g.nodeIndex? s.target = some m.target.toNat
  broken : List.Forall₂ (fun e n => g.edgeIndex? e = some n.toNat) s.broken m.broken
  defect : (s.defect.map Defect.code).getD 0 = m.defect

/-! ## Printed labels -/

theorem utf8EncodeChar_symbol : ∀ n < 32,
    String.utf8EncodeChar (Char.toUpper (Char.ofNat (Base32.symbol n).toNat)) =
      [Base32.symbol n] := by
  decide

/-- The text that is printed for bytes holds them, in any case of its letters. -/
theorem holds_encode {b : Bytes} {label : String}
    (same : Text.upper label =
      Text.upper (String.ofList ((Base32.encode b).map fun x => Char.ofNat x.toNat))) :
    Holds label b := by
  obtain ⟨ns, below, e, spelled⟩ := Base32.isText_encode b
  have text : Bytes.ofString (Text.upper label) = ns.map Base32.symbol := by
    rw [same, Text.upper, String.toList_ofList, Bytes.ofString_ofList, e, List.map_map,
      List.map_map, List.flatMap_map, List.map_eq_flatMap]
    refine List.flatMap_congr fun n member => ?_
    exact utf8EncodeChar_symbol n (below n member)
  exact ⟨ns, below, text, spelled⟩

theorem length_le_of_encode (b : Bytes) :
    b.length ≤ (String.ofList ((Base32.encode b).map fun x => Char.ofNat x.toNat)).length := by
  rw [String.length_ofList, List.length_map]
  exact Base32.length_le_of_isText (Base32.isText_encode b)

/-! ## Positions -/

theorem wireIndex_eq_ok_iff {what : String} {i : Nat} {n : UInt32} :
    wireIndex what i = .ok n ↔ i = n.toNat := by
  rw [wireIndex]
  constructor
  · intro h
    split at h
    · next small =>
      cases h
      exact (UInt32.toNat_ofNat_of_lt' small).symm
    · cases h
  · rintro rfl
    rw [if_pos n.toNat_lt, UInt32.ofNat_toNat]

theorem identify_eq_ok_iff {s : Scenario} {c : Catalog} {m : Identifier} :
    identify s c = .ok m ↔ ∃ g, Numbers s c g m := by
  simp only [identify, bind_eq_ok_iff, orError_eq_ok_iff, mapM_eq_ok_iff, wireIndex_eq_ok_iff,
    pure_eq_ok_iff]
  constructor
  · rintro ⟨i, index, g, graph, a, source, b, target, broken, edges, i', rfl, a', rfl, b', rfl,
      rfl⟩
    refine ⟨g, index, graph, source, target, edges.imp fun e n found => ?_, rfl⟩
    obtain ⟨i, found, rfl⟩ := found
    exact found
  · rintro ⟨g, index, graph, source, target, broken, defect⟩
    refine ⟨m.graph.toNat, index, g, graph, m.source.toNat, source, m.target.toNat, target,
      m.broken, broken.imp fun e n found => ⟨n.toNat, found, rfl⟩, m.graph, rfl, m.source, rfl,
      m.target, rfl, ?_⟩
    rw [defect]

theorem index_fits_iff {α : Type} [DecidableEq α] {x : α} {xs : List α} :
    (∃ n : UInt32, TrustGraph.indexOf? x xs = some n.toNat) ↔
      x ∈ xs ∧ ∀ i, TrustGraph.indexOf? x xs = some i → i < UInt32.size := by
  rw [← TrustGraph.indexOf?_isSome]
  constructor
  · rintro ⟨n, found⟩
    refine ⟨by simp [found], fun i again => ?_⟩
    rw [found, Option.some.injEq] at again
    exact again ▸ n.toNat_lt
  · rintro ⟨present, fits⟩
    obtain ⟨i, found⟩ := Option.isSome_iff_exists.mp present
    exact ⟨UInt32.ofNat i, by rw [found, UInt32.toNat_ofNat_of_lt' (fits i found)]⟩

theorem graph_fits_iff {c : Catalog} {name : String} {g : TrustGraph} :
    (∃ n : UInt32, c.indexOf? name = some n.toNat ∧ c.get? n.toNat = some g) ↔
      c.graphs.find? (·.name = name) = some g ∧
        ∀ i, c.indexOf? name = some i → i < UInt32.size := by
  rw [List.find?_eq_bind_findIdx?_getElem?]
  constructor
  · rintro ⟨n, index, graph⟩
    refine ⟨Option.bind_eq_some_iff.mpr ⟨n.toNat, index, graph⟩, fun i again => ?_⟩
    rw [index, Option.some.injEq] at again
    exact again ▸ n.toNat_lt
  · rintro ⟨first, fits⟩
    obtain ⟨i, index, graph⟩ := Option.bind_eq_some_iff.mp first
    refine ⟨UInt32.ofNat i, ?_⟩
    rw [UInt32.toNat_ofNat_of_lt' (fits i index)]
    exact ⟨index, graph⟩

theorem exists_numbers_iff {s : Scenario} {c : Catalog} {g : TrustGraph} :
    (∃ m, Numbers s c g m) ↔ Encodable s c g := by
  have edges : (∃ ns : List UInt32,
      List.Forall₂ (fun e n => g.edgeIndex? e = some n.toNat) s.broken ns) ↔
      ∀ e ∈ s.broken, e ∈ g.edges ∧ ∀ i, g.edgeIndex? e = some i → i < UInt32.size := by
    rw [exists_forall₂_iff]
    exact forall₂_congr fun e _ => index_fits_iff
  constructor
  · rintro ⟨m, index, graph, source, target, broken, -⟩
    obtain ⟨first, graphFits⟩ := graph_fits_iff.mp ⟨m.graph, index, graph⟩
    obtain ⟨source, sourceFits⟩ := index_fits_iff.mp ⟨m.source, source⟩
    obtain ⟨target, targetFits⟩ := index_fits_iff.mp ⟨m.target, target⟩
    have broken := edges.mp ⟨m.broken, broken⟩
    exact ⟨first, source, target, fun e member => (broken e member).1, graphFits, sourceFits,
      targetFits, fun e member => (broken e member).2⟩
  · intro h
    obtain ⟨i, index, graph⟩ := graph_fits_iff.mpr ⟨h.first, h.graphFits⟩
    obtain ⟨a, source⟩ := index_fits_iff.mpr ⟨h.source, h.sourceFits⟩
    obtain ⟨b, target⟩ := index_fits_iff.mpr ⟨h.target, h.targetFits⟩
    obtain ⟨ns, broken⟩ := edges.mpr fun e member => ⟨h.broken e member, h.brokenFits e member⟩
    exact ⟨⟨i, a, b, ns, (s.defect.map Defect.code).getD 0⟩, index, graph, source, target, broken,
      rfl⟩

/-- The positions of a scenario lead back to it. -/
theorem resolve_of_numbers {s : Scenario} {c : Catalog} {g : TrustGraph} {m : Identifier}
    (h : Numbers s c g m) : resolve m c =
      .ok ⟨g, s.source, s.target, s.broken, s.defect, (g.path? s.broken s.source s.target).isNone,
        ""⟩ := by
  have source := TrustGraph.getElem?_of_indexOf? h.source
  have target := TrustGraph.getElem?_of_indexOf? h.target
  have broken : List.Forall₂ (fun (n : UInt32) e => g.edges[n.toNat]? = some e) m.broken
      s.broken := by
    refine List.Forall₂.flip (h.broken.imp fun e n found => ?_)
    exact TrustGraph.getElem?_of_indexOf? found
  simp only [resolve, bind_eq_ok_iff, orError_eq_ok_iff, mapM_eq_ok_iff, Defect.ofCode_eq_ok_iff,
    pure_eq_ok_iff]
  exact ⟨g, h.graph, s.source, source, s.target, target, s.broken, broken, s.defect, h.defect, rfl⟩

/-! ## The round trip -/

theorem encode_eq_ok_iff {s : Scenario} {c : Catalog} {label : String} :
    encode s c = .ok label ↔ ∃ m, identify s c = .ok m ∧
      String.ofList ((Base32.encode m.toBytes).map fun x => Char.ofNat x.toNat) = label := by
  simp only [encode, bind_eq_ok_iff, pure_eq_ok_iff]

/-- A label that holds the bytes of an identifier is decoded to what the identifier stands for. -/
theorem decode_of_holds {c : Catalog} {label : String} {m : Identifier} {d : Scenario}
    (holds : Holds label m.toBytes) (fits : m.toBytes.length < UInt64.size)
    (resolved : resolve m c = .ok d) : decode label c = .ok d := by
  have read := Identifier.ofBytes_of_isMessage (by decide) (isMessage_toBytes m fits)
  rw [ofEntries_entries] at read
  exact decode_eq_ok_iff.mpr ⟨m.toBytes, m, holds, read, resolved⟩

/-- A scenario has a label if and only if its parts have positions in the catalog. In upper, lower
or mixed case the label is decoded to the scenario over the first graph of that name, with the hint
that the graph gives and without the comment; labels are shorter than 2^64, as any text of the
machine is. -/
theorem decode_encode (s : Scenario) (c : Catalog) :
    ((∃ label, encode s c = .ok label) ↔ ∃ g, Encodable s c g) ∧
    ∀ label, encode s c = .ok label → label.length < UInt64.size →
      ∃ g, c.graphs.find? (·.name = s.graph.name) = some g ∧
        ∀ label', Text.upper label' = Text.upper label → ∃ d, decode label' c = .ok d ∧
          d.graph = g ∧ d.source = s.source ∧ d.target = s.target ∧ d.broken = s.broken ∧
          d.defect = s.defect ∧ d.comment = "" ∧
          (d.expectFailure = true ↔
            ¬ Relation.ReflTransGen (g.Sound s.broken) s.source s.target) ∧
          (s.graph = g → d.expected = s.expected ∧ d.features = s.features) := by
  constructor
  · simp only [encode_eq_ok_iff, ← exists_numbers_iff, identify_eq_ok_iff]
    constructor
    · rintro ⟨label, m, ⟨g, numbers⟩, -⟩
      exact ⟨g, m, numbers⟩
    · rintro ⟨g, m, numbers⟩
      exact ⟨_, m, ⟨g, numbers⟩, rfl⟩
  · intro label h short
    obtain ⟨m, numbered, rfl⟩ := encode_eq_ok_iff.mp h
    obtain ⟨g, numbers⟩ := identify_eq_ok_iff.mp numbered
    have first := (exists_numbers_iff.mp ⟨m, numbers⟩).first
    have fits : m.toBytes.length < UInt64.size :=
      Nat.lt_of_le_of_lt (length_le_of_encode m.toBytes) short
    have read := Identifier.ofBytes_of_isMessage (by decide) (isMessage_toBytes m fits)
    rw [ofEntries_entries] at read
    refine ⟨g, first, fun label' same => ⟨_, decode_eq_ok_iff.mpr
      ⟨m.toBytes, m, holds_encode same, read, resolve_of_numbers numbers⟩, rfl, rfl, rfl, rfl, rfl,
      rfl, isNone_path?_eq_iff.mp rfl, ?_⟩⟩
    rintro rfl
    exact ⟨rfl, rfl⟩

/-- Broken edges out of order, one of them twice, with a hint that the graph refutes. -/
def looped : Scenario where
  graph := .figureSeven
  source := "Trust Anchor"
  target := "EE"
  broken := [⟨"A", "C"⟩, ⟨"C", "B"⟩, ⟨"A", "C"⟩]
  defect := some .expired
  expectFailure := true
  comment := "two ways are left"

/-- Its label is read in mixed case, to the same broken edges and with the right hint. -/
theorem decode_of_looped : ∃ d, decode "babbabayaMRAGBABAQUAC" .standard = .ok d ∧
    d.broken = looped.broken ∧ d.expected = looped.expected ∧ d.expectFailure = false := by
  have printed : encode looped .standard = .ok "BABBABAYAMRAGBABAQUAC" := by
    rw [encode_eq_ok_iff]
    exact ⟨⟨2, 4, 3, [4, 1, 4], 1⟩, by decide +kernel, by decide +kernel⟩
  obtain ⟨g, first, read⟩ := (decode_encode looped .standard).2 _ printed (by decide)
  obtain ⟨d, decoded, rfl, -, -, broken, -, -, hint, same⟩ :=
    read "babbabayaMRAGBABAQUAC" (by decide +kernel)
  have graph : looped.graph = d.graph := Option.some.inj first
  have reached : Relation.ReflTransGen (d.graph.Sound looped.broken) "Trust Anchor" "EE" :=
    TrustGraph.path?_isSome.mp (graph ▸ by decide +kernel)
  refine ⟨d, decoded, broken, (same graph).1, ?_⟩
  exact Bool.eq_false_iff.mpr fun set => hint.mp set reached

end ChainConformance.PathBuilding
