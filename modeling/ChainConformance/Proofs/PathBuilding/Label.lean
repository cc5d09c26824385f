import ChainConformance.PathBuilding.Label
import ChainConformance.Proofs.Encoding.Base32
import ChainConformance.Proofs.PathBuilding.Identifier
import ChainConformance.Proofs.TrustGraph.Reachability

/-!
# Which labels are scenarios, and which scenario a label is

`Denotes` says which scenario the entries of a message stand for over a catalog, and `InRange` that
they stand for one at all. Proved here:

* `resolve_ofEntries`: the scenario of an identifier is the one that its entries denote;
* `decode_accepts_format`: a label is decoded if and only if it is the base-32 text of a message in
  range, to the scenario that the message denotes, and else refused for its identifier.
-/

namespace ChainConformance.PathBuilding

/-- The lowest 32 bits of a number. -/
def low (n : Nat) : Nat := n % UInt32.size

/-- The entries stand for the scenario: all numbers are positions in the catalog. -/
structure Denotes (c : Catalog) (es : List Entry) (s : Scenario) : Prop where
  graph : c.graphs[low (last .graph es)]? = some s.graph
  source : s.graph.nodes[low (last .source es)]? = some s.source
  target : s.graph.nodes[low (last .target es)]? = some s.target
  broken : List.Forall₂ (fun n e => s.graph.edges[low n]? = some e) (listed es) s.broken
  defect : (s.defect.map fun d => d.code.toNat).getD 0 = low (last .defect es)
  hint : s.expectFailure = true ↔
    ¬ Relation.ReflTransGen (s.graph.Sound s.broken) s.source s.target
  comment : s.comment = ""

/-- The numbers of the entries are positions in the catalog, and a defect has the number. -/
structure InRange (c : Catalog) (es : List Entry) (g : TrustGraph) : Prop where
  graph : c.graphs[low (last .graph es)]? = some g
  source : low (last .source es) < g.nodes.length
  target : low (last .target es) < g.nodes.length
  broken : ∀ n ∈ listed es, low n < g.edges.length
  defect : low (last .defect es) ≤ 6

/-! ## Numbers of defects -/

theorem Defect.find?_eq_some_iff {n : UInt32} {d : Defect} :
    Defect.all.find? (·.code = n) = some d ↔ d.code = n := by
  constructor
  · intro h
    simpa using List.find?_some h
  · rintro rfl
    cases d <;> rfl

theorem Defect.ofCode_eq_ok_iff {n : UInt32} {d : Option Defect} :
    Defect.ofCode n = .ok d ↔ (d.map Defect.code).getD 0 = n := by
  rw [Defect.ofCode]
  by_cases zero : n = 0
  · rw [if_pos zero, zero, Except.ok.injEq]
    cases d with
    | none => simp
    | some d => cases d <;> simp [Defect.code]
  · rw [if_neg zero]
    cases d with
    | none =>
      have absent : (0 : UInt32) ≠ n := fun h => zero h.symm
      cases found : Defect.all.find? (·.code = n) <;> simp [absent]
    | some d =>
      rw [Option.map_some, Option.getD_some, ← Defect.find?_eq_some_iff]
      cases found : Defect.all.find? (·.code = n) <;> simp

theorem Defect.number_eq_iff {n : Nat} {d : Option Defect} :
    (d.map Defect.code).getD 0 = UInt32.ofNat n ↔ (d.map fun d => d.code.toNat).getD 0 = low n := by
  have e : (d.map fun d => d.code.toNat).getD 0 = ((d.map Defect.code).getD 0).toNat := by
    cases d <;> rfl
  rw [e, ← UInt32.toNat_inj]
  rfl

theorem Defect.exists_code {n : Nat} (h : n ≤ 6) :
    ∃ d : Option Defect, (d.map fun d => d.code.toNat).getD 0 = n := by
  have cases : n = 0 ∨ n = 1 ∨ n = 2 ∨ n = 3 ∨ n = 4 ∨ n = 5 ∨ n = 6 := by omega
  rcases cases with rfl | rfl | rfl | rfl | rfl | rfl | rfl
  · exact ⟨none, rfl⟩
  · exact ⟨some .expired, rfl⟩
  · exact ⟨some .nameConstraints, rfl⟩
  · exact ⟨some .badEku, rfl⟩
  · exact ⟨some .missingBasicConstraints, rfl⟩
  · exact ⟨some .notACa, rfl⟩
  · exact ⟨some .deprecatedCrypto, rfl⟩

/-! ## Looking up an identifier -/

theorem orError_eq_ok_iff {α : Type} {x : Option α} {e : Error} {a : α} :
    orError x e = .ok a ↔ x = some a := by
  cases x <;> simp [orError]

theorem toNat_ofNat_low (n : Nat) : (UInt32.ofNat n).toNat = low n := rfl

theorem isNone_path?_eq_iff {g : TrustGraph} {broken : List Edge} {a b : String} {hint : Bool} :
    (g.path? broken a b).isNone = hint ↔
      (hint = true ↔ ¬ Relation.ReflTransGen (g.Sound broken) a b) := by
  rw [← TrustGraph.path?_isSome]
  cases g.path? broken a b <;> cases hint <;> simp

/-- Looking up the numbers of entries gives the scenario that they stand for. -/
theorem resolve_ofEntries {c : Catalog} {es : List Entry} {s : Scenario} :
    resolve (.ofEntries es) c = .ok s ↔ Denotes c es s := by
  simp only [resolve, Identifier.ofEntries, toNat_ofNat_low, bind_eq_ok_iff, orError_eq_ok_iff,
    mapM_eq_ok_iff, List.forall₂_map_left_iff, Defect.ofCode_eq_ok_iff, Defect.number_eq_iff,
    pure_eq_ok_iff]
  constructor
  · rintro ⟨g, graph, a, source, b, target, broken, edges, d, defect, rfl⟩
    exact ⟨graph, source, target, edges, defect, isNone_path?_eq_iff.mp rfl, rfl⟩
  · rintro ⟨graph, source, target, edges, defect, hint, comment⟩
    refine ⟨s.graph, graph, s.source, source, s.target, target, s.broken, edges, s.defect, defect,
      ?_⟩
    rw [isNone_path?_eq_iff.mpr hint, ← comment]

/-- Entries stand for one scenario at most. -/
theorem Denotes.unique {c : Catalog} {es : List Entry} {s s' : Scenario} (h : Denotes c es s)
    (h' : Denotes c es s') : s = s' := by
  have found := resolve_ofEntries.mpr h
  rw [resolve_ofEntries.mpr h'] at found
  exact (Except.ok.inj found).symm

theorem exists_denotes {c : Catalog} {es : List Entry} {g : TrustGraph} (h : InRange c es g) :
    ∃ s, Denotes c es s := by
  have source := List.getElem?_eq_getElem h.source
  have target := List.getElem?_eq_getElem h.target
  obtain ⟨broken, edges⟩ : ∃ broken : List Edge,
      List.Forall₂ (fun n e => g.edges[low n]? = some e) (listed es) broken := by
    refine exists_forall₂_iff.mpr fun n member => ?_
    exact ⟨_, List.getElem?_eq_getElem (h.broken n member)⟩
  obtain ⟨d, defect⟩ := Defect.exists_code h.defect
  exact ⟨⟨g, _, _, broken, d, (g.path? broken _ _).isNone, ""⟩,
    ⟨h.graph, source, target, edges, defect, isNone_path?_eq_iff.mp rfl, rfl⟩⟩

/-! ## Reading labels -/

/-- A label with what it holds: the base-32 text, in upper or lower case, of the bytes. -/
def Holds (label : String) (b : Bytes) : Prop :=
  Base32.IsText b (Bytes.ofString (Text.upper label))

theorem Holds.unique {label : String} {b b' : Bytes} (h : Holds label b) (h' : Holds label b') :
    b' = b := by
  have read := Base32.decode_of_isText h
  rw [Base32.decode_of_isText h'] at read
  exact Except.ok.inj read

theorem decode_eq_ok_iff {c : Catalog} {label : String} {s : Scenario} :
    decode label c = .ok s ↔
      ∃ b m, Holds label b ∧ Identifier.ofBytes b = .ok m ∧ resolve m c = .ok s := by
  simp only [decode, readLabel, bind_eq_ok_iff, mapError_eq_ok_iff, Base32.decode_eq_ok_iff]
  constructor
  · rintro ⟨m, ⟨b, holds, read⟩, found⟩
    exact ⟨b, m, holds, read, found⟩
  · rintro ⟨b, m, holds, read, found⟩
    exact ⟨m, ⟨b, holds, read⟩, found⟩

/-! ## Refusals -/

theorem kind_of_orError {α : Type} {x : Option α} {cause : Error}
    (identifier : cause.kind = .identifier) (e : Error) (h : orError x cause = .error e) :
    e.kind = .identifier := by
  cases x with
  | none =>
    cases h
    exact identifier
  | some a => cases h

theorem kind_of_ofCode {n : UInt32} (e : Error) (h : Defect.ofCode n = .error e) :
    e.kind = .identifier := by
  rw [Defect.ofCode] at h
  split at h
  · cases h
  · split at h
    · cases h
    · cases h
      rfl

theorem kind_of_resolve {m : Identifier} {c : Catalog} :
    ∀ e, resolve m c = .error e → e.kind = .identifier := by
  refine error_of_bind (kind_of_orError rfl) fun g => ?_
  refine error_of_bind (kind_of_orError rfl) fun source => ?_
  refine error_of_bind (kind_of_orError rfl) fun target => ?_
  refine error_of_bind (fun e h => ?_) fun broken => ?_
  · obtain ⟨n, -, absent⟩ := mapM_eq_error h
    exact kind_of_orError rfl e absent
  · refine error_of_bind kind_of_ofCode fun defect e h => ?_
    cases h

theorem kind_of_readLabel {label : String} :
    ∀ e, readLabel label = .error e → e.kind = .identifier := by
  refine error_of_bind (fun e h => ?_) fun b e h => ?_
  · obtain ⟨fault, -, rfl⟩ := mapError_eq_error_iff.mp h
    rfl
  · obtain ⟨fault, -, rfl⟩ := mapError_eq_error_iff.mp h
    rfl

/-! ## The format -/

/-- The labels that are decoded are the base-32 texts of messages in range; each has one byte
string, which is a message in one way, and one scenario that its entries stand for. Groups of
unknown fields may nest less than a hundred deep. Every error is about the identifier. -/
theorem decode_accepts_format (c : Catalog) (label : String) :
    (∀ s, decode label c = .ok s → ∃ b, (∀ b', Holds label b' ↔ b' = b) ∧
      ∃ depth es, IsMessage depth b es ∧ (∀ depth' es', IsMessage depth' b es' → es' = es) ∧
        ∀ s', Denotes c es s' ↔ s' = s) ∧
    (∀ b depth es g, Holds label b → depth < 100 → IsMessage depth b es →
      InRange c es g → ∃ s, decode label c = .ok s ∧ ∀ s', Denotes c es s' ↔ s' = s) ∧
    ∀ e, decode label c = .error e → e.kind = .identifier := by
  refine ⟨?_, ?_, ?_⟩
  · intro s h
    obtain ⟨b, m, holds, read, found⟩ := decode_eq_ok_iff.mp h
    obtain ⟨es, message, rfl⟩ := Identifier.isMessage_of_ofBytes read
    have denotes := resolve_ofEntries.mp found
    refine ⟨b, fun b' => ⟨fun holds' => holds.unique holds', fun e => e ▸ holds⟩, Wire.maxDepth,
      es, message, fun depth' es' message' => message'.unambiguous message, fun s' => ?_⟩
    exact ⟨fun denotes' => denotes'.unique denotes, fun e => e ▸ denotes⟩
  · intro b depth es g holds shallow message range
    obtain ⟨s, denotes⟩ := exists_denotes range
    have read := Identifier.ofBytes_of_isMessage shallow message
    refine ⟨s, decode_eq_ok_iff.mpr ⟨b, _, holds, read, resolve_ofEntries.mpr denotes⟩,
      fun s' => ?_⟩
    exact ⟨fun denotes' => denotes'.unique denotes, fun e => e ▸ denotes⟩
  · exact error_of_bind kind_of_readLabel fun m => kind_of_resolve

end ChainConformance.PathBuilding
