import Mathlib.Data.List.Induction
import ChainConformance.PathBuilding.Identifier
import ChainConformance.Proofs.PathBuilding.Message

/-!
# Identifiers as messages

The reader and the writer of identifiers are compared with the messages. Proved here:

* `isMessage_of_ofBytes`: what is read is a message, and the identifier is what its entries say;
* `ofBytes_of_isMessage`: a message in which groups nest less than `Wire.maxDepth` deep is read;
* `isMessage_toBytes`, `ofEntries_entries`: the writer writes a message that says the identifier.
-/

namespace ChainConformance.PathBuilding

namespace Identifier

def get (m : Identifier) : Scalar → UInt32
  | .graph => m.graph
  | .source => m.source
  | .target => m.target
  | .defect => m.defect

/-- The identifier after one more entry. -/
def put (m : Identifier) : Entry → Identifier
  | .scalar .graph n => { m with graph := UInt32.ofNat n }
  | .scalar .source n => { m with source := UInt32.ofNat n }
  | .scalar .target n => { m with target := UInt32.ofNat n }
  | .scalar .defect n => { m with defect := UInt32.ofNat n }
  | .edges ns => { m with broken := m.broken ++ ns.map UInt32.ofNat }
  | .other _ => m

/-- The identifier that the entries of a message denote. -/
def ofEntries (es : List Entry) : Identifier where
  graph := UInt32.ofNat (last .graph es)
  source := UInt32.ofNat (last .source es)
  target := UInt32.ofNat (last .target es)
  broken := (listed es).map UInt32.ofNat
  defect := UInt32.ofNat (last .defect es)

/-! ## What entries denote -/

theorem get_put (m : Identifier) (e : Entry) (f : Scalar) :
    (m.put e).get f = ((e.value? f).map UInt32.ofNat).getD (m.get f) := by
  cases e with
  | scalar f' n => cases f <;> cases f' <;> rfl
  | edges ns => cases f <;> rfl
  | other tag => cases f <;> rfl

theorem broken_put (m : Identifier) (e : Entry) :
    (m.put e).broken = m.broken ++ e.numbers.map UInt32.ofNat := by
  cases e with
  | scalar f n => cases f <;> simp [put, Entry.numbers]
  | edges ns => rfl
  | other tag => simp [put, Entry.numbers]

theorem last_append_singleton (f : Scalar) (es : List Entry) (e : Entry) :
    last f (es ++ [e]) = (e.value? f).getD (last f es) := by
  rw [last, last, List.filterMap_append]
  cases value : e.value? f with
  | none => simp [value]
  | some n => simp [value]

theorem get_foldl_put (es : List Entry) (f : Scalar) :
    (es.foldl put empty).get f = UInt32.ofNat (last f es) := by
  induction es using List.reverseRecOn with
  | nil => cases f <;> rfl
  | append_singleton es e ih =>
    rw [List.foldl_append, List.foldl_cons, List.foldl_nil, get_put, ih, last_append_singleton]
    cases e.value? f <;> rfl

theorem broken_foldl_put (m : Identifier) (es : List Entry) :
    (es.foldl put m).broken = m.broken ++ (listed es).map UInt32.ofNat := by
  induction es generalizing m with
  | nil => simp [listed]
  | cons e es ih =>
    rw [List.foldl_cons, ih, broken_put, listed, listed, List.flatMap_cons, List.map_append,
      List.append_assoc]

/-- Entries put in one after another give what they denote together. -/
theorem foldl_put_empty (es : List Entry) : es.foldl put empty = ofEntries es := by
  have graph := get_foldl_put es .graph
  have source := get_foldl_put es .source
  have target := get_foldl_put es .target
  have defect := get_foldl_put es .defect
  have broken := broken_foldl_put empty es
  generalize es.foldl put empty = m at *
  cases m
  simp only [get, empty, List.nil_append] at graph source target defect broken
  rw [ofEntries, graph, source, target, defect, broken]

/-! ## Reading one field -/

theorem scalar_eq_ok_iff {wire : Wire.WireType} {s rest : Bytes} {n : UInt32} :
    scalar wire s = .ok (n, rest) ↔
      wire = .varint ∧ ∃ v i, s = v ++ rest ∧ Wire.IsVarint v i ∧ n = UInt32.ofNat i := by
  rw [scalar]
  by_cases announced : wire = .varint
  · simp only [announced, ne_eq, not_true_eq_false, if_false, true_and, bind_eq_ok_iff,
      pure_eq_ok_iff]
    constructor
    · rintro ⟨⟨i, after⟩, read, e⟩
      obtain ⟨v, rfl, value⟩ := Wire.number_eq_ok_iff.mp read
      cases e
      exact ⟨v, i, rfl, value, rfl⟩
    · rintro ⟨v, i, e, value, rfl⟩
      exact ⟨(i, rest), Wire.number_eq_ok_iff.mpr ⟨v, e, value⟩, rfl⟩
  · simp [announced]

theorem edges_eq_ok_iff {wire : Wire.WireType} {s rest : Bytes} {ns : List UInt32} :
    edges wire s = .ok (ns, rest) ↔
      (wire = .lengthDelimited ∧ ∃ l body is, s = l ++ body ++ rest ∧
        Wire.IsVarint l body.length ∧ Wire.Varints body is ∧ ns = is.map UInt32.ofNat) ∨
      (wire = .varint ∧ ∃ v i, s = v ++ rest ∧ Wire.IsVarint v i ∧ ns = [UInt32.ofNat i]) := by
  rw [edges]
  by_cases many : wire = .lengthDelimited
  · simp only [many, if_true, true_and, reduceCtorEq, false_and, or_false, bind_eq_ok_iff,
      pure_eq_ok_iff]
    constructor
    · rintro ⟨⟨is, after⟩, read, e⟩
      obtain ⟨l, body, rfl, length, values⟩ := Wire.packed_eq_ok_iff.mp read
      cases e
      exact ⟨l, body, is, rfl, length, values, rfl⟩
    · rintro ⟨l, body, is, e, length, values, rfl⟩
      exact ⟨(is, rest), Wire.packed_eq_ok_iff.mpr ⟨l, body, e, length, values⟩, rfl⟩
  · simp only [many, if_false, false_and, false_or]
    constructor
    · intro h
      obtain ⟨⟨n, after⟩, read, e⟩ := bind_eq_ok_iff.mp h
      obtain ⟨announced, v, i, rfl, value, rfl⟩ := scalar_eq_ok_iff.mp read
      cases e
      exact ⟨announced, v, i, rfl, value, rfl⟩
    · rintro ⟨announced, v, i, e, value, rfl⟩
      exact bind_eq_ok_iff.mpr
        ⟨(UInt32.ofNat i, rest), scalar_eq_ok_iff.mpr ⟨announced, v, i, e, value, rfl⟩, rfl⟩

/-- The reader of a scalar field, which puts the number where `f` stands. -/
theorem readField_scalar (m : Identifier) (f : Scalar) (wire : Wire.WireType) (s : Bytes) :
    ∃ field, readField m f.tag wire s =
      ((scalar wire s).mapError fun e => (some field, e)).map fun r =>
        (m.put (.scalar f r.1.toNat), r.2) := by
  have e : ∀ n : UInt32, UInt32.ofNat n.toNat = n := fun n => UInt32.ofNat_toNat
  cases f with
  | graph => exact ⟨"trust_graph", by simp only [put, e]; rfl⟩
  | source => exact ⟨"src_node", by simp only [put, e]; rfl⟩
  | target => exact ⟨"dst_node", by simp only [put, e]; rfl⟩
  | defect => exact ⟨"invalid_reason", by simp only [put, e]; rfl⟩

theorem readField_unknown (m : Identifier) {tag : Nat} (h : 5 < tag) (wire : Wire.WireType)
    (s : Bytes) : readField m tag wire s =
      ((Wire.skip Wire.maxDepth tag wire s).mapError fun e => (none, e)).map fun rest =>
        (m, rest) := by
  rw [readField] <;> omega

theorem put_scalar_toNat (m : Identifier) (f : Scalar) (i : Nat) :
    m.put (.scalar f (UInt32.ofNat i).toNat) = m.put (.scalar f i) := by
  have e : UInt32.ofNat (UInt32.ofNat i).toNat = UInt32.ofNat i := UInt32.ofNat_toNat
  cases f <;> simp only [put, e]

theorem tag_cases {tag : Nat} (positive : tag ≠ 0) :
    (∃ f : Scalar, tag = f.tag) ∨ tag = 4 ∨ 5 < tag := by
  rcases Nat.lt_or_ge 5 tag with unknown | known
  · exact Or.inr (Or.inr unknown)
  · have cases : tag = 1 ∨ tag = 2 ∨ tag = 3 ∨ tag = 4 ∨ tag = 5 := by omega
    rcases cases with rfl | rfl | rfl | rfl | rfl
    · exact Or.inl ⟨.graph, rfl⟩
    · exact Or.inl ⟨.source, rfl⟩
    · exact Or.inl ⟨.target, rfl⟩
    · exact Or.inr (Or.inl rfl)
    · exact Or.inl ⟨.defect, rfl⟩

theorem value_of_readField {m m' : Identifier} {tag : Nat} {wire : Wire.WireType}
    {s rest : Bytes} (positive : tag ≠ 0) (h : readField m tag wire s = .ok (m', rest)) :
    ∃ v e, s = v ++ rest ∧ IsValue Wire.maxDepth tag wire v e ∧ m' = m.put e := by
  rcases tag_cases positive with ⟨f, rfl⟩ | rfl | unknown
  · obtain ⟨field, e⟩ := readField_scalar m f wire s
    rw [e, map_eq_ok_iff] at h
    obtain ⟨⟨n, after⟩, read, result⟩ := h
    obtain ⟨rfl, v, i, rfl, value, rfl⟩ := scalar_eq_ok_iff.mp (mapError_eq_ok_iff.mp read)
    cases result
    exact ⟨v, .scalar f i, rfl, .scalar f rfl value, put_scalar_toNat m f i⟩
  · rw [readField, map_eq_ok_iff] at h
    obtain ⟨⟨ns, after⟩, read, result⟩ := h
    rcases edges_eq_ok_iff.mp (mapError_eq_ok_iff.mp read) with
      ⟨rfl, l, body, is, rfl, length, values, rfl⟩ | ⟨rfl, v, i, rfl, value, rfl⟩
    · cases result
      exact ⟨l ++ body, .edges is, rfl, .packed length values, rfl⟩
    · cases result
      exact ⟨v, .edges [i], rfl, .edge value, rfl⟩
  · rw [readField_unknown m unknown, map_eq_ok_iff] at h
    obtain ⟨after, read, result⟩ := h
    obtain ⟨v, rfl, contents⟩ := Wire.contents_of_skip (mapError_eq_ok_iff.mp read)
    cases result
    exact ⟨v, .other tag, rfl, .other unknown contents, rfl⟩

theorem readField_of_value {depth tag : Nat} {wire : Wire.WireType} {v : Bytes} {e : Entry}
    (m : Identifier) (rest : Bytes) (shallow : depth < Wire.maxDepth)
    (h : IsValue depth tag wire v e) : readField m tag wire (v ++ rest) = .ok (m.put e, rest) := by
  cases h with
  | @scalar _ n _ f own value =>
    subst own
    obtain ⟨field, e⟩ := readField_scalar m f .varint (v ++ rest)
    rw [e, scalar_eq_ok_iff.mpr ⟨rfl, v, n, rfl, value, rfl⟩]
    simp only [Except.mapError, Except.map, put_scalar_toNat]
  | @edge n _ value =>
    rw [readField, edges_eq_ok_iff.mpr (Or.inr ⟨rfl, v, n, rfl, value, rfl⟩)]
    rfl
  | @packed l body ns length values =>
    rw [readField, edges_eq_ok_iff.mpr (Or.inl ⟨rfl, l, body, ns, rfl, length, values, rfl⟩)]
    rfl
  | other unknown contents =>
    rw [readField_unknown m unknown, Wire.skip_of_contents rest shallow contents]
    rfl

/-! ## Reading a message -/

theorem isMessage_of_readFields {steps : Nat} {m m' : Identifier} {s : Bytes}
    (h : readFields steps m s = .ok m') :
    ∃ es, IsMessage Wire.maxDepth s es ∧ m' = es.foldl put m := by
  induction steps generalizing m s with
  | zero =>
    cases s with
    | nil =>
      cases h
      exact ⟨[], .nil, rfl⟩
    | cons x s => cases h
  | succ steps ih =>
    cases s with
    | nil =>
      cases h
      exact ⟨[], .nil, rfl⟩
    | cons x s =>
      rw [readFields, bind_eq_ok_iff] at h
      obtain ⟨⟨⟨tag, wire⟩, after⟩, read, h⟩ := h
      obtain ⟨⟨m₁, left⟩, field, continued⟩ := bind_eq_ok_iff.mp h
      obtain ⟨k, e, key⟩ := Wire.key_eq_ok_iff.mp (mapError_eq_ok_iff.mp read)
      obtain ⟨v, entry, rfl, value, rfl⟩ := value_of_readField key.tag_ne_zero field
      obtain ⟨es, message, rfl⟩ := ih continued
      rw [e, ← List.append_assoc]
      exact ⟨entry :: es, .cons key value message, rfl⟩

theorem readFields_of_isMessage {depth steps : Nat} {s : Bytes} {es : List Entry} (m : Identifier)
    (shallow : depth < Wire.maxDepth) (message : IsMessage depth s es)
    (enough : s.length ≤ steps) : readFields steps m s = .ok (es.foldl put m) := by
  induction message generalizing steps m with
  | nil => cases steps <;> rfl
  | @cons k v rest tag wire e es key value _ ih =>
    have field := readField_of_value m rest shallow value
    have positive := key.length_pos
    simp only [List.length_append] at enough
    cases steps with
    | zero => omega
    | succ steps =>
      have read : Wire.key (k ++ (v ++ rest)) = _ := Wire.key_eq_ok_iff.mpr ⟨k, rfl, key⟩
      have fewer : rest.length ≤ steps := by omega
      have continued := ih (m.put e) fewer
      obtain ⟨x, k, rfl⟩ := List.exists_cons_of_length_pos positive
      rw [List.append_assoc, List.cons_append, readFields, ← List.cons_append, read]
      simp only [Except.mapError, bind, Except.bind, field, continued, List.foldl_cons]

theorem isMessage_of_ofBytes {s : Bytes} {m : Identifier} (h : ofBytes s = .ok m) :
    ∃ es, IsMessage Wire.maxDepth s es ∧ m = ofEntries es := by
  obtain ⟨es, message, rfl⟩ := isMessage_of_readFields h
  exact ⟨es, message, foldl_put_empty es⟩

theorem ofBytes_of_isMessage {depth : Nat} {s : Bytes} {es : List Entry}
    (shallow : depth < Wire.maxDepth) (message : IsMessage depth s es) :
    ofBytes s = .ok (ofEntries es) := by
  rw [ofBytes, readFields_of_isMessage empty shallow message (Nat.le_refl _), foldl_put_empty]

end Identifier

/-! ## Writing -/

/-- The entry of a scalar, left out if it is zero. -/
def scalarEntries (f : Scalar) (n : UInt32) : List Entry :=
  if n = 0 then [] else [.scalar f n.toNat]

/-- The entry of the broken edges, left out if there are none. -/
def edgeEntries (ns : List UInt32) : List Entry :=
  if ns.isEmpty then [] else [.edges (ns.map (·.toNat))]

namespace Identifier

/-- The entries that are written for an identifier. -/
def entries (m : Identifier) : List Entry :=
  scalarEntries .graph m.graph ++ scalarEntries .source m.source ++
    scalarEntries .target m.target ++ edgeEntries m.broken ++ scalarEntries .defect m.defect

end Identifier

theorem isMessage_writeNumber (depth : Nat) (f : Scalar) (n : UInt32) :
    IsMessage depth (Wire.writeNumber f.tag n.toNat) (scalarEntries f n) := by
  rw [Wire.writeNumber, scalarEntries]
  by_cases zero : n = 0
  · rw [if_pos zero, zero]
    exact .nil
  · have positive : n.toNat ≠ 0 := fun h => zero (UInt32.toNat_inj.mp h)
    rw [if_neg zero, if_neg positive]
    have key : Wire.IsKey (Wire.writeKey f.tag 0) f.tag .varint := by
      apply Wire.isKey_writeKey _ _ rfl
      · cases f <;> decide
      · cases f <;> decide
    have small : n.toNat < UInt64.size := Nat.lt_trans n.toNat_lt (by decide)
    exact isMessage_singleton key (.scalar f rfl (Wire.isVarint_varint small))

theorem isMessage_writePacked (depth : Nat) (ns : List UInt32)
    (short : (Wire.writePacked 4 (ns.map (·.toNat))).length < UInt64.size) :
    IsMessage depth (Wire.writePacked 4 (ns.map (·.toNat))) (edgeEntries ns) := by
  rw [Wire.writePacked] at short ⊢
  rw [edgeEntries, List.isEmpty_map] at *
  by_cases none : ns.isEmpty
  · rw [if_pos none, if_pos none]
    exact .nil
  · rw [if_neg none] at short
    rw [if_neg none, if_neg none, List.append_assoc]
    have key : Wire.IsKey (Wire.writeKey 4 2) 4 .lengthDelimited :=
      Wire.isKey_writeKey (by decide) (by decide) rfl
    have small : ((ns.map (·.toNat)).flatMap Wire.varint).length < UInt64.size := by
      simp only [List.length_append] at short
      omega
    refine isMessage_singleton key (.packed (Wire.isVarint_varint small) ?_)
    refine Wire.varints_flatMap fun n member => ?_
    obtain ⟨n, _, rfl⟩ := List.mem_map.mp member
    exact Nat.lt_trans n.toNat_lt (by decide)

/-- What is written is a message without groups, provided that a length fits into 64 bits. -/
theorem isMessage_toBytes (m : Identifier) (short : m.toBytes.length < UInt64.size) :
    IsMessage 0 m.toBytes m.entries := by
  have edges : (Wire.writePacked 4 (m.broken.map (·.toNat))).length < UInt64.size := by
    simp only [Identifier.toBytes, List.length_append] at short
    omega
  have graph := isMessage_writeNumber 0 .graph m.graph
  have source := isMessage_writeNumber 0 .source m.source
  have target := isMessage_writeNumber 0 .target m.target
  have broken := isMessage_writePacked 0 m.broken edges
  have defect := isMessage_writeNumber 0 .defect m.defect
  exact (((graph.append source).append target).append broken).append defect

theorem filterMap_scalarEntries (f f' : Scalar) (n : UInt32) :
    (scalarEntries f' n).filterMap (Entry.value? f) =
      if f' = f ∧ n ≠ 0 then [n.toNat] else [] := by
  by_cases zero : n = 0 <;> by_cases own : f' = f <;> simp [scalarEntries, Entry.value?, zero, own]

theorem filterMap_edgeEntries (f : Scalar) (ns : List UInt32) :
    (edgeEntries ns).filterMap (Entry.value? f) = [] := by
  by_cases none : ns.isEmpty <;> simp [edgeEntries, Entry.value?, none]

theorem last_entries (m : Identifier) (f : Scalar) : last f m.entries = (m.get f).toNat := by
  have zero : ∀ n : UInt32, (if n ≠ 0 then [n.toNat] else []).getLast?.getD 0 = n.toNat := by
    intro n
    by_cases zero : n = 0
    · rw [zero]
      rfl
    · rw [if_pos zero]
      rfl
  simp only [last, Identifier.entries, List.filterMap_append, filterMap_scalarEntries,
    filterMap_edgeEntries]
  cases f <;> simpa [Identifier.get] using zero _

theorem listed_entries (m : Identifier) : listed m.entries = m.broken.map (·.toNat) := by
  have scalar : ∀ f n, (scalarEntries f n).flatMap Entry.numbers = [] := by
    intro f n
    by_cases zero : n = 0 <;> simp [scalarEntries, zero, Entry.numbers]
  simp only [listed, Identifier.entries, List.flatMap_append, scalar, List.append_nil,
    List.nil_append]
  cases m.broken <;> simp [edgeEntries, Entry.numbers]

/-- The entries that are written for an identifier denote it. -/
theorem ofEntries_entries (m : Identifier) : Identifier.ofEntries m.entries = m := by
  have e : ∀ n : UInt32, UInt32.ofNat n.toNat = n := fun n => UInt32.ofNat_toNat
  simp only [Identifier.ofEntries, last_entries, listed_entries, Identifier.get, List.map_map,
    Function.comp_def, e, List.map_id']

end ChainConformance.PathBuilding
