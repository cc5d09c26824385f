import ChainConformance.Proofs.Wire.Field

/-!
# Messages of identifiers

`IsMessage` says which byte strings are messages and which entries they hold; `last` and `listed`
say what the entries mean. Proved here:

* `IsMessage.unambiguous`: a byte string is a message in one way only;
* `IsMessage.length_listed_le`: a message is as long as the varints of the numbers that it lists,
  or longer.
-/

namespace ChainConformance.PathBuilding

/-- The fields of an identifier that hold one number. -/
inductive Scalar where
  | graph
  | source
  | target
  | defect
  deriving DecidableEq, Repr

def Scalar.tag : Scalar → Nat
  | .graph => 1
  | .source => 2
  | .target => 3
  | .defect => 5

theorem Scalar.tag_injective {f f' : Scalar} (h : f.tag = f'.tag) : f = f' := by
  cases f <;> cases f' <;> first | rfl | cases h

/-- One field of a message. -/
inductive Entry where
  | scalar (f : Scalar) (n : Nat)
  | edges (ns : List Nat)
  | other (tag : Nat)
  deriving DecidableEq, Repr

namespace Entry

def value? (f : Scalar) : Entry → Option Nat
  | .scalar f' n => if f' = f then some n else none
  | .edges _ => none
  | .other _ => none

def numbers : Entry → List Nat
  | .scalar _ _ => []
  | .edges ns => ns
  | .other _ => []

end Entry

/-- The number that a message gives for a scalar: the last one, or zero. -/
def last (f : Scalar) (es : List Entry) : Nat := (es.filterMap (Entry.value? f)).getLast?.getD 0

/-- The numbers that a message gives for the broken edges. -/
def listed (es : List Entry) : List Nat := es.flatMap Entry.numbers

/-- What stands behind a key, with the entry that it gives; groups nest at most `depth` deep. -/
inductive IsValue (depth : Nat) : (tag : Nat) → Wire.WireType → Bytes → Entry → Prop
  | scalar {tag n : Nat} {v : Bytes} (f : Scalar) (own : tag = f.tag) (value : Wire.IsVarint v n) :
      IsValue depth tag .varint v (.scalar f n)
  | edge {n : Nat} {v : Bytes} (value : Wire.IsVarint v n) :
      IsValue depth 4 .varint v (.edges [n])
  | packed {l body : Bytes} {ns : List Nat} (length : Wire.IsVarint l body.length)
      (values : Wire.Varints body ns) : IsValue depth 4 .lengthDelimited (l ++ body) (.edges ns)
  | other {tag : Nat} {wire : Wire.WireType} {v : Bytes} (unknown : 5 < tag)
      (contents : Wire.Contents depth tag wire v) : IsValue depth tag wire v (.other tag)

/-- The bytes of a message and its entries in order. -/
inductive IsMessage (depth : Nat) : Bytes → List Entry → Prop
  | nil : IsMessage depth [] []
  | cons {k v rest : Bytes} {tag : Nat} {wire : Wire.WireType} {e : Entry} {es : List Entry}
      (key : Wire.IsKey k tag wire) (value : IsValue depth tag wire v e)
      (others : IsMessage depth rest es) : IsMessage depth (k ++ v ++ rest) (e :: es)

/-! ## One reading only -/

theorem IsValue.unambiguous {depth depth' tag : Nat} {wire : Wire.WireType} {v v' r r' : Bytes}
    {e e' : Entry} (h : IsValue depth tag wire v e) (h' : IsValue depth' tag wire v' e')
    (same : v ++ r = v' ++ r') : e = e' ∧ r = r' := by
  cases h with
  | scalar f own value =>
    cases h' with
    | scalar f' own' value' =>
      obtain ⟨rfl, rfl⟩ := value.unambiguous value' same
      have e : f = f' := Scalar.tag_injective (own.symm.trans own')
      exact ⟨e ▸ rfl, rfl⟩
    | edge _ => cases f <;> cases own
    | other unknown _ => cases f <;> simp [own, Scalar.tag] at unknown
  | edge value =>
    cases h' with
    | scalar f own _ => cases f <;> cases own
    | edge value' =>
      obtain ⟨rfl, rfl⟩ := value.unambiguous value' same
      exact ⟨rfl, rfl⟩
    | other unknown _ => omega
  | @packed l body ns length values =>
    cases h' with
    | packed length' values' =>
      have read : Wire.packed (l ++ body ++ r) = _ :=
        Wire.packed_eq_ok_iff.mpr ⟨l, body, rfl, length, values⟩
      rw [same, Wire.packed_eq_ok_iff.mpr ⟨_, _, rfl, length', values'⟩] at read
      cases read
      exact ⟨rfl, rfl⟩
    | other unknown _ => omega
  | other unknown contents =>
    cases h' with
    | scalar f own _ => cases f <;> simp [own, Scalar.tag] at unknown
    | edge _ => omega
    | packed _ _ => omega
    | other _ contents' => exact ⟨rfl, contents.unambiguous contents' same⟩

/-- A byte string is a message in one way only. -/
theorem IsMessage.unambiguous {depth depth' : Nat} {s : Bytes} {es es' : List Entry}
    (h : IsMessage depth s es) (h' : IsMessage depth' s es') : es = es' := by
  generalize same : s = s' at h'
  induction h generalizing s' es' with
  | nil =>
    cases h' with
    | nil => rfl
    | @cons k v rest _ _ _ _ key _ _ =>
      have := key.length_pos
      have length := congrArg List.length same
      simp only [List.length_nil, List.length_append] at length
      omega
  | @cons k v rest tag wire e es key value _ ih =>
    cases h' with
    | nil =>
      have := key.length_pos
      have length := congrArg List.length same
      simp only [List.length_nil, List.length_append] at length
      omega
    | cons key' value' others' =>
      rw [List.append_assoc, List.append_assoc] at same
      obtain ⟨rfl, rfl, after⟩ := key.unambiguous key' same
      obtain ⟨rfl, left⟩ := value.unambiguous value' after
      rw [ih _ left others']

/-! ## Composition -/

theorem IsMessage.append {depth : Nat} {s t : Bytes} {es es' : List Entry}
    (h : IsMessage depth s es) (h' : IsMessage depth t es') :
    IsMessage depth (s ++ t) (es ++ es') := by
  induction h with
  | nil => exact h'
  | cons key value _ ih =>
    rw [List.append_assoc, List.cons_append]
    exact .cons key value ih

theorem isMessage_singleton {depth tag : Nat} {k v : Bytes} {wire : Wire.WireType} {e : Entry}
    (key : Wire.IsKey k tag wire) (value : IsValue depth tag wire v e) :
    IsMessage depth (k ++ v) [e] := by
  have message := IsMessage.cons key value .nil
  rwa [List.append_nil] at message

/-! ## Lengths -/

theorem IsValue.length_numbers_le {depth tag : Nat} {wire : Wire.WireType} {v : Bytes} {e : Entry}
    (h : IsValue depth tag wire v e) : (e.numbers.flatMap Wire.varint).length ≤ v.length := by
  cases h with
  | scalar f own value => exact Nat.zero_le _
  | edge value =>
    have shortest := Wire.length_varint_le_of_sevens value.1 (Nat.le_refl _)
    simpa [Entry.numbers] using shortest
  | packed length values =>
    have shortest := values.length_flatMap_le
    rw [List.length_append]
    exact Nat.le_trans shortest (Nat.le_add_left _ _)
  | other unknown contents => exact Nat.zero_le _

/-- The numbers that a message lists need no more bytes than it has. -/
theorem IsMessage.length_listed_le {depth : Nat} {b : Bytes} {es : List Entry}
    (h : IsMessage depth b es) : ((listed es).flatMap Wire.varint).length ≤ b.length := by
  induction h with
  | nil => exact Nat.le_refl 0
  | cons key value _ ih =>
    have first := value.length_numbers_le
    rw [listed] at ih
    rw [listed, List.flatMap_cons, List.flatMap_append, List.length_append, List.length_append,
      List.length_append]
    omega

end ChainConformance.PathBuilding
