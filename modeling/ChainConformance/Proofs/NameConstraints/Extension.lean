import ChainConformance.Proofs.Asn1.Form
import ChainConformance.Proofs.NameConstraints.San
import Mathlib.Algebra.Order.BigOperators.Group.List
import Mathlib.Algebra.Order.Group.Nat

/-!
# The form of the alternative names

The value of the extension has one form only, which says which entries it was made of. `IsSan`
describes it octet by octet. Proved here:

* `encodeSan_of_high`: which error comes of a tag that does not fit into one octet;
* `length_sanBytes`, `isSan_sanBytes`, `readSan?_sanBytes`: size, form and contents of the value;
* `encodeSan_injective`: different entries have different values;
* `encodeSan_exact`: all of that together.

An entry that is too long comes before a high tag that follows it (`oversized_before_high`).
-/

namespace ChainConformance.NameConstraints

/-! ## Description -/

/-- How many bytes the value has for these entries. -/
def sanSize (entries : List ExtraName) : Nat :=
  Der.elementSize (entries.map fun e => Der.elementSize e.value.length).sum

/-- The bytes are a primitive element of the context class with the entry's number and contents: the
two highest bits of the tag octet are 1 and 0, the third is 0, and the others are the number. -/
def IsName (e : ExtraName) (bytes : Bytes) : Prop :=
  ∃ tag : UInt8, tag.toNat / 64 = 2 ∧ tag.toNat / 32 % 2 = 0 ∧ tag.toNat % 32 = e.tag.toNat ∧
    Der.IsElement tag e.value bytes

/-- The bytes are one sequence, of an element for each entry in order. -/
def IsSan (entries : List ExtraName) (bytes : Bytes) : Prop :=
  ∃ names : List Bytes, List.Forall₂ IsName entries names ∧ Der.IsElement 0x30 names.flatten bytes

/-- The entry that a primitive element of the context class stands for. -/
def ExtraName.ofElement? (e : Strict.Element) : Option ExtraName :=
  if 0x80 ≤ e.tag ∧ e.tag < 0xA0 then some ⟨e.tag - 0x80, e.contents⟩ else none

/-- The entries in the value of an extension, which has to be a sequence and nothing else. -/
def readSan? (extension : Bytes) : Option (List ExtraName) := do
  (← sanElements? extension).mapM ExtraName.ofElement?

/-! ## Errors -/

theorem ExtraName.encode_of_high {e : ExtraName} (high : 30 < e.tag) :
    e.encode = .error (.sanTag e.tag.toNat) :=
  if_pos high

/-- A tag that does not fit into one octet is named in the error, unless an entry before it is too
long. -/
theorem encodeSan_of_high {before after : List ExtraName} {e : ExtraName}
    (low : ∀ x ∈ before, x.tag ≤ 30) (high : 30 < e.tag) :
    encodeSan (before ++ e :: after) =
      .error (if ∃ x ∈ before, Strict.lengthLimit ≤ x.value.length then .sanLength .entry
        else .sanTag e.tag.toNat) := by
  suffices parts : (before ++ e :: after).mapM ExtraName.encode =
      .error (if ∃ x ∈ before, Strict.lengthLimit ≤ x.value.length then .sanLength .entry
        else .sanTag e.tag.toNat) by
    rw [encodeSan, parts, error_bind]
  induction before with
  | nil => simp [ExtraName.encode_of_high high]
  | cons first rest ih =>
    have later := ih fun x member => low x (List.mem_cons_of_mem first member)
    rw [List.cons_append, List.mapM_cons, ExtraName.encode_of_low (low first List.mem_cons_self)]
    by_cases long : Strict.lengthLimit ≤ first.value.length
    · simp [long]
    · rw [if_neg long, later]
      simp [long, bind, Except.bind]

/-! ## Size, form and contents -/

section
variable {entries : List ExtraName}

/-- Where the value stays below the limit, so do the contents of the sequence and of each entry. -/
theorem short_of_sanSize (small : sanSize entries < Strict.lengthLimit) :
    (entries.map fun e => Der.elementSize e.value.length).sum < Strict.lengthLimit ∧
      ∀ e ∈ entries, e.value.length < Strict.lengthLimit := by
  have whole := (Der.elementSize_bounds (entries.map fun e => Der.elementSize e.value.length).sum).1
  rw [sanSize] at small
  refine ⟨by omega, fun e member => ?_⟩
  have listed := List.mem_map_of_mem (f := fun e => Der.elementSize e.value.length) member
  have part := List.le_sum_of_mem listed
  have entry := (Der.elementSize_bounds e.value.length).1
  omega

/-- The elements of the entries have the sizes that are added up. -/
theorem length_names (short : ∀ e ∈ entries, e.value.length < Strict.lengthLimit) :
    (entries.map fun e => Der.tagged e.tag e.value).flatten.length =
      (entries.map fun e => Der.elementSize e.value.length).sum := by
  rw [List.length_flatten, List.map_map]
  refine congrArg List.sum (List.map_congr_left fun e member => ?_)
  exact Der.length_encode_eq _ (short e member)

theorem length_sanBytes (small : sanSize entries < Strict.lengthLimit) :
    (sanBytes entries).length = sanSize entries := by
  obtain ⟨whole, short⟩ := short_of_sanSize small
  have size := length_names short
  rw [sanBytes, Der.sequence, Der.length_encode_eq _ (lt_of_eq_of_lt size whole), size, sanSize]

variable (low : ∀ e ∈ entries, e.tag ≤ 30)
include low

theorem isSan_sanBytes (small : sanSize entries < Strict.lengthLimit) :
    IsSan entries (sanBytes entries) := by
  obtain ⟨whole, short⟩ := short_of_sanSize small
  refine ⟨entries.map fun e => Der.tagged e.tag e.value, ?_, ?_⟩
  · rw [List.forall₂_map_right_iff, List.forall₂_same]
    intro e member
    have bound : e.tag.toNat ≤ 30 := UInt8.le_iff_toNat_le.mp (low e member)
    have value := toNat_contextTag (low e member)
    exact ⟨0x80 + e.tag, by omega, by omega, by omega, Der.isElement_encode _ (short e member)⟩
  · exact Der.isElement_encode _ (lt_of_eq_of_lt (length_names short) whole)

theorem ofElement?_element {e : ExtraName} (member : e ∈ entries) :
    ExtraName.ofElement? e.element = some e := by
  have bound : e.tag.toNat ≤ 30 := UInt8.le_iff_toNat_le.mp (low e member)
  have value := toNat_contextTag (low e member)
  have context : 0x80 ≤ 0x80 + e.tag ∧ 0x80 + e.tag < 0xA0 := by
    rw [UInt8.le_iff_toNat_le, UInt8.lt_iff_toNat_lt, value]
    change 128 ≤ 128 + e.tag.toNat ∧ 128 + e.tag.toNat < 160
    omega
  have number : 0x80 + e.tag - 0x80 = e.tag := by rw [UInt8.add_comm, UInt8.add_sub_cancel]
  rw [ExtraName.ofElement?, ExtraName.element, if_pos context, number]

theorem readSan?_sanBytes (small : (sanBytes entries).length < Strict.lengthLimit) :
    readSan? (sanBytes entries) = some entries := by
  rw [readSan?, sanElements?_sanBytes low small]
  exact mapM_map_undone fun _ => ofElement?_element low

omit low in
/-- Whatever has a value has tags that fit into one octet, and is read off the value. -/
theorem readSan?_of_encodeSan {b : Bytes} (made : encodeSan entries = .ok b) :
    readSan? b = some entries := by
  have low : ∀ e ∈ entries, e.tag ≤ 30 := by
    intro e member
    rw [encodeSan, bind_eq_ok_iff] at made
    obtain ⟨names, parts, -⟩ := made
    obtain ⟨_, -, encoded⟩ := exists_of_mem_left (mapM_eq_ok_iff.mp parts) member
    refine UInt8.not_lt.mp fun high => ?_
    rw [ExtraName.encode_of_high high] at encoded
    cases encoded
  by_cases small : (sanBytes entries).length < Strict.lengthLimit
  · rw [encodeSan_of_small low small] at made
    cases made
    exact readSan?_sanBytes low small
  · obtain ⟨part, refused⟩ := encodeSan_of_large low (Nat.not_lt.mp small)
    rw [refused] at made
    cases made

omit low in
/-- Different entries have different values. -/
theorem encodeSan_injective {others : List ExtraName} {b : Bytes}
    (made : encodeSan entries = .ok b) (made' : encodeSan others = .ok b) : entries = others :=
  Option.some.inj ((readSan?_of_encodeSan made).symm.trans (readSan?_of_encodeSan made'))

end

/-- What comes of any list of entries. The first tag that does not fit into one octet is an error
of the test case, unless an entry before it is too long. Without such tags there is a value as long
as it stays below the limit; it has exactly the form that is asked for and gives back the entries in
order. So different lists have different values. -/
theorem encodeSan_exact (entries : List ExtraName) :
    (∀ before e after, entries = before ++ e :: after → (∀ x ∈ before, x.tag ≤ 30) → 30 < e.tag →
      encodeSan entries = .error
        (if ∃ x ∈ before, 2 ^ 28 ≤ x.value.length then .sanLength .entry
          else .sanTag e.tag.toNat) ∧
      (Error.sanTag e.tag.toNat).kind = .testCase) ∧
    ((∀ e ∈ entries, e.tag ≤ 30) → sanSize entries < 2 ^ 28 →
      ∃ b, encodeSan entries = .ok b ∧ b.length = sanSize entries ∧ IsSan entries b ∧
        readSan? b = some entries) ∧
    ∀ others b, encodeSan entries = .ok b → encodeSan others = .ok b → entries = others := by
  have limit : 2 ^ 28 = Strict.lengthLimit := rfl
  rw [limit]
  refine ⟨?_, fun low small => ?_, fun others b made made' => encodeSan_injective made made'⟩
  · rintro before e after rfl low high
    exact ⟨encodeSan_of_high low high, rfl⟩
  · have size := length_sanBytes small
    have whole : (sanBytes entries).length < Strict.lengthLimit := lt_of_eq_of_lt size small
    exact ⟨sanBytes entries, encodeSan_of_small low whole, size, isSan_sanBytes low small,
      readSan?_sanBytes low whole⟩

/-- Repeated entries are kept, and their order counts. -/
theorem encodeSan_exact_of_few :
    (∃ b, encodeSan [⟨7, [127, 0, 0, 1]⟩, ⟨2, [97]⟩, ⟨7, [127, 0, 0, 1]⟩] = .ok b ∧
      b.length = 17 ∧ readSan? b = some [⟨7, [127, 0, 0, 1]⟩, ⟨2, [97]⟩, ⟨7, [127, 0, 0, 1]⟩] ∧
      encodeSan [⟨2, [97]⟩, ⟨7, [127, 0, 0, 1]⟩, ⟨7, [127, 0, 0, 1]⟩] ≠ .ok b) ∧
    encodeSan [⟨2, [97]⟩, ⟨31, []⟩, ⟨200, []⟩] = .error (.sanTag 31) := by
  constructor
  · obtain ⟨-, values, apart⟩ :=
      encodeSan_exact [⟨7, [127, 0, 0, 1]⟩, ⟨2, [97]⟩, ⟨7, [127, 0, 0, 1]⟩]
    obtain ⟨b, made, size, -, read⟩ := values (by decide) (by decide)
    refine ⟨b, made, size, read, fun made' => ?_⟩
    have same := apart _ b made made'
    revert same
    decide
  · obtain ⟨errors, -⟩ := encodeSan_exact [⟨2, [97]⟩, ⟨31, []⟩, ⟨200, []⟩]
    exact (errors [⟨2, [97]⟩] ⟨31, []⟩ [⟨200, []⟩] rfl (by decide) (by decide)).1

/-- An entry that is too long is refused before the high tag that follows it. -/
theorem encodeSan_of_long_first {value : Bytes} (long : Strict.lengthLimit ≤ value.length) :
    encodeSan [⟨2, value⟩, ⟨31, []⟩] = .error (.sanLength .entry) := by
  have low : ∀ x ∈ [(⟨2, value⟩ : ExtraName)], x.tag ≤ 30 := by simp
  have high : 30 < (⟨31, []⟩ : ExtraName).tag := by decide
  have refused : encodeSan ([⟨2, value⟩] ++ ⟨31, []⟩ :: []) = _ := encodeSan_of_high low high
  rw [if_pos ⟨_, List.mem_singleton_self _, long⟩] at refused
  exact refused

/-- So a high tag need not be an error of the test case. -/
theorem oversized_before_high :
    encodeSan [⟨2, List.replicate (2 ^ 28) 0⟩, ⟨31, []⟩] = .error (.sanLength .entry) ∧
      (Error.sanLength .entry).kind ≠ .testCase := by
  have long : Strict.lengthLimit ≤ (List.replicate (2 ^ 28) (0 : UInt8)).length := by
    rw [List.length_replicate]
    decide
  exact ⟨encodeSan_of_long_first long, by decide⟩

end ChainConformance.NameConstraints
