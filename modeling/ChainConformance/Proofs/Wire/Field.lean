import ChainConformance.Wire.Field
import ChainConformance.Proofs.Outcome
import ChainConformance.Proofs.Wire.Varint

/-!
# The grammar of fields

`IsKey` and `Contents` say which byte strings are the key and the contents of a field, without a
reader: the contents end where the wire type says, and a group holds fields up to the end of its own
tag. `Varints` is a run of varints. Proved here:

* `contents_of_skip`, `skip_of_contents`: a field that is passed over has contents of its wire type,
  and contents in which groups do not nest too deep are passed over;
* `packed_eq_ok_iff`: a packed list is a length and a run of varints over that many bytes;
* `Varints.length_flatMap_le`: no run of varints is shorter than the one that is written.
-/

namespace ChainConformance.Wire

/-- The key of a field: a varint of 32 bits, its tag above its wire type. -/
def IsKey (s : Bytes) (tag : Nat) (wire : WireType) : Prop :=
  ∃ n, IsVarint s n ∧ n < UInt32.size ∧ n / 8 = tag ∧ tag ≠ 0 ∧ WireType.ofCode? (n % 8) = some wire

/-- Fields up to the end of the group with this tag; `inside` says what stands in a field. -/
inductive Group (inside : Nat → WireType → Bytes → Prop) (tag : Nat) : Bytes → Prop
  | close {k : Bytes} (key : IsKey k tag .endGroup) : Group inside tag k
  | field {k v rest : Bytes} {inner : Nat} {wire : WireType} (key : IsKey k inner wire)
      (opens : wire ≠ .endGroup) (contents : inside inner wire v) (others : Group inside tag rest) :
      Group inside tag (k ++ v ++ rest)

/-- What stands in a field with this tag and wire type, in which groups nest at most `depth`
deep. -/
def Contents : (depth : Nat) → (tag : Nat) → WireType → Bytes → Prop
  | _, _, .varint, v => ∃ n, IsVarint v n
  | _, _, .sixtyFourBit, v => v.length = 8
  | _, _, .lengthDelimited, v => ∃ l body, v = l ++ body ∧ IsVarint l body.length
  | 0, _, .startGroup, _ => False
  | depth + 1, tag, .startGroup, v => Group (Contents depth) tag v
  | _, _, .endGroup, _ => False
  | _, _, .thirtyTwoBit, v => v.length = 4

/-- Varints one after another. -/
inductive Varints : Bytes → List Nat → Prop
  | nil : Varints [] []
  | cons {s rest : Bytes} {n : Nat} {ns : List Nat} (first : IsVarint s n)
      (others : Varints rest ns) : Varints (s ++ rest) (n :: ns)

theorem IsKey.length_pos {s : Bytes} {tag : Nat} {wire : WireType} (h : IsKey s tag wire) :
    0 < s.length := by
  obtain ⟨n, varint, _⟩ := h
  exact varint.length_pos

theorem IsKey.tag_ne_zero {s : Bytes} {tag : Nat} {wire : WireType} (h : IsKey s tag wire) :
    tag ≠ 0 := by
  obtain ⟨n, _, _, _, positive, _⟩ := h
  exact positive

/-! ## Numbers and keys -/

theorem number_eq_ok_iff {s rest : Bytes} {n : Nat} :
    number s = .ok (n, rest) ↔ ∃ v, s = v ++ rest ∧ IsVarint v n := by
  rw [← readVarint?_eq_some_iff, number]
  cases readVarint? 0 s <;> simp

theorem key_eq_ok_iff {s rest : Bytes} {tag : Nat} {wire : WireType} :
    key s = .ok ((tag, wire), rest) ↔ ∃ k, s = k ++ rest ∧ IsKey k tag wire := by
  rw [key, bind_eq_ok_iff]
  constructor
  · rintro ⟨⟨n, rest'⟩, read, h⟩
    obtain ⟨k, rfl, varint⟩ := number_eq_ok_iff.mp read
    by_cases large : UInt32.size ≤ n
    · simp [large] at h
    · cases code : WireType.ofCode? (n % 8) with
      | none => simp [large, code] at h
      | some wire' =>
        by_cases zero : n / 8 = 0
        · simp [large, code, zero] at h
        · simp [large, code, zero, pure_eq_ok_iff] at h
          obtain ⟨⟨rfl, rfl⟩, rfl⟩ := h
          exact ⟨k, rfl, n, varint, Nat.lt_of_not_le large, rfl, zero, code⟩
  · rintro ⟨k, rfl, n, varint, small, rfl, positive, code⟩
    refine ⟨(n, rest), number_eq_ok_iff.mpr ⟨k, rfl, varint⟩, ?_⟩
    have small : ¬ UInt32.size ≤ n := Nat.not_le_of_lt small
    simp [small, code, positive, pure_eq_ok_iff]

theorem advance_eq_ok_iff {n : Nat} {s rest : Bytes} :
    advance n s = .ok rest ↔ ∃ v, s = v ++ rest ∧ v.length = n := by
  rw [advance]
  constructor
  · intro h
    split at h
    · next enough =>
      cases h
      exact ⟨s.take n, (List.take_append_drop n s).symm, List.length_take_of_le enough⟩
    · cases h
  · rintro ⟨v, rfl, rfl⟩
    simp

/-! ## Fields that are passed over -/

theorem group_of_skipGroup {skipInner : Nat → WireType → Bytes → Except Fault Bytes}
    {inside : Nat → WireType → Bytes → Prop} {tag steps : Nat} {s rest : Bytes}
    (sound : ∀ tag wire s rest, skipInner tag wire s = .ok rest →
      ∃ v, s = v ++ rest ∧ inside tag wire v)
    (h : skipGroup skipInner tag steps s = .ok rest) : ∃ v, s = v ++ rest ∧ Group inside tag v := by
  induction steps generalizing s with
  | zero => cases h
  | succ steps ih =>
    rw [skipGroup, bind_eq_ok_iff] at h
    obtain ⟨⟨⟨inner, wire⟩, after⟩, read, h⟩ := h
    obtain ⟨k, rfl, key⟩ := key_eq_ok_iff.mp read
    by_cases ends : wire = .endGroup
    · subst ends
      by_cases own : inner = tag
      · subst own
        simp only [if_true] at h
        cases h
        exact ⟨k, rfl, .close key⟩
      · simp only [if_true, if_neg own] at h
        cases h
    · simp only [if_neg ends] at h
      obtain ⟨left, passed, continued⟩ := bind_eq_ok_iff.mp h
      obtain ⟨v, rfl, contents⟩ := sound inner wire after left passed
      obtain ⟨others, rfl, group⟩ := ih continued
      exact ⟨k ++ v ++ others, by simp, .field key ends contents group⟩

theorem skipGroup_of_group {skipInner : Nat → WireType → Bytes → Except Fault Bytes}
    {inside : Nat → WireType → Bytes → Prop} {tag steps : Nat} {v : Bytes} (rest : Bytes)
    (complete : ∀ tag wire v rest, inside tag wire v → skipInner tag wire (v ++ rest) = .ok rest)
    (group : Group inside tag v) (h : v.length < steps) :
    skipGroup skipInner tag steps (v ++ rest) = .ok rest := by
  induction group generalizing steps with
  | @close k key =>
    cases steps with
    | zero => omega
    | succ steps =>
      have read : Wire.key (k ++ rest) = _ := key_eq_ok_iff.mpr ⟨k, rfl, key⟩
      rw [skipGroup, read]
      simp [bind, Except.bind, pure, Except.pure]
  | @field k v others inner wire key opens contents _ ih =>
    cases steps with
    | zero => omega
    | succ steps =>
      have read : Wire.key (k ++ (v ++ (others ++ rest))) = _ := key_eq_ok_iff.mpr ⟨k, rfl, key⟩
      have passed := complete inner wire v (others ++ rest) contents
      have := key.length_pos
      simp only [List.length_append] at h
      have continued : skipGroup skipInner tag steps (others ++ rest) = .ok rest := ih (by omega)
      rw [skipGroup, List.append_assoc, List.append_assoc, read]
      simp [bind, Except.bind, opens, passed, continued]

theorem contents_of_skip {depth tag : Nat} {wire : WireType} {s rest : Bytes}
    (h : skip depth tag wire s = .ok rest) : ∃ v, s = v ++ rest ∧ Contents depth tag wire v := by
  induction depth generalizing tag wire s rest with
  | zero => cases h
  | succ depth ih =>
    cases wire with
    | varint =>
      rw [skip, map_eq_ok_iff] at h
      obtain ⟨⟨n, after⟩, read, rfl⟩ := h
      obtain ⟨v, e, varint⟩ := number_eq_ok_iff.mp read
      exact ⟨v, e, n, varint⟩
    | sixtyFourBit => exact advance_eq_ok_iff.mp h
    | thirtyTwoBit => exact advance_eq_ok_iff.mp h
    | lengthDelimited =>
      rw [skip, bind_eq_ok_iff] at h
      obtain ⟨⟨n, after⟩, read, taken⟩ := h
      obtain ⟨l, rfl, varint⟩ := number_eq_ok_iff.mp read
      obtain ⟨body, rfl, rfl⟩ := advance_eq_ok_iff.mp taken
      exact ⟨l ++ body, (List.append_assoc l body rest).symm, l, body, rfl, varint⟩
    | startGroup => exact group_of_skipGroup (fun _ _ _ _ passed => ih passed) h
    | endGroup => cases h

theorem skip_varint {steps tag : Nat} {v : Bytes} (rest : Bytes) (h : ∃ n, IsVarint v n) :
    skip (steps + 1) tag .varint (v ++ rest) = .ok rest := by
  obtain ⟨n, varint⟩ := h
  rw [skip, map_eq_ok_iff]
  exact ⟨(n, rest), number_eq_ok_iff.mpr ⟨v, rfl, varint⟩, rfl⟩

theorem skip_lengthDelimited {steps tag : Nat} {v : Bytes} (rest : Bytes)
    (h : ∃ l body, v = l ++ body ∧ IsVarint l body.length) :
    skip (steps + 1) tag .lengthDelimited (v ++ rest) = .ok rest := by
  obtain ⟨l, body, rfl, varint⟩ := h
  rw [skip, bind_eq_ok_iff, List.append_assoc]
  exact ⟨(body.length, body ++ rest), number_eq_ok_iff.mpr ⟨l, rfl, varint⟩,
    advance_eq_ok_iff.mpr ⟨body, rfl, rfl⟩⟩

/-- Contents other than groups are passed over at any depth. -/
theorem skip_of_plain {depth steps tag : Nat} {wire : WireType} {v : Bytes} (rest : Bytes)
    (plain : wire ≠ .startGroup) (h : Contents depth tag wire v) :
    skip (steps + 1) tag wire (v ++ rest) = .ok rest := by
  have flat : Contents 0 tag wire v := by
    cases depth with
    | zero => exact h
    | succ depth => cases wire <;> first | exact h | exact absurd rfl plain
  cases wire with
  | varint => exact skip_varint rest flat
  | sixtyFourBit => exact advance_eq_ok_iff.mpr ⟨v, rfl, flat⟩
  | lengthDelimited => exact skip_lengthDelimited rest flat
  | startGroup => exact absurd rfl plain
  | endGroup => exact flat.elim
  | thirtyTwoBit => exact advance_eq_ok_iff.mpr ⟨v, rfl, flat⟩

theorem skip_of_contents {depth steps tag : Nat} {wire : WireType} {v : Bytes} (rest : Bytes)
    (enough : depth < steps) (h : Contents depth tag wire v) :
    skip steps tag wire (v ++ rest) = .ok rest := by
  induction depth generalizing steps tag wire v rest with
  | zero =>
    cases steps with
    | zero => omega
    | succ steps =>
      have plain : wire ≠ .startGroup := by
        rintro rfl
        exact h
      exact skip_of_plain rest plain h
  | succ depth ih =>
    cases steps with
    | zero => omega
    | succ steps =>
      by_cases group : wire = .startGroup
      · subst group
        have inner : depth < steps := Nat.lt_of_succ_lt_succ enough
        refine skipGroup_of_group rest (fun _ _ _ after inside => ih after inner inside) h ?_
        rw [List.length_append]
        omega
      · exact skip_of_plain rest group h

/-! ## One reading only -/

theorem IsVarint.unambiguous {v v' r r' : Bytes} {n n' : Nat} (h : IsVarint v n)
    (h' : IsVarint v' n') (same : v ++ r = v' ++ r') : n = n' ∧ r = r' := by
  have read : number (v ++ r) = _ := number_eq_ok_iff.mpr ⟨v, rfl, h⟩
  rw [same, number_eq_ok_iff.mpr ⟨v', rfl, h'⟩] at read
  cases read
  exact ⟨rfl, rfl⟩

theorem IsKey.unambiguous {k k' r r' : Bytes} {tag tag' : Nat} {wire wire' : WireType}
    (h : IsKey k tag wire) (h' : IsKey k' tag' wire') (same : k ++ r = k' ++ r') :
    tag = tag' ∧ wire = wire' ∧ r = r' := by
  have read : key (k ++ r) = _ := key_eq_ok_iff.mpr ⟨k, rfl, h⟩
  rw [same, key_eq_ok_iff.mpr ⟨k', rfl, h'⟩] at read
  cases read
  exact ⟨rfl, rfl, rfl⟩

theorem Contents.unambiguous {depth depth' tag : Nat} {wire : WireType} {v v' r r' : Bytes}
    (h : Contents depth tag wire v) (h' : Contents depth' tag wire v')
    (same : v ++ r = v' ++ r') : r = r' := by
  have passed := skip_of_contents r (Nat.lt_succ_of_le (Nat.le_max_left depth depth')) h
  rw [same, skip_of_contents r' (Nat.lt_succ_of_le (Nat.le_max_right depth depth')) h'] at passed
  cases passed
  rfl

/-! ## Packed lists -/

theorem numbersUntil_ok {after steps : Nat} {s rest : Bytes} {ns : List Nat}
    (enough : s.length < steps) (h : numbersUntil after steps s = .ok (ns, rest)) :
    ∃ body, s = body ++ rest ∧ Varints body ns ∧ rest.length = after := by
  induction steps generalizing s ns with
  | zero => omega
  | succ steps ih =>
    rw [numbersUntil] at h
    by_cases stops : s.length ≤ after
    · by_cases whole : s.length = after
      · simp only [if_pos stops, if_pos whole] at h
        cases h
        exact ⟨[], rfl, .nil, whole⟩
      · simp [stops, whole] at h
    · simp only [if_neg stops] at h
      obtain ⟨⟨n, left⟩, read, continued⟩ := bind_eq_ok_iff.mp h
      obtain ⟨⟨others, left'⟩, read', result⟩ := bind_eq_ok_iff.mp continued
      obtain ⟨v, rfl, first⟩ := number_eq_ok_iff.mp read
      have := first.length_pos
      rw [List.length_append] at enough
      cases result
      have fewer : left.length < steps := by omega
      obtain ⟨body, rfl, varints, length⟩ := ih fewer read'
      exact ⟨v ++ body, (List.append_assoc v body left').symm, .cons first varints, length⟩

theorem numbersUntil_of_varints {steps : Nat} {body rest : Bytes} {ns : List Nat}
    (varints : Varints body ns) (enough : (body ++ rest).length < steps) :
    numbersUntil rest.length steps (body ++ rest) = .ok (ns, rest) := by
  induction varints generalizing steps with
  | nil =>
    cases steps with
    | zero => omega
    | succ steps => simp [numbersUntil, pure_eq_ok_iff]
  | @cons v others n ns first _ ih =>
    cases steps with
    | zero => omega
    | succ steps =>
      have read : number (v ++ (others ++ rest)) = _ := number_eq_ok_iff.mpr ⟨v, rfl, first⟩
      have := first.length_pos
      simp only [List.length_append] at enough
      have goesOn : ¬ (v ++ (others ++ rest)).length ≤ rest.length := by
        simp only [List.length_append]
        omega
      have fewer : (others ++ rest).length < steps := by
        rw [List.length_append]
        omega
      have continued := ih fewer
      rw [List.append_assoc, numbersUntil, if_neg goesOn, read]
      simp [bind, Except.bind, continued, pure, Except.pure]

theorem packed_eq_ok_iff {s rest : Bytes} {ns : List Nat} :
    packed s = .ok (ns, rest) ↔
      ∃ l body, s = l ++ body ++ rest ∧ IsVarint l body.length ∧ Varints body ns := by
  rw [packed, bind_eq_ok_iff]
  constructor
  · rintro ⟨⟨n, after⟩, read, h⟩
    obtain ⟨l, rfl, varint⟩ := number_eq_ok_iff.mp read
    by_cases short : after.length < n
    · simp [short] at h
    · simp only [if_neg short] at h
      obtain ⟨body, rfl, varints, length⟩ := numbersUntil_ok (Nat.lt_succ_self _) h
      have e : n = body.length := by
        rw [List.length_append] at length short
        omega
      subst e
      exact ⟨l, body, (List.append_assoc l body rest).symm, varint, varints⟩
  · rintro ⟨l, body, rfl, varint, varints⟩
    refine ⟨(body.length, body ++ rest),
      number_eq_ok_iff.mpr ⟨l, List.append_assoc l body rest, varint⟩, ?_⟩
    have fits : ¬ (body ++ rest).length < body.length := by
      rw [List.length_append]
      omega
    have after : (body ++ rest).length - body.length = rest.length := by
      rw [List.length_append]
      omega
    have read := numbersUntil_of_varints varints (Nat.lt_succ_self (body ++ rest).length)
    simp only [if_neg fits, after]
    exact read

/-! ## Writing -/

theorem isKey_writeKey {tag code : Nat} {wire : WireType} (positive : tag ≠ 0)
    (small : 8 * tag + 7 < UInt32.size) (announced : WireType.ofCode? code = some wire) :
    IsKey (writeKey tag code) tag wire := by
  have low : code < 8 := by
    rcases Nat.lt_or_ge code 8 with low | high
    · exact low
    · obtain ⟨k, rfl⟩ := Nat.exists_eq_add_of_le' high
      cases announced
  have below : 8 * tag + code < UInt32.size := by omega
  refine ⟨8 * tag + code, isVarint_varint (Nat.lt_trans below (by decide)), below, by omega,
    positive, ?_⟩
  have e : (8 * tag + code) % 8 = code := by omega
  rw [e, announced]

theorem varints_flatMap {ns : List Nat} (h : ∀ n ∈ ns, n < UInt64.size) :
    Varints (ns.flatMap varint) ns := by
  induction ns with
  | nil => exact .nil
  | cons n rest ih =>
    rw [List.flatMap_cons]
    exact .cons (isVarint_varint (h n List.mem_cons_self))
      (ih fun m member => h m (List.mem_cons_of_mem n member))

/-! ## Lengths -/

/-- A run of varints is as long as the one that is written for its numbers, or longer. -/
theorem Varints.length_flatMap_le {body : Bytes} {ns : List Nat} (h : Varints body ns) :
    (ns.flatMap varint).length ≤ body.length := by
  induction h with
  | nil => exact Nat.le_refl 0
  | cons first _ ih =>
    rw [List.flatMap_cons, List.length_append, List.length_append]
    exact Nat.add_le_add (length_varint_le_of_sevens first.1 (Nat.le_refl _)) ih

theorem length_flatMap_varint_mono {ms ns : List Nat} (h : List.Forall₂ (· ≤ ·) ms ns) :
    (ms.flatMap varint).length ≤ (ns.flatMap varint).length := by
  induction h with
  | nil => exact Nat.le_refl 0
  | cons first _ ih =>
    rw [List.flatMap_cons, List.flatMap_cons, List.length_append, List.length_append]
    exact Nat.add_le_add (length_varint_mono first) ih

theorem length_writeKey {tag code : Nat} (low : 8 * tag + code < 128) :
    (writeKey tag code).length = 1 := by
  rw [writeKey, varint, if_pos low]
  rfl

theorem length_writeNumber_le (tag : Nat) {n : Nat} (low : 8 * tag < 128)
    (small : n < UInt64.size) : (writeNumber tag n).length ≤ 11 := by
  rw [writeNumber]
  split
  · exact Nat.zero_le 11
  · have value := (isVarint_varint small).2.1
    rw [List.length_append, length_writeKey low]
    omega

theorem length_writePacked_le (tag : Nat) {ns : List Nat} (low : 8 * tag + 2 < 128)
    (small : (ns.flatMap varint).length < UInt64.size) :
    (writePacked tag ns).length ≤ (ns.flatMap varint).length + 11 := by
  rw [writePacked]
  split
  · exact Nat.zero_le _
  · have length := (isVarint_varint small).2.1
    rw [List.length_append, List.length_append, length_writeKey low]
    omega

/-! Numbers below 128 take one byte each. -/

theorem length_varint_of_lt {n : Nat} (small : n < 128) : (varint n).length = 1 := by
  rw [varint, if_pos small]
  rfl

theorem length_writeNumber_of_lt (tag : Nat) {n : Nat} (low : 8 * tag < 128) (small : n < 128) :
    (writeNumber tag n).length = if n = 0 then 0 else 2 := by
  rw [writeNumber]
  split
  · rfl
  · rw [List.length_append, length_writeKey low, length_varint_of_lt small]

theorem length_flatMap_varint_of_lt {ns : List Nat} (small : ∀ n ∈ ns, n < 128) :
    (ns.flatMap varint).length = ns.length := by
  induction ns with
  | nil => rfl
  | cons n rest ih =>
    obtain ⟨first, others⟩ := List.forall_mem_cons.mp small
    rw [List.flatMap_cons, List.length_append, length_varint_of_lt first, ih others,
      List.length_cons, Nat.add_comm]

theorem length_writePacked_of_lt (tag : Nat) {ns : List Nat} (low : 8 * tag + 2 < 128)
    (small : ∀ n ∈ ns, n < 128) (few : ns.length < 128) :
    (writePacked tag ns).length = if ns = [] then 0 else ns.length + 2 := by
  rw [writePacked]
  cases ns with
  | nil => rfl
  | cons n rest =>
    have body := length_flatMap_varint_of_lt small
    simp only [List.isEmpty_cons, Bool.false_eq_true, if_false, reduceCtorEq, List.length_append,
      length_writeKey low, body, length_varint_of_lt few]
    omega

end ChainConformance.Wire
