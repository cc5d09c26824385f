import ChainConformance.Error
import ChainConformance.Proofs.Outcome
import ChainConformance.Proofs.Text.Numeral

/-!
# What sets of indices are written for

`Spans first last part` says without the reader which interval a piece between commas stands for.
Proved here:

* `readInterval_eq_ok_iff`: a piece is read as the interval that it stands for, if it stands for
  one;
* `read_accepts_grammar`: which texts are sets, what is in them, and which piece an error is about;
* `read_render`: a set is read back from what is written for it.
-/

namespace ChainConformance

namespace IndexSet

open Text

/-! ## The grammar -/

/-- A numeral of an index with blanks around it. -/
def IsIndex (n : Nat) (text : List Char) : Prop :=
  ∃ before numeral after, text = before ++ numeral ++ after ∧ Numeral.IsNumeral n numeral ∧
    n < UInt64.size ∧ (∀ c ∈ before, isBlank c = true) ∧ ∀ c ∈ after, isBlank c = true

/-- One index stands for itself, two with a dash between them for all from the first to the last. -/
inductive Spans : (first last : Nat) → List Char → Prop
  | single {n : Nat} {part : List Char} (index : IsIndex n part) : Spans n n part
  | range {first last : Nat} {start stop : List Char} (lower : IsIndex first start)
      (upper : IsIndex last stop) (ordered : first ≤ last) :
      Spans first last (start ++ '-' :: stop)

/-- Two indices with a dash between them of which the second is the smaller one. -/
def Backwards (part : List Char) : Prop :=
  ∃ first last start stop, part = start ++ '-' :: stop ∧ IsIndex first start ∧
    IsIndex last stop ∧ last < first

/-! ## Indices -/

theorem isIndex_iff {n : Nat} {text : List Char} :
    IsIndex n text ↔ Numeral.IsNumeral n (trim text) ∧ n < UInt64.size := by
  constructor
  · rintro ⟨before, numeral, after, rfl, is, small, front, back⟩
    have visible : ∀ c ∈ numeral, isBlank c = false := fun _ => Numeral.visible_of_isNumeral is
    rw [trim_append (Numeral.ne_nil_of_isNumeral is) visible front back]
    exact ⟨is, small⟩
  · rintro ⟨is, small⟩
    obtain ⟨before, after, front, back, whole⟩ := exists_blanks_trim text
    exact ⟨before, trim text, after, whole, is, small, front, back⟩

theorem IsIndex.not_mem {n : Nat} {text : List Char} {c : Char} (h : IsIndex n text)
    (other : Numeral.isDigit c = false) (unsigned : c ≠ '+') (visible : isBlank c = false) :
    c ∉ text := by
  obtain ⟨before, numeral, after, rfl, is, -, front, back⟩ := h
  rw [List.mem_append, List.mem_append]
  rintro ((member | member) | member)
  · cases visible.symm.trans (front c member)
  · exact Numeral.not_mem_of_isNumeral is other unsigned member
  · cases visible.symm.trans (back c member)

theorem IsIndex.free {n : Nat} {text : List Char} (h : IsIndex n text) : '-' ∉ text :=
  h.not_mem rfl (by decide) rfl

theorem readIndex_eq_ok_iff {part text : List Char} {n : UInt64} :
    readIndex part text = .ok n ↔ IsIndex n.toNat text := by
  have limit : indexLimit = UInt64.size := rfl
  rw [isIndex_iff, ← limit, ← Numeral.read_eq_ok_iff, readIndex]
  cases h : Numeral.read indexLimit (trim text) with
  | error fault => simp
  | ok m =>
    have small : m < UInt64.size := (Numeral.read_eq_ok_iff.mp h).2
    simp only [Except.ok.injEq]
    constructor
    · rintro rfl
      rw [UInt64.toNat_ofNat_of_lt' small]
    · rintro rfl
      exact UInt64.ofNat_toNat

theorem readIndex_eq_error {part text : List Char} {fault : Fault}
    (h : readIndex part text = .error fault) :
    (∃ cause, fault = .numeral (String.ofList part) cause) ∧ ∀ n, ¬ IsIndex n text := by
  constructor
  · rw [readIndex] at h
    split at h
    · cases h
    · next cause _ =>
      cases h
      exact ⟨cause, rfl⟩
  · intro n is
    have value : (UInt64.ofNat n).toNat = n := UInt64.toNat_ofNat_of_lt' (isIndex_iff.mp is).2
    rw [← value, ← readIndex_eq_ok_iff, h] at is
    cases is

/-! ## Intervals -/

theorem readInterval_eq_ok_iff {part : List Char} {r : Interval} :
    readInterval part = .ok r ↔ Spans r.first.toNat r.last.toNat part := by
  constructor
  · intro h
    rw [readInterval] at h
    split at h
    · obtain ⟨n, read, made⟩ := bind_eq_ok_iff.mp h
      cases made
      exact .single (readIndex_eq_ok_iff.mp read)
    · next start stop found =>
      obtain ⟨first, lower, later⟩ := bind_eq_ok_iff.mp h
      obtain ⟨last, upper, checked⟩ := bind_eq_ok_iff.mp later
      split at checked
      · next ordered =>
        cases checked
        rw [eq_of_cut found]
        exact .range (readIndex_eq_ok_iff.mp lower) (readIndex_eq_ok_iff.mp upper)
          (UInt64.le_iff_toNat_le.mp ordered)
      · cases checked
  · intro h
    obtain ⟨first, last, ordered⟩ := r
    generalize low : first.toNat = m at h
    generalize high : last.toNat = n at h
    cases h with
    | single index =>
      have read : readIndex part part = .ok first := readIndex_eq_ok_iff.mpr (low ▸ index)
      obtain rfl : first = last := UInt64.toNat_inj.mp (low.trans high.symm)
      rw [readInterval, cut_of_not_mem index.free, read]
      rfl
    | range lower upper =>
      subst low high
      have below {whole} : readIndex whole _ = .ok first := readIndex_eq_ok_iff.mpr lower
      have above {whole} : readIndex whole _ = .ok last := readIndex_eq_ok_iff.mpr upper
      simp only [readInterval, cut_append lower.free, below, above, ok_bind, dif_pos ordered]
      rfl

/-- The ends of what a piece stands for are indices in the right order. -/
theorem Spans.ordered {first last : Nat} {part : List Char} (h : Spans first last part) :
    first ≤ last ∧ last < UInt64.size := by
  cases h with
  | single index => exact ⟨Nat.le_refl _, (isIndex_iff.mp index).2⟩
  | range _ upper ordered => exact ⟨ordered, (isIndex_iff.mp upper).2⟩

theorem exists_readInterval {first last : Nat} {part : List Char} (h : Spans first last part) :
    ∃ r, readInterval part = .ok r ∧ r.first.toNat = first ∧ r.last.toNat = last := by
  obtain ⟨ordered, small⟩ := h.ordered
  have low : (UInt64.ofNat first).toNat = first :=
    UInt64.toNat_ofNat_of_lt' (Nat.lt_of_le_of_lt ordered small)
  have high : (UInt64.ofNat last).toNat = last := UInt64.toNat_ofNat_of_lt' small
  have ordered' : UInt64.ofNat first ≤ UInt64.ofNat last := by
    rw [UInt64.le_iff_toNat_le, low, high]
    exact ordered
  refine ⟨⟨.ofNat first, .ofNat last, ordered'⟩, readInterval_eq_ok_iff.mpr ?_, low, high⟩
  change Spans (UInt64.ofNat first).toNat (UInt64.ofNat last).toNat part
  rw [low, high]
  exact h

theorem exists_readInterval_iff {part : List Char} :
    (∃ r, readInterval part = .ok r) ↔ ∃ first last, Spans first last part := by
  constructor
  · rintro ⟨r, read⟩
    exact ⟨_, _, readInterval_eq_ok_iff.mp read⟩
  · rintro ⟨first, last, spans⟩
    obtain ⟨r, read, -⟩ := exists_readInterval spans
    exact ⟨r, read⟩

/-- A piece stands for one interval at most. -/
theorem Spans.unique {first last first' last' : Nat} {part : List Char}
    (h : Spans first last part) (h' : Spans first' last' part) : first = first' ∧ last = last' := by
  obtain ⟨r, read, rfl, rfl⟩ := exists_readInterval h
  obtain ⟨r', read', rfl, rfl⟩ := exists_readInterval h'
  cases read.symm.trans read'
  exact ⟨rfl, rfl⟩

/-- An error is about the piece: a number of it is no index, or its indices are in the wrong
order. -/
theorem readInterval_eq_error {part : List Char} {fault : Fault}
    (h : readInterval part = .error fault) :
    (∃ cause, fault = .numeral (String.ofList part) cause ∧ ¬ Backwards part) ∨
      fault = .reversed (String.ofList part) ∧ Backwards part := by
  rw [readInterval] at h
  split at h
  · next free =>
    rcases bind_eq_error_iff.mp h with refused | ⟨n, -, made⟩
    · obtain ⟨⟨cause, rfl⟩, -⟩ := readIndex_eq_error refused
      refine .inl ⟨cause, rfl, ?_⟩
      rintro ⟨_, _, start, stop, rfl, lower, -⟩
      rw [cut_append lower.free] at free
      cases free
    · cases made
  · next start stop found =>
    -- whatever stands around the first dash, there is one way only to cut the piece
    have parts {first : Nat} {front back : List Char} (lower : IsIndex first front)
        (whole : part = front ++ '-' :: back) : start = front ∧ stop = back := by
      rw [whole, cut_append lower.free] at found
      cases found
      exact ⟨rfl, rfl⟩
    rcases bind_eq_error_iff.mp h with refused | ⟨first, read, later⟩
    · obtain ⟨⟨cause, rfl⟩, bad⟩ := readIndex_eq_error refused
      refine .inl ⟨cause, rfl, ?_⟩
      rintro ⟨m, n, front, back, whole, lower, -⟩
      obtain ⟨rfl, rfl⟩ := parts lower whole
      exact bad m lower
    · rcases bind_eq_error_iff.mp later with refused | ⟨last, read', checked⟩
      · obtain ⟨⟨cause, rfl⟩, bad⟩ := readIndex_eq_error refused
        refine .inl ⟨cause, rfl, ?_⟩
        rintro ⟨m, n, front, back, whole, lower, upper, -⟩
        obtain ⟨rfl, rfl⟩ := parts lower whole
        exact bad n upper
      · split at checked
        · cases checked
        · next backwards =>
          cases checked
          rw [UInt64.le_iff_toNat_le, Nat.not_le] at backwards
          exact .inr ⟨rfl, first.toNat, last.toNat, start, stop, eq_of_cut found,
            readIndex_eq_ok_iff.mp read, readIndex_eq_ok_iff.mp read', backwards⟩

/-! ## Sets -/

theorem read_eq_ok_iff {s : String} {set : IndexSet} :
    read s = .ok set ↔
      List.Forall₂ (fun part r => readInterval part = .ok r) (splitOn ',' s.toList)
        set.intervals := by
  rw [← mapM_eq_ok_iff, read]
  cases (splitOn ',' s.toList).mapM readInterval with
  | error fault => simp
  | ok intervals =>
    change Except.ok (IndexSet.mk intervals) = .ok set ↔ _
    cases set
    simp

theorem read_eq_error_iff {s : String} {fault : Fault} :
    read s = .error fault ↔ (splitOn ',' s.toList).mapM readInterval = .error fault := by
  rw [read]
  cases (splitOn ',' s.toList).mapM readInterval with
  | error fault => simp
  | ok intervals => exact ⟨fun h => (by cases h), fun h => (by cases h)⟩

/-- A text has at least one piece. -/
theorem intervals_of_read {s : String} {set : IndexSet} (h : read s = .ok set) :
    set.intervals ≠ [] := by
  intro none
  have parts := read_eq_ok_iff.mp h
  rw [none, List.forall₂_nil_right_iff] at parts
  exact (separated_splitOn ',' s.toList).some parts

theorem contains_iff {set : IndexSet} {n : Nat} : set.contains n = true ↔
    ∃ r ∈ set.intervals, r.first.toNat ≤ n ∧ n ≤ r.last.toNat := by
  simp [contains, Interval.contains]

theorem mem_below_iff {set : IndexSet} {limit n : Nat} :
    n ∈ set.below limit ↔ n < limit ∧ set.contains n = true := by
  rw [below, List.mem_filter, List.mem_range]

theorem pairwise_below (set : IndexSet) (limit : Nat) : (set.below limit).Pairwise (· < ·) :=
  List.pairwise_lt_range.filter _

/-- A text is a set exactly if each of its pieces stands for an interval, and the set is made of
these. Otherwise the error is about the first piece that stands for none. -/
theorem read_accepts_grammar (s : String) : ∃ parts, Separated ',' parts s.toList ∧
    ((∃ set, read s = .ok set) ↔ ∀ part ∈ parts, ∃ first last, Spans first last part) ∧
    (∀ set, read s = .ok set → set.isEmpty = false ∧
      (∀ n, set.contains n = true ↔
        ∃ part ∈ parts, ∃ first last, Spans first last part ∧ first ≤ n ∧ n ≤ last) ∧
      ∀ limit, (set.below limit).Pairwise (· < ·) ∧
        ∀ n, n ∈ set.below limit ↔ n < limit ∧ set.contains n = true) ∧
    ∀ fault, read s = .error fault → (Error.indexSet fault).kind = .testCase ∧
      ∃ good part others, parts = good ++ part :: others ∧
        (∀ p ∈ good, ∃ first last, Spans first last p) ∧
        (¬ ∃ first last, Spans first last part) ∧
        ((∃ cause, fault = .numeral (String.ofList part) cause ∧ ¬ Backwards part ∧
            (Error.indexSet fault).message = "Invalid test case: " ++
              ("invalid index range " ++ quoted (String.ofList part) ++ ": " ++ cause.message)) ∨
          fault = .reversed (String.ofList part) ∧ Backwards part ∧
            (Error.indexSet fault).message = "Invalid test case: " ++
              ("index range " ++ quoted (String.ofList part) ++ " ends before it starts")) := by
  refine ⟨splitOn ',' s.toList, separated_splitOn ',' s.toList, ?_, fun set h => ?_,
    fun fault h => ⟨rfl, ?_⟩⟩
  · simp only [← exists_readInterval_iff, ← exists_forall₂_iff, read_eq_ok_iff]
    exact ⟨fun ⟨set, parts⟩ => ⟨_, parts⟩, fun ⟨intervals, parts⟩ => ⟨⟨intervals⟩, parts⟩⟩
  · have parts := read_eq_ok_iff.mp h
    refine ⟨List.isEmpty_eq_false_iff.mpr (intervals_of_read h),
      fun n => contains_iff.trans ⟨?_, ?_⟩,
      fun limit => ⟨pairwise_below set limit, fun n => mem_below_iff⟩⟩
    · rintro ⟨r, member, inside⟩
      obtain ⟨part, present, read⟩ := exists_of_mem_right parts member
      exact ⟨part, present, _, _, readInterval_eq_ok_iff.mp read, inside⟩
    · rintro ⟨part, present, first, last, spans, inside⟩
      obtain ⟨r, member, read⟩ := exists_of_mem_left parts present
      obtain ⟨rfl, rfl⟩ := (readInterval_eq_ok_iff.mp read).unique spans
      exact ⟨r, member, inside⟩
  · obtain ⟨good, part, others, whole, fine, refused⟩ :=
      mapM_eq_error_first (read_eq_error_iff.mp h)
    refine ⟨good, part, others, whole, fun p member => exists_readInterval_iff.mp (fine p member),
      ?_, ?_⟩
    · rw [← exists_readInterval_iff, refused]
      rintro ⟨r, impossible⟩
      cases impossible
    · rcases readInterval_eq_error refused with ⟨cause, rfl, forwards⟩ | ⟨rfl, backwards⟩
      · exact .inl ⟨cause, rfl, forwards, rfl⟩
      · exact .inr ⟨rfl, backwards, rfl⟩

/-- A second dash is part of no number. -/
example : read "0, 4 - 9 ,1-2-3,+" = .error (.numeral "1-2-3" .invalidDigit) := by decide +kernel

/-! ## Writing and reading back -/

theorem isIndex_decimal (n : UInt64) : IsIndex n.toNat (decimal n.toNat).toList :=
  ⟨[], _, [], (List.append_nil _).symm, Numeral.isNumeral_decimal n.toNat, n.toNat_lt,
    List.forall_mem_nil _, List.forall_mem_nil _⟩

/-- An interval is written as what stands for it. -/
theorem spans_render (r : Interval) : Spans r.first.toNat r.last.toNat r.render.toList := by
  rw [Interval.render]
  split
  · next same =>
    rw [← same]
    exact .single (isIndex_decimal r.first)
  · rw [String.toList_append, String.toList_append, List.append_assoc]
    exact .range (isIndex_decimal r.first) (isIndex_decimal r.last)
      (UInt64.le_iff_toNat_le.mp r.first_le_last)

theorem Spans.free {first last : Nat} {part : List Char} (h : Spans first last part) :
    ',' ∉ part := by
  cases h with
  | single index => exact index.not_mem rfl (by decide) rfl
  | range lower upper =>
    rw [List.mem_append, List.mem_cons]
    rintro (member | impossible | member)
    · exact lower.not_mem rfl (by decide) rfl member
    · cases impossible
    · exact upper.not_mem rfl (by decide) rfl member

/-- The pieces of what is written for a set are what is written for its intervals. -/
theorem splitOn_render {set : IndexSet} (some : set.intervals ≠ []) :
    splitOn ',' set.render.toList = set.intervals.map (·.render.toList) := by
  have free : ∀ part ∈ set.intervals.map (·.render.toList), ',' ∉ part := by
    rw [List.forall_mem_map]
    exact fun r _ => (spans_render r).free
  rw [render, join, String.toList_ofList, List.map_map]
  exact splitOn_intercalate (mt List.map_eq_nil_iff.mp some) free

theorem read_render {set : IndexSet} (some : set.intervals ≠ []) : read set.render = .ok set := by
  rw [read_eq_ok_iff, splitOn_render some, List.forall₂_map_left_iff, List.forall₂_same]
  exact fun r _ => readInterval_eq_ok_iff.mpr (spans_render r)

/-- What is written for a set that was read is read as the same set, and is written for that set
again. -/
theorem read_of_rendered {s : String} {set : IndexSet} (h : read s = .ok set) :
    ∃ again, read set.render = .ok again ∧ again.intervals = set.intervals ∧
      (∀ n, again.contains n = set.contains n) ∧ again.render = set.render :=
  ⟨set, read_render (intervals_of_read h), rfl, fun _ => rfl, rfl⟩

theorem rendered_of_untidy : ∃ set,
    read " +4 - 9 ,007,9-9,0-18446744073709551615,18446744073709551615" = .ok set ∧
      set.render = "4-9,7,9,0-18446744073709551615,18446744073709551615" ∧
      read "4-9,7,9,0-18446744073709551615,18446744073709551615" = .ok set := by
  obtain ⟨set, untidy, tidy⟩ : ∃ set,
      read " +4 - 9 ,007,9-9,0-18446744073709551615,18446744073709551615" = .ok set ∧
        set.render = "4-9,7,9,0-18446744073709551615,18446744073709551615" :=
    ⟨⟨[⟨4, 9, by decide⟩, ⟨7, 7, by decide⟩, ⟨9, 9, by decide⟩,
      ⟨0, 18446744073709551615, by decide⟩,
      ⟨18446744073709551615, 18446744073709551615, by decide⟩]⟩, by decide +kernel,
      by decide +kernel⟩
  obtain ⟨⟨again⟩, read, rfl, -⟩ := read_of_rendered untidy
  exact ⟨set, untidy, tidy, tidy ▸ read⟩

end IndexSet

end ChainConformance
