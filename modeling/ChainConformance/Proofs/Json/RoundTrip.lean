import ChainConformance.Json.Printer
import ChainConformance.Json.Reader
import Mathlib.Data.List.Basic
import Mathlib.Tactic.IntervalCases

/-!
# What is printed is read back

`Written` are the values that this library makes: every string has a text, and there are no numbers
but integers. Proved here, for both layouts:

* `number?_toDigits`, `literal?_renderText`: numbers and strings are read back, whatever follows;
* `value?_render`: so is every written value, with fuel for its length;
* `read_render`: the whole text denotes the value.
-/

namespace ChainConformance.Json

/-- Values that are made of texts and integers. -/
inductive Written : Json → Prop
  | null : Written .null
  | bool (b : Bool) : Written (.bool b)
  | int (n : Int) : Written (.int n)
  | str (s : String) : Written (str s)
  | array {items : List Json} (parts : ∀ x ∈ items, Written x) : Written (.array items)
  | obj {members : List (String × Json)} (parts : ∀ m ∈ members, Written m.2) :
    Written (obj members)

/-! ## Numbers -/

/-- What follows does not belong to a number. -/
def Stops (rest : List Char) : Prop :=
  ∀ c ∈ rest.head?, isDigit c = false ∧ c ≠ '.' ∧ c ≠ 'e' ∧ c ≠ 'E'

theorem isDigit_of_mem_toDigits {n : Nat} {c : Char} (member : c ∈ Nat.toDigits 10 n) :
    isDigit c = true := by
  have digit := Nat.isDigit_of_mem_toDigits (by decide) (by decide) member
  exact digit

theorem ne_of_isDigit {c x : Char} (digit : isDigit c = true) (other : isDigit x = false) :
    c ≠ x := by
  rintro rfl
  rw [digit] at other
  cases other

theorem digits_append {ds rest : List Char} (all : ∀ c ∈ ds, isDigit c = true)
    (stops : Stops rest) : digits (ds ++ rest) = (ds, rest) := by
  have taken : rest.takeWhile isDigit = [] := by
    cases rest with
    | nil => rfl
    | cons c rest => simp [(stops c rfl).1]
  have dropped : rest.dropWhile isDigit = rest := by
    cases rest with
    | nil => rfl
    | cons c rest => simp [(stops c rfl).1]
  rw [digits, List.takeWhile_append_of_pos all, List.dropWhile_append_of_pos all, taken, dropped,
    List.append_nil]

/-- The digits of a positive number start with another one than zero. -/
theorem head_toDigits_ne_zero {n : Nat} (positive : 0 < n) :
    ∃ d ds, Nat.toDigits 10 n = d :: ds ∧ d ≠ '0' := by
  induction n using Nat.strongRecOn with
  | _ n ih =>
    by_cases small : n < 10
    · refine ⟨n.digitChar, [], Nat.toDigits_of_lt_base small, ?_⟩
      interval_cases n <;> decide
    · obtain ⟨d, ds, digits, other⟩ := ih (n / 10) (by omega) (by omega)
      refine ⟨d, ds ++ [(n % 10).digitChar], ?_, other⟩
      rw [Nat.toDigits_of_base_le (by decide) (by omega), digits, List.cons_append]

theorem integerPart?_toDigits (n : Nat) {rest : List Char} (stops : Stops rest) :
    integerPart? (Nat.toDigits 10 n ++ rest) = some (Nat.toDigits 10 n, rest) := by
  have run : digits (Nat.toDigits 10 n ++ rest) = (Nat.toDigits 10 n, rest) :=
    digits_append (fun _ => isDigit_of_mem_toDigits) stops
  rw [integerPart?, run]
  rcases Nat.eq_zero_or_pos n with rfl | positive
  · rfl
  · obtain ⟨d, ds, digits, other⟩ := head_toDigits_ne_zero positive
    rw [digits]
    split <;> simp_all

theorem number?_toDigits (negative : Bool) (n : Nat) (nonzero : negative = true → n ≠ 0)
    {rest : List Char} (stops : Stops rest) :
    number? negative (Nat.toDigits 10 n ++ rest) =
      some (.int (if negative then -n else n), rest) := by
  have fraction : fraction? rest = some ([], rest) := by
    cases rest with
    | nil => rfl
    | cons c rest =>
      rw [fraction?]
      intro rest' e
      cases e
      exact (stops '.' rfl).2.1 rfl
  have exponent : exponent? rest = some ([], rest) := by
    cases rest with
    | nil => rfl
    | cons c rest =>
      obtain ⟨-, -, lower, upper⟩ := stops c rfl
      simp [exponent?, lower, upper]
  rw [number?, integerPart?_toDigits n stops]
  simpa [fraction, exponent, Nat.ofDigitChars_ten_toDigits] using nonzero

/-! ## Strings -/

theorem hexUnit?_control : ∀ n < 32, ∀ rest : List Char,
    hexUnit? ('0' :: '0' :: hexDigit (n / 16) :: hexDigit (n % 16) :: rest) = some (n, rest) := by
  intro n small rest
  interval_cases n <;> rfl

section
variable (c : Char) (fuel : Nat) (rest : List Char)

/-- A character that is written as a letter after a backslash. -/
theorem units?_letter (l : Char) (stands : escaped? l = some c) (other : l ≠ 'u')
    (quoted : isPlain c = false) : units? (fuel + 1) ('\\' :: l :: rest) =
      (units? fuel rest).map fun r => ((.char c :: r.1.1, isPlain c && r.1.2), r.2) := by
  rw [units?, stands, quoted]
  · cases units? fuel rest <;> rfl
  · exact other

/-- A character that is written by number. -/
theorem units?_control (control : c.toNat < 32) :
    units? (fuel + 1)
        ('\\' :: 'u' :: '0' :: '0' :: hexDigit (c.toNat / 16) :: hexDigit (c.toNat % 16) :: rest) =
      (units? fuel rest).map fun r => ((.char c :: r.1.1, isPlain c && r.1.2), r.2) := by
  have unit : Unit16.ofNat c.toNat = .char c := by
    rw [Unit16.ofNat, if_neg (by omega), Char.ofNat_toNat]
  have quoted : isPlain c = false := by simp [isPlain, control]
  rw [units?, hexUnit?_control _ control, quoted]
  change (units? fuel rest >>= fun r => some ((.ofNat c.toNat :: r.1.1, false), r.2)) = _
  rw [unit]
  cases units? fuel rest <;> rfl

/-- A character that stands for itself. -/
theorem units?_plain (plain : isPlain c = true) :
    units? (fuel + 1) (c :: rest) =
      (units? fuel rest).map fun r => ((.char c :: r.1.1, isPlain c && r.1.2), r.2) := by
  have quote : c ≠ '"' := by
    rintro rfl
    cases plain
  have backslash : c ≠ '\\' := by
    rintro rfl
    cases plain
  rw [units?, plain]
  · cases units? fuel rest <;> rfl
  · exact quote
  · exact fun _ e _ => backslash e
  · exact fun _ _ e _ => backslash e

/-- One step of the reader takes one character, escaped or not. -/
theorem units?_escape : units? (fuel + 1) (escape c ++ rest) =
    (units? fuel rest).map fun r => ((.char c :: r.1.1, isPlain c && r.1.2), r.2) := by
  unfold escape
  split
  · next e => exact e ▸ units?_letter '"' fuel rest '"' rfl (by decide) (by decide)
  split
  · next e => exact e ▸ units?_letter '\\' fuel rest '\\' rfl (by decide) (by decide)
  split
  · next e => exact e ▸ units?_letter '\n' fuel rest 'n' rfl (by decide) (by decide)
  split
  · next e => exact e ▸ units?_letter '\r' fuel rest 'r' rfl (by decide) (by decide)
  split
  · next e => exact e ▸ units?_letter '\t' fuel rest 't' rfl (by decide) (by decide)
  split
  · next e =>
    have same : c = Char.ofNat 8 := by rw [← e, Char.ofNat_toNat]
    exact same ▸ units?_letter (Char.ofNat 8) fuel rest 'b' rfl (by decide) (by decide)
  split
  · next e =>
    have same : c = Char.ofNat 12 := by rw [← e, Char.ofNat_toNat]
    exact same ▸ units?_letter (Char.ofNat 12) fuel rest 'f' rfl (by decide) (by decide)
  split
  · next control => exact units?_control c fuel rest control
  · next quote backslash _ _ _ _ _ control =>
    have plain : isPlain c = true := by
      simp only [isPlain, Bool.and_eq_true, decide_eq_true_eq, ne_eq]
      exact ⟨⟨quote, backslash⟩, Nat.not_lt.mp control⟩
    exact units?_plain c fuel rest plain

end

theorem units?_flatMap_escape (cs : List Char) (rest : List Char) :
    ∀ fuel, cs.length < fuel → units? fuel (cs.flatMap escape ++ '"' :: rest) =
      some ((cs.map .char, cs.all isPlain), rest) := by
  induction cs with
  | nil =>
    intro fuel enough
    obtain ⟨fuel, rfl⟩ := Nat.exists_eq_succ_of_ne_zero (Nat.ne_zero_of_lt enough)
    rfl
  | cons c cs ih =>
    intro fuel enough
    obtain ⟨fuel, rfl⟩ := Nat.exists_eq_succ_of_ne_zero (Nat.ne_zero_of_lt enough)
    have later := ih fuel (by simpa using enough)
    rw [List.flatMap_cons, List.append_assoc, units?_escape, later]
    rfl

theorem joinUnits_map_char (cs : List Char) : joinUnits (cs.map .char) = some cs := by
  induction cs with
  | nil => rfl
  | cons c cs ih => rw [List.map_cons, joinUnits, ih, Option.map_some]

theorem length_le_flatMap_escape (cs : List Char) : cs.length ≤ (cs.flatMap escape).length := by
  induction cs with
  | nil => exact Nat.le_refl 0
  | cons c cs ih =>
    have one : 1 ≤ (escape c).length := by
      unfold escape
      repeat' split
      all_goals simp
    rw [List.flatMap_cons, List.length_append, List.length_cons]
    omega

theorem literal?_renderText (s : String) (rest : List Char) :
    literal? (s.toList.flatMap escape ++ '"' :: rest) = some (.ofString s, rest) := by
  have enough : s.toList.length < (s.toList.flatMap escape ++ '"' :: rest).length + 1 := by
    have grows := length_le_flatMap_escape s.toList
    rw [List.length_append]
    omega
  rw [literal?, units?_flatMap_escape _ _ _ enough]
  simp [joinUnits_map_char, Literal.ofString]

/-! ## Blanks -/

theorem skipBlanks_cons {c : Char} (visible : isBlank c = false) (rest : List Char) :
    skipBlanks (c :: rest) = c :: rest := by
  simp [skipBlanks, visible]

theorem skipBlanks_newline (layout : Layout) (depth : Nat) (rest : List Char) :
    skipBlanks (layout.newline depth ++ rest) = skipBlanks rest := by
  have blank : ∀ c ∈ layout.newline depth, isBlank c = true := by
    cases layout with
    | compact => simp [Layout.newline]
    | pretty => simp [Layout.newline, isBlank]
  exact List.dropWhile_append_of_pos blank

theorem stops_newline (layout : Layout) (depth : Nat) {c : Char} {rest : List Char}
    (stops : Stops (c :: rest)) : Stops (layout.newline depth ++ c :: rest) := by
  cases layout with
  | compact => exact stops
  | pretty =>
    intro c' head
    obtain rfl : '\n' = c' := Option.some.inj head
    decide

/-- A value starts with a character that no blank is, nor the end of an array. -/
theorem exists_render_cons {v : Json} (written : Written v) (layout : Layout) (depth : Nat) :
    ∃ c s, render layout depth v = c :: s ∧ isBlank c = false ∧ c ≠ ']' := by
  cases written with
  | null => exact ⟨_, _, rfl, by decide, by decide⟩
  | bool b => cases b <;> exact ⟨_, _, rfl, by decide, by decide⟩
  | int n =>
    rw [render, renderInt]
    split
    · exact ⟨_, _, rfl, by decide, by decide⟩
    · cases text : Nat.toDigits 10 n.natAbs with
      | nil => exact absurd text Nat.toDigits_ne_nil
      | cons c s =>
        have digit : isDigit c = true := isDigit_of_mem_toDigits (text ▸ List.mem_cons_self)
        refine ⟨c, s, rfl, ?_, ne_of_isDigit digit (by decide)⟩
        have space := ne_of_isDigit digit (x := ' ') (by decide)
        have line := ne_of_isDigit digit (x := '\n') (by decide)
        have tab := ne_of_isDigit digit (x := '\t') (by decide)
        have feed := ne_of_isDigit digit (x := '\r') (by decide)
        simp [isBlank, space, line, tab, feed]
  | str s => exact ⟨_, _, rfl, by decide, by decide⟩
  | @array items parts => cases items <;> exact ⟨_, _, rfl, by decide, by decide⟩
  | @obj members parts => cases members <;> exact ⟨_, _, rfl, by decide, by decide⟩

/-! ## Values -/

theorem value?_digit {c : Char} (digit : isDigit c = true) (fuel : Nat) (s : List Char) :
    value? (fuel + 1) (c :: s) = number? false (c :: s) := by
  have other {x : Char} {t : List Char} (h : isDigit x = false) (e : c :: s = x :: t) : False :=
    ne_of_isDigit digit h (List.cons.inj e).1
  rw [value?]
  all_goals
    intro rest e
    exact other (by decide) e

/-- The value is read back, whatever follows that does not belong to a number. -/
def Reads (v : Json) : Prop :=
  ∀ layout depth fuel rest, 2 * (render layout depth v).length ≤ fuel → Stops rest →
    value? fuel (render layout depth v ++ rest) = some (v, rest)

theorem reads_int (n : Int) : Reads (.int n) := by
  intro layout depth fuel rest enough stops
  rw [render, renderInt] at enough ⊢
  split at enough
  · next negative =>
    obtain ⟨fuel, rfl⟩ := Nat.exists_eq_succ_of_ne_zero (n := fuel) (by
      rw [List.length_cons] at enough
      omega)
    rw [if_pos negative, List.cons_append, value?, number?_toDigits true _ (by omega) stops]
    have sign : (if true = true then -(n.natAbs : Int) else n.natAbs) = n := by
      rw [if_pos rfl]
      omega
    rw [sign]
  · next positive =>
    obtain ⟨fuel, rfl⟩ := Nat.exists_eq_succ_of_ne_zero (n := fuel) (by
      have some : 0 < (Nat.toDigits 10 n.natAbs).length := Nat.length_toDigits_pos
      omega)
    rw [if_neg positive]
    have read := number?_toDigits false n.natAbs (by simp) stops
    cases text : Nat.toDigits 10 n.natAbs with
    | nil => exact absurd text Nat.toDigits_ne_nil
    | cons c s =>
      have digit : isDigit c = true := isDigit_of_mem_toDigits (text ▸ List.mem_cons_self)
      rw [text, List.cons_append] at read
      rw [List.cons_append, value?_digit digit, read]
      have sign : (if false = true then -(n.natAbs : Int) else n.natAbs) = n := by
        rw [if_neg (by decide)]
        omega
      rw [sign]

theorem stops_mark {c : Char} (mark : c ∈ [',', ']', '}']) (rest : List Char) :
    Stops (c :: rest) := by
  intro c' head
  obtain rfl : c = c' := Option.some.inj head
  simp only [List.mem_cons, List.not_mem_nil, or_false] at mark
  rcases mark with rfl | rfl | rfl <;> decide

/-- Items are read back up to the end of their array. -/
theorem items?_render (layout : Layout) (depth outer : Nat) (rest : List Char) (xs : List Json) :
    ∀ x fuel, (∀ y ∈ x :: xs, Written y ∧ Reads y) →
      2 * (render layout depth x ++ renderItems layout depth xs).length + 1 ≤ fuel →
      items? fuel (render layout depth x ++ (renderItems layout depth xs ++
        (layout.newline outer ++ ']' :: rest))) = some (x :: xs, rest) := by
  induction xs with
  | nil =>
    intro x fuel parts enough
    obtain ⟨fuel, rfl⟩ := Nat.exists_eq_succ_of_ne_zero (n := fuel) (by omega)
    rw [renderItems, List.append_nil] at enough
    have read := (parts x List.mem_cons_self).2 layout depth fuel _ (by omega)
      (stops_newline layout outer (stops_mark (c := ']') (by decide) rest))
    rw [renderItems, List.nil_append, items?, read]
    simp [skipBlanks_newline, skipBlanks_cons (show isBlank ']' = false by decide)]
  | cons y ys ih =>
    intro x fuel parts enough
    obtain ⟨fuel, rfl⟩ := Nat.exists_eq_succ_of_ne_zero (n := fuel) (by omega)
    simp only [renderItems, List.length_append, List.length_cons] at enough
    have read := (parts x List.mem_cons_self).2 layout depth fuel
      (',' :: (layout.newline depth ++ (render layout depth y ++ (renderItems layout depth ys ++
        (layout.newline outer ++ ']' :: rest))))) (by omega) (stops_mark (by decide) _)
    have others := ih y fuel (fun z member => parts z (List.mem_cons_of_mem _ member)) (by
      rw [List.length_append]
      omega)
    obtain ⟨c, s, text, visible, -⟩ :=
      exists_render_cons (parts y (List.mem_cons_of_mem _ List.mem_cons_self)).1 layout depth
    rw [text, List.cons_append] at read others
    simp only [renderItems, List.cons_append, List.append_assoc]
    rw [items?, text, List.cons_append, read]
    simp [skipBlanks_newline, skipBlanks_cons visible,
      skipBlanks_cons (show isBlank ',' = false by decide), others]

/-- Members as they are printed. -/
def literals (members : List (String × Json)) : List (Literal × Json) :=
  members.map fun m => (.ofString m.1, m.2)

theorem exists_colon (layout : Layout) (rest : List Char) :
    ∃ t, layout.colon ++ rest = ':' :: t ∧ skipBlanks t = skipBlanks rest := by
  cases layout with
  | compact => exact ⟨rest, rfl, rfl⟩
  | pretty => exact ⟨' ' :: rest, rfl, rfl⟩

theorem skipBlanks_renderMember (layout : Layout) (depth : Nat) (m : Literal × Json)
    (rest : List Char) :
    skipBlanks (renderMember layout depth m ++ rest) = renderMember layout depth m ++ rest := by
  rw [renderMember]
  exact skipBlanks_cons (c := '"') (by decide) _

/-- The reader of members up to what follows the first one. -/
theorem members?_renderMember (layout : Layout) (depth fuel : Nat) {m : String × Json}
    (written : Written m.2) (reads : Reads m.2) {rest : List Char} (stops : Stops rest)
    (enough : 2 * (render layout depth m.2).length ≤ fuel) :
    members? (fuel + 1) (renderMember layout depth (.ofString m.1, m.2) ++ rest) =
      match skipBlanks rest with
      | '}' :: rest => some ([(.ofString m.1, m.2)], rest)
      | ',' :: rest =>
        (members? fuel (skipBlanks rest)).bind fun r => some ((.ofString m.1, m.2) :: r.1, r.2)
      | _ => none := by
  have read := reads layout depth fuel rest enough stops
  obtain ⟨c, s, text, visible, -⟩ := exists_render_cons written layout depth
  obtain ⟨t, colon, blanks⟩ := exists_colon layout (render layout depth m.2 ++ rest)
  have key : renderMember layout depth (.ofString m.1, m.2) ++ rest =
      '"' :: (m.1.toList.flatMap escape ++ '"' :: (':' :: t)) := by
    rw [renderMember, ← colon]
    simp [Literal.render, Literal.ofString, renderText]
  rw [key, members?, literal?_renderText]
  rw [text, List.cons_append] at read blanks
  rw [skipBlanks_cons visible] at blanks
  simp only [Option.bind_eq_bind, Option.bind_some,
    skipBlanks_cons (show isBlank ':' = false by decide), blanks, read]
  rfl

/-- Members are read back up to the end of their object. -/
theorem members?_render (layout : Layout) (depth outer : Nat) (rest : List Char)
    (ms : List (String × Json)) :
    ∀ m fuel, (∀ m' ∈ m :: ms, Written m'.2 ∧ Reads m'.2) →
      2 * (renderMember layout depth (.ofString m.1, m.2) ++
        renderMembers layout depth (literals ms)).length + 1 ≤ fuel →
      members? fuel (renderMember layout depth (.ofString m.1, m.2) ++
        (renderMembers layout depth (literals ms) ++ (layout.newline outer ++ '}' :: rest))) =
        some (literals (m :: ms), rest) := by
  induction ms with
  | nil =>
    intro m fuel parts enough
    obtain ⟨written, reads⟩ := parts m List.mem_cons_self
    obtain ⟨fuel, rfl⟩ := Nat.exists_eq_succ_of_ne_zero (n := fuel) (by omega)
    simp only [literals, List.map_nil, renderMembers, renderMember, List.append_nil,
      List.length_append] at enough
    rw [literals, List.map_nil, renderMembers, List.nil_append,
      members?_renderMember layout depth fuel written reads
        (stops_newline layout outer (stops_mark (c := '}') (by decide) rest)) (by omega)]
    simp [skipBlanks_newline, skipBlanks_cons (show isBlank '}' = false by decide), literals]
  | cons m' ms ih =>
    intro m fuel parts enough
    obtain ⟨written, reads⟩ := parts m List.mem_cons_self
    obtain ⟨fuel, rfl⟩ := Nat.exists_eq_succ_of_ne_zero (n := fuel) (by omega)
    have others := ih m' fuel (fun m member => parts m (List.mem_cons_of_mem _ member)) (by
      simp only [literals, List.map_cons, renderMembers, List.length_append,
        List.length_cons] at enough ⊢
      omega)
    simp only [renderMember, List.length_append] at enough
    simp only [literals, List.map_cons, renderMembers, List.cons_append, List.append_assoc]
      at others ⊢
    rw [members?_renderMember layout depth fuel written reads
      (stops_mark (c := ',') (by decide) _) (by omega)]
    simp [skipBlanks_newline, skipBlanks_cons (show isBlank ',' = false by decide),
      skipBlanks_renderMember, others]

/-! ## Whole texts -/

theorem exists_fuel {v : Json} (written : Written v) {layout : Layout} {depth fuel : Nat}
    (enough : 2 * (render layout depth v).length ≤ fuel) : ∃ fuel', fuel = fuel' + 1 := by
  obtain ⟨c, s, text, -⟩ := exists_render_cons written layout depth
  rw [text, List.length_cons] at enough
  exact ⟨fuel - 1, by omega⟩

/-- Every written value is read back. -/
theorem reads_of_written {v : Json} (written : Written v) : Reads v := by
  induction written with
  | null =>
    intro layout depth fuel rest enough stops
    obtain ⟨fuel, rfl⟩ := exists_fuel .null enough
    rfl
  | bool b =>
    intro layout depth fuel rest enough stops
    obtain ⟨fuel, rfl⟩ := exists_fuel (.bool b) enough
    cases b <;> rfl
  | int n => exact reads_int n
  | str s =>
    intro layout depth fuel rest enough stops
    obtain ⟨fuel, rfl⟩ := exists_fuel (.str s) enough
    have text : render layout depth (str s) ++ rest =
        '"' :: (s.toList.flatMap escape ++ '"' :: rest) := by
      simp [str, render, Literal.render, Literal.ofString, renderText]
    rw [text, value?, literal?_renderText]
    rfl
  | @array items parts ih =>
    intro layout depth fuel rest enough stops
    obtain ⟨fuel, rfl⟩ := exists_fuel (.array parts) enough
    cases items with
    | nil => rfl
    | cons x xs =>
      have read := items?_render layout (depth + 1) depth rest xs x fuel
        (fun y member => ⟨parts y member, ih y member⟩) (by
          simp only [render, List.length_append, List.length_cons, List.length_nil] at enough ⊢
          omega)
      obtain ⟨c, s, text, visible, other⟩ :=
        exists_render_cons (parts x List.mem_cons_self) layout (depth + 1)
      simp only [render, List.cons_append, List.append_assoc, List.nil_append]
      rw [value?, skipBlanks_newline]
      rw [text, List.cons_append] at read ⊢
      rw [skipBlanks_cons visible]
      split
      · next e => exact absurd (List.cons.inj e).1 other
      · rw [read]
        rfl
  | @obj members parts ih =>
    intro layout depth fuel rest enough stops
    obtain ⟨fuel, rfl⟩ := exists_fuel (.obj parts) enough
    cases members with
    | nil => rfl
    | cons m ms =>
      have read := members?_render layout (depth + 1) depth rest ms m fuel
        (fun m' member => ⟨parts m' member, ih m' member⟩) (by
          simp only [obj, literals, List.map_cons, render, List.length_append, List.length_cons,
            List.length_nil] at enough ⊢
          omega)
      simp only [obj, literals, List.map_cons, render, List.cons_append, List.append_assoc,
        List.nil_append] at read ⊢
      rw [value?, skipBlanks_newline, skipBlanks_renderMember]
      split
      · next e =>
        rw [renderMember] at e
        cases e
      · rw [read]
        rfl

theorem read_render {v : Json} (written : Written v) (layout : Layout) :
    read (String.ofList (render layout 0 v)) = some v := by
  obtain ⟨c, s, text, visible, -⟩ := exists_render_cons written layout 0
  have whole := reads_of_written written layout 0 (2 * (render layout 0 v).length + 2) []
    (by omega) (by rintro _ ⟨⟩)
  rw [List.append_nil] at whole
  have start : skipBlanks (render layout 0 v) = render layout 0 v := by
    rw [text, skipBlanks_cons visible]
  rw [read, String.toList_ofList, start, whole]
  rfl

/-- The compact text of a value denotes the value. -/
theorem read_compact {v : Json} (written : Written v) : read v.compact = some v :=
  read_render written .compact

end ChainConformance.Json
