import ChainConformance.Encoding.Pem
import ChainConformance.Proofs.Encoding.Base64
import ChainConformance.Proofs.Encoding.Bits
import ChainConformance.Proofs.Outcome
import ChainConformance.Proofs.Text.Pieces

/-!
# PEM blocks, line by line

* `lines_ofString`: the lines of the UTF-8 form of a text are the UTF-8 forms of its lines;
* `toList_render`: a block is written as its header, the lines of its base-64 text and its footer,
  each with a line feed; `length_of_body` says how long the lines are;
* `blocksOfLines_append`: lines that end outside of a block are read apart from what follows;
* `blocksOfLines_filler` and `blocksOfLines_textLines`: the reader skips a line that starts no
  block, and gets a block back from its lines.

The lines may end in a carriage return each, which stands before the line feed and is trimmed off.
-/

namespace ChainConformance.Pem

/-! ## Lines of texts -/

/-- The bytes of one line. -/
def encoded (line : List Char) : Bytes := Bytes.ofString (String.ofList line)

/-- Only the line feed has the byte of a line feed in its UTF-8 form. -/
theorem not_mem_utf8EncodeChar {c : Char} (other : c ≠ '\n') :
    (10 : UInt8) ∉ String.utf8EncodeChar c := by
  have value : c.val.toNat ≠ 10 := fun h => other (Char.toNat_inj.mp h)
  have byte : ∀ n, n % 256 ≠ 10 → (10 : UInt8) ≠ UInt8.ofNat n := by
    intro n differs same
    exact differs (by simpa using (congrArg UInt8.toNat same).symm)
  rw [String.utf8EncodeChar]
  -- the bytes of a longer form have their highest bit set
  split
  · simp only [List.mem_cons, List.not_mem_nil, or_false]
    exact byte _ (by omega)
  split
  · simp only [List.mem_cons, List.not_mem_nil, or_false, not_or]
    exact ⟨byte _ (by omega), byte _ (by omega)⟩
  split
  · simp only [List.mem_cons, List.not_mem_nil, or_false, not_or]
    exact ⟨byte _ (by omega), byte _ (by omega), byte _ (by omega)⟩
  · simp only [List.mem_cons, List.not_mem_nil, or_false, not_or]
    exact ⟨byte _ (by omega), byte _ (by omega), byte _ (by omega), byte _ (by omega)⟩

theorem lines_append {xs rest line : Bytes} {others : List Bytes} (free : 10 ∉ xs)
    (found : lines rest = line :: others) : lines (xs ++ rest) = (xs ++ line) :: others := by
  induction xs with
  | nil => exact found
  | cons x xs ih =>
    obtain ⟨other, free⟩ := List.ne_and_not_mem_of_not_mem_cons free
    rw [List.cons_append, lines, if_neg other.symm, ih free, List.cons_append]

theorem lines_ofString (s : List Char) :
    lines (Bytes.ofString (String.ofList s)) = (Text.splitOn '\n' s).map encoded := by
  induction s with
  | nil => rfl
  | cons c s ih =>
    obtain ⟨piece, pieces, cut⟩ := Text.exists_splitOn '\n' s
    rw [cut, List.map_cons] at ih
    rw [Bytes.ofString_ofList, List.flatMap_cons, ← Bytes.ofString_ofList, Text.splitOn]
    by_cases feed : c = '\n'
    · rw [feed, if_pos rfl, List.map_cons, cut, List.map_cons, ← ih]
      rfl
    · rw [if_neg feed, lines_append (not_mem_utf8EncodeChar feed) ih, cut]
      rw [List.map_cons, encoded, encoded, Bytes.ofString_ofList, Bytes.ofString_ofList,
        List.flatMap_cons]

/-! ## Lines read apart -/

/-- Where no block is open, reading starts over. -/
theorem blocksOfLines_append {pending : Option (String × List Char)} {front : List Bytes}
    {before : List Block} (read : blocksOfLines pending front = .ok before) (back : List Bytes) :
    blocksOfLines pending (front ++ back) = (blocksOfLines none back).map (before ++ ·) := by
  fun_induction blocksOfLines pending front generalizing before with
  | case1 pending unfinished => cases read
  | case2 pending finished =>
    cases pending with
    | some p => exact absurd rfl finished
    | none =>
      cases read
      cases h : blocksOfLines none back <;> simp [h, Except.map]
  | case3 pending line others unreadable => cases read
  | case4 line others text readable plain ih =>
    simp only [List.cons_append, blocksOfLines, readable, plain]
    exact ih read
  | case5 line others text readable rest starts unnamed => cases read
  | case6 line others text readable rest starts label named ih =>
    simp only [List.cons_append, blocksOfLines, readable, starts, named]
    exact ih read
  | case7 line others text readable label body stops undecoded => cases read
  | case8 line others text readable label body stops contents decoded ih =>
    obtain ⟨later, onwards, rfl⟩ := map_eq_ok_iff.mp read
    simp only [List.cons_append, blocksOfLines, readable, stops, if_true, decoded]
    rw [ih onwards]
    cases blocksOfLines none back <;> rfl
  | case9 line others text readable label body goesOn ih =>
    simp only [List.cons_append, blocksOfLines, readable, goesOn]
    exact ih read

/-! ## One line -/

section
variable {line : List Char} {label : String} {body : List Char} {others : List Bytes}

theorem blocksOfLines_filler (plain : ¬ "-----BEGIN ".toList <+: line) :
    blocksOfLines none (encoded line :: others) = blocksOfLines none others := by
  simp only [blocksOfLines, encoded, Bytes.text?_ofString, String.toList_ofList,
    Text.afterPrefix?_of_not_prefix plain]

theorem blocksOfLines_header {rest : List Char} (start : line = "-----BEGIN ".toList ++ rest)
    (named : headerLabel? rest = some label) :
    blocksOfLines none (encoded line :: others) = blocksOfLines (some (label, [])) others := by
  simp only [blocksOfLines, encoded, Bytes.text?_ofString, String.toList_ofList, start,
    Text.afterPrefix?_append, named]

theorem blocksOfLines_body (inside : ¬ "-----END ".toList <+: line) :
    blocksOfLines (some (label, body)) (encoded line :: others) =
      blocksOfLines (some (label, body ++ Text.trimEnd line)) others := by
  have open_ : "-----END ".toList.isPrefixOf line = false := by
    rwa [← Bool.not_eq_true, List.isPrefixOf_iff_prefix]
  simp only [blocksOfLines, encoded, Bytes.text?_ofString, String.toList_ofList, open_,
    Bool.false_eq_true, if_false]

theorem blocksOfLines_footer {contents : Bytes} (stop : "-----END ".toList <+: line)
    (decoded : Base64.decode? body = some contents) :
    blocksOfLines (some (label, body)) (encoded line :: others) =
      (blocksOfLines none others).map (⟨label, contents⟩ :: ·) := by
  have closed : "-----END ".toList.isPrefixOf line = true := List.isPrefixOf_iff_prefix.mpr stop
  simp only [blocksOfLines, encoded, Bytes.text?_ofString, String.toList_ofList, closed, if_true,
    decoded]

end

/-! ## The lines of a block -/

def header (label : String) : List Char := "-----BEGIN ".toList ++ (label.toList ++ dashes)

def footer (label : String) : List Char := "-----END ".toList ++ (label.toList ++ dashes)

/-- The lines of the base-64 text; a block without contents has an empty one. -/
def body (contents : Bytes) : List (List Char) :=
  match Bits.groups 63 (Base64.encode contents) with
  | [] => [[]]
  | line :: rest => line :: rest

def Block.textLines (block : Block) : List (List Char) :=
  header block.label :: (body block.contents ++ [footer block.label])

theorem intercalate_append (line : List Char) (rest : List (List Char)) :
    Text.intercalate ['\n'] (line :: rest) ++ ['\n'] = (line :: rest).flatMap (· ++ ['\n']) := by
  induction rest generalizing line with
  | nil => simp [Text.intercalate]
  | cons next rest ih =>
    have step : Text.intercalate ['\n'] (line :: next :: rest) =
        line ++ ['\n'] ++ Text.intercalate ['\n'] (next :: rest) := rfl
    rw [step, List.append_assoc, ih]
    rfl

theorem wrap_append (contents : Bytes) :
    wrap contents ++ ['\n'] = (body contents).flatMap (· ++ ['\n']) := by
  rw [wrap, body]
  split
  · next empty => rw [empty]; rfl
  · next line rest found => rw [found, intercalate_append]

theorem toList_render (block : Block) :
    (render block.label block.contents).toList = block.textLines.flatMap (· ++ ['\n']) := by
  have dash : "-----\n".toList = dashes ++ ['\n'] := rfl
  have stop : "\n-----END ".toList = '\n' :: "-----END ".toList := rfl
  have text : (String.ofList (wrap block.contents)).toList = wrap block.contents :=
    String.toList_ofList
  unfold render Block.textLines header footer
  simp only [String.toList_append, text, dash, stop, List.flatMap_cons, List.flatMap_append,
    ← wrap_append, List.flatMap_nil, List.append_assoc, List.cons_append, List.nil_append,
    List.append_nil]

theorem flatten_body (contents : Bytes) : (body contents).flatten = Base64.encode contents := by
  rw [← Bits.flatten_groups 63 (Base64.encode contents), body]
  split
  · next empty => rw [empty]; rfl
  · next line rest found => rw [found]

/-- The characters of the lines are those of base-64 texts. -/
theorem mem_body {contents : Bytes} {line : List Char} (member : line ∈ body contents) :
    ∀ c ∈ line, Base64.IsCharacter c := by
  intro c h
  refine Base64.mem_encode contents c ?_
  rw [← flatten_body]
  exact List.mem_flatten_of_mem member h

theorem free_textLines {block : Block} (free : '\n' ∉ block.label.toList) :
    ∀ line ∈ block.textLines, '\n' ∉ line := by
  have framed : ∀ front : List Char, '\n' ∉ front →
      '\n' ∉ front ++ (block.label.toList ++ dashes) := by
    intro front plain
    simp only [List.mem_append, not_or]
    exact ⟨plain, free, by decide⟩
  intro line member
  rcases List.mem_cons.mp member with rfl | member
  · exact framed _ (by decide)
  rcases List.mem_append.mp member with inside | last
  · exact fun h => (mem_body inside _ h).visible.2.2 rfl
  · rw [List.mem_singleton.mp last]
    exact framed _ (by decide)

theorem encode_ne_nil {contents : Bytes} (some : contents ≠ []) : Base64.encode contents ≠ [] := by
  fun_cases Base64.encode contents
  · exact absurd rfl some
  all_goals simp

/-- All lines but the last are of 64 characters, and only a block without contents has an empty
one. -/
theorem length_of_body (contents : Bytes) :
    ∃ full last, body contents = full ++ [last] ∧ (∀ line ∈ full, line.length = 64) ∧
      last.length ≤ 64 ∧ (last = [] → contents = []) := by
  by_cases empty : contents = []
  · exact ⟨[], [], by simp [empty, body, Base64.encode, Bits.groups], by simp, by simp,
      fun _ => empty⟩
  · obtain ⟨full, last, e, lengths, filled, short⟩ :=
      Bits.exists_groups 63 (encode_ne_nil empty)
    refine ⟨full, last, ?_, lengths, short, fun h => absurd h filled⟩
    rw [body, e]
    split
    · next empty => simp at empty
    · next found => exact found.symm

/-! ## Reading a block -/

theorem occursIn_append (front : List Char) {what rest : List Char} (h : what <+: rest) :
    occursIn what (front ++ rest) = true := by
  induction front with
  | nil =>
    cases rest with
    | nil => rw [List.prefix_nil.mp h]; rfl
    | cons c rest => rw [List.nil_append, occursIn, List.isPrefixOf_iff_prefix.mpr h, Bool.true_or]
  | cons c front ih => rw [List.cons_append, occursIn, ih, Bool.or_true]

theorem headerLabel?_append {label : String} (free : '-' ∉ label.toList) (rest : List Char) :
    headerLabel? (label.toList ++ (dashes ++ rest)) = some label := by
  have before : ∀ c ∈ label.toList, decide (c ≠ '-') = true :=
    fun c h => decide_eq_true fun same => free (same ▸ h)
  rw [headerLabel?, if_pos (occursIn_append _ (List.prefix_append ..)),
    List.takeWhile_append_of_pos before]
  simp [dashes]

/-- What may stand between a line and its line feed. -/
def IsEnding (ending : List Char) : Prop := ending = [] ∨ ending = ['\r']

section
variable {ending : List Char} (e : IsEnding ending) {label : String} {others : List Bytes}
include e

theorem IsEnding.blank : ∀ c ∈ ending, Text.isBlank c = true := by
  rcases e with rfl | rfl
  · simp
  · exact List.forall_mem_singleton.mpr (by decide)

theorem IsEnding.free : '\n' ∉ ending := by
  rcases e with rfl | rfl <;> decide

theorem not_begin_append {line : List Char} (plain : ¬ "-----BEGIN ".toList <+: line) :
    ¬ "-----BEGIN ".toList <+: line ++ ending := by
  rcases e with rfl | rfl
  · rwa [List.append_nil]
  · rw [List.prefix_concat_iff]
    rintro (whole | front)
    · -- the last character would be a carriage return
      have last : "-----BEGIN ".toList.getLast? = some '\r' := by rw [whole, List.getLast?_concat]
      exact absurd last (by decide)
    · exact plain front

theorem not_end_append {line : List Char} (chars : ∀ c ∈ line, Base64.IsCharacter c) :
    ¬ "-----END ".toList <+: line ++ ending := by
  cases line with
  | nil => rcases e with rfl | rfl <;> decide
  | cons c line =>
    intro front
    exact (chars c (by simp)).visible.2.1 (List.cons_prefix_cons.mp front).1.symm

theorem blocksOfLines_body_lines {lines : List (List Char)}
    (chars : ∀ line ∈ lines, ∀ c ∈ line, Base64.IsCharacter c) (text : List Char) :
    blocksOfLines (some (label, text))
        (lines.map (fun line => encoded (line ++ ending)) ++ others) =
      blocksOfLines (some (label, text ++ lines.flatten)) others := by
  induction lines generalizing text with
  | nil => rw [List.map_nil, List.nil_append, List.flatten_nil, List.append_nil]
  | cons line lines ih =>
    obtain ⟨first, rest⟩ := List.forall_mem_cons.mp chars
    have trimmed : Text.trimEnd (line ++ ending) = line :=
      Text.trimEnd_append (fun c h => (first c h).visible.1) e.blank
    rw [List.map_cons, List.cons_append, blocksOfLines_body (not_end_append e first), trimmed,
      ih rest, List.flatten_cons, List.append_assoc]

/-- A block is read off its lines. -/
theorem blocksOfLines_textLines {block : Block} (free : '-' ∉ block.label.toList) :
    blocksOfLines none (block.textLines.map (fun line => encoded (line ++ ending)) ++ others) =
      (blocksOfLines none others).map (block :: ·) := by
  have start : header block.label ++ ending =
      "-----BEGIN ".toList ++ (block.label.toList ++ (dashes ++ ending)) := by
    unfold header
    simp only [List.append_assoc]
  have stop : "-----END ".toList <+: footer block.label ++ ending := by
    unfold footer
    rw [List.append_assoc]
    exact List.prefix_append ..
  rw [Block.textLines, List.map_cons, List.cons_append,
    blocksOfLines_header start (headerLabel?_append free ending), List.map_append,
    List.append_assoc, blocksOfLines_body_lines e (fun _ member => mem_body member),
    List.nil_append, flatten_body]
  exact blocksOfLines_footer stop (Base64.decode?_encode _)

theorem blocksOfLines_plain {lines : List (List Char)}
    (plain : ∀ line ∈ lines, ¬ "-----BEGIN ".toList <+: line) :
    blocksOfLines none (lines.map (fun line => encoded (line ++ ending)) ++ others) =
      blocksOfLines none others := by
  induction lines with
  | nil => rfl
  | cons line lines ih =>
    obtain ⟨first, rest⟩ := List.forall_mem_cons.mp plain
    rw [List.map_cons, List.cons_append, blocksOfLines_filler (not_begin_append e first), ih rest]

end

end ChainConformance.Pem
