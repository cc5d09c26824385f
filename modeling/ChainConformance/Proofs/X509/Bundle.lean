import ChainConformance.Proofs.Encoding.Pem
import ChainConformance.X509.Bundle

/-!
# PEM files read back

* `Bundle` is a PEM file as people keep them: blocks with lines of other text before, between and
  after them. `Bundle.text` is what such a file holds, with the blocks as they are written here,
  and `crlf` is the file of a system whose lines end in two characters.
* `Bundle.round_trip`: whatever the line ends are, reading gives the blocks back, and as
  certificates those of the two labels or an error if there is none; the lines of each block are
  full up to the last.

A bundle's lines are followed through the reader one at a time: `Bundle.toList_text` and
`Bundle.toList_crlf_text` say what they are, `Bundle.blocksOfLines_lines` reads them part by part.
-/

namespace ChainConformance

/-- The text with every line feed preceded by a carriage return. -/
def crlf (s : String) : String := String.ofList (Text.replace ['\n'] ['\r', '\n'] s.toList)

/-- Blocks, each with the lines before it, and the lines after the last block. -/
structure Bundle where
  parts : List (List String × Pem.Block)
  rest : List String
  deriving Repr

/-- The text of complete lines. -/
def completeLines : List String → String
  | [] => ""
  | line :: lines => line ++ "\n" ++ completeLines lines

namespace Bundle

def partsText : List (List String × Pem.Block) → String
  | [] => ""
  | (before, block) :: parts =>
    completeLines before ++ Pem.render block.label block.contents ++ partsText parts

def text (b : Bundle) : String := partsText b.parts ++ completeLines b.rest

def blocks (b : Bundle) : List Pem.Block := b.parts.map (·.2)

/-- The lines that belong to no block. -/
def fillers (b : Bundle) : List String := b.parts.flatMap (·.1) ++ b.rest

/-- The contents of the blocks that hold certificates. -/
def certificates (b : Bundle) : List Bytes :=
  (b.blocks.filter (·.label ∈ ["CERTIFICATE", "TRUSTED CERTIFICATE"])).map (·.contents)

/-- Labels end where their header line says so, and no line outside of a block starts one. -/
structure WellFormed (b : Bundle) : Prop where
  labels : ∀ block ∈ b.blocks, '-' ∉ block.label.toList ∧ '\n' ∉ block.label.toList
  fillers : ∀ line ∈ b.fillers, '\n' ∉ line.toList ∧ ¬ "-----BEGIN ".toList <+: line.toList

/-! ## The lines of a bundle -/

def partLines (part : List String × Pem.Block) : List (List Char) :=
  part.1.map String.toList ++ part.2.textLines

def lines (b : Bundle) : List (List Char) := b.parts.flatMap partLines ++ b.rest.map String.toList

end Bundle

theorem toList_completeLines (lines : List String) :
    (completeLines lines).toList = (lines.map String.toList).flatMap (· ++ ['\n']) := by
  induction lines with
  | nil => rfl
  | cons line lines ih =>
    have feed : "\n".toList = ['\n'] := rfl
    rw [completeLines, String.toList_append, String.toList_append, feed, ih, List.map_cons,
      List.flatMap_cons]

namespace Bundle

theorem toList_partsText (parts : List (List String × Pem.Block)) :
    (partsText parts).toList = (parts.flatMap partLines).flatMap (· ++ ['\n']) := by
  induction parts with
  | nil => rfl
  | cons part parts ih =>
    rw [partsText, String.toList_append, String.toList_append, toList_completeLines,
      Pem.toList_render, ih, List.flatMap_cons, partLines, List.flatMap_append, List.flatMap_append]

theorem toList_text (b : Bundle) : b.text.toList = b.lines.flatMap (· ++ ['\n']) := by
  rw [text, String.toList_append, toList_partsText, toList_completeLines, lines,
    List.flatMap_append]

variable {b : Bundle} {part : List String × Pem.Block}

theorem mem_blocks (inParts : part ∈ b.parts) : part.2 ∈ b.blocks :=
  List.mem_map.mpr ⟨part, inParts, rfl⟩

theorem mem_fillers (inParts : part ∈ b.parts) {line : String} (h : line ∈ part.1) :
    line ∈ b.fillers :=
  List.mem_append_left _ (List.mem_flatMap.mpr ⟨part, inParts, h⟩)

theorem WellFormed.free_lines (wellFormed : b.WellFormed) : ∀ line ∈ b.lines, '\n' ∉ line := by
  intro line member
  rcases List.mem_append.mp member with inPart | inRest
  · obtain ⟨part, inParts, inPart⟩ := List.mem_flatMap.mp inPart
    rcases List.mem_append.mp inPart with before | inBlock
    · obtain ⟨filler, h, rfl⟩ := List.mem_map.mp before
      exact (wellFormed.fillers filler (mem_fillers inParts h)).1
    · exact Pem.free_textLines (wellFormed.labels part.2 (mem_blocks inParts)).2 line inBlock
  · obtain ⟨filler, h, rfl⟩ := List.mem_map.mp inRest
    exact (wellFormed.fillers filler (List.mem_append_right _ h)).1

theorem toList_crlf_text (wellFormed : b.WellFormed) :
    (crlf b.text).toList = b.lines.flatMap (· ++ ['\r', '\n']) := by
  have kept : ∀ line : List Char, '\n' ∉ line →
      (line.flatMap fun c => if c = '\n' then ['\r', '\n'] else [c]) = line := by
    intro line free
    induction line with
    | nil => rfl
    | cons c line ih =>
      obtain ⟨other, free⟩ := List.ne_and_not_mem_of_not_mem_cons free
      rw [List.flatMap_cons, if_neg other.symm, ih free, List.singleton_append]
  rw [crlf, String.toList_ofList, Text.replace_singleton, toList_text, List.flatMap_assoc]
  refine congrArg List.flatten (List.map_congr_left fun line member => ?_)
  rw [List.flatMap_append, kept line (wellFormed.free_lines line member)]
  rfl

/-! ## Reading -/

section
variable {ending : List Char} (e : Pem.IsEnding ending)
include e

theorem lines_of_text (wellFormed : b.WellFormed) {text : String}
    (written : text.toList = b.lines.flatMap (· ++ (ending ++ ['\n']))) :
    Pem.lines (Bytes.ofString text) =
      b.lines.map (fun line => Pem.encoded (line ++ ending)) ++ [[]] := by
  have free : ∀ line ∈ b.lines.map (· ++ ending), '\n' ∉ line := by
    intro line member
    obtain ⟨inner, h, rfl⟩ := List.mem_map.mp member
    rw [List.mem_append, not_or]
    exact ⟨wellFormed.free_lines inner h, e.free⟩
  have split := Text.splitOn_flatMap free
  rw [List.flatMap_map] at split
  rw [← String.ofList_toList (s := text), written, Pem.lines_ofString]
  simp only [← List.append_assoc, split, List.map_append, List.map_map]
  rfl

theorem blocksOfLines_parts {parts : List (List String × Pem.Block)} {others : List Bytes}
    {blocks : List Pem.Block} (labels : ∀ part ∈ parts, '-' ∉ part.2.label.toList)
    (fillers : ∀ part ∈ parts, ∀ line ∈ part.1, ¬ "-----BEGIN ".toList <+: line.toList)
    (rest : Pem.blocksOfLines none others = .ok blocks) :
    Pem.blocksOfLines none
        ((parts.flatMap partLines).map (fun line => Pem.encoded (line ++ ending)) ++ others) =
      .ok (parts.map (·.2) ++ blocks) := by
  induction parts with
  | nil => exact rest
  | cons part parts ih =>
    obtain ⟨label, labels⟩ := List.forall_mem_cons.mp labels
    obtain ⟨before, fillers⟩ := List.forall_mem_cons.mp fillers
    have plain : ∀ line ∈ part.1.map String.toList, ¬ "-----BEGIN ".toList <+: line :=
      List.forall_mem_map.mpr before
    rw [List.flatMap_cons, partLines, List.map_append, List.map_append, List.append_assoc,
      List.append_assoc, Pem.blocksOfLines_plain e plain, Pem.blocksOfLines_textLines e label,
      ih labels fillers]
    rfl

theorem blocksOfLines_lines (wellFormed : b.WellFormed) :
    Pem.blocksOfLines none (b.lines.map (fun line => Pem.encoded (line ++ ending)) ++ [[]]) =
      .ok b.blocks := by
  have plain : ∀ line ∈ b.rest.map String.toList, ¬ "-----BEGIN ".toList <+: line :=
    List.forall_mem_map.mpr fun filler h =>
      (wellFormed.fillers filler (List.mem_append_right _ h)).2
  have last : Pem.blocksOfLines none [[]] = .ok [] := rfl
  rw [lines, List.map_append, List.append_assoc, blocksOfLines_parts e
    (fun part h => (wellFormed.labels part.2 (mem_blocks h)).1)
    (fun part h line member => (wellFormed.fillers line (mem_fillers h member)).2)
    ((Pem.blocksOfLines_plain e plain).trans last), List.append_nil]
  rfl

theorem pemBlocks_text (wellFormed : b.WellFormed) {text : String}
    (written : text.toList = b.lines.flatMap (· ++ (ending ++ ['\n']))) :
    pemBlocks (Bytes.ofString text) = .ok b.blocks := by
  rw [pemBlocks, Pem.read, lines_of_text e wellFormed written, blocksOfLines_lines e wellFormed]
  rfl

end

theorem pemChain_of_blocks {input : Bytes} (read : pemBlocks input = .ok b.blocks) :
    pemChain input =
      if b.certificates = [] then .error .noCertificates else .ok b.certificates := by
  have same : (b.blocks.filter fun block =>
      block.label = "CERTIFICATE" || block.label = "TRUSTED CERTIFICATE") =
      b.blocks.filter (·.label ∈ ["CERTIFICATE", "TRUSTED CERTIFICATE"]) :=
    List.filter_congr fun block _ => by simp
  simp only [pemChain, read, bind, Except.bind, certificates, ← same, List.map_eq_nil_iff]
  split
  · next empty => rw [if_pos empty]; rfl
  · next filled => rw [if_neg filled]; rfl

/-- Reading a bundle, with line feeds or with both characters at the ends of the lines, gives its
blocks, and as certificates those of the two labels or an error if there is none. In each block
the base-64 text stands in lines of 64 characters, up to a last one of 64 at most. -/
theorem round_trip (b : Bundle) (wellFormed : b.WellFormed) :
    (∀ text ∈ [b.text, crlf b.text],
      pemBlocks (Bytes.ofString text) = .ok b.blocks ∧
      pemChain (Bytes.ofString text) =
        if b.certificates = [] then .error .noCertificates else .ok b.certificates) ∧
    ∀ block ∈ b.blocks, ∃ full last,
      Text.splitOn '\n' (Pem.render block.label block.contents).toList =
        Pem.header block.label :: (full ++ [last] ++ [Pem.footer block.label, []]) ∧
      (full ++ [last]).flatten = Base64.encode block.contents ∧
      (∀ line ∈ full, line.length = 64) ∧ last.length ≤ 64 ∧
      (last = [] → block.contents = []) := by
  constructor
  · intro text member
    have read : pemBlocks (Bytes.ofString text) = .ok b.blocks := by
      simp only [List.mem_cons, List.not_mem_nil, or_false] at member
      rcases member with rfl | rfl
      · exact pemBlocks_text (Or.inl rfl) wellFormed b.toList_text
      · exact pemBlocks_text (Or.inr rfl) wellFormed (toList_crlf_text wellFormed)
    exact ⟨read, pemChain_of_blocks read⟩
  · intro block member
    obtain ⟨full, last, e, lengths, short, filled⟩ := Pem.length_of_body block.contents
    refine ⟨full, last, ?_, ?_, lengths, short, filled⟩
    · rw [Pem.toList_render,
        Text.splitOn_flatMap (Pem.free_textLines (wellFormed.labels block member).2),
        Pem.Block.textLines, e]
      simp
    · rw [← e, Pem.flatten_body]

/-- Two certificates and a key of three lengths, one block of 48 bytes with a full line, one
without contents, and prose around them. -/
def mixedBundle : Bundle where
  parts := [
    (["Bag Attributes", "    friendlyName: root", "", "-----BEGIN-----"],
      ⟨"CERTIFICATE", List.replicate 48 0xA5⟩),
    ([], ⟨"EC PRIVATE KEY", [0xFF, 0xFE, 0xFD, 0xFC]⟩),
    (["-----END CERTIFICATE-----"], ⟨"TRUSTED CERTIFICATE", List.replicate 50 0x00⟩),
    ([""], ⟨"X509 CRL", []⟩)]
  rest := ["subject=/CN=naïve", ""]

theorem wellFormed_mixedBundle : mixedBundle.WellFormed := ⟨by decide, by decide⟩

theorem round_trip_of_mixed :
    mixedBundle.WellFormed ∧
    pemBlocks (Bytes.ofString (crlf mixedBundle.text)) = .ok mixedBundle.blocks ∧
    pemChain (Bytes.ofString mixedBundle.text) =
      .ok [List.replicate 48 0xA5, List.replicate 50 0x00] ∧
    ⟨"TRUSTED CERTIFICATE", List.replicate 50 0x00⟩ ∈ mixedBundle.blocks ∧
    ∃ full last, (full ++ [last]).flatten = Base64.encode (List.replicate 50 0x00) ∧
      (∀ line ∈ full, line.length = 64) ∧ last.length ≤ 64 := by
  obtain ⟨whole, each⟩ := round_trip mixedBundle wellFormed_mixedBundle
  have member : ⟨"TRUSTED CERTIFICATE", List.replicate 50 0x00⟩ ∈ mixedBundle.blocks := by decide
  obtain ⟨full, last, -, flatten, lengths, short, -⟩ := each _ member
  refine ⟨wellFormed_mixedBundle, (whole _ (by simp)).1, ?_, member, full, last, flatten, lengths,
    short⟩
  rw [(whole _ (by simp)).2]
  decide

end Bundle

end ChainConformance
