import ChainConformance.Client.Command
import ChainConformance.Proofs.Text.Numeral
import ChainConformance.Proofs.Text.Substitution
import Mathlib.Data.List.Forall2

/-!
# What a client is handed

The placeholders in an argument are put in one after the other. Proved here:

* `substitute_eq_scanned`: one scan of the argument gives the same, if no value can be mistaken for
  a placeholder or a part of one;
* `client_receives`: a run starts the client once at most, with one argument for each of the
  command's, in order.
-/

namespace ChainConformance

open Text

namespace Placeholders

/-! ## One after the other and all at once -/

def names : List String := ["url", "ca", "host", "port", "chain"]

/-- The values by the names of their placeholders. -/
def named (p : Placeholders) : List (List Char × List Char) :=
  [("url".toList, p.url.toList), ("ca".toList, p.rootPath.toList), ("host".toList, p.host.toList),
    ("port".toList, p.portText.toList), ("chain".toList, (p.chainPath.getD "").toList)]

/-- The argument with all placeholders put in at once. -/
def scanned (p : Placeholders) (argument : String) : String :=
  String.ofList (scan p.named argument.toList)

/-- A text without braces that is no part of the name of a placeholder. -/
def Inert (s : String) : Prop := Plain s.toList ∧ ∀ name ∈ names, ¬ s.toList <:+: name.toList

theorem inert_of_mem {s : String} {c : Char} (plain : Plain s.toList) (member : c ∈ s.toList)
    (foreign : ∀ name ∈ names, c ∉ name.toList) : Inert s :=
  ⟨plain, fun name listed inside => foreign name listed (inside.subset member)⟩

theorem plain_decimal (n : Nat) : Plain (decimal n).toList :=
  ⟨Numeral.not_mem_of_isNumeral (Numeral.isNumeral_decimal n) rfl (by decide),
    Numeral.not_mem_of_isNumeral (Numeral.isNumeral_decimal n) rfl (by decide)⟩

/-- No name has a digit in it. -/
theorem inert_decimal (n : Nat) : Inert (decimal n) := by
  obtain ⟨c, rest, digits⟩ := List.exists_cons_of_ne_nil
    (Numeral.ne_nil_of_isNumeral (Numeral.isNumeral_decimal n))
  have member : c ∈ (decimal n).toList := digits ▸ List.mem_cons_self
  refine inert_of_mem (plain_decimal n) member fun name listed inside => ?_
  have words : (names.all fun name =>
      name.toList.all fun c => !Numeral.isDigit c && c != '+') = true := by decide +kernel
  simp only [List.all_eq_true, Bool.and_eq_true, Bool.not_eq_true', bne_iff_ne] at words
  obtain ⟨other, unsigned⟩ := words name listed c inside
  exact Numeral.not_mem_of_isNumeral (Numeral.isNumeral_decimal n) other unsigned member

theorem inert_url {p : Placeholders} (host : Inert p.host) : Inert p.url := by
  have port : Plain p.portText.toList := by
    rw [portText]
    cases p.port with
    | none => exact ⟨List.not_mem_nil, List.not_mem_nil⟩
    | some n => exact plain_decimal n
  have text : p.url.toList =
      "https://".toList ++ p.host.toList ++ ":".toList ++ p.portText.toList ++ "/".toList := by
    simp only [url, String.toList_append]
  have slash : '/' ∈ p.url.toList := text ▸ List.mem_append_right _ (List.mem_singleton_self '/')
  refine inert_of_mem ?_ slash (by decide +kernel)
  have fixed : Plain "https://".toList ∧ Plain ":".toList ∧ Plain "/".toList := by
    unfold Plain
    decide +kernel
  simp only [text, plain_append]
  exact ⟨⟨⟨⟨fixed.1, host.1⟩, fixed.2.1⟩, port⟩, fixed.2.2⟩

theorem mem_names {p : Placeholders} {v : List Char × List Char} (h : v ∈ p.named) :
    v.1 ∈ names.map String.toList :=
  List.mem_map_of_mem (f := Prod.fst) h

theorem values_eq (p : Placeholders) :
    p.values.map (fun v => (v.1.toList, v.2.toList)) = p.named.map fun v => (marker v.1, v.2) := by
  simp [values, named, marker]

theorem Inert.harmless {s n name : List Char} {value : String} (h : Inert value)
    (listed : name ∈ names.map String.toList) : Harmless s (n, value.toList) name := by
  obtain ⟨word, member, rfl⟩ := List.mem_map.mp listed
  exact ⟨h.1, .inl (h.2 word member)⟩

/-- Whether the argument asks for a port. -/
def AsksPort (argument : String) : Prop := marker "port".toList <:+: argument.toList

/-- The values that are put in first do no harm to the names that come later. -/
theorem harmless_named {p : Placeholders} {argument : String} (host : Inert p.host)
    (root : Inert p.rootPath) (port : p.port = none → ¬ AsksPort argument) :
    p.named.Pairwise fun v w => Harmless argument.toList v w.1 := by
  have later {v w : List Char × List Char} {vs : List (List Char × List Char)} (h : w ∈ vs) :
      w ∈ v :: vs := List.mem_cons_of_mem v h
  refine .cons (fun w member => (inert_url host).harmless (mem_names (later member)))
    (.cons (fun w member => root.harmless (mem_names (later (later member))))
    (.cons (fun w member => host.harmless (mem_names (later (later (later member)))))
    (.cons ?_ (List.pairwise_singleton _ _))))
  rw [List.forall_mem_singleton, portText]
  cases served : p.port with
  | none => exact ⟨⟨List.not_mem_nil, List.not_mem_nil⟩, .inr (port served)⟩
  | some n => exact (inert_decimal n).harmless (by simp [names])

/-- Putting in one placeholder after the other is the same as putting in all at once, if neither the
host nor the path of the root can be mistaken for a placeholder or a part of one. -/
theorem substitute_eq_scanned {p : Placeholders} {argument : String} (host : Inert p.host)
    (root : Inert p.rootPath) (port : p.port = none → ¬ AsksPort argument) :
    p.substitute argument = p.scanned argument := by
  have plain : ∀ v ∈ p.named, Plain v.1 := by
    have words : ∀ name ∈ names.map String.toList, Plain name := by
      unfold Plain
      decide +kernel
    exact fun v member => words v.1 (mem_names member)
  have folded := congrArg (List.foldl (fun text v => replace v.1 v.2 text) argument.toList)
    p.values_eq
  rw [List.foldl_map, List.foldl_map, foldl_replace_eq_scan plain (harmless_named host root port)]
    at folded
  rw [substitute, scanned, ← folded]

/-- A host that looks like a placeholder is replaced in its turn. -/
example :
    let p : Placeholders := ⟨"root.pem", "\x7bport\x7d", some 8443, none⟩
    p.substitute "\x7bhost\x7d" = "8443" ∧ p.scanned "\x7bhost\x7d" = "\x7bport\x7d" := by
  decide +kernel

end Placeholders

/-! ## What a run hands over -/

namespace ClientCommand

open Placeholders

variable {σ : Type}

/-- The spawner with a record of what it was asked to start. -/
def recording (spawn : Spawner σ) : Spawner (σ × List Invocation) := fun invocation limit s =>
  let (answer, after) := spawn invocation limit s.1
  (answer, after, s.2 ++ [invocation])

/-- A run starts its client once, unless there is something that cannot be passed, and the record
changes nothing else. -/
theorem run_recording (spawn : Spawner σ) (c : ClientCommand) (host : String) (port : Option Nat)
    (chain : Option (List Bytes)) (state : σ) (before : List Invocation) :
    c.run (recording spawn) host port chain (state, before) =
      ((c.run spawn host port chain state).1, (c.run spawn host port chain state).2,
        before ++ if (c.program :: (c.invocation host port chain).arguments).all isPassable
          then [c.invocation host port chain] else []) := by
  have program : (c.invocation host port chain).program = c.program := rfl
  rw [run, run, program]
  split
  · rw [recording]
    rcases spawn (c.invocation host port chain) c.timeout state with ⟨fault | _ | status, after⟩ <;>
      rfl
  · rw [List.append_nil]

/-- What a run hands over, as the record of it shows. -/
theorem arguments_of_run (spawn : Spawner σ) (c : ClientCommand) (host : String)
    (port : Option Nat) (chain : Option (List Bytes)) (state : σ) :
    (c.run (recording spawn) host port chain (state, [])).2.2.map (·.arguments) =
      if (c.program :: (c.invocation host port chain).arguments).all isPassable
        then [(c.invocation host port chain).arguments] else [] := by
  rw [run_recording, List.nil_append]
  split <;> rfl

/-- The client gets one argument for each of the command's, in order, and in each all placeholders
are put in at once, whether it is to connect to a port or gets a chain, which has no port. -/
theorem client_receives (spawn : Spawner σ) (c : ClientCommand) (host : String) (state : σ) :
    (∀ port, ∃ arguments,
      (c.runOnPort (recording spawn) host port (state, [])).2.2.map (·.arguments) =
        (if (c.program :: arguments).all isPassable then [arguments] else []) ∧
      List.Forall₂ (fun template argument => Inert host → Inert c.rootPath →
        argument = Placeholders.scanned ⟨c.rootPath, host, some port, none⟩ template)
        c.arguments arguments) ∧
    ∀ chain, ∃ arguments,
      (c.runOnChain (recording spawn) host chain (state, [])).2.2.map (·.arguments) =
        (if (c.program :: arguments).all isPassable then [arguments] else []) ∧
      List.Forall₂ (fun template argument => Inert host → Inert c.rootPath → ¬ AsksPort template →
        argument = Placeholders.scanned ⟨c.rootPath, host, none, some c.chainPath⟩ template)
        c.arguments arguments := by
  constructor
  · intro port
    refine ⟨_, arguments_of_run spawn c host (some port) none state, ?_⟩
    rw [invocation, List.forall₂_map_right_iff, List.forall₂_same]
    exact fun _ _ inert root => substitute_eq_scanned inert root nofun
  · intro chain
    refine ⟨_, arguments_of_run spawn c host none (some chain) state, ?_⟩
    rw [invocation, List.forall₂_map_right_iff, List.forall₂_same]
    exact fun _ _ inert root absent => substitute_eq_scanned inert root fun _ => absent

/-- A command with braces of its own around a placeholder. -/
def braced : ClientCommand :=
  ⟨"verify", ["--root=\x7bca\x7d", "\x7b\x7bhost\x7d\x7d", "\x7burl\x7d"],
    ⟨[], ⟨.ed25519 [], [], .ed25519, []⟩⟩, .ofSeconds 10, "/tmp/root.pem", "/tmp/chain.pem"⟩

theorem braced_receives :
    Inert "localhost" ∧ Inert braced.rootPath ∧
      (braced.runOnPort (recording fun _ _ s => (.ok (some 0), s)) "localhost" 8443
          ((), [])).2.2.map (·.arguments) =
        [["--root=/tmp/root.pem", "\x7blocalhost\x7d", "https://localhost:8443/"]] := by
  have host : Inert "localhost" := by
    unfold Inert Plain
    decide +kernel
  have root : Inert braced.rootPath := by
    unfold Inert Plain
    decide +kernel
  obtain ⟨arguments, received, each⟩ :=
    (client_receives (fun _ _ s => (.ok (some 0), s)) braced "localhost" ()).1 8443
  have whole : List.Forall₂ Eq (braced.arguments.map
      (Placeholders.scanned ⟨braced.rootPath, "localhost", some 8443, none⟩)) arguments :=
    List.forall₂_map_left_iff.mpr (each.imp fun _ _ replaced => (replaced host root).symm)
  rw [List.forall₂_eq_eq_eq] at whole
  refine ⟨host, root, received.trans ?_⟩
  rw [← whole]
  decide +kernel

end ClientCommand

end ChainConformance
