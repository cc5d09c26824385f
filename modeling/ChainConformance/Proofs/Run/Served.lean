import ChainConformance.Proofs.PathBuilding.Brevity
import ChainConformance.Proofs.Run.Suites
import ChainConformance.Proofs.Server.EncodedName
import ChainConformance.Run.Served

/-!
# Served runs and local runs

A client that is shown a chain can stand behind a connection: `connecting` lets the server that it
connects to make the chain. If it knows the tests apart by nothing but their chains and host names
(`SeesTests`), it cannot tell a served run from a local one:

* `mirrored_alike`: whenever the client is asked, the server has selected just the test that the
  question is about, and presents a chain of it;
* `served_run_is_local`: both runs have the same result, the same questions and events, and leave
  the client in the same state.
-/

namespace ChainConformance

theorem Collection.test_of_mem {c : Collection} (distinct : c.names.Nodup) {s : Suite AnyScenario}
    (member : s ∈ c.suites) (index : Nat) : c.test s.name index = s.test index := by
  have found : c.suite? s.name = some s := PathBuilding.find?_of_distinct_names distinct member
  rw [Collection.test, Collection.suite, found]
  rfl

namespace Server

variable {c : Collection} {server : Server} {name : String} {index : Nat} {t : TestCase AnyScenario}

theorem select_of_test (found : server.collection.test name index = .ok t) :
    server.select name index = .ok { server with selected := some ⟨name, index⟩ } :=
  bind_eq_ok_iff.mpr ⟨t, found, rfl⟩

theorem chain_of_test (mode : server.mode = .selectedTest)
    (selected : server.selected = some ⟨name, index⟩)
    (found : server.collection.test name index = .ok t) (d : X509.Draws)
    (serverName : Option String) : server.chain d serverName = server.collection.chain d t := by
  simp only [chain, mode, selected, found]
  rfl

end Server

namespace Run

variable {τ : Type}

/-! ## Clients behind a connection -/

/-- A client that connects with the host name as the server name, and is shown the chain that the
server makes for the handshake. -/
def connecting (draws : String → Server → τ → X509.Draws) (client : ChainClient τ) :
    ServerClient τ := fun host server state =>
  match server.chain (draws host server state) (some host) with
  | .error e => (.error e, state)
  | .ok chain => client host chain state

/-- The client, noting what the server that it connects to has selected. -/
def watching (client : ServerClient τ) : ServerClient (List (Option SelectedTest) × τ) :=
  fun host server (seen, state) =>
    let (answer, state) := client host server state
    (answer, seen ++ [server.selected], state)

/-- The answer to a chain of a test, and what it does to the client's state, depend on the test and
on its host name only, whatever was drawn for the chain; the chain can be made. -/
structure SeesTests (c : Collection) (filter : RunFilter) (drawn : X509.Draws → Prop)
    (client : ChainClient τ) (reaction : String → SelectedTest → τ → Except Error Bool × τ) :
    Prop where
  makes : ∀ s ∈ c.suites, filter.includesSuite s.name = true → ∀ index t, s.test index = .ok t →
    ∀ d, drawn d → ∃ chain, c.chain d t = .ok chain
  reacts : ∀ s ∈ c.suites, filter.includesSuite s.name = true → ∀ index t, s.test index = .ok t →
    ∀ d chain, drawn d → c.chain d t = .ok chain →
      ∀ state, client t.hostname chain state = reaction t.hostname ⟨s.name, index⟩ state

/-! ## In step with the server -/

/-- The same tests of the collection were asked about, the server had each of them selected when the
client connected, and the client is in the same state. -/
inductive Mirrored (c : Collection) :
    List SelectedTest × τ → List SelectedTest × Server × List (Option SelectedTest) × τ → Prop
  | intro (asked : List SelectedTest) (selected : Option SelectedTest) (state : τ)
      (known : ∀ x ∈ asked, ∃ t, c.test x.suite x.index = .ok t) :
      Mirrored c (asked, state) (asked, ⟨c, .selectedTest, selected⟩, asked.map some, state)

section
variable {c : Collection} {filter : RunFilter} {drawn : X509.Draws → Prop} {client : ChainClient τ}
  {reaction : String → SelectedTest → τ → Except Error Bool × τ}
  {draws : String → Nat → X509.Draws} {draws' : String → Server → τ → X509.Draws}

theorem mirrored_alike (distinct : c.names.Nodup) (sees : SeesTests c filter drawn client reaction)
    (draw : ∀ name index, drawn (draws name index))
    (draw' : ∀ host server state, drawn (draws' host server state)) {s : Suite AnyScenario}
    (member : s ∈ c.suites) (admitted : filter.includesSuite s.name = true) :
    Alike (Mirrored c) s (noted (shown c draws client) s)
      (noted (served (watching (connecting draws' client))) s) := by
  rintro index t found _ _ ⟨asked, before, state, earlier⟩
  let test : SelectedTest := ⟨s.name, index⟩
  let server : Server := ⟨c, .selectedTest, some test⟩
  have known : c.test s.name index = .ok t := by rw [Collection.test_of_mem distinct member, found]
  have reacts := sees.reacts s member admitted index t found
  obtain ⟨chain, made⟩ := sees.makes s member admitted index t found _ (draw s.name index)
  obtain ⟨chain', made'⟩ :=
    sees.makes s member admitted index t found _ (draw' t.hostname server state)
  have selects : Server.select ⟨c, .selectedTest, before⟩ s.name index = .ok server :=
    Server.select_of_test known
  have presents : server.chain (draws' t.hostname server state) (some t.hostname) = .ok chain' :=
    (Server.chain_of_test rfl rfl known _ _).trans made'
  rcases reaction' : reaction t.hostname test state with ⟨answer, after⟩
  refine ⟨answer, (asked ++ [test], after),
    (asked ++ [test], server, asked.map some ++ [some test], after), ?_, ?_, ?_⟩
  · simp only [noted, shown, made, reacts _ _ (draw s.name index) made, reaction', test]
  · simp only [noted, served, selects, watching, connecting, presents,
      reacts _ _ (draw' t.hostname server state) made', reaction', test]
    rfl
  · have seen : (asked ++ [test]).map some = asked.map some ++ [some test] := List.map_append
    rw [← seen]
    refine .intro _ _ _ fun x member => ?_
    rcases List.mem_append.mp member with member | member
    · exact earlier x member
    · rw [List.mem_singleton.mp member]
      exact ⟨t, known⟩

/-- What the client sees of the server changes nothing. -/
theorem watching_alike (client : ServerClient τ) (s : Suite AnyScenario) :
    Alike (fun a b => (a.1, a.2.2) = b) s (served (watching client) s) (served client s) := by
  rintro index t - ⟨server, seen, state⟩ _ rfl
  cases selects : server.select s.name index with
  | error e => exact ⟨.error e, (server, seen, state), (server, state),
      by simp only [served, selects], by simp only [served, selects], rfl⟩
  | ok selected =>
    rcases heard : client t.hostname selected state with ⟨answer, after⟩
    exact ⟨answer, (selected, seen ++ [selected.selected], after), (selected, after),
      by simp only [served, selects, watching, heard], by simp only [served, selects, heard], rfl⟩

end

/-! ## Whole runs -/

/-- A client that sees tests cannot tell a server's run from a local one: both have the same result,
ask the same questions, tell observers the same and leave the client in the same state. Whenever
the client connects, the server has just the test selected that it is asked about; no selection
fails. A run without an error has the results of just the suites that the filter admits, and a run
with an error ends in the suite that has it. -/
theorem served_run_is_local (root : Root) : ∃ c, Collection.ofRoot root = .ok c ∧
    ∀ (τ : Type) (filter : RunFilter) (drawn : X509.Draws → Prop) (client : ChainClient τ)
      (reaction : String → SelectedTest → τ → Except Error Bool × τ)
      (draws : String → Nat → X509.Draws) (draws' : String → Server → τ → X509.Draws) (first : τ),
      SeesTests c filter drawn client reaction → (∀ name index, drawn (draws name index)) →
      (∀ host server state, drawn (draws' host server state)) →
      ∃ result last calls events asked server,
        start (allLocal filter c draws client) first = (result, ⟨last, calls, events⟩) ∧
        start (allServed filter c (connecting draws' client)) (.start c .selectedTest, first) =
          (result, ⟨(server, last), calls, events⟩) ∧
        start (all filter c (noted (served (watching (connecting draws' client)))))
            ([], .start c .selectedTest, [], first) =
          (result, ⟨(asked, server, asked.map some, last), calls, events⟩) ∧
        start (all filter c (noted (shown c draws client))) ([], first) =
          (result, ⟨(asked, last), calls, events⟩) ∧
        (∀ x ∈ asked, ∀ selected, ∃ after,
          Server.select ⟨c, .selectedTest, selected⟩ x.suite x.index = .ok after) ∧
        (∀ map, result = .ok map → ∀ name, (map.get? name).isSome = true ↔
          name ∈ c.names ∧ filter.includesSuite name = true) ∧
        ∀ e, result = .error e → ∃ front s rest done middle, c.suites = front ++ s :: rest ∧
          filter.includesSuite s.name = true ∧
          Ends (suites filter (shown c draws client) front) ⟨first, #[], #[]⟩ (.ok done) middle ∧
          Ends (suite filter s (shown c draws client s)) middle (.error e) ⟨last, calls, events⟩ ∧
          ∀ x ∈ asked, x.suite ∉ rest.map (·.name) := by
  obtain ⟨c, made, names, -⟩ := Collection.exists_ofRoot root
  have distinct : c.names.Nodup := by
    rw [names]
    decide
  refine ⟨c, made, ?_⟩
  intro τ filter drawn client reaction draws draws' first sees draw draw'
  rcases run : start (all filter c (noted (shown c draws client))) ([], first) with
    ⟨result, ⟨asked, last⟩, calls, events⟩
  obtain ⟨_, watched, ⟨_, selected, _, known⟩⟩ := (all_agree fun s member admitted =>
    mirrored_alike distinct sees draw draw' member admitted).start
      (Mirrored.intro [] none first (by simp)) run
  obtain ⟨_, shown, rfl⟩ := (all_agree fun s _ _ => noted_alike (shown c draws client) s).start
    (rfl : ([], first).2 = first) run
  obtain ⟨_, unnoted, rfl⟩ := (all_agree fun s _ _ =>
    noted_alike (served (watching (connecting draws' client))) s).start rfl watched
  obtain ⟨_, plain, rfl⟩ := (all_agree fun s _ _ =>
    watching_alike (connecting draws' client) s).start rfl unnoted
  refine ⟨result, last, calls, events, asked, ⟨c, .selectedTest, selected⟩, shown, plain, watched,
    rfl, ?_, ?_, ?_⟩
  · intro x member selected
    obtain ⟨t, found⟩ := known x member
    exact ⟨_, Server.select_of_test found⟩
  · rintro map rfl
    exact keys_of_all run
  · rintro e rfl
    exact last_suite_of_all distinct run

/-! ## A client that counts certificates -/

open PathBuilding (unsignedRoot numberedDraws)

def pathBuildingOnly : RunFilter := ⟨some PathBuilding.suiteName, none⟩

/-- A client that accepts three certificates at most, and counts what it is asked. -/
def frugal : ChainClient Nat :=
  fun _ chain asked => (.ok (decide (chain.links.length ≤ 3)), asked + 1)

/-- Its answer, read off the test: a chain has one certificate for each edge. -/
def frugalReaction (_ : String) (t : SelectedTest) (asked : Nat) : Except Error Bool × Nat :=
  let edges := match PathBuilding.scenarios .standard with
    | .ok all => (all[t.index]?.map (·.graph.edges.length)).getD 0
    | .error _ => 0
  (.ok (decide (edges ≤ 3)), asked + 1)

theorem standard_explained : ∀ all, PathBuilding.scenarios .standard = .ok all → ∀ s ∈ all,
    s.isTemplate = false ∧ s.target ∈ s.graph.nodes ∧
      ∀ node ∈ s.graph.nodes, node.length ≤ 200 := by
  have checked : (match PathBuilding.scenarios .standard with
    | .ok all => all.all fun s => decide (s.isTemplate = false ∧ s.target ∈ s.graph.nodes ∧
        ∀ node ∈ s.graph.nodes, node.length ≤ 200)
    | .error _ => true) = true := by decide +kernel
  intro all made s member
  rw [made] at checked
  exact of_decide_eq_true (List.all_eq_true.mp checked s member)

theorem chains_of_standard (all : List PathBuilding.Scenario)
    (made : PathBuilding.scenarios .standard = .ok all) (s : PathBuilding.Scenario)
    (member : s ∈ all) (d : X509.Draws) (drawn : d ∈ [numberedDraws 0, numberedDraws 50]) :
    ∃ chain, s.chain unsignedRoot d PathBuilding.hostname = .ok chain := by
  obtain ⟨explained, node, short⟩ := standard_explained all made s member
  obtain ⟨first, rfl⟩ : ∃ first, d = numberedDraws first := by
    rcases List.mem_pair.mp drawn with rfl | rfl
    · exact ⟨0, rfl⟩
    · exact ⟨50, rfl⟩
  have subject : unsignedRoot.subject.map (fun n => n.isOrdinary && n.encode.length ≤ 20000) =
      .ok true := by decide +kernel
  have issuer : unsignedRoot.issuer.map (fun i =>
      decide (i.keyId.length ≤ 20000 ∧ i.key.publicBits.length ≤ 20000)) = .ok true := by
    decide +kernel
  obtain ⟨name, named, ordinary⟩ := map_eq_ok_iff.mp subject
  obtain ⟨i, issues, rootKey⟩ := map_eq_ok_iff.mp issuer
  rw [Bool.and_eq_true, decide_eq_true_eq] at ordinary
  have brief : PathBuilding.Brief s name i (numberedDraws first) PathBuilding.hostname := by
    refine ⟨ordinary.2, of_decide_eq_true rootKey, short, by decide, fun _ => Nat.zero_le _,
      fun _ => ?_, fun _ => ⟨Nat.zero_le _, fun _ => Nat.zero_le _⟩⟩
    exact (by decide : 1 ≤ 20000)
  exact PathBuilding.exists_chain_of_brief brief named issues ⟨rfl, 9, rfl⟩
    (PathBuilding.isRegular_numberedDraws first) node (by decide) explained ordinary.1
    (by decide : 86400 ≤ (numberedDraws 0).now)

/-- The tests that the filter leaves are the scenarios of path building. -/
theorem scenario_of_test {root : Root} {c : Collection} (made : Collection.ofRoot root = .ok c)
    {s : Suite AnyScenario} (member : s ∈ c.suites)
    (admitted : pathBuildingOnly.includesSuite s.name = true) {index : Nat}
    {t : TestCase AnyScenario} (found : s.test index = .ok t) :
    ∃ all x, PathBuilding.scenarios .standard = .ok all ∧ all[index]? = some x ∧
      t.scenario = .path x := by
  simp only [Collection.ofRoot, bind_eq_ok_iff, pure_eq_ok_iff] at made
  obtain ⟨names, named, paths, made, rfl⟩ := made
  simp only [PathBuilding.suite, bind_eq_ok_iff, pure_eq_ok_iff] at made
  obtain ⟨all, made, rfl⟩ := made
  rcases List.mem_cons.mp member with rfl | member
  · obtain ⟨_, made', same, -⟩ := NameConstraints.exists_suite
    cases named.symm.trans made'
    rw [Suite.map, same] at admitted
    exact absurd admitted (by decide)
  · rw [List.mem_singleton.mp member, Suite.map, map_eq_ok_iff] at found
    obtain ⟨_, found, rfl⟩ := found
    rw [Suite.testOf_eq_ok_iff, List.getElem?_toArray, List.getElem?_map,
      Option.map_eq_some_iff] at found
    obtain ⟨x, place, rfl⟩ := found
    exact ⟨all, x, made, place, rfl⟩

theorem frugal_sees_tests {c : Collection} (made : Collection.ofRoot unsignedRoot = .ok c) :
    SeesTests c pathBuildingOnly (· ∈ [numberedDraws 0, numberedDraws 50]) frugal
      frugalReaction := by
  have root := (Collection.of_ofRoot made).1
  constructor
  · intro s member admitted index t found d drawn
    obtain ⟨all, x, listed, place, scenario⟩ := scenario_of_test made member admitted found
    rw [Collection.chain, scenario, root]
    exact chains_of_standard all listed x (List.mem_of_getElem? place) d drawn
  · intro s member admitted index t found d chain _ made' state
    obtain ⟨all, x, listed, place, scenario⟩ := scenario_of_test made member admitted found
    rw [Collection.chain, scenario] at made'
    have length := PathBuilding.length_links made'
    simp only [frugal, frugalReaction, listed, place, length, Option.map_some, Option.getD_some]

/-- The client is shown other chains by the server than in the local run, and answers alike. -/
theorem served_run_of_frugal : ∃ c, Collection.ofRoot unsignedRoot = .ok c ∧
    SeesTests c pathBuildingOnly (· ∈ [numberedDraws 0, numberedDraws 50]) frugal frugalReaction ∧
    (start (allServed pathBuildingOnly c (connecting (fun _ _ _ => numberedDraws 50) frugal))
      (.start c .selectedTest, 0)).1 =
    (start (allLocal pathBuildingOnly c (fun _ _ => numberedDraws 0) frugal) 0).1 := by
  obtain ⟨c, made, agrees⟩ := served_run_is_local unsignedRoot
  have sees := frugal_sees_tests made
  obtain ⟨result, last, calls, events, asked, server, alone, connected, -⟩ :=
    agrees Nat pathBuildingOnly _ frugal frugalReaction (fun _ _ => numberedDraws 0)
      (fun _ _ _ => numberedDraws 50) 0 sees (by simp) (by simp)
  exact ⟨c, made, sees, by rw [alone, connected]⟩

end Run

end ChainConformance
