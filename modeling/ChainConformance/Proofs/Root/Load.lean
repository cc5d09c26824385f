import ChainConformance.Proofs.Files.Directories
import ChainConformance.Proofs.Root.Generated

/-!
# Roots in files

A root is loaded from a file, or a new one is made and written there. Proved here:

* `Call`, `call_load`: what one call can do;
* `settled_of_call`: whatever a call did, the same call changes nothing after it;
* `read_of_call`, `read_of_call_up_free`: what becomes of the files that were there before;
* `loads_settle`: any number of calls. A new root takes the place of a file only if the path leads
  upwards out of a directory that was missing.
-/

namespace ChainConformance.Root

open FileTree X509

variable {fresh : Root} {path : String} {t u after : FileTree} {result : Except Error Root}

/-! ## One call -/

/-- The root in a file that is there. -/
def opened (t : FileTree) (path : String) : Except Error Root :=
  (t.read path).mapError .file >>= ofPem

theorem opened_of_read {contents : Bytes} (read : t.read path = .ok contents) :
    opened t path = ofPem contents := by
  rw [opened, read]
  rfl

/-- One call on a tree: its result, and the tree after it. -/
def loadIn (t : FileTree) (path : String) (fresh : Root) : Except Error Root × FileTree :=
  (load FileTree.access fresh path).run.run t

/-- The tree with the directories above a path, as far as they can be made. -/
def prepared (t : FileTree) (path : String) : Except FileFault Unit × FileTree :=
  t.makeFrom false [] (FilePath.names ((FilePath.parent? path).getD ""))

/-- What a call can do. A file that is there is opened; for a missing one the directories are made,
and the new root is written. -/
inductive Call (fresh : Root) (path : String) (t : FileTree) : Except Error Root → FileTree → Prop
  | found (there : t.exists? path = true) : Call fresh path t (opened t path) t
  | blocked {fault : FileFault} {u : FileTree} (missing : t.exists? path = false)
      (stopped : prepared t path = (.error fault, u)) : Call fresh path t (.error (.file fault)) u
  | refused {fault : FileFault} {u : FileTree} (missing : t.exists? path = false)
      (ready : prepared t path = (.ok (), u))
      (written : u.write path (Bytes.ofString fresh.pem) = .error fault) :
      Call fresh path t (.error (.file fault)) u
  | made {u after : FileTree} (missing : t.exists? path = false)
      (ready : prepared t path = (.ok (), u))
      (written : u.write path (Bytes.ofString fresh.pem) = .ok after) :
      Call fresh path t (.ok fresh) after

theorem run_bind_liftM {α β : Type} (operation : StateM FileTree α)
    (next : α → ExceptT Error (StateM FileTree) β) :
    (liftM operation >>= next : ExceptT Error (StateM FileTree) β).run.run t =
      (next (operation.run t).1).run.run (operation.run t).2 := rfl

theorem run_makeDirectories (t : FileTree) (path : String) :
    (access.makeDirectories path).run t = t.makeFrom false [] (FilePath.names path) := rfl

theorem run_write (t : FileTree) (path : String) (contents : Bytes) :
    (access.write path contents).run t = match t.write path contents with
      | .ok after => (.ok (), after)
      | .error fault => (.error fault, t) := rfl

theorem loadIn_of_exists (there : t.exists? path = true) :
    loadIn t path fresh = (opened t path, t) := by
  have asked : (access.exists? path).run t = (true, t) := congrArg (·, t) there
  have read : (access.read path).run t = (t.read path, t) := rfl
  rw [loadIn, load, run_bind_liftM, asked]
  simp only [if_true]
  rw [run_bind_liftM, read, opened]
  cases t.read path with
  | error fault => rfl
  | ok contents => cases ofPem contents <;> rfl

theorem loadIn_of_missing (missing : t.exists? path = false) : loadIn t path fresh =
    match prepared t path with
    | (.error fault, u) => (.error (.file fault), u)
    | (.ok (), u) =>
      match u.write path (Bytes.ofString fresh.pem) with
      | .error fault => (.error (.file fault), u)
      | .ok after => (.ok fresh, after) := by
  have asked : (access.exists? path).run t = (false, t) := congrArg (·, t) missing
  rw [loadIn, load, run_bind_liftM, asked]
  simp only [Bool.false_eq_true, if_false]
  rw [run_bind_liftM, run_makeDirectories, ← prepared]
  rcases prepared t path with ⟨fault | ⟨⟩, u⟩
  · rfl
  · generalize Bytes.ofString fresh.pem = contents
    simp only
    rw [run_bind_liftM, run_write]
    cases u.write path contents <;> rfl

theorem call_load (fresh : Root) (path : String) (t : FileTree) :
    Call fresh path t (loadIn t path fresh).1 (loadIn t path fresh).2 := by
  cases there : t.exists? path with
  | true =>
    rw [loadIn_of_exists there]
    exact .found there
  | false =>
    rw [loadIn_of_missing there]
    generalize ready : prepared t path = made
    obtain ⟨fault | ⟨⟩, u⟩ := made
    · exact .blocked there ready
    · simp only
      cases written : u.write path (Bytes.ofString fresh.pem) with
      | error fault => exact .refused there ready written
      | ok after => exact .made there ready written

/-! ## The same call again -/

theorem prepared_again (t : FileTree) (path : String) :
    ∃ outcome, prepared (prepared t path).2 path = (outcome, (prepared t path).2) ∧
      (outcome = .ok () ↔ (prepared t path).1 = .ok ()) := makeFrom_again ..

/-- What a call gives for a missing file is the new root, which is read from the file then. -/
theorem read_of_made {root : Root} (missing : t.exists? path = false) (succeeds : result = .ok root)
    (call : Call fresh path t result after) :
    root = fresh ∧ after.read path = .ok (Bytes.ofString fresh.pem) := by
  cases call with
  | found there => cases missing.symm.trans there
  | blocked => cases succeeds
  | refused => cases succeeds
  | made _ _ written => exact ⟨(Except.ok.inj succeeds).symm, read_of_write written⟩

theorem settled_of_call (call : Call fresh path t result after) (again : Root) :
    (loadIn after path again).2 = after := by
  cases there : after.exists? path with
  | true => rw [loadIn_of_exists there]
  | false =>
    rw [loadIn_of_missing there]
    obtain ⟨outcome, ready', same⟩ := prepared_again t path
    cases call with
    | found before => cases there.symm.trans before
    | blocked missing stopped =>
      rw [stopped] at ready' same
      cases outcome with
      | error fault => rw [ready']
      | ok => cases same.mp rfl
    | refused missing ready written =>
      rw [ready] at ready' same
      obtain rfl := same.mpr rfl
      rw [ready']
      cases written' : after.write path (Bytes.ofString again.pem) with
      | error fault => simp only [written']
      | ok other =>
        obtain ⟨other, written'⟩ := (exists_write_iff _ _).mp ⟨_, written'⟩
        cases written.symm.trans written'
    | made missing ready written =>
      cases there.symm.trans (exists?_of_read (read_of_write written))

/-! ## The files that were there -/

variable {other : String} {contents contents' : Bytes}

theorem addsDirectories_prepared (t : FileTree) (path : String) :
    AddsDirectories t (prepared t path).2 := addsDirectories_makeFrom ..

/-- A file keeps its contents, unless the path was missing and names the place of the file, and the
new root was written. -/
theorem read_of_call (call : Call fresh path t result after)
    (read : t.read other = .ok contents) : after.read other = .ok
      (if t.exists? path = false ∧ result.toBool = true ∧ placeOf other = placeOf path
        then Bytes.ofString fresh.pem else contents) := by
  have kept := read_of_addsDirectories (addsDirectories_prepared t path) read
  cases call with
  | found there => simp [there, read]
  | blocked missing stopped =>
    rw [stopped] at kept
    simpa [Except.toBool] using kept
  | refused missing ready written =>
    rw [ready] at kept
    simpa [Except.toBool] using kept
  | @made u _ missing ready written =>
    rw [ready] at kept
    obtain ⟨-, -, place, walked, -⟩ := write_eq_ok_iff.mp written
    obtain ⟨-, -, place', walked', -⟩ := read_eq_ok_iff.mp kept
    rw [eq_foldl_of_walk walked] at walked
    rw [eq_foldl_of_walk walked'] at walked'
    by_cases same : placeOf other = placeOf path
    · have both := walked'.trans ((congrArg Except.ok same).trans walked.symm)
      rw [if_pos ⟨missing, rfl, same⟩]
      exact read_of_write_same written kept both
    · have apart : u.walk [] (FilePath.steps other) ≠ u.walk [] (FilePath.steps path) := by
        rw [walked, walked']
        exact fun both => same (Except.ok.inj both)
      rw [if_neg fun all => same all.2.2]
      exact read_of_write_apart written kept apart

/-- A path that leads nowhere upwards cannot be missing where it names the place of a file. -/
theorem placeOf_ne_of_up_free (down : ".." ∉ FilePath.steps path)
    (missing : t.exists? path = false) (written : u.write path contents' = .ok after)
    (read : t.read other = .ok contents) : placeOf other ≠ placeOf path := by
  intro same
  obtain ⟨named, plain, place, walked, free, -⟩ := write_eq_ok_iff.mp written
  obtain ⟨-, -, place', walked', here⟩ := read_eq_ok_iff.mp read
  obtain rfl : place' = place :=
    (eq_foldl_of_walk walked').trans (same.trans (eq_foldl_of_walk walked).symm)
  have before := walk_of_up_free down walked free (above_of_walk (above_root t) walked')
  have found : t.read path = .ok contents := read_eq_ok_iff.mpr ⟨named, plain, _, before, here⟩
  cases missing.symm.trans (exists?_of_read found)

theorem read_of_call_up_free (down : ".." ∉ FilePath.steps path)
    (call : Call fresh path t result after) (read : t.read other = .ok contents) :
    after.read other = .ok contents := by
  rw [read_of_call call read, if_neg]
  rintro ⟨missing, succeeds, same⟩
  cases call with
  | found there => cases missing.symm.trans there
  | blocked => cases succeeds
  | refused => cases succeeds
  | made _ _ written => exact placeOf_ne_of_up_free down missing written read same

/-! ## Two roots -/

/-- The draws with one private number. -/
def numbered (n : Nat) : Draws where
  key _ := .ofP256 n
  serial _ := []
  uuid _ := ""
  now := 0

/-- The root with that number. -/
def ofNumber (n : Nat) : Root := generate KeyPair.sign (numbered n)

theorem isNew_ofNumber {n : Nat} (positive : 0 < n) (small : n < Curve.p256.order) :
    (ofNumber n).IsNew := by
  refine isNew_generate ⟨fun _ => ⟨n, positive, small, rfl⟩, fun _ => Nat.zero_le 17,
    fun _ => Nat.zero_le 36, ?_⟩
  change ∀ time ∈ [(-86400 : Int), 946080000], 0 ≤ Time.year time ∧ Time.year time ≤ 9999
  decide

theorem isNew_one : (ofNumber 1).IsNew := isNew_ofNumber (by decide) (by decide)

theorem isNew_two : (ofNumber 2).IsNew := isNew_ofNumber (by decide) (by decide)

theorem ofNumber_one_ne_two : ofNumber 1 ≠ ofNumber 2 := by
  intro same
  have secrets : PrivateKey.p256 1 = PrivateKey.p256 2 := congrArg (·.key.secret) same
  cases secrets

/-- A directory with a root in it. -/
def holding (r : Root) : FileTree := ⟨[(["root.pem"], .file (Bytes.ofString r.pem))]⟩

/-- The same with an empty directory beside the root. -/
def holdingBeside (r : Root) : FileTree :=
  ⟨[(["new"], .directory), (["root.pem"], .file (Bytes.ofString r.pem))]⟩

theorem read_holding (r : Root) : (holding r).read "root.pem" = .ok (Bytes.ofString r.pem) ∧
    (holdingBeside r).read "root.pem" = .ok (Bytes.ofString r.pem) := ⟨rfl, rfl⟩

theorem missing_of_holding (r : Root) : (holding r).exists? "new/../root.pem" = false ∧
    (holding r).exists? "nested/root.pem" = false := ⟨rfl, rfl⟩

theorem loadIn_holding (r fresh : Root) :
    (loadIn (holding r) "nested/root.pem" fresh).1 = .ok fresh ∧
      loadIn (holding r) "new/../root.pem" fresh = (.ok fresh, holdingBeside fresh) := by
  rw [loadIn_of_missing (missing_of_holding r).1, loadIn_of_missing (missing_of_holding r).2]
  exact ⟨rfl, rfl⟩

/-! ## Any number of calls -/

/-- The calls one after the other, each with the root that it would make. -/
def loads (path : String) (fresh : List Root) : StateM FileTree (List (Except Error Root)) :=
  fresh.mapM fun r => (load FileTree.access r path).run

theorem loads_cons (path : String) (first : Root) (rest : List Root) (t : FileTree) :
    (loads path (first :: rest)).run t =
      let (result, between) := loadIn t path first
      let (later, after) := (loads path rest).run between
      (result :: later, after) := by
  rw [loads, List.mapM_cons]
  rfl

/-- Where a call changes nothing, any number of them do not. -/
theorem loads_of_settled (settled : ∀ again, (loadIn t path again).2 = t) (fresh : List Root) :
    (loads path fresh).run t = (fresh.map fun r => (loadIn t path r).1, t) := by
  induction fresh with
  | nil => rfl
  | cons first rest ih =>
    have same : loadIn t path first = ((loadIn t path first).1, t) :=
      Prod.ext rfl (settled first)
    rw [loads_cons, same]
    simp only [ih, List.map_cons]

/-- Any number of calls on one path. A file that is there is opened by all of them, and the tree
stays as it is. For a missing one the first call may write the new root, which is then what the file
holds and what all later calls give; they change nothing, whatever the first one did. Files that
were there before keep their contents, unless the path was missing and names the place of one, which
only a path that leads upwards can do. -/
theorem loads_settle {first : Root} (new : first.IsNew) (rest : List Root) (path : String)
    (t : FileTree) :
    ∃ result later after, loadIn t path first = (result, after) ∧
      (loads path (first :: rest)).run t = (result :: later, after) ∧
      later.length = rest.length ∧
      (t.exists? path = true → after = t ∧ ∀ r ∈ result :: later, r = opened t path) ∧
      (t.exists? path = false → ∀ root, result = .ok root →
        root = first ∧ after.read path = .ok (Bytes.ofString root.pem) ∧
          ∀ r ∈ later, r = .ok root) ∧
      (∀ other contents, t.read other = .ok contents → after.read other = .ok
        (if t.exists? path = false ∧ result.toBool = true ∧ placeOf other = placeOf path
          then Bytes.ofString first.pem else contents)) ∧
      (".." ∉ FilePath.steps path → ∀ other contents, t.read other = .ok contents →
        after.read other = .ok contents) := by
  generalize loaded : loadIn t path first = ended
  obtain ⟨result, after⟩ := ended
  have call : Call first path t result after := by
    have all := call_load first path t
    rwa [loaded] at all
  have settled := settled_of_call call
  refine ⟨result, rest.map fun r => (loadIn after path r).1, after, rfl, ?run, List.length_map _,
    ?found, ?made, fun other contents read => read_of_call call read,
    fun down other contents read => read_of_call_up_free down call read⟩
  case run =>
    rw [loads_cons, loaded]
    simp only [loads_of_settled settled]
  case found =>
    intro there
    rw [loadIn_of_exists there] at loaded
    cases loaded
    simp [loadIn_of_exists there]
  case made =>
    rintro missing root succeeds
    obtain ⟨rfl, read⟩ := read_of_made missing succeeds call
    have again : opened after path = .ok root :=
      (opened_of_read read).trans (ofPem_pem_of_isNew new)
    refine ⟨rfl, read, ?_⟩
    simp [loadIn_of_exists (exists?_of_read read), again]

/-- The second call gives the root of the first one, not the one that it would make. -/
theorem loads_settle_nested : (ofNumber 2).IsNew ∧ ∃ after,
    (loads "nested/root.pem" [ofNumber 2, ofNumber 1]).run (holding (ofNumber 1)) =
      ([.ok (ofNumber 2), .ok (ofNumber 2)], after) ∧
    after.read "nested/root.pem" = .ok (Bytes.ofString (ofNumber 2).pem) ∧
    after.read "root.pem" = .ok (Bytes.ofString (ofNumber 1).pem) := by
  obtain ⟨result, later, after, loaded, run, length, -, made, -, kept⟩ :=
    loads_settle isNew_two [ofNumber 1] "nested/root.pem" (holding (ofNumber 1))
  obtain rfl : result = .ok (ofNumber 2) := by
    rw [← (loadIn_holding (ofNumber 1) (ofNumber 2)).1, loaded]
  obtain ⟨-, read, again⟩ := made (missing_of_holding _).2 _ rfl
  obtain ⟨second, rfl⟩ := List.length_eq_one_iff.mp length
  rw [again second (List.mem_singleton_self second)] at run
  exact ⟨isNew_two, after, run, read, kept (by decide) _ _ (read_holding _).1⟩

/-- A root is lost: `new` is missing, so that nothing is found behind it, and once it is made, the
path leads back to the root. -/
theorem root_lost : (ofNumber 2).IsNew ∧ ofNumber 1 ≠ ofNumber 2 ∧
    (holding (ofNumber 1)).exists? "new/../root.pem" = false ∧
    opened (holding (ofNumber 1)) "root.pem" = .ok (ofNumber 1) ∧
    ∃ after, loadIn (holding (ofNumber 1)) "new/../root.pem" (ofNumber 2) =
        (.ok (ofNumber 2), after) ∧
      opened after "root.pem" = .ok (ofNumber 2) := by
  have before : opened (holding (ofNumber 1)) "root.pem" = .ok (ofNumber 1) :=
    (opened_of_read (read_holding _).1).trans (ofPem_pem_of_isNew isNew_one)
  have after : opened (holdingBeside (ofNumber 2)) "root.pem" = .ok (ofNumber 2) :=
    (opened_of_read (read_holding _).2).trans (ofPem_pem_of_isNew isNew_two)
  exact ⟨isNew_two, ofNumber_one_ne_two, (missing_of_holding _).1, before, _,
    (loadIn_holding _ _).2, after⟩

end ChainConformance.Root
