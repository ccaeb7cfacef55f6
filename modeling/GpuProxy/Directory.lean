import GpuProxy.Registry
import Mathlib.Logic.Function.Basic

/-!
# The registry as a map

What the worker registry is for: to each worker id the worker's latest report. As long as
it never gets a second row for a worker, heartbeats and deletions that interleave at their
statements do to this map what their writes do one after the other, and whatever is read
is what the map has.
-/

namespace GpuProxy

/-- The row of each worker that is registered. -/
abbrev Directory := String → Option WorkerState

namespace Directory

inductive Action where
  | report (now : Int) (newId workerId ips supportTypes : String)
  | forget (workerId : String)
  | forgetId (id : String)
  deriving DecidableEq, Repr

def apply (d : Directory) : Action → Directory
  | .report now newId workerId ips supportTypes =>
    Function.update d workerId (some
      (match d workerId with
      | some r => { r with ips := ips, supportTypes := supportTypes, updateAt := now }
      | none => ⟨newId, workerId, ips, supportTypes, now, now⟩))
  | .forget workerId => Function.update d workerId none
  | .forgetId id => fun w => (d w).filter fun r => decide (r.id ≠ id)

def step (d : Directory) (a : Action) : Option Directory := some (d.apply a)

end Directory

namespace WorkerStateRepo

/-! ## Reading -/

def getWorkerByWorkerId (pick : Nat) (workerId : String) (rows : WorkersStates) :
    Except String WorkerState :=
  ifNotFound (workerId ++ "worker id") (selectWorker workerId pick rows)

def getWorkerById (id : String) (rows : WorkersStates) : Except String WorkerState :=
  ifNotFound id (rows.find id)

/-- `ORDER BY create_at DESC`. -/
def listWorker (rows : WorkersStates) : List WorkerState :=
  rows.selectBy (fun _ => true) fun r => -r.createAt

def directory (rows : WorkersStates) : Directory :=
  fun w => rows.rows.find? fun r => decide (r.workerId = w)

/-- Every way to read the table is a way to read the directory. -/
structure Shows (rows : WorkersStates) (d : Directory) : Prop where
  byWorkerId : ∀ pick w r, getWorkerByWorkerId pick w rows = .ok r ↔ d w = some r
  byId : ∀ id r, getWorkerById id rows = .ok r ↔ r.id = id ∧ d r.workerId = some r
  list : ∀ r, r ∈ listWorker rows ↔ d r.workerId = some r
  once : (listWorker rows).Nodup
  newest : (listWorker rows).Pairwise fun r s => s.createAt ≤ r.createAt

/-- The writes of a step to the directory. -/
def effects (registry : Registry) (a : Nat × Choice) : List Directory.Action :=
  match registry.threads[a.1]?, a.2.fails with
  | some (.call (.update id workerId ips supportTypes) _), none =>
    match registry.shared.find id with
    | some _ => [.report a.2.now id workerId ips supportTypes]
    | none => []
  | some (.call (.insert id workerId ips supportTypes) _), none =>
    [.report a.2.now id workerId ips supportTypes]
  | some (.call (.deleteByWorkerId workerId) _), none => [.forget workerId]
  | some (.call (.deleteById id) _), none => [.forgetId id]
  | _, _ => []

variable {calls : List Call} {registry u v : Registry} {a : Nat × Choice} {rows : WorkersStates}

theorem directory_some (one : OneRow rows) {w : String} {r : WorkerState} :
    directory rows w = some r ↔ r ∈ rows ∧ r.workerId = w := by
  constructor
  · intro found
    exact ⟨List.mem_of_find?_eq_some found, by simpa using List.find?_some found⟩
  · rintro ⟨there, rfl⟩
    cases found : directory rows r.workerId with
    | none =>
      have absent := List.find?_eq_none.mp found r there
      simp at absent
    | some s =>
      have member : s ∈ rows := List.mem_of_find?_eq_some found
      have same : s.workerId = r.workerId := by simpa using List.find?_some found
      rw [one s member r there same]

/-- A directory that has the rows of the table under their worker ids is the table's. -/
theorem directory_eq (one : OneRow rows) {d : Directory}
    (same : ∀ w r, d w = some r ↔ r ∈ rows ∧ r.workerId = w) : directory rows = d := by
  funext w
  apply Option.ext
  intro r
  rw [directory_some one, same]

theorem selectWorker_some {pick : Nat} {w : String} {r : WorkerState} (one : OneRow rows) :
    selectWorker w pick rows = some r ↔ directory rows w = some r := by
  rw [directory_some one]
  constructor
  · exact selectWorker_mem
  · rintro ⟨there, rfl⟩
    let found := rows.rows.filter fun s => decide (s.workerId = r.workerId)
    have listed : r ∈ found := List.mem_filter.mpr ⟨there, by simp⟩
    have within : pick % found.length < found.length := Nat.mod_lt _ (List.length_pos_of_mem listed)
    have selected : selectWorker r.workerId pick rows = some found[pick % found.length] :=
      List.getElem?_eq_getElem within
    obtain ⟨member, same⟩ := selectWorker_mem selected
    rw [selected, one _ member r there same]

theorem ifNotFound_ok {α : Type} {what : String} {o : Option α} {x : α} :
    ifNotFound what o = .ok x ↔ o = some x := by
  cases o <;> simp [ifNotFound]

theorem shows_directory (one : OneRow rows) : Shows rows (directory rows) where
  byWorkerId pick w r := by rw [getWorkerByWorkerId, ifNotFound_ok, selectWorker_some one]
  byId id r := by
    rw [getWorkerById, ifNotFound_ok, Table.find_some, directory_some one, key_workerState]
    simp [and_comm]
  list r := by simp [listWorker, Table.mem_selectBy, directory_some one]
  once := (rows.selectBy_nodup (fun _ => true) _).of_map
  newest := by
    apply (rows.selectBy_sorted (fun _ => true) fun r => -r.createAt).imp
    intro r s ordered
    omega

/-! ## Writing -/

section Writes

variable {now : Int} {id w ips supportTypes : String} {rows' : WorkersStates} {s : WorkerState}

/-- A write of one worker's row. -/
theorem directory_put (one : OneRow rows) (one' : OneRow rows') {new : WorkerState}
    (put : directory rows w = some s ∧ new = { s with ips, supportTypes, updateAt := now } ∨
      directory rows w = none ∧ new = ⟨id, w, ips, supportTypes, now, now⟩)
    (there : new ∈ rows') (worker : new.workerId = w)
    (others : ∀ r, r.workerId ≠ w → (r ∈ rows' ↔ r ∈ rows)) :
    directory rows' = (directory rows).apply (.report now id w ips supportTypes) := by
  have applied : (directory rows).apply (.report now id w ips supportTypes) =
      Function.update (directory rows) w (some new) := by
    obtain ⟨before, rfl⟩ | ⟨before, rfl⟩ := put <;> simp only [Directory.apply, before]
  rw [applied]
  apply directory_eq one'
  intro k r
  by_cases same : k = w
  · subst same
    rw [Function.update_self, Option.some.injEq]
    constructor
    · rintro rfl
      exact ⟨there, worker⟩
    · rintro ⟨member, of⟩
      exact one' new there r member (worker.trans of.symm)
  · rw [Function.update_of_ne same, directory_some one]
    constructor
    · rintro ⟨member, rfl⟩
      exact ⟨(others r same).mpr member, rfl⟩
    · rintro ⟨member, rfl⟩
      exact ⟨(others r same).mp member, rfl⟩

theorem directory_update (one : OneRow rows) (found : rows.find id = some s) (worker : s.workerId = w)
    {keeps : ∀ r, key (setInfo now w ips supportTypes r) = key r}
    (one' : OneRow (rows.updateWhere (fun r => decide (r.id = id)) (setInfo now w ips supportTypes)
      keeps)) :
    directory (rows.updateWhere (fun r => decide (r.id = id)) (setInfo now w ips supportTypes)
      keeps) = (directory rows).apply (.report now id w ips supportTypes) := by
  have there : s ∈ rows := (Table.find_some.mp found).1
  have this : s.id = id := (Table.find_some.mp found).2
  have new : setInfo now w ips supportTypes s = { s with ips, supportTypes, updateAt := now } := by
    rw [setInfo, worker]
  refine directory_put one one' (.inl ⟨(directory_some one).mpr ⟨there, worker⟩, rfl⟩) ?_ worker ?_
  · exact Table.mem_updateWhere.mpr ⟨s, there, by simp [this, new]⟩
  · intro r other
    rw [Table.mem_updateWhere]
    constructor
    · rintro ⟨t, member, rfl⟩
      by_cases hit : t.id = id
      · simp [hit, setInfo] at other
      · simpa [hit] using member
    · intro member
      have miss : r.id ≠ id := by
        intro hit
        rw [Table.ext_key member there (hit.trans this.symm)] at other
        exact other worker
      exact ⟨r, member, by simp [miss]⟩

/-- An update of no row. -/
theorem directory_miss (one : OneRow rows) (absent : rows.find id = none)
    {keeps : ∀ r, key (setInfo now w ips supportTypes r) = key r}
    (one' : OneRow (rows.updateWhere (fun r => decide (r.id = id)) (setInfo now w ips supportTypes)
      keeps)) :
    directory (rows.updateWhere (fun r => decide (r.id = id)) (setInfo now w ips supportTypes)
      keeps) = directory rows := by
  apply directory_eq one'
  intro k r
  rw [directory_some one, Table.mem_updateWhere]
  constructor
  · rintro ⟨there, worker⟩
    have miss : r.id ≠ id := Table.find_none.mp absent r there
    exact ⟨⟨r, there, by simp [miss]⟩, worker⟩
  · rintro ⟨⟨s, there, rfl⟩, worker⟩
    have miss : s.id ≠ id := Table.find_none.mp absent s there
    simp only [miss, decide_false, Bool.false_eq_true, if_false] at worker ⊢
    exact ⟨there, worker⟩

theorem directory_insert (one : OneRow rows) (one' : OneRow rows') (free : ∀ r ∈ rows, r.workerId ≠ w)
    (inserted : rows.insert ⟨id, w, ips, supportTypes, now, now⟩ = some rows') :
    directory rows' = (directory rows).apply (.report now id w ips supportTypes) := by
  have absent : directory rows w = none := by
    apply List.find?_eq_none.mpr
    intro r member
    simpa using free r member
  refine directory_put one one' (s := ⟨id, w, ips, supportTypes, now, now⟩) (.inr ⟨absent, rfl⟩)
    ((Table.mem_insert inserted).mpr (.inr rfl)) rfl ?_
  intro r other
  rw [Table.mem_insert inserted]
  constructor
  · rintro (member | rfl)
    · exact member
    · exact absurd rfl other
  · exact .inl

theorem directory_forget (one : OneRow rows)
    (one' : OneRow (rows.deleteWhere fun r => decide (r.workerId = w))) :
    directory (rows.deleteWhere fun r => decide (r.workerId = w)) =
      (directory rows).apply (.forget w) := by
  apply directory_eq one'
  intro k r
  by_cases same : k = w
  · subst same
    simp +contextual [Directory.apply]
  · rw [Directory.apply, Function.update_of_ne same, directory_some one, Table.mem_deleteWhere,
      decide_eq_false_iff_not]
    constructor
    · rintro ⟨member, rfl⟩
      exact ⟨⟨member, same⟩, rfl⟩
    · rintro ⟨⟨member, -⟩, of⟩
      exact ⟨member, of⟩

theorem directory_forgetId (one : OneRow rows)
    (one' : OneRow (rows.deleteWhere fun r => decide (r.id = id))) :
    directory (rows.deleteWhere fun r => decide (r.id = id)) =
      (directory rows).apply (.forgetId id) := by
  apply directory_eq one'
  intro k r
  simp only [Directory.apply, Option.filter_eq_some_iff, directory_some one, Table.mem_deleteWhere,
    decide_eq_true_eq, decide_eq_false_iff_not]
  constructor
  · rintro ⟨⟨member, of⟩, kept⟩
    exact ⟨⟨member, kept⟩, of⟩
  · rintro ⟨⟨member, kept⟩, of⟩
    exact ⟨⟨member, of⟩, kept⟩

end Writes

/-- A row that is updated is the row of the worker that reports. -/
theorem Owned.updates (fresh : FreshIds Call.newId calls) (owned : Owned calls u) {i : Nat}
    {id workerId ips supportTypes : String} {k} {s : WorkerState}
    (turn : u.threads[i]? = some (.call (.update id workerId ips supportTypes) k))
    (found : u.shared.find id = some s) : s.workerId = workerId := by
  have there : s ∈ u.shared := (Table.find_some.mp found).1
  have same : s.id = id := (Table.find_some.mp found).2
  obtain ⟨c, get, stage⟩ := owned.stages i _ turn
  obtain ⟨j, _, _, _, owner, -⟩ := owned.rows s there
  cases stage with
  | updating owns =>
    obtain ⟨j', _, _, owner'⟩ := owns
    rw [same] at owner
    obtain rfl := fresh.eq owner owner' rfl rfl
    rw [owner] at owner'
    exact (Call.reportWorkerInfo.inj (Option.some.inj owner')).2.1

/-- The id of a row that is to be inserted is not there yet. -/
theorem Owned.inserts (fresh : FreshIds Call.newId calls) (owned : Owned calls u) {i : Nat}
    {id workerId ips supportTypes : String} {k}
    (turn : u.threads[i]? = some (.call (.insert id workerId ips supportTypes) k)) :
    u.shared.find id = none := by
  apply Table.find_none.mpr
  intro s there same
  obtain ⟨c, get, stage⟩ := owned.stages i _ turn
  obtain ⟨j, _, _, result, owner, ended⟩ := owned.rows s there
  rw [show s.id = id from same] at owner
  cases stage with
  | inserting call =>
    subst call
    obtain rfl := fresh.eq owner get rfl rfl
    exact Pool.turn_ne turn ended rfl

/-- One step. -/
theorem step_effects (fresh : FreshIds Call.newId calls) (owned : Owned calls u) (one : OneRow u.shared)
    (free : ∀ workerId, Inserts u a workerId → ∀ r ∈ u.shared, r.workerId ≠ workerId)
    (h : step u a = some v) :
    Runs.run Directory.step (directory u.shared) (effects u a) = some (directory v.shared) := by
  have one' : OneRow v.shared := (step_oneRow_iff fresh owned one h).mpr free
  obtain ⟨i, ch⟩ := a
  obtain ⟨st, k, turn, rfl⟩ := Pool.step_some.mp h
  simp only [effects, turn]
  cases fails : ch.fails with
  | some e =>
    simp only [act, unlessFails, fails]
    rfl
  | none =>
    simp only [act, unlessFails, fails] at one' ⊢
    cases st with
    | find workerId => rfl
    | update id workerId ips supportTypes =>
      simp only [perform] at one' ⊢
      cases found : u.shared.find id with
      | some s =>
        have worker := owned.updates fresh turn found
        exact congrArg some (directory_update one found worker one').symm
      | none => exact congrArg some (directory_miss one found one').symm
    | insert id workerId ips supportTypes =>
      have absent := owned.inserts fresh turn
      let new : WorkerState := ⟨id, workerId, ips, supportTypes, ch.now, ch.now⟩
      obtain ⟨rows, inserted⟩ : ∃ rows, u.shared.insert new = some rows :=
        Table.insert_of_absent absent
      simp only [perform] at one' ⊢
      rw [inserted] at one' ⊢
      exact congrArg some (directory_insert one one'
        (free workerId ⟨fails, id, ips, supportTypes, k, turn⟩) inserted).symm
    | deleteByWorkerId workerId => exact congrArg some (directory_forget one one').symm
    | deleteById id => exact congrArg some (directory_forgetId one one').symm

/-- The step inserts no row for a worker that has one. -/
def Apart (registry : Registry) (a : Nat × Choice) : Prop :=
  ∀ workerId, Inserts registry a workerId → ∀ r ∈ registry.shared, r.workerId ≠ workerId

def apart (registry : Registry) (a : Nat × Choice) : Bool :=
  match registry.threads[a.1]? with
  | some (.call (.insert _ workerId _ _) _) =>
    registry.shared.rows.all fun r => decide (r.workerId ≠ workerId)
  | _ => true

theorem apart_sound (registry : Registry) (a : Nat × Choice) (checked : apart registry a = true) :
    Apart registry a := by
  rintro workerId ⟨-, id, ips, supportTypes, k, turn⟩ r there
  simp only [apart, turn] at checked
  exact of_decide_eq_true (List.all_eq_true.mp checked r there)

theorem run_directory {as : List (Nat × Choice)} (fresh : FreshIds Call.newId calls)
    (run : Runs.run step (start calls) as = some registry)
    (separate : Runs.Along step Apart (start calls) as) :
    Runs.run Directory.step (fun _ => none) (Runs.collect step effects (start calls) as) =
        some (directory registry.shared) ∧ OneRow registry.shared := by
  let held : Registry → Prop := fun u => Owned calls u ∧ OneRow u.shared
  have begins : held (start calls) := by
    refine ⟨start_owned, ?_⟩
    intro r member
    exact absurd member (Table.not_mem_empty _)
  have keep (u : Registry) (a : Nat × Choice) (v : Registry) (holds : held u) (free : Apart u a)
      (h : step u a = some v) : held v :=
    ⟨step_owned fresh holds.1 h, (step_oneRow_iff fresh holds.1 holds.2 h).mpr free⟩
  constructor
  · exact Runs.run_collect_along (fun u : Registry => directory u.shared) keep
      (fun u a v holds free h => step_effects fresh holds.1 holds.2 free h) run begins separate
  · exact (Runs.invariant_along run begins separate keep).2

/-- As long as no `INSERT` is executed for a worker that has a row, what the statements of all
calls leave is what their writes, one after the other, do to the directory, and the table
shows it. -/
theorem registry_refines {as : List (Nat × Choice)} (fresh : FreshIds Call.newId calls)
    (run : Runs.run step (start calls) as = some registry)
    (separate : Runs.Along step Apart (start calls) as) :
    Runs.run Directory.step (fun _ => none) (Runs.collect step effects (start calls) as) =
        some (directory registry.shared) ∧
      Shows registry.shared (directory registry.shared) := by
  obtain ⟨ran, one⟩ := run_directory fresh run separate
  exact ⟨ran, shows_directory one⟩

/-- A worker reports twice and another one between, and is deleted then. -/
def reports : List Call :=
  [.reportWorkerInfo "5d1f" "w1" "10.0.0.1" "C2", .reportWorkerInfo "a07c" "w2" "10.0.0.2" "C2",
    .reportWorkerInfo "c310" "w1" "10.0.0.3" "C2", .deleteWorkerByWorkerId "w2"]

def overlapping : List (Nat × Choice) :=
  [(0, ⟨1, none, 0⟩), (1, ⟨1, none, 0⟩), (0, ⟨2, none, 0⟩), (2, ⟨3, none, 0⟩), (1, ⟨3, none, 0⟩),
    (2, ⟨4, none, 0⟩), (3, ⟨5, none, 0⟩)]

theorem registry_refines_demo : ∃ registry, Runs.run step (start reports) overlapping = some registry ∧
    (Runs.run Directory.step (fun _ => none) (Runs.collect step effects (start reports) overlapping) =
        some (directory registry.shared) ∧
      Shows registry.shared (directory registry.shared)) := by
  have ran : (Runs.run step (start reports) overlapping).isSome := by decide
  obtain ⟨registry, run⟩ := Option.isSome_iff_exists.mp ran
  have separate : Runs.Along step Apart (start reports) overlapping :=
    Runs.along_of_check apart_sound (by decide)
  exact ⟨registry, run, registry_refines (by decide) run separate⟩

end WorkerStateRepo

end GpuProxy
