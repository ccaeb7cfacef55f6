import GpuProxy.Utils
import GpuProxy.Table
import GpuProxy.Program

/-!
# The worker registry

`report_worker_info` looks a worker's row up and then updates it or inserts one:
two statements with no transaction around them. The entity declares `worker_id`
unique; the migration that creates the table makes only `id` a key.
-/

namespace GpuProxy

structure WorkerState where
  id : String
  workerId : String
  ips : String
  supportTypes : String
  updateAt : Int
  createAt : Int
  deriving DecidableEq, Repr

instance : HasKey WorkerState String := ⟨WorkerState.id⟩

@[simp] theorem key_workerState (r : WorkerState) : key r = r.id := rfl

namespace WorkerStateRepo

abbrev WorkersStates := Table WorkerState

inductive Statement where
  /-- `find().filter(worker_id = ..).one(..)`. -/
  | find (workerId : String)
  | update (id workerId ips supportTypes : String)
  | insert (id workerId ips supportTypes : String)
  | deleteByWorkerId (workerId : String)
  | deleteById (id : String)
  deriving DecidableEq, Repr

abbrev Statement.Res : Statement → Type
  | .find _ => Option WorkerState
  | _ => Unit

abbrev Statement.Response (st : Statement) : Type := Except String st.Res

/-- The clock, whether the database fails the statement, and which of the rows that
match a `SELECT ... LIMIT 1` returns. -/
structure Choice where
  now : Int
  fails : Option String
  pick : Nat

/-- The text of `sea_orm` for an `UPDATE` of no row. -/
def recordNotUpdated : String := "None of the records are updated"

def selectWorker (workerId : String) (pick : Nat) (rows : WorkersStates) : Option WorkerState :=
  rows.selectOne (fun r => decide (r.workerId = workerId)) pick

def setInfo (now : Int) (workerId ips supportTypes : String) (r : WorkerState) : WorkerState :=
  { r with workerId := workerId, ips := ips, supportTypes := supportTypes, updateAt := now }

def perform (now : Int) (pick : Nat) :
    (st : Statement) → WorkersStates → st.Response × WorkersStates
  | .find workerId, rows => (.ok (selectWorker workerId pick rows), rows)
  | .update id workerId ips supportTypes, rows =>
    (match rows.find id with
      | some _ => .ok ()
      | none => .error recordNotUpdated,
      rows.updateWhere (fun r => decide (r.id = id)) (setInfo now workerId ips supportTypes)
        fun _ => rfl)
  | .insert id workerId ips supportTypes, rows =>
    match rows.insert ⟨id, workerId, ips, supportTypes, now, now⟩ with
    | some rows' => (.ok (), rows')
    | none => (.error primaryKeyConflict, rows)
  | .deleteByWorkerId workerId, rows =>
    (.ok (), rows.deleteWhere fun r => decide (r.workerId = workerId))
  | .deleteById id, rows => (.ok (), rows.deleteWhere fun r => decide (r.id = id))

def act (ch : Choice) (st : Statement) (rows : WorkersStates) : st.Response × WorkersStates :=
  unlessFails ch.fails (perform ch.now ch.pick st rows) rows

abbrev Statements (α : Type) := ExceptT String (Program Statement Statement.Response) α

def execute (st : Statement) : Statements st.Res := ExceptT.mk (Program.perform st)

/-- `newId` is what `Uuid::new_v4` returns, should the call need it. -/
def reportWorkerInfo (newId workerId ips supportTypes : String) : Statements Unit := do
  match ← execute (.find workerId) with
  | some state => execute (.update state.id workerId ips supportTypes)
  | none => execute (.insert newId workerId ips supportTypes)

def deleteWorkerByWorkerId (workerId : String) : Statements Unit :=
  execute (.deleteByWorkerId workerId)

def deleteWorkerById (id : String) : Statements Unit := execute (.deleteById id)

inductive Call where
  | reportWorkerInfo (newId workerId ips supportTypes : String)
  | deleteWorkerByWorkerId (workerId : String)
  | deleteWorkerById (id : String)
  deriving DecidableEq, Repr

def Call.program : Call → Program Statement Statement.Response (Except String Unit)
  | .reportWorkerInfo newId workerId ips supportTypes =>
    (WorkerStateRepo.reportWorkerInfo newId workerId ips supportTypes).run
  | .deleteWorkerByWorkerId workerId => (WorkerStateRepo.deleteWorkerByWorkerId workerId).run
  | .deleteWorkerById id => (WorkerStateRepo.deleteWorkerById id).run

/-- The id from `Uuid::new_v4` a call inserts its row under, if it does. -/
def Call.newId : Call → Option String
  | .reportWorkerInfo newId _ _ _ => some newId
  | _ => none

abbrev Registry := Pool WorkersStates Statement Statement.Response (Except String Unit)

/-- The calls, none of which has made a statement, over the table as created. -/
def start (calls : List Call) : Registry := ⟨Table.empty, calls.map Call.program⟩

def step : Registry → Nat × Choice → Option Registry := Pool.step act

/-- At most one row has a given `worker_id`. -/
def OneRow (rows : WorkersStates) : Prop :=
  ∀ r ∈ rows, ∀ s ∈ rows, r.workerId = s.workerId → r = s

/-- The step executes an `INSERT` for the worker. -/
def Inserts (registry : Registry) (a : Nat × Choice) (workerId : String) : Prop :=
  a.2.fails = none ∧ ∃ id ips supportTypes k,
    registry.threads[a.1]? = some (.call (.insert id workerId ips supportTypes) k)

variable {calls : List Call} {c : Call} {registry u v : Registry} {a : Nat × Choice} {ch : Choice}
  {st : Statement} {rows : WorkersStates} {id newId workerId ips supportTypes : String}

/-! ## Statements -/

theorem selectWorker_mem {pick : Nat} {r : WorkerState}
    (h : selectWorker workerId pick rows = some r) : r ∈ rows ∧ r.workerId = workerId := by
  obtain ⟨there, selected⟩ := Table.selectOne_mem h
  exact ⟨there, of_decide_eq_true selected⟩

/-- A row after a statement was there, with the `worker_id` it had or one an `UPDATE`
gives it, or an `INSERT` has put it. -/
theorem act_row {r : WorkerState} (member : r ∈ (act ch st rows).2) :
    (∃ s ∈ rows, r.id = s.id ∧ (r.workerId = s.workerId ∨
      ∃ ips supportTypes, st = .update r.id r.workerId ips supportTypes)) ∨
    ch.fails = none ∧ ∃ ips supportTypes, st = .insert r.id r.workerId ips supportTypes := by
  have same (member : r ∈ rows) : ∃ s ∈ rows, r.id = s.id ∧ (r.workerId = s.workerId ∨
      ∃ ips supportTypes, st = .update r.id r.workerId ips supportTypes) :=
    ⟨r, member, rfl, .inl rfl⟩
  unfold act unlessFails at member
  cases fails : ch.fails with
  | some e =>
    rw [fails] at member
    exact Or.inl (same member)
  | none =>
    rw [fails] at member
    cases st with
    | find workerId => exact Or.inl (same member)
    | update id workerId ips supportTypes =>
      simp only [perform] at member
      obtain ⟨s, old, rfl⟩ := Table.mem_updateWhere.mp member
      left
      split
      · next there =>
        obtain rfl := of_decide_eq_true there
        exact ⟨s, old, rfl, .inr ⟨ips, supportTypes, rfl⟩⟩
      · next other => exact ⟨s, old, rfl, .inl rfl⟩
    | insert id workerId ips supportTypes =>
      simp only [perform] at member
      split at member
      · next rows' inserted =>
        rcases (Table.mem_insert inserted).mp member with old | new
        · exact Or.inl (same old)
        · subst new
          exact Or.inr ⟨rfl, ips, supportTypes, rfl⟩
      · exact Or.inl (same member)
    | deleteByWorkerId workerId | deleteById id =>
      simp only [perform] at member
      exact Or.inl (same (Table.mem_deleteWhere.mp member).1)

/-- An `INSERT` under a new id adds its row. -/
theorem act_insert (performs : ch.fails = none) (absent : ∀ r ∈ rows, r.id ≠ id) :
    (∃ n ∈ (act ch (.insert id workerId ips supportTypes) rows).2, n.id = id ∧
      n.workerId = workerId) ∧
    ∀ r ∈ rows, r ∈ (act ch (.insert id workerId ips supportTypes) rows).2 := by
  let new : WorkerState := ⟨id, workerId, ips, supportTypes, ch.now, ch.now⟩
  have free : rows.find (key new) = none := Table.find_none.mpr absent
  obtain ⟨rows', inserted⟩ := Table.insert_of_absent free
  have after : (act ch (.insert id workerId ips supportTypes) rows).2 = rows' := by
    simp only [act, unlessFails, performs, perform]
    rw [inserted]
  rw [after]
  constructor
  · exact ⟨new, (Table.mem_insert inserted).mpr (Or.inr rfl), rfl, rfl⟩
  · intro r member
    exact (Table.mem_insert inserted).mpr (Or.inl member)

/-! ## Whose rows there are -/

def afterFind (newId workerId ips supportTypes : String) :
    Except String (Option WorkerState) → Program Statement Statement.Response (Except String Unit)
  | .ok (some state) => .call (.update state.id workerId ips supportTypes) .ret
  | .ok none => .call (.insert newId workerId ips supportTypes) .ret
  | .error e => .ret (.error e)

theorem reportWorkerInfo_eq : (reportWorkerInfo newId workerId ips supportTypes).run =
    .call (.find workerId) (afterFind newId workerId ips supportTypes) := by
  apply Program.call_congr
  intro r
  rcases r with e | _ | state
  · rfl
  · rfl
  · rfl

/-- A call to report the worker has the id for a new row. -/
def Owns (calls : List Call) (id workerId : String) : Prop :=
  ∃ (i : Nat) (ips supportTypes : String),
    calls[i]? = some (.reportWorkerInfo id workerId ips supportTypes)

/-- How far a call is. -/
inductive Stage (calls : List Call) (c : Call) :
    Program Statement Statement.Response (Except String Unit) → Prop where
  | reporting {newId workerId ips supportTypes : String}
      (call : c = .reportWorkerInfo newId workerId ips supportTypes) :
      Stage calls c (.call (.find workerId) (afterFind newId workerId ips supportTypes))
  | deletingWorker {workerId : String} : Stage calls c (.call (.deleteByWorkerId workerId) .ret)
  | deleting {id : String} : Stage calls c (.call (.deleteById id) .ret)
  | updating {id workerId ips supportTypes : String} (owns : Owns calls id workerId) :
      Stage calls c (.call (.update id workerId ips supportTypes) .ret)
  | inserting {newId workerId ips supportTypes : String}
      (call : c = .reportWorkerInfo newId workerId ips supportTypes) :
      Stage calls c (.call (.insert newId workerId ips supportTypes) .ret)
  | done {result : Except String Unit} : Stage calls c (.ret result)

theorem stage_program (calls : List Call) (c : Call) : Stage calls c c.program := by
  cases c with
  | reportWorkerInfo newId workerId ips supportTypes =>
    rw [Call.program, reportWorkerInfo_eq]
    exact .reporting rfl
  | deleteWorkerByWorkerId workerId => exact .deletingWorker
  | deleteWorkerById id => exact .deleting

/-- Every row was inserted by a call that has ended since. -/
structure Owned (calls : List Call) (registry : Registry) : Prop where
  stages : ∀ (i : Nat) p, registry.threads[i]? = some p → ∃ c, calls[i]? = some c ∧ Stage calls c p
  rows : ∀ r ∈ registry.shared, ∃ (i : Nat) (ips supportTypes : String) (result : Except String Unit),
    calls[i]? = some (.reportWorkerInfo r.id r.workerId ips supportTypes) ∧
      registry.threads[i]? = some (.ret result)

theorem start_owned : Owned calls (start calls) where
  stages := by
    intro i p get
    simp only [start, List.getElem?_map, Option.map_eq_some_iff] at get
    obtain ⟨c, get, rfl⟩ := get
    exact ⟨c, get, stage_program calls c⟩
  rows := by
    intro r member
    exact absurd member (Table.not_mem_empty r)

/-- A row after a step of calls that own their rows: it was there under the same
`worker_id`, or the call whose turn it is has inserted it. -/
theorem step_row {i : Nat} {k : st.Response → Program Statement Statement.Response (Except String Unit)}
    {r : WorkerState} (fresh : FreshIds Call.newId calls) (owned : Owned calls u)
    (turn : u.threads[i]? = some (.call st k)) (member : r ∈ (act ch st u.shared).2) :
    (∃ s ∈ u.shared, r.id = s.id ∧ r.workerId = s.workerId) ∨
    ch.fails = none ∧ ∃ ips supportTypes, st = .insert r.id r.workerId ips supportTypes := by
  rcases act_row member with ⟨s, old, same, worker | ⟨ips, supportTypes, updates⟩⟩ | inserted
  · exact Or.inl ⟨s, old, same, worker⟩
  · -- the row was selected for the worker that owns it
    left
    refine ⟨s, old, same, ?_⟩
    obtain ⟨c, get, stage⟩ := owned.stages i _ turn
    obtain ⟨j, _, _, _, owner, -⟩ := owned.rows s old
    subst updates
    cases stage with
    | updating owns =>
      obtain ⟨j', _, _, owner'⟩ := owns
      rw [same] at owner'
      obtain rfl := fresh.eq owner owner' rfl rfl
      rw [owner] at owner'
      have sameCall := Call.reportWorkerInfo.inj (Option.some.inj owner')
      exact sameCall.2.1.symm
  · exact Or.inr inserted

theorem step_owned (fresh : FreshIds Call.newId calls) (owned : Owned calls u) (h : step u a = some v) :
    Owned calls v := by
  obtain ⟨i, ch⟩ := a
  obtain ⟨st, k, turn, rfl⟩ := Pool.step_some.mp h
  obtain ⟨c, get, stage⟩ := owned.stages i _ turn
  obtain ⟨bound, -⟩ := List.getElem?_eq_some_iff.mp turn
  -- what the call whose turn it was goes on with
  have next : Stage calls c (k (act ch st u.shared).1) := by
    cases stage with
    | @reporting newId workerId ips supportTypes call =>
      cases response : (act ch (.find workerId) u.shared).1 with
      | error e => exact .done
      | ok found =>
        cases found with
        | none => exact .inserting call
        | some state =>
          apply Stage.updating
          cases fails : ch.fails with
          | some e => simp [act, unlessFails, fails] at response
          | none =>
            simp only [act, unlessFails, fails, perform, Except.ok.injEq] at response
            obtain ⟨member, same⟩ := selectWorker_mem response
            obtain ⟨j, ips', supportTypes', -, owner, -⟩ := owned.rows state member
            exact ⟨j, ips', supportTypes', by rw [owner, same]⟩
    | deletingWorker | deleting | updating | inserting => exact .done
  constructor
  · intro j p get'
    by_cases same : j = i
    · subst same
      simp only [List.getElem?_set_self bound, Option.some.injEq] at get'
      subst get'
      exact ⟨c, get, next⟩
    · rw [List.getElem?_set_ne (Ne.symm same)] at get'
      exact owned.stages j p get'
  · intro r member
    rcases step_row fresh owned turn member with ⟨s, old, same, worker⟩ | ⟨performs, ips, supportTypes, inserts⟩
    · obtain ⟨j, ips, supportTypes, result, owner, ended⟩ := owned.rows s old
      refine ⟨j, ips, supportTypes, result, by rw [owner, same, worker], ?_⟩
      have other : i ≠ j := Pool.turn_ne turn ended
      rw [List.getElem?_set_ne other]
      exact ended
    · subst inserts
      cases stage with
      | inserting call =>
        subst call
        exact ⟨i, _, _, _, get, List.getElem?_set_self bound⟩

/-- A step keeps at most one row for each worker exactly if it does not insert one for a
worker that has a row. -/
theorem step_oneRow_iff (fresh : FreshIds Call.newId calls) (owned : Owned calls u) (one : OneRow u.shared)
    (h : step u a = some v) :
    OneRow v.shared ↔ ∀ workerId, Inserts u a workerId → ∀ r ∈ u.shared, r.workerId ≠ workerId := by
  obtain ⟨i, ch⟩ := a
  obtain ⟨st, k, turn, rfl⟩ := Pool.step_some.mp h
  constructor
  · intro one' workerId inserts r member worker
    obtain ⟨performs, id, ips, supportTypes, k', turn'⟩ := inserts
    rw [turn] at turn'
    cases turn'
    obtain ⟨c, get, stage⟩ := owned.stages i _ turn
    cases stage with
    | inserting call =>
      subst call
      have absent (s : WorkerState) (old : s ∈ u.shared) : s.id ≠ id := by
        rintro rfl
        obtain ⟨j, _, _, result, owner, ended⟩ := owned.rows s old
        obtain rfl := fresh.eq owner get rfl rfl
        exact Pool.turn_ne turn ended rfl
      obtain ⟨⟨n, new, key, same⟩, kept⟩ := act_insert performs absent
      have twice := one' r (kept r member) n new (worker.trans same.symm)
      exact absent r member (twice ▸ key)
  · intro free r hr s hs worker
    rcases step_row fresh owned turn hr with ⟨r₀, old, rid, worker₀⟩ | ⟨performs, ips, types, inserts⟩
    · rcases step_row fresh owned turn hs with ⟨s₀, old', sid, worker₁⟩ | ⟨performs, ips, types, inserts⟩
      · have same : r₀ = s₀ := one r₀ old s₀ old' (by rw [← worker₀, ← worker₁, worker])
        exact Table.ext_key hr hs (by simp [rid, sid, same])
      · subst inserts
        exact absurd (worker₀.symm.trans worker) (free _ ⟨performs, _, _, _, _, turn⟩ r₀ old)
    · subst inserts
      rcases step_row fresh owned turn hs with ⟨s₀, old', sid, worker₁⟩ | ⟨-, ips', types', inserts'⟩
      · exact absurd (worker₁.symm.trans worker.symm) (free _ ⟨performs, _, _, _, _, turn⟩ s₀ old')
      · exact Table.ext_key hr hs (Statement.insert.inj inserts').1

/-- In every state each worker has at most one row exactly if no `INSERT` is executed
for a worker that has a row by then. -/
theorem one_row_iff {as : List (Nat × Choice)} (fresh : FreshIds Call.newId calls)
    (run : Runs.run step (start calls) as = some registry) :
    Runs.Always step (fun u => OneRow u.shared) (start calls) as ↔
      Runs.Along step (fun u a => ∀ workerId, Inserts u a workerId →
        ∀ r ∈ u.shared, r.workerId ≠ workerId) (start calls) as := by
  apply Runs.always_iff_along_of run start_owned
  · intro u a v owned h
    exact step_owned fresh owned h
  · intro r member
    exact absurd member (Table.not_mem_empty r)
  · intro u a v owned one h
    exact step_oneRow_iff fresh owned one h

/-- Two heartbeats of one worker, one after the other. -/
def heartbeats : List Call :=
  [.reportWorkerInfo "5d1f" "w1" "10.0.0.1" "C2", .reportWorkerInfo "a07c" "w1" "10.0.0.1" "C2"]

def inTurn : List (Nat × Choice) :=
  [(0, ⟨1, none, 0⟩), (0, ⟨1, none, 0⟩), (1, ⟨2, none, 0⟩), (1, ⟨2, none, 0⟩)]

theorem one_row_iff_demo : ∃ registry, Runs.run step (start heartbeats) inTurn = some registry ∧
    (Runs.Always step (fun u => OneRow u.shared) (start heartbeats) inTurn ↔
      Runs.Along step (fun u a => ∀ workerId, Inserts u a workerId →
        ∀ r ∈ u.shared, r.workerId ≠ workerId) (start heartbeats) inTurn) := by
  have ran : (Runs.run step (start heartbeats) inTurn).isSome := by decide
  obtain ⟨registry, run⟩ := Option.isSome_iff_exists.mp ran
  exact ⟨registry, run, one_row_iff (by decide) run⟩

/-- Both heartbeats look for the row before either has inserted it. -/
theorem overlapping_heartbeats_duplicate :
    FreshIds Call.newId heartbeats ∧ ¬ Runs.Always step (fun u => OneRow u.shared) (start heartbeats)
      [(0, ⟨1, none, 0⟩), (1, ⟨1, none, 0⟩), (0, ⟨2, none, 0⟩), (1, ⟨2, none, 0⟩)] := by
  have ran : ((Runs.run step (start heartbeats)
      [(0, ⟨1, none, 0⟩), (1, ⟨1, none, 0⟩), (0, ⟨2, none, 0⟩), (1, ⟨2, none, 0⟩)]).map fun u =>
        u.shared.rows) = some [⟨"5d1f", "w1", "10.0.0.1", "C2", 2, 2⟩,
          ⟨"a07c", "w1", "10.0.0.1", "C2", 2, 2⟩] := by
    decide
  obtain ⟨registry, run, rows⟩ := Option.map_eq_some_iff.mp ran
  refine ⟨by decide, ?_⟩
  intro always
  have one := always.last run
  have twice := one ⟨"5d1f", "w1", "10.0.0.1", "C2", 2, 2⟩ (by simp [Table.mem_iff, rows])
    ⟨"a07c", "w1", "10.0.0.1", "C2", 2, 2⟩ (by simp [Table.mem_iff, rows]) rfl
  simp at twice

end WorkerStateRepo

end GpuProxy
