import GpuProxy.Schema
import GpuProxy.Scripts
import Mathlib.Data.List.Infix

/-!
# The migrations

The server and every worker run `Migrator::up` when they start. It goes through the migrations
whose names its own table does not have, and puts the name of each there after the last of
its statements. Neither MySQL nor SQLite does this in a transaction, so what a run that ends
early has executed stays.
-/

namespace GpuProxy

namespace Migrator

inductive Entity where
  | resourceInfo
  | workerInfo
  | tasks
  | workersState
  deriving DecidableEq, Repr

inductive Field where
  | id
  | miner
  | resourceId
  | proof
  | workerId
  | taskType
  | errorMsg
  | comment
  | state
  | createAt
  | startAt
  | completeAt
  | data
  | ips
  | supportTypes
  | updateAt
  deriving DecidableEq, Repr

/-- The fields of the entities. -/
def Entity.fields : Entity → List Field
  | .resourceInfo => [.id, .data, .createAt]
  | .workerInfo => [.id]
  | .tasks => [.id, .miner, .resourceId, .proof, .workerId, .taskType, .errorMsg, .comment, .state,
      .createAt, .startAt, .completeAt]
  | .workersState => [.id, .workerId, .ips, .supportTypes, .updateAt, .createAt]

/-- The indexes, all of them on `tasks`. -/
inductive Index where
  | createAt
  | startAt
  | completeAt
  | state
  | taskType
  | workerId
  | workerIdState
  | workerIdTaskType
  deriving DecidableEq, Repr

def Index.name : Index → String
  | .createAt => "tasks_create_at"
  | .startAt => "tasks_start_at"
  | .completeAt => "tasks_complete_at"
  | .state => "tasks_state"
  | .taskType => "tasks_tasktype"
  | .workerId => "tasks_worker_id"
  | .workerIdState => "tasks_workerid_state"
  | .workerIdTaskType => "tasks_workerid_tasktype"

/-- The migrations, each named after its module. -/
inductive Version where
  | m20220101
  | m20220426
  | m20230111
  | m20230113
  deriving DecidableEq, Repr

structure Catalog where
  tables : List (Entity × List Field)
  indexes : List (Index × List Field)
  /-- The rows of `seaql_migrations`. -/
  applied : List Version
  deriving DecidableEq, Repr

def Catalog.empty : Catalog := ⟨[], [], []⟩

inductive Statement where
  /-- `CREATE TABLE IF NOT EXISTS`. -/
  | createTable (table : Entity) (columns : List Field)
  | createIndex (index : Index) (columns : List Field)
  | addColumn (table : Entity) (column : Field)
  /-- The `INSERT` of `Migrator::up` after a migration. -/
  | record (version : Version)
  deriving DecidableEq, Repr

def Database.duplicateIndex (name : String) : Database → String
  | .mySql => "Duplicate key name '" ++ name ++ "'"
  | .sqlite => "index " ++ name ++ " already exists"

def duplicateColumn : String := "duplicate column name"

def noSuchTable : String := "no such table"

def Database.execute (db : Database) (c : Catalog) : Statement → Except String Unit × Catalog
  | .createTable table columns =>
    match c.tables.lookup table with
    | some _ => (.ok (), c)
    | none => (.ok (), { c with tables := c.tables ++ [(table, columns)] })
  | .createIndex index columns =>
    match c.tables.lookup .tasks, c.indexes.lookup index with
    | some _, none => (.ok (), { c with indexes := c.indexes ++ [(index, columns)] })
    | some _, some _ => (.error (db.duplicateIndex index.name), c)
    | none, _ => (.error noSuchTable, c)
  | .addColumn table column =>
    match c.tables.lookup table with
    | some columns =>
      if column ∈ columns then (.error duplicateColumn, c)
      else (.ok (), { c with tables := c.tables.map fun t =>
        if t.1 = table then (t.1, t.2 ++ [column]) else t })
    | none => (.error noSuchTable, c)
  | .record version =>
    if version ∈ c.applied then (.error primaryKeyConflict, c)
    else (.ok (), { c with applied := c.applied ++ [version] })

/-- `e_str.contains("Duplicate key name")`. -/
def saysDuplicate (e : String) : Bool :=
  decide ("Duplicate key name".toList <:+: e.toList)

def ignoreExist : Except String Unit → Except String Unit
  | .error e => if saysDuplicate e then .ok () else .error e
  | .ok () => .ok ()

/-- A statement of an `up`, with what is made of its result before `?`. -/
inductive Await where
  | plain (statement : Statement)
  | ignoringExist (statement : Statement)
  deriving DecidableEq, Repr

/-- The state after the statement, unless the run ends with its error. -/
def exec (db : Database) (c : Catalog) : Await → Option Catalog
  | .plain statement =>
    match db.execute c statement with
    | (.ok (), c') => some c'
    | (.error _, _) => none
  | .ignoringExist statement =>
    match ignoreExist (db.execute c statement).1 with
    | .ok () => some (db.execute c statement).2
    | .error _ => none

structure Migration where
  name : Version
  up : List Await

/-- `m20220101_000001_create_table`. -/
def m20220101 : Migration where
  name := .m20220101
  up :=
    [.plain (.createTable .resourceInfo [.id, .data, .createAt]),
      .plain (.createTable .workerInfo [.id]),
      .plain (.createTable .tasks [.id, .miner, .resourceId, .proof, .workerId, .taskType, .errorMsg,
        .state, .createAt, .startAt, .completeAt])]

/-- `m20220426_000001_create_table`. -/
def m20220426 : Migration where
  name := .m20220426
  up :=
    [.ignoringExist (.createIndex .createAt [.createAt]),
      .ignoringExist (.createIndex .startAt [.startAt]),
      .ignoringExist (.createIndex .completeAt [.completeAt]),
      .ignoringExist (.createIndex .state [.state]),
      .ignoringExist (.createIndex .taskType [.taskType]),
      .ignoringExist (.createIndex .workerId [.workerId]),
      .ignoringExist (.createIndex .workerIdState [.workerId, .state]),
      .ignoringExist (.createIndex .workerIdTaskType [.workerId, .taskType])]

/-- `m20230111_000001_create_table`. -/
def m20230111 : Migration where
  name := .m20230111
  up :=
    [.plain (.createTable .workersState [.id, .workerId, .ips, .supportTypes, .createAt, .updateAt])]

/-- `m20230113_000001_create_table`. -/
def m20230113 : Migration where
  name := .m20230113
  up := [.plain (.addColumn .tasks .comment)]

def migrations : List Migration := [m20220101, m20220426, m20230111, m20230113]

def Migration.script (m : Migration) : List Await := m.up ++ [.plain (.record m.name)]

/-- What a run of `Migrator::up` goes through, found out when it starts. -/
def pending (c : Catalog) : List Await :=
  (migrations.filter fun m => decide (m.name ∉ c.applied)).flatMap Migration.script

def script : List Await := migrations.flatMap Migration.script

/-- What the first `n` statements leave. -/
def after (n : Nat) : Catalog :=
  (script.take n).foldl (fun c a => (exec .mySql c a).getD c) .empty

/-- The first statement that a run has to execute after the first `n`. -/
def base (n : Nat) : Nat := script.length - (pending (after n)).length

def Catalog.has (c : Catalog) (table : Entity) (column : Field) : Prop :=
  ∃ columns ∈ c.tables.lookup table, column ∈ columns

instance (c : Catalog) (table : Entity) (column : Field) : Decidable (c.has table column) :=
  inferInstanceAs (Decidable (∃ columns ∈ c.tables.lookup table, column ∈ columns))

/-- A migration is half done that cannot be begun again: the column is there and its migration
is not recorded, or, on SQLite, an index is there and theirs is not. -/
def Stuck (db : Database) (c : Catalog) : Prop :=
  c.has .tasks .comment ∧ .m20230113 ∉ c.applied ∨
    db = .sqlite ∧ c.indexes ≠ [] ∧ .m20220426 ∉ c.applied

instance (db : Database) (c : Catalog) : Decidable (Stuck db c) :=
  inferInstanceAs (Decidable (_ ∧ _ ∨ _ ∧ _ ∧ _))

/-- The schema the entities are for, with every index and every migration recorded. -/
structure Complete (c : Catalog) : Prop where
  tables : ∀ entity, ∃ columns, c.tables.lookup entity = some columns ∧ columns.Perm entity.fields
  indexes : ∀ index, (c.indexes.lookup index).isSome
  applied : ∀ m ∈ migrations, m.name ∈ c.applied

/-! ## Statement by statement -/

variable {db : Database} {n : Nat}

/-- A statement that is reached for the first time succeeds. -/
theorem exec_fresh (db : Database) :
    ∀ n < 17, ∀ a ∈ script[n]?, exec db (after n) a = some (after (n + 1)) := by
  cases db <;> decide +kernel

/-- A statement that is reached again changes nothing or fails. -/
theorem exec_again (db : Database) : ∀ n ≤ 17, ∀ m < n, ∀ a ∈ script[m]?,
    exec db (after n) a = some (after n) ∨ exec db (after n) a = none := by
  cases db <;> decide +kernel

theorem pending_after : ∀ n ≤ 17, pending (after n) = script.drop (base n) ∧ base n ≤ n := by
  decide +kernel

def plan (db : Database) : Script.Plan (exec db) pending script where
  states := after
  base := base
  fresh n a get := exec_fresh db n (List.getElem?_eq_some_iff.mp get).1 a get
  again n m a bound done get := exec_again db n bound m done a get
  resumes n bound := (pending_after n bound).1
  base_le n bound := (pending_after n bound).2

theorem stuck_after (db : Database) : ∀ n ≤ 17,
    (Stuck db (after n) ↔ ∃ m < n, base n ≤ m ∧ ∃ a ∈ script[m]?, exec db (after n) a = none) := by
  cases db <;> decide +kernel

theorem repeats_iff (bound : n ≤ script.length) : (plan db).Repeats n ↔ ¬ Stuck db (after n) := by
  rw [stuck_after db n bound]
  constructor
  · rintro repeats ⟨m, done, low, a, get, fails⟩
    have same : exec db (after n) a = some (after n) := repeats m a low done get
    rw [fails] at same
    cases same
  · intro free m a low done get
    obtain same | fails := exec_again db n bound m done a get
    · exact same
    · exact absurd ⟨m, done, low, a, get, fails⟩ free

theorem complete_after : Complete (after 17) where
  tables entity := by cases entity <;> exact ⟨_, rfl, by decide⟩
  indexes index := by cases index <;> rfl
  applied := by decide +kernel

/-- However many processes migrate a new database at once and wherever they die, one that comes
to the end has the whole schema. Where all have died, the next ones can get there exactly if
none has left the `ALTER TABLE`, or on SQLite an index, behind without its record. -/
theorem migration_recovers_iff {e : Script.Execution Catalog Await}
    (reach : Runs.Reachable (Script.step (exec db) pending) ⟨.empty, []⟩ e) :
    ([] ∈ e.running → Complete e.state) ∧
    (e.running = [] →
      ((∃ t, Runs.Reachable (Script.step (exec db) pending) e t ∧ [] ∈ t.running) ↔
        ¬ Stuck db e.state)) := by
  have reach : Runs.Reachable (Script.step (exec db) pending) ⟨(plan db).states 0, []⟩ e := reach
  constructor
  · intro success
    rw [Script.Plan.state_of_success reach success]
    exact complete_after
  · intro quiet
    obtain ⟨n, bound, within⟩ := Script.Plan.reachable_within reach
    rw [Script.Plan.can_succeed_iff within bound quiet, repeats_iff bound, within.state]
    rfl

/-- A process is killed when it has made three of the indexes. -/
def killed : List Script.Event := .start :: List.replicate 7 (.next 0) ++ [.stop 0]

/-- MySQL goes on with the fourth, SQLite never comes to it. -/
theorem migration_recovers_iff_demo :
    (∃ e, Runs.run (Script.step (exec .mySql) pending) ⟨.empty, []⟩ killed = some e ∧
      ∃ t, Runs.Reachable (Script.step (exec .mySql) pending) e t ∧ [] ∈ t.running) ∧
    ∃ e, Runs.run (Script.step (exec .sqlite) pending) ⟨.empty, []⟩ killed = some e ∧
      ¬ ∃ t, Runs.Reachable (Script.step (exec .sqlite) pending) e t ∧ [] ∈ t.running := by
  have left (db : Database) : ∃ e, Runs.run (Script.step (exec db) pending) ⟨.empty, []⟩ killed = some e ∧
      e.running = [] ∧ e.state = after 7 := by
    have ran : (Runs.run (Script.step (exec db) pending) ⟨.empty, []⟩ killed).map
        (fun e => (e.running, e.state)) = some ([], after 7) := by
      cases db <;> decide +kernel
    obtain ⟨e, run, same⟩ := Option.map_eq_some_iff.mp ran
    exact ⟨e, run, congrArg Prod.fst same, congrArg Prod.snd same⟩
  constructor
  · obtain ⟨e, run, quiet, state⟩ := left .mySql
    refine ⟨e, run, ((migration_recovers_iff ⟨_, run⟩).2 quiet).mpr ?_⟩
    rw [state]
    decide +kernel
  · obtain ⟨e, run, quiet, state⟩ := left .sqlite
    refine ⟨e, run, fun goes => ((migration_recovers_iff ⟨_, run⟩).2 quiet).mp goes ?_⟩
    rw [state]
    decide +kernel

end Migrator

end GpuProxy
