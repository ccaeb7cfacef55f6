import GpuProxy.Table
import GpuProxy.Program
import GpuProxy.Utils
import Mathlib.Logic.Function.Basic

/-!
# Worker ids

A process asks its own database who it is: the id stored there, or a new one that it
stores. Two statements with no transaction around them, and nothing but the id itself
is a key of the table.
-/

namespace GpuProxy

structure WorkerInfo where
  id : String
  deriving DecidableEq, Repr

instance : HasKey WorkerInfo String := ⟨WorkerInfo.id⟩

@[simp] theorem key_workerInfo (r : WorkerInfo) : key r = r.id := rfl

/-- `Uuid::to_string` and `Uuid::parse_str`. -/
structure UuidFormat (Uuid : Type) where
  toString : Uuid → String
  parseStr : String → Except String Uuid
  parse_toString : ∀ uid, parseStr (toString uid) = .ok uid

theorem UuidFormat.toString_inj {Uuid : Type} (format : UuidFormat Uuid) {uid uid' : Uuid}
    (h : format.toString uid = format.toString uid') : uid = uid' := by
  have parsed := format.parse_toString uid
  rw [h, format.parse_toString] at parsed
  exact (Except.ok.inj parsed).symm

namespace WorkerRepo

/-- The `worker_infos` table of each database. -/
abbrev WorkerInfos := String → Table WorkerInfo

inductive Statement where
  /-- `find().one(..)`. -/
  | find (database : String)
  | insert (database id : String)
  deriving DecidableEq, Repr

abbrev Statement.Res : Statement → Type
  | .find _ => Option WorkerInfo
  | .insert .. => Unit

abbrev Statement.Response (st : Statement) : Type := Except String st.Res

/-- Whether the database fails the statement, and which row a `SELECT ... LIMIT 1` returns. -/
structure Choice where
  fails : Option String
  pick : Nat

def perform (pick : Nat) : (st : Statement) → WorkerInfos → st.Response × WorkerInfos
  | .find database, infos => (.ok ((infos database).selectOne (fun _ => true) pick), infos)
  | .insert database id, infos =>
    match (infos database).insert ⟨id⟩ with
    | some rows => (.ok (), Function.update infos database rows)
    | none => (.error primaryKeyConflict, infos)

def act (ch : Choice) (st : Statement) (infos : WorkerInfos) : st.Response × WorkerInfos :=
  unlessFails ch.fails (perform ch.pick st infos) infos

abbrev Statements (α : Type) := ExceptT String (Program Statement Statement.Response) α

def execute (st : Statement) : Statements st.Res := ExceptT.mk (Program.perform st)

variable {Uuid : Type} (format : UuidFormat Uuid)

/-- `uid` is what `Uuid::new_v4` returns, should the call need it. -/
def getWorkerId (database : String) (uid : Uuid) : Statements Uuid := do
  match ← execute (.find database) with
  | some workerInfo => ExceptT.mk (pure (format.parseStr workerInfo.id))
  | none =>
    execute (.insert database (format.toString uid))
    return uid

/-- A process that starts. -/
structure Call (Uuid : Type) where
  database : String
  uid : Uuid
  deriving DecidableEq, Repr

def Call.newId (c : Call Uuid) : Option Uuid := some c.uid

abbrev Program' (Uuid : Type) := Program Statement Statement.Response (Except String Uuid)

abbrev Processes (Uuid : Type) := Pool WorkerInfos Statement Statement.Response (Except String Uuid)

/-- Databases as migrated, and all the processes that are ever started on them. -/
def start (calls : List (Call Uuid)) : Processes Uuid :=
  ⟨fun _ => Table.empty, calls.map fun c => (getWorkerId format c.database c.uid).run⟩

def step : Processes Uuid → Nat × Choice → Option (Processes Uuid) := Pool.step act

/-- Process `i`, of this database, has got the id. -/
def Got (calls : List (Call Uuid)) (processes : Processes Uuid) (i : Nat) (database : String)
    (uid : Uuid) : Prop :=
  (∃ c, calls[i]? = some c ∧ c.database = database) ∧ processes.threads[i]? = some (.ret (.ok uid))

/-- The step executes an `INSERT` into a table that has a row by then. -/
def Clashes (processes : Processes Uuid) (a : Nat × Choice) : Prop :=
  a.2.fails = none ∧ ∃ database id k, processes.threads[a.1]? = some (.call (.insert database id) k) ∧
    ∃ r, r ∈ processes.shared database

/-! ## Where an id comes from -/

def afterFind (database : String) (uid : Uuid) :
    Except String (Option WorkerInfo) → Program' Uuid
  | .ok (some workerInfo) => .ret (format.parseStr workerInfo.id)
  | .ok none => .call (.insert database (format.toString uid)) fun r => .ret (r.map fun _ => uid)
  | .error e => .ret (.error e)

theorem getWorkerId_eq (database : String) (uid : Uuid) :
    (getWorkerId format database uid).run = .call (.find database) (afterFind format database uid) := by
  apply Program.call_congr
  intro r
  rcases r with e | _ | workerInfo
  · rfl
  · apply Program.call_congr
    intro r
    cases r <;> rfl
  · rfl

/-- How far a process is. One that has an id has it from a row of its database. -/
inductive Stage (infos : WorkerInfos) (c : Call Uuid) : Program' Uuid → Prop where
  | asking : Stage infos c (.call (.find c.database) (afterFind format c.database c.uid))
  | inserting : Stage infos c (.call (.insert c.database (format.toString c.uid))
      fun r => .ret (r.map fun _ => c.uid))
  | got {uid : Uuid} (row : ⟨format.toString uid⟩ ∈ infos c.database) : Stage infos c (.ret (.ok uid))
  | failed {e : String} : Stage infos c (.ret (.error e))

/-- Every row was inserted by a process that has it as its id. -/
structure Owned (calls : List (Call Uuid)) (processes : Processes Uuid) : Prop where
  stages : ∀ (i : Nat) p, processes.threads[i]? = some p →
    ∃ c, calls[i]? = some c ∧ Stage format processes.shared c p
  rows : ∀ database, ∀ r ∈ processes.shared database, ∃ (i : Nat) (uid : Uuid),
    calls[i]? = some ⟨database, uid⟩ ∧ r.id = format.toString uid ∧
      processes.threads[i]? = some (.ret (.ok uid))

variable {format} {calls : List (Call Uuid)} {u v : Processes Uuid} {a : Nat × Choice}

theorem start_owned : Owned format calls (start format calls) where
  stages := by
    intro i p get
    simp only [start, List.getElem?_map, Option.map_eq_some_iff] at get
    obtain ⟨c, get, rfl⟩ := get
    refine ⟨c, get, ?_⟩
    rw [getWorkerId_eq]
    exact .asking
  rows := by
    intro database r member
    exact absurd member (Table.not_mem_empty r)

/-! ## Statements -/

section
variable {ch : Choice} {st : Statement} {infos : WorkerInfos} {database id : String} {r : WorkerInfo}

theorem act_insert (infos : WorkerInfos) (database id : String) (performs : ch.fails = none) :
    (∃ rows, (infos database).insert ⟨id⟩ = some rows ∧
      act ch (.insert database id) infos = (.ok (), Function.update infos database rows)) ∨
    (⟨id⟩ ∈ infos database ∧ act ch (.insert database id) infos = (.error primaryKeyConflict, infos)) := by
  simp only [act, unlessFails, performs, perform]
  cases inserted : (infos database).insert ⟨id⟩ with
  | some rows => exact .inl ⟨rows, rfl, rfl⟩
  | none =>
    obtain ⟨⟨id'⟩, found⟩ := Table.insert_none.mp inserted
    obtain ⟨there, same⟩ := Table.find_some.mp found
    cases same
    exact .inr ⟨there, rfl⟩

/-- The rows of a database are those it had and the one that is inserted. -/
theorem mem_act : r ∈ (act ch st infos).2 database ↔ r ∈ infos database ∨
    (ch.fails = none ∧ st = .insert database r.id) := by
  obtain ⟨id⟩ := r
  cases fails : ch.fails with
  | some e => simp [act, unlessFails, fails]
  | none =>
    cases st with
    | find database' => simp [act, unlessFails, fails, perform]
    | insert database' id' =>
      rcases act_insert infos database' id' fails with
        ⟨rows, inserted, same⟩ | ⟨there, same⟩
      · rw [same]
        by_cases here : database = database'
        · subst here
          simp [Table.mem_insert inserted, eq_comm]
        · simp [Function.update_of_ne here, Ne.symm here]
      · rw [same]
        simp only [Statement.insert.injEq, true_and, iff_self_or]
        rintro ⟨rfl, rfl⟩
        exact there

end

/-! ## One step -/

theorem Stage.mono {infos infos' : WorkerInfos} {c : Call Uuid} {p : Program' Uuid}
    (stage : Stage format infos c p) (kept : ∀ r ∈ infos c.database, r ∈ infos' c.database) :
    Stage format infos' c p := by
  cases stage with
  | asking => exact .asking
  | inserting => exact .inserting
  | got row => exact .got (kept _ row)
  | failed => exact .failed

/-- What a process goes on with. -/
theorem Stage.next {c : Call Uuid} {ch : Choice} {st : Statement}
    {k : st.Response → Program' Uuid} (owned : Owned format calls u)
    (stage : Stage format u.shared c (.call st k)) :
    Stage format (act ch st u.shared).2 c (k (act ch st u.shared).1) := by
  cases stage with
  | asking =>
    cases fails : ch.fails with
    | some e =>
      simp only [act, unlessFails, fails]
      exact .failed
    | none =>
      simp only [act, unlessFails, fails, perform]
      cases found : (u.shared c.database).selectOne (fun _ => true) ch.pick with
      | none => exact .inserting
      | some workerInfo =>
        have there : workerInfo ∈ u.shared c.database := (Table.selectOne_mem found).1
        obtain ⟨j, uid, -, id, -⟩ := owned.rows c.database workerInfo there
        simp only [afterFind, id, format.parse_toString]
        refine .got ?_
        rw [← id]
        exact there
  | inserting =>
    cases fails : ch.fails with
    | some e =>
      simp only [act, unlessFails, fails]
      exact .failed
    | none =>
      rcases act_insert u.shared c.database (format.toString c.uid) fails with
        ⟨rows, inserted, same⟩ | ⟨-, same⟩
      · rw [same]
        refine .got ?_
        simp only [Function.update_self]
        exact (Table.mem_insert inserted).mpr (.inr rfl)
      · rw [same]
        exact .failed

theorem step_owned (fresh : FreshIds Call.newId calls) (owned : Owned format calls u) (h : step u a = some v) :
    Owned format calls v := by
  obtain ⟨i, ch⟩ := a
  obtain ⟨st, k, turn, rfl⟩ := Pool.step_some.mp h
  obtain ⟨bound, -⟩ := List.getElem?_eq_some_iff.mp turn
  have kept (database : String) (r : WorkerInfo) (there : r ∈ u.shared database) :
      r ∈ (act ch st u.shared).2 database := mem_act.mpr (.inl there)
  constructor
  · intro j p get
    by_cases same : j = i
    · subst same
      simp only [List.getElem?_set_self bound, Option.some.injEq] at get
      subst get
      obtain ⟨c, call, stage⟩ := owned.stages j _ turn
      exact ⟨c, call, stage.next owned⟩
    · rw [List.getElem?_set_ne (Ne.symm same)] at get
      obtain ⟨c, call, stage⟩ := owned.stages j p get
      exact ⟨c, call, stage.mono (kept _)⟩
  · intro database r there
    rcases mem_act.mp there with old | ⟨performs, inserts⟩
    · obtain ⟨j, uid, call, id, got⟩ := owned.rows database r old
      have other : i ≠ j := Pool.turn_ne turn got
      exact ⟨j, uid, call, id, by rw [List.getElem?_set_ne other, got]⟩
    · obtain ⟨id⟩ := r
      subst inserts
      obtain ⟨c, call, stage⟩ := owned.stages i _ turn
      cases stage with
      | inserting =>
        refine ⟨i, c.uid, call, rfl, ?_⟩
        rw [List.getElem?_set_self bound]
        rcases act_insert u.shared c.database (format.toString c.uid) performs with
          ⟨rows, -, same⟩ | ⟨taken, -⟩
        · rw [same]
          rfl
        · -- its own id cannot be there yet
          obtain ⟨j, uid, call', id, got⟩ := owned.rows _ _ taken
          obtain rfl := fresh.eq call call' rfl (congrArg some (format.toString_inj id).symm)
          exact absurd rfl (Pool.turn_ne turn got)

/-- An id that was got stays with its process. -/
theorem step_got {i : Nat} {database : String} {uid : Uuid} (got : Got calls u i database uid)
    (h : step u a = some v) : Got calls v i database uid := by
  obtain ⟨j, ch⟩ := a
  obtain ⟨st, k, turn, rfl⟩ := Pool.step_some.mp h
  obtain ⟨call, ended⟩ := got
  have other : j ≠ i := Pool.turn_ne turn ended
  exact ⟨call, by rw [List.getElem?_set_ne other, ended]⟩

/-- At most one row in each database. -/
def OneIdentity (processes : Processes Uuid) : Prop :=
  ∀ database, ∀ r ∈ processes.shared database, ∀ s ∈ processes.shared database, r = s

theorem step_oneIdentity (one : OneIdentity u) (quiet : ¬ Clashes u a) (h : step u a = some v) :
    OneIdentity v := by
  obtain ⟨i, ch⟩ := a
  obtain ⟨st, k, turn, rfl⟩ := Pool.step_some.mp h
  intro database r hr s hs
  have alone (t t' : WorkerInfo) (performs : ch.fails = none) (inserts : st = .insert database t.id)
      (there : t' ∈ u.shared database) : False := by
    subst inserts
    exact quiet ⟨performs, database, t.id, k, turn, t', there⟩
  rcases mem_act.mp hr with oldr | ⟨performs, newr⟩
  · rcases mem_act.mp hs with olds | ⟨performs, news⟩
    · exact one database r oldr s olds
    · exact (alone s r performs news oldr).elim
  · rcases mem_act.mp hs with olds | ⟨-, news⟩
    · exact (alone r s performs newr olds).elim
    · rw [newr] at news
      obtain ⟨id⟩ := r
      obtain ⟨id'⟩ := s
      cases news
      rfl

/-- The row an id was got from. -/
theorem Owned.row (owned : Owned format calls u) {i : Nat} {database : String} {uid : Uuid}
    (got : Got calls u i database uid) : ⟨format.toString uid⟩ ∈ u.shared database := by
  obtain ⟨⟨c, call, rfl⟩, ended⟩ := got
  obtain ⟨c', call', stage⟩ := owned.stages i _ ended
  rw [call] at call'
  cases call'
  cases stage with
  | got row => exact row

/-- The process that executes a clashing `INSERT` gets its own id, and the owner of the row
that is there has another one. -/
theorem clash_splits (fresh : FreshIds Call.newId calls) (owned : Owned format calls u) (clash : Clashes u a)
    (h : step u a = some v) : ∃ (i j : Nat) (database : String) (uid uid' : Uuid),
      Got calls v i database uid ∧ Got calls v j database uid' ∧ uid ≠ uid' := by
  have owned' := step_owned fresh owned h
  obtain ⟨i, ch⟩ := a
  obtain ⟨performs, database, id, k, turn, r, there⟩ := clash
  obtain ⟨j, uid, call, key, ended⟩ := owned.rows database r there
  have other : i ≠ j := Pool.turn_ne turn ended
  have first : Got calls v j database uid := step_got ⟨⟨_, call, rfl⟩, ended⟩ h
  obtain ⟨st, k', turn', rfl⟩ := Pool.step_some.mp h
  rw [turn] at turn'
  cases turn'
  have new : (⟨id⟩ : WorkerInfo) ∈ (act ch (.insert database id) u.shared).2 database :=
    mem_act.mpr (.inr ⟨performs, rfl⟩)
  obtain ⟨m, uid', call', key', ended'⟩ := owned'.rows database _ new
  obtain ⟨c, callᵢ, stage⟩ := owned.stages i _ turn
  have second : m = i := by
    cases stage with
    | inserting => exact fresh.eq call' callᵢ rfl (congrArg some (format.toString_inj key'))
  subst second
  refine ⟨m, j, database, uid', uid, ⟨⟨_, call', rfl⟩, ended'⟩, first, ?_⟩
  rintro rfl
  exact other (fresh.eq call' call rfl rfl)

/-- Two processes never get one id from two databases. Those of one database all get the same
exactly if no `INSERT` is executed where there is a row by then. -/
theorem identities {as : List (Nat × Choice)} (fresh : FreshIds Call.newId calls)
    (run : Runs.run step (start format calls) as = some u) :
    (∀ i j database database' uid, Got calls u i database uid → Got calls u j database' uid →
      database = database') ∧
    ((∀ i j database uid uid', Got calls u i database uid → Got calls u j database uid' → uid = uid') ↔
      Runs.Along step (fun processes a => ¬ Clashes processes a) (start format calls) as) := by
  have owned : Owned format calls u := Runs.invariant run start_owned fun _ _ _ => step_owned fresh
  refine ⟨?_, ?_, ?_⟩
  · intro i j database database' uid got got'
    obtain ⟨k, uid₁, call, key, -⟩ := owned.rows database _ (owned.row got)
    obtain ⟨l, uid₂, call', key', -⟩ := owned.rows database' _ (owned.row got')
    obtain rfl := format.toString_inj key
    obtain rfl := format.toString_inj key'
    obtain rfl := fresh.eq call call' rfl rfl
    rw [call] at call'
    cases call'
    rfl
  · rintro agree pre a post t rfl before clash
    obtain ⟨t', v, before', moved, after⟩ := Runs.run_split run
    rw [before] at before'
    cases before'
    have owned' : Owned format calls t :=
      Runs.invariant before start_owned fun _ _ _ => step_owned fresh
    obtain ⟨i, j, database, uid, uid', got, got', differ⟩ := clash_splits fresh owned' clash moved
    have later {i : Nat} {uid : Uuid} (got : Got calls v i database uid) : Got calls u i database uid :=
      Runs.invariant (I := fun w => Got calls w i database uid) after got fun _ _ _ => step_got
    exact differ (agree i j database uid uid' (later got) (later got'))
  · intro quiet i j database uid uid' got got'
    have one : OneIdentity u := by
      refine Runs.invariant_along run ?_ quiet fun _ _ _ => step_oneIdentity
      intro database r there
      exact absurd there (Table.not_mem_empty r)
    have same := one database _ (owned.row got) _ (owned.row got')
    exact format.toString_inj (WorkerInfo.mk.inj same)

def uuidTexts : List String :=
  ["0b9d2a34-6f0e-4c55-9a6b-5d1f8c7e2301", "c2f1e7a8-13d4-4b0a-8f3e-a07c94d15b62",
    "7e45d9b1-82c6-4f17-b5a0-19e3c6f4d870"]

/-- Three version 4 UUIDs. -/
def someUuids : UuidFormat (Fin 3) where
  toString uid := uuidTexts[uid.val]?.getD ""
  parseStr s :=
    match List.findFinIdx? (· == s) uuidTexts with
    | some uid => .ok uid
    | none => .error "invalid UUID"
  parse_toString := by decide +kernel

/-- Two processes of one database, the second started after the first, and one of another. -/
def processesOf : List (Call (Fin 3)) := [⟨"a.db", 0⟩, ⟨"a.db", 1⟩, ⟨"b.db", 2⟩]

def startsInTurn : List (Nat × Choice) :=
  [(0, ⟨none, 0⟩), (2, ⟨none, 0⟩), (0, ⟨none, 0⟩), (1, ⟨none, 0⟩), (2, ⟨none, 0⟩)]

theorem identities_demo : ∃ u, Runs.run step (start someUuids processesOf) startsInTurn = some u ∧
    u.threads.map Program.answer = [some (.ok 0), some (.ok 0), some (.ok 2)] ∧
    ((∀ i j database uid uid', Got processesOf u i database uid → Got processesOf u j database uid' →
        uid = uid') ↔ Runs.Along step (fun processes a => ¬ Clashes processes a)
          (start someUuids processesOf) startsInTurn) := by
  have ran : ((Runs.run step (start someUuids processesOf) startsInTurn).map fun u =>
      u.threads.map Program.answer) = some [some (.ok 0), some (.ok 0), some (.ok 2)] := by
    decide +kernel
  obtain ⟨u, run, ids⟩ := Option.map_eq_some_iff.mp ran
  have fresh : FreshIds Call.newId processesOf := by decide
  exact ⟨u, run, ids, (identities fresh run).2⟩

end WorkerRepo

end GpuProxy
