import GpuProxy.Dispatch

/-!
# What "no task to do" means

`fetch_one_todo` fails with this text where its `SELECT` finds nothing, and also where its
`UPDATE` affects no row because another call has taken the selected task by then. In the
second case other tasks may be waiting.
-/

namespace GpuProxy

namespace Dispatch

open DbOps (Tasks)

/-- The error of an empty `SELECT`. -/
def noTask : String := DbOps.recordNotFound "no task to do for worker"

/-- The error of an `UPDATE` that affects no row. -/
def noRowAffected : String := DbOps.recordNotFound "no task to do for worker."

/-- The steps of `fetch_one_todo` calls, which read the table of their moment, and of
`add_task` calls. What the database itself fails with is another text. -/
def Action.Plain : Action → Prop
  | .select _ back => back = 0
  | .abort _ e => e ≠ noTask ∧ e ≠ noRowAffected
  | .write _ (.addTask _ _ _ _ _) => True
  | .write _ _ => False
  | _ => True

def NoneToDo (types : Option (List TaskType)) (tasks : Tasks) : Prop :=
  ∀ t, tasks.find t.id = some t → DbOps.isTodo types t = false

/-- At some moment of the run, with call `i` under way, there was no task to do. -/
def SawNone (start : Db) (as : List Action) (i : Nat) (types : Option (List TaskType)) : Prop :=
  ∃ pre db txn, pre <+: as ∧ Runs.run step start pre = some db ∧ db.txns[i]? = some txn ∧
    txn.phase.open = true ∧ NoneToDo types db.tasks

/-- After `lead` and between these steps another call has committed the chosen task. -/
def Taken (start : Db) (lead between : List Action) (i : Nat) (chosen : Task) : Prop :=
  ∃ early late j db other undoTask task, between = early ++ .commit j :: late ∧ j ≠ i ∧
    Runs.run step start (lead ++ early) = some db ∧ db.txns[j]? = some other ∧
    other.phase = .reread undoTask task ∧ task.id = chosen.id

/-- The task call `i` had chosen was taken between its `SELECT` and its `UPDATE`. -/
def Overtaken (start : Db) (as : List Action) (i : Nat) (types : Option (List TaskType)) : Prop :=
  ∃ before between after now db chosen,
    as = before ++ .select i 0 :: (between ++ .update i now :: after) ∧
    Runs.run step start before = some db ∧ DbOps.selectTodo types db.tasks = some chosen ∧
    Taken start (before ++ [.select i 0]) between i chosen

/-! ## Steps that matter for the error -/

/-- A step of a call, by what it says about the error the call may end with. -/
inductive Move (db : Db) : Action → Db → Prop where
  | begin (workerId : String) (types : Option (List TaskType)) :
      Move db (.begin workerId types) { db with txns := db.txns ++ [⟨workerId, types, .begun⟩] }
  | choose {i txn chosen} (get : db.txns[i]? = some txn)
      (todo : DbOps.selectTodo txn.types db.tasks = some chosen) :
      Move db (.select i 0) (db.setPhase i txn (.selected chosen))
  | none {i txn} (get : db.txns[i]? = some txn) (running : txn.phase.open = true)
      (empty : DbOps.selectTodo txn.types db.tasks = none) :
      Move db (.select i 0) (db.setPhase i txn (.failed noTask))
  | lose {i now txn chosen} (get : db.txns[i]? = some txn) (phase : txn.phase = .selected chosen)
      (gone : ∀ row, db.tasks.find chosen.id = some row → row.state ≠ .init) :
      Move db (.update i now) (db.setPhase i txn (.failed noRowAffected))
  | quiet {a i txn phase} (get : db.txns[i]? = some txn) (act : ∀ j, a ≠ .commit j)
      (selected : ∀ chosen, phase ≠ .selected chosen)
      (failed : ∀ e, phase = .failed e → e ≠ noTask ∧ e ≠ noRowAffected) :
      Move db a (db.setPhase i txn phase)
  | commit {i txn undoTask task} (get : db.txns[i]? = some txn)
      (phase : txn.phase = .reread undoTask task) :
      Move db (.commit i)
        { db.setPhase i txn (.committed task) with
          tasks := install task db.tasks
          past := db.tasks :: db.past }
  | add {now taskId miner taskType resourceId comment} :
      Move db (.write now (.addTask taskId miner taskType resourceId comment))
        { db with
          tasks := (Statement.addTask taskId miner taskType resourceId comment).exec now db.tasks
          past := db.tasks :: db.past }

theorem recordNotFound_ne {a b : String} (h : a.toList.head? ≠ b.toList.head?) :
    DbOps.recordNotFound a ≠ DbOps.recordNotFound b := by
  intro same
  apply h
  rw [String.append_right_inj _ |>.mp same]

theorem notFound_other (id : String) :
    DbOps.recordNotFound ("task not found: " ++ id) ≠ noTask ∧
      DbOps.recordNotFound ("task not found: " ++ id) ≠ noRowAffected := by
  have first : ("task not found: " ++ id).toList.head? = some 't' := by
    rw [String.toList_append]
    rfl
  constructor <;> apply recordNotFound_ne <;> rw [first] <;> decide

theorem step_move {db db' : Db} {a : Action} (plain : a.Plain) (h : step db a = some db') :
    Move db a db' := by
  cases a with
  | begin workerId types =>
    cases h
    exact .begin workerId types
  | select i back =>
    cases (plain : back = 0)
    simp only [step, Option.bind_eq_bind, Option.bind_eq_some_iff] at h
    obtain ⟨txn, get, seen, now, h⟩ := h
    cases now
    split at h
    · next begun =>
      split at h
      · next chosen todo =>
        cases h
        exact .choose get todo
      · next empty =>
        cases h
        exact .none get (by rw [begun]; rfl) empty
    · cases h
  | update i now =>
    simp only [step, Option.bind_eq_bind, Option.bind_eq_some_iff] at h
    obtain ⟨txn, get, h⟩ := h
    split at h
    · next chosen selected =>
      split at h
      · cases h
      · split at h
        · next affected =>
          cases h
          refine .lose get selected ?_
          intro row found init
          exact DbOps.claim_affected.mpr ⟨row, found, init⟩ affected
        · cases h
          exact .quiet get (by simp) (by simp) (by simp)
    · cases h
  | reread i =>
    simp only [step, Option.bind_eq_bind, Option.bind_eq_some_iff] at h
    obtain ⟨txn, get, h⟩ := h
    split at h
    · cases h
      exact .quiet get (by simp) (by simp) (by simp)
    · next undoTask _ =>
      cases h
      refine .quiet get (by simp) (by simp) ?_
      rintro e ⟨rfl⟩
      exact notFound_other undoTask.id
    · cases h
  | commit i =>
    simp only [step, Option.bind_eq_bind, Option.bind_eq_some_iff] at h
    obtain ⟨txn, get, h⟩ := h
    split at h
    · next reread =>
      cases h
      exact .commit get reread
    · cases h
  | abort i e =>
    simp only [step, Option.bind_eq_bind, Option.bind_eq_some_iff] at h
    obtain ⟨txn, get, h⟩ := h
    split at h
    · cases h
      refine .quiet get (by simp) (by simp) ?_
      rintro _ ⟨rfl⟩
      exact plain
    · cases h
  | write now statement =>
    simp only [step] at h
    split at h
    · cases h
    · cases h
      cases statement with
      | addTask taskId miner taskType resourceId comment => exact .add
      | recordError workerId tid errMsg => exact plain.elim
      | recordProof workerId tid proof => exact plain.elim
      | updateStatusById tids status => exact plain.elim

/-! ## What a call has seen -/

section
variable {start db db' : Db} {pre : List Action} {a : Action} {i : Nat} {txn : Txn}
  {types : Option (List TaskType)} {chosen : Task}

def Waiting (tasks : Tasks) (chosen : Task) : Prop :=
  ∃ row, tasks.find chosen.id = some row ∧ row.state = .init

/-- The `SELECT` of call `i` has returned `chosen`, which still waits or has been taken. -/
def Chosen (start : Db) (pre : List Action) (i : Nat) (types : Option (List TaskType))
    (chosen : Task) (tasks : Tasks) : Prop :=
  ∃ before between db, pre = before ++ .select i 0 :: between ∧
    Runs.run step start before = some db ∧ DbOps.selectTodo types db.tasks = some chosen ∧
    (Waiting tasks chosen ∨ Taken start (before ++ [.select i 0]) between i chosen)

def Explained (start : Db) (pre : List Action) (i : Nat) (types : Option (List TaskType))
    (tasks : Tasks) : Phase → Prop
  | .selected chosen => Chosen start pre i types chosen tasks
  | .failed e =>
    (e = noTask → SawNone start pre i types) ∧ (e = noRowAffected → Overtaken start pre i types)
  | _ => True

theorem SawNone.snoc (h : SawNone start pre i types) (a : Action) :
    SawNone start (pre ++ [a]) i types := by
  obtain ⟨p, db, txn, inside, found⟩ := h
  exact ⟨p, db, txn, inside.trans (List.prefix_append pre [a]), found⟩

theorem Overtaken.snoc (h : Overtaken start pre i types) (a : Action) :
    Overtaken start (pre ++ [a]) i types := by
  obtain ⟨before, between, after, now, db, chosen, rfl, found⟩ := h
  exact ⟨before, between, after ++ [a], now, db, chosen, by simp, found⟩

theorem Taken.snoc {lead between : List Action} (h : Taken start lead between i chosen) (a : Action) :
    Taken start lead (between ++ [a]) i chosen := by
  obtain ⟨early, late, j, db, other, undoTask, task, rfl, found⟩ := h
  exact ⟨early, late ++ [a], j, db, other, undoTask, task, by simp, found⟩

/-- What a step does to the row of a task that waits: nothing, or it commits the task. -/
def Spares (db : Db) (a : Action) (tasks : Tasks) (i : Nat) (chosen : Task) : Prop :=
  Waiting db.tasks chosen → Waiting tasks chosen ∨
    ∃ j other undoTask task, a = .commit j ∧ j ≠ i ∧ db.txns[j]? = some other ∧
      other.phase = .reread undoTask task ∧ task.id = chosen.id

/-- A step of something else leaves a call explained. -/
theorem Explained.snoc {phase : Phase} {tasks : Tasks} (run : Runs.run step start pre = some db)
    (h : Explained start pre i types db.tasks phase)
    (spares : ∀ chosen, phase = .selected chosen → Spares db a tasks i chosen) :
    Explained start (pre ++ [a]) i types tasks phase := by
  cases phase with
  | selected chosen =>
    obtain ⟨before, between, seen, rfl, ran, todo, row⟩ := h
    refine ⟨before, between ++ [a], seen, by simp, ran, todo, ?_⟩
    rcases row with waiting | taken
    · rcases spares chosen rfl waiting with still | ⟨j, other, undoTask, task, rfl, rest⟩
      · exact Or.inl still
      · refine Or.inr ⟨between, [], j, db, other, undoTask, task, rfl, rest.1, ?_, rest.2⟩
        rw [List.append_assoc]
        exact run
    · exact Or.inr (taken.snoc a)
  | failed e =>
    constructor
    · intro text
      exact (h.1 text).snoc a
    · intro text
      exact (h.2 text).snoc a
  | _ => trivial

theorem Spares.refl : Spares db a db.tasks i chosen := Or.inl

/-- Every call of the state is explained by the actions so far. -/
def AllExplained (start : Db) (pre : List Action) (db : Db) : Prop :=
  ∀ i txn, db.txns[i]? = some txn → Explained start pre i txn.types db.tasks txn.phase

/-- A step of one call that leaves the table alone. -/
theorem AllExplained.setPhase {phase : Phase} (run : Runs.run step start pre = some db)
    (all : AllExplained start pre db)
    (next : Explained start (pre ++ [a]) i txn.types db.tasks phase) :
    AllExplained start (pre ++ [a]) (db.setPhase i txn phase) := by
  intro j u get
  rcases setPhase_get get with ⟨rfl, rfl⟩ | ⟨-, get⟩
  · exact next
  · exact (all j u get).snoc run fun _ _ => .refl

theorem Move.explained (run : Runs.run step start pre = some db) (all : AllExplained start pre db)
    (move : Move db a db') : AllExplained start (pre ++ [a]) db' := by
  cases move with
  | begin workerId types =>
    intro j u get
    rw [List.getElem?_append] at get
    split at get
    · exact (all j u get).snoc run fun _ _ => .refl
    · cases List.mem_singleton.mp (List.mem_of_getElem? get)
      trivial
  | @choose i txn chosen get todo =>
    apply all.setPhase run
    obtain ⟨found, allowed, -⟩ := DbOps.selectTodo_some todo
    exact ⟨pre, [], db, rfl, run, todo, Or.inl ⟨chosen, found, DbOps.isTodo_init allowed⟩⟩
  | @none i txn get running empty =>
    apply all.setPhase run
    constructor
    · intro _
      exact ⟨pre, db, txn, List.prefix_append _ _, run, get, running, DbOps.selectTodo_none empty⟩
    · intro same
      exact absurd same (by decide)
  | @lose i now txn chosen get phase gone =>
    apply all.setPhase run
    have before := all i txn get
    rw [phase] at before
    obtain ⟨before, between, seen, rfl, ran, todo, row⟩ := before
    constructor
    · intro same
      exact absurd same (by decide)
    · intro _
      rcases row with ⟨row, found, init⟩ | taken
      · exact absurd init (gone row found)
      · exact ⟨before, between, [], now, seen, chosen, by simp, ran, todo, taken⟩
  | @quiet _ i txn phase get act selected failed =>
    apply all.setPhase run
    cases phase with
    | selected chosen => exact absurd rfl (selected chosen)
    | failed e =>
      obtain ⟨other, another⟩ := failed e rfl
      exact ⟨fun text => absurd text other, fun text => absurd text another⟩
    | _ => trivial
  | @commit i txn undoTask task get phase =>
    intro j u got
    rcases setPhase_get got with ⟨rfl, rfl⟩ | ⟨apart, got⟩
    · trivial
    · refine (all j u got).snoc run ?_
      rintro chosen - ⟨row, found, init⟩
      by_cases this : task.id = chosen.id
      · exact Or.inr ⟨i, txn, undoTask, task, rfl, apart, get, phase, this⟩
      · refine Or.inl ⟨row, ?_, init⟩
        change (install task db.tasks).find chosen.id = some row
        rw [find_install, found, Option.map_some, if_neg (Ne.symm this)]
  | add =>
    intro j u got
    refine (all j u got).snoc run ?_
    rintro chosen - ⟨row, found, init⟩
    exact Or.inl ⟨row, exec_untouched found (List.not_mem_nil), init⟩

/-- A call that reports an empty `SELECT` has seen a moment with no task to do. A call that
reports an `UPDATE` of no row has been overtaken. -/
theorem no_task_explained {tasks : Tasks} {past : List Tasks} {as : List Action} {db : Db}
    (run : Runs.run step (idle tasks past) as = some db) (plain : ∀ a ∈ as, a.Plain) :
    ∀ i txn, db.txns[i]? = some txn →
      (txn.phase = .failed noTask → SawNone (idle tasks past) as i txn.types) ∧
      (txn.phase = .failed noRowAffected → Overtaken (idle tasks past) as i txn.types) := by
  have all : AllExplained (idle tasks past) as db := by
    apply Runs.invariant_listed (I := AllExplained (idle tasks past)) run
    · intro i txn get
      cases get
    · intro pre a u v listed before all moved
      exact (step_move (plain a listed) moved).explained before all
  intro i txn get
  have explained := all i txn get
  constructor
  · intro failed
    rw [failed] at explained
    exact explained.1 rfl
  · intro failed
    rw [failed] at explained
    exact explained.2 rfl

end

/-! ### Two tasks and four calls: the second call loses the race, the third takes what is left -/

def raceTasks : Tasks :=
  ⟨[DbOps.newTask 1 "a" "t01000" .c2 "ra" "", DbOps.newTask 2 "b" "t01000" .c2 "rb" ""], by decide⟩

def lostRace : List Action :=
  [.begin "w1" none, .begin "w2" none, .select 0 0, .select 1 0, .update 0 5, .reread 0, .commit 0,
    .update 1 6]

/-- The other task is there all the time. -/
theorem other_task_waits : ∀ pre, pre <+: lostRace → ∀ db,
    Runs.run step (idle raceTasks []) pre = some db →
    db.tasks.find "b" = some (DbOps.newTask 2 "b" "t01000" .c2 "rb" "") := by
  have computed : ∀ k, k < 9 → (Runs.run step (idle raceTasks []) (lostRace.take k)).map
      (fun db => db.tasks.find "b") = some (some (DbOps.newTask 2 "b" "t01000" .c2 "rb" "")) := by
    decide
  intro pre inside db ran
  have short : pre.length < 9 := Nat.lt_succ_of_le inside.length_le
  have row := computed pre.length short
  rw [← List.prefix_iff_eq_take.mp inside, ran] at row
  exact Option.some.inj row

/-- A call that has lost the oldest task reports that there is none, with another one waiting. -/
theorem loser_reports_none : ¬ ∀ (tasks : Tasks) (past : List Tasks) (as : List Action) (db : Db)
    (i : Nat) (txn : Txn), Runs.run step (idle tasks past) as = some db → (∀ a ∈ as, a.Plain) →
    db.txns[i]? = some txn → txn.phase = .failed noTask ∨ txn.phase = .failed noRowAffected →
    SawNone (idle tasks past) as i txn.types := by
  intro claimed
  have ran : (Runs.run step (idle raceTasks []) lostRace).map (fun db => db.txns[1]?) =
      some (some ⟨"w2", none, .failed noRowAffected⟩) := by decide
  obtain ⟨db, run, get⟩ := Option.map_eq_some_iff.mp ran
  have plain : ∀ a ∈ lostRace, a.Plain := by simp [lostRace, Action.Plain]
  obtain ⟨pre, seen, txn, inside, reached, -, -, untaken⟩ :=
    claimed raceTasks [] lostRace db 1 _ run plain get (Or.inr rfl)
  have waits := untaken (DbOps.newTask 2 "b" "t01000" .c2 "rb" "")
    (other_task_waits pre inside seen reached)
  exact absurd waits (by decide)

def fourCalls : List Action :=
  lostRace ++ [.begin "w3" none, .select 2 0, .update 2 7, .reread 2, .commit 2, .begin "w4" none,
    .select 3 0]

theorem no_task_explained_demo : ∃ db, Runs.run step (idle raceTasks []) fourCalls = some db ∧
    Overtaken (idle raceTasks []) fourCalls 1 none ∧ SawNone (idle raceTasks []) fourCalls 3 none := by
  have ran : (Runs.run step (idle raceTasks []) fourCalls).map
      (fun db => (db.txns[1]?, db.txns[3]?)) =
        some (some ⟨"w2", none, .failed noRowAffected⟩, some ⟨"w4", none, .failed noTask⟩) := by
    decide
  obtain ⟨db, run, calls⟩ := Option.map_eq_some_iff.mp ran
  obtain ⟨loser, last⟩ := Prod.mk.inj calls
  have plain : ∀ a ∈ fourCalls, a.Plain := by simp [fourCalls, lostRace, Action.Plain]
  exact ⟨db, run, (no_task_explained run plain 1 _ loser).2 rfl,
    (no_task_explained run plain 3 _ last).1 rfl⟩

end Dispatch

end GpuProxy
