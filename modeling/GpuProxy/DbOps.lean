import GpuProxy.Utils

/-!
# The tasks table

One definition for each `TaskRepo` method of `DbOpsImpl`, over the table it
reads and writes. `now` is the clock the statement reads. Each one is followed
by what it does to the row `find` returns.
-/

namespace GpuProxy.DbOps

abbrev Tasks := Table Task

def newTask (now : Int) (taskId miner : String) (taskType : TaskType) (resourceId comment : String) :
    Task where
  id := taskId
  miner := miner
  resourceId := resourceId
  workerId := ""
  taskType := taskType
  state := .init
  createAt := now
  proof := []
  errorMsg := ""
  startAt := 0
  completeAt := 0
  comment := comment

def addTask (now : Int) (taskId miner : String) (taskType : TaskType) (resourceId comment : String)
    (tasks : Tasks) : Except String String × Tasks :=
  match tasks.insert (newTask now taskId miner taskType resourceId comment) with
  | some tasks' => (.ok taskId, tasks')
  | none => (.error primaryKeyConflict, tasks)

def hasTask (taskId : String) (tasks : Tasks) : Bool :=
  decide (0 < tasks.count fun t => decide (t.id = taskId))

def fetch (tid : String) (tasks : Tasks) : Except String Task := ifNotFound tid (tasks.find tid)

def setState (status : TaskState) (t : Task) : Task := { t with state := status }

theorem key_setState (status : TaskState) (t : Task) : key (setState status t) = key t := rfl

def updateStatusById (tids : List String) (status : TaskState) (tasks : Tasks) : Tasks :=
  tasks.updateWhere (fun t => tids.contains t.id) (setState status) (key_setState status)

/-- The filter of the `SELECT` in `fetch_one_todo`. -/
def isTodo (types : Option (List TaskType)) (t : Task) : Bool :=
  decide (t.state = .init) &&
    match types with
    | some types => types.contains t.taskType
    | none => true

def selectTodo (types : Option (List TaskType)) (tasks : Tasks) : Option Task :=
  (tasks.selectBy (isTodo types) Task.createAt).head?

def setRunning (now : Int) (workerId : String) (t : Task) : Task :=
  { t with state := .running, workerId := workerId, startAt := now }

theorem key_setRunning (now : Int) (workerId : String) (t : Task) :
    key (setRunning now workerId t) = key t := rfl

/-- The filter of the `UPDATE` in `fetch_one_todo`. -/
def isClaimable (tid : String) (t : Task) : Bool := decide (t.id = tid) && decide (t.state = .init)

/-- The conditional `UPDATE` of `fetch_one_todo`, with `rows_affected`. -/
def claim (now : Int) (workerId tid : String) (tasks : Tasks) : Nat × Tasks :=
  (tasks.count (isClaimable tid),
    tasks.updateWhere (isClaimable tid) (setRunning now workerId) (key_setRunning now workerId))

/-- The text of `DbErr::RecordNotFound`. -/
def recordNotFound (what : String) : String := "RecordNotFound Error: " ++ what

/-- `fetch_one_todo` after its `SELECT` returned `undoTaskOpt`. An error rolls
the transaction back. -/
def fetchSelected (now : Int) (workerId : String) (undoTaskOpt : Option Task) (tasks : Tasks) :
    Except String Task × Tasks :=
  match undoTaskOpt with
  | some undoTask =>
    let res := claim now workerId undoTask.id tasks
    if res.1 = 0 then (.error (recordNotFound "no task to do for worker."), tasks)
    else
      match res.2.find undoTask.id with
      | some task => (.ok task, res.2)
      | none => (.error (recordNotFound ("task not found: " ++ undoTask.id)), tasks)
  | none => (.error (recordNotFound "no task to do for worker"), tasks)

def fetchOneTodo (now : Int) (workerId : String) (types : Option (List TaskType)) (tasks : Tasks) :
    Except String Task × Tasks :=
  fetchSelected now workerId (selectTodo types tasks) tasks

def fetchUncompleted (workerId : String) (tasks : Tasks) : List Task :=
  tasks.selectBy (fun t => decide (t.state = .running) && decide (t.workerId = workerId))
    Task.createAt

def setError (workerId errMsg : String) (t : Task) : Task :=
  { t with state := .error, workerId := workerId, errorMsg := errMsg }

theorem key_setError (workerId errMsg : String) (t : Task) :
    key (setError workerId errMsg t) = key t := rfl

def recordError (workerId tid errMsg : String) (tasks : Tasks) : Tasks :=
  tasks.updateWhere (fun t => decide (t.id = tid)) (setError workerId errMsg)
    (key_setError workerId errMsg)

def setCompleted (now : Int) (workerId : String) (proof : Bytes) (t : Task) : Task :=
  { t with state := .completed, workerId := workerId, proof := proof, errorMsg := "",
           completeAt := now }

theorem key_setCompleted (now : Int) (workerId : String) (proof : Bytes) (t : Task) :
    key (setCompleted now workerId proof t) = key t := rfl

def recordProof (now : Int) (workerId tid : String) (proof : Bytes) (tasks : Tasks) : Tasks :=
  tasks.updateWhere (fun t => decide (t.id = tid)) (setCompleted now workerId proof)
    (key_setCompleted now workerId proof)

/-! ## What each statement does to a row -/

variable {now : Int} {workerId tid id miner resourceId comment errMsg : String} {proof : Bytes}
  {taskType : TaskType} {types : Option (List TaskType)} {tids : List String} {status : TaskState}
  {tasks : Tasks}

theorem find_id {t : Task} (h : tasks.find id = some t) : t.id = id := Table.find_key h

theorem find_self {t : Task} (h : tasks.find id = some t) : tasks.find t.id = some t := by
  rw [find_id h]
  exact h

theorem hasTask_iff : hasTask tid tasks = true ↔ ∃ t, tasks.find tid = some t := by
  simp only [hasTask, decide_eq_true_eq]
  exact Table.count_key_pos

theorem hasTask_false : hasTask tid tasks = false ↔ tasks.find tid = none := by
  rw [← Bool.not_eq_true, hasTask_iff, Option.eq_none_iff_forall_not_mem]
  simp

theorem addTask_absent (now : Int) (miner : String) (taskType : TaskType)
    (resourceId comment : String) (h : tasks.find tid = none) :
    ∃ tasks', addTask now tid miner taskType resourceId comment tasks = (.ok tid, tasks') ∧
      ∀ k, tasks'.find k =
        if k = tid then some (newTask now tid miner taskType resourceId comment)
        else tasks.find k := by
  obtain ⟨tasks', hi⟩ :=
    Table.insert_of_absent (t := tasks) (r := newTask now tid miner taskType resourceId comment) h
  refine ⟨tasks', by simp [addTask, hi], fun k => ?_⟩
  rw [Table.find_insert hi]
  change (if tid = k then _ else _) = _
  simp only [eq_comm]

theorem addTask_present {t : Task} (h : tasks.find tid = some t) :
    addTask now tid miner taskType resourceId comment tasks = (.error primaryKeyConflict, tasks) := by
  have hi : tasks.insert (newTask now tid miner taskType resourceId comment) = none :=
    Table.insert_none.mpr ⟨t, h⟩
  simp [addTask, hi]

theorem find_updateStatusById (k : String) :
    (updateStatusById tids status tasks).find k =
      (tasks.find k).map fun t => if tids.contains k then setState status t else t := by
  rw [updateStatusById, Table.find_updateWhere]
  cases h : tasks.find k with
  | none => rfl
  | some t => simp [find_id h]

theorem find_recordError (k : String) :
    (recordError workerId tid errMsg tasks).find k =
      (tasks.find k).map fun t => if k = tid then setError workerId errMsg t else t := by
  rw [recordError, Table.find_updateWhere]
  cases h : tasks.find k with
  | none => rfl
  | some t => simp [find_id h]

theorem find_recordProof (k : String) :
    (recordProof now workerId tid proof tasks).find k =
      (tasks.find k).map fun t => if k = tid then setCompleted now workerId proof t else t := by
  rw [recordProof, Table.find_updateWhere]
  cases h : tasks.find k with
  | none => rfl
  | some t => simp [find_id h]

theorem find_claim (k : String) :
    (claim now workerId tid tasks).2.find k =
      (tasks.find k).map fun t =>
        if k = tid ∧ t.state = .init then setRunning now workerId t else t := by
  simp only [claim, Table.find_updateWhere]
  cases h : tasks.find k with
  | none => rfl
  | some t => simp [isClaimable, find_id h]

/-- The `UPDATE` affects a row exactly when the task is still `Init`. -/
theorem claim_affected :
    (claim now workerId tid tasks).1 ≠ 0 ↔ ∃ t, tasks.find tid = some t ∧ t.state = .init := by
  simp only [claim, Table.count, ne_eq, ← Nat.pos_iff_ne_zero, List.countP_pos_iff, isClaimable,
    Bool.and_eq_true, decide_eq_true_eq, Table.find_some]
  constructor
  · rintro ⟨t, hm, hid, hs⟩; exact ⟨t, ⟨hm, hid⟩, hs⟩
  · rintro ⟨t, ⟨hm, hid⟩, hs⟩; exact ⟨t, hm, hid, hs⟩

/-- Everything `fetch_one_todo` can do once its `SELECT` has answered: it hands
out the selected task, which is still `Init`, or it changes nothing. -/
theorem fetchSelected_cases (now : Int) (workerId : String) (tasks : Tasks) (undo : Option Task) :
    (∃ u t, undo = some u ∧ tasks.find u.id = some t ∧ t.state = .init ∧
      fetchSelected now workerId undo tasks =
        (.ok (setRunning now workerId t), (claim now workerId u.id tasks).2)) ∨
    (∃ e, fetchSelected now workerId undo tasks = (.error e, tasks) ∧
      ∀ u, undo = some u → ∀ t, tasks.find u.id = some t → t.state ≠ .init) := by
  cases undo with
  | none => exact Or.inr ⟨_, rfl, by simp⟩
  | some u =>
    by_cases hc : (claim now workerId u.id tasks).1 = 0
    · refine Or.inr ⟨recordNotFound "no task to do for worker.", by simp [fetchSelected, hc], ?_⟩
      rintro _ ⟨rfl⟩ t ht hs
      exact claim_affected.mpr ⟨t, ht, hs⟩ hc
    · obtain ⟨t, ht, hs⟩ := claim_affected.mp hc
      refine Or.inl ⟨u, t, rfl, ht, hs, ?_⟩
      simp [fetchSelected, hc, find_claim, ht, hs]

theorem mem_fetchUncompleted {t : Task} :
    t ∈ fetchUncompleted workerId tasks ↔
      tasks.find t.id = some t ∧ t.state = .running ∧ t.workerId = workerId := by
  simp [fetchUncompleted, Table.mem_selectBy, Table.find_some]

theorem fetchUncompleted_nodup : ((fetchUncompleted workerId tasks).map Task.id).Nodup :=
  Table.selectBy_nodup tasks _ _

theorem isTodo_init {t : Task} (h : isTodo types t = true) : t.state = .init := by
  unfold isTodo at h
  rw [Bool.and_eq_true] at h
  exact of_decide_eq_true h.1

/-- The `SELECT` returns an `Init` task of an allowed type, and none is older. -/
theorem selectTodo_some {t : Task} (h : selectTodo types tasks = some t) :
    tasks.find t.id = some t ∧ isTodo types t = true ∧
      ∀ s, tasks.find s.id = some s → isTodo types s = true → t.createAt ≤ s.createAt := by
  obtain ⟨hm, ht, hle⟩ := Table.selectBy_head h
  exact ⟨Table.find_of_mem hm, ht, fun s hs => hle s (Table.find_some.mp hs).1⟩

theorem selectTodo_none (h : selectTodo types tasks = none) :
    ∀ t, tasks.find t.id = some t → isTodo types t = false := by
  intro t found
  by_contra todo
  have listed : t ∈ tasks.selectBy (isTodo types) Task.createAt :=
    Table.mem_selectBy.mpr ⟨(Table.find_some.mp found).1, Bool.of_not_eq_false todo⟩
  rw [List.head?_eq_none_iff.mp h] at listed
  cases listed

end GpuProxy.DbOps
