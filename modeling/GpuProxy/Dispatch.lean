import GpuProxy.Storage

/-!
# `fetch_one_todo` statement by statement

The transaction selects, updates under a condition and reads its row again; any
other statement can come in between. The database keeps committed tables and
the open transactions. A row that a transaction has updated is locked until it
ends, a failed transaction leaves nothing, and the first `SELECT` may see an
older committed table.
-/

namespace GpuProxy

namespace Dispatch

open DbOps (Tasks)

inductive Phase where
  | begun
  | selected (undoTask : Task)
  /-- The row the transaction has written and not yet committed. -/
  | updated (undoTask : Task) (version : Option Task)
  | reread (undoTask task : Task)
  | committed (task : Task)
  | failed (e : String)
  deriving DecidableEq, Repr

structure Txn where
  workerId : String
  types : Option (List TaskType)
  phase : Phase
  deriving DecidableEq, Repr

structure Db where
  tasks : Tasks
  /-- Committed tables before this one, the latest first. -/
  past : List Tasks
  txns : List Txn

/-- The other statements that write `tasks`; each one commits by itself. -/
inductive Statement where
  | addTask (taskId miner : String) (taskType : TaskType) (resourceId comment : String)
  | recordError (workerId tid errMsg : String)
  | recordProof (workerId tid : String) (proof : Bytes)
  | updateStatusById (tids : List String) (status : TaskState)

/-- The rows a statement writes. -/
def Statement.touches : Statement → List String
  | .addTask _ _ _ _ _ => []
  | .recordError _ tid _ => [tid]
  | .recordProof _ tid _ => [tid]
  | .updateStatusById tids _ => tids

def Statement.exec (now : Int) : Statement → Tasks → Tasks
  | .addTask taskId miner taskType resourceId comment, tasks =>
    (DbOps.addTask now taskId miner taskType resourceId comment tasks).2
  | .recordError workerId tid errMsg, tasks => DbOps.recordError workerId tid errMsg tasks
  | .recordProof workerId tid proof, tasks => DbOps.recordProof now workerId tid proof tasks
  | .updateStatusById tids status, tasks => DbOps.updateStatusById tids status tasks

inductive Action where
  | begin (workerId : String) (types : Option (List TaskType))
  /-- The `SELECT` reads the committed table of some time back. -/
  | select (i back : Nat)
  | update (i : Nat) (now : Int)
  | reread (i : Nat)
  | commit (i : Nat)
  /-- The database fails the transaction. -/
  | abort (i : Nat) (e : String)
  | write (now : Int) (statement : Statement)

/-- The transaction an action belongs to. -/
def Action.txn : Action → Option Nat
  | .begin _ _ => none
  | .select i _ | .update i _ | .reread i | .commit i | .abort i _ => some i
  | .write _ _ => none

/-- The row a transaction keeps locked. -/
def Phase.holds : Phase → Option String
  | .updated undoTask _ => some undoTask.id
  | .reread undoTask _ => some undoTask.id
  | _ => none

def Phase.open : Phase → Bool
  | .committed _ | .failed _ => false
  | _ => true

def Db.locked (db : Db) (tid : String) : Bool :=
  db.txns.any fun txn => decide (txn.phase.holds = some tid)

def Db.setPhase (db : Db) (i : Nat) (txn : Txn) (phase : Phase) : Db :=
  { db with txns := db.txns.set i { txn with phase := phase } }

def replaceRow (row t : Task) : Task := if t.id = row.id then row else t

theorem key_replaceRow (row t : Task) : key (replaceRow row t) = key t := by
  simp only [replaceRow, key_task]
  split
  · next h => exact h.symm
  · rfl

/-- The committed table once the row's version is in it. -/
def install (row : Task) (tasks : Tasks) : Tasks :=
  tasks.updateWhere (fun t => decide (t.id = row.id)) (replaceRow row) (key_replaceRow row)

def step (db : Db) : Action → Option Db
  | .begin workerId types => some { db with txns := db.txns ++ [⟨workerId, types, .begun⟩] }
  | .select i back => do
    let txn ← db.txns[i]?
    let seen ← (db.tasks :: db.past)[back]?
    match txn.phase with
    | .begun =>
      match DbOps.selectTodo txn.types seen with
      | some undoTask => db.setPhase i txn (.selected undoTask)
      | none => db.setPhase i txn (.failed (DbOps.recordNotFound "no task to do for worker"))
    | _ => none
  | .update i now => do
    let txn ← db.txns[i]?
    match txn.phase with
    | .selected undoTask =>
      -- the statement waits for the transaction that has the row
      if db.locked undoTask.id then none
      else
        let res := DbOps.claim now txn.workerId undoTask.id db.tasks
        if res.1 = 0 then
          db.setPhase i txn (.failed (DbOps.recordNotFound "no task to do for worker."))
        else db.setPhase i txn (.updated undoTask (res.2.find undoTask.id))
    | _ => none
  | .reread i => do
    let txn ← db.txns[i]?
    match txn.phase with
    | .updated undoTask (some task) => db.setPhase i txn (.reread undoTask task)
    | .updated undoTask none =>
      db.setPhase i txn (.failed (DbOps.recordNotFound ("task not found: " ++ undoTask.id)))
    | _ => none
  | .commit i => do
    let txn ← db.txns[i]?
    match txn.phase with
    | .reread _ task =>
      let db := db.setPhase i txn (.committed task)
      some { db with tasks := install task db.tasks, past := db.tasks :: db.past }
    | _ => none
  | .abort i e => do
    let txn ← db.txns[i]?
    if txn.phase.open then db.setPhase i txn (.failed e) else none
  | .write now statement =>
    if statement.touches.any db.locked then none
    else some { db with tasks := statement.exec now db.tasks, past := db.tasks :: db.past }

/-! ## What a step can do -/

inductive Step (db : Db) : Action → Db → Prop where
  | begin (workerId : String) (types : Option (List TaskType)) :
      Step db (.begin workerId types) { db with txns := db.txns ++ [⟨workerId, types, .begun⟩] }
  | select {i back txn undoTask} (get : db.txns[i]? = some txn) (phase : txn.phase = .begun)
      (todo : DbOps.isTodo txn.types undoTask = true) :
      Step db (.select i back) (db.setPhase i txn (.selected undoTask))
  | update {i now txn undoTask row} (get : db.txns[i]? = some txn)
      (phase : txn.phase = .selected undoTask) (free : db.locked undoTask.id = false)
      (found : db.tasks.find undoTask.id = some row) (init : row.state = .init) :
      Step db (.update i now)
        (db.setPhase i txn (.updated undoTask (some (DbOps.setRunning now txn.workerId row))))
  | reread {i txn undoTask task} (get : db.txns[i]? = some txn)
      (phase : txn.phase = .updated undoTask (some task)) :
      Step db (.reread i) (db.setPhase i txn (.reread undoTask task))
  | commit {i txn undoTask task} (get : db.txns[i]? = some txn)
      (phase : txn.phase = .reread undoTask task) :
      Step db (.commit i)
        { db.setPhase i txn (.committed task) with
          tasks := install task db.tasks
          past := db.tasks :: db.past }
  | fail {a i txn e} (get : db.txns[i]? = some txn) (act : a.txn = some i) (early : a ≠ .commit i)
      (running : txn.phase.open = true) : Step db a (db.setPhase i txn (.failed e))
  | write {now statement} (free : ∀ tid ∈ statement.touches, db.locked tid = false) :
      Step db (.write now statement)
        { db with tasks := statement.exec now db.tasks, past := db.tasks :: db.past }

theorem step_cases {db db' : Db} {a : Action} (h : step db a = some db') : Step db a db' := by
  cases a with
  | begin workerId types =>
    cases h
    exact .begin workerId types
  | select i back =>
    simp only [step, Option.bind_eq_bind, Option.bind_eq_some_iff] at h
    obtain ⟨txn, get, seen, -, h⟩ := h
    split at h
    · next begun =>
      split at h
      · next undoTask found =>
        cases h
        exact .select get begun (DbOps.selectTodo_some found).2.1
      · cases h
        exact .fail get rfl (by simp) (by rw [begun]; rfl)
    · cases h
  | update i now =>
    simp only [step, Option.bind_eq_bind, Option.bind_eq_some_iff] at h
    obtain ⟨txn, get, h⟩ := h
    split at h
    · next undoTask selected =>
      split at h
      · cases h
      · next free =>
        split at h
        · cases h
          exact .fail get rfl (by simp) (by rw [selected]; rfl)
        · next affected =>
          cases h
          obtain ⟨row, found, init⟩ := DbOps.claim_affected.mp affected
          have version : (DbOps.claim now txn.workerId undoTask.id db.tasks).2.find undoTask.id =
              some (DbOps.setRunning now txn.workerId row) := by
            simp [DbOps.find_claim, found, init]
          rw [version]
          exact .update get selected (by simpa using free) found init
    · cases h
  | reread i =>
    simp only [step, Option.bind_eq_bind, Option.bind_eq_some_iff] at h
    obtain ⟨txn, get, h⟩ := h
    split at h
    · next updated =>
      cases h
      exact .reread get updated
    · next updated =>
      cases h
      exact .fail get rfl (by simp) (by rw [updated]; rfl)
    · cases h
  | commit i =>
    simp only [step, Option.bind_eq_bind, Option.bind_eq_some_iff] at h
    obtain ⟨txn, get, h⟩ := h
    split at h
    · next reread =>
      cases h
      exact .commit get reread
    · cases h
  | abort i e =>
    simp only [step, Option.bind_eq_bind, Option.bind_eq_some_iff] at h
    obtain ⟨txn, get, h⟩ := h
    split at h
    · next running =>
      cases h
      exact .fail get rfl (by simp) running
    · cases h
  | write now statement =>
    simp only [step] at h
    split at h
    · cases h
    · next free =>
      cases h
      exact .write fun tid hm => by simpa using fun hl => free (List.any_eq_true.mpr ⟨tid, hm, hl⟩)

/-! ## Open transactions and their rows -/

/-- `version` is the row of a task that is still `Init` in the committed table. -/
def Pending (tasks : Tasks) (workerId tid : String) (version : Task) : Prop :=
  ∃ row now, tasks.find tid = some row ∧ row.state = .init ∧
    version = DbOps.setRunning now workerId row

def Txn.Sound (tasks : Tasks) (txn : Txn) : Prop :=
  match txn.phase with
  | .selected undoTask => DbOps.isTodo txn.types undoTask = true
  | .updated undoTask version => DbOps.isTodo txn.types undoTask = true ∧
    ∃ row, version = some row ∧ Pending tasks txn.workerId undoTask.id row
  | .reread undoTask row => DbOps.isTodo txn.types undoTask = true ∧
    Pending tasks txn.workerId undoTask.id row
  | .committed row => row.state = .running ∧ row.workerId = txn.workerId
  | _ => True

structure Sound (db : Db) : Prop where
  txns : ∀ txn ∈ db.txns, txn.Sound db.tasks
  locks : ∀ (i j : Nat) (t u : Txn) (tid : String), db.txns[i]? = some t → db.txns[j]? = some u →
    t.phase.holds = some tid → u.phase.holds = some tid → i = j

theorem Pending.id {tasks : Tasks} {workerId tid : String} {version : Task}
    (h : Pending tasks workerId tid version) : version.id = tid := by
  obtain ⟨row, now, found, -, rfl⟩ := h
  exact (DbOps.find_id found : row.id = tid)

theorem Txn.Sound.pending {tasks : Tasks} {txn : Txn} {tid : String} (h : txn.Sound tasks)
    (held : txn.phase.holds = some tid) : ∃ version, Pending tasks txn.workerId tid version := by
  unfold Txn.Sound at h
  cases hp : txn.phase with
  | updated undoTask version =>
    rw [hp] at h held
    cases held
    obtain ⟨-, row, -, pending⟩ := h
    exact ⟨row, pending⟩
  | reread undoTask row =>
    rw [hp] at h held
    cases held
    exact ⟨row, h.2⟩
  | _ =>
    rw [hp] at held
    cases held

theorem Txn.Sound.frame {tasks tasks' : Tasks} {txn : Txn} (h : txn.Sound tasks)
    (same : ∀ tid, txn.phase.holds = some tid → tasks'.find tid = tasks.find tid) :
    txn.Sound tasks' := by
  unfold Txn.Sound at h ⊢
  cases hp : txn.phase with
  | updated undoTask version =>
    rw [hp] at h same
    obtain ⟨todo, row, rfl, pending⟩ := h
    refine ⟨todo, row, rfl, ?_⟩
    rwa [Pending, same _ rfl]
  | reread undoTask row =>
    rw [hp] at h same
    refine ⟨h.1, ?_⟩
    rw [Pending, same _ rfl]
    exact h.2
  | _ =>
    rw [hp] at h
    exact h

theorem locked_of_holds {db : Db} {txn : Txn} {tid : String} (hm : txn ∈ db.txns)
    (h : txn.phase.holds = some tid) : db.locked tid = true :=
  List.any_eq_true.mpr ⟨txn, hm, by simpa using h⟩

theorem find_install {tasks : Tasks} {row : Task} (k : String) :
    (install row tasks).find k = (tasks.find k).map fun t => if k = row.id then row else t := by
  rw [install, Table.find_updateWhere]
  cases h : tasks.find k with
  | none => rfl
  | some t => by_cases hk : k = row.id <;> simp [DbOps.find_id h, replaceRow, hk]

/-- A statement leaves the rows it does not touch. -/
theorem exec_untouched {statement : Statement} {now : Int} {tasks : Tasks} {tid : String} {row : Task}
    (found : tasks.find tid = some row) (free : tid ∉ statement.touches) :
    (statement.exec now tasks).find tid = some row := by
  cases statement with
  | addTask taskId miner taskType resourceId comment =>
    cases hf : tasks.find taskId with
    | some t => simp [Statement.exec, DbOps.addTask_present hf, found]
    | none =>
      obtain ⟨tasks', he, hk⟩ := DbOps.addTask_absent now miner taskType resourceId comment hf
      have hne : tid ≠ taskId := by
        rintro rfl
        rw [found] at hf
        cases hf
      simp [Statement.exec, he, hk, hne, found]
  | recordError workerId t msg =>
    have hne : tid ≠ t := by simpa [Statement.touches] using free
    simp [Statement.exec, DbOps.find_recordError, found, hne]
  | recordProof workerId t proof =>
    have hne : tid ≠ t := by simpa [Statement.touches] using free
    simp [Statement.exec, DbOps.find_recordProof, found, hne]
  | updateStatusById tids status =>
    have hne : tid ∉ tids := free
    simp [Statement.exec, DbOps.find_updateStatusById, found, hne]

theorem setPhase_get {db : Db} {i j : Nat} {txn u : Txn} {phase : Phase}
    (h : (db.setPhase i txn phase).txns[j]? = some u) :
    (i = j ∧ u = { txn with phase := phase }) ∨ (i ≠ j ∧ db.txns[j]? = some u) := by
  simp only [Db.setPhase, List.getElem?_set] at h
  split at h
  · next hij =>
    split at h
    · cases h
      exact Or.inl ⟨hij, rfl⟩
    · cases h
  · next hij => exact Or.inr ⟨hij, h⟩

/-- Moving one transaction on, taking at most a lock that is free. -/
theorem Sound.setPhase {db : Db} (sound : Sound db) {i : Nat} {txn : Txn} {phase : Phase}
    (get : db.txns[i]? = some txn) (next : Txn.Sound db.tasks { txn with phase := phase })
    (lock : ∀ tid, phase.holds = some tid → txn.phase.holds = some tid ∨ db.locked tid = false) :
    Sound (db.setPhase i txn phase) := by
  have clash {j : Nat} {u : Txn} {tid : String} (hij : i ≠ j) (hj : db.txns[j]? = some u)
      (held : phase.holds = some tid) : u.phase.holds ≠ some tid := by
    intro hu
    rcases lock tid held with mine | free
    · exact hij (sound.locks i j txn u tid get hj mine hu)
    · rw [locked_of_holds (List.mem_of_getElem? hj) hu] at free
      cases free
  refine ⟨fun u hu => ?_, fun j k t u tid hj hk ht hu => ?_⟩
  · rcases List.mem_or_eq_of_mem_set hu with hu | rfl
    · exact sound.txns u hu
    · exact next
  · rcases setPhase_get hj with ⟨rfl, rfl⟩ | ⟨hij, hj⟩ <;>
      rcases setPhase_get hk with ⟨rfl, rfl⟩ | ⟨hik, hk⟩
    · rfl
    · exact absurd hu (clash hik hk ht)
    · exact absurd ht (clash hij hj hu)
    · exact sound.locks j k t u tid hj hk ht hu

/-- Rows under a lock stay, so changing others keeps every open version sound. -/
theorem Sound.setTasks {db : Db} (sound : Sound db) {tasks : Tasks} {past : List Tasks}
    (same : ∀ (j : Nat) (txn : Txn) (tid : String), db.txns[j]? = some txn → txn.phase.holds = some tid →
      tasks.find tid = db.tasks.find tid) :
    Sound { db with tasks := tasks, past := past } := by
  refine ⟨fun txn hm => ?_, sound.locks⟩
  obtain ⟨j, hj⟩ := List.getElem?_of_mem hm
  exact (sound.txns txn hm).frame fun tid => same j txn tid hj

theorem step_sound {db db' : Db} {a : Action} (sound : Sound db) (h : Step db a db') :
    Sound db' := by
  have known {i : Nat} {txn : Txn} (get : db.txns[i]? = some txn) : txn.Sound db.tasks :=
    sound.txns txn (List.mem_of_getElem? get)
  cases h with
  | begin workerId types =>
    refine ⟨fun txn hm => ?_, fun i j t u tid hi hj ht hu => ?_⟩
    · rcases List.mem_append.mp hm with hm | hm
      · exact sound.txns txn hm
      · cases List.mem_singleton.mp hm
        trivial
    · have old {k : Nat} {v : Txn} (hk : (db.txns ++ [⟨workerId, types, .begun⟩])[k]? = some v)
          (hv : v.phase.holds = some tid) : db.txns[k]? = some v := by
        rw [List.getElem?_append] at hk
        split at hk
        · exact hk
        · cases List.mem_singleton.mp (List.mem_of_getElem? hk)
          cases hv
      exact sound.locks i j t u tid (old hi ht) (old hj hu) ht hu
  | select get phase todo => exact sound.setPhase get todo fun tid held => by cases held
  | update get phase free found init =>
    have todo := known get
    rw [Txn.Sound, phase] at todo
    refine sound.setPhase get ⟨todo, _, rfl, _, _, found, init, rfl⟩ fun tid held => ?_
    cases held
    exact Or.inr free
  | reread get phase =>
    have before := known get
    rw [Txn.Sound, phase] at before
    obtain ⟨todo, row, ⟨⟩, pending⟩ := before
    refine sound.setPhase get ⟨todo, pending⟩ fun t held => Or.inl ?_
    rw [phase]
    exact held
  | @commit i txn undoTask task get phase =>
    have before := known get
    rw [Txn.Sound, phase] at before
    obtain ⟨-, pending⟩ := before
    have hid := pending.id
    obtain ⟨row, now, found, init, made⟩ := pending
    have ended : Sound (db.setPhase i txn (.committed task)) :=
      sound.setPhase get ⟨by rw [made]; rfl, by rw [made]; rfl⟩ fun tid held => by cases held
    apply ended.setTasks
    intro j u tid hj held
    have hne : tid ≠ task.id := by
      rintro rfl
      rcases setPhase_get hj with ⟨rfl, rfl⟩ | ⟨hij, hj⟩
      · cases held
      · exact hij (sound.locks i j txn u task.id get hj (by rw [phase, hid]; rfl) held)
    change (install task db.tasks).find tid = db.tasks.find tid
    rw [find_install]
    cases db.tasks.find tid <;> simp [hne]
  | fail get act early running => exact sound.setPhase get trivial fun tid held => by cases held
  | write free =>
    apply sound.setTasks
    intro j txn tid hj held
    have hm := List.mem_of_getElem? hj
    obtain ⟨version, row, now, found, -, -⟩ := (sound.txns txn hm).pending held
    refine (exec_untouched found fun ht => ?_).trans found.symm
    have unlocked := free tid ht
    rw [locked_of_holds hm held] at unlocked
    cases unlocked

/-- A database with no transaction open. -/
def idle (tasks : Tasks) (past : List Tasks) : Db := ⟨tasks, past, []⟩

theorem sound_idle (tasks : Tasks) (past : List Tasks) : Sound (idle tasks past) where
  txns _ hm := by cases hm
  locks _ _ _ _ _ hi := by cases hi

theorem run_sound {start db : Db} {as : List Action} (run : Runs.run step start as = some db)
    (sound : Sound start) : Sound db :=
  Runs.invariant run sound fun _ _ _ sound h => step_sound sound (step_cases h)

/-! ## A committed transaction is one atomic call -/

theorem commit_task {db db' : Db} {i : Nat} (sound : Sound db) (h : step db (.commit i) = some db') :
    ∃ txn undoTask task row now, db.txns[i]? = some txn ∧ txn.phase = .reread undoTask task ∧
      db' = { db.setPhase i txn (.committed task) with
              tasks := install task db.tasks, past := db.tasks :: db.past } ∧
      DbOps.isTodo txn.types undoTask = true ∧ task.id = undoTask.id ∧
      db.tasks.find undoTask.id = some row ∧ row.state = .init ∧
      task = DbOps.setRunning now txn.workerId row := by
  have hs := step_cases h
  cases hs with
  | @commit _ txn undoTask task get phase =>
    have before := sound.txns txn (List.mem_of_getElem? get)
    rw [Txn.Sound, phase] at before
    obtain ⟨todo, pending⟩ := before
    have hid := pending.id
    obtain ⟨row, now, found, init, made⟩ := pending
    exact ⟨txn, undoTask, task, row, now, get, phase, rfl, todo, hid, found, init, made⟩
  | fail get act early running =>
    cases act
    exact absurd rfl early

theorem find_commit {db : Db} {task row : Task} {workerId tid : String} {now : Int}
    (found : db.tasks.find tid = some row) (made : task = DbOps.setRunning now workerId row) :
    (install task db.tasks).find tid = some task := by
  have hid : tid = task.id := by rw [made]; exact (DbOps.find_id found).symm
  rw [find_install, found, Option.map_some, if_pos hid]

/-- What commits is what `fetch_one_todo` does in one step on the committed table,
given the row its `SELECT` saw. -/
theorem commit_refines {db db' : Db} {i : Nat} (sound : Sound db)
    (h : step db (.commit i) = some db') (resources : ResourceStore) :
    ∃ txn undoTask task now, db.txns[i]? = some txn ∧ txn.phase = .reread undoTask task ∧
      Server.act ⟨now, none, some undoTask⟩ (.fetchOneTodo txn.workerId txn.types)
        ⟨db.tasks, resources⟩ = (.ok task, ⟨db'.tasks, resources⟩) := by
  obtain ⟨txn, undoTask, task, row, now, get, phase, rfl, todo, hid, found, init, made⟩ :=
    commit_task sound h
  refine ⟨txn, undoTask, task, now, get, phase, ?_⟩
  have affected : (DbOps.claim now txn.workerId undoTask.id db.tasks).1 ≠ 0 :=
    DbOps.claim_affected.mpr ⟨row, found, init⟩
  have reread : (DbOps.claim now txn.workerId undoTask.id db.tasks).2.find undoTask.id = some task := by
    simp [DbOps.find_claim, found, init, made]
  have same : (DbOps.claim now txn.workerId undoTask.id db.tasks).2 = install task db.tasks := by
    refine Table.updateWhere_congr (DbOps.key_setRunning now txn.workerId) (key_replaceRow task)
      fun t ht => ?_
    by_cases hk : t.id = undoTask.id
    · have stored : db.tasks.find undoTask.id = some t := hk ▸ Table.find_of_mem ht
      rw [found] at stored
      cases stored
      rw [made] at hid ⊢
      simp [DbOps.isClaimable, replaceRow, hk, hid, init]
    · simp [DbOps.isClaimable, hk, hid]
  have seen : (some undoTask).filter (DbOps.isTodo txn.types) = some undoTask := by
    simp [Option.filter, todo]
  rw [same] at reread
  simp [Server.act, Server.perform, seen, DbOps.fetchSelected, affected, reread, same]

/-! ## Exclusive dispatch -/

/-- The task has been handed out, and no transaction has its row. -/
def HandedOut (tid : String) (db : Db) : Prop :=
  (∃ row, db.tasks.find tid = some row ∧ row.state ≠ .init) ∧
    ∀ txn ∈ db.txns, txn.phase.holds ≠ some tid

/-- The statement sets a task back to `Init`. -/
def Resets (tid : String) : Action → Prop
  | .write _ (.updateStatusById tids .init) => tid ∈ tids
  | _ => False

theorem commit_hands_out {db db' : Db} {i : Nat} {txn : Txn} {task : Task} (sound : Sound db)
    (h : step db (.commit i) = some db') (get : db'.txns[i]? = some txn)
    (committed : txn.phase = .committed task) : HandedOut task.id db' := by
  obtain ⟨t, undoTask, task', row, now, ht, phase, rfl, -, hid, found, init, made⟩ :=
    commit_task sound h
  rcases setPhase_get get with ⟨-, rfl⟩ | ⟨hne, -⟩
  · cases committed
    refine ⟨⟨task, ?_, by rw [made]; simp [DbOps.setRunning]⟩, fun u hu held => ?_⟩
    · rw [hid]
      exact find_commit found made
    · obtain ⟨j, hj⟩ := List.getElem?_of_mem hu
      rcases setPhase_get hj with ⟨-, rfl⟩ | ⟨hij, hj⟩
      · cases held
      · exact hij (sound.locks i j t u task.id ht hj (by rw [phase, hid]; rfl) held)
  · exact absurd rfl hne

theorem exec_handed_out {statement : Statement} {now : Int} {tasks : Tasks} {tid : String} {row : Task}
    (found : tasks.find tid = some row) (out : row.state ≠ .init)
    (keeps : ¬ Resets tid (.write now statement)) :
    ∃ row', (statement.exec now tasks).find tid = some row' ∧ row'.state ≠ .init := by
  by_cases touched : tid ∈ statement.touches
  · cases statement with
    | addTask => cases touched
    | recordError workerId t msg =>
      obtain rfl : tid = t := List.mem_singleton.mp touched
      refine ⟨DbOps.setError workerId msg row, ?_, by simp [DbOps.setError]⟩
      simp [Statement.exec, DbOps.find_recordError, found]
    | recordProof workerId t proof =>
      obtain rfl : tid = t := List.mem_singleton.mp touched
      refine ⟨DbOps.setCompleted now workerId proof row, ?_, by simp [DbOps.setCompleted]⟩
      simp [Statement.exec, DbOps.find_recordProof, found]
    | updateStatusById tids status =>
      refine ⟨DbOps.setState status row, ?_, ?_⟩
      · have named : tid ∈ tids := touched
        simp [Statement.exec, DbOps.find_updateStatusById, found, named]
      · rintro (rfl : status = .init)
        exact keeps touched
  · exact ⟨row, exec_untouched found touched, out⟩

theorem step_handed_out {db db' : Db} {a : Action} {tid : String} (sound : Sound db)
    (out : HandedOut tid db) (h : Step db a db') (keeps : ¬ Resets tid a) : HandedOut tid db' := by
  obtain ⟨⟨row, found, state⟩, free⟩ := out
  have moved {i : Nat} {txn : Txn} {phase : Phase} (hp : phase.holds ≠ some tid) :
      ∀ u ∈ (db.setPhase i txn phase).txns, u.phase.holds ≠ some tid := by
    intro u hu
    rcases List.mem_or_eq_of_mem_set hu with hu | rfl
    · exact free u hu
    · exact hp
  cases h with
  | begin workerId types =>
    refine ⟨⟨row, found, state⟩, fun u hu => ?_⟩
    rcases List.mem_append.mp hu with hu | hu
    · exact free u hu
    · cases List.mem_singleton.mp hu
      simp [Phase.holds]
  | select => exact ⟨⟨row, found, state⟩, moved (by simp [Phase.holds])⟩
  | @update i now txn undoTask r get phase unlocked hr init =>
    refine ⟨⟨row, found, state⟩, moved ?_⟩
    rintro ⟨⟩
    rw [found] at hr
    cases hr
    exact state init
  | @reread i txn undoTask task get phase =>
    refine ⟨⟨row, found, state⟩, moved ?_⟩
    have held := free txn (List.mem_of_getElem? get)
    rwa [phase] at held
  | @commit i txn undoTask task get phase =>
    refine ⟨⟨row, ?_, state⟩, moved (by simp [Phase.holds])⟩
    have before := sound.txns txn (List.mem_of_getElem? get)
    rw [Txn.Sound, phase] at before
    have held := free txn (List.mem_of_getElem? get)
    rw [phase] at held
    have hne : tid ≠ task.id := by
      rintro rfl
      exact held (congrArg some before.2.id.symm)
    change (install task db.tasks).find tid = some row
    rw [find_install, found]
    simp [hne]
  | fail => exact ⟨⟨row, found, state⟩, moved (by simp [Phase.holds])⟩
  | write => exact ⟨exec_handed_out found state keeps, free⟩

/-- A transaction that has ended does nothing more. -/
theorem step_ended {db db' : Db} {a : Action} {i : Nat} {txn : Txn} (h : Step db a db')
    (get : db.txns[i]? = some txn) (ended : txn.phase.open = false) : db'.txns[i]? = some txn := by
  have other {j : Nat} {u : Txn} {phase : Phase} (hu : db.txns[j]? = some u)
      (running : u.phase.open = true) : (db.setPhase j u phase).txns[i]? = some txn := by
    have hne : j ≠ i := by
      rintro rfl
      rw [hu] at get
      cases get
      rw [ended] at running
      cases running
    simp [Db.setPhase, hne, get]
  cases h with
  | begin workerId types =>
    rw [List.getElem?_append_left (List.getElem?_eq_some_iff.mp get).1]
    exact get
  | select hu phase => exact other hu (by rw [phase]; rfl)
  | update hu phase => exact other hu (by rw [phase]; rfl)
  | reread hu phase => exact other hu (by rw [phase]; rfl)
  | commit hu phase => exact other hu (by rw [phase]; rfl)
  | fail hu act early running => exact other hu running
  | write => exact get

theorem run_ended {db db' : Db} {as : List Action} {i : Nat} {txn : Txn}
    (run : Runs.run step db as = some db') (get : db.txns[i]? = some txn)
    (ended : txn.phase.open = false) : db'.txns[i]? = some txn :=
  Runs.invariant (I := fun db => db.txns[i]? = some txn) run get
    fun _ _ _ hi h => step_ended (step_cases h) hi ended

theorem step_tasks {db db' : Db} {a : Action} {i : Nat} (h : Step db a db') (act : a.txn = some i) :
    db'.tasks = db.tasks ∨ a = .commit i := by
  cases h with
  | begin | write => cases act
  | commit => cases act; exact Or.inr rfl
  | _ => exact Or.inl rfl

/-- What exclusive dispatch says of a run. -/
structure Exclusive (start : Db) (as : List Action) (db : Db) : Prop where
  /-- Between two dispatches of a task it was set to `Init`. -/
  reset : ∀ pre i mid j post t u task task', as = pre ++ .commit i :: (mid ++ .commit j :: post) →
    db.txns[i]? = some t → t.phase = .committed task →
    db.txns[j]? = some u → u.phase = .committed task' → task'.id = task.id →
    ∃ a ∈ mid, Resets task.id a
  /-- A call that succeeds returns its task's row, running for its own worker. -/
  row : ∀ pre i post s s', as = pre ++ .commit i :: post → Runs.run step start pre = some s →
    step s (.commit i) = some s' → ∃ txn task, db.txns[i]? = some txn ∧
      txn.phase = .committed task ∧ task.state = .running ∧ task.workerId = txn.workerId ∧
      s'.tasks.find task.id = some task
  /-- A call that fails has changed nothing. -/
  rollback : ∀ i txn e, db.txns[i]? = some txn → txn.phase = .failed e →
    ∀ pre a post s s', as = pre ++ a :: post → a.txn = some i →
      Runs.run step start pre = some s → step s a = some s' → s'.tasks = s.tasks

/-- A commit and what is left of it at the end of the run. -/
theorem commit_stays {s s' db : Db} {i : Nat} {post : List Action} (sound : Sound s)
    (h : step s (.commit i) = some s') (run : Runs.run step s' post = some db) :
    ∃ txn task, s'.txns[i]? = some txn ∧ db.txns[i]? = some txn ∧ txn.phase = .committed task ∧
      task.state = .running ∧ task.workerId = txn.workerId ∧ s'.tasks.find task.id = some task ∧
      ∃ before ∈ s.txns, before.phase.holds = some task.id := by
  obtain ⟨txn, undoTask, task, row, now, get, phase, rfl, -, hid, found, -, made⟩ :=
    commit_task sound h
  have bound := (List.getElem?_eq_some_iff.mp get).1
  have ended : (s.txns.set i { txn with phase := .committed task })[i]? =
      some { txn with phase := .committed task } := by simp [bound]
  refine ⟨_, task, ended, run_ended run ended rfl, rfl, ?_, ?_, ?_, txn, List.mem_of_getElem? get, ?_⟩
  · rw [made]
    rfl
  · rw [made]
    rfl
  · rw [hid]
    exact find_commit found made
  · rw [phase, hid]
    rfl

/-- Exclusive dispatch: in every interleaving of the statements, from any table. -/
theorem exclusive_dispatch {tasks : Tasks} {past : List Tasks} {as : List Action} {db : Db}
    (run : Runs.run step (idle tasks past) as = some db) : Exclusive (idle tasks past) as db where
  reset pre i mid j post t u task task' he ht hcommitted hu hcommitted' same := by
    subst he
    by_contra none
    simp only [not_exists, not_and] at none
    obtain ⟨s, s', hs, hstep, hrest⟩ := Runs.run_split run
    obtain ⟨v, v', hv, hstep', hpost⟩ := Runs.run_split hrest
    have sound := run_sound hs (sound_idle _ _)
    have sound' := step_sound sound (step_cases hstep)
    obtain ⟨txn, task₁, get, final, phase, -⟩ := commit_stays sound hstep hrest
    rw [ht] at final
    cases final
    rw [hcommitted] at phase
    cases phase
    have out : Sound v ∧ HandedOut task.id v := by
      refine Runs.invariant_along (I := fun db => Sound db ∧ HandedOut task.id db)
        (P := fun _ a => ¬ Resets task.id a) hv ⟨sound', commit_hands_out sound hstep get hcommitted⟩
        ?_ fun db a db' hi ok h =>
          ⟨step_sound hi.1 (step_cases h), step_handed_out hi.1 hi.2 (step_cases h) ok⟩
      rintro pre' a post' w rfl -
      exact none a (by simp)
    obtain ⟨txn', task₂, -, final', phase', -, -, -, before, hb, held⟩ :=
      commit_stays out.1 hstep' hpost
    rw [hu] at final'
    cases final'
    rw [hcommitted'] at phase'
    cases phase'
    exact out.2.2 before hb (same ▸ held)
  row pre i post s s' he hs hstep := by
    subst he
    obtain ⟨u, u', hu, hstep', hpost⟩ := Runs.run_split run
    rw [hs] at hu
    cases hu
    rw [hstep] at hstep'
    cases hstep'
    obtain ⟨txn, task, -, final, phase, state, worker, found, -⟩ :=
      commit_stays (run_sound hs (sound_idle _ _)) hstep hpost
    exact ⟨txn, task, final, phase, state, worker, found⟩
  rollback i txn e get failed pre a post s s' he act hs hstep := by
    subst he
    obtain ⟨u, u', hu, hstep', hpost⟩ := Runs.run_split run
    rw [hs] at hu
    cases hu
    rw [hstep] at hstep'
    cases hstep'
    rcases step_tasks (step_cases hstep) act with same | rfl
    · exact same
    · obtain ⟨t, task, -, final, phase, -⟩ :=
        commit_stays (run_sound hs (sound_idle _ _)) hstep hpost
      rw [get] at final
      cases final
      rw [failed] at phase
      cases phase

/-- Two workers race for one task, the loser fails, and after a reset a third
worker gets it. -/
def demoRun : List Action :=
  [.begin "w1" none, .begin "w2" (some [.c2]), .select 0 0, .select 1 0, .update 0 5, .reread 0,
    .commit 0, .update 1 6, .write 7 (.recordError "w1" "t" "lost"),
    .write 8 (.updateStatusById ["t"] .init), .begin "w3" none, .select 2 0, .update 2 9, .reread 2,
    .commit 2]

def demoTasks : Tasks := (DbOps.addTask 0 "t" "01000" .c2 "r" "" Table.empty).2

theorem exclusive_dispatch_demo : ∃ db, Runs.run step (idle demoTasks []) demoRun = some db ∧
    Exclusive (idle demoTasks []) demoRun db := by
  have ran : (Runs.run step (idle demoTasks []) demoRun).isSome := by decide
  obtain ⟨db, run⟩ := Option.isSome_iff_exists.mp ran
  exact ⟨db, run, exclusive_dispatch run⟩

end Dispatch

end GpuProxy
