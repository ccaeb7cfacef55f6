import GpuProxy.Dispatch

/-!
# Transactions as atomic calls

The storage calls of the system take a whole `fetch_one_todo` at once. Whatever the
statements of the transactions do between each other, every transaction that ends can be
taken to have run at its last statement, alone, with the answer it gave.
-/

namespace GpuProxy

namespace Dispatch

open DbOps (Tasks)

def Statement.op : Statement → Op
  | .addTask taskId miner taskType resourceId comment => .addTask taskId miner taskType resourceId comment
  | .recordError workerId tid errMsg => .recordError workerId tid errMsg
  | .recordProof workerId tid proof => .recordProof workerId tid proof
  | .updateStatusById tids status => .updateStatusById tids status

/-- What a transaction that has ended gave its caller. -/
def Phase.answer : Phase → Option (Except String Task)
  | .committed task => some (.ok task)
  | .failed e => some (.error e)
  | _ => none

def Db.answer (db : Db) (i : Nat) : Option (Except String Task) :=
  db.txns[i]?.bind fun txn => txn.phase.answer

/-- One call of storage, the first with the transaction it stands for and its answer. -/
inductive Atomic where
  | fetchOneTodo (i : Nat) (ch : Choice) (workerId : String) (types : Option (List TaskType))
      (answer : Except String Task)
  | write (now : Int) (statement : Statement)

/-- The call, if its answer is the one it has. -/
def atomic (s : Server) : Atomic → Option Server
  | .fetchOneTodo _ ch workerId types answer =>
    if (s.act ch (.fetchOneTodo workerId types)).1 = answer then
      some (s.act ch (.fetchOneTodo workerId types)).2
    else none
  | .write now statement => some (s.act ⟨now, none, none⟩ statement.op).2

/-- The answer the call gives transaction `i`. -/
def Atomic.answer (i : Nat) : Atomic → Option (Except String Task)
  | .fetchOneTodo j _ _ _ answer => if j = i then some answer else none
  | .write _ _ => none

/-- The choices with which the call gives that answer. -/
def Phase.choice : Phase → Except String Task → Choice
  | _, .error e => ⟨0, some e, none⟩
  | .reread undoTask _, .ok task => ⟨task.startAt, none, some undoTask⟩
  | _, .ok task => ⟨task.startAt, none, none⟩

/-- The calls a step stands for: its own if it is a statement by itself, that of its
transaction if it is the last of it. -/
def calls (db : Db) (a : Action) : List Atomic :=
  match a, a.txn with
  | .write now statement, _ => [.write now statement]
  | _, some i =>
    match db.txns[i]?, (step db a).bind fun db' => db'.answer i with
    | some txn, some answer =>
      [.fetchOneTodo i (txn.phase.choice answer) txn.workerId txn.types answer]
    | _, _ => []
  | _, none => []

variable {db db' : Db} {a : Action} {i : Nat} {txn : Txn}

theorem exec_act (now : Int) (statement : Statement) (tasks : Tasks) (resources : ResourceStore) :
    (Server.act ⟨now, none, none⟩ statement.op ⟨tasks, resources⟩).2 =
      ⟨statement.exec now tasks, resources⟩ := by
  cases statement <;> rfl

theorem answer_of_txns {phase : Phase} (get : db.txns[i]? = some txn)
    (same : db'.txns = (db.setPhase i txn phase).txns) (j : Nat) :
    db'.answer j = if i = j then phase.answer else db.answer j := by
  obtain ⟨bound, -⟩ := List.getElem?_eq_some_iff.mp get
  by_cases mine : i = j
  · subst mine
    simp [Db.answer, same, Db.setPhase, bound]
  · simp [Db.answer, same, Db.setPhase, mine]

theorem answer_commit (get : db.txns[i]? = some txn) (task : Task) :
    Db.answer { db.setPhase i txn (.committed task) with
      tasks := install task db.tasks, past := db.tasks :: db.past } i = some (.ok task) :=
  (answer_of_txns get rfl i).trans (if_pos rfl)

/-- A step of transaction `i` leaves the others as they are. -/
theorem step_txn (act : a.txn = some i) (h : step db a = some db') :
    ∃ txn phase, db.txns[i]? = some txn ∧ txn.phase.open = true ∧
      db'.txns = (db.setPhase i txn phase).txns := by
  cases step_cases h with
  | begin | write => cases act
  | select get phase | update get phase | reread get phase | commit get phase =>
    cases act
    exact ⟨_, _, get, by rw [phase]; rfl, rfl⟩
  | fail get act' early running =>
    rw [act] at act'
    cases act'
    exact ⟨_, _, get, running, rfl⟩

theorem Phase.answer_open {phase : Phase} (running : phase.open = true) : phase.answer = none := by
  cases phase with
  | committed | failed => cases running
  | begun | selected | updated | reread => rfl

theorem calls_txn (act : a.txn = some i) (get : db.txns[i]? = some txn) (h : step db a = some db') :
    calls db a = (db'.answer i).toList.map fun answer =>
      .fetchOneTodo i (txn.phase.choice answer) txn.workerId txn.types answer := by
  cases a with
  | begin | write => cases act
  | select | update | reread | commit | abort =>
    cases act
    simp only [calls, Action.txn, get, h, Option.bind_some]
    cases db'.answer i <;> rfl

/-- A transaction writes nothing before it commits. -/
theorem tasks_of_running (act : a.txn = some i) (h : step db a = some db')
    (running : db'.answer i = none) : db'.tasks = db.tasks := by
  cases step_cases h with
  | begin | write => cases act
  | select | update | reread | fail => rfl
  | @commit i txn undoTask task get phase =>
    cases act
    cases running.symm.trans (answer_commit get task)

/-- What the calls of a step do is what the step does to the committed table. -/
theorem step_calls (resources : ResourceStore) (sound : Sound db) (h : step db a = some db') :
    Runs.run atomic ⟨db.tasks, resources⟩ (calls db a) = some ⟨db'.tasks, resources⟩ := by
  cases step_cases h with
  | begin workerId types => rfl
  | select get phase todo | update get phase free found init | reread get phase =>
    rw [calls_txn rfl get h, answer_of_txns get rfl]
    simp only [↓reduceIte, Phase.answer, Option.toList_none, List.map_nil]
    rfl
  | @commit i txn undoTask task get phase =>
    obtain ⟨txn', undoTask', task', now, get', phase', called⟩ := commit_refines sound h resources
    rw [get] at get'
    cases get'
    rw [phase] at phase'
    cases phase'
    have clock : task.startAt = now := by
      obtain ⟨row, -, -, made, -⟩ := Server.act_fetchOneTodo_ok (congrArg Prod.fst called)
      rw [made]
      rfl
    rw [calls_txn rfl get h, answer_commit get task]
    simp only [Option.toList_some, List.map_cons, List.map_nil, phase, Phase.choice, Runs.run, atomic,
      clock, called, ↓reduceIte, Option.bind_some]
  | @fail _ i txn e get act early running =>
    rw [calls_txn act get h, answer_of_txns get rfl]
    simp only [↓reduceIte, Phase.answer, Option.toList_some, List.map_cons, List.map_nil, Phase.choice]
    simp [atomic, Server.act]
    rfl
  | @write now statement free =>
    have one : calls db (.write now statement) = [.write now statement] := rfl
    rw [one]
    simp only [Runs.run, atomic, exec_act]
    rfl

/-- Only the transaction a step belongs to can get its answer by it, and only if it had none. -/
theorem step_answer (h : step db a = some db') (i : Nat) :
    (db'.answer i).toList = (db.answer i).toList ++ (calls db a).filterMap (Atomic.answer i) := by
  cases act : a.txn with
  | some j =>
    obtain ⟨txn, phase, get, running, same⟩ := step_txn act h
    have answers := answer_of_txns get same
    rw [calls_txn act get h, answers, answers, if_pos rfl]
    by_cases mine : j = i
    · subst mine
      have none_yet : db.answer j = none := by
        simp only [Db.answer, get, Option.bind_some, Phase.answer_open running]
      rw [if_pos rfl, none_yet]
      cases phase.answer <;> simp [Atomic.answer]
    · rw [if_neg mine]
      cases phase.answer <;> simp [Atomic.answer, mine]
  | none =>
    cases step_cases h with
    | begin workerId types =>
      have new : (⟨db.tasks, db.past, db.txns ++ [⟨workerId, types, .begun⟩]⟩ : Db).answer i =
          db.answer i := by
        by_cases old : i < db.txns.length
        · simp only [Db.answer, List.getElem?_append_left old]
        · have none_yet : db.txns[i]? = none := List.getElem?_eq_none (by omega)
          simp only [Db.answer, none_yet, List.getElem?_append_right (by omega : db.txns.length ≤ i)]
          cases i - db.txns.length <;> rfl
      rw [new]
      simp [calls, Action.txn]
    | @write now statement free =>
      have one : calls db (.write now statement) = [.write now statement] := rfl
      rw [one]
      simp [Atomic.answer, Db.answer]
    | select | update | reread | commit => cases act
    | fail get act' =>
      rw [act] at act'
      cases act'

end Dispatch

end GpuProxy
