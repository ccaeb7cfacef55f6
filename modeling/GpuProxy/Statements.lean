import GpuProxy.Linearization
import GpuProxy.System

/-!
# The system statement by statement

`fetch_one_todo` is here the transaction it is in the database. Its call begins it, its
statements come one at a time among everything else the system does, and with its end the
call goes on. Any other storage call is one statement, and waits where it writes a row that a
transaction has locked. What is proved of the system, with `fetch_one_todo` one storage call,
holds of this one as well.
-/

namespace GpuProxy

open DbOps (Tasks)

/-- The rows a storage call writes by itself. -/
def Op.touches : Op → List String
  | .recordError _ tid _ => [tid]
  | .recordProof _ tid _ => [tid]
  | .updateStatusById tids _ => tids
  | _ => []

def Op.isTransaction : Op → Bool
  | .fetchOneTodo _ _ => true
  | _ => false

structure SqlSystem (env : Extern) where
  system : System env
  /-- Committed tables before the one of the server. -/
  past : List Tasks
  txns : List Dispatch.Txn
  /-- The calls the transactions run for. -/
  callers : List Nat

namespace SqlSystem

variable {env : Extern}

def start (s : System env) : SqlSystem env := ⟨s, [], [], []⟩

def db (d : SqlSystem env) : Dispatch.Db := ⟨d.system.server.tasks, d.past, d.txns⟩

inductive Event (env : Extern) where
  /-- The call begins its transaction. -/
  | begin (call : Nat)
  /-- A transaction moves on or comes to its end. -/
  | statement (a : Dispatch.Action)
  | act (a : System.Action env)

/-- Transaction `i` is open and runs for the call. -/
def RunsFor (d : SqlSystem env) (i : Nat) (txn : Dispatch.Txn) (call : Nat) : Prop :=
  d.txns[i]? = some txn ∧ txn.phase.open = true ∧ d.callers[i]? = some call

def busy (d : SqlSystem env) (call : Nat) : Bool :=
  (d.txns.zip d.callers).any fun p => p.1.phase.open && decide (p.2 = call)

/-- The call has its answer from `fetch_one_todo`, and the table is the one committed. -/
def resume (s : System env) (call : Nat) (tasks : Tasks) (answer : Except String Task) :
    Option (System env) := do
  let c ← s.calls[call]?
  match c.program with
  | some (.call (.fetchOneTodo workerId types) k) =>
    some { s with
      server := { s.server with tasks := tasks }
      calls := s.calls.set call { c with program := some (k answer) }
      log := ⟨call, .fetchOneTodo workerId types, answer⟩ :: s.log }
  | _ => none

/-- The system once transaction `i` of the call has moved on. -/
def settle (d : SqlSystem env) (i call : Nat) (db : Dispatch.Db) : Option (System env) :=
  match db.answer i with
  | none => some d.system
  | some answer => resume d.system call db.tasks answer

/-- The action is a storage call that cannot be made now. -/
def waits (d : SqlSystem env) : System.Action env → Bool
  | .serve call ch =>
    match d.system.next call with
    | some op => op.isTransaction || (ch.fails.isNone && op.touches.any d.db.locked)
    | none => false
  | _ => false

/-- The tables that have been committed once the action is through. -/
def pastAfter (d : SqlSystem env) : System.Action env → List Tasks
  | .serve _ _ => d.system.server.tasks :: d.past
  | _ => d.past

def step (d : SqlSystem env) : Event env → Option (SqlSystem env)
  | .begin call =>
    match d.system.next call with
    | some (.fetchOneTodo workerId types) =>
      if d.busy call then none
      else
        some { d with txns := d.txns ++ [⟨workerId, types, .begun⟩], callers := d.callers ++ [call] }
    | _ => none
  | .statement a => do
    let i ← a.txn
    let call ← d.callers[i]?
    let db ← Dispatch.step d.db a
    let system ← d.settle i call db
    some { d with system := system, past := db.past, txns := db.txns }
  | .act a =>
    if d.waits a then none
    else (d.system.step a).map fun system => { d with system := system, past := d.pastAfter a }

/-- The storage call that stands for the transaction, made where it ends. -/
def actions (d : SqlSystem env) : Event env → List (System.Action env)
  | .begin _ => []
  | .statement a => (Dispatch.calls d.db a).filterMap fun
    | .fetchOneTodo i ch _ _ _ => d.callers[i]?.map fun call => .serve call ch
    | .write _ _ => none
  | .act a => [a]

/-! ## What a step can do -/

inductive Step (d : SqlSystem env) : Event env → SqlSystem env → Prop where
  | begin {call workerId types} (next : d.system.next call = some (.fetchOneTodo workerId types))
      (free : d.busy call = false) :
      Step d (.begin call)
        { d with txns := d.txns ++ [⟨workerId, types, .begun⟩], callers := d.callers ++ [call] }
  | goesOn {a i call db} (act : a.txn = some i) (caller : d.callers[i]? = some call)
      (moved : Dispatch.step d.db a = some db) (running : db.answer i = none) :
      Step d (.statement a) { d with past := db.past, txns := db.txns }
  | ends {a i call db answer system} (act : a.txn = some i) (caller : d.callers[i]? = some call)
      (moved : Dispatch.step d.db a = some db) (ended : db.answer i = some answer)
      (resumed : resume d.system call db.tasks answer = some system) :
      Step d (.statement a) { d with system := system, past := db.past, txns := db.txns }
  | act {a system} (free : d.waits a = false) (moved : d.system.step a = some system) :
      Step d (.act a) { d with system := system, past := d.pastAfter a }

variable {d d' : SqlSystem env} {ev : Event env}

theorem step_cases (h : d.step ev = some d') : Step d ev d' := by
  cases ev with
  | begin call =>
    simp only [step] at h
    split at h
    · next next =>
      split at h
      · cases h
      · next free =>
        cases h
        exact .begin next (by simpa using free)
    · cases h
  | statement a =>
    simp only [step, Option.bind_eq_bind, Option.bind_eq_some_iff] at h
    obtain ⟨i, act, call, caller, db, moved, system, resumed, h⟩ := h
    cases h
    simp only [settle] at resumed
    split at resumed
    · next running =>
      cases resumed
      exact .goesOn act caller moved running
    · next answer ended => exact .ends act caller moved ended resumed
  | act a =>
    simp only [step] at h
    split at h
    · cases h
    · next free =>
      obtain ⟨system, moved, rfl⟩ := Option.map_eq_some_iff.mp h
      exact .act (by simpa using free) moved

/-! ## Transactions and their calls -/

/-- An open transaction has a call of its own, which waits for it. -/
structure Sound (d : SqlSystem env) : Prop where
  db : Dispatch.Sound d.db
  callers : d.callers.length = d.txns.length
  waiting : ∀ i txn call, d.RunsFor i txn call → ∃ c k, d.system.calls[call]? = some c ∧
    c.program = some (.call (.fetchOneTodo txn.workerId txn.types) k)
  alone : ∀ i j t u call, d.RunsFor i t call → d.RunsFor j u call → i = j

theorem start_sound (s : System env) : Sound (start s) where
  db := Dispatch.sound_idle s.server.tasks []
  callers := rfl
  waiting := by simp [RunsFor, start]
  alone := by simp [RunsFor, start]

theorem RunsFor.busy {i call : Nat} {txn : Dispatch.Txn} (h : d.RunsFor i txn call) :
    d.busy call = true := by
  obtain ⟨get, running, caller⟩ := h
  have both : (d.txns.zip d.callers)[i]? = some (txn, call) := by
    rw [List.getElem?_zip_eq_some]
    exact ⟨get, caller⟩
  exact List.any_eq_true.mpr ⟨_, List.mem_of_getElem? both, by simp [running]⟩

/-- A call that begins a transaction has no other. -/
theorem begin_sound {call : Nat} {workerId : String} {types : Option (List TaskType)}
    (sound : Sound d) (next : d.system.next call = some (.fetchOneTodo workerId types))
    (free : d.busy call = false) :
    Sound { d with txns := d.txns ++ [⟨workerId, types, .begun⟩], callers := d.callers ++ [call] } := by
  let after : SqlSystem env :=
    { d with txns := d.txns ++ [⟨workerId, types, .begun⟩], callers := d.callers ++ [call] }
  have runs (i : Nat) (txn : Dispatch.Txn) (caller : Nat) (h : after.RunsFor i txn caller) :
      d.RunsFor i txn caller ∨ i = d.txns.length ∧ txn = ⟨workerId, types, .begun⟩ ∧ caller = call := by
    obtain ⟨get, running, called⟩ := h
    by_cases old : i < d.txns.length
    · rw [List.getElem?_append_left old] at get
      rw [List.getElem?_append_left (by rw [sound.callers]; exact old)] at called
      exact .inl ⟨get, running, called⟩
    · have last : i = d.txns.length := by
        have bound := (List.getElem?_eq_some_iff.mp get).1
        simp only [after, List.length_append, List.length_singleton] at bound
        omega
      subst last
      rw [List.getElem?_concat_length] at get
      rw [← sound.callers, List.getElem?_concat_length] at called
      cases get
      cases called
      exact .inr ⟨rfl, rfl, rfl⟩
  have apart (i : Nat) (txn : Dispatch.Txn) (h : d.RunsFor i txn call) : False := by
    rw [h.busy] at free
    cases free
  refine ⟨Dispatch.step_sound sound.db (.begin workerId types), by simp [sound.callers], ?_, ?_⟩
  · intro i txn caller h
    rcases runs i txn caller h with old | ⟨rfl, rfl, rfl⟩
    · exact sound.waiting i txn caller old
    · obtain ⟨-, c, k, get, program⟩ := System.serves_of_next ⟨0, none, none⟩ next
      exact ⟨c, k, get, program⟩
  · intro i j t u caller hi hj
    cases runs i t caller hi with
    | inl old =>
      cases runs j u caller hj with
      | inl other => exact sound.alone i j t u caller old other
      | inr new =>
        obtain ⟨-, -, rfl⟩ := new
        exact (apart i t old).elim
    | inr new =>
      cases runs j u caller hj with
      | inl other =>
        obtain ⟨-, -, rfl⟩ := new
        exact (apart j u other).elim
      | inr last => exact new.1.trans last.1.symm

/-- A transaction that is open after a statement was open before, for the same call. It has not
just got its answer. -/
theorem runsFor_before {a : Dispatch.Action} {i j call : Nat} {db : Dispatch.Db} {u : Dispatch.Txn}
    {system : System env} {past : List Tasks} (act : a.txn = some i)
    (moved : Dispatch.step d.db a = some db)
    (h : RunsFor { d with system := system, past := past, txns := db.txns } j u call) :
    ∃ old, d.RunsFor j old call ∧ u.workerId = old.workerId ∧ u.types = old.types ∧
      (j = i → db.answer i = none) := by
  obtain ⟨txn, phase, get, running, same⟩ := Dispatch.step_txn act moved
  obtain ⟨get', running', caller⟩ := h
  change db.txns[j]? = some u at get'
  rw [same] at get'
  cases Dispatch.setPhase_get get' with
  | inl mine =>
    obtain ⟨rfl, rfl⟩ := mine
    have answer : db.answer i = phase.answer :=
      (Dispatch.answer_of_txns get same i).trans (if_pos rfl)
    refine ⟨txn, ⟨get, running, caller⟩, rfl, rfl, fun _ => ?_⟩
    rw [answer, Dispatch.Phase.answer_open running']
  | inr other => exact ⟨u, ⟨other.2, running', caller⟩, rfl, rfl, fun same => absurd same.symm other.1⟩

/-- A statement keeps what the open transactions rest on, if the calls they run for stay. -/
theorem statement_sound {a : Dispatch.Action} {i : Nat} {db : Dispatch.Db} {system : System env}
    (sound : Sound d) (act : a.txn = some i) (moved : Dispatch.step d.db a = some db)
    (tasks : system.server.tasks = db.tasks)
    (stay : ∀ j u call, RunsFor { d with system := system, past := db.past, txns := db.txns } j u call →
      system.calls[call]? = d.system.calls[call]?) :
    Sound { d with system := system, past := db.past, txns := db.txns } := by
  have same : SqlSystem.db { d with system := system, past := db.past, txns := db.txns } = db := by
    simp only [SqlSystem.db, tasks]
  have held : Dispatch.Sound db := Dispatch.step_sound sound.db (Dispatch.step_cases moved)
  obtain ⟨txn, phase, -, -, txns⟩ := Dispatch.step_txn act moved
  refine ⟨by rw [same]; exact held, ?_, ?_, ?_⟩
  · simp [sound.callers, txns, Dispatch.Db.setPhase, SqlSystem.db]
  · intro j u call h
    obtain ⟨old, was, worker, types, -⟩ := runsFor_before act moved h
    rw [stay j u call h, worker, types]
    exact sound.waiting j old call was
  · intro j k u v call hj hk
    obtain ⟨old, was, -⟩ := runsFor_before act moved hj
    obtain ⟨other, was', -⟩ := runsFor_before act moved hk
    exact sound.alone j k old other call was was'

theorem goesOn_sound {a : Dispatch.Action} {i : Nat} {db : Dispatch.Db} (sound : Sound d)
    (act : a.txn = some i) (moved : Dispatch.step d.db a = some db) (running : db.answer i = none) :
    Sound { d with past := db.past, txns := db.txns } :=
  statement_sound sound act moved (Dispatch.tasks_of_running act moved running).symm fun _ _ _ _ => rfl

theorem resume_some {s system : System env} {call : Nat} {tasks : Tasks} {answer : Except String Task}
    {c : Call} {workerId : String} {types : Option (List TaskType)}
    {k : Except String Task → Program Op Op.Response Answer} (get : s.calls[call]? = some c)
    (program : c.program = some (.call (.fetchOneTodo workerId types) k))
    (h : resume s call tasks answer = some system) :
    system = { s with
      server := { s.server with tasks := tasks }
      calls := s.calls.set call { c with program := some (k answer) }
      log := ⟨call, .fetchOneTodo workerId types, answer⟩ :: s.log } := by
  simp only [resume, get, Option.bind_eq_bind, Option.bind_some, program] at h
  exact (Option.some.inj h).symm

/-- What was on its way for other calls is so after one has its answer. -/
theorem ends_sound {a : Dispatch.Action} {i call : Nat} {db : Dispatch.Db}
    {answer : Except String Task} {system : System env} (sound : Sound d) (act : a.txn = some i)
    (caller : d.callers[i]? = some call) (moved : Dispatch.step d.db a = some db)
    (ended : db.answer i = some answer) (resumed : resume d.system call db.tasks answer = some system) :
    Sound { d with system := system, past := db.past, txns := db.txns } := by
  obtain ⟨txn, -, get, opened, -⟩ := Dispatch.step_txn act moved
  have mine : d.RunsFor i txn call := ⟨get, opened, caller⟩
  obtain ⟨c, k, here, program⟩ := sound.waiting i txn call mine
  have after := resume_some here program resumed
  apply statement_sound sound act moved
  · rw [after]
  · intro j u called h
    obtain ⟨old, was, -, -, unanswered⟩ := runsFor_before act moved h
    have apart : call ≠ called := by
      rintro rfl
      have none_yet := unanswered (sound.alone j i old txn call was mine)
      rw [ended] at none_yet
      cases none_yet
    rw [after, List.getElem?_set_ne apart]

/-- A storage call by itself leaves the rows it does not touch. -/
theorem act_untouched {ch : Choice} {op : Op} {s : Server} {tid : String} {row : Task}
    (alone : op.isTransaction = false) (free : ch.fails = none → tid ∉ op.touches)
    (found : s.tasks.find tid = some row) : (s.act ch op).2.tasks.find tid = some row := by
  cases fails : ch.fails with
  | some e => rw [Server.act_fails fails, found]
  | none =>
    have apart := free fails
    rw [Server.act_find_some ch op found, Server.act_performs fails]
    have id : row.id = tid := DbOps.find_id found
    cases op with
    | fetchOneTodo => cases alone
    | recordError workerId other msg =>
      have ne : tid ≠ other := by simpa [Op.touches] using apart
      simp [Server.perform, Server.Writes, id, ne]
    | recordProof workerId other proof =>
      have ne : tid ≠ other := by simpa [Op.touches] using apart
      simp [Server.perform, Server.Writes, id, ne]
    | updateStatusById tids status =>
      have ne : tid ∉ tids := apart
      simp [Server.perform, Server.Writes, id, ne]
    | _ => rfl

/-- A call stays where it is while the server makes none of its storage calls. -/
theorem call_still {s s' : System env} {a : System.Action env} {call : Nat} {c : Call}
    (moved : s.step a = some s') (get : s.calls[call]? = some c) (other : ∀ ch, a ≠ .serve call ch) :
    s'.calls[call]? = some c := by
  cases System.step_cases moved with
  | @serve served ch =>
    have ne : call ≠ served := by
      rintro rfl
      exact other ch rfl
    rw [System.serve_get_ne ne, get]
  | startPlugin | crashWorker => exact get
  | request | plugin | startWorker | worker => exact System.send_get_old get

theorem act_sound {a : System.Action env} {system : System env} (sound : Sound d)
    (free : d.waits a = false) (moved : d.system.step a = some system) :
    Sound { d with system := system, past := d.pastAfter a } := by
  refine ⟨sound.db.setTasks ?_, sound.callers, ?_, sound.alone⟩
  · intro j txn tid get held
    obtain ⟨version, row, now, found, -⟩ :=
      (sound.db.txns txn (List.mem_of_getElem? get)).pending held
    rw [found]
    cases System.step_server moved with
    | inl same =>
      rw [same.1]
      exact found
    | inr served =>
      obtain ⟨call, ch, op, ⟨rfl, c, k, here, program⟩, server, -⟩ := served
      have next : d.system.next call = some op := by simp [System.next, here, program]
      simp only [waits, next, Bool.or_eq_false_iff] at free
      rw [server]
      refine act_untouched free.1 (fun performs touched => ?_) found
      have locked : op.touches.any d.db.locked = true :=
        List.any_eq_true.mpr ⟨tid, touched, Dispatch.locked_of_holds (List.mem_of_getElem? get) held⟩
      simp [performs, locked] at free
  · intro i txn call runsFor
    obtain ⟨c, k, get, program⟩ := sound.waiting i txn call runsFor
    refine ⟨c, k, call_still moved get ?_, program⟩
    rintro ch rfl
    have next : d.system.next call = some (.fetchOneTodo txn.workerId txn.types) := by
      simp [System.next, get, program]
    simp [waits, next, Op.isTransaction] at free

theorem step_sound (sound : Sound d) (h : d.step ev = some d') : Sound d' := by
  cases step_cases h with
  | begin next free => exact begin_sound sound next free
  | goesOn act caller moved running => exact goesOn_sound sound act moved running
  | ends act caller moved ended resumed => exact ends_sound sound act caller moved ended resumed
  | act free moved => exact act_sound sound free moved

/-! ## One storage call for each transaction -/

/-- The transaction that ends has done what `fetch_one_todo` does as one storage call. -/
theorem ends_call {db db' : Dispatch.Db} {a : Dispatch.Action} {i : Nat} {txn : Dispatch.Txn}
    {answer : Except String Task} (resources : ResourceStore) (sound : Dispatch.Sound db)
    (act : a.txn = some i) (get : db.txns[i]? = some txn) (moved : Dispatch.step db a = some db')
    (ended : db'.answer i = some answer) :
    Dispatch.calls db a =
      [.fetchOneTodo i (txn.phase.choice answer) txn.workerId txn.types answer] ∧
    Server.act (txn.phase.choice answer) (.fetchOneTodo txn.workerId txn.types)
      ⟨db.tasks, resources⟩ = (answer, ⟨db'.tasks, resources⟩) := by
  have one : Dispatch.calls db a =
      [.fetchOneTodo i (txn.phase.choice answer) txn.workerId txn.types answer] := by
    rw [Dispatch.calls_txn act get moved, ended]
    rfl
  refine ⟨one, ?_⟩
  have run := Dispatch.step_calls resources sound moved
  rw [one] at run
  simp only [Runs.run, Dispatch.atomic] at run
  split at run
  · next answers => exact Prod.ext answers (Option.some.inj run)
  · cases run

theorem step_refines (sound : Sound d) (h : d.step ev = some d') :
    Runs.run System.step d.system (d.actions ev) = some d'.system := by
  cases step_cases h with
  | begin => rfl
  | @goesOn a i call db act caller moved running =>
    obtain ⟨txn, -, get, -⟩ := Dispatch.step_txn act moved
    have none_yet : d.actions (.statement a) = [] := by
      simp [actions, Dispatch.calls_txn act get moved, running]
    rw [none_yet]
    rfl
  | @ends a i call db answer system act caller moved ended resumed =>
    obtain ⟨txn, -, get, opened, -⟩ := Dispatch.step_txn act moved
    obtain ⟨c, k, here, program⟩ := sound.waiting i txn call ⟨get, opened, caller⟩
    obtain ⟨one, called⟩ := ends_call d.system.server.resources sound.db act get moved ended
    have action : d.actions (.statement a) = [.serve call (txn.phase.choice answer)] := by
      simp [actions, one, caller]
    rw [action, resume_some here program resumed]
    simp only [Runs.run, System.step, here, Option.bind_eq_bind, Option.bind_some, program]
    have served : d.system.server.act (txn.phase.choice answer)
        (.fetchOneTodo txn.workerId txn.types) = (answer, ⟨db.tasks, d.system.server.resources⟩) :=
      called
    simp only [System.serve, served]
  | @act a system free moved =>
    simp only [actions, Runs.run, moved, Option.bind_some]

/-- Whatever the statements of the transactions do between each other and between all that the
system does, the system does the same with each transaction one storage call, made at its end:
the same table and answers, the same log, plugins and workers. -/
theorem statements_refine {s : System env} {es : List (Event env)}
    (run : Runs.run step (start s) es = some d) :
    Runs.run System.step s (Runs.collect step actions (start s) es) = some d.system :=
  Runs.run_collect_along SqlSystem.system (I := Sound) (P := fun _ _ => True)
    (fun _ _ _ sound _ h => step_sound sound h) (fun _ _ _ sound _ h => step_refines sound h) run
    (start_sound s) (Runs.along_of_mem fun _ _ _ => trivial)

/-- Two workers fetch at once, and both find the only task. -/
def twoFetches : List (Event Demo.env) :=
  [.act (.request (.fetchTodo "w1" none)), .act (.request (.fetchTodo "w2" none)), .begin 0, .begin 1,
    .statement (.select 0 0), .statement (.select 1 0), .statement (.update 0 5),
    .statement (.reread 0), .statement (.commit 0), .statement (.update 1 6)]

def secondMissed : Answer :=
  internalCallError (.error (DbOps.recordNotFound "no task to do for worker."))

theorem statements_refine_demo : ∃ (d : SqlSystem Demo.env) (as : List (System.Action Demo.env)),
    d.system.answer 1 = some secondMissed ∧
    Runs.run System.step (System.idle (Demo.queued [])) as = some d.system := by
  have ran : ((Runs.run step (start (System.idle (Demo.queued []))) twoFetches).map fun d =>
      d.system.answer 1) = some (some secondMissed) := by
    decide +kernel
  obtain ⟨d, run, missed⟩ := Option.map_eq_some_iff.mp ran
  exact ⟨d, _, missed, statements_refine run⟩

end SqlSystem

end GpuProxy
