import GpuProxy.System
import GpuProxy.Serial
import Mathlib.Algebra.Order.BigOperators.Group.List
import Mathlib.Algebra.Order.Ring.Nat

/-!
# Every task can still be finished

Processes die and calls get lost, but from every state workers alone can finish a
task whose input is stored: a worker restarted under the id of a `Running` task
asks for it again, and a new worker takes the `Init` tasks, the oldest first.
-/

namespace GpuProxy

/-- No call ends with an error of the transport. -/
def LocalWorker.Event.Delivered : LocalWorker.Event → Prop
  | .fetched (.failed _) | .read (.failed _) | .recorded (.failed _) => False
  | _ => True

/-- The task waits for a worker or runs on one. -/
def Task.Open (t : Task) : Prop := t.state = .init ∨ t.state = .running

instance (t : Task) : Decidable t.Open := inferInstanceAs (Decidable (_ ∨ _))

/-- The row shows the result of its computation. -/
def Task.Shows (result : Except String Bytes) (t : Task) : Prop :=
  match result with
  | .ok proof => t.state = .completed ∧ t.proof = proof
  | .error e => t.state = .error ∧ t.errorMsg = e

theorem Task.Shows.closed {result : Except String Bytes} {t : Task} (reported : t.Shows result) :
    ¬ t.Open := by
  cases result with
  | ok proof => simp [Task.Open, reported.1]
  | error e => simp [Task.Open, reported.1]

namespace Serial

/-- A request of one storage call, served alone. -/
theorem call_single {env : Extern} {req : Request} {op : Op} {reply : op.Res → Reply}
    (single : req.single = some ⟨op, reply⟩) (now : Int) (s : Server) :
    call env now req s =
      (some (singleAnswer reply (Server.serial now op s).1), (Server.serial now op s).2) := by
  have handled : (req.handler env).map ExceptT.run = _ := Request.handler_single single
  obtain ⟨h, handler, run⟩ := Option.map_eq_some_iff.mp handled
  simp only [call, handler, run]
  rfl

end Serial

namespace System

variable {env : Extern}

/-- What workers do and a server with the clock at `now`, with nothing failing. -/
inductive Healthy (now : Int) (s : System env) : Action env → Prop where
  | serve {call op} (turn : s.next call = some op) :
      Healthy now s (.serve call ⟨now, none, s.server.selects op⟩)
  | startWorker {w config} : Healthy now s (.startWorker w config)
  | crashWorker {w} : Healthy now s (.crashWorker w)
  | worker {w ev} (delivered : ev.Delivered) : Healthy now s (.worker w ev)

variable {now : Int} {s t : System env} {w : String}

/-- The server serves a call to its end. -/
theorem serve_exec (now : Int) {n : Nat} {c : Call} {p : Program Op Op.Response Answer}
    (get : s.calls[n]? = some c) (program : c.program = some p) :
    ∃ log, Runs.Leads step (Healthy now) s
      { s with server := (p.exec (Server.serial now) s.server).2
               calls := s.calls.set n
                 { c with program := some (.ret (p.exec (Server.serial now) s.server).1) }
               log := log } := by
  induction p generalizing s c with
  | ret a =>
    have same : ({ c with program := some (.ret a) } : Call) = c := by rw [← program]
    have kept : s.calls.set n c = s.calls := by
      obtain ⟨bound, rfl⟩ := List.getElem?_eq_some_iff.mp get
      exact List.set_getElem_self bound
    refine ⟨s.log, ?_⟩
    simp only [Program.exec_ret, same, kept]
    exact Runs.Leads.refl s
  | call op k ih =>
    let ch : Choice := ⟨now, none, s.server.selects op⟩
    have turn : s.next n = some op := by simp [next, get, program]
    have moved : s.step (.serve n ch) = some (s.serve n ch c op k) := by simp [step, get, program]
    have get' : (s.serve n ch c op k).calls[n]? =
        some { c with program := some (k (s.server.act ch op).1) } := serve_get_self get
    obtain ⟨log, rest⟩ := ih (s.server.act ch op).1 get' rfl
    refine ⟨log, (Runs.Leads.refl s).snoc (.serve turn) moved |>.trans ?_⟩
    simpa only [serve, List.set_set, ← Server.serial_eq_act, Program.exec_call, ch] using rest

/-- A call that has been sent is served alone. -/
theorem serve_call (now : Int) {n : Nat} {cause : Option Nat} {req : Request} {x : Answer} {server : Server}
    (get : s.calls[n]? = some (Call.of env cause req))
    (served : Serial.call env now req s.server = (some x, server)) :
    ∃ t, Runs.Leads step (Healthy now) s t ∧ t.server = server ∧ t.answer n = some x ∧
      t.workers = s.workers ∧ t.plugins = s.plugins := by
  simp only [Serial.call] at served
  split at served
  · next h handler =>
    simp only [Prod.mk.injEq, Option.some.injEq] at served
    obtain ⟨rfl, rfl⟩ := served
    have program : (Call.of env cause req).program = some h.run := by simp [Call.of, handler]
    obtain ⟨log, leads⟩ := serve_exec now get program
    refine ⟨_, leads, rfl, ?_, rfl, rfl⟩
    obtain ⟨bound, -⟩ := List.getElem?_eq_some_iff.mp get
    simp [answer, bound, Call.answer]
  · cases served

/-! ## One worker and the server

`Brings` is what a run of the two comes to; the rest of the system does not matter. -/

def Brings (now : Int) (s : System env) (w : String) (server : Server) (process : LocalWorker) :
    Prop :=
  ∃ t, Runs.Leads step (Healthy now) s t ∧ t.server = server ∧ t.workers w = some process ∧
    t.plugins = s.plugins

variable {server server' : Server} {process process' : LocalWorker} {req : Request} {x : Answer}

theorem Brings.move (h : Brings now s w server process) (ev : LocalWorker.Event)
    (delivered : ev.Delivered)
    (moves : ∀ answer fresh, process.step env w answer fresh ev = some (process', none)) :
    Brings now s w server process' := by
  obtain ⟨t, leads, rfl, alive, plugins⟩ := h
  have moved : t.step (.worker w ev) = some ((t.send none none).setWorker w (some process')) := by
    simp [step, alive, moves]
  exact ⟨_, leads.snoc (.worker delivered) moved, rfl, setWorker_self, plugins⟩

/-- The process asks for something, is answered, and acts on it. -/
theorem Brings.ask (h : Brings now s w server process) (ev ev' : LocalWorker.Event)
    (asking : Nat → LocalWorker) (delivered : ev.Delivered ∧ ev'.Delivered)
    (asks : ∀ answer fresh, process.step env w answer fresh ev = some (asking fresh, some req))
    (served : Serial.call env now req server = (some x, server'))
    (hears : ∀ answer call fresh, answer call = some x →
      (asking call).step env w answer fresh ev' = some (process', none)) :
    Brings now s w server' process' := by
  obtain ⟨t, leads, rfl, alive, plugins⟩ := h
  let u := (t.send none (some req)).setWorker w (some (asking t.calls.length))
  have moved : t.step (.worker w ev) = some u := by simp [step, alive, asks, u]
  have sent : u.calls[t.calls.length]? = some (Call.of env none req) := send_get_new req
  obtain ⟨v, serves, rfl, answered, workers, plugins'⟩ := serve_call now sent served
  have alive' : v.workers w = some (asking t.calls.length) := by
    rw [workers]
    exact setWorker_self
  let after := (v.send none none).setWorker w (some process')
  have heard : v.step (.worker w ev') = some after := by
    simp [step, alive', hears _ _ _ answered, after]
  refine ⟨after, ?_, rfl, setWorker_self, ?_⟩
  · exact ((leads.snoc (.worker delivered.1) moved).trans serves).snoc (.worker delivered.2) heard
  · exact plugins'.trans plugins

/-- A process with its fetcher ticking and its executor free. -/
def ready (config : WorkerConfig) (count : BitVec 64) (unCompleted channel : List Task)
    (executions : List Execution) : LocalWorker where
  config := config
  count := count
  fetcher := .ticking unCompleted
  channel := channel
  executor := .selecting
  executions := executions
  results := []

/-- A new process of the worker id gets the tasks that are `Running` on it. -/
theorem begins (now : Int) (s : System env) (w : String) (config : WorkerConfig) :
    Brings now s w s.server
      (ready config 0 (DbOps.fetchUncompleted w s.server.tasks) [] []) := by
  obtain ⟨t, leads, server, dead, plugins⟩ : ∃ t, Runs.Leads step (Healthy now) s t ∧
      t.server = s.server ∧ t.workers w = none ∧ t.plugins = s.plugins := by
    cases alive : s.workers w with
    | none => exact ⟨s, .refl s, rfl, alive, rfl⟩
    | some process =>
      have crashed : s.step (.crashWorker w) = some (s.setWorker w none) := by simp [step, alive]
      exact ⟨_, (Runs.Leads.refl s).snoc .crashWorker crashed, rfl, setWorker_self, rfl⟩
  let started := LocalWorker.start config t.calls.length
  let u := (t.send none (some (.fetchUncompleted w))).setWorker w (some started)
  have moved : t.step (.startWorker w config) = some u := by simp [step, dead, u, started]
  have sent : u.calls[t.calls.length]? = some (Call.of env none (.fetchUncompleted w)) :=
    send_get_new _
  have uncompleted : (Request.fetchUncompleted w).single = some ⟨.fetchUncompleted w, .tasks⟩ := rfl
  obtain ⟨v, serves, server', answered, workers, plugins'⟩ := serve_call now sent
    (Serial.call_single uncompleted now u.server)
  have alive : v.workers w = some started := by
    rw [workers]
    exact setWorker_self
  let after := (v.send none none).setWorker w
    (some (ready config 0 (DbOps.fetchUncompleted w s.server.tasks) [] []))
  have heard : v.step (.worker w (.fetched .answered)) = some after := by
    have same : u.server = s.server := server
    simp [step, alive, started, LocalWorker.start, LocalWorker.step, Delivery.result, answered, same,
      Server.serial, Server.perform, singleAnswer, internalCallError, Except.mapError, Except.map,
      Except.bind, Reply.toTasks, after, ready]
  refine ⟨after, ?_, ?_, setWorker_self, ?_⟩
  · have delivered : (LocalWorker.Event.fetched .answered).Delivered := trivial
    exact ((leads.snoc .startWorker moved).trans serves).snoc (.worker delivered) heard
  · exact server'.trans server
  · exact plugins'.trans plugins

variable {config : WorkerConfig} {us vs ts ch rest : List Task} {es : List Execution} {count : BitVec 64}

/-- The fetcher sends the tasks at the end of its list, the last one first. -/
theorem Brings.push_all (room : ch.length + vs.length ≤ config.maxTask.toNat)
    (h : Brings now s w server (ready config (BitVec.ofNat 64 ch.length) (us ++ vs) ch [])) :
    Brings now s w server
      (ready config (BitVec.ofNat 64 (ch.length + vs.length)) us (ch ++ vs.reverse) []) := by
  induction vs using List.reverseRecOn generalizing ch with
  | nil => simpa using h
  | append_singleton vs v ih =>
    simp only [List.length_append, List.length_singleton] at room
    have below : ¬ config.maxTask ≤ BitVec.ofNat 64 ch.length := by
      have small := config.maxTask.isLt
      rw [BitVec.not_le, BitVec.lt_def, BitVec.toNat_ofNat, Nat.mod_eq_of_lt (by omega)]
      omega
    have fits : ch.length < config.maxTask.toNat := by omega
    have sending : Brings now s w server { ready config (BitVec.ofNat 64 ch.length) [] ch [] with
        fetcher := .sending (us ++ vs) v } := by
      refine h.move .tick trivial fun answer fresh => ?_
      simp [LocalWorker.step, ready, below, ← List.append_assoc]
    have pushed : Brings now s w server { ready config (BitVec.ofNat 64 ch.length) [] (ch ++ [v]) [] with
        fetcher := .counting (us ++ vs) } := by
      refine sending.move .push trivial fun answer fresh => ?_
      simp [LocalWorker.step, ready, fits]
    have counted : Brings now s w server
        (ready config (BitVec.ofNat 64 (ch ++ [v]).length) (us ++ vs) (ch ++ [v]) []) := by
      refine pushed.move .counted trivial fun answer fresh => ?_
      simp [LocalWorker.step, ready, BitVec.ofNat_add]
    have all := ih (by simp only [List.length_append, List.length_singleton]; omega) counted
    simpa [Nat.add_comm, Nat.add_left_comm] using all

/-- The executor takes the next task and reads its resource. -/
theorem Brings.receive {first : Task} {bytes : Bytes}
    (stored : server.resources.content first.resourceId = some bytes)
    (h : Brings now s w server (ready config count ts (first :: rest) es)) :
    Brings now s w server (ready config count ts rest (es ++ [.running first bytes])) := by
  have found : server.resources.getResourceInfo first.resourceId = .ok bytes :=
    ResourceStore.getResourceInfo_ok.mpr stored
  have single : (Request.getResourceInfo first.resourceId).single =
      some ⟨.getResourceInfo first.resourceId, fun bytes => .resource (Base64.encode bytes)⟩ := rfl
  refine h.ask .receive (.read .answered)
    (fun call => { ready config count ts rest es with executor := .preparing first 1 call })
    ⟨trivial, trivial⟩ ?_ (Serial.call_single single now server) ?_
  · intro answer fresh
    rfl
  · intro answer call fresh answered
    simp [LocalWorker.step, Delivery.result, answered, ready, Server.serial, Server.perform, found,
      singleAnswer, internalCallError, Except.mapError, Except.map, Except.bind, Reply.toResource,
      Base64.decode_encode]

/-- A task whose resource is not stored is given up after one read. -/
theorem Brings.giveUp {first : Task} (once : config.retrySum = 0)
    (absent : server.resources.content first.resourceId = none)
    (h : Brings now s w server (ready config count ts (first :: rest) es)) :
    Brings now s w server (ready config (count - 1) ts rest es) := by
  obtain ⟨e, missing⟩ : ∃ e, server.resources.getResourceInfo first.resourceId = .error e := by
    cases found : server.resources.getResourceInfo first.resourceId with
    | error e => exact ⟨e, rfl⟩
    | ok bytes =>
      rw [ResourceStore.getResourceInfo_ok.mp found] at absent
      cases absent
  have single : (Request.getResourceInfo first.resourceId).single =
      some ⟨.getResourceInfo first.resourceId, fun bytes => .resource (Base64.encode bytes)⟩ := rfl
  refine h.ask .receive (.read .answered)
    (fun call => { ready config count ts rest es with executor := .preparing first 1 call })
    ⟨trivial, trivial⟩ ?_ (Serial.call_single single now server) ?_
  · intro answer fresh
    rfl
  · intro answer call fresh answered
    simp [LocalWorker.step, Delivery.result, answered, ready, Server.serial, Server.perform, missing,
      singleAnswer, internalCallError, Except.mapError, Except.map, Except.bind, once]

theorem Brings.receive_all (once : config.retrySum = 0)
    (h : Brings now s w server (ready config count ts (ch ++ rest) es)) :
    ∃ count es, Brings now s w server (ready config count ts rest es) := by
  induction ch generalizing count es with
  | nil => exact ⟨count, es, h⟩
  | cons first ch ih =>
    cases stored : server.resources.content first.resourceId with
    | some bytes => exact ih (h.receive stored)
    | none => exact ih (h.giveUp once stored)

/-- The last execution ends and its result is recorded. -/
theorem Brings.finish {undoTask : Task} {bytes : Bytes} (seed : Nat)
    (served : Serial.call env now
      (LocalWorker.recordRequest w undoTask (LocalWorker.c2 env bytes seed)) server = (some x, server'))
    (h : Brings now s w server (ready config count ts ch (es ++ [.running undoTask bytes]))) :
    Brings now s w server' (ready config (count - 1) ts ch es) := by
  let result := LocalWorker.c2 env bytes seed
  have computed : Brings now s w server (ready config count ts ch (es ++ [.sending undoTask result])) := by
    refine h.move (.finish es.length seed) trivial fun answer fresh => ?_
    simp [LocalWorker.step, ready, result]
  have sent : Brings now s w server { ready config count ts ch es with
      results := [(undoTask, result)] } := by
    refine computed.move (.send es.length) trivial fun answer fresh => ?_
    simp [LocalWorker.step, ready, List.eraseIdx_append_of_length_le]
  refine sent.ask .take (.recorded .answered)
    (fun call => { ready config count ts ch es with executor := .recording undoTask call })
    ⟨trivial, trivial⟩ ?_ served ?_
  · intro answer fresh
    rfl
  · intro answer call fresh answered
    simp [LocalWorker.step, Delivery.result, answered, ready]

/-! ## What is left of the other tasks

While workers see to one task, `Init` tasks may be taken and nothing else happens to
the others. -/

structure Dispatched (now : Int) (s t : Server) : Prop where
  ids : t.tasks.rows.map Task.id = s.tasks.rows.map Task.id
  rows : ∀ k row, s.tasks.find k = some row → t.tasks.find k = some row ∨
    row.state = .init ∧ ∃ w, t.tasks.find k = some (DbOps.setRunning now w row)
  resources : t.resources = s.resources

theorem Dispatched.refl (now : Int) (s : Server) : Dispatched now s s :=
  ⟨rfl, fun _ _ found => .inl found, rfl⟩

theorem Dispatched.trans {s t u : Server} (h : Dispatched now s t) (h' : Dispatched now t u) :
    Dispatched now s u where
  ids := h'.ids.trans h.ids
  rows := by
    intro k row found
    rcases h.rows k row found with same | ⟨init, w, running⟩
    · exact h'.rows k row same
    · rcases h'.rows k _ running with same | ⟨again, -⟩
      · exact .inr ⟨init, w, same⟩
      · cases again
  resources := h'.resources.trans h.resources

theorem claim_dispatched (now : Int) (w tid : String) (s : Server) :
    Dispatched now s { s with tasks := (DbOps.claim now w tid s.tasks).2 } where
  ids := Table.keys_updateWhere s.tasks _ _ (DbOps.key_setRunning now w)
  rows := by
    intro k row found
    simp only [DbOps.find_claim, found, Option.map_some, Option.some.injEq]
    by_cases claimed : k = tid ∧ row.state = .init
    · exact .inr ⟨claimed.2, w, if_pos claimed⟩
    · exact .inl (if_neg claimed)
  resources := rfl

def waiting (tasks : DbOps.Tasks) : Nat := tasks.count fun t => decide (t.state = .init)

theorem claim_waiting {tasks : DbOps.Tasks} {row : Task} (found : tasks.find row.id = some row)
    (init : row.state = .init) : waiting (DbOps.claim now w row.id tasks).2 < waiting tasks := by
  apply Table.count_updateWhere_lt (DbOps.key_setRunning now w) (Table.find_some.mp found).1
  · simp [init]
  · simp [DbOps.isClaimable, init, DbOps.setRunning]
  · intro t _
    split
    · simp [DbOps.setRunning]
    · exact id

/-- A worker id that no task is assigned to. -/
theorem exists_unassigned (tasks : DbOps.Tasks) : ∃ w, DbOps.fetchUncompleted w tasks = [] := by
  let w := String.ofList (List.replicate ((tasks.rows.map fun t => t.workerId.length).sum + 1) 'w')
  refine ⟨w, List.eq_nil_iff_forall_not_mem.mpr fun t listed => ?_⟩
  obtain ⟨found, -, assigned⟩ := DbOps.mem_fetchUncompleted.mp listed
  have there : t ∈ tasks.rows := (Table.find_some.mp found).1
  have short : t.workerId.length ≤ (tasks.rows.map fun t => t.workerId.length).sum :=
    List.single_le_sum (by simp) _ (List.mem_map_of_mem there)
  rw [assigned] at short
  simp [w] at short

/-- A new worker takes the task that `fetch_one_todo` selects. -/
theorem fetches (now : Int) (s : System env) {row : Task}
    (selected : DbOps.selectTodo none s.server.tasks = some row) :
    ∃ t w, Runs.Leads step (Healthy now) s t ∧ t.plugins = s.plugins ∧
      t.server = { s.server with tasks := (DbOps.claim now w row.id s.server.tasks).2 } := by
  obtain ⟨w, unassigned⟩ := exists_unassigned s.server.tasks
  let config : WorkerConfig := ⟨1, by decide, none, 0⟩
  have begun := begins now s w config
  rw [unassigned] at begun
  obtain ⟨found, todo, -⟩ := DbOps.selectTodo_some selected
  have init := DbOps.isTodo_init todo
  have single : (Request.fetchTodo w none).single = some ⟨.fetchOneTodo w none, .task⟩ := rfl
  have served : Serial.call env now (.fetchTodo w none) s.server = _ :=
    Serial.call_single single now s.server
  have dispatched : DbOps.fetchOneTodo now w none s.server.tasks =
      (.ok (DbOps.setRunning now w row), (DbOps.claim now w row.id s.server.tasks).2) := by
    rw [DbOps.fetchOneTodo, selected]
    rcases DbOps.fetchSelected_cases now w s.server.tasks (some row) with
      ⟨u, t, same, there, -, result⟩ | ⟨e, -, taken⟩
    · cases same
      rw [found] at there
      cases there
      exact result
    · exact absurd init (taken row rfl row found)
  rw [Server.serial_fetchOneTodo, dispatched] at served
  have fetched : Brings now s w
      { s.server with tasks := (DbOps.claim now w row.id s.server.tasks).2 }
      { ready config 0 [] [] [] with fetcher := .sending [] (DbOps.setRunning now w row) } := by
    refine begun.ask .tick (.fetched .answered)
      (fun call => { ready config 0 [] [] [] with fetcher := .fetching call })
      ⟨trivial, trivial⟩ ?_ served ?_
    · intro answer fresh
      rfl
    · intro answer call fresh answered
      simp [LocalWorker.step, Delivery.result, answered, ready, singleAnswer, internalCallError,
        Except.mapError, Except.map, Except.bind, Reply.toTask]
  obtain ⟨t, leads, server, -, plugins⟩ := fetched
  exact ⟨t, w, leads, plugins, server⟩

/-- Whatever is in front of it, an `Init` task comes to run. -/
theorem comes_to_run (now : Int) (s : System env) {row : Task}
    (found : s.server.tasks.find row.id = some row) (init : row.state = .init) :
    ∃ t w, Runs.Leads step (Healthy now) s t ∧ t.plugins = s.plugins ∧
      Dispatched now s.server t.server ∧
      t.server.tasks.find row.id = some (DbOps.setRunning now w row) := by
  -- one `Init` task less with every fetch
  generalize bound : waiting s.server.tasks = n
  induction n using Nat.strongRecOn generalizing s with
  | ind n ih =>
    cases selected : DbOps.selectTodo none s.server.tasks with
    | none =>
      have skipped := DbOps.selectTodo_none selected row found
      simp [DbOps.isTodo, init] at skipped
    | some first =>
      obtain ⟨there, todo, -⟩ := DbOps.selectTodo_some selected
      have firstInit := DbOps.isTodo_init todo
      obtain ⟨t, w, leads, plugins, server⟩ := fetches now s selected
      have dispatched : Dispatched now s.server t.server := by
        rw [server]
        exact claim_dispatched now w first.id s.server
      by_cases own : row.id = first.id
      · rw [← own, found] at there
        cases there
        refine ⟨t, w, leads, plugins, dispatched, ?_⟩
        simp [server, DbOps.find_claim, found, init]
      · have kept : t.server.tasks.find row.id = some row := by
          simp [server, DbOps.find_claim, found, own]
        have fewer : waiting t.server.tasks < n := by
          rw [server, ← bound]
          exact claim_waiting there firstInit
        obtain ⟨u, v, leads', plugins', dispatched', running⟩ := ih _ fewer t kept rfl
        exact ⟨u, v, leads.trans leads', plugins'.trans plugins, dispatched.trans dispatched', running⟩

/-- One task shows its result, its resource may be gone, and the others are left alone. -/
structure Finished (now : Int) (row : Task) (result : Except String Bytes) (s t : Server) : Prop where
  ids : t.tasks.rows.map Task.id = s.tasks.rows.map Task.id
  shows : ∃ row', t.tasks.find row.id = some row' ∧ row'.Shows result
  rows : ∀ k other, k ≠ row.id → s.tasks.find k = some other → t.tasks.find k = some other ∨
    other.state = .init ∧ ∃ w, t.tasks.find k = some (DbOps.setRunning now w other)
  contents : ∀ rid, rid ≠ row.resourceId → t.resources.content rid = s.resources.content rid

theorem record_finishes (env : Extern) (now : Int) (w : String) {row : Task} {s : Server}
    (found : s.tasks.find row.id = some row) (result : Except String Bytes) :
    Finished now row result s
      (Serial.call env now (LocalWorker.recordRequest w row result) s).2 := by
  cases result with
  | ok proof =>
    have effect : (Serial.call env now (.recordProof w row.id (Base64.encode proof)) s).2 = _ :=
      Serial.call_recordProof (Base64.decode_encode proof)
    simp only [found] at effect
    simp only [LocalWorker.recordRequest, effect]
    refine ⟨Table.keys_updateWhere s.tasks _ _ (DbOps.key_setCompleted now w proof), ?_, ?_, ?_⟩
    · exact ⟨DbOps.setCompleted now w proof row, by simp [DbOps.find_recordProof, found], rfl, rfl⟩
    · intro k other ne there
      exact .inl (by simp [DbOps.find_recordProof, there, ne])
    · intro rid ne
      simp [ResourceStore.content_deleteResource, ne]
  | error e =>
    simp only [LocalWorker.recordRequest, Serial.call_recordError]
    refine ⟨Table.keys_updateWhere s.tasks _ _ (DbOps.key_setError w e), ?_, ?_, fun _ _ => rfl⟩
    · exact ⟨DbOps.setError w e row, by simp [DbOps.find_recordError, found], rfl, rfl⟩
    · intro k other ne there
      exact .inl (by simp [DbOps.find_recordError, there, ne])

theorem record_answered (env : Extern) (now : Int) (w : String) (row : Task) (result : Except String Bytes)
    (s : Server) :
    ∃ x, (Serial.call env now (LocalWorker.recordRequest w row result) s).1 = some x := by
  cases result with
  | ok proof => simp [Serial.call, LocalWorker.recordRequest, Request.handler, Base64.decode_encode]
  | error e => simp [Serial.call, LocalWorker.recordRequest, Request.handler]

/-- A process restarted under the id the task runs on finishes it. -/
theorem finishes_running (now : Int) (seed : Nat) (s : System env) {row : Task} {bytes : Bytes}
    (found : s.server.tasks.find row.id = some row) (running : row.state = .running)
    (stored : s.server.resources.content row.resourceId = some bytes)
    (fits : s.server.tasks.rows.length < 2 ^ 61) :
    ∃ t, Runs.Leads step (Healthy now) s t ∧ t.plugins = s.plugins ∧
      Finished now row (LocalWorker.c2 env bytes seed) s.server t.server := by
  let n := s.server.tasks.rows.length
  have size : (BitVec.ofNat 64 (n + 1)).toNat = n + 1 := by
    rw [BitVec.toNat_ofNat]
    exact Nat.mod_eq_of_lt (by omega)
  let config : WorkerConfig := ⟨BitVec.ofNat 64 (n + 1), by rw [BitVec.lt_def, size]; simp, none, 0⟩
  have begun := begins now s row.workerId config
  have listed : row ∈ DbOps.fetchUncompleted row.workerId s.server.tasks :=
    DbOps.mem_fetchUncompleted.mpr ⟨found, running, rfl⟩
  obtain ⟨us, vs, split⟩ := List.append_of_mem listed
  have short : (row :: vs).length ≤ n := by
    have sorted : (DbOps.fetchUncompleted row.workerId s.server.tasks).length ≤ n := by
      simp only [DbOps.fetchUncompleted, Table.selectBy, List.length_insertionSort]
      exact List.length_filter_le _ _
    rw [split, List.length_append] at sorted
    omega
  rw [split] at begun
  have room : ([] : List Task).length + (row :: vs).length ≤ config.maxTask.toNat := by
    change 0 + (row :: vs).length ≤ (BitVec.ofNat 64 (n + 1)).toNat
    omega
  have pushed := begun.push_all room
  simp only [List.nil_append, List.reverse_cons] at pushed
  obtain ⟨count, es, reached⟩ := pushed.receive_all rfl
  have received := reached.receive stored
  obtain ⟨x, answered⟩ := record_answered env now row.workerId row
    (LocalWorker.c2 env bytes seed) s.server
  obtain ⟨t, leads, server, -, plugins⟩ := received.finish seed (Prod.ext answered rfl)
  refine ⟨t, leads, plugins, ?_⟩
  rw [server]
  exact record_finishes env now row.workerId found _

/-! ## From every state -/

variable {row : Task} {bytes : Bytes}

theorem finishes (now : Int) (seed : Nat) (s : System env)
    (found : s.server.tasks.find row.id = some row) (opened : row.Open)
    (stored : s.server.resources.content row.resourceId = some bytes)
    (fits : s.server.tasks.rows.length < 2 ^ 61) :
    ∃ t, Runs.Leads step (Healthy now) s t ∧ t.plugins = s.plugins ∧
      Finished now row (LocalWorker.c2 env bytes seed) s.server t.server := by
  rcases opened with init | running
  · obtain ⟨t, w, leads, plugins, dispatched, started⟩ := comes_to_run now s found init
    have same : t.server.tasks.rows.length = s.server.tasks.rows.length := by
      simpa using congrArg List.length dispatched.ids
    have stored' : t.server.resources.content (DbOps.setRunning now w row).resourceId = some bytes := by
      rw [dispatched.resources]
      exact stored
    obtain ⟨u, leads', plugins', finished⟩ :=
      finishes_running now seed t started rfl stored' (by omega)
    refine ⟨u, leads.trans leads', plugins'.trans plugins, finished.ids.trans dispatched.ids,
      finished.shows, ?_, ?_⟩
    · intro k other ne there
      rcases dispatched.rows k other there with kept | ⟨init, v, running⟩
      · exact finished.rows k other ne kept
      · rcases finished.rows k _ ne running with kept | ⟨again, -⟩
        · exact .inr ⟨init, v, kept⟩
        · cases again
    · intro rid ne
      rw [finished.contents rid ne, dispatched.resources]
  · exact finishes_running now seed s found running stored fits

end System

end GpuProxy
