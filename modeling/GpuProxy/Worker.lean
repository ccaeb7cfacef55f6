import GpuProxy.Rpc
import Mathlib.Data.List.Perm.Subperm

/-!
# A worker process

`process_tasks` is three activities over shared queues: the fetcher, the
executor loop, and one spawned execution per task. `step` is one action of one
of them; the event says which, and how a call or an execution ends. A call is
known by its number, and `answer` is what the server has answered so far.
-/

namespace GpuProxy

/-- How a call ends at its caller: with the server's answer, or with an error of
the transport, whatever became of the call on the server. -/
inductive Delivery where
  | answered
  | failed (message : String)
  deriving DecidableEq, Repr

def Delivery.result (answer : Option Answer) : Delivery → Option (Except String Reply)
  | .answered => answer.map (Except.mapError RpcError.message)
  | .failed message => some (.error message)

namespace Reply

/-- A reply of another kind does not parse. -/
def parseError : String := "parse error"

def toTask : Reply → Except String Task
  | task t => .ok t
  | _ => .error parseError

def toTasks : Reply → Except String (List Task)
  | tasks ts => .ok ts
  | _ => .error parseError

def toResource : Reply → Except String Bytes
  | resource data =>
    match Base64.decode data with
    | some bytes => .ok bytes
    | none => .error parseError
  | _ => .error parseError

end Reply

/-- The task that fetches. Where `starting` fails, `expect` ends it. -/
inductive Fetcher where
  | starting (call : Nat)
  | ticking (unCompleted : List Task)
  | fetching (call : Nat)
  | sending (unCompleted : List Task) (selectTask : Task)
  | counting (unCompleted : List Task)
  | dead
  deriving DecidableEq, Repr

/-- The executor loop. A resource is read by `Proof.GetResourceInfo`, or by the
same storage call on the directory the worker shares with the server. -/
inductive Executor where
  | selecting
  | preparing (undoTask : Task) (retryCount : UInt32) (call : Nat)
  | recording (undoTask : Task) (call : Nat)
  deriving DecidableEq, Repr

/-- A spawned execution: computing, or waiting to send its result. -/
inductive Execution where
  | running (undoTask : Task) (resource : Bytes)
  | sending (undoTask : Task) (result : Except String Bytes)
  deriving DecidableEq, Repr

/-- `bits` is the size of a `usize`. -/
structure WorkerConfig (bits : Nat := 64) where
  /-- A `usize`, at least one: it is the capacity of a channel. -/
  maxTask : BitVec bits
  positive : 0 < maxTask
  allowTypes : Option (List TaskType)
  retrySum : UInt32

structure LocalWorker (bits : Nat := 64) where
  config : WorkerConfig bits
  count : BitVec bits
  fetcher : Fetcher
  /-- Tasks sent and not yet received, the oldest first. -/
  channel : List Task
  executor : Executor
  executions : List Execution
  /-- The result channel, of capacity one. -/
  results : List (Task × Except String Bytes)

namespace LocalWorker

variable {bits : Nat}

inductive Event where
  /-- The fetcher's call ends. -/
  | fetched (d : Delivery)
  | tick
  | push
  | counted
  | receive
  /-- The executor's resource read ends. -/
  | read (d : Delivery)
  | finish (i seed : Nat)
  | send (i : Nat)
  | take
  /-- The executor's record call ends. -/
  | recorded (d : Delivery)
  deriving DecidableEq, Repr

/-- The worker starts by asking for the tasks it had; `call` is that request. -/
def start (config : WorkerConfig bits) (call : Nat) : LocalWorker bits where
  config := config
  count := 0
  fetcher := .starting call
  channel := []
  executor := .selecting
  executions := []
  results := []

/-- What a spawned execution computes. -/
def c2 (env : Extern) (resource : Bytes) (seed : Nat) : Except String Bytes :=
  match C2Resource.fromSlice env resource with
  | .ok r => env.sealCommitPhase2 r.c1out r.proverId r.sectorId seed
  | .error _ => .error "deserialize c2 resource"

/-- The call that records a result. -/
def recordRequest (workerId : String) (undoTask : Task) : Except String Bytes → Request
  | .ok proof => .recordProof workerId undoTask.id (Base64.encode proof)
  | .error e => .recordError workerId undoTask.id e

variable (env : Extern) (workerId : String) (answer : Nat → Option Answer) (fresh : Nat)

/-- One action, with the request it sends. That request will be call `fresh`. -/
def step (self : LocalWorker bits) : Event → Option (LocalWorker bits × Option Request)
  | .fetched d =>
    match self.fetcher with
    | .starting call =>
      (d.result (answer call)).map fun r =>
        match r.bind Reply.toTasks with
        | .ok unCompleted => ({ self with fetcher := .ticking unCompleted }, none)
        | .error _ => ({ self with fetcher := .dead }, none)
    | .fetching call =>
      (d.result (answer call)).map fun r =>
        match r.bind Reply.toTask with
        | .ok selectTask => ({ self with fetcher := .sending [] selectTask }, none)
        | .error _ => ({ self with fetcher := .ticking [] }, none)
    | _ => none
  | .tick =>
    match self.fetcher with
    | .ticking unCompleted =>
      if self.config.maxTask ≤ self.count then some (self, none)
      else
        match unCompleted.getLast? with
        | some selectTask =>
          some ({ self with fetcher := .sending unCompleted.dropLast selectTask }, none)
        | none =>
          some ({ self with fetcher := .fetching fresh },
            some (.fetchTodo workerId self.config.allowTypes))
    | _ => none
  | .push =>
    match self.fetcher with
    | .sending unCompleted selectTask =>
      if self.channel.length < self.config.maxTask.toNat then
        some ({ self with fetcher := .counting unCompleted
                          channel := self.channel ++ [selectTask] }, none)
      else none
    | _ => none
  | .counted =>
    match self.fetcher with
    | .counting unCompleted =>
      some ({ self with fetcher := .ticking unCompleted, count := self.count + 1 }, none)
    | _ => none
  | .receive =>
    match self.executor, self.channel with
    | .selecting, undoTask :: rest =>
      some ({ self with executor := .preparing undoTask 1 fresh, channel := rest },
        some (.getResourceInfo undoTask.resourceId))
    | _, _ => none
  | .read d =>
    match self.executor with
    | .preparing undoTask retryCount call =>
      (d.result (answer call)).map fun r =>
        match r.bind Reply.toResource with
        | .ok resource =>
          ({ self with executor := .selecting
                       executions := self.executions ++ [.running undoTask resource] }, none)
        | .error _ =>
          if retryCount ≤ self.config.retrySum then
            ({ self with executor := .preparing undoTask (retryCount + 1) fresh },
              some (.getResourceInfo undoTask.resourceId))
          -- `continue`: nothing is recorded for the task
          else ({ self with executor := .selecting, count := self.count - 1 }, none)
    | _ => none
  | .finish i seed =>
    match self.executions[i]? with
    | some (.running undoTask resource) =>
      some ({ self with
        executions := self.executions.set i (.sending undoTask (c2 env resource seed)) }, none)
    | _ => none
  | .send i =>
    match self.executions[i]? with
    | some (.sending undoTask result) =>
      if self.results.length < 1 then
        some ({ self with executions := self.executions.eraseIdx i
                          results := self.results ++ [(undoTask, result)] }, none)
      else none
    | _ => none
  | .take =>
    match self.executor, self.results with
    | .selecting, (undoTask, result) :: rest =>
      some ({ self with executor := .recording undoTask fresh, results := rest },
        some (recordRequest workerId undoTask result))
    | _, _ => none
  | .recorded d =>
    match self.executor with
    | .recording _ call =>
      (d.result (answer call)).map fun _ =>
        ({ self with executor := .selecting, count := self.count - 1 }, none)
    | _ => none

/-- Everything a step can do. -/
inductive Step (self : LocalWorker bits) : Event → LocalWorker bits → Option Request → Prop where
  | started {d call r unCompleted} (fetcher : self.fetcher = .starting call)
      (ends : d.result (answer call) = some (.ok r)) (reply : r.toTasks = .ok unCompleted) :
      Step self (.fetched d) { self with fetcher := .ticking unCompleted } none
  | startFailed {d call r e} (fetcher : self.fetcher = .starting call)
      (ends : d.result (answer call) = some r) (reply : r.bind Reply.toTasks = .error e) :
      Step self (.fetched d) { self with fetcher := .dead } none
  | fetched {d call r selectTask} (fetcher : self.fetcher = .fetching call)
      (ends : d.result (answer call) = some (.ok r)) (reply : r.toTask = .ok selectTask) :
      Step self (.fetched d) { self with fetcher := .sending [] selectTask } none
  | fetchFailed {d call r e} (fetcher : self.fetcher = .fetching call)
      (ends : d.result (answer call) = some r) (reply : r.bind Reply.toTask = .error e) :
      Step self (.fetched d) { self with fetcher := .ticking [] } none
  | full {unCompleted} (fetcher : self.fetcher = .ticking unCompleted)
      (full : self.config.maxTask ≤ self.count) : Step self .tick self none
  | pop {unCompleted selectTask} (fetcher : self.fetcher = .ticking (unCompleted ++ [selectTask]))
      (room : ¬ self.config.maxTask ≤ self.count) :
      Step self .tick { self with fetcher := .sending unCompleted selectTask } none
  | fetch (fetcher : self.fetcher = .ticking []) (room : ¬ self.config.maxTask ≤ self.count) :
      Step self .tick { self with fetcher := .fetching fresh }
        (some (.fetchTodo workerId self.config.allowTypes))
  | push {unCompleted selectTask} (fetcher : self.fetcher = .sending unCompleted selectTask)
      (room : self.channel.length < self.config.maxTask.toNat) :
      Step self .push { self with fetcher := .counting unCompleted
                                  channel := self.channel ++ [selectTask] } none
  | counted {unCompleted} (fetcher : self.fetcher = .counting unCompleted) :
      Step self .counted { self with fetcher := .ticking unCompleted, count := self.count + 1 } none
  | receive {undoTask rest} (executor : self.executor = .selecting)
      (channel : self.channel = undoTask :: rest) :
      Step self .receive { self with executor := .preparing undoTask 1 fresh, channel := rest }
        (some (.getResourceInfo undoTask.resourceId))
  | read {d undoTask retryCount call r resource}
      (executor : self.executor = .preparing undoTask retryCount call)
      (ends : d.result (answer call) = some (.ok r)) (reply : r.toResource = .ok resource) :
      Step self (.read d) { self with
        executor := .selecting
        executions := self.executions ++ [.running undoTask resource] } none
  | retry {d undoTask retryCount call r e}
      (executor : self.executor = .preparing undoTask retryCount call)
      (ends : d.result (answer call) = some r) (reply : r.bind Reply.toResource = .error e)
      (more : retryCount ≤ self.config.retrySum) :
      Step self (.read d) { self with executor := .preparing undoTask (retryCount + 1) fresh }
        (some (.getResourceInfo undoTask.resourceId))
  | giveUp {d undoTask retryCount call r e}
      (executor : self.executor = .preparing undoTask retryCount call)
      (ends : d.result (answer call) = some r) (reply : r.bind Reply.toResource = .error e)
      (last : ¬ retryCount ≤ self.config.retrySum) :
      Step self (.read d) { self with executor := .selecting, count := self.count - 1 } none
  | finish {i seed undoTask resource} (execution : self.executions[i]? = some (.running undoTask resource)) :
      Step self (.finish i seed) { self with
        executions := self.executions.set i (.sending undoTask (c2 env resource seed)) } none
  | send {i undoTask result} (execution : self.executions[i]? = some (.sending undoTask result))
      (empty : self.results = []) :
      Step self (.send i) { self with executions := self.executions.eraseIdx i
                                      results := [(undoTask, result)] } none
  | take {undoTask result rest} (executor : self.executor = .selecting)
      (results : self.results = (undoTask, result) :: rest) :
      Step self .take { self with executor := .recording undoTask fresh, results := rest }
        (some (recordRequest workerId undoTask result))
  | recorded {d undoTask call r} (executor : self.executor = .recording undoTask call)
      (ends : d.result (answer call) = some r) :
      Step self (.recorded d) { self with executor := .selecting, count := self.count - 1 } none

variable {env workerId answer fresh} {self self' : LocalWorker bits} {sent : Option Request} {ev : Event}

theorem step_cases (h : self.step env workerId answer fresh ev = some (self', sent)) :
    Step env workerId answer fresh self ev self' sent := by
  cases ev with
  | fetched d =>
    simp only [step] at h
    split at h
    · next call fetcher =>
      obtain ⟨r, ends, h⟩ := Option.map_eq_some_iff.mp h
      split at h
      · next unCompleted reply =>
        cases h
        cases r with
        | error e => cases reply
        | ok r => exact .started fetcher ends reply
      · next e reply =>
        cases h
        exact .startFailed fetcher ends reply
    · next call fetcher =>
      obtain ⟨r, ends, h⟩ := Option.map_eq_some_iff.mp h
      split at h
      · next selectTask reply =>
        cases h
        cases r with
        | error e => cases reply
        | ok r => exact .fetched fetcher ends reply
      · next e reply =>
        cases h
        exact .fetchFailed fetcher ends reply
    · cases h
  | tick =>
    simp only [step] at h
    split at h
    · next unCompleted fetcher =>
      split at h
      · next full =>
        cases h
        exact .full fetcher full
      · next room =>
        split at h
        · next selectTask last =>
          cases h
          refine .pop ?_ room
          rw [fetcher, List.dropLast_append_getLast? selectTask last]
        · next last =>
          cases h
          rw [List.getLast?_eq_none_iff.mp last] at fetcher
          exact .fetch fetcher room
    · cases h
  | push =>
    simp only [step] at h
    split at h
    · next unCompleted selectTask fetcher =>
      split at h
      · next room =>
        cases h
        exact .push fetcher room
      · cases h
    · cases h
  | counted =>
    simp only [step] at h
    split at h
    · next unCompleted fetcher =>
      cases h
      exact .counted fetcher
    · cases h
  | receive =>
    simp only [step] at h
    split at h
    · next undoTask rest executor channel =>
      cases h
      exact .receive executor channel
    · cases h
  | read d =>
    simp only [step] at h
    split at h
    · next undoTask retryCount call executor =>
      obtain ⟨r, ends, h⟩ := Option.map_eq_some_iff.mp h
      split at h
      · next resource reply =>
        cases h
        cases r with
        | error e => cases reply
        | ok r => exact .read executor ends reply
      · next e reply =>
        split at h
        · next more =>
          cases h
          exact .retry executor ends reply more
        · next last =>
          cases h
          exact .giveUp executor ends reply last
    · cases h
  | finish i seed =>
    simp only [step] at h
    split at h
    · next undoTask resource execution =>
      cases h
      exact .finish execution
    · cases h
  | send i =>
    simp only [step] at h
    split at h
    · next undoTask result execution =>
      split at h
      · next room =>
        have empty : self.results = [] := List.eq_nil_of_length_eq_zero (by omega)
        cases h
        rw [empty]
        exact .send execution empty
      · cases h
    · cases h
  | take =>
    simp only [step] at h
    split at h
    · next undoTask result rest executor results =>
      cases h
      exact .take executor results
    · cases h
  | recorded d =>
    simp only [step] at h
    split at h
    · next undoTask call executor =>
      obtain ⟨r, ends, h⟩ := Option.map_eq_some_iff.mp h
      cases h
      exact .recorded executor ends
    · cases h

/-! ## The tasks in hand

A task moves from one place of the process to the next. It comes in with an
answer and leaves at the end of its record call, or where the reads give up. -/

end LocalWorker

def Fetcher.tasks : Fetcher → List Task
  | ticking unCompleted | counting unCompleted => unCompleted
  | sending unCompleted selectTask => unCompleted ++ [selectTask]
  | _ => []

def Executor.tasks : Executor → List Task
  | selecting => []
  | preparing undoTask _ _ | recording undoTask _ => [undoTask]

def Execution.task : Execution → Task
  | running undoTask _ | sending undoTask _ => undoTask

namespace LocalWorker

variable {bits : Nat}

def held (self : LocalWorker bits) : List Task :=
  self.fetcher.tasks ++ self.channel ++ self.executor.tasks ++ self.executions.map Execution.task ++
    self.results.map Prod.fst

/-- The tasks in an answer the fetcher waits for. -/
def incoming (answer : Nat → Option Answer) (self : LocalWorker bits) : List Task :=
  match self.fetcher with
  | .starting call =>
    match answer call with
    | some (.ok (.tasks ts)) => ts
    | _ => []
  | .fetching call =>
    match answer call with
    | some (.ok (.task t)) => [t]
    | _ => []
  | _ => []

def received (answer : Nat → Option Answer) (self : LocalWorker bits) : Event → List Task
  | .fetched .answered => self.incoming answer
  | _ => []

/-- The task whose last read failed. -/
def abandoned (answer : Nat → Option Answer) (self : LocalWorker bits) : Event → List Task
  | .read d =>
    match self.executor with
    | .preparing undoTask retryCount call =>
      match d.result (answer call) with
      | some r =>
        match r.bind Reply.toResource with
        | .ok _ => []
        | .error _ => if retryCount ≤ self.config.retrySum then [] else [undoTask]
      | none => []
    | _ => []
  | _ => []

/-- The task whose record call ends. -/
def settled (self : LocalWorker bits) : Event → List Task
  | .recorded _ =>
    match self.executor with
    | .recording undoTask _ => [undoTask]
    | _ => []
  | _ => []

theorem held_start (config : WorkerConfig bits) (call : Nat) : (start config call).held = [] := rfl

theorem result_answered {a : Option Answer} {d : Delivery} {r : Reply}
    (ends : d.result a = some (.ok r)) : d = .answered ∧ a = some (.ok r) := by
  cases d with
  | failed message => cases ends
  | answered =>
    obtain ⟨b, rfl, hb⟩ := Option.map_eq_some_iff.mp ends
    cases b with
    | error e => cases hb
    | ok r' => cases hb; exact ⟨rfl, rfl⟩

theorem toTask_ok {r : Reply} {t : Task} (h : r.toTask = .ok t) : r = .task t := by
  cases r <;> simp_all [Reply.toTask]

theorem toTasks_ok {r : Reply} {ts : List Task} (h : r.toTasks = .ok ts) : r = .tasks ts := by
  cases r <;> simp_all [Reply.toTasks]

theorem perm_executions {l : List Execution} {i : Nat} {e : Execution} (h : l[i]? = some e) :
    (l.map Execution.task).Perm (e.task :: (l.eraseIdx i).map Execution.task) := by
  obtain ⟨hi, rfl⟩ := List.getElem?_eq_some_iff.mp h
  exact ((List.getElem_cons_eraseIdx_perm hi).map Execution.task).symm

theorem map_task_set {l : List Execution} {i : Nat} {e e' : Execution} (h : l[i]? = some e)
    (same : e'.task = e.task) : (l.set i e').map Execution.task = l.map Execution.task := by
  obtain ⟨hi, rfl⟩ := List.getElem?_eq_some_iff.mp h
  have bound : i < (l.map Execution.task).length := by simpa using hi
  have unchanged := List.set_getElem_self bound
  rw [List.getElem_map] at unchanged
  rw [List.map_set, same, unchanged]

variable {env : Extern} {workerId : String} {answer : Nat → Option Answer} {fresh : Nat}
  {self self' : LocalWorker bits} {sent : Option Request} {ev : Event} {d : Delivery} {call : Nat}

/-- A call that fails, or whose answer does not parse, brings nothing. -/
theorem received_startFailed {r : Except String Reply} {e : String}
    (fetcher : self.fetcher = .starting call) (ends : d.result (answer call) = some r)
    (reply : r.bind Reply.toTasks = .error e) : self.received answer (.fetched d) = [] := by
  cases d with
  | failed message => rfl
  | answered =>
    simp only [received, incoming, fetcher]
    split
    · next ts ha =>
      rw [ha] at ends
      cases ends
      cases reply
    · rfl

theorem received_fetchFailed {r : Except String Reply} {e : String}
    (fetcher : self.fetcher = .fetching call) (ends : d.result (answer call) = some r)
    (reply : r.bind Reply.toTask = .error e) : self.received answer (.fetched d) = [] := by
  cases d with
  | failed message => rfl
  | answered =>
    simp only [received, incoming, fetcher]
    split
    · next t ha =>
      rw [ha] at ends
      cases ends
      cases reply
    · rfl

/-- No task is lost or doubled: a step moves the tasks in hand, takes in what its
call received, and lets go of what it abandons or has recorded. -/
theorem Step.accounts (h : Step env workerId answer fresh self ev self' sent) :
    (self.held ++ self.received answer ev).Perm
      (self'.held ++ (self.abandoned answer ev ++ self.settled ev)) := by
  cases h with
  | started fetcher ends reply =>
    obtain ⟨rfl, ha⟩ := result_answered ends
    cases toTasks_ok reply
    simp only [held, received, incoming, abandoned, settled, fetcher, ha, Fetcher.tasks,
      List.perm_iff_count, List.count_append, List.count_nil]
    omega
  | startFailed fetcher ends reply =>
    rw [received_startFailed fetcher ends reply]
    simp [held, abandoned, settled, fetcher, Fetcher.tasks]
  | fetched fetcher ends reply =>
    obtain ⟨rfl, ha⟩ := result_answered ends
    cases toTask_ok reply
    simp only [held, received, incoming, abandoned, settled, fetcher, ha, Fetcher.tasks,
      List.perm_iff_count, List.count_append, List.count_nil]
    omega
  | fetchFailed fetcher ends reply =>
    rw [received_fetchFailed fetcher ends reply]
    simp [held, abandoned, settled, fetcher, Fetcher.tasks]
  | full fetcher full => simp [received, abandoned, settled]
  | pop fetcher room => simp [held, received, abandoned, settled, fetcher, Fetcher.tasks]
  | fetch fetcher room => simp [held, received, abandoned, settled, fetcher, Fetcher.tasks]
  | push fetcher room =>
    simp only [held, received, abandoned, settled, fetcher, Fetcher.tasks, List.perm_iff_count,
      List.count_append, List.count_nil]
    omega
  | counted fetcher => simp [held, received, abandoned, settled, fetcher, Fetcher.tasks]
  | receive executor channel =>
    simp only [held, received, abandoned, settled, executor, channel, Executor.tasks,
      List.perm_iff_count, List.count_append, List.count_cons, List.count_nil]
    omega
  | read executor ends reply =>
    simp only [held, received, abandoned, settled, executor, ends, Except.bind, reply,
      Executor.tasks, Execution.task, List.map_append, List.map_cons, List.map_nil,
      List.perm_iff_count, List.count_append, List.count_nil]
    omega
  | retry executor ends reply more =>
    simp [held, received, abandoned, settled, executor, ends, reply, more, Executor.tasks]
  | giveUp executor ends reply last =>
    simp only [held, received, abandoned, settled, executor, ends, reply, last, ↓reduceIte,
      Executor.tasks, List.perm_iff_count, List.count_append, List.count_nil]
    omega
  | @finish i seed undoTask resource execution =>
    have same : (self.executions.set i (.sending undoTask (c2 env resource seed))).map
        Execution.task = self.executions.map Execution.task := map_task_set execution rfl
    simp [held, received, abandoned, settled, -List.map_set, same]
  | send execution empty =>
    have moved := List.perm_iff_count.mp (perm_executions execution)
    simp only [held, received, abandoned, settled, empty, List.map_cons, List.map_nil,
      List.perm_iff_count, List.count_append, List.count_cons, List.count_nil, moved, Execution.task]
    omega
  | take executor results =>
    simp only [held, received, abandoned, settled, executor, results, Executor.tasks, List.map_cons,
      List.perm_iff_count, List.count_append, List.count_cons, List.count_nil]
    omega
  | recorded executor ends =>
    simp only [held, received, abandoned, settled, executor, Executor.tasks, List.perm_iff_count,
      List.count_append, List.count_nil]
    omega

theorem mem_incoming {t : Task} : t ∈ self.incoming answer ↔
    (∃ call ts, self.fetcher = .starting call ∧ answer call = some (.ok (.tasks ts)) ∧ t ∈ ts) ∨
    ∃ call, self.fetcher = .fetching call ∧ answer call = some (.ok (.task t)) := by
  unfold incoming
  split
  · next call fetcher =>
    split
    · next ts ha => simp [fetcher, ha]
    · next other =>
      simp only [fetcher, List.not_mem_nil, false_iff, Fetcher.starting.injEq, reduceCtorEq,
        false_and, exists_false, or_false]
      rintro ⟨_, ts, rfl, ha, -⟩
      exact other ts ha
  · next call fetcher =>
    split
    · next u ha => simp [fetcher, ha, eq_comm]
    · next other =>
      simp only [fetcher, List.not_mem_nil, false_iff, Fetcher.fetching.injEq, reduceCtorEq,
        false_and, exists_false, false_or]
      rintro ⟨_, rfl, ha⟩
      exact other t ha
  · next other other' =>
    simp only [List.not_mem_nil, false_iff]
    rintro (⟨call, ts, fetcher, -⟩ | ⟨call, fetcher, -⟩)
    · exact other call fetcher
    · exact other' call fetcher

theorem received_sublist (answer : Nat → Option Answer) (self : LocalWorker bits) (ev : Event) :
    (self.received answer ev).Sublist (self.incoming answer) := by
  unfold received
  split
  · exact List.Sublist.refl _
  · exact List.nil_sublist _

theorem incoming_congr {answer answer' : Nat → Option Answer}
    (same : ∀ call, self.fetcher = .starting call ∨ self.fetcher = .fetching call →
      answer' call = answer call) : self.incoming answer' = self.incoming answer := by
  unfold incoming
  split
  · next call fetcher => rw [same call (Or.inl fetcher)]
  · next call fetcher => rw [same call (Or.inr fetcher)]
  · rfl

/-- A step goes on waiting for the same answer, having received nothing, or has
none to receive. -/
theorem Step.incoming {answer' : Nat → Option Answer}
    (h : Step env workerId answer fresh self ev self' sent)
    (old : ∀ call, self.fetcher = .starting call ∨ self.fetcher = .fetching call →
      answer' call = answer call)
    (new : ∀ types, sent = some (.fetchTodo workerId types) → answer' fresh = none) :
    self'.incoming answer' = [] ∨
      self'.incoming answer' = self.incoming answer ∧ self.received answer ev = [] := by
  have kept := incoming_congr old
  cases h with
  | started | startFailed | fetched | fetchFailed | pop | push | counted => exact Or.inl rfl
  | fetch =>
    left
    simp only [LocalWorker.incoming, new _ rfl]
  | full | receive | read | retry | giveUp | finish | send | take | recorded =>
    exact Or.inr ⟨kept, rfl⟩

/-- What a step leaves in hand or on its way in was there before. -/
theorem Step.subperm {answer' : Nat → Option Answer}
    (h : Step env workerId answer fresh self ev self' sent)
    (old : ∀ call, self.fetcher = .starting call ∨ self.fetcher = .fetching call →
      answer' call = answer call)
    (new : ∀ types, sent = some (.fetchTodo workerId types) → answer' fresh = none) :
    (self'.held ++ self'.incoming answer').Subperm (self.held ++ self.incoming answer) := by
  have kept : self'.held.Subperm (self.held ++ self.received answer ev) :=
    (List.sublist_append_left _ _).subperm.trans h.accounts.symm.subperm
  rcases h.incoming old new with empty | ⟨same, nothing⟩
  · rw [empty, List.append_nil]
    exact kept.trans ((received_sublist answer self ev).append_left self.held).subperm
  · rw [nothing, List.append_nil] at kept
    rw [same]
    exact kept.append (List.Subperm.refl _)

/-- Before its first answer the process has nothing. -/
theorem Step.starting {call : Nat} (h : Step env workerId answer fresh self ev self' sent)
    (nothing : ∀ call, self.fetcher = .starting call → self.held = [])
    (fetcher : self'.fetcher = .starting call) : self'.held = [] := by
  have before : self.held = [] := by
    cases h with
    | started | startFailed | fetched | fetchFailed | pop | push | counted | fetch => cases fetcher
    | full | receive | read | retry | giveUp | finish | send | take | recorded =>
      exact nothing call fetcher
  have nothingReceived : self.received answer ev = [] := by
    cases h with
    | started | startFailed | fetched | fetchFailed => cases fetcher
    | _ => rfl
  have accounts := h.accounts
  rw [before, nothingReceived] at accounts
  exact (List.append_eq_nil_iff.mp (List.nil_perm.mp accounts)).1

/-! ## The calls it waits for -/

/-- Every call the process waits for is the request its state says. -/
structure Waits (workerId : String) (process : LocalWorker bits) (requested : Nat → Request → Prop) :
    Prop where
  starting : ∀ call, process.fetcher = .starting call → requested call (.fetchUncompleted workerId)
  fetching : ∀ call, process.fetcher = .fetching call →
    requested call (.fetchTodo workerId process.config.allowTypes)
  preparing : ∀ t retryCount call, process.executor = .preparing t retryCount call →
    requested call (.getResourceInfo t.resourceId)
  recording : ∀ t call, process.executor = .recording t call →
    ∃ result, requested call (recordRequest workerId t result)

theorem Waits.start {requested : Nat → Request → Prop} {config : WorkerConfig}
    (sent : requested call (.fetchUncompleted workerId)) :
    (start config call).Waits workerId requested := by
  constructor
  · rintro _ ⟨⟩
    exact sent
  all_goals
    intros
    contradiction

theorem Waits.mono {requested requested' : Nat → Request → Prop}
    (waits : self.Waits workerId requested)
    (old : ∀ call req, requested call req → requested' call req) :
    self.Waits workerId requested' :=
  ⟨fun c e => old _ _ (waits.starting c e), fun c e => old _ _ (waits.fetching c e),
    fun t n c e => old _ _ (waits.preparing t n c e),
    fun t c e => (waits.recording t c e).imp fun _ hr => old _ _ hr⟩

theorem Waits.step {requested : Nat → Request → Prop} (kept : self.Waits workerId requested)
    (h : Step env workerId answer fresh self ev self' sent)
    (new : ∀ req, sent = some req → requested fresh req) : self'.Waits workerId requested := by
  cases h with
  | started | startFailed | fetched | fetchFailed | pop | push | counted =>
    exact ⟨by rintro c ⟨⟩, by rintro c ⟨⟩, kept.preparing, kept.recording⟩
  | full | finish | send => exact ⟨kept.starting, kept.fetching, kept.preparing, kept.recording⟩
  | fetch =>
    refine ⟨by rintro c ⟨⟩, ?_, kept.preparing, kept.recording⟩
    rintro c ⟨⟩
    exact new _ rfl
  | receive | retry =>
    refine ⟨kept.starting, kept.fetching, ?_, by rintro t c ⟨⟩⟩
    rintro t n c ⟨⟩
    exact new _ rfl
  | read | giveUp | recorded =>
    exact ⟨kept.starting, kept.fetching, by rintro t n c ⟨⟩, by rintro t c ⟨⟩⟩
  | take =>
    refine ⟨kept.starting, kept.fetching, by rintro t n c ⟨⟩, ?_⟩
    rintro t c ⟨⟩
    exact ⟨_, new _ rfl⟩

end LocalWorker

end GpuProxy
