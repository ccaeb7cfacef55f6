import GpuProxy.Capacity

/-!
# A worker comes to rest

With its fetcher taking nothing in, everything else a worker does ends: each of
its actions uses up part of the work that is left, and as long as work is left
one of them is possible, whatever fails.
-/

namespace GpuProxy

/-- The most actions the executor can still spend on the task it has. -/
def Executor.work (retrySum : UInt32) : Executor → Nat
  | selecting => 0
  | preparing _ retryCount _ => retrySum.toNat + 1 - retryCount.toNat + 5
  | recording _ _ => 1

def Execution.work : Execution → Nat
  | running _ _ => 4
  | sending _ _ => 3

namespace LocalWorker

variable {bits : Nat} {env : Extern} {w : String} {answer : Nat → Option Answer} {fresh : Nat}
  {process process' : LocalWorker bits} {ev : Event} {sent : Option Request}

/-- The most actions a task in the channel can take. -/
def taskWork (retrySum : UInt32) : Nat := retrySum.toNat + 6

/-- The most actions the fetcher can still spend on a task it is sending. -/
def fetcherWork (retrySum : UInt32) : Fetcher → Nat
  | .sending _ _ => taskWork retrySum + 2
  | .counting _ => 1
  | _ => 0

def work (process : LocalWorker bits) : Nat :=
  fetcherWork process.config.retrySum process.fetcher +
    taskWork process.config.retrySum * process.channel.length +
    process.executor.work process.config.retrySum +
    (process.executions.map Execution.work).sum + 2 * process.results.length

/-- The fetcher does not look for another task. -/
def Event.Drains : Event → Prop
  | .fetched _ | .tick => False
  | _ => True

/-- Every task it was sent is finished and counted off, and none is on its way. -/
structure Idle (process : LocalWorker bits) : Prop where
  unfinished : process.unfinished = []
  count : process.count = 0
  fetcher : ∀ ts, process.fetcher ≠ .counting ts ∧ ∀ t, process.fetcher ≠ .sending ts t

theorem sum_work_eraseIdx {l : List Execution} {i : Nat} {e : Execution} (h : l[i]? = some e) :
    (l.map Execution.work).sum = e.work + ((l.eraseIdx i).map Execution.work).sum := by
  obtain ⟨bound, rfl⟩ := List.getElem?_eq_some_iff.mp h
  have moved := ((List.getElem_cons_eraseIdx_perm bound).map Execution.work).sum_nat
  simpa using moved.symm

theorem sum_work_set {l : List Execution} {i : Nat} {e : Execution} (e' : Execution)
    (h : l[i]? = some e) :
    ((l.set i e').map Execution.work).sum = e'.work + ((l.eraseIdx i).map Execution.work).sum := by
  obtain ⟨bound, rfl⟩ := List.getElem?_eq_some_iff.mp h
  have moved := ((List.set_perm_cons_eraseIdx bound e').map Execution.work).sum_nat
  simpa using moved

/-- The retry counter does not wrap before it has passed the limit. -/
theorem retry_lowers {retryCount retrySum : UInt32} (more : retryCount ≤ retrySum)
    (bound : retrySum.toNat < 2 ^ 32 - 1) :
    retrySum.toNat + 1 - (retryCount + 1).toNat < retrySum.toNat + 1 - retryCount.toNat := by
  have small : retryCount.toNat ≤ retrySum.toNat := UInt32.le_iff_toNat_le.mp more
  have next : (retryCount + 1).toNat = retryCount.toNat + 1 := by
    rw [UInt32.toNat_add]
    exact Nat.mod_eq_of_lt (by simp only [UInt32.reduceToNat]; omega)
  omega

theorem Step.work (h : Step env w answer fresh process ev process' sent) (drains : ev.Drains)
    (bound : process.config.retrySum.toNat < 2 ^ 32 - 1) : process'.work < process.work := by
  cases h with
  | started | startFailed | fetched | fetchFailed | full | pop | fetch => exact drains.elim
  | push fetcher room =>
    simp only [LocalWorker.work, fetcher, fetcherWork, List.length_append, List.length_singleton,
      Nat.mul_add, Nat.mul_one]
    omega
  | counted fetcher =>
    simp only [LocalWorker.work, fetcher, fetcherWork]
    omega
  | receive executor channel =>
    simp only [LocalWorker.work, executor, channel, Executor.work, taskWork, List.length_cons,
      Nat.mul_add, Nat.mul_one, UInt32.reduceToNat]
    omega
  | read executor ends reply =>
    simp only [LocalWorker.work, executor, Executor.work, List.map_append, List.sum_append,
      List.map_cons, List.map_nil, List.sum_cons, List.sum_nil, Execution.work]
    omega
  | retry executor ends reply more =>
    have less := retry_lowers more bound
    simp only [LocalWorker.work, executor, Executor.work]
    omega
  | giveUp executor ends reply last =>
    simp only [LocalWorker.work, executor, Executor.work]
    omega
  | @finish i seed undoTask resource execution =>
    have before := sum_work_eraseIdx execution
    have after := sum_work_set (.sending undoTask (c2 env resource seed)) execution
    simp only [Execution.work] at before after
    simp only [LocalWorker.work]
    omega
  | send execution empty =>
    have moved := sum_work_eraseIdx execution
    simp only [Execution.work] at moved
    simp only [LocalWorker.work, empty, List.length_singleton, List.length_nil]
    omega
  | take executor results =>
    simp only [LocalWorker.work, executor, results, Executor.work, List.length_cons]
    omega
  | recorded executor ends =>
    simp only [LocalWorker.work, executor, Executor.work]
    omega

/-- No action is possible but the fetcher's, not even after a failed call. -/
def Stuck (env : Extern) (w : String) (process : LocalWorker bits) : Prop :=
  ∀ m : Move, m.event.Drains → move env w process m = none

theorem Stuck.disabled (stuck : process.Stuck env w) (m : Move) (drains : m.event.Drains) :
    process.step env w m.answer m.fresh m.event = none :=
  Option.map_eq_none_iff.mp (stuck m drains)

/-- Where nothing more can be done there is nothing left to do. -/
theorem Stuck.idle {config : WorkerConfig bits} (stuck : process.Stuck env w)
    (balanced : process.Balanced config) : process.Idle := by
  let answer : Nat → Option Answer := fun _ => none
  have fetcher (ts : List Task) :
      process.fetcher ≠ .counting ts ∧ ∀ t, process.fetcher ≠ .sending ts t := by
    constructor
    · intro counting
      have blocked := stuck.disabled ⟨answer, 0, .counted⟩ trivial
      simp [step, counting] at blocked
    · intro t sending
      have room := balanced.room (.inr ⟨ts, t, sending⟩)
      have fits : process.channel.length < process.config.maxTask.toNat := by
        rw [balanced.configured]
        simp only [LocalWorker.unfinished, List.length_append] at room
        omega
      have blocked := stuck.disabled ⟨answer, 0, .push⟩ trivial
      simp [step, sending, fits] at blocked
  have executor : process.executor = .selecting := by
    cases h : process.executor with
    | selecting => rfl
    | preparing t retryCount call =>
      have blocked := stuck.disabled ⟨answer, 0, .read (.failed "")⟩ trivial
      simp [step, h, Delivery.result] at blocked
    | recording t call =>
      have blocked := stuck.disabled ⟨answer, 0, .recorded (.failed "")⟩ trivial
      simp [step, h, Delivery.result] at blocked
  have results : process.results = [] := by
    cases h : process.results with
    | nil => rfl
    | cons first rest =>
      have blocked := stuck.disabled ⟨answer, 0, .take⟩ trivial
      simp [step, executor, h] at blocked
  have channel : process.channel = [] := by
    cases h : process.channel with
    | nil => rfl
    | cons t rest =>
      have blocked := stuck.disabled ⟨answer, 0, .receive⟩ trivial
      simp [step, executor, h] at blocked
  have executions : process.executions = [] := by
    cases h : process.executions with
    | nil => rfl
    | cons e rest =>
      cases e with
      | running t resource =>
        have blocked := stuck.disabled ⟨answer, 0, .finish 0 0⟩ trivial
        simp [step, h] at blocked
      | sending t result =>
        have blocked := stuck.disabled ⟨answer, 0, .send 0⟩ trivial
        simp [step, h, results] at blocked
  have unfinished : process.unfinished = [] := by
    simp [LocalWorker.unfinished, channel, executor, executions, results, Executor.tasks]
  refine ⟨unfinished, ?_, fetcher⟩
  have counted : process.lag = 0 := by
    unfold LocalWorker.lag
    split
    · next ts counting => exact absurd counting (fetcher ts).1
    · rfl
  have counter := balanced.counter
  rw [counted, unfinished] at counter
  simpa using counter

theorem Idle.stuck (idle : process.Idle) : process.Stuck env w := by
  obtain ⟨unfinished, -, fetcher⟩ := idle
  simp only [LocalWorker.unfinished, List.append_eq_nil_iff, List.map_eq_nil_iff] at unfinished
  obtain ⟨⟨⟨channel, executor⟩, executions⟩, results⟩ := unfinished
  intro m drains
  cases moved : move env w process m with
  | none => rfl
  | some next =>
    obtain ⟨sent, h⟩ := move_cases moved
    generalize m.event = ev at h drains
    cases h with
    | started | startFailed | fetched | fetchFailed | full | pop | fetch => exact drains.elim
    | push sending => exact absurd sending ((fetcher _).2 _)
    | counted counting => exact absurd counting (fetcher _).1
    | receive _ received => rw [channel] at received; cases received
    | read preparing | retry preparing | giveUp preparing =>
      rw [preparing] at executor
      cases executor
    | recorded recording => rw [recording] at executor; cases executor
    | finish execution | send execution => rw [executions] at execution; cases execution
    | take _ taken => rw [results] at taken; cases taken

/-- Once its fetcher takes nothing more in, a worker makes no more steps than it has work
left, and it cannot stop before every task it was sent is finished and counted off. -/
theorem drains {config : WorkerConfig bits} {call : Nat} {ms ds : List Move}
    {process resting : LocalWorker bits} (retries : config.retrySum.toNat < 2 ^ 32 - 1)
    (run : Runs.run (move env w) (start config call) ms = some process)
    (quiet : ∀ m ∈ ds, m.event.Drains) (more : Runs.run (move env w) process ds = some resting) :
    ds.length + resting.work ≤ process.work ∧ (resting.Stuck env w ↔ resting.Idle) := by
  have keep (p : LocalWorker bits) (m : Move) (q : LocalWorker bits) (balanced : p.Balanced config)
      (h : move env w p m = some q) : q.Balanced config := by
    obtain ⟨sent, step⟩ := move_cases h
    exact step.balanced balanced
  have balanced : process.Balanced config := Runs.invariant run (start_balanced config call) keep
  constructor
  · apply Runs.length_le_of_lowers more balanced quiet
    intro p m q balanced drains h
    obtain ⟨sent, step⟩ := move_cases h
    refine ⟨step.balanced balanced, step.work drains ?_⟩
    rw [balanced.configured]
    exact retries
  · have rested : resting.Balanced config := Runs.invariant more balanced keep
    exact ⟨fun stuck => stuck.idle rested, Idle.stuck⟩

/-- A worker with one task, whose resource it reads at the second attempt. -/
def lastTask (t : Task) : List Move :=
  let answer : Nat → Option Answer := fun _ => some (.ok (.tasks [t]))
  [⟨answer, 1, .fetched .answered⟩, ⟨answer, 1, .tick⟩, ⟨answer, 1, .push⟩]

def finishing (resource : String) : List Move :=
  let answer : Nat → Option Answer := fun _ => some (.ok (.resource resource))
  [⟨answer, 1, .counted⟩, ⟨answer, 1, .receive⟩, ⟨answer, 2, .read (.failed "timeout")⟩,
    ⟨answer, 3, .read .answered⟩, ⟨answer, 3, .finish 0 0⟩, ⟨answer, 3, .send 0⟩, ⟨answer, 3, .take⟩,
    ⟨answer, 4, .recorded (.failed "timeout")⟩]

theorem drains_demo : ∃ process resting : LocalWorker,
    Runs.run (move Demo.env "w1") (start ⟨1, by decide, none, 5⟩ 0)
      (lastTask (DbOps.newTask 1 "t" "01000" .c2 "r" "")) = some process ∧
    Runs.run (move Demo.env "w1") process (finishing "") = some resting ∧
    (finishing "").length + resting.work ≤ process.work ∧
    (resting.Stuck Demo.env "w1" ↔ resting.Idle) := by
  have ran : ((Runs.run (move Demo.env "w1") (start (⟨1, by decide, none, 5⟩ : WorkerConfig) 0)
      (lastTask (DbOps.newTask 1 "t" "01000" .c2 "r" ""))).bind fun p =>
        Runs.run (move Demo.env "w1") p (finishing "")).isSome := by
    decide +kernel
  obtain ⟨resting, both⟩ := Option.isSome_iff_exists.mp ran
  obtain ⟨process, run, more⟩ := Option.bind_eq_some_iff.mp both
  refine ⟨process, resting, run, more, drains (by decide) run ?_ more⟩
  simp [finishing, Event.Drains]

end LocalWorker

end GpuProxy
