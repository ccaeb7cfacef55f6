import GpuProxy.System
import Mathlib.Data.BitVec
import Mathlib.Tactic.LinearCombination

/-!
# What a worker has taken on

The fetcher counts a task after it has sent it, and by then the executor may be
done with it. In between the counter lags behind by one, and may have wrapped
below zero; where the fetcher reads it, it is exact.
-/

namespace GpuProxy

namespace LocalWorker

variable {bits : Nat} {env : Extern} {w : String} {answer : Nat → Option Answer} {fresh : Nat}
  {process process' : LocalWorker bits} {ev : Event} {sent : Option Request}

/-- A step, with the answers the process has by then. -/
structure Move where
  answer : Nat → Option Answer
  fresh : Nat
  event : Event

def move (env : Extern) (w : String) (process : LocalWorker bits) (m : Move) :
    Option (LocalWorker bits) :=
  (process.step env w m.answer m.fresh m.event).map Prod.fst

/-- The tasks sent to the channel and not yet finished. -/
def unfinished (process : LocalWorker bits) : List Task :=
  process.channel ++ process.executor.tasks ++ process.executions.map Execution.task ++
    process.results.map Prod.fst

/-- The task the step sends to the channel. -/
def sends (process : LocalWorker bits) : Event → List Task
  | .push =>
    match process.fetcher with
    | .sending _ selectTask => [selectTask]
    | _ => []
  | _ => []

/-- The tasks the step lowers the counter for. -/
def finishes (answer : Nat → Option Answer) (process : LocalWorker bits) (ev : Event) : List Task :=
  process.abandoned answer ev ++ process.settled ev

def counts : Event → Nat
  | .counted => 1
  | _ => 0

/-- The tasks that are sent and not counted. -/
def lag (process : LocalWorker bits) : Nat :=
  match process.fetcher with
  | .counting _ => 1
  | _ => 0

/-! ## What one step does -/

theorem held_eq : process.held = process.fetcher.tasks ++ process.unfinished := by
  simp [held, unfinished]

/-- What the fetcher takes in it has, or has sent. -/
theorem Step.fetcher_tasks (h : Step env w answer fresh process ev process' sent) :
    process.fetcher.tasks ++ process.received answer ev =
      process'.fetcher.tasks ++ process.sends ev := by
  cases h with
  | started fetcher ends reply =>
    obtain ⟨rfl, answered⟩ := result_answered ends
    cases toTasks_ok reply
    simp [received, LocalWorker.incoming, sends, fetcher, answered, Fetcher.tasks]
  | startFailed fetcher ends reply =>
    rw [received_startFailed fetcher ends reply]
    simp [sends, fetcher, Fetcher.tasks]
  | fetched fetcher ends reply =>
    obtain ⟨rfl, answered⟩ := result_answered ends
    cases toTask_ok reply
    simp [received, LocalWorker.incoming, sends, fetcher, answered, Fetcher.tasks]
  | fetchFailed fetcher ends reply =>
    rw [received_fetchFailed fetcher ends reply]
    simp [sends, fetcher, Fetcher.tasks]
  | pop fetcher room | fetch fetcher room | push fetcher room | counted fetcher =>
    simp [received, sends, fetcher, Fetcher.tasks]
  | _ => simp [received, sends]

/-- A task is sent once and finished once. -/
theorem Step.unfinished (h : Step env w answer fresh process ev process' sent) :
    (process.unfinished ++ process.sends ev).Perm
      (process'.unfinished ++ process.finishes answer ev) := by
  have accounts := List.perm_iff_count.mp h.accounts
  have fetcher := h.fetcher_tasks
  apply List.perm_iff_count.mpr
  intro t
  have all := accounts t
  have taken := congrArg (List.count t) fetcher
  simp only [held_eq, finishes, List.count_append] at all taken ⊢
  omega

/-- The counter goes up where the fetcher counts, and down once for each task finished. -/
theorem Step.count (h : Step env w answer fresh process ev process' sent) :
    process'.count = process.count + (counts ev : BitVec bits) -
      ((process.finishes answer ev).length : BitVec bits) := by
  cases h with
  | counted fetcher => simp [counts, finishes, abandoned, settled]
  | giveUp executor ends reply last =>
    simp [counts, finishes, abandoned, settled, executor, ends, reply, last]
  | recorded executor ends => simp [counts, finishes, abandoned, settled, executor]
  | read executor ends reply =>
    simp [counts, finishes, abandoned, settled, executor, ends, Except.bind, reply]
  | retry executor ends reply more =>
    simp [counts, finishes, abandoned, settled, executor, ends, reply, more]
  | _ => simp [counts, finishes, abandoned, settled]

/-- Between the send and the count the counter is one behind. -/
theorem Step.lag (h : Step env w answer fresh process ev process' sent) :
    process.lag + (process.sends ev).length = process'.lag + counts ev := by
  cases h with
  | started fetcher | startFailed fetcher | fetched fetcher | fetchFailed fetcher | pop fetcher
    | fetch fetcher | push fetcher | counted fetcher => simp [LocalWorker.lag, sends, counts, fetcher]
  | _ => simp [LocalWorker.lag, sends, counts]

/-! ## The invariant -/

/-- The process is within its capacity, and its counter is behind by the tasks that
are sent and not counted. -/
structure Balanced (config : WorkerConfig bits) (process : LocalWorker bits) : Prop where
  configured : process.config = config
  counter : process.count + (process.lag : BitVec bits) = (process.unfinished.length : BitVec bits)
  bounded : process.unfinished.length ≤ config.maxTask.toNat
  /-- There is room for the task it is about to send. -/
  room : (∃ call, process.fetcher = .fetching call) ∨ (∃ ts t, process.fetcher = .sending ts t) →
    process.unfinished.length < config.maxTask.toNat

theorem start_balanced (config : WorkerConfig bits) (call : Nat) :
    (start config call).Balanced config where
  configured := rfl
  counter := by simp [start, LocalWorker.lag, LocalWorker.unfinished, Executor.tasks]
  bounded := Nat.zero_le _
  room := by simp [start]

/-- Where the fetcher reads it, the counter is the number of unfinished tasks. -/
theorem Balanced.read {config : WorkerConfig bits} (balanced : process.Balanced config)
    {unCompleted : List Task} (fetcher : process.fetcher = .ticking unCompleted) :
    process.count.toNat = process.unfinished.length := by
  have counter := balanced.counter
  have bounded := balanced.bounded
  have small := config.maxTask.isLt
  simp only [LocalWorker.lag, fetcher, Nat.cast_zero, add_zero] at counter
  rw [counter, BitVec.natCast_eq_ofNat, BitVec.toNat_ofNat]
  exact Nat.mod_eq_of_lt (by omega)

theorem Balanced.has_room {config : WorkerConfig bits} (balanced : process.Balanced config)
    {unCompleted : List Task} (fetcher : process.fetcher = .ticking unCompleted)
    (room : ¬ process.config.maxTask ≤ process.count) :
    process.unfinished.length < config.maxTask.toNat := by
  rw [← balanced.read fetcher, ← balanced.configured]
  exact BitVec.lt_def.mp (BitVec.not_le.mp room)

theorem Step.config_eq (h : Step env w answer fresh process ev process' sent) :
    process'.config = process.config := by
  cases h <;> rfl

theorem Step.balanced {config : WorkerConfig bits} (balanced : process.Balanced config)
    (h : Step env w answer fresh process ev process' sent) : process'.Balanced config := by
  have lengths := h.unfinished.length_eq
  simp only [List.length_append] at lengths
  have fewer (quiet : process.sends ev = []) :
      process'.unfinished.length ≤ process.unfinished.length := by
    simp only [quiet, List.length_nil] at lengths
    omega
  constructor
  · rw [h.config_eq, balanced.configured]
  · have moved := congrArg (Nat.cast (R := BitVec bits)) lengths
    have behind := congrArg (Nat.cast (R := BitVec bits)) h.lag
    push_cast at moved behind
    linear_combination h.count + balanced.counter + moved - behind
  · cases h with
    | push fetcher room =>
      -- the only step that adds to the unfinished tasks
      have room := balanced.room (.inr ⟨_, _, fetcher⟩)
      simp only [sends, fetcher, List.length_singleton] at lengths
      omega
    | _ => exact Nat.le_trans (fewer rfl) balanced.bounded
  · cases h with
    | started | startFailed | fetchFailed | push | counted => simp
    | fetched fetcher ends reply =>
      intro _
      exact balanced.room (.inl ⟨_, fetcher⟩)
    | pop fetcher room =>
      intro _
      exact balanced.has_room fetcher room
    | fetch fetcher room =>
      intro _
      exact balanced.has_room fetcher room
    | _ =>
      intro aims
      exact Nat.lt_of_le_of_lt (fewer rfl) (balanced.room aims)

/-! ## Whole runs -/

/-- The move raises the counter where the fetcher counts, and lowers it by one for each
task it finishes. -/
def CountsOnce (env : Extern) (w : String) (process : LocalWorker bits) (m : Move) : Prop :=
  ∀ process', move env w process m = some process' →
    process'.count = process.count + (counts m.event : BitVec bits) -
      ((process.finishes m.answer m.event).length : BitVec bits)

theorem move_step {m : Move} (h : move env w process m = some process') :
    ∃ sent, process.step env w m.answer m.fresh m.event = some (process', sent) := by
  obtain ⟨⟨next, sent⟩, moved, same⟩ := Option.map_eq_some_iff.mp h
  subst same
  exact ⟨sent, moved⟩

theorem move_cases {m : Move} (h : move env w process m = some process') :
    ∃ sent, Step env w m.answer m.fresh process m.event process' sent := by
  obtain ⟨sent, moved⟩ := move_step h
  exact ⟨sent, step_cases moved⟩

/-- A worker never has more than `maxTask` tasks sent and unfinished, its counter is
exact where the fetcher reads it and goes down once for each task sent, and the
fetcher never finds the channel full. -/
theorem capacity_and_counter {config : WorkerConfig bits} {call : Nat} {ms : List Move}
    (run : Runs.run (move env w) (start config call) ms = some process) :
    process.unfinished.length ≤ config.maxTask.toNat ∧
    (∀ unCompleted, process.fetcher = .ticking unCompleted →
      process.count.toNat = process.unfinished.length) ∧
    (Runs.collect (move env w) (fun p m => p.sends m.event) (start config call) ms).Perm
      (Runs.collect (move env w) (fun p m => p.finishes m.answer m.event) (start config call) ms ++
        process.unfinished) ∧
    Runs.Along (move env w) (CountsOnce env w) (start config call) ms ∧
    ∀ unCompleted selectTask, process.fetcher = .sending unCompleted selectTask →
      process.channel.length < config.maxTask.toNat := by
  have balanced : process.Balanced config := by
    apply Runs.invariant run (start_balanced config call)
    intro p m q balanced h
    obtain ⟨sent, step⟩ := move_cases h
    exact step.balanced balanced
  refine ⟨balanced.bounded, fun _ => balanced.read, ?_, ?_, ?_⟩
  · apply Runs.invariant_trace (I := fun ms p =>
      (Runs.collect (move env w) (fun p m => p.sends m.event) (start config call) ms).Perm
        (Runs.collect (move env w) (fun p m => p.finishes m.answer m.event) (start config call) ms ++
          p.unfinished)) run
    · exact .nil
    · intro pre m p q _ before kept h
      obtain ⟨sent, step⟩ := move_cases h
      rw [Runs.collect_snoc m before, Runs.collect_snoc m before]
      have once := List.perm_iff_count.mp step.unfinished
      have kept := List.perm_iff_count.mp kept
      apply List.perm_iff_count.mpr
      intro t
      have once := once t
      have kept := kept t
      simp only [List.count_append] at once kept ⊢
      omega
  · apply Runs.along_of_mem
    intro m _ p q h
    obtain ⟨sent, step⟩ := move_cases h
    exact step.count
  · intro unCompleted selectTask fetcher
    have room := balanced.room (.inr ⟨_, _, fetcher⟩)
    simp only [LocalWorker.unfinished, List.length_append] at room
    omega

/-- A worker that reads no resource twice gives up the task it has been sent before the
fetcher has counted it. -/
def finishedEarly (t : Task) : List Move :=
  let answer : Nat → Option Answer := fun _ => some (.ok (.tasks [t]))
  [⟨answer, 1, .fetched .answered⟩, ⟨answer, 1, .tick⟩, ⟨answer, 1, .push⟩, ⟨answer, 1, .receive⟩,
    ⟨answer, 2, .read (.failed "os error")⟩]

theorem capacity_and_counter_demo : ∃ process : LocalWorker,
    Runs.run (move Demo.env "w1") (start ⟨1, by decide, none, 0⟩ 0)
      (finishedEarly (DbOps.newTask 1 "t" "01000" .c2 "r" "")) = some process ∧
    process.count = -1 ∧ process.unfinished.length ≤ 1 := by
  have ran : ((Runs.run (move Demo.env "w1") (start (⟨1, by decide, none, 0⟩ : WorkerConfig) 0)
      (finishedEarly (DbOps.newTask 1 "t" "01000" .c2 "r" ""))).map fun p => p.count) = some (-1) := by
    decide +kernel
  obtain ⟨process, run, wrapped⟩ := Option.map_eq_some_iff.mp ran
  exact ⟨process, run, wrapped, (capacity_and_counter run).1⟩

end LocalWorker

end GpuProxy
