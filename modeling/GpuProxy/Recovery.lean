import GpuProxy.Capacity

/-!
# The tasks a restarted worker finds

`fetch_uncompleted` answers with the oldest task first. The fetcher takes the tasks of the
answer from its end, before it asks for any other, so they go to the executor with the newest
first.
-/

namespace GpuProxy

namespace LocalWorker

/-- What the rest of the process and the server see of the fetcher. -/
inductive Act where
  | send (selectTask : Task)
  | fetchOneTodo
  deriving DecidableEq, Repr

def asks : Option Request → List Act
  | some (.fetchTodo _ _) => [.fetchOneTodo]
  | _ => []

variable {bits : Nat}

def stepActs (process : LocalWorker bits) (ev : Event) (sent : Option Request) : List Act :=
  (process.sends ev).map .send ++ asks sent

def acts (env : Extern) (w : String) (process : LocalWorker bits) (m : Move) : List Act :=
  match process.step env w m.answer m.fresh m.event with
  | some (_, sent) => process.stepActs m.event sent
  | none => []

/-- What the fetcher has done since the process was started with the request `call`. -/
def trace (env : Extern) (w : String) (config : WorkerConfig bits) (call : Nat) (ms : List Move) :
    List Act :=
  Runs.collect (move env w) (acts env w) (start config call) ms

/-- The request `call` has no other answer than these tasks. -/
def Answers (ts : List Task) (call : Nat) (ms : List Move) : Prop :=
  ∀ m ∈ ms, ∀ a, m.answer call = some a → a = .ok (.tasks ts)

/-- The tasks have been sent in this order, each one once, as far as the fetcher has come, and
all of them where it has fetched another. -/
def SendsFirst (ts : List Task) (trace : List Act) : Prop :=
  trace <+: ts.map .send ∨ ts.map .send ++ [.fetchOneTodo] <+: trace

instance (ts : List Task) (trace : List Act) : Decidable (SendsFirst ts trace) :=
  inferInstanceAs (Decidable (_ ∨ _))

variable {env : Extern} {w : String} {answer : Nat → Option Answer} {fresh : Nat}
  {process process' : LocalWorker bits} {ev : Event} {sent : Option Request} {ts : List Task}
  {call : Nat} {trace : List Act}

/-! ## The loop -/

/-- The tasks still to recover are `unCompleted`, and the others have been sent. -/
def Recovering (ts unCompleted : List Task) (trace : List Act) : Prop :=
  ∃ taken, trace = taken.map .send ∧ ts.reverse = taken ++ unCompleted.reverse

/-- All tasks have been sent and another one has been asked for. -/
def Recovered (ts : List Task) (trace : List Act) : Prop :=
  ts.reverse.map .send ++ [.fetchOneTodo] <+: trace

/-- Where the fetcher is, after the acts. -/
def Recovery (ts : List Task) (call : Nat) (trace : List Act) : Fetcher → Prop
  | .starting c => c = call ∧ trace = []
  | .dead => trace = []
  | .ticking unCompleted | .counting unCompleted =>
    Recovering ts unCompleted trace ∨ unCompleted = [] ∧ Recovered ts trace
  | .sending unCompleted selectTask =>
    Recovering ts (unCompleted ++ [selectTask]) trace ∨ unCompleted = [] ∧ Recovered ts trace
  | .fetching _ => Recovered ts trace

theorem Recovered.append (h : Recovered ts trace) (as : List Act) : Recovered ts (trace ++ as) :=
  h.trans (List.prefix_append trace as)

theorem Recovering.sendsFirst {unCompleted : List Task} (h : Recovering ts unCompleted trace) :
    SendsFirst ts.reverse trace := by
  obtain ⟨taken, rfl, all⟩ := h
  left
  rw [all, List.map_append]
  exact List.prefix_append _ _

theorem Recovery.sendsFirst {fetcher : Fetcher} (h : Recovery ts call trace fetcher) :
    SendsFirst ts.reverse trace := by
  cases fetcher with
  | starting c =>
    left
    rw [h.2]
    exact List.nil_prefix
  | dead =>
    left
    rw [(h : trace = [])]
    exact List.nil_prefix
  | ticking unCompleted => exact h.elim Recovering.sendsFirst fun late => Or.inr late.2
  | counting unCompleted => exact h.elim Recovering.sendsFirst fun late => Or.inr late.2
  | sending unCompleted selectTask =>
    exact h.elim Recovering.sendsFirst fun late => Or.inr late.2
  | fetching c => exact Or.inr h

theorem stepActs_push {unCompleted : List Task} {selectTask : Task}
    (fetcher : process.fetcher = .sending unCompleted selectTask) :
    process.stepActs .push none = [.send selectTask] := by
  simp [stepActs, sends, fetcher, asks]

/-- One step, by what it does to the fetcher. -/
theorem Step.recovery (h : Step env w answer fresh process ev process' sent)
    (only : ∀ a, answer call = some a → a = .ok (.tasks ts))
    (recovery : Recovery ts call trace process.fetcher) :
    Recovery ts call (trace ++ process.stepActs ev sent) process'.fetcher := by
  cases h with
  | started fetcher ends reply =>
    rw [fetcher] at recovery
    obtain ⟨rfl, rfl⟩ := recovery
    obtain ⟨rfl, answered⟩ := result_answered ends
    cases only _ answered
    cases reply
    exact Or.inl ⟨[], rfl, rfl⟩
  | startFailed fetcher ends reply =>
    rw [fetcher] at recovery
    obtain ⟨rfl, rfl⟩ := recovery
    rfl
  | fetched fetcher ends reply =>
    rw [fetcher] at recovery
    exact Or.inr ⟨rfl, recovery.append _⟩
  | fetchFailed fetcher ends reply =>
    rw [fetcher] at recovery
    exact Or.inr ⟨rfl, recovery.append _⟩
  | pop fetcher room =>
    rw [fetcher] at recovery
    rw [show process.stepActs .tick none = [] from rfl, List.append_nil]
    rcases recovery with early | ⟨none, -⟩
    · exact Or.inl early
    · exact absurd none (by simp)
  | fetch fetcher room =>
    rw [fetcher] at recovery
    rcases recovery with ⟨taken, rfl, all⟩ | ⟨-, late⟩
    · -- nothing is left to recover, so all of it has been sent
      rw [List.reverse_nil, List.append_nil] at all
      rw [← all]
      exact List.prefix_refl _
    · exact late.append _
  | @push unCompleted selectTask fetcher room =>
    rw [fetcher] at recovery
    rw [stepActs_push fetcher]
    rcases recovery with ⟨taken, rfl, all⟩ | ⟨none, late⟩
    · refine Or.inl ⟨taken ++ [selectTask], ?_, ?_⟩
      · rw [List.map_append]
        rfl
      · rw [all, List.reverse_append, List.append_assoc]
        rfl
    · exact Or.inr ⟨none, late.append _⟩
  | counted fetcher =>
    rw [fetcher] at recovery
    rw [show process.stepActs .counted none = [] from rfl, List.append_nil]
    exact recovery
  | @take undoTask result rest executor results =>
    have quiet : process.stepActs .take (some (recordRequest w undoTask result)) = [] := by
      cases result <;> rfl
    rw [quiet, List.append_nil]
    exact recovery
  | full | receive | read | retry | giveUp | finish | send | recorded =>
    rw [show process.stepActs _ _ = [] from rfl, List.append_nil]
    exact recovery

theorem collect_acts {config : WorkerConfig bits} {ms : List Move}
    (run : Runs.run (move env w) (start config call) ms = some process)
    (only : Answers ts call ms) :
    Recovery ts call (LocalWorker.trace env w config call ms) process.fetcher := by
  apply Runs.invariant_listed
    (I := fun pre p => Recovery ts call (LocalWorker.trace env w config call pre) p.fetcher) run
  · exact ⟨rfl, rfl⟩
  · intro pre m p q listed before recovery moved
    obtain ⟨sent, stepped⟩ := move_step moved
    have done : acts env w p m = p.stepActs m.event sent := by
      unfold acts
      rw [stepped]
    unfold LocalWorker.trace
    rw [Runs.collect_snoc m before, done]
    exact (step_cases stepped).recovery (only m listed) recovery

/-! ## The order -/

/-- Whatever the executor does meanwhile, the tasks of the answer are sent once each and before
any other is fetched, the last one first. -/
theorem sends_last_first {config : WorkerConfig bits} {ms : List Move}
    (run : Runs.run (move env w) (start config call) ms = some process)
    (only : Answers ts call ms) :
    SendsFirst ts.reverse (LocalWorker.trace env w config call ms) :=
  (collect_acts run only).sendsFirst

/-- The answer comes, and one task is taken and sent. -/
def firstSend (ts : List Task) (call : Nat) : List Move :=
  let answer : Nat → Option Answer := fun c => if c = call then some (.ok (.tasks ts)) else none
  [⟨answer, call + 1, .fetched .answered⟩, ⟨answer, call + 1, .tick⟩, ⟨answer, call + 1, .push⟩]

theorem firstSend_answers (ts : List Task) (call : Nat) : Answers ts call (firstSend ts call) := by
  intro m hm a answered
  simp only [firstSend, List.mem_cons, List.not_mem_nil, or_false] at hm
  rcases hm with rfl | rfl | rfl
  all_goals
    simp only [↓reduceIte, Option.some.injEq] at answered
    exact answered.symm

theorem trace_firstSend (env : Extern) (w : String) (config : WorkerConfig bits) (call : Nat)
    (before : List Task) (last : Task) :
    (∃ process, Runs.run (move env w) (start config call) (firstSend (before ++ [last]) call) =
      some process) ∧
    LocalWorker.trace env w config call (firstSend (before ++ [last]) call) = [.send last] := by
  have room : config.maxTask ≠ BitVec.ofNat bits 0 := by
    have positive := config.positive
    rintro none
    rw [none] at positive
    exact absurd positive (by bv_omega)
  have capacity : 0 < config.maxTask.toNat := by
    have positive := config.positive
    bv_omega
  constructor
  · simp [firstSend, move, step, start, Delivery.result, Except.mapError, Except.bind,
      Reply.toTasks, room, capacity]
  · simp [LocalWorker.trace, Runs.collect, acts, stepActs, sends, asks, firstSend, move, step, start,
      Delivery.result, Except.mapError, Except.bind, Reply.toTasks, room, capacity]

/-- The tasks `fetch_uncompleted` returns are sent in the order it returns them exactly where
there is at most one. -/
theorem recovery_order_iff (env : Extern) (w : String) (config : WorkerConfig bits) (call : Nat)
    (tasks : DbOps.Tasks) :
    (∀ ms process, Runs.run (move env w) (start config call) ms = some process →
      Answers (DbOps.fetchUncompleted w tasks) call ms →
      SendsFirst (DbOps.fetchUncompleted w tasks) (LocalWorker.trace env w config call ms)) ↔
    (DbOps.fetchUncompleted w tasks).length ≤ 1 := by
  have nodup : (DbOps.fetchUncompleted w tasks).Nodup := DbOps.fetchUncompleted_nodup.of_map
  generalize DbOps.fetchUncompleted w tasks = ts at nodup ⊢
  constructor
  · intro ordered
    rcases List.eq_nil_or_concat' ts with rfl | ⟨before, last, rfl⟩
    · exact Nat.zero_le 1
    · obtain ⟨⟨process, run⟩, sent⟩ := trace_firstSend env w config call before last
      have first := ordered _ process run (firstSend_answers _ call)
      rw [sent] at first
      cases before with
      | nil => exact Nat.le_refl 1
      | cons head before =>
        -- the task sent first is the head of the list and also its last
        have same : last = head := by
          rcases first with early | late
          · simpa [List.map_append, List.cons_prefix_cons] using early
          · have long := late.length_le
            simp at long
        subst same
        simp at nodup
  · intro short ms process run only
    have reversed := sends_last_first run only
    match ts, short with
    | [], _ => exact reversed
    | [t], _ => exact reversed

def Demo.older : Task :=
  { DbOps.newTask 1 "older" "t01000" .c2 "r1" "" with state := .running, workerId := "w1" }

def Demo.newer : Task :=
  { DbOps.newTask 2 "newer" "t01000" .c2 "r2" "" with state := .running, workerId := "w1" }

/-- A worker that finds two tasks of its own sends the newer one first. -/
theorem newer_recovered_first : ¬ ∀ (env : Extern) (w : String) (config : WorkerConfig) (call : Nat)
    (tasks : DbOps.Tasks) (ms : List Move) (process : LocalWorker),
    Runs.run (move env w) (start config call) ms = some process →
    Answers (DbOps.fetchUncompleted w tasks) call ms →
    SendsFirst (DbOps.fetchUncompleted w tasks) (LocalWorker.trace env w config call ms) := by
  intro ordered
  obtain ⟨⟨process, run⟩, sent⟩ :=
    trace_firstSend Demo.env "w1" (⟨2, by decide, none, 5⟩ : WorkerConfig) 0 [Demo.older] Demo.newer
  have found : DbOps.fetchUncompleted "w1" ⟨[Demo.newer, Demo.older], by decide⟩ =
      [Demo.older] ++ [Demo.newer] := by decide
  have first := ordered Demo.env "w1" ⟨2, by decide, none, 5⟩ 0
    ⟨[Demo.newer, Demo.older], by decide⟩ _ process run
  rw [found, sent] at first
  exact absurd (first (firstSend_answers _ 0)) (by decide)

end LocalWorker

end GpuProxy
