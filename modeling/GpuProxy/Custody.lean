import GpuProxy.Holders

/-!
# Who answers for a task

A task a process has received stays in its hands until its record call ends.
Two exits let go of it with nothing recorded: the last failed read of its
resource, and a record call that ends before the server has made its `UPDATE`.
-/

namespace GpuProxy

/-- The task a storage call has recorded a result for. -/
def Served.records : Served → Option String
  | ⟨_, .recordProof _ tid _, .ok _⟩ => some tid
  | ⟨_, .recordError _ tid _, .ok _⟩ => some tid
  | _ => none

/-- A row that is `Running` after a storage call was so before it, and was not
recorded; or it was dispatched, or set to `Running`. -/
theorem Server.act_running {ch : Choice} {op : Op} {s : Server} {tid : String} {row : Task}
    (found : (act ch op s).2.tasks.find tid = some row) (running : row.state = .running) :
    (s.tasks.find tid = some row ∧ ∀ call, Served.records ⟨call, op, (act ch op s).1⟩ ≠ some tid) ∨
    (∃ w types t, op = .fetchOneTodo w types ∧ (act ch (.fetchOneTodo w types) s).1 = .ok t ∧
      t.id = tid ∧ row.workerId = w) ∨
    ∃ tids, op = .updateStatusById tids .running := by
  cases old : s.tasks.find tid with
  | none =>
    rcases act_find_none ch op old with absent | ⟨miner, ty, rid, comment, -, new⟩
    · rw [absent] at found
      cases found
    · rw [new] at found
      cases found
      cases running
  | some before =>
    rw [act_find_some _ _ old] at found
    cases found
    have hid := DbOps.find_id old
    cases op with
    | fetchOneTodo w types =>
      cases hr : (act ch (.fetchOneTodo w types) s).1 with
      | error e => exact Or.inl ⟨rfl, by rintro call ⟨⟩⟩
      | ok t =>
        simp only [Writes]
        split
        · next same => exact Or.inr (Or.inl ⟨w, types, t, rfl, hr, same.symm.trans hid, rfl⟩)
        · exact Or.inl ⟨rfl, by rintro call ⟨⟩⟩
    | recordError w tid' msg =>
      revert running
      cases (act ch (.recordError w tid' msg) s).1 with
      | error e => exact fun _ => Or.inl ⟨rfl, by rintro call ⟨⟩⟩
      | ok u =>
        simp only [Writes]
        split
        · rintro ⟨⟩
        · next other =>
          refine fun _ => Or.inl ⟨rfl, ?_⟩
          rintro call ⟨⟩
          exact other hid
    | recordProof w tid' proof =>
      revert running
      cases (act ch (.recordProof w tid' proof) s).1 with
      | error e => exact fun _ => Or.inl ⟨rfl, by rintro call ⟨⟩⟩
      | ok u =>
        simp only [Writes]
        split
        · rintro ⟨⟩
        · next other =>
          refine fun _ => Or.inl ⟨rfl, ?_⟩
          rintro call ⟨⟩
          exact other hid
    | updateStatusById tids state =>
      revert running
      cases (act ch (.updateStatusById tids state) s).1 with
      | error e => exact fun _ => Or.inl ⟨rfl, by rintro call ⟨⟩⟩
      | ok u =>
        simp only [Writes]
        split
        · rintro rfl
          exact Or.inr (Or.inr ⟨tids, rfl⟩)
        · exact fun _ => Or.inl ⟨rfl, by rintro call ⟨⟩⟩
    | _ => exact Or.inl ⟨rfl, by rintro call ⟨⟩⟩

namespace LocalWorker

variable {env : Extern} {workerId : String} {answer : Nat → Option Answer} {fresh : Nat}
  {self self' : LocalWorker} {sent : Option Request} {ev : Event} {t : Task}

/-- The tasks in hand for which no record call has been sent. -/
def pending (self : LocalWorker) : List Task :=
  self.fetcher.tasks ++ self.channel ++
    (match self.executor with
      | .preparing undoTask _ _ => [undoTask]
      | _ => []) ++
    self.executions.map Execution.task ++ self.results.map Prod.fst

theorem mem_held : t ∈ self.held ↔ t ∈ self.pending ∨ ∃ call, self.executor = .recording t call := by
  simp only [held, pending, List.mem_append]
  cases self.executor with
  | selecting => simp [Executor.tasks]
  | preparing u n c => simp [Executor.tasks]
  | recording u c =>
    simp only [Executor.tasks, List.mem_singleton, List.not_mem_nil, or_false,
      Executor.recording.injEq]
    constructor
    · rintro (((h | rfl) | h) | h)
      · exact Or.inl (Or.inl (Or.inl h))
      · exact Or.inr ⟨c, rfl, rfl⟩
      · exact Or.inl (Or.inl (Or.inr h))
      · exact Or.inl (Or.inr h)
    · rintro (((h | h) | h) | ⟨c', rfl, -⟩)
      · exact Or.inl (Or.inl (Or.inl h))
      · exact Or.inl (Or.inr h)
      · exact Or.inr h
      · exact Or.inl (Or.inl (Or.inr rfl))

/-- A record call goes on until it ends. -/
theorem Step.recording {call : Nat} (h : Step env workerId answer fresh self ev self' sent)
    (executor : self.executor = .recording t call) :
    self'.executor = .recording t call ∨ ∃ d, ev = .recorded d := by
  cases h with
  | recorded => exact Or.inr ⟨_, rfl⟩
  | started | startFailed | fetched | fetchFailed | full | pop | fetch | push | counted | finish
    | send => exact Or.inl executor
  | receive executor' | read executor' | retry executor' | giveUp executor' | take executor' =>
    rw [executor] at executor'
    cases executor'

/-- The fetcher waits until its call ends. -/
theorem Step.waiting {call : Nat} (h : Step env workerId answer fresh self ev self' sent)
    (waits : self.fetcher = .starting call ∨ self.fetcher = .fetching call) :
    self'.fetcher = self.fetcher ∨ ∃ d, ev = .fetched d := by
  cases h with
  | started | startFailed | fetched | fetchFailed => exact Or.inr ⟨_, rfl⟩
  | full | receive | read | retry | giveUp | finish | send | take | recorded => exact Or.inl rfl
  | pop fetcher | fetch fetcher | push fetcher | counted fetcher =>
    rw [fetcher] at waits
    simp at waits

/-- What is pending or received stays pending, unless it is abandoned or its record
call is sent. -/
theorem Step.pending (h : Step env workerId answer fresh self ev self' sent)
    (ht : t ∈ self.pending ∨ t ∈ self.received answer ev) :
    t ∈ self'.pending ∨ t ∈ self.abandoned answer ev ∨ self'.executor = .recording t fresh := by
  cases h with
  | started fetcher ends reply =>
    obtain ⟨rfl, ha⟩ := result_answered ends
    cases toTasks_ok reply
    left
    simpa [LocalWorker.pending, received, LocalWorker.incoming, fetcher, ha, Fetcher.tasks, or_comm, or_assoc,
      or_left_comm] using ht
  | startFailed fetcher ends reply =>
    rw [received_startFailed fetcher ends reply] at ht
    left
    simpa [LocalWorker.pending, fetcher, Fetcher.tasks] using ht
  | fetched fetcher ends reply =>
    obtain ⟨rfl, ha⟩ := result_answered ends
    cases toTask_ok reply
    left
    simpa [LocalWorker.pending, received, LocalWorker.incoming, fetcher, ha, Fetcher.tasks, or_comm, or_assoc,
      or_left_comm] using ht
  | fetchFailed fetcher ends reply =>
    rw [received_fetchFailed fetcher ends reply] at ht
    left
    simpa [LocalWorker.pending, fetcher, Fetcher.tasks] using ht
  | full =>
    left
    simpa [received] using ht
  | pop fetcher | fetch fetcher | counted fetcher =>
    left
    simpa [LocalWorker.pending, received, fetcher, Fetcher.tasks] using ht
  | push fetcher =>
    left
    simpa [LocalWorker.pending, received, fetcher, Fetcher.tasks, or_comm, or_assoc,
      or_left_comm] using ht
  | receive executor channel =>
    left
    simpa [LocalWorker.pending, received, executor, channel, or_comm, or_assoc, or_left_comm] using ht
  | read executor =>
    left
    simpa [LocalWorker.pending, received, executor, Execution.task, or_comm, or_assoc,
      or_left_comm] using ht
  | retry executor =>
    left
    simpa [LocalWorker.pending, received, executor] using ht
  | giveUp executor ends reply last =>
    simp only [LocalWorker.pending, received, executor, abandoned, ends, reply, last, ↓reduceIte,
      List.mem_append, List.mem_singleton, List.not_mem_nil, or_false] at ht ⊢
    tauto
  | @finish i seed undoTask resource execution =>
    left
    have same : (self.executions.set i (.sending undoTask (c2 env resource seed))).map
        Execution.task = self.executions.map Execution.task := map_task_set execution rfl
    simpa [LocalWorker.pending, received, -List.map_set, same] using ht
  | send execution empty =>
    left
    have moved := (perm_executions execution).mem_iff (a := t)
    simp only [LocalWorker.pending, received, empty, moved, Execution.task, List.mem_append,
      List.mem_cons, List.map_cons, List.map_nil, List.not_mem_nil, or_false] at ht ⊢
    tauto
  | take executor results =>
    simp only [LocalWorker.pending, received, executor, results, List.mem_append, List.mem_cons,
      List.map_cons, List.not_mem_nil, or_false, Executor.recording.injEq, and_true] at ht ⊢
    tauto
  | recorded executor =>
    left
    simpa [LocalWorker.pending, received, executor] using ht

end LocalWorker

namespace System

variable {env : Extern} {s s' : System env} {a : Action env} {w tid : String} {call : Nat}

/-- `call` has recorded a result for the task: the server has made its `UPDATE`. -/
def Recorded (s : System env) (call : Nat) (tid : String) : Prop :=
  ∃ e ∈ s.log, e.call = call ∧ e.records = some tid

/-- The process of `w` takes in task `t`. -/
def Receives (w : String) (t : Task) (s : System env) (a : Action env) : Prop :=
  ∃ self ev, s.workers w = some self ∧ a = .worker w ev ∧ t ∈ self.received s.answer ev

/-- The process of `w` lets go of a task only with a result of it recorded. -/
structure Hands (w : String) (s : System env) (a : Action env) : Prop where
  alive : a ≠ .crashWorker w
  reads : ∀ self ev, s.workers w = some self → a = .worker w ev → self.abandoned s.answer ev = []
  records : ∀ self d t call, s.workers w = some self → a = .worker w (.recorded d) →
    self.executor = .recording t call → s.Recorded call t.id

theorem step_recorded (h : s.step a = some s') (recorded : s.Recorded call tid) :
    s'.Recorded call tid := by
  obtain ⟨e, he, same⟩ := recorded
  rcases step_server h with ⟨-, log, -⟩ | ⟨_, _, _, -, -, log⟩
  · exact ⟨e, log ▸ he, same⟩
  · exact ⟨e, by rw [log]; exact List.mem_cons_of_mem _ he, same⟩

/-- The process of `w` does nothing, or takes the step. -/
theorem step_worker {self : LocalWorker} (h : s.step a = some s') (alive : s.workers w = some self)
    (survives : a ≠ .crashWorker w) :
    (s'.workers w = some self ∧ ∀ ev, a ≠ .worker w ev) ∨
    ∃ ev self' sent, a = .worker w ev ∧
      LocalWorker.Step env w s.answer s.calls.length self ev self' sent ∧
      s' = (s.send none sent).setWorker w (some self') := by
  cases step_cases h with
  | request | serve | startPlugin | plugin => exact Or.inl ⟨alive, by rintro ev ⟨⟩⟩
  | @startWorker v config free =>
    have hv : w ≠ v := by
      rintro rfl
      rw [alive] at free
      cases free
    exact Or.inl ⟨(setWorker_ne hv).trans alive, by rintro ev ⟨⟩⟩
  | @crashWorker v =>
    have hv : w ≠ v := by
      rintro rfl
      exact survives rfl
    exact Or.inl ⟨(setWorker_ne hv).trans alive, by rintro ev ⟨⟩⟩
  | @worker v ev before after sent alive' move =>
    by_cases hv : w = v
    · subst hv
      rw [alive] at alive'
      cases alive'
      exact Or.inr ⟨ev, after, sent, rfl, move, rfl⟩
    · refine Or.inl ⟨(setWorker_ne hv).trans alive, ?_⟩
      rintro _ ⟨⟩
      exact hv rfl

/-- The task is in the hands of `w`, or recorded by a call made since there were `since`. -/
def Custody (w tid : String) (since : Nat) (s : System env) : Prop :=
  (∃ self, s.workers w = some self ∧ ∃ t, t.id = tid ∧
    (t ∈ self.pending ∨ ∃ call, since ≤ call ∧ self.executor = .recording t call)) ∨
  ∃ call, since ≤ call ∧ s.Recorded call tid

theorem Custody.holds_or_recorded {since : Nat} (custody : s.Custody w tid since) :
    s.Holds w tid ∨ ∃ call, since ≤ call ∧ s.Recorded call tid := by
  rcases custody with ⟨self, alive, t, same, pending | ⟨call, -, executor⟩⟩ | recorded
  · exact Or.inl ⟨self, alive, t, LocalWorker.mem_held.mpr (Or.inl pending), same⟩
  · exact Or.inl ⟨self, alive, t, LocalWorker.mem_held.mpr (Or.inr ⟨call, executor⟩), same⟩
  · exact Or.inr recorded

/-- A task that is in hand, or comes in, goes on to its record call. -/
theorem step_custody {self : LocalWorker} {t : Task} {since : Nat} (hands : Hands w s a)
    (h : s.step a = some s') (alive : s.workers w = some self) (bound : since ≤ s.calls.length)
    (ht : (t ∈ self.pending ∨ ∃ call, since ≤ call ∧ self.executor = .recording t call) ∨
      Receives w t s a) : s'.Custody w t.id since := by
  rcases step_worker h alive hands.alive with ⟨alive', other⟩ | ⟨ev, self', sent, rfl, move, rfl⟩
  · rcases ht with held | ⟨self', ev, -, rfl, -⟩
    · exact Or.inl ⟨self, alive', t, rfl, held⟩
    · exact absurd rfl (other ev)
  · have goes (mem : t ∈ self.pending ∨ t ∈ self.received s.answer ev) :
        ((s.send none sent).setWorker w (some self')).Custody w t.id since := by
      rcases move.pending mem with kept | gone | recording
      · exact Or.inl ⟨self', setWorker_self, t, rfl, Or.inl kept⟩
      · rw [hands.reads self ev alive rfl] at gone
        cases gone
      · exact Or.inl ⟨self', setWorker_self, t, rfl, Or.inr ⟨_, bound, recording⟩⟩
    rcases ht with (pending | ⟨call, later, executor⟩) | ⟨p, ev', alive', ⟨⟩, received⟩
    · exact goes (Or.inl pending)
    · rcases move.recording executor with still | ⟨d, rfl⟩
      · exact Or.inl ⟨self', setWorker_self, t, rfl, Or.inr ⟨call, later, still⟩⟩
      · have recorded := hands.records self d t call alive rfl executor
        exact Or.inr ⟨call, later, step_recorded h recorded⟩
    · rw [alive] at alive'
      cases alive'
      exact goes (Or.inr received)

theorem run_custody {u : System env} {as : List (Action env)} {since : Nat}
    (run : Runs.run step u as = some s) (hands : Runs.Along step (Hands w) u as)
    (custody : u.Custody w tid since) (bound : since ≤ u.calls.length) : s.Custody w tid since := by
  refine (Runs.invariant_trace (I := fun _ s => s.Custody w tid since ∧ since ≤ s.calls.length)
    run ⟨custody, bound⟩ ?_).1
  rintro pre a s s' ⟨post, rfl⟩ hs ⟨custody, bound⟩ h
  have hand := hands pre a post s (by simp) hs
  refine ⟨?_, bound.trans (step_length h)⟩
  rcases custody with ⟨self, alive, t, rfl, held⟩ | ⟨call, later, recorded⟩
  · exact step_custody hand h alive bound (Or.inl held)
  · exact Or.inr ⟨call, later, step_recorded h recorded⟩

/-- A received task is in hand until a call made since then has recorded a result of it. -/
theorem received_custody {u v : System env} {pre post : List (Action env)} {t : Task}
    (run : Runs.run step v (pre ++ a :: post) = some s)
    (hands : Runs.Along step (Hands w) v (pre ++ a :: post)) (before : Runs.run step v pre = some u)
    (receives : Receives w t u a) : s.Custody w t.id u.calls.length := by
  obtain ⟨u', u₁, before', h, after⟩ := Runs.run_split run
  rw [before] at before'
  cases before'
  obtain ⟨self, ev, alive, received⟩ := receives
  have first : u₁.Custody w t.id u.calls.length :=
    step_custody (hands pre a post u rfl before) h alive (Nat.le_refl _)
      (Or.inr ⟨self, ev, alive, received⟩)
  have rest : Runs.Along step (Hands w) u₁ post := (Runs.along_cons.mp (hands.drop before)).2 u₁ h
  exact run_custody after rest first (step_length h)

/-! ## Running tasks

A row that says `Running` under `w` belongs to a task that is still on its way
through the process, unless an answer to a fetch was lost. -/

/-- Every dispatch to `w` answers the fetch its process waits for, and reaches it;
nobody sets a task to `Running`. -/
structure Fetches (w : String) (s : System env) (a : Action env) : Prop where
  dispatch : ∀ call ch types t, s.Serves a call ch (.fetchOneTodo w types) →
    (s.server.act ch (.fetchOneTodo w types)).1 = .ok t →
      ∃ self, s.workers w = some self ∧ self.fetcher = .fetching call
  reply : ∀ self d, s.workers w = some self → a = .worker w (.fetched d) →
    self.received s.answer (.fetched d) = self.incoming s.answer
  noRunning : ∀ call ch tids, ¬ s.Serves a call ch (.updateStatusById tids .running)

/-- The process of `w` has the task, and has not recorded a result for it. -/
def Live (s : System env) (w tid : String) : Prop :=
  ∃ self, s.workers w = some self ∧
    ((∃ t, (t ∈ self.pending ∨ t ∈ self.incoming s.answer) ∧ t.id = tid) ∨
      ∃ t call, self.executor = .recording t call ∧ t.id = tid ∧ ¬ s.Recorded call tid)

theorem incoming_final {self self' : LocalWorker} {t : Task} (h : s.step a = some s')
    (fetcher : self'.fetcher = self.fetcher) (ht : t ∈ self.incoming s.answer) :
    t ∈ self'.incoming s'.answer := by
  rw [LocalWorker.mem_incoming] at ht ⊢
  rw [fetcher]
  rcases ht with ⟨call, ts, waits, ha, ht⟩ | ⟨call, waits, ha⟩
  · exact Or.inl ⟨call, ts, waits, step_answer h ha, ht⟩
  · exact Or.inr ⟨call, waits, step_answer h ha⟩

theorem fresh_unrecorded (consistent : s.Consistent) : ¬ s.Recorded s.calls.length tid := by
  rintro ⟨e, he, same, -⟩
  exact absurd (consistent.logged e he) (by omega)

/-- A task pending or received is live after the step. -/
theorem worker_live {self self' : LocalWorker} {ev : LocalWorker.Event} {sent : Option Request}
    {t : Task} (consistent : s.Consistent)
    (move : LocalWorker.Step env w s.answer s.calls.length self ev self' sent)
    (reads : self.abandoned s.answer ev = [])
    (ht : t ∈ self.pending ∨ t ∈ self.received s.answer ev) :
    ((s.send none sent).setWorker w (some self')).Live w t.id := by
  refine ⟨self', setWorker_self, ?_⟩
  rcases move.pending ht with pending | gone | recording
  · exact Or.inl ⟨t, Or.inl pending, rfl⟩
  · rw [reads] at gone
    cases gone
  · exact Or.inr ⟨t, _, recording, rfl, fresh_unrecorded consistent⟩

theorem step_live (consistent : s.Consistent) (hands : Hands w s a) (fetches : Fetches w s a)
    (h : s.step a = some s') (live : s.Live w tid)
    (unrecorded : ∀ call, s'.Recorded call tid → s.Recorded call tid) : s'.Live w tid := by
  obtain ⟨self, alive, live⟩ := live
  rcases step_worker h alive hands.alive with ⟨alive', -⟩ | ⟨ev, self', sent, rfl, move, rfl⟩
  · refine ⟨self, alive', ?_⟩
    rcases live with ⟨t, pending | comes, same⟩ | ⟨t, call, executor, same, not⟩
    · exact Or.inl ⟨t, Or.inl pending, same⟩
    · exact Or.inl ⟨t, Or.inr (incoming_final h rfl comes), same⟩
    · exact Or.inr ⟨t, call, executor, same, fun recorded => not (unrecorded call recorded)⟩
  · have reads := hands.reads self ev alive rfl
    rcases live with ⟨t, pending | comes, rfl⟩ | ⟨t, call, executor, rfl, not⟩
    · exact worker_live consistent move reads (Or.inl pending)
    · have waits : ∃ call, self.fetcher = .starting call ∨ self.fetcher = .fetching call := by
        rcases LocalWorker.mem_incoming.mp comes with ⟨call, -, waits, -⟩ | ⟨call, waits, -⟩
        · exact ⟨call, Or.inl waits⟩
        · exact ⟨call, Or.inr waits⟩
      obtain ⟨call, waits⟩ := waits
      rcases move.waiting waits with same | ⟨d, rfl⟩
      · exact ⟨self', setWorker_self, Or.inl ⟨t, Or.inr (incoming_final h same comes), rfl⟩⟩
      · rw [← fetches.reply self d alive rfl] at comes
        exact worker_live consistent move reads (Or.inr comes)
    · rcases move.recording executor with executor' | ⟨d, rfl⟩
      · exact ⟨self', setWorker_self, Or.inr ⟨t, call, executor', rfl, not⟩⟩
      · exact absurd (hands.records self d t call alive rfl executor) not

/-- A dispatch to `w` is on its way to the process. -/
theorem dispatch_live {ch : Choice} {types : Option (List TaskType)} {t : Task}
    (consistent : s.Consistent) (fetches : Fetches w s a) (h : s.step a = some s')
    (serves : s.Serves a call ch (.fetchOneTodo w types))
    (response : (s.server.act ch (.fetchOneTodo w types)).1 = .ok t) : s'.Live w t.id := by
  obtain ⟨self, alive, fetcher⟩ := fetches.dispatch call ch types t serves response
  obtain ⟨rfl, c, k, get, program⟩ := serves
  cases step_cases h with
  | serve get' program' =>
    rw [get] at get'
    cases get'
    rw [program] at program'
    cases program'
    obtain ⟨op, comes⟩ := consistent.fetch_served ch get program alive fetcher
    cases op
    rw [response] at comes
    exact ⟨self, alive, Or.inl ⟨t, Or.inr (by rw [comes]; simp), rfl⟩⟩

/-- A task that is received and runs under `w` is live. -/
theorem running_live {u v : System env} {server : Server} {config : WorkerConfig}
    {as : List (Action env)} (reach : Runs.Reachable step (idle server) u)
    (start : u.step (.startWorker w config) = some v) (run : Runs.run step v as = some s)
    (hands : Runs.Along step (Hands w) v as) (fetches : Runs.Along step (Fetches w) v as) :
    s.Consistent ∧ ∀ t, Runs.Happened step (Receives w t) v as →
      ∀ row, s.server.tasks.find t.id = some row → row.state = .running → row.workerId = w →
        s.Live w t.id := by
  refine Runs.invariant_trace (I := fun as s => s.Consistent ∧
    ∀ t, Runs.Happened step (Receives w t) v as → ∀ row, s.server.tasks.find t.id = some row →
      row.state = .running → row.workerId = w → s.Live w t.id)
    run ⟨reachable_consistent (reach.next start), fun t h => absurd h (Runs.happened_nil _ _)⟩ ?_
  rintro pre a s s' ⟨post, rfl⟩ hs ⟨consistent, lives⟩ h
  have hand := hands pre a post s (by simp) hs
  have fetch := fetches pre a post s (by simp) hs
  refine ⟨step_consistent consistent h, fun t received row found running worker => ?_⟩
  rcases step_server h with ⟨server, log, -⟩ | ⟨call, ch, op, serves, server, log⟩
  · rw [server] at found
    rcases (Runs.happened_snoc hs).mp received with before | ⟨self, ev, alive, rfl, ht⟩
    · apply step_live consistent hand fetch h (lives t before row found running worker)
      rintro call ⟨e, he, same⟩
      exact ⟨e, log ▸ he, same⟩
    · rcases step_worker h alive hand.alive with ⟨-, other⟩ | ⟨_, self', sent, ⟨⟩, move, rfl⟩
      · exact absurd rfl (other ev)
      · exact worker_live consistent move (hand.reads self ev alive rfl) (Or.inr ht)
  · rw [server] at found
    rcases Server.act_running found running with ⟨found, unrecorded⟩ |
      ⟨w', types, t', rfl, response, same, owner⟩ | ⟨tids, rfl⟩
    · rcases (Runs.happened_snoc hs).mp received with before | ⟨self, ev, -, rfl, -⟩
      · apply step_live consistent hand fetch h (lives t before row found running worker)
        rintro i ⟨e, he, same, records⟩
        rw [log] at he
        rcases List.mem_cons.mp he with rfl | he
        · exact absurd records (unrecorded call)
        · exact ⟨e, he, same, records⟩
      · cases serves.1
    · obtain rfl := owner.symm.trans worker
      rw [← same]
      exact dispatch_live consistent fetch h serves response
    · exact absurd serves (fetch.noRunning call ch tids)

/-- A live worker answers for every task it received, as long as no read gives up
and no record call ends unrecorded: it has the task until a call made after the task came has
recorded it. If no dispatch is lost on the way to it either, it has every task that runs under
its id. -/
theorem worker_answers_for_tasks {u v : System env} {server : Server} {config : WorkerConfig}
    {as : List (Action env)} (reach : Runs.Reachable step (idle server) u)
    (start : u.step (.startWorker w config) = some v) (run : Runs.run step v as = some s)
    (hands : Runs.Along step (Hands w) v as) :
    (∀ t pre a post m, as = pre ++ a :: post → Runs.run step v pre = some m → Receives w t m a →
      s.Holds w t.id ∨ ∃ call, m.calls.length ≤ call ∧ s.Recorded call t.id) ∧
    (Runs.Along step (Fetches w) v as → s.has w = [] →
      ∀ t, Runs.Happened step (Receives w t) v as → ∀ row, s.server.tasks.find t.id = some row →
        ¬ (row.state = .running ∧ row.workerId = w)) := by
  constructor
  · rintro t pre a post m rfl before receives
    exact (received_custody run hands before receives).holds_or_recorded
  rintro fetches nothing t received row found ⟨running, worker⟩
  obtain ⟨self, alive, live⟩ :=
    (running_live reach start run hands fetches).2 t received row found running worker
  rw [has_alive alive, List.append_eq_nil_iff] at nothing
  have empty (t : Task) : t ∉ self.held := by simp [nothing.1]
  rcases live with ⟨t, pending | comes, -⟩ | ⟨t, call, executor, -⟩
  · exact empty t (LocalWorker.mem_held.mpr (Or.inl pending))
  · rw [nothing.2] at comes
    cases comes
  · exact empty t (LocalWorker.mem_held.mpr (Or.inr ⟨call, executor⟩))

/-! ## Two runs -/

/-- `Hands`, computed. -/
def checkHands (w : String) (s : System env) : Action env → Bool
  | .crashWorker v => v != w
  | .worker v ev =>
    v != w ||
      match s.workers v with
      | some self =>
        (self.abandoned s.answer ev).isEmpty &&
          match ev, self.executor with
          | .recorded _, .recording t call =>
            s.log.any fun e => e.call == call && e.records == some t.id
          | _, _ => true
      | none => true
  | _ => true

theorem checkHands_sound (s : System env) (a : Action env) (h : checkHands w s a = true) :
    Hands w s a where
  alive := by
    rintro rfl
    simp [checkHands] at h
  reads := by
    rintro self ev alive rfl
    simp only [checkHands, alive, bne_self_eq_false, Bool.false_or, Bool.and_eq_true,
      List.isEmpty_iff] at h
    exact h.1
  records := by
    rintro self d t call alive rfl executor
    simp only [checkHands, alive, executor, bne_self_eq_false, Bool.false_or, Bool.and_eq_true,
      List.any_eq_true, beq_iff_eq] at h
    exact h.2

/-- `Fetches`, computed. -/
def checkFetches (w : String) (s : System env) : Action env → Bool
  | .serve call ch =>
    match s.calls[call]?.bind Call.program with
    | some (.call (.fetchOneTodo v types) _) =>
      v != w ||
        match (s.server.act ch (.fetchOneTodo v types)).1, s.workers v with
        | .ok _, some self => self.fetcher == .fetching call
        | .ok _, none => false
        | .error _, _ => true
    | some (.call (.updateStatusById _ state) _) => state != .running
    | _ => true
  | .worker v (.fetched d) =>
    v != w ||
      match s.workers v with
      | some self => self.received s.answer (.fetched d) == self.incoming s.answer
      | none => true
  | _ => true

theorem checkFetches_sound (s : System env) (a : Action env) (h : checkFetches w s a = true) :
    Fetches w s a where
  dispatch := by
    rintro call ch types t ⟨rfl, c, k, get, program⟩ response
    simp only [checkFetches, get, Option.bind_some, program, response, bne_self_eq_false,
      Bool.false_or] at h
    split at h
    · next self _ alive =>
      exact ⟨self, alive, by simpa using h⟩
    · cases h
    · next e => cases e
  reply := by
    rintro self d alive rfl
    simpa [checkFetches, alive] using h
  noRunning := by
    rintro call ch tids ⟨rfl, c, k, get, program⟩
    simp [checkFetches, get, program] at h

/-- The process of `w1` starts on a server whose first task waits, and takes it in. -/
def receiveRun : List (Action Demo.env) :=
  [.serve 0 ⟨1, none, none⟩, .worker "w1" (.fetched .answered), .worker "w1" .tick,
    .serve 1 ⟨2, none, Demo.waiting⟩, .worker "w1" (.fetched .answered), .worker "w1" .push,
    .worker "w1" .counted, .worker "w1" .receive]

def started (resource : Bytes) : System Demo.env :=
  ((idle (Demo.queued resource)).send none (some (.fetchUncompleted "w1"))).setWorker "w1"
    (some (LocalWorker.start Demo.config 0))

theorem step_started (resource : Bytes) :
    (idle (Demo.queued resource)).step (.startWorker "w1" Demo.config) = some (started resource) := rfl

/-- The task as the fetch dispatches it. -/
def fetchedTask : Task :=
  DbOps.setRunning 2 "w1" (DbOps.newTask 0 "48bb11f3-3f83-5d9f-ad3c-edd0b5481a6f" "01000" .c2
    Demo.resourceId "1 MinerId(1000)")

/-- The start-up list and the fetch were its calls so far. -/
theorem receives_fetchedTask : ∃ u, Runs.run step (started [0]) (receiveRun.take 4) = some u ∧
    u.calls.length = 2 ∧ Receives "w1" fetchedTask u (.worker "w1" (.fetched .answered)) := by
  have comes : ((Runs.run step (started [0]) (receiveRun.take 4)).bind fun s =>
      (s.workers "w1").map fun self =>
        (s.calls.length, self.received s.answer (.fetched .answered))) = some (2, [fetchedTask]) := by
    decide +kernel
  obtain ⟨u, hu, hr⟩ := Option.bind_eq_some_iff.mp comes
  obtain ⟨self, alive, seen⟩ := Option.map_eq_some_iff.mp hr
  obtain ⟨calls, received⟩ := Prod.mk.inj seen
  exact ⟨u, hu, calls, self, _, alive, rfl, by simp [received]⟩

/-- The resource is damaged, so the execution fails, and the failure is recorded. -/
def recordRun : List (Action Demo.env) :=
  receiveRun ++ [.serve 2 ⟨3, none, none⟩, .worker "w1" (.read .answered), .worker "w1" (.finish 0 0),
    .worker "w1" (.send 0), .worker "w1" .take, .serve 3 ⟨4, none, none⟩,
    .worker "w1" (.recorded .answered)]

/-- The process has received the task and has nothing in hand: a later call has recorded it. -/
theorem worker_answers_for_tasks_demo : ∃ s, Runs.run step (started [0]) recordRun = some s ∧
    s.has "w1" = [] ∧ Runs.Happened step (Receives "w1" fetchedTask) (started [0]) recordRun ∧
    (∃ call, 2 ≤ call ∧ s.Recorded call fetchedTask.id) ∧
    ∀ row, s.server.tasks.find fetchedTask.id = some row →
      ¬ (row.state = .running ∧ row.workerId = "w1") := by
  have ran : ((Runs.run step (started [0]) recordRun).map fun s => s.has "w1") = some [] := by
    decide +kernel
  obtain ⟨s, run, empty⟩ := Option.map_eq_some_iff.mp ran
  have hands : Runs.Along step (Hands "w1") (started [0]) recordRun :=
    Runs.along_of_check checkHands_sound (by decide +kernel)
  have fetches : Runs.Along step (Fetches "w1") (started [0]) recordRun :=
    Runs.along_of_check checkFetches_sound (by decide +kernel)
  obtain ⟨u, before, calls, receives⟩ := receives_fetchedTask
  obtain ⟨answers, idle⟩ :=
    worker_answers_for_tasks (Runs.reachable_refl _) (step_started [0]) run hands
  have received : Runs.Happened step (Receives "w1" fetchedTask) (started [0]) recordRun :=
    ⟨receiveRun.take 4, _, _, u, rfl, before, receives⟩
  refine ⟨s, run, empty, received, ?_, idle fetches empty fetchedTask received⟩
  rcases answers fetchedTask (receiveRun.take 4) _ _ u rfl before receives with holds | recorded
  · obtain ⟨t, ht, -⟩ := holds_has holds
    rw [empty] at ht
    cases ht
  · rwa [calls] at recorded

/-- Six reads of the resource fail, one more than `RETRY_SUM`. -/
def giveUpRun : List (Action Demo.env) :=
  receiveRun ++ List.replicate 6 (.worker "w1" (.read (.failed "connection reset")))

/-- The process has let go of the task with nothing recorded. The row says
`Running` under its id, so no fetch will offer it again. -/
theorem given_up_task_stays_running :
    ∃ s t, Runs.run step (started [0]) giveUpRun = some s ∧
      Runs.Happened step (Receives "w1" t) (started [0]) giveUpRun ∧
      ¬ s.Holds "w1" t.id ∧ (¬ ∃ call, s.Recorded call t.id) ∧ s.has "w1" = [] ∧
      ∃ row, s.server.tasks.find t.id = some row ∧ row.state = .running ∧ row.workerId = "w1" := by
  have ends : ((Runs.run step (started [0]) giveUpRun).map fun s =>
      (s.has "w1", s.log.filterMap Served.records,
        (s.server.tasks.find "48bb11f3-3f83-5d9f-ad3c-edd0b5481a6f").map fun row =>
          (row.state, row.workerId))) = some ([], [], some (.running, "w1")) := by
    decide +kernel
  obtain ⟨u, before, -, receives⟩ := receives_fetchedTask
  obtain ⟨s, run, hs⟩ := Option.map_eq_some_iff.mp ends
  simp only [Prod.mk.injEq, Option.map_eq_some_iff] at hs
  obtain ⟨empty, unrecorded, row, found, running, owner⟩ := hs
  refine ⟨s, fetchedTask, run, ⟨receiveRun.take 4, _, _, u, rfl, before, receives⟩, ?_, ?_, empty,
    row, found, running, owner⟩
  · intro holds
    obtain ⟨t, ht, -⟩ := holds_has holds
    rw [empty] at ht
    cases ht
  · rintro ⟨call, e, he, -, records⟩
    have listed := List.mem_filterMap.mpr ⟨e, he, records⟩
    rw [unrecorded] at listed
    cases listed

end System

end GpuProxy
