import GpuProxy.System

/-!
# Who holds a task

A process has the tasks in its hands and those in an answer it waits for.
Without status updates a dispatched task is never `Init` again, so it stays
with the worker id it went to, through crashes and restarts.
-/

namespace GpuProxy

/-- A row that is not `Init` can only be recorded, short of a status update. -/
theorem Server.act_dispatched {ch : Choice} {op : Op} {s : Server} {tid : String} {row : Task}
    (noUpdate : ∀ tids state, op ≠ .updateStatusById tids state)
    (found : s.tasks.find tid = some row) (dispatched : row.state ≠ .init) :
    ∃ row', (act ch op s).2.tasks.find tid = some row' ∧ row'.state ≠ .init ∧
      (row'.state = .running → row' = row) := by
  refine ⟨_, act_find_some _ _ found, ?_⟩
  cases op with
  | fetchOneTodo w types =>
    cases hr : (act ch (.fetchOneTodo w types) s).1 with
    | error e => exact ⟨dispatched, fun _ => rfl⟩
    | ok t =>
      simp only [Writes]
      split
      · next same =>
        obtain ⟨row', found', init, -⟩ := act_fetchOneTodo_ok hr
        rw [← same, DbOps.find_id found, found] at found'
        cases found'
        exact absurd init dispatched
      · exact ⟨dispatched, fun _ => rfl⟩
  | recordError w tid' msg =>
    cases (act ch (.recordError w tid' msg) s).1 with
    | error e => exact ⟨dispatched, fun _ => rfl⟩
    | ok _ =>
      simp only [Writes]
      split
      · exact ⟨by rintro ⟨⟩, by rintro ⟨⟩⟩
      · exact ⟨dispatched, fun _ => rfl⟩
  | recordProof w tid' proof =>
    cases (act ch (.recordProof w tid' proof) s).1 with
    | error e => exact ⟨dispatched, fun _ => rfl⟩
    | ok _ =>
      simp only [Writes]
      split
      · exact ⟨by rintro ⟨⟩, by rintro ⟨⟩⟩
      · exact ⟨dispatched, fun _ => rfl⟩
  | updateStatusById tids state => exact absurd rfl (noUpdate tids state)
  | _ => exact ⟨dispatched, fun _ => rfl⟩

namespace System

variable {env : Extern} {s s' : System env} {a : Action env} {w : String}

/-- The tasks of worker id `w`: in its process's hands, or on their way to it. -/
def has (s : System env) (w : String) : List Task :=
  match s.workers w with
  | some self => self.held ++ self.incoming s.answer
  | none => []

def Holds (s : System env) (w tid : String) : Prop :=
  ∃ self, s.workers w = some self ∧ ∃ t ∈ self.held, t.id = tid

/-- The step makes no status update. -/
def NoUpdate (s : System env) (a : Action env) : Prop :=
  ∀ call ch tids state, ¬ s.Serves a call ch (.updateStatusById tids state)

/-- The task has been dispatched to `w`, and nobody else has it. -/
structure Tied (s : System env) (tid w : String) : Prop where
  row : ∃ row, s.server.tasks.find tid = some row ∧ row.state ≠ .init ∧
    (row.state = .running → row.workerId = w)
  others : ∀ v, v ≠ w → ∀ t ∈ s.has v, t.id ≠ tid

structure Exclusive (s : System env) : Prop where
  consistent : s.Consistent
  starting : ∀ w self, s.workers w = some self →
    ∀ call, self.fetcher = .starting call → self.held = []
  nodup : ∀ w, ((s.has w).map Task.id).Nodup
  tied : ∀ w, ∀ t ∈ s.has w, s.Tied t.id w

theorem has_alive {self : LocalWorker} (alive : s.workers w = some self) :
    s.has w = self.held ++ self.incoming s.answer := by
  simp only [has, alive]

theorem has_dead (dead : s.workers w = none) : s.has w = [] := by
  simp only [has, dead]

/-- A process whose state is the same has the same tasks, unless a call it waits
for is answered. -/
theorem has_congr (workers : s'.workers w = s.workers w)
    (answers : ∀ self, s.workers w = some self → ∀ call,
      self.fetcher = .starting call ∨ self.fetcher = .fetching call →
        s'.answer call = s.answer call) : s'.has w = s.has w := by
  cases alive : s.workers w with
  | none => rw [has_dead alive, has_dead (workers.trans alive)]
  | some self =>
    rw [has_alive alive, has_alive (workers.trans alive),
      LocalWorker.incoming_congr (answers self alive)]

theorem Consistent.awaited (consistent : s.Consistent) {self : LocalWorker}
    (alive : s.workers w = some self) {call : Nat}
    (waits : self.fetcher = .starting call ∨ self.fetcher = .fetching call) :
    call < s.calls.length := by
  have known := consistent.workers w self alive
  rcases waits with fetcher | fetcher
  · obtain ⟨c, get, -⟩ := known.starting call fetcher
    exact (List.getElem?_eq_some_iff.mp get).1
  · obtain ⟨c, get, -⟩ := known.fetching call fetcher
    exact (List.getElem?_eq_some_iff.mp get).1

/-- Tasks come to a process in the answer to its fetch, and in no other step. -/
inductive Gains (s : System env) (a : Action env) (w : String) : List Task → Prop where
  | dispatched {call ch types t} (serves : s.Serves a call ch (.fetchOneTodo w types))
      (response : (s.server.act ch (.fetchOneTodo w types)).1 = .ok t) : Gains s a w [t]
  | uncompleted {call ch ts} (serves : s.Serves a call ch (.fetchUncompleted w))
      (response : (s.server.act ch (.fetchUncompleted w)).1 = .ok ts) (nothing : s.has w = []) :
      Gains s a w ts

theorem incoming_unanswered {self : LocalWorker} {call : Nat} (unanswered : s.answer call = none)
    (waits : self.fetcher = .starting call ∨ self.fetcher = .fetching call) :
    self.incoming s.answer = [] := by
  rcases waits with fetcher | fetcher <;> simp [LocalWorker.incoming, fetcher, unanswered]

section
variable {call : Nat} {ch : Choice} {c : Call} {op : Op}
  {k : op.Response → Program Op Op.Response Answer} {self : LocalWorker}

/-- The storage call of a fetch the process waits for is the dispatch, and what that
returns comes in. -/
theorem Consistent.fetch_served (ch : Choice) (consistent : s.Consistent) (get : s.calls[call]? = some c)
    (program : c.program = some (.call op k)) (alive : s.workers w = some self)
    (fetcher : self.fetcher = .fetching call) :
    op = .fetchOneTodo w self.config.allowTypes ∧
      self.incoming (s.serve call ch c op k).answer =
        match (s.server.act ch (.fetchOneTodo w self.config.allowTypes)).1 with
        | .ok t => [t]
        | .error _ => [] := by
  obtain ⟨d, get', request⟩ := (consistent.workers w self alive).fetching call fetcher
  rw [get] at get'
  cases get'
  rcases consistent.single call c get _ _ (by rw [request]; rfl) with
    ⟨shape, -⟩ | ⟨r, -, -, shape, -⟩
  · rw [program] at shape
    cases shape
    have answered := answer_serve_self ch (.fetchOneTodo w self.config.allowTypes)
      (fun r => .ret (singleAnswer .task r)) get
    refine ⟨rfl, ?_⟩
    simp only [LocalWorker.incoming, fetcher, answered]
    cases (s.server.act ch (.fetchOneTodo w self.config.allowTypes)).1 <;> rfl
  · rw [program] at shape
    cases shape

/-- The same for the list of uncompleted tasks it asks for at its start. -/
theorem Consistent.start_served (ch : Choice) (consistent : s.Consistent) (get : s.calls[call]? = some c)
    (program : c.program = some (.call op k)) (alive : s.workers w = some self)
    (fetcher : self.fetcher = .starting call) :
    op = .fetchUncompleted w ∧
      self.incoming (s.serve call ch c op k).answer =
        match (s.server.act ch (.fetchUncompleted w)).1 with
        | .ok ts => ts
        | .error _ => [] := by
  obtain ⟨d, get', request⟩ := (consistent.workers w self alive).starting call fetcher
  rw [get] at get'
  cases get'
  rcases consistent.single call c get _ _ (by rw [request]; rfl) with
    ⟨shape, -⟩ | ⟨r, -, -, shape, -⟩
  · rw [program] at shape
    cases shape
    have answered := answer_serve_self ch (.fetchUncompleted w)
      (fun r => .ret (singleAnswer .tasks r)) get
    refine ⟨rfl, ?_⟩
    simp only [LocalWorker.incoming, fetcher, answered]
    cases (s.server.act ch (.fetchUncompleted w)).1 <;> rfl
  · rw [program] at shape
    cases shape

/-- A served call that the fetcher waits for brings what it returns. -/
theorem serve_has (exclusive : s.Exclusive) (get : s.calls[call]? = some c)
    (program : c.program = some (.call op k)) (alive : s.workers w = some self)
    (waits : self.fetcher = .starting call ∨ self.fetcher = .fetching call) :
    ((s.serve call ch c op k).has w).Subperm (s.has w) ∨
      ∃ ts, s.Gains (.serve call ch) w ts ∧ (s.serve call ch c op k).has w = s.has w ++ ts := by
  have unanswered : s.answer call = none := by
    simp only [answer, get, Option.bind_some, Call.answer, program, Program.answer_call]
  have before : s.has w = self.held := by
    rw [has_alive alive, incoming_unanswered unanswered waits, List.append_nil]
  have after : (s.serve call ch c op k).has w =
      self.held ++ self.incoming (s.serve call ch c op k).answer := has_alive alive
  have serves : s.Serves (.serve call ch) call ch op := ⟨rfl, c, k, get, program⟩
  rcases waits with fetcher | fetcher
  · obtain ⟨rfl, comes⟩ := exclusive.consistent.start_served ch get program alive fetcher
    rw [comes, ← before] at after
    cases hr : (s.server.act ch (.fetchUncompleted w)).1 with
    | error e =>
      simp only [hr, List.append_nil] at after
      exact Or.inl (after ▸ List.Subperm.refl _)
    | ok ts =>
      simp only [hr] at after
      have nothing : s.has w = [] := before.trans (exclusive.starting w self alive call fetcher)
      exact Or.inr ⟨ts, .uncompleted serves hr nothing, after⟩
  · obtain ⟨rfl, comes⟩ := exclusive.consistent.fetch_served ch get program alive fetcher
    rw [comes, ← before] at after
    cases hr : (s.server.act ch (.fetchOneTodo w self.config.allowTypes)).1 with
    | error e =>
      simp only [hr, List.append_nil] at after
      exact Or.inl (after ▸ List.Subperm.refl _)
    | ok t =>
      simp only [hr] at after
      exact Or.inr ⟨[t], .dispatched serves hr, after⟩

end

/-- A step leaves a worker id what it had, or less, or gives it what its fetch returns. -/
theorem step_has (exclusive : s.Exclusive) (h : s.step a = some s') (w : String) :
    (s'.has w).Subperm (s.has w) ∨ ∃ ts, s.Gains a w ts ∧ s'.has w = s.has w ++ ts := by
  have awaited {self : LocalWorker} (alive : s.workers w = some self) {call : Nat}
      (waits : self.fetcher = .starting call ∨ self.fetcher = .fetching call) :=
    exclusive.consistent.awaited alive waits
  have unmoved (cause : Option Nat) (sent : Option Request) (workers : s'.workers w = s.workers w)
      (answers : s'.answer = (s.send cause sent).answer) : (s'.has w).Subperm (s.has w) := by
    have same : s'.has w = s.has w := has_congr workers fun self alive call waits => by
      rw [answers, answer_send_old (awaited alive waits)]
    rw [same]
  cases step_cases h with
  | request req => exact Or.inl (unmoved _ _ rfl rfl)
  | @serve call ch c op k get program =>
    cases alive : s.workers w with
    | none =>
      left
      rw [has_dead alive, has_dead (s := s.serve call ch c op k) alive]
    | some self =>
      by_cases waits : self.fetcher = .starting call ∨ self.fetcher = .fetching call
      · exact serve_has exclusive get program alive waits
      · left
        have same : (s.serve call ch c op k).has w = s.has w := by
          refine has_congr rfl fun p alive' i waits' => answer_serve_ne ?_
          rw [alive] at alive'
          cases alive'
          rintro rfl
          exact waits waits'
        rw [same]
  | startPlugin input =>
    refine Or.inl (unmoved none none rfl ?_)
    simp [send]
    rfl
  | plugin get move => exact Or.inl (unmoved _ _ rfl rfl)
  | @startWorker v config free =>
    left
    by_cases hv : w = v
    · subst hv
      have fresh : (s.send none (some (.fetchUncompleted w))).answer s.calls.length = none :=
        answer_fresh rfl
      rw [has_dead free, has_alive (setWorker_self ..), LocalWorker.held_start]
      simp [LocalWorker.incoming, LocalWorker.start, fresh]
    · exact unmoved _ _ (setWorker_ne hv) rfl
  | @crashWorker v self alive =>
    left
    by_cases hv : w = v
    · subst hv
      rw [has_dead (setWorker_self ..)]
      exact List.nil_subperm
    · apply unmoved none none (setWorker_ne hv)
      simp [send]
  | @worker v ev self self' sent alive move =>
    left
    by_cases hv : w = v
    · subst hv
      rw [has_alive alive, has_alive (setWorker_self ..), setWorker_answer]
      apply move.subperm (fun call waits => answer_send_old (awaited alive waits))
      rintro types rfl
      exact answer_fresh rfl
    · exact unmoved _ _ (setWorker_ne hv) rfl

theorem step_row {tid : String} {row : Task} (noUpdate : s.NoUpdate a) (h : s.step a = some s')
    (found : s.server.tasks.find tid = some row) (dispatched : row.state ≠ .init) :
    ∃ row', s'.server.tasks.find tid = some row' ∧ row'.state ≠ .init ∧
      (row'.state = .running → row' = row) := by
  rcases step_server h with ⟨same, -, -⟩ | ⟨call, ch, op, serves, same, -⟩
  · rw [same]
    exact ⟨row, found, dispatched, fun _ => rfl⟩
  · rw [same]
    refine Server.act_dispatched ?_ found dispatched
    rintro tids state rfl
    exact noUpdate call ch tids state serves

/-- Whom a task is tied to never changes. -/
theorem step_tied {tid : String} (exclusive : s.Exclusive) (noUpdate : s.NoUpdate a)
    (h : s.step a = some s') (tied : s.Tied tid w) : s'.Tied tid w := by
  obtain ⟨⟨row, found, dispatched, owner⟩, others⟩ := tied
  refine ⟨?_, fun v hv t ht same => ?_⟩
  · obtain ⟨row', found', dispatched', unchanged⟩ := step_row noUpdate h found dispatched
    refine ⟨row', found', dispatched', fun running => ?_⟩
    obtain rfl := unchanged running
    exact owner running
  · rcases step_has exclusive h v with less | ⟨ts, gains, more⟩
    · exact others v hv t (less.subset ht) same
    · rw [more] at ht
      rcases List.mem_append.mp ht with ht | ht
      · exact others v hv t ht same
      · cases gains with
        | dispatched serves response =>
          obtain ⟨row', found', init, -⟩ := Server.act_fetchOneTodo_ok response
          rw [← List.mem_singleton.mp ht, same, found] at found'
          cases found'
          exact dispatched init
        | @uncompleted call ch ts serves response nothing =>
          rw [(Server.act_fetchUncompleted_ok response).1] at ht
          obtain ⟨found', running, worker⟩ := DbOps.mem_fetchUncompleted.mp ht
          rw [same, found] at found'
          cases found'
          exact hv (worker.symm.trans (owner running))

/-- What a fetch brings was not in anyone's hands, or was this worker's own. -/
theorem gains_tied {ts : List Task} {t : Task} (exclusive : s.Exclusive) (h : s.step a = some s')
    (gains : s.Gains a w ts) (ht : t ∈ ts) : s'.Tied t.id w := by
  have elsewhere {v : String} {u : Task} (hv : v ≠ w) (hu : u ∈ s'.has v) : u ∈ s.has v := by
    rcases step_has exclusive h v with less | ⟨us, others, more⟩
    · exact less.subset hu
    · exfalso
      cases gains with
      | dispatched serves =>
        cases others with
        | dispatched serves' => cases serves.op_eq serves'; exact hv rfl
        | uncompleted serves' => cases serves.op_eq serves'
      | uncompleted serves =>
        cases others with
        | dispatched serves' => cases serves.op_eq serves'
        | uncompleted serves' => cases serves.op_eq serves'; exact hv rfl
  cases gains with
  | dispatched serves response =>
    obtain rfl := List.mem_singleton.mp ht
    obtain ⟨row, found, init, made, tasks⟩ := Server.act_fetchOneTodo_ok response
    refine ⟨⟨t, ?_, ?_, ?_⟩, fun v hv u hu same => ?_⟩
    · rw [serves_server h serves, tasks, DbOps.find_claim, found]
      simp [init, ← made]
    · rw [made]
      rintro ⟨⟩
    · rw [made]
      exact fun _ => rfl
    · obtain ⟨row', found', dispatched, -⟩ := (exclusive.tied v u (elsewhere hv hu)).row
      rw [same, found] at found'
      cases found'
      exact dispatched init
  | uncompleted serves response nothing =>
    obtain ⟨rfl, unchanged⟩ := Server.act_fetchUncompleted_ok response
    obtain ⟨found, running, worker⟩ := DbOps.mem_fetchUncompleted.mp ht
    refine ⟨⟨t, ?_, by rw [running]; rintro ⟨⟩, fun _ => worker⟩, fun v hv u hu same => ?_⟩
    · rw [serves_server h serves, unchanged]
      exact found
    · obtain ⟨row', found', -, owner⟩ := (exclusive.tied v u (elsewhere hv hu)).row
      rw [same, found] at found'
      cases found'
      exact hv ((owner running).symm.trans worker)

theorem gains_nodup {ts : List Task} (exclusive : s.Exclusive) (gains : s.Gains a w ts) :
    ((s.has w ++ ts).map Task.id).Nodup := by
  cases gains with
  | @dispatched call ch types t serves response =>
    obtain ⟨row, found, init, -⟩ := Server.act_fetchOneTodo_ok response
    rw [List.map_append, List.nodup_append]
    refine ⟨exclusive.nodup w, by simp, ?_⟩
    rintro id hid _ hone rfl
    obtain ⟨u, hu, rfl⟩ := List.mem_map.mp hid
    have same : u.id = t.id := by simpa using hone
    obtain ⟨row', found', dispatched, -⟩ := (exclusive.tied w u hu).row
    rw [same, found] at found'
    cases found'
    exact dispatched init
  | uncompleted serves response nothing =>
    rw [nothing, (Server.act_fetchUncompleted_ok response).1, List.nil_append]
    exact DbOps.fetchUncompleted_nodup

theorem step_starting (starting : ∀ w self, s.workers w = some self →
    ∀ call, self.fetcher = .starting call → self.held = []) (h : s.step a = some s') :
    ∀ w self, s'.workers w = some self → ∀ call, self.fetcher = .starting call → self.held = [] := by
  intro w self alive call fetcher
  rcases step_workers h alive with old | ⟨config, rfl, -⟩ | ⟨ev, old, sent, alive', move, -⟩
  · exact starting w self old call fetcher
  · rfl
  · exact move.starting (starting w old alive') fetcher

theorem step_exclusive (exclusive : s.Exclusive) (noUpdate : s.NoUpdate a)
    (h : s.step a = some s') : s'.Exclusive where
  consistent := step_consistent exclusive.consistent h
  starting := step_starting exclusive.starting h
  nodup := by
    intro w
    rcases step_has exclusive h w with ⟨l, perm, sub⟩ | ⟨ts, gains, more⟩
    · exact ((perm.map Task.id).nodup_iff).mp ((exclusive.nodup w).sublist (sub.map Task.id))
    · rw [more]
      exact gains_nodup exclusive gains
  tied := by
    intro w t ht
    rcases step_has exclusive h w with less | ⟨ts, gains, more⟩
    · exact step_tied exclusive noUpdate h (exclusive.tied w t (less.subset ht))
    · rw [more] at ht
      rcases List.mem_append.mp ht with ht | ht
      · exact step_tied exclusive noUpdate h (exclusive.tied w t ht)
      · exact gains_tied exclusive h gains ht

theorem idle_exclusive (server : Server) : (idle server : System env).Exclusive where
  consistent := idle_consistent server
  starting := by rintro w self ⟨⟩
  nodup := fun _ => List.nodup_nil
  tied := fun _ _ ht => nomatch ht

theorem holds_has {tid : String} (h : s.Holds w tid) : ∃ t ∈ s.has w, t.id = tid := by
  obtain ⟨self, alive, t, ht, same⟩ := h
  refine ⟨t, ?_, same⟩
  rw [has_alive alive]
  exact List.mem_append_left _ ht

/-- A later holder has the same worker id. -/
theorem later_holder {tid v w : String} {s t : System env} {as : List (Action env)}
    (exclusive : s.Exclusive) (noUpdate : Runs.Along step NoUpdate s as)
    (run : Runs.run step s as = some t) (first : s.Holds v tid) (later : t.Holds w tid) : v = w := by
  obtain ⟨u, hu, rfl⟩ := holds_has first
  obtain ⟨-, tied⟩ := Runs.invariant_along (I := fun s => s.Exclusive ∧ s.Tied u.id v) run
    ⟨exclusive, exclusive.tied v u hu⟩ noUpdate fun _ _ _ hi noUpdate h =>
      ⟨step_exclusive hi.1 noUpdate h, step_tied hi.1 noUpdate h hi.2⟩
  obtain ⟨x, hx, same⟩ := holds_has later
  by_contra hne
  exact tied.others w (fun e => hne e.symm) x hx same

/-- In a run without status updates no process holds a task twice, and every
process that ever holds it has one worker id. -/
theorem one_holder {server : Server} {as : List (Action env)}
    (noUpdate : Runs.Along step NoUpdate (idle server) as) :
    Runs.Always step (fun s => ∀ w self, s.workers w = some self → (self.held.map Task.id).Nodup)
      (idle server) as ∧
    ∀ pre post s t, pre <+: as → post <+: as → Runs.run step (idle server) pre = some s →
      Runs.run step (idle server) post = some t →
        ∀ tid v w, s.Holds v tid → t.Holds w tid → v = w := by
  have exclusive : Runs.Always step Exclusive (idle server) as :=
    Runs.always_of_along (idle_exclusive server) noUpdate fun _ _ _ => step_exclusive
  have ordered : ∀ pre mid s t, pre ++ mid <+: as → Runs.run step (idle server) pre = some s →
      Runs.run step (idle server) (pre ++ mid) = some t →
        ∀ tid v w, s.Holds v tid → t.Holds w tid → v = w := by
    intro pre mid s t hp hs ht tid v w
    have rest : Runs.run step s mid = some t := by
      rw [Runs.run_append, hs] at ht
      exact ht
    exact later_holder (exclusive pre s ((List.prefix_append _ _).trans hp) hs)
      ((noUpdate.restrict hp).drop hs) rest
  refine ⟨fun pre s hp hs w self alive => ?_, ?_⟩
  · have nodup := (exclusive pre s hp hs).nodup w
    rw [has_alive alive] at nodup
    exact nodup.sublist ((List.sublist_append_left _ _).map Task.id)
  · intro pre post s t hpre hpost hs ht tid v w hv hw
    rcases List.prefix_or_prefix_of_prefix hpre hpost with ⟨mid, rfl⟩ | ⟨mid, rfl⟩
    · exact ordered pre mid s t hpost hs ht tid v w hv hw
    · exact (ordered post mid t s hpre ht hs tid w v hw hv).symm

/-- A run in which nobody sends a status update makes none. -/
theorem along_noUpdate {server : Server} {as : List (Action env)}
    (unsent : ∀ a ∈ as, (∀ req, a ≠ .request req) ∧ ∀ i ev, a ≠ .plugin i ev) :
    Runs.Along step NoUpdate (idle server) as := by
  have along : Runs.Along step (fun _ a => (∀ req, a ≠ .request req) ∧ ∀ i ev, a ≠ .plugin i ev)
      (idle server) as := by
    rintro pre a post t rfl -
    exact unsent a (by simp)
  rintro pre a post t rfl ht call ch tids state ⟨-, c, k, get, program⟩
  obtain ⟨consistent, other⟩ := Runs.invariant_along (I := fun s => s.Consistent ∧
      ∀ (i : Nat) c, s.calls[i]? = some c → ∀ tids state, c.request ≠ .updateStatusById tids state)
    ht ⟨idle_consistent server, by simp [idle]⟩ (along.restrict (List.prefix_append _ _))
    fun u a v hu quiet h => by
      refine ⟨step_consistent hu.1 h, fun i d get tids state same => ?_⟩
      rcases step_calls h get with ⟨old, -⟩ | ⟨-, cause, req, sends, rfl⟩ |
        ⟨ch, c, op, k, -, old, -, rfl⟩
      · exact hu.2 i d old tids state same
      · rw [show req = .updateStatusById tids state from same] at sends
        rcases sends.status with rfl | ⟨i, self, call, task, rfl, -⟩
        · exact quiet.1 _ rfl
        · exact quiet.2 _ _ rfl
      · exact hu.2 i c old tids state same
  have call := (consistent.permits _ c get _ program).1
  generalize hr : c.request = req at call
  cases call with
  | submission _ call => cases call
  | updateStatusById => exact other _ c get _ _ hr

/-- A worker takes the task, crashes with it in hand, and has it again after its restart. -/
def restartRun : List (Action Demo.env) :=
  [.startWorker "w1" Demo.config, .serve 0 ⟨1, none, none⟩, .worker "w1" (.fetched .answered),
    .worker "w1" .tick, .serve 1 ⟨2, none, Demo.waiting⟩, .worker "w1" (.fetched .answered),
    .crashWorker "w1", .startWorker "w1" Demo.config, .serve 2 ⟨3, none, none⟩,
    .worker "w1" (.fetched .answered)]

theorem one_holder_demo :
    ((Runs.run step (idle (Demo.queued [])) restartRun).bind fun s =>
      (s.workers "w1").map fun self => self.held.map Task.id) =
        some ["48bb11f3-3f83-5d9f-ad3c-edd0b5481a6f"] ∧
    Runs.Always step (fun s => ∀ w self, s.workers w = some self → (self.held.map Task.id).Nodup)
      (idle (Demo.queued [])) restartRun ∧
    ∀ pre post s t, pre <+: restartRun → post <+: restartRun →
      Runs.run step (idle (Demo.queued [])) pre = some s → Runs.run step (idle (Demo.queued [])) post = some t →
        ∀ tid v w, s.Holds v tid → t.Holds w tid → v = w :=
  ⟨by decide +kernel, one_holder (along_noUpdate (by simp [restartRun]))⟩

end System

end GpuProxy
