import GpuProxy.Finality

/-!
# What a plugin's reset finds

`process_request` reads the task in one call and resets it in another. The
reset's `UPDATE` has no filter on the state, so what it finds is what the storage
calls in between have left.
-/

namespace GpuProxy

/-- The state a storage call gives a task that is there. -/
def Op.sets (tid : String) : (op : Op) → op.Response → Option TaskState
  | .fetchOneTodo _ _, .ok t => if tid = t.id then some .running else none
  | .recordError _ tid' _, .ok _ => if tid = tid' then some .error else none
  | .recordProof _ tid' _, .ok _ => if tid = tid' then some .completed else none
  | .updateStatusById tids state, .ok _ => if tids.contains tid then some state else none
  | _, _ => none

theorem Server.act_state (ch : Choice) (op : Op) {s : Server} {tid : String} {row : Task}
    (found : s.tasks.find tid = some row) :
    ∃ row', (act ch op s).2.tasks.find tid = some row' ∧
      row'.state = ((op.sets tid) (act ch op s).1).getD row.state := by
  refine ⟨_, act_find_some _ _ found, ?_⟩
  have hid := DbOps.find_id found
  obtain ⟨res, hr⟩ : ∃ res, (act ch op s).1 = res := ⟨_, rfl⟩
  rw [hr]
  cases res with
  | error e => cases op <;> rfl
  | ok v =>
    cases op with
    | fetchOneTodo w types | recordError w tid' msg | recordProof w tid' proof
      | updateStatusById tids state =>
      simp only [Writes, Op.sets, hid]
      split <;> rfl
    | _ => rfl

namespace System

variable {env : Extern} {s s' : System env} {a : Action env}

/-- The storage calls since `call` made its own, the latest first. -/
def since (s : System env) (call : Nat) : List Served := s.log.takeWhile fun e => e.call != call

/-- The state the storage calls since `check` have left a task in that was `Error` then. -/
def lastState (s : System env) (check : Nat) (tid : String) : TaskState :=
  ((s.since check).findSome? fun e => e.op.sets tid e.res).getD .error

/-- The step makes the `UPDATE` of a plugin's reset, which acts on the answer of `check`. -/
def Resets (s : System env) (a : Action env) (check : Nat) (tid : String) (ch : Choice) : Prop :=
  ∃ call c, s.Serves a call ch (.updateStatusById [tid] .init) ∧ s.calls[call]? = some c ∧
    c.cause = some check ∧ ch.fails = none

/-- A task that was read still has the state it had, or the last one it was given. -/
def Tracked (s : System env) : Prop :=
  ∀ newer call tid t older, s.log = newer ++ ⟨call, .fetch tid, .ok t⟩ :: older →
    ∃ row, s.server.tasks.find tid = some row ∧
      row.state = (newer.findSome? fun e => e.op.sets tid e.res).getD t.state

/-- A plugin's reset acts on an answer that shows its task failed. -/
def Caused (s : System env) : Prop :=
  ∀ (i : Nat) c check tids state, s.calls[i]? = some c → c.cause = some check →
    c.request = .updateStatusById tids state → ∃ tid task, tids = [tid] ∧
      s.Requested check (.getTask tid) ∧ s.answer check = some (.ok (.task task)) ∧
      task.state = .error

theorem step_tracked (tracked : s.Tracked) (h : s.step a = some s') : s'.Tracked := by
  intro newer call tid t older log
  rcases step_server h with ⟨server, same, -⟩ | ⟨i, ch, op, -, server, more⟩
  · rw [server]
    exact tracked newer call tid t older (same ▸ log)
  · obtain ⟨res, response⟩ : ∃ res, (s.server.act ch op).1 = res := ⟨_, rfl⟩
    rw [more, response] at log
    rw [server]
    cases newer with
    | nil =>
      -- the read itself, which returns the row it leaves
      obtain ⟨entry, -⟩ := List.cons.inj log
      cases entry
      obtain ⟨found, same⟩ := Server.act_fetch_ok response
      exact ⟨t, by rw [same, found], rfl⟩
    | cons e newer =>
      obtain ⟨rfl, rest⟩ := List.cons.inj log
      obtain ⟨row, found, state⟩ := tracked newer call tid t older rest
      obtain ⟨row', found', state'⟩ := Server.act_state ch op found
      refine ⟨row', found', ?_⟩
      rw [state', state, response]
      simp only [List.findSome?_cons]
      cases op.sets tid res <;> rfl

theorem step_caused (caused : s.Caused) (consistent : s.Consistent) (h : s.step a = some s') :
    s'.Caused := by
  intro i d check tids state get cause request
  have old (c : Call) (get : s.calls[i]? = some c) (cause : c.cause = some check)
      (request : c.request = .updateStatusById tids state) : ∃ tid task, tids = [tid] ∧
      s'.Requested check (.getTask tid) ∧ s'.answer check = some (.ok (.task task)) ∧
      task.state = .error := by
    obtain ⟨tid, task, rfl, requested, answered, failed⟩ :=
      caused i c check tids state get cause request
    exact ⟨tid, task, rfl, step_requested h requested, step_answer h answered, failed⟩
  rcases step_calls h get with ⟨was, -⟩ | ⟨-, cause', req, sends, rfl⟩ | ⟨ch, c, op, k, -, was, -, rfl⟩
  · exact old d was cause request
  · obtain rfl : cause' = some check := cause
    obtain rfl : req = .updateStatusById tids state := request
    rcases sends.status with rfl | ⟨j, self, call, task, rfl, here, phase, same, answered, failed, rfl, rfl⟩
    · cases sends
    · cases same
      have requested := (consistent.plugins j self here).checking check phase
      exact ⟨self.taskId, task, rfl, step_requested h requested, step_answer h answered, failed⟩
  · exact old c was cause request

/-- The row a plugin's reset finds is in the state the calls since its check have left. -/
theorem reset_finds {check : Nat} {tid : String} {ch : Choice} {row : Task}
    (consistent : s.Consistent) (tracked : s.Tracked) (caused : s.Caused)
    (resets : s.Resets a check tid ch) (found : s.server.tasks.find tid = some row) :
    row.state = s.lastState check tid := by
  obtain ⟨call, c, serves, get, cause, -⟩ := resets
  obtain ⟨c', get', request⟩ := consistent.update_requested serves
  rw [get] at get'
  cases get'
  obtain ⟨tid', task, same, ⟨d, check', asked⟩, answered, failed⟩ :=
    caused call c check [tid] .init get cause request
  obtain rfl : tid = tid' := List.singleton_inj.mp same
  rcases consistent.single check d check' _ _ (by rw [asked]; rfl) with
    ⟨unanswered, -⟩ | ⟨r, newer, older, shape, log, none⟩
  · simp [answer, check', Call.answer, unanswered] at answered
  · have response : r = .ok task := by
      simp only [answer, check', Option.bind_some, Call.answer, shape, Program.answer_ret,
        Option.some.injEq] at answered
      cases r with
      | error e => cases answered
      | ok t => cases answered; rfl
    subst response
    obtain ⟨row', found', state⟩ := tracked newer check tid task older log
    rw [found] at found'
    cases found'
    have since : s.since check = newer := by
      rw [System.since, log, List.takeWhile_append_of_pos (by simpa using none)]
      simp
    rw [state, lastState, since, failed]

/-- A plugin's reset finds its task failed, or changes nothing, exactly if the last
storage call to set the task's state since its check set it to `Error` or `Init`. -/
theorem resets_revive_iff {server : Server} {as : List (Action env)} :
    Runs.Along step (fun s a => ∀ check tid ch, s.Resets a check tid ch →
      ∀ row, s.server.tasks.find tid = some row → row.state = .error ∨
        (s.server.act ch (.updateStatusById [tid] .init)).2.tasks.find tid = some row)
      (idle server) as ↔
    Runs.Along step (fun s a => ∀ check tid ch, s.Resets a check tid ch →
      ∀ row, s.server.tasks.find tid = some row →
        s.lastState check tid = .error ∨ s.lastState check tid = .init) (idle server) as := by
  have finds (pre : List (Action env)) (s : System env) (hs : Runs.run step (idle server) pre = some s) :
      s.Consistent ∧ s.Tracked ∧ s.Caused :=
    Runs.invariant (I := fun s => s.Consistent ∧ s.Tracked ∧ s.Caused) hs
      ⟨idle_consistent server, by simp [Tracked, idle], by simp [Caused, idle]⟩
      fun _ _ _ ⟨consistent, tracked, caused⟩ h => ⟨step_consistent consistent h,
        step_tracked tracked h, step_caused caused consistent h⟩
  have unchanged {s : Server} {tid : String} {ch : Choice} {row : Task} (performs : ch.fails = none)
      (found : s.tasks.find tid = some row) :
      (s.act ch (.updateStatusById [tid] .init)).2.tasks.find tid = some row ↔ row.state = .init := by
    rw [Server.act_performs performs]
    simp only [Server.perform, DbOps.find_updateStatusById, found, Option.map_some,
      List.contains_cons, BEq.rfl, Bool.true_or, ↓reduceIte, Option.some.injEq]
    constructor
    · intro same
      rw [← same]
      rfl
    · intro init
      cases row
      cases init
      rfl
  constructor
  · intro along pre a post s he hs check tid ch resets row found
    obtain ⟨consistent, tracked, caused⟩ := finds pre s hs
    have state := reset_finds consistent tracked caused resets found
    obtain ⟨-, -, -, -, -, performs⟩ := resets.imp fun _ h => h
    rw [← state, ← unchanged performs found]
    exact along pre a post s he hs check tid ch resets row found
  · intro along pre a post s he hs check tid ch resets row found
    obtain ⟨consistent, tracked, caused⟩ := finds pre s hs
    have state := reset_finds consistent tracked caused resets found
    obtain ⟨-, -, -, -, -, performs⟩ := resets.imp fun _ h => h
    rw [unchanged performs found, state]
    exact along pre a post s he hs check tid ch resets row found

/-- Two plugins see the same task failed. The first one's reset sends it back to the
queue, a worker gets it, and the second one's reset is still on its way. -/
def staleReset : List (Action Demo.env) :=
  [.startPlugin Demo.input, .startPlugin Demo.input, .plugin 0 .connected, .plugin 1 .connected,
    .serve 0 ⟨1, none, none⟩, .serve 1 ⟨2, none, none⟩, .plugin 0 (.ends .answered),
    .plugin 1 (.ends .answered), .serve 2 ⟨3, none, none⟩, .startWorker "w1" Demo.config,
    .serve 4 ⟨4, none, none⟩, .worker "w1" (.fetched .answered), .worker "w1" .tick,
    .serve 5 ⟨5, none, Demo.waiting⟩]

/-- A server whose only task has failed. -/
def taskFailed : System Demo.env :=
  idle (Server.act ⟨0, none, none⟩
    (.recordError "w1" "48bb11f3-3f83-5d9f-ad3c-edd0b5481a6f" "seal commit phase2")
    (Demo.queued (asBytes Demo.text))).2

/-- The second reset takes the task back from the worker that is computing it. -/
theorem stale_reset_requeues_running : ∃ s v row row',
    Runs.run step taskFailed staleReset = some s ∧
    s.Resets (.serve 3 ⟨6, none, none⟩) 1 "48bb11f3-3f83-5d9f-ad3c-edd0b5481a6f" ⟨6, none, none⟩ ∧
    s.step (.serve 3 ⟨6, none, none⟩) = some v ∧
    s.server.tasks.find "48bb11f3-3f83-5d9f-ad3c-edd0b5481a6f" = some row ∧ row.state = .running ∧
    v.server.tasks.find "48bb11f3-3f83-5d9f-ad3c-edd0b5481a6f" = some row' ∧ row'.state = .init := by
  have ran : ((Runs.run step taskFailed staleReset).bind fun s =>
      (s.step (.serve 3 ⟨6, none, none⟩)).map fun v =>
        (s.next 3, s.calls[3]?.map Call.cause,
          (s.server.tasks.find "48bb11f3-3f83-5d9f-ad3c-edd0b5481a6f").map Task.state,
          (v.server.tasks.find "48bb11f3-3f83-5d9f-ad3c-edd0b5481a6f").map Task.state)) =
      some (some (.updateStatusById ["48bb11f3-3f83-5d9f-ad3c-edd0b5481a6f"] .init), some (some 1),
        some .running, some .init) := by
    decide +kernel
  obtain ⟨s, first, hs⟩ := Option.bind_eq_some_iff.mp ran
  obtain ⟨v, h, hv⟩ := Option.map_eq_some_iff.mp hs
  simp only [Prod.mk.injEq, Option.map_eq_some_iff] at hv
  obtain ⟨next, ⟨c, get, cause⟩, ⟨row, found, running⟩, row', found', init⟩ := hv
  exact ⟨s, v, row, row', first, ⟨3, c, serves_of_next _ next, get, cause, rfl⟩, h, found, running,
    found', init⟩

end System

end GpuProxy
