import GpuProxy.Tracing

/-!
# How old a reported failure is

A row keeps the message of an earlier failure, and other clients reset and fail
the task while a plugin waits. Still the failure `trace_task_result` reports was
recorded after its own `process_request` had seen the task not failed, by the
latest `record_error` before the poll.
-/

namespace GpuProxy

namespace System

variable {env : Extern} {s s' u m t : System env} {a : Action env} {as bs : List (Action env)}
  {tid : String} {i : Nat}

/-- The step makes the `UPDATE` of a `record_error`, and there is a row for it. -/
def Records (s : System env) (a : Action env) (tid msg : String) : Prop :=
  ∃ call ch w, s.Serves a call ch (.recordError w tid msg) ∧ ch.fails = none ∧ s.server.Has tid

/-- The step serves the reset that the plugin is waiting for. -/
def ResetsOwn (s : System env) (i : Nat) (a : Action env) : Prop :=
  ∃ process call ch op, s.plugins[i]? = some process ∧ process.phase = .resetting call ∧
    s.Serves a call ch op

/-- The latest `record_error` on the task has the message. -/
def LastRecord (tid msg : String) (s : System env) (as : List (Action env)) : Prop :=
  ∃ pre a post t u, as = pre ++ a :: post ∧ Runs.run step s pre = some t ∧ t.Records a tid msg ∧
    t.step a = some u ∧ Runs.Along step (fun v b => ∀ msg, ¬ v.Records b tid msg) u post

/-- A `get_task` error speaks of "not found" only where there is no row. -/
def NotFoundIsAbsent (s : System env) (a : Action env) : Prop :=
  (∀ call ch tid e, s.Requested call (.getTask tid) → s.Serves a call ch (.fetch tid) →
    ch.fails = some e → contains e "not found" → ¬ s.server.Has tid) ∧
  ∀ i process call message, a = .plugin i (.ends (.failed message)) →
    s.plugins[i]? = some process → process.phase = .checking call → contains message "not found" →
    ¬ s.server.Has process.taskId

/-- Status updates only put tasks back in the queue. -/
def OnlyResets (s : System env) : Prop :=
  ∀ (i : Nat) tids state, s.Requested i (.updateStatusById tids state) → state = .init

def Unfailed (tid : String) (s : System env) : Prop :=
  ∀ row, s.server.tasks.find tid = some row → row.state ≠ .error

/-! ## From not failed to failed -/

theorem step_onlyResets (only : s.OnlyResets) (h : s.step a = some s')
    (noUpdate : ∀ tids state, a ≠ .request (.updateStatusById tids state)) : s'.OnlyResets := by
  intro i tids state requested
  obtain ⟨d, get, asked⟩ := requested
  rcases step_calls h get with ⟨old, -⟩ | ⟨-, cause, req, sends, rfl⟩ | ⟨ch, c, op, k, -, old, -, rfl⟩
  · exact only i tids state ⟨d, old, asked⟩
  · obtain rfl : req = .updateStatusById tids state := asked
    rcases sends.status with rfl | ⟨-, -, -, -, -, -, -, -, -, -, -, rfl⟩
    · exact absurd rfl (noUpdate tids state)
    · rfl
  · exact only i tids state ⟨c, old, asked⟩

theorem run_onlyResets (run : Runs.run step u as = some s) (consistent : u.Consistent)
    (only : u.OnlyResets) (noUpdate : ∀ tids state, .request (.updateStatusById tids state) ∉ as) :
    s.Consistent ∧ s.OnlyResets := by
  apply Runs.invariant_trace (I := fun _ s => s.Consistent ∧ s.OnlyResets) run
  · exact ⟨consistent, only⟩
  · intro pre a u v split _ kept moved
    obtain ⟨post, whole⟩ := split
    refine ⟨step_consistent kept.1 moved, step_onlyResets kept.2 moved ?_⟩
    intro tids state same
    exact noUpdate tids state (by simp [← whole, same])

theorem LastRecord.snoc {msg : String} (last : LastRecord tid msg m as)
    (run : Runs.run step m as = some s) (other : ∀ msg, ¬ s.Records a tid msg) :
    LastRecord tid msg m (as ++ [a]) := by
  obtain ⟨pre, b, post, t, u, rfl, before, records, h, later⟩ := last
  obtain ⟨t', u', before', h', after⟩ := Runs.run_split run
  rw [before] at before'
  cases before'
  rw [h] at h'
  cases h'
  exact ⟨pre, b, post ++ [a], t, u, by simp, before, records, h, Runs.along_snoc later after other⟩

/-- A task that was not failed, and is, has been failed by the latest `record_error`. -/
theorem failed_since (run : Runs.run step m as = some s) (unfailed : m.Unfailed tid)
    (consistent : m.Consistent) (only : m.OnlyResets)
    (noUpdate : ∀ tids state, .request (.updateStatusById tids state) ∉ as) {row : Task}
    (found : s.server.tasks.find tid = some row) (failed : row.state = .error) :
    LastRecord tid row.errorMsg m as := by
  have all : ∀ row, s.server.tasks.find tid = some row → row.state = .error →
      LastRecord tid row.errorMsg m as := by
    apply Runs.invariant_trace (I := fun as s => ∀ row, s.server.tasks.find tid = some row →
      row.state = .error → LastRecord tid row.errorMsg m as) run
    · intro row found failed
      exact absurd failed (unfailed row found)
    · intro pre a u v split before kept moved row found failed
      obtain ⟨post, whole⟩ := split
      have quiet (tids : List String) (state : TaskState) :
          .request (.updateStatusById tids state) ∉ pre := by
        intro member
        exact noUpdate tids state (by simp [← whole, member])
      obtain ⟨consistent, only⟩ := run_onlyResets before consistent only quiet
      rcases step_server moved with ⟨same, -, idle⟩ | ⟨call, ch, op, serves, after, -⟩
      · rw [same] at found
        apply (kept row found failed).snoc before
        intro msg records
        obtain ⟨call, ch, w, serves, -⟩ := records
        exact idle call ch _ serves
      · rw [after] at found
        cases Server.act_changes found with
        | none found proof error =>
          apply (kept row found failed).snoc before
          intro msg records
          obtain ⟨call', ch', w, serves', performs, -⟩ := records
          obtain rfl := serves.op_eq serves'
          obtain ⟨rfl, -⟩ := serves
          obtain ⟨same, -⟩ := serves'
          cases same
          exact error w msg rfl performs
        | added call absent performs new =>
          rw [new] at failed
          cases failed
        | dispatched call found init new =>
          rw [new] at failed
          cases failed
        | @failed w msg old call' there performs new =>
          subst call'
          rw [new]
          exact ⟨pre, a, [], u, v, rfl, before, ⟨call, ch, w, serves, performs, old, there⟩,
            moved, Runs.along_nil _ _⟩
        | completed call found performs new =>
          rw [new] at failed
          cases failed
        | @updated tids state row call' found performs named new =>
          subst call'
          have init := only call tids state (consistent.update_requested serves)
          rw [new, init] at failed
          cases failed
  exact all row found failed

/-! ## Answers of one storage call -/

theorem answered_not_served {call : Nat} {ch : Choice} {op : Op} {x : Answer}
    (answered : s.answer call = some x) : ¬ s.Serves a call ch op := by
  intro serves
  obtain ⟨-, c, k, get, program⟩ := serves
  simp [answer, get, Call.answer, program] at answered

/-- An answer was there, or the step has made the call's storage call. -/
theorem step_answers {call : Nat} {req : Request} {op : Op} {reply : op.Res → Reply} {x : Answer}
    (consistent : s.Consistent) (h : s.step a = some s') (requested : s.Requested call req)
    (single : req.single = some ⟨op, reply⟩) (answered : s'.answer call = some x) :
    s.answer call = some x ∨
      ∃ ch, s.Serves a call ch op ∧ x = singleAnswer reply (s.server.act ch op).1 := by
  obtain ⟨c, get, rfl⟩ := requested
  obtain ⟨d, get', hd⟩ := Option.bind_eq_some_iff.mp answered
  rcases step_calls h get' with ⟨old, -⟩ | ⟨new, -⟩ | ⟨ch, c', op', k, rfl, old, program, rfl⟩
  · left
    rw [answer, old]
    exact hd
  · obtain ⟨bound, -⟩ := List.getElem?_eq_some_iff.mp get
    omega
  · rw [get] at old
    cases old
    rcases consistent.single call c get op reply single with ⟨unserved, -⟩ | ⟨r, -, -, served, -⟩
    · rw [program] at unserved
      cases unserved
      cases hd
      exact Or.inr ⟨ch, ⟨rfl, c, _, get, program⟩, rfl⟩
    · rw [program] at served
      cases served

/-! ## What the plugin knows -/

/-- At some point the task was not failed, and the plugin's own reset was over. -/
def Clean (u : System env) (i : Nat) (tid : String) (as : List (Action env)) : Prop :=
  ∃ first second m, as = first ++ second ∧ Runs.run step u first = some m ∧ m.Unfailed tid ∧
    Runs.Along step (fun s a => ¬ s.ResetsOwn i a) m second

/-- The poll `call` is served right after the latest `record_error` had the message, and
after a point at which the task was not failed and the plugin's own reset was over. -/
def FreshFailure (u : System env) (i : Nat) (tid msg : String) (call : Nat)
    (as : List (Action env)) : Prop :=
  ∃ first second poll post m v, as = first ++ (second ++ poll :: post) ∧
    Runs.run step u first = some m ∧ m.Unfailed tid ∧ Runs.run step m second = some v ∧
    (∃ ch, v.Serves poll call ch (.fetch tid)) ∧ LastRecord tid msg m second ∧
    Runs.Along step (fun s a => ¬ s.ResetsOwn i a) m (second ++ poll :: post)

theorem clean_here (run : Runs.run step u as = some s) (unfailed : s.Unfailed tid) :
    Clean u i tid as :=
  ⟨as, [], s, by simp, run, unfailed, Runs.along_nil _ _⟩

theorem Clean.snoc (clean : Clean u i tid as) (run : Runs.run step u as = some s)
    (other : ¬ s.ResetsOwn i a) : Clean u i tid (as ++ [a]) := by
  obtain ⟨first, second, m, rfl, before, unfailed, unreset⟩ := clean
  obtain ⟨m', before', after⟩ := Runs.run_append_some run
  rw [before] at before'
  cases before'
  exact ⟨first, second ++ [a], m, by simp, before, unfailed, Runs.along_snoc unreset after other⟩

theorem FreshFailure.snoc {msg : String} {call : Nat} (fresh : FreshFailure u i tid msg call as)
    (run : Runs.run step u as = some s) (other : ¬ s.ResetsOwn i a) :
    FreshFailure u i tid msg call (as ++ [a]) := by
  obtain ⟨first, second, poll, post, m, v, rfl, before, unfailed, mid, serves, last, unreset⟩ := fresh
  obtain ⟨m', before', after⟩ := Runs.run_append_some run
  rw [before] at before'
  cases before'
  refine ⟨first, second, poll, post ++ [a], m, v, by simp, before, unfailed, mid, serves, last, ?_⟩
  have longer := Runs.along_snoc unreset after other
  rwa [List.append_assoc, List.cons_append] at longer

/-- How far the plugin's process is, and what is known of its task at that point. -/
structure Progress (u : System env) (i : Nat) (as : List (Action env)) (s : System env)
    (process : ProcessRequest env) : Prop where
  checked : ∀ call t, process.phase = .checking call → s.answer call = some (.ok (.task t)) →
    t.state ≠ .error → Clean u i process.taskId as
  missing : ∀ call e, process.phase = .checking call → s.answer call = some (.error e) →
    contains e.message "not found" → Clean u i process.taskId as
  resetting : ∀ call, process.phase = .resetting call → s.Requested call process.resetRequest
  reset : ∀ call r, process.phase = .resetting call → s.answer call = some (.ok r) →
    Clean u i process.taskId as
  adding : ∀ call, process.phase = .adding call → Clean u i process.taskId as
  tracing : process.Tracing → Clean u i process.taskId as
  polled : ∀ call t, process.phase = .polling call → s.answer call = some (.ok (.task t)) →
    t.state = .error → FreshFailure u i process.taskId t.errorMsg call as

/-- A fetch leaves the server as it was. -/
theorem served_fetch {call : Nat} {ch : Choice} (h : s.step a = some s')
    (serves : s.Serves a call ch (.fetch tid)) : s'.server = s.server := by
  rw [serves_server h serves]
  unfold Server.act
  split <;> rfl

/-- A read that shows the task not failed, or that it is not there. -/
theorem unfailed_of_read {call : Nat} {ch : Choice} {x : Answer} (h : s.step a = some s')
    (absent : s.NotFoundIsAbsent a) (requested : s.Requested call (.getTask tid))
    (serves : s.Serves a call ch (.fetch tid))
    (answers : x = singleAnswer Reply.task (s.server.act ch (.fetch tid)).1)
    (shown : (∃ t, x = .ok (.task t) ∧ t.state ≠ .error) ∨
      ∃ e, x = .error e ∧ contains e.message "not found") : s'.Unfailed tid := by
  have same := served_fetch h serves
  intro row found
  rw [same] at found
  cases response : (s.server.act ch (.fetch tid)).1 with
  | ok t =>
    rw [response] at answers
    subst answers
    obtain ⟨there, -⟩ := Server.act_fetch_ok response
    rw [found] at there
    cases there
    rcases shown with ⟨t, same, unfailed⟩ | ⟨e, same, -⟩
    · cases same
      exact unfailed
    · cases same
  | error e =>
    rw [response] at answers
    subst answers
    rcases shown with ⟨t, same, -⟩ | ⟨e', same, text⟩
    · cases same
    · cases same
      cases fails : ch.fails with
      | some message =>
        rw [Server.act_fails fails] at response
        have same : message = e := Except.error.inj response
        exact absurd ⟨row, found⟩ (absent.1 call ch tid message requested serves fails (same ▸ text))
      | none =>
        rw [Server.act_performs fails] at response
        simp [Server.perform, DbOps.fetch, found, ifNotFound] at response

/-- A step of someone else. -/
theorem Progress.frame {process : ProcessRequest env} (progress : Progress u i as s process)
    (run : Runs.run step u as = some s) (consistent : u.Consistent) (only : u.OnlyResets)
    (updates : ∀ tids state, .request (.updateStatusById tids state) ∉ as)
    (absent : s.NotFoundIsAbsent a) (get : s.plugins[i]? = some process) (h : s.step a = some s') :
    Progress u i (as ++ [a]) s' process := by
  have run' := Runs.run_snoc run h
  have start := consistent
  obtain ⟨consistent, -⟩ := run_onlyResets run consistent only updates
  have waits := consistent.plugins i process get
  have other (phase : ∀ call, process.phase ≠ .resetting call) : ¬ s.ResetsOwn i a := by
    intro resets
    obtain ⟨process', call, ch, op, get', resetting, -⟩ := resets
    rw [get] at get'
    cases get'
    exact phase call resetting
  constructor
  · intro call t phase answered unfailed
    have asked := waits.checking call phase
    rcases step_answers consistent h asked rfl answered with old | ⟨ch, serves, new⟩
    · exact (progress.checked call t phase old unfailed).snoc run (other (by simp [phase]))
    · exact clean_here run' (unfailed_of_read h absent asked serves new (.inl ⟨t, rfl, unfailed⟩))
  · intro call e phase answered text
    have asked := waits.checking call phase
    rcases step_answers consistent h asked rfl answered with old | ⟨ch, serves, new⟩
    · exact (progress.missing call e phase old text).snoc run (other (by simp [phase]))
    · exact clean_here run' (unfailed_of_read h absent asked serves new (.inr ⟨e, rfl, text⟩))
  · intro call phase
    exact step_requested h (progress.resetting call phase)
  · intro call r phase answered
    rcases step_answers consistent h (progress.resetting call phase) rfl answered with
      old | ⟨ch, serves, new⟩
    · apply (progress.reset call r phase old).snoc run
      intro resets
      obtain ⟨process', call', ch, op, get', resetting, serves⟩ := resets
      rw [get] at get'
      cases get'
      rw [phase] at resetting
      cases resetting
      exact answered_not_served old serves
    · -- the reset itself, which leaves the task in the queue
      apply clean_here run'
      intro row found
      rw [serves_server h serves] at found
      cases fails : ch.fails with
      | some e =>
        rw [Server.act_fails fails] at new
        cases new
      | none =>
        rw [Server.act_performs fails] at found
        simp only [Server.perform, DbOps.find_updateStatusById, List.contains_cons, BEq.rfl,
          Bool.true_or, ↓reduceIte, Option.map_eq_some_iff] at found
        obtain ⟨before, -, rfl⟩ := found
        simp [DbOps.setState]
  · intro call phase
    exact (progress.adding call phase).snoc run (other (by simp [phase]))
  · intro tracing
    apply (progress.tracing tracing).snoc run
    apply other
    intro call resetting
    simp [ProcessRequest.Tracing, resetting] at tracing
  · intro call t phase answered failed
    have quiet := other (by simp [phase])
    rcases step_answers consistent h (waits.polling call phase) rfl answered with old | ⟨ch, serves, new⟩
    · exact (progress.polled call t phase old failed).snoc run quiet
    · -- the poll itself
      obtain ⟨first, second, m, rfl, before, unfailed, unreset⟩ := progress.tracing (.inr ⟨call, phase⟩)
      obtain ⟨m', before', after⟩ := Runs.run_append_some run
      rw [before] at before'
      cases before'
      cases response : (s.server.act ch (.fetch process.taskId)).1 with
      | error e =>
        rw [response] at new
        cases new
      | ok t' =>
        rw [response] at new
        cases new
        obtain ⟨found, -⟩ := Server.act_fetch_ok response
        obtain ⟨consistent, only⟩ := run_onlyResets before start only (by simp_all)
        refine ⟨first, second, a, [], m, s, by simp, before, unfailed, after, ⟨ch, serves⟩, ?_,
          Runs.along_snoc unreset after quiet⟩
        exact failed_since after unfailed consistent only (by simp_all) found failed

theorem progress_sleeping {process : ProcessRequest env} (phase : process.phase = .sleeping)
    (clean : Clean u i process.taskId as) : Progress u i as s process := by
  constructor
  any_goals simp [phase]
  intro _
  exact clean

theorem progress_done {process : ProcessRequest env} {result : Except String Bytes}
    (phase : process.phase = .done result) : Progress u i as s process := by
  constructor
  all_goals simp [phase, ProcessRequest.Tracing]

/-- A step of its own. -/
theorem Progress.move {process process' : ProcessRequest env} {ev : ProcessRequest.Event}
    {sent : Option Request} (progress : Progress u i as s process)
    (run : Runs.run step u as = some s) (absent : s.NotFoundIsAbsent (.plugin i ev))
    (get : s.plugins[i]? = some process) (h : s.step (.plugin i ev) = some s')
    (move : ProcessRequest.Step s.answer s.calls.length process ev process' sent)
    (same : s' = { s.send process.awaits sent with plugins := s.plugins.set i process' })
    (new : ∀ req, sent = some req → s'.Requested s.calls.length req) :
    Progress u i (as ++ [.plugin i ev]) s' process' := by
  have run' := Runs.run_snoc run h
  have keeps (clean : Clean u i process.taskId as) :
      Clean u i process.taskId (as ++ [.plugin i ev]) := by
    apply clean.snoc run
    rintro ⟨-, -, -, -, -, -, ⟨⟩, -⟩
  -- a call that has just been sent is not answered
  have fresh {op : Op} {reply : op.Res → Reply} {req : Request} {call : Nat} {x : Answer}
      (sends : sent = some req) (single : req.single = some ⟨op, reply⟩)
      (last : s.calls.length = call) : s'.answer call ≠ some x := by
    subst same sends last
    intro answered
    have unanswered : (s.send process.awaits (some req)).answer s.calls.length = none := answer_fresh single
    cases unanswered.symm.trans answered
  cases move with
  | check phase =>
    constructor
    any_goals simp [ProcessRequest.Tracing]
    · intro call t last answered
      exact absurd answered (fresh rfl rfl last)
    · intro call e last answered
      exact absurd answered (fresh rfl rfl last)
  | reset phase answered failed =>
    constructor
    any_goals simp [ProcessRequest.Tracing]
    · exact new _ rfl
    · intro call r last answered
      exact absurd answered (fresh rfl rfl last)
  | @add call d r e phase ends reply text =>
    have clean : Clean u i process.taskId (as ++ [.plugin i (.ends d)]) := by
      cases d with
      | failed message =>
        cases ends
        cases reply
        apply clean_here run'
        intro row found
        rw [same] at found
        exact absurd ⟨row, found⟩ (absent.2 i process call _ rfl get phase text)
      | answered =>
        obtain ⟨x, answered, same⟩ := Option.map_eq_some_iff.mp ends
        apply keeps
        cases x with
        | error e' =>
          subst same
          cases reply
          exact progress.missing call e' phase answered text
        | ok r' =>
          -- a reply of another kind does not speak of "not found"
          subst same
          have parse : e = Reply.parseError := by
            cases r' <;> cases reply
            all_goals rfl
          rw [parse] at text
          exact absurd text (by decide)
    constructor
    any_goals simp [ProcessRequest.Tracing]
    exact clean
  | found phase answered unfailed =>
    exact progress_sleeping rfl (keeps (progress.checked _ _ phase answered unfailed))
  | ready phase answered =>
    apply progress_sleeping rfl
    apply keeps
    rcases phase with phase | phase
    · exact progress.reset _ _ phase answered
    · exact progress.adding _ phase
  | giveUp phase => exact progress_done rfl
  | poll phase =>
    have clean := keeps (progress.tracing (.inl phase))
    constructor
    any_goals simp [ProcessRequest.Tracing]
    · exact clean
    · intro call t last answered
      exact absurd answered (fresh rfl rfl last)
  | proved phase answered completed => exact progress_done rfl
  | failed phase answered failed => exact progress_done rfl
  | again phase => exact progress_sleeping rfl (keeps (progress.tracing (.inr ⟨_, phase⟩)))

theorem step_plugins_length (h : s.step a = some s') : s.plugins.length ≤ s'.plugins.length := by
  cases step_cases h with
  | startPlugin | plugin => simp
  | _ => exact Nat.le_refl _

/-- The progress of the process that the first step starts. -/
theorem run_progress {input : C2Input env} {b : System env}
    (began : b.step (.startPlugin input) = some u) (run : Runs.run step u as = some s)
    (consistent : u.Consistent) (only : u.OnlyResets)
    (updates : ∀ tids state, .request (.updateStatusById tids state) ∉ as)
    (absent : Runs.Along step NotFoundIsAbsent u as) :
    ∃ process, s.plugins[b.plugins.length]? = some process ∧ process.input = input ∧
      Progress u b.plugins.length as s process := by
  apply Runs.invariant_trace (I := fun as s => ∃ process,
    s.plugins[b.plugins.length]? = some process ∧ process.input = input ∧
      Progress u b.plugins.length as s process) run
  · cases began
    refine ⟨ProcessRequest.start input, by simp, rfl, ?_⟩
    constructor
    all_goals simp [ProcessRequest.start, ProcessRequest.Tracing]
  · intro pre a t v split before kept moved
    obtain ⟨process, get, same, progress⟩ := kept
    obtain ⟨post, whole⟩ := split
    have bound := (List.getElem?_eq_some_iff.mp get).1
    have longer := step_plugins_length moved
    have quiet (tids : List String) (state : TaskState) :
        .request (.updateStatusById tids state) ∉ pre := by
      intro member
      exact updates tids state (by simp [← whole, member])
    have text : t.NotFoundIsAbsent a := absent pre a post t (by simp [← whole]) before
    have kept : b.plugins.length < v.plugins.length := by omega
    have get' := List.getElem?_eq_getElem kept
    refine ⟨_, get', ?_⟩
    rcases step_processes moved get' with ⟨old, -⟩ | ⟨input, -, last, -⟩ |
      ⟨ev, old, sent, rfl, here, move, after, new⟩
    · rw [get] at old
      rw [← Option.some.inj old]
      exact ⟨same, progress.frame before consistent only quiet text get moved⟩
    · omega
    · rw [get] at here
      cases here
      rw [move.input_eq]
      exact ⟨same, progress.move before text get moved move after new⟩

/-- A failure that `trace_task_result` returns was recorded after its `process_request`
began, and after its reset, by the latest `record_error` before the poll. -/
theorem failure_is_fresh {server : Server} {input : C2Input env} {before during : List (Action env)}
    {b : System env} {process process' : ProcessRequest env} {call : Nat} {ev : ProcessRequest.Event}
    {e : String}
    (updates : ∀ tids state,
      .request (.updateStatusById tids state) ∉ before ++ .startPlugin input :: during)
    (absent : Runs.Along step NotFoundIsAbsent u during)
    (first : Runs.run step (idle server) before = some b)
    (began : b.step (.startPlugin input) = some u) (run : Runs.run step u during = some s)
    (get : s.plugins[b.plugins.length]? = some process) (polls : process.phase = .polling call)
    (h : s.step (.plugin b.plugins.length ev) = some s')
    (get' : s'.plugins[b.plugins.length]? = some process')
    (returns : process'.phase = .done (.error e)) :
    process.input = input ∧
      ∃ msg, e = "task " ++ process.taskId ++ " sector " ++ env.sectorIdToString input.sectorId ++
          " error reason:" ++ msg ∧
        FreshFailure u b.plugins.length process.taskId msg call during := by
  obtain ⟨consistent, only⟩ : u.Consistent ∧ u.OnlyResets := by
    apply run_onlyResets (Runs.run_snoc first began) (idle_consistent server)
    · intro i tids state requested
      obtain ⟨c, get, -⟩ := requested
      simp [idle] at get
    · intro tids state member
      rcases List.mem_append.mp member with old | new
      · exact updates tids state (List.mem_append_left _ old)
      · simp at new
  have quiet (tids : List String) (state : TaskState) :
      .request (.updateStatusById tids state) ∉ during := by
    intro member
    exact updates tids state (by simp [member])
  obtain ⟨process₁, here, same, progress⟩ := run_progress began run consistent only quiet absent
  rw [get] at here
  cases here
  subst same
  refine ⟨rfl, ?_⟩
  rcases step_processes h get' with ⟨-, other⟩ | ⟨input, other, -⟩ | ⟨ev, old, sent, -, here, move, -⟩
  · exact absurd rfl (other ev)
  · cases other
  · rw [get] at here
    cases here
    cases move with
    | @failed call' task phase answered failed =>
      rw [polls] at phase
      cases phase
      cases returns
      exact ⟨task.errorMsg, rfl, progress.polled call task polls answered failed⟩
    | giveUp phase => exact absurd polls (phase.2 call)
    | _ => cases returns

/-- A plugin adds its task, a worker's execution of it fails, and the plugin polls. -/
def failsOnce : List (Action Demo.env) :=
  [.plugin 0 .connected, .serve 0 ⟨1, none, none⟩, .plugin 0 (.ends .answered),
    .serve 1 ⟨2, none, none⟩, .serve 1 ⟨3, none, none⟩, .serve 1 ⟨4, none, none⟩,
    .serve 1 ⟨5, none, none⟩, .plugin 0 (.ends .answered), .startWorker "w1" Demo.config,
    .serve 2 ⟨6, none, none⟩, .worker "w1" (.fetched .answered), .worker "w1" .tick,
    .serve 3 ⟨7, none, Demo.waiting⟩, .worker "w1" (.fetched .answered), .worker "w1" .push,
    .worker "w1" .counted, .worker "w1" .receive, .serve 4 ⟨8, none, none⟩,
    .worker "w1" (.read .answered), .worker "w1" (.finish 0 0), .worker "w1" (.send 0),
    .worker "w1" .take, .serve 5 ⟨9, none, none⟩, .plugin 0 .wake, .serve 6 ⟨10, none, none⟩]

def startedOne : System Demo.env :=
  { (idle (.empty (.db Table.empty)) : System Demo.env) with
    plugins := [ProcessRequest.start Demo.input] }

/-- Neither the storage nor the transport fails in the step. -/
def checkNoFailure : Action env → Bool
  | .serve _ ch => ch.fails.isNone
  | .plugin _ (.ends (.failed _)) => false
  | _ => true

theorem checkNoFailure_sound (h : checkNoFailure a = true) (s : System env) :
    s.NotFoundIsAbsent a := by
  constructor
  · intro call ch tid e _ serves fails
    obtain ⟨rfl, -⟩ := serves
    simp [checkNoFailure, fails] at h
  · intro i process call message same
    subst same
    cases h

/-- The text of the one failure in that run, as the plugin returns it. -/
theorem failure_is_fresh_demo : ∃ s s' process process',
    Runs.run step startedOne failsOnce = some s ∧ s.plugins[0]? = some process ∧
    s.step (.plugin 0 (.ends .answered)) = some s' ∧ s'.plugins[0]? = some process' ∧
    process'.phase = .done (.error
      "task 48bb11f3-3f83-5d9f-ad3c-edd0b5481a6f sector 1 error reason:seal commit phase2") ∧
    process.input = Demo.input ∧ FreshFailure startedOne 0
      "48bb11f3-3f83-5d9f-ad3c-edd0b5481a6f" "seal commit phase2" 6 failsOnce := by
  have ran : ((Runs.run step startedOne failsOnce).bind fun s => s.plugins[0]?.bind fun process =>
      (s.step (.plugin 0 (.ends .answered))).bind fun s' => s'.plugins[0]?.map fun process' =>
        ((process.phase, process.taskId), process'.phase)) =
      some ((.polling 6, "48bb11f3-3f83-5d9f-ad3c-edd0b5481a6f"), .done (.error
        "task 48bb11f3-3f83-5d9f-ad3c-edd0b5481a6f sector 1 error reason:seal commit phase2")) := by
    decide +kernel
  obtain ⟨s, run, hs⟩ := Option.bind_eq_some_iff.mp ran
  obtain ⟨process, get, hp⟩ := Option.bind_eq_some_iff.mp hs
  obtain ⟨s', h, hs'⟩ := Option.bind_eq_some_iff.mp hp
  obtain ⟨process', get', ends⟩ := Option.map_eq_some_iff.mp hs'
  obtain ⟨here, returns⟩ := Prod.mk.inj ends
  obtain ⟨polls, named⟩ := Prod.mk.inj here
  have texts : Runs.Along step NotFoundIsAbsent startedOne failsOnce := by
    apply Runs.along_of_mem
    intro a member
    have all : failsOnce.all checkNoFailure = true := by decide
    exact checkNoFailure_sound (List.all_eq_true.mp all a member)
  have updates (tids : List String) (state : TaskState) :
      .request (.updateStatusById tids state) ∉ [] ++ .startPlugin Demo.input :: failsOnce := by
    simp [failsOnce]
  have first : Runs.run step (idle (.empty (.db Table.empty)) : System Demo.env) [] =
      some (idle (.empty (.db Table.empty))) := rfl
  obtain ⟨same, msg, text, fresh⟩ :=
    failure_is_fresh updates texts first rfl run get polls h get' returns
  have whole : "task 48bb11f3-3f83-5d9f-ad3c-edd0b5481a6f" ++ " sector " ++
      Demo.env.sectorIdToString Demo.input.sectorId ++ " error reason:" ++ "seal commit phase2" =
        "task 48bb11f3-3f83-5d9f-ad3c-edd0b5481a6f sector 1 error reason:seal commit phase2" := by
    decide +kernel
  have reason : msg = "seal commit phase2" := by
    rw [← whole, named, show ("task " ++ "48bb11f3-3f83-5d9f-ad3c-edd0b5481a6f") =
      "task 48bb11f3-3f83-5d9f-ad3c-edd0b5481a6f" from rfl, String.append_right_inj] at text
    exact text.symm
  rw [named, reason] at fresh
  exact ⟨s, s', process, process', run, get, h, get', returns, same, fresh⟩

end System

end GpuProxy
