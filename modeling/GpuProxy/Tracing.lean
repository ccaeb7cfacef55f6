import GpuProxy.System

/-!
# The task a plugin polls

The plugin works out the id of its task itself, from the address and the bytes
it sends as text, and never reads the id the server returns. Whichever way it
comes to `trace_task_result`, there is a row under that id, and no storage call
removes a row.
-/

namespace GpuProxy

/-- There is a row under the id. -/
def Server.Has (s : Server) (tid : String) : Prop := ∃ row, s.tasks.find tid = some row

/-- A response that says an id has a row is about an id in `K`. -/
def Op.Shows (K : String → Prop) : (op : Op) → op.Response → Prop
  | .hasTask tid, .ok true => K tid
  | .addTask tid _ _ _ _, .ok _ => K tid
  | .fetch tid, .ok _ => K tid
  | _, _ => True

/-- A task that is read has its id in `K`, and so does a submission that is accepted. -/
structure Request.Backed (env : Extern) (K : String → Prop) (req : Request) (a : Answer) : Prop where
  read : ∀ id t, req = .getTask id → a = .ok (.task t) → K id
  accepted : ∀ miner comment taskType param r, req = .addTask miner comment taskType param →
    a = .ok r → ∃ addr ty bytes, req.Submits env addr ty bytes ∧ K (genTaskId env addr ty bytes)

theorem Op.Shows.mono {K K' : String → Prop} {op : Op} {r : op.Response} (shown : op.Shows K r)
    (more : ∀ tid, K tid → K' tid) : op.Shows K' r := by
  unfold Op.Shows at *
  split
  all_goals simp_all

namespace Server

variable {s : Server} {tid : String}

theorem Has.act (has : s.Has tid) (ch : Choice) (op : Op) : (s.act ch op).2.Has tid := by
  obtain ⟨row, found⟩ := has
  exact ⟨_, act_find_some ch op found⟩

/-- What a response says is so in the state the call leaves. -/
theorem act_shows (ch : Choice) (op : Op) (s : Server) :
    op.Shows (s.act ch op).2.Has (s.act ch op).1 := by
  cases fails : ch.fails with
  | some e =>
    rw [act_fails fails]
    cases op <;> trivial
  | none =>
    rw [act_performs fails]
    cases op with
    | hasTask tid =>
      simp only [perform, Op.Shows]
      cases has : DbOps.hasTask tid s.tasks with
      | true => exact DbOps.hasTask_iff.mp has
      | false => trivial
    | addTask tid miner taskType rid comment =>
      simp only [perform]
      cases found : s.tasks.find tid with
      | some row =>
        rw [DbOps.addTask_present found]
        trivial
      | none =>
        obtain ⟨tasks', added, rows⟩ := DbOps.addTask_absent ch.now miner taskType rid comment found
        rw [added]
        exact ⟨_, by simp [rows]; rfl⟩
    | fetch tid =>
      simp only [perform, DbOps.fetch]
      cases found : s.tasks.find tid with
      | some row => exact ⟨row, found⟩
      | none => trivial
    | _ => trivial

end Server

namespace Rpc

variable {env : Extern} {K : String → Prop} {addr : Address} {comment : String} {taskType : TaskType}
  {bytes : Bytes}

/-- A submission is accepted after it has found its task, or has added it. -/
theorem addTaskInner_shows : (addTaskInner env addr comment taskType bytes).run.Sat (fun _ => True)
    (Op.Shows K) fun a => ∀ id, a = .ok id → K (genTaskId env addr taskType bytes) := by
  rw [addTaskInner_eq]
  let entry := Entry.of env addr comment taskType bytes
  have checked (r : Except String Bool) (found : Op.Shows K (.hasTask entry.taskId) r) :
      (afterHasTask entry r).Sat (fun _ => True) (Op.Shows K) fun a => ∀ id, a = .ok id →
        K entry.taskId := by
    rcases r with e | _ | _
    · intro id accepted
      cases accepted
    · constructor
      · trivial
      · intro r added
        cases r with
        | error e =>
          intro id accepted
          cases accepted
        | ok key =>
          intro id accepted
          exact added
    · intro id accepted
      exact found
  constructor
  · trivial
  · intro r _
    rcases r with e | _ | _
    · intro id accepted
      cases accepted
    · constructor
      · trivial
      · intro r _
        cases r with
        | error e =>
          intro id accepted
          cases accepted
        | ok id => exact ⟨trivial, checked⟩
    · exact ⟨trivial, checked⟩

end Rpc

theorem Request.handler_backed {env : Extern} {K : String → Prop} {req : Request} {h : Handler Reply}
    (hh : req.handler env = some h) :
    h.run.Sat (fun _ => True) (Op.Shows K) (req.Backed env K) := by
  cases req with
  | addTask miner comment taskType param =>
    obtain ⟨bytes, decodes, rfl⟩ := Option.map_eq_some_iff.mp hh
    have refused (e : RpcError) : (Request.addTask miner comment taskType param).Backed env K (.error e) := by
      constructor
      · intro id t same
        cases same
      · intro miner comment taskType param r same accepted
        cases accepted
    have checked : Rpc.Checked env (.addTask miner comment taskType param)
        (Rpc.addTask env miner comment taskType bytes) := Rpc.addTask_checked (Option.filter_eq_some_iff.mp decodes).1
    rcases checked with ⟨e, stops⟩ | ⟨addr, comment', ty, bytes', submits, passes⟩
    · rw [stops]
      exact refused _
    · rw [passes]
      apply Rpc.sat_bind Rpc.addTaskInner_shows
      · intro id accepted
        constructor
        · intro id t same
          cases same
        · intro _ _ _ _ r same _
          cases same
          exact ⟨addr, ty, bytes', submits, accepted id rfl⟩
      · intro e _
        exact refused e
  | _ =>
    apply (Request.handler_sat (R := Op.Shows K) hh).mono
    · intro op _
      trivial
    · intro op r shown
      exact shown
    · intro a answers
      constructor
      · intro id t same answered
        rw [same, answered] at answers
        cases answers with
        | getTask shown => exact shown
      · intro _ _ _ _ r same
        cases same

namespace ProcessRequest

variable {env : Extern}

/-- It has come to `trace_task_result`. -/
def Tracing (process : ProcessRequest env) : Prop :=
  process.phase = .sleeping ∨ ∃ call, process.phase = .polling call

/-- The text its miner's address is sent as is read as that address. -/
def AddressReads (process : ProcessRequest env) : Prop :=
  env.addressFromStr (env.addressToString process.minerAddr) = .ok process.minerAddr

/-- The server computes the id that the plugin does. -/
theorem AddressReads.taskId_eq {process : ProcessRequest env} (reads : process.AddressReads)
    {addr : Address} {ty : TaskType} {bytes : Bytes}
    (submits : process.addRequest.Submits env addr ty bytes) :
    genTaskId env addr ty bytes = process.taskId := by
  obtain ⟨rfl, parses, decodes, -⟩ := submits
  rw [Base64.decode_encode] at decodes
  cases decodes
  rw [reads] at parses
  cases parses
  rfl

end ProcessRequest

namespace System

variable {env : Extern} {s s' t : System env} {a : Action env} {tid : String}

/-- What the plugin has learned of its task so far. -/
structure Learned (s : System env) (process : ProcessRequest env) : Prop where
  resetting : ∀ call, process.phase = .resetting call → s.server.Has process.taskId
  adding : ∀ call, process.phase = .adding call → s.Requested call process.addRequest
  tracing : process.AddressReads → process.Tracing → s.server.Has process.taskId

structure Grounded (s : System env) : Prop where
  consistent : s.Consistent
  /-- Rows do not go away, so a call is good for any ids that include the present ones. -/
  calls : ∀ K : String → Prop, (∀ tid, s.server.Has tid → K tid) → ∀ (i : Nat) c,
    s.calls[i]? = some c → c.Sat (fun _ _ => True) (Op.Shows K) (Request.Backed env K)
  plugins : ∀ (i : Nat) process, s.plugins[i]? = some process → s.Learned process

theorem step_has_row (h : s.step a = some s') (has : s.server.Has tid) : s'.server.Has tid := by
  rcases step_server h with ⟨same, -⟩ | ⟨call, ch, op, -, same, -⟩
  · rw [same]
    exact has
  · rw [same]
    exact has.act ch op

theorem idle_grounded (server : Server) : (idle server : System env).Grounded where
  consistent := idle_consistent server
  calls := by simp [idle]
  plugins := by simp [idle]

theorem Grounded.answered (grounded : s.Grounded) {call : Nat} {req : Request} {x : Answer}
    (requested : s.Requested call req) (answered : s.answer call = some x) :
    req.Backed env s.server.Has x := by
  obtain ⟨c, get, rfl⟩ := requested
  simp only [answer, get, Option.bind_some, Call.answer] at answered
  obtain ⟨p, program, answer⟩ := Option.bind_eq_some_iff.mp answered
  have contract := grounded.calls _ (fun _ has => has) call c get p program
  cases p with
  | call op k => cases answer
  | ret y =>
    cases answer
    exact contract

theorem step_backed (grounded : s.Grounded) (h : s.step a = some s') (K : String → Prop)
    (rows : ∀ tid, s'.server.Has tid → K tid) (i : Nat) (c : Call) (get : s'.calls[i]? = some c) :
    c.Sat (fun _ _ => True) (Op.Shows K) (Request.Backed env K) := by
  have before (tid : String) (has : s.server.Has tid) : K tid := rows tid (step_has_row h has)
  rcases step_calls h get with ⟨old, -⟩ | ⟨-, cause, req, -, rfl⟩ |
    ⟨ch, d, op, k, rfl, old, program, rfl⟩
  · exact grounded.calls K before i c old
  · intro p hp
    obtain ⟨g, hg, rfl⟩ := Option.map_eq_some_iff.mp hp
    exact Request.handler_backed hg
  · intro p hp
    cases hp
    apply (grounded.calls K before i d old _ program).2
    have shown := Server.act_shows ch op s.server
    rw [← serves_server h ⟨rfl, d, k, old, program⟩] at shown
    exact shown.mono rows

/-- What the plugin has seen of its task says there is a row. -/
theorem Grounded.read_has {process : ProcessRequest env} (grounded : s.Grounded) {call : Nat} {t : Task}
    (requested : s.Requested call (.getTask process.taskId))
    (answered : s.answer call = some (.ok (.task t))) : s.server.Has process.taskId :=
  (grounded.answered requested answered).read process.taskId t rfl rfl

/-- An accepted submission of the plugin's has given its task a row. -/
theorem Grounded.added_has {process : ProcessRequest env} (grounded : s.Grounded)
    (reads : process.AddressReads) {call : Nat} {r : Reply}
    (requested : s.Requested call process.addRequest) (answered : s.answer call = some (.ok r)) :
    s.server.Has process.taskId := by
  obtain ⟨addr, ty, bytes, submits, has⟩ :=
    (grounded.answered requested answered).accepted _ _ _ _ r rfl rfl
  rw [← reads.taskId_eq submits]
  exact has

theorem step_process {process process' : ProcessRequest env} {ev : ProcessRequest.Event}
    {sent : Option Request} (grounded : s.Grounded) (waits : process.Waits s.Requested)
    (learned : s.Learned process)
    (move : ProcessRequest.Step s.answer s.calls.length process ev process' sent)
    (rows : ∀ tid, s.server.Has tid → s'.server.Has tid)
    (new : ∀ req, sent = some req → s'.Requested s.calls.length req) : s'.Learned process' := by
  -- a phase in which nothing is awaited but, perhaps, a poll
  have settled {phase : ProcessRequest.Phase} (resets : ∀ call, phase ≠ .resetting call)
      (adds : ∀ call, phase ≠ .adding call)
      (traces : process.AddressReads → ({ process with phase := phase }).Tracing →
        s.server.Has process.taskId) : s'.Learned { process with phase := phase } := by
    constructor
    · intro call same
      exact absurd same (resets call)
    · intro call same
      exact absurd same (adds call)
    · intro reads tracing
      exact rows _ (traces reads tracing)
  cases move with
  | check phase =>
    apply settled (by simp) (by simp)
    intro _ tracing
    simp [ProcessRequest.Tracing] at tracing
  | reset phase answered failed =>
    have has := rows _ (grounded.read_has (waits.checking _ phase) answered)
    constructor
    · intro _ _
      exact has
    · intro call same
      cases same
    · intro _ _
      exact has
  | add phase ends reply absent =>
    constructor
    · intro call same
      cases same
    · intro call same
      cases same
      exact new _ rfl
    · intro _ tracing
      simp [ProcessRequest.Tracing] at tracing
  | found phase answered unfailed =>
    apply settled (by simp) (by simp)
    intro _ _
    exact grounded.read_has (waits.checking _ phase) answered
  | ready phase answered =>
    apply settled (by simp) (by simp)
    intro reads _
    rcases phase with phase | phase
    · exact learned.resetting _ phase
    · exact grounded.added_has reads (learned.adding _ phase) answered
  | giveUp phase =>
    apply settled (by simp) (by simp)
    intro _ tracing
    simp [ProcessRequest.Tracing] at tracing
  | poll phase =>
    apply settled (by simp) (by simp)
    intro reads _
    exact learned.tracing reads (.inl phase)
  | proved phase | failed phase | again phase =>
    apply settled (by simp) (by simp)
    intro reads _
    exact learned.tracing reads (.inr ⟨_, phase⟩)

theorem Learned.mono {process : ProcessRequest env} (learned : s.Learned process)
    (h : s.step a = some s') : s'.Learned process := by
  constructor
  · intro call phase
    exact step_has_row h (learned.resetting call phase)
  · intro call phase
    exact step_requested h (learned.adding call phase)
  · intro reads tracing
    exact step_has_row h (learned.tracing reads tracing)

theorem step_learned (grounded : s.Grounded) (h : s.step a = some s') (i : Nat)
    (process : ProcessRequest env) (get : s'.plugins[i]? = some process) : s'.Learned process := by
  rcases step_processes h get with ⟨old, -⟩ | ⟨input, -, -, rfl⟩ |
    ⟨ev, old, sent, -, get', move, -, new⟩
  · exact (grounded.plugins i process old).mono h
  · constructor
    · intro call phase
      cases phase
    · intro call phase
      cases phase
    · intro _ tracing
      simp [ProcessRequest.Tracing, ProcessRequest.start] at tracing
  · apply step_process grounded (grounded.consistent.plugins i old get') (grounded.plugins i old get')
      move
    · intro tid has
      exact step_has_row h has
    · exact new

theorem step_grounded (grounded : s.Grounded) (h : s.step a = some s') : s'.Grounded where
  consistent := step_consistent grounded.consistent h
  calls := step_backed grounded h
  plugins := step_learned grounded h

/-- Whenever a plugin polls, the server computes the id it polls from what it sends,
there is a row under that id, and there is one in every later state. -/
theorem polled_task_exists {server : Server} {as bs : List (Action env)} {i : Nat}
    {process : ProcessRequest env} (run : Runs.run step (idle server) as = some s)
    (get : s.plugins[i]? = some process) (reads : process.AddressReads) (tracing : process.Tracing)
    (later : Runs.run step s bs = some t) :
    (∀ addr ty bytes, process.addRequest.Submits env addr ty bytes →
      genTaskId env addr ty bytes = process.taskId) ∧
    s.server.Has process.taskId ∧ t.server.Has process.taskId := by
  have grounded : s.Grounded :=
    Runs.invariant run (idle_grounded server) fun _ _ _ grounded h => step_grounded grounded h
  have has := (grounded.plugins i process get).tracing reads tracing
  constructor
  · intro addr ty bytes submits
    exact reads.taskId_eq submits
  · constructor
    · exact has
    · apply Runs.invariant (I := fun u => u.server.Has process.taskId) later has
      intro u a v has h
      exact step_has_row h has

/-- A plugin finds no task, adds it, and goes to sleep. -/
def addsTask : List (Action Demo.env) :=
  [.startPlugin Demo.input, .plugin 0 .connected, .serve 0 ⟨1, none, none⟩,
    .plugin 0 (.ends .answered), .serve 1 ⟨2, none, none⟩, .serve 1 ⟨3, none, none⟩,
    .serve 1 ⟨4, none, none⟩, .serve 1 ⟨5, none, none⟩, .plugin 0 (.ends .answered)]

theorem polled_task_exists_demo : ∃ s t process,
    Runs.run step (idle (.empty (.db Table.empty))) addsTask = some s ∧
    s.plugins[0]? = some process ∧ Runs.run step s [.plugin 0 .wake] = some t ∧
    s.server.Has process.taskId ∧ t.server.Has process.taskId := by
  have ran : ((Runs.run step (idle (.empty (.db Table.empty))) addsTask).bind fun s =>
      s.plugins[0]?.map fun process => (process.phase, process.input.minerId,
        (Runs.run step s [.plugin 0 .wake]).isSome)) = some (.sleeping, Demo.input.minerId, true) := by
    decide +kernel
  obtain ⟨s, run, hs⟩ := Option.bind_eq_some_iff.mp ran
  obtain ⟨process, get, hp⟩ := Option.map_eq_some_iff.mp hs
  obtain ⟨sleeping, rest⟩ := Prod.mk.inj hp
  obtain ⟨miner, wakes⟩ := Prod.mk.inj rest
  obtain ⟨t, later⟩ := Option.isSome_iff_exists.mp wakes
  have reads : process.AddressReads := by
    simp only [ProcessRequest.AddressReads, ProcessRequest.minerAddr, miner]
    decide +kernel
  exact ⟨s, t, process, run, get, later,
    (polled_task_exists run get reads (.inl sleeping) later).2⟩

end System

end GpuProxy
