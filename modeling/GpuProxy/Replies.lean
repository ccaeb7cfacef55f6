import GpuProxy.Batches
import GpuProxy.Progress

/-!
# Whether there can still be a reply

A callback that panics, at its parameters or at a miner's address, takes its whole request
with it. `can_reply_iff` says that nothing else does, the debug log apart: from any other
state the calls can be served to their ends.
-/

namespace GpuProxy

namespace System

variable {env : Extern} {s t : System env} {as : List (Action env)}

/-- The calls without a program are those that panic. -/
def Decoded (s : System env) : Prop :=
  ∀ (i : Nat) c, s.calls[i]? = some c → (c.program = none ↔ c.request.handler env = none)

theorem step_decoded {a : Action env} (decoded : s.Decoded) (h : s.step a = some t) : t.Decoded := by
  intro i d get
  rcases step_calls h get with ⟨old, -⟩ | ⟨-, cause, req, -, rfl⟩ | ⟨ch, c, op, k, -, old, program, rfl⟩
  · exact decoded i d old
  · exact Option.map_eq_none_iff
  · have before := decoded i c old
    rw [program] at before
    simpa using before

theorem run_decoded (decoded : s.Decoded) (run : Runs.run step s as = some t) : t.Decoded :=
  Runs.invariant run decoded fun _ _ _ => step_decoded

theorem answer_undecoded {i : Nat} {req : Request} (decoded : s.Decoded)
    (requested : s.Requested i req) (malformed : req.handler env = none) : s.answer i = none := by
  obtain ⟨c, get, rfl⟩ := requested
  simp [answer, get, Call.answer, (decoded i c get).mpr malformed]

end System

open HttpServer

namespace Endpoint

open Base64Byte (Deserialized)

variable {env : Extern} {codec : Codec} {methods : Methods} {e e' : Endpoint env} {ev : Event env}

theorem run_system (codec : Codec) (methods : Methods) {s t : System env}
    {as : List (System.Action env)} (exchanges : List Exchange)
    (run : Runs.run System.step s as = some t) :
    Runs.run (step codec methods) ⟨s, exchanges⟩ (as.map .system) = some ⟨t, exchanges⟩ := by
  have sim : Runs.Simulates System.step (step codec methods) (fun s : System env => ⟨s, exchanges⟩)
      .system fun _ => True := by
    intro u a v _ move
    exact ⟨by simp [step, move], trivial⟩
  exact (sim.run trivial run).1

/-- The callback comes to an answer. -/
def Returns (env : Extern) : Deserialized Request → Prop
  | .value req => req.handler env ≠ none
  | .error _ => True
  | .panic => False

/-- The future has an answer, or waits for a call that has a program. -/
def CanServe (system : System env) (future : Future) : Prop :=
  match future.work with
  | .value i => ∃ c p, system.calls[i]? = some c ∧ c.program = some p
  | .error _ => True
  | .panic => False

/-- The future has panicked, or waits for a call that has. -/
def Blocked (system : System env) (future : Future) : Prop :=
  match future.work with
  | .value i => ∃ req, system.Requested i req ∧ req.handler env = none
  | .error _ => False
  | .panic => True

theorem canServe_of_returns {system : System env} {future : Future} (decoded : system.Decoded)
    (of : future.Of methods system.Requested)
    (returns : ∀ callback, methods future.call.method = some (.async callback) →
      Returns env (callback future.call.params)) : CanServe system future := by
  obtain ⟨callback, method, work⟩ := of
  have returned := returns callback method
  unfold CanServe
  generalize future.work = result at work ⊢
  cases result with
  | value i =>
    obtain ⟨req, params, c, get, rfl⟩ := work
    rw [params, Returns, Ne, ← decoded _ c get] at returned
    obtain ⟨p, program⟩ := Option.ne_none_iff_exists'.mp returned
    exact ⟨c, p, get, program⟩
  | error message => trivial
  | panic =>
    rw [work] at returned
    exact returned

theorem blocked_of_not_returns {system : System env} {future : Future}
    {callback : Option Json → Deserialized Request} (of : future.Of methods system.Requested)
    (method : methods future.call.method = some (.async callback))
    (stops : ¬ Returns env (callback future.call.params)) : Blocked system future := by
  obtain ⟨callback', method', work⟩ := of
  rw [method] at method'
  cases method'
  unfold Blocked
  generalize future.work = result at work ⊢
  cases result with
  | value i =>
    obtain ⟨req, params, requested⟩ := work
    rw [params] at stops
    exact ⟨req, requested, Classical.not_not.mp stops⟩
  | error message =>
    rw [work] at stops
    exact stops trivial
  | panic => trivial

/-- A future that can be served comes to its end, and takes no other one's call away. -/
theorem comes_to_end (codec : Codec) {system : System env} {future : Future}
    (served : CanServe system future) :
    ∃ as t result, Runs.run System.step system as = some t ∧
      outcome codec t future = some result ∧ ∀ other, CanServe system other → CanServe t other := by
  unfold CanServe at served
  split at served
  · next i work =>
    obtain ⟨c, p, get, program⟩ := served
    obtain ⟨bound, -⟩ := List.getElem?_eq_some_iff.mp get
    obtain ⟨log, as, run, -⟩ := System.serve_exec 0 get program
    refine ⟨as, _, codec.send (p.exec (Server.serial 0) system.server).1, run, ?_, ?_⟩
    · simp only [outcome, work, System.answer, List.getElem?_set_self bound, Option.bind_some,
        Call.answer, Program.answer_ret, Option.map_some]
    · intro other served'
      unfold CanServe at served' ⊢
      split
      · next j work' =>
        rw [work'] at served'
        obtain ⟨d, q, get', program'⟩ := served'
        by_cases same : j = i
        · subst same
          exact ⟨_, _, List.getElem?_set_self bound, rfl⟩
        · exact ⟨d, q, by rw [List.getElem?_set_ne (Ne.symm same), get'], program'⟩
      · trivial
      · next work' =>
        rw [work'] at served'
        exact served'
  · next message work => exact ⟨[], system, _, rfl, by rw [outcome, work], fun _ => id⟩
  · exact served.elim

/-- Its futures end one after the other, the first one first. -/
theorem comes_to_reply {n : Nat} {x : Exchange} (get : e.exchanges[n]? = some x)
    (running : x.phase = .running) (served : ∀ f ∈ x.pending, CanServe e.system f) :
    ∃ t y, Runs.Reachable (step codec methods) e t ∧ t.exchanges[n]? = some y ∧
      y.phase = .running ∧ y.pending = [] := by
  generalize left : x.pending = pending at served
  induction pending generalizing e x with
  | nil => exact ⟨e, x, Runs.reachable_refl e, get, running, left⟩
  | cons future pending ih =>
    obtain ⟨as, system, result, run, ended, kept⟩ := comes_to_end codec (served future (by simp))
    have moved := run_system codec methods e.exchanges run
    let x' : Exchange := { x with
      pending := x.pending.eraseIdx 0
      sent := x.sent ++ [⟨future.call, future.source, ⟨future.call.id, result⟩⟩]
      onResult := x.onResult + 1 }
    obtain ⟨bound, -⟩ := List.getElem?_eq_some_iff.mp get
    have finished : step codec methods ⟨system, e.exchanges⟩ (.finish n 0) =
        some (setExchange ⟨system, e.exchanges⟩ n x') := by
      simp [step, get, left, ended, running, x']
    have get' : (setExchange (⟨system, e.exchanges⟩ : Endpoint env) n x').exchanges[n]? = some x' :=
      List.getElem?_set_self bound
    obtain ⟨t, y, ⟨bs, rest⟩, there, still, done⟩ := ih get' running (by simp [x', left])
      fun f hf => kept f (served f (List.mem_cons_of_mem future hf))
    refine ⟨t, y, ⟨as.map .system ++ .finish n 0 :: bs, ?_⟩, there, still, done⟩
    simp [Runs.run_append, moved, finished, rest]

theorem Blocked.run {s t : System env} {future : Future} {as : List (System.Action env)}
    (blocked : Blocked s future) (run : Runs.run System.step s as = some t) : Blocked t future := by
  unfold Blocked at blocked ⊢
  split
  · next i work =>
    rw [work] at blocked
    obtain ⟨req, requested, malformed⟩ := blocked
    exact ⟨req, System.run_requested run requested, malformed⟩
  · next message work =>
    rw [work] at blocked
    exact blocked
  · trivial

theorem Blocked.outcome {system : System env} {future : Future} (blocked : Blocked system future)
    (decoded : system.Decoded) : outcome codec system future = none := by
  unfold Blocked at blocked
  unfold Endpoint.outcome
  split
  · next i work =>
    rw [work] at blocked
    obtain ⟨req, requested, malformed⟩ := blocked
    rw [System.answer_undecoded decoded requested malformed]
    rfl
  · next message work =>
    rw [work] at blocked
    exact blocked.elim
  · rfl

/-- The exchange waits for a future that will not end. -/
def Waits (e : Endpoint env) (n : Nat) (future : Future) : Prop :=
  ∃ x, e.exchanges[n]? = some x ∧ future ∈ x.pending ∧ (x.phase = .running ∨ x.phase = .aborted)

theorem step_waits {n : Nat} {future : Future} (decoded : e.system.Decoded)
    (blocked : Blocked e.system future) (waits : e.Waits n future)
    (h : step codec methods e ev = some e') : e'.Waits n future := by
  obtain ⟨x, get, pending, phase⟩ := waits
  cases step_cases h with
  | ended | start =>
    obtain ⟨bound, -⟩ := List.getElem?_eq_some_iff.mp get
    exact ⟨x, by rw [List.getElem?_append_left bound, get], pending, phase⟩
  | system move => exact ⟨x, get, pending, phase⟩
  | @exchange ev m z z' quiet get' running moves =>
    by_cases same : m = n
    · subst same
      rw [get] at get'
      cases get'
      obtain ⟨bound, -⟩ := List.getElem?_eq_some_iff.mp get
      refine ⟨z', List.getElem?_set_self bound, ?_⟩
      cases moves with
      | @finish j other result inside ended =>
        obtain ⟨within, rfl⟩ := List.getElem?_eq_some_iff.mp inside
        have moved := (List.getElem_cons_eraseIdx_perm within).mem_iff.mpr pending
        rcases List.mem_cons.mp moved with rfl | left
        · rw [blocked.outcome decoded] at ended
          cases ended
        · exact ⟨left, .inl running⟩
      | abort => exact ⟨pending, .inr rfl⟩
      | reply done =>
        rw [done] at pending
        cases pending
    · exact ⟨x, by simp [setExchange, List.getElem?_set_ne same, get], pending, phase⟩

theorem reachable_waits {n : Nat} {future : Future} {t : Endpoint env} (decoded : e.system.Decoded)
    (blocked : Blocked e.system future) (waits : e.Waits n future)
    (reach : Runs.Reachable (step codec methods) e t) : t.Waits n future := by
  obtain ⟨es, run⟩ := reach
  apply (Runs.invariant (I := fun u : Endpoint env => u.system.Decoded ∧ Blocked u.system future ∧
    u.Waits n future) run ⟨decoded, blocked, waits⟩ ?_).2.2
  rintro u ev v ⟨decoded, blocked, waits⟩ h
  have refines := step_refines h
  exact ⟨System.run_decoded decoded refines, blocked.run refines, step_waits decoded blocked waits h⟩

/-- Where the log does not slice the body, a running exchange can still be replied to exactly
where every callback it waits for returns. -/
theorem replied_iff_returns {server : Server} {n : Nat} {x : Exchange} (quiet : codec.debug = false)
    (reach : Runs.Reachable (step codec methods) ⟨System.idle server, []⟩ e)
    (get : e.exchanges[n]? = some x) (running : x.phase = .running) :
    (∃ t y r, Runs.Reachable (step codec methods) e t ∧ t.exchanges[n]? = some y ∧
      y.phase = .replied r) ↔
    ∀ f ∈ x.pending, ∀ callback, methods f.call.method = some (.async callback) →
      Returns env (callback f.call.params) := by
  obtain ⟨es, run⟩ := reach
  have accounted := (reachable_sound run).accounted x (List.mem_of_getElem? get)
  have decoded : e.system.Decoded := System.run_decoded (by simp [System.Decoded, System.idle])
    (Runs.run_collect Endpoint.system (fun _ _ _ => step_refines) run)
  constructor
  · rintro ⟨t, y, r, later, there, replied⟩ f pending callback method
    by_contra stops
    have blocked := blocked_of_not_returns (accounted.pending f pending) method stops
    obtain ⟨z, there', -, phase⟩ := reachable_waits decoded blocked ⟨x, get, pending, .inl running⟩ later
    rw [there] at there'
    cases there'
    simp [replied] at phase
  · intro returns
    have served : ∀ f ∈ x.pending, CanServe e.system f := fun f pending =>
      canServe_of_returns decoded (accounted.pending f pending) (returns f pending)
    have ready : ∃ t y, Runs.Reachable (step codec methods) e t ∧ t.exchanges[n]? = some y ∧
        y.phase = .running ∧ y.pending = [] := comes_to_reply get running served
    obtain ⟨t, y, ⟨bs, later⟩, there, still, done⟩ := ready
    have all : Runs.run (step codec methods) ⟨System.idle server, []⟩ (es ++ bs) = some t := by
      simp [Runs.run_append, run, later]
    have sound := (reachable_sound all).accounted y (List.mem_of_getElem? there)
    obtain ⟨isSingle, calls, received⟩ := sound.running still
    obtain ⟨bound, -⟩ := List.getElem?_eq_some_iff.mp there
    have closed := ((sound.close still done).replied _ _ received).1
    have replied : step codec methods t (.reply n) =
        some (t.setExchange n { y with phase := y.reply codec }) := by
      simp [step, there, still, done]
    cases phase : y.reply codec with
    | replied r =>
      refine ⟨_, _, r, ⟨bs ++ [.reply n], Runs.run_snoc later replied⟩,
        List.getElem?_set_self bound, phase⟩
    | expectFailed => exact absurd phase closed
    | running | aborted =>
      simp only [Exchange.reply, Codec.reply, Codec.logs_of_quiet quiet, ↓reduceIte] at phase
      split at phase <;> cases phase

section Tasks

open ProxyRpc (decode readParams taskMethods taskRequest Panicking)

variable {byName : String → List (String × Json) → Deserialized ProxyRpc.Call}

theorem returns_taskRequest {name : String} {sequence : ProxyRpc.Sequence ProxyRpc.Call}
    {params : Option Json} : Returns env (taskRequest byName name sequence params) ↔
      readParams byName name sequence params ≠ .panic ∧
        ∀ c, readParams byName name sequence params = .value c → c.addressPanics env = false := by
  unfold taskRequest
  cases readParams byName name sequence params with
  | value c =>
    cases sent : c.request with
    | none => simp [sent, Returns, Serde.invalidType, ProxyRpc.Call.addressPanics_eq_false env sent]
    | some req => simp [sent, Returns, ProxyRpc.Call.request_handler env sent]
  | error message => simp [Returns]
  | panic => simp [Returns]

theorem returns_taskMethods {call : RpcCall} {callback : Option Json → Deserialized Request}
    (method : taskMethods byName call.method = some (.async callback)) :
    Returns env (callback call.params) ↔ ¬ Panicking env byName call := by
  unfold taskMethods at method
  split at method
  · obtain ⟨sequence, found, same⟩ := Option.map_eq_some_iff.mp method
    cases same
    simp [returns_taskRequest, Panicking, decode, found]
  · cases method

/-- With the methods about tasks and no debug log, the body of a running exchange can still be
made exactly where none of the calls it waits for panics, at its parameters or at its miner's
address. One such call costs the whole batch its responses. -/
theorem can_reply_iff {server : Server} {n : Nat} {x : Exchange} (quiet : codec.debug = false)
    (reach : Runs.Reachable (step codec (taskMethods byName)) ⟨System.idle server, []⟩ e)
    (get : e.exchanges[n]? = some x) (running : x.phase = .running) :
    (∃ t y r, Runs.Reachable (step codec (taskMethods byName)) e t ∧ t.exchanges[n]? = some y ∧
      y.phase = .replied r) ↔
    ∀ f ∈ x.pending, ¬ Panicking env byName f.call := by
  rw [replied_iff_returns quiet reach get running]
  obtain ⟨es, run⟩ := reach
  have accounted := (reachable_sound run).accounted x (List.mem_of_getElem? get)
  constructor
  · intro returns f pending
    obtain ⟨callback, method, -⟩ := accounted.pending f pending
    exact (returns_taskMethods method).mp (returns f pending callback method)
  · intro reads f pending callback method
    exact (returns_taskMethods method).mpr (reads f pending)

end Tasks

/-- A lookup next to a submission whose miner is too short for an address. -/
def spoiledText : String :=
  "[\x7b\"jsonrpc\":\"2.0\",\"id\":1,\"method\":\"Proof.GetTask\",\"params\":[\"t\"]\x7d," ++
    "\x7b\"jsonrpc\":\"2.0\",\"id\":2,\"method\":\"Proof.AddTask\"," ++
    "\"params\":[\"f1aa\",\"\",0,\"\"]\x7d]"

def spoiledCalls : List RpcCall :=
  [⟨.number 1, "Proof.GetTask", some (.arr [.str "t"])⟩,
    ⟨.number 2, "Proof.AddTask", some (.arr [.str "f1aa", .str "", .num 0, .str ""])⟩]

/-- Neither call of the batch can be answered any more. -/
theorem can_reply_iff_demo : ∃ (e : Endpoint Demo.env) (x : Exchange),
    Runs.run (step (bodyCodec spoiledText spoiledCalls) (ProxyRpc.taskMethods ProxyRpc.noNames))
      ⟨System.idle (.empty (.db Table.empty)), []⟩ [postBody spoiledText] = some e ∧
    e.exchanges[0]? = some x ∧ x.phase = .running ∧ x.pending.length = 2 ∧
    ¬ ∃ t y r, Runs.Reachable (step (bodyCodec spoiledText spoiledCalls)
        (ProxyRpc.taskMethods ProxyRpc.noNames)) e t ∧ t.exchanges[0]? = some y ∧
          y.phase = .replied r := by
  have ran : ((Runs.run (step (bodyCodec spoiledText spoiledCalls) (ProxyRpc.taskMethods ProxyRpc.noNames))
      (⟨System.idle (.empty (.db Table.empty)), []⟩ : Endpoint Demo.env) [postBody spoiledText]).bind
        fun e => e.exchanges[0]?.map fun x => (x.phase, x.pending.length, x.pending.any fun f =>
          decide (ProxyRpc.decode ProxyRpc.noNames f.call = some (.value (.addTask "f1aa" "" .c2 ⟨[]⟩))))) =
      some (.running, 2, true) := by
    decide +kernel
  obtain ⟨e, run, there⟩ := Option.bind_eq_some_iff.mp ran
  obtain ⟨x, get, here⟩ := Option.map_eq_some_iff.mp there
  simp only [Prod.mk.injEq] at here
  obtain ⟨running, both, adds⟩ := here
  obtain ⟨f, pending, added⟩ := List.any_eq_true.mp adds
  refine ⟨e, x, run, get, running, both, fun replies => ?_⟩
  have calm := (can_reply_iff rfl ⟨_, run⟩ get running).mp replies f pending
  exact calm (.inr ⟨_, of_decide_eq_true added, rfl⟩)

end Endpoint

end GpuProxy
