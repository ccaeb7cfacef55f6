import GpuProxy.ProxyRpc

/-!
# Every call of a batch is answered once

The calls of one body end in any order, between those of other bodies and everything
else the system does. `answered_once` says what a body that has been sent holds, and
`endpoint_refines` that behind the server nothing happens but what the system can do: the
requests that the calls of the bodies decode to, one call each, and its own actions.
-/

namespace GpuProxy

namespace System

variable {env : Extern} {s t : System env} {as : List (Action env)}

theorem run_requested {i : Nat} {req : Request} (run : Runs.run step s as = some t)
    (requested : s.Requested i req) : t.Requested i req :=
  Runs.invariant (I := fun u => u.Requested i req) run requested fun _ _ _ held h =>
    step_requested h held

theorem run_answer {i : Nat} {x : Answer} (run : Runs.run step s as = some t)
    (answered : s.answer i = some x) : t.answer i = some x :=
  Runs.invariant (I := fun u => u.answer i = some x) run answered fun _ _ _ held h =>
    step_answer h held

theorem run_calls (run : Runs.run step s as = some t) : s.calls.length ≤ t.calls.length :=
  Runs.invariant (I := fun u => s.calls.length ≤ u.calls.length) run (Nat.le_refl _)
    fun _ _ _ held h => held.trans (step_length h)

end System

namespace HttpServer

open Base64Byte (Deserialized)

variable {env : Extern} {codec : Codec} {methods : Methods}

/-- The method of the call is async, and the future runs what its callback asks for. -/
def Future.Of (methods : Methods) (asked : Nat → Request → Prop) (future : Future) : Prop :=
  ∃ callback, methods future.call.method = some (.async callback) ∧
    match future.work with
    | .value i => ∃ req, callback future.call.params = .value req ∧ asked i req
    | .error message => callback future.call.params = .error message
    | .panic => callback future.call.params = .panic

theorem Future.Of.mono {asked asked' : Nat → Request → Prop} {future : Future}
    (h : future.Of methods asked) (more : ∀ i req, asked i req → asked' i req) :
    future.Of methods asked' := by
  obtain ⟨callback, method, work⟩ := h
  refine ⟨callback, method, ?_⟩
  split at work
  · obtain ⟨req, params, held⟩ := work
    exact ⟨req, params, more _ req held⟩
  · exact work
  · exact work

/-- The response is to its call: the outcome the call has at once, or that of its future. -/
inductive Sent.Answers (codec : Codec) (methods : Methods) (system : System env) : Sent → Prop where
  | now {granted call outcome} (responds : dispatch codec methods granted call = .responds outcome) :
      Answers codec methods system ⟨call, none, ⟨call.id, outcome⟩⟩
  | later {future outcome} (of : future.Of methods system.Requested)
      (ended : Endpoint.outcome codec system future = some outcome) :
      Answers codec methods system ⟨future.call, future.source, ⟨future.call.id, outcome⟩⟩

/-- What starting the calls of a body comes to. -/
structure Started.Covers (codec : Codec) (methods : Methods) (isSingle : Bool)
    (list : List RpcCall) (fresh : Nat) (started : Started) : Prop where
  calls : (started.pending.map Future.call ++ started.sent.map Sent.call).Perm list
  pending : ∀ f ∈ started.pending,
    f.Of methods fun i req => ∃ j, i = fresh + j ∧ started.requests[j]? = some req
  sent : ∀ p ∈ started.sent, ∃ granted call outcome,
    dispatch codec methods granted call = .responds outcome ∧ p = ⟨call, none, ⟨call.id, outcome⟩⟩
  counted : started.onResult + started.pending.length =
    list.countP (reportsResult methods isSingle)
  sources : started.pending.filterMap Future.source = List.range' fresh started.requests.length

theorem dispatch_runs {granted : Bool} {call : RpcCall} {callback : Deserialized Request}
    (h : dispatch codec methods granted call = .runs callback) :
    ∃ async, methods call.method = some (.async async) ∧ async call.params = callback := by
  unfold dispatch at h
  split at h
  · cases h
  · split at h <;> cases h
  · next async method =>
    split at h
    · cases h
      exact ⟨async, method, rfl⟩
    · cases h
  · cases h

/-- A future that makes no request is one more to wait for, and nothing else. -/
theorem Started.Covers.pend {isSingle : Bool} {calls : List RpcCall} {fresh : Nat} {rest : Started}
    (covers : rest.Covers codec methods isSingle calls fresh) (future : Future)
    (of : future.Of methods fun i req => ∃ j, i = fresh + j ∧ rest.requests[j]? = some req)
    (silent : future.source = none) :
    Started.Covers codec methods isSingle (future.call :: calls) fresh
      { rest with pending := future :: rest.pending } := by
  have reports : reportsResult methods isSingle future.call = true := by
    obtain ⟨async, method, -⟩ := of
    simp [reportsResult, method]
  refine ⟨covers.calls.cons future.call, ?_, covers.sent, ?_, ?_⟩
  · intro f hf
    cases List.mem_cons.mp hf with
    | inl same =>
      subst same
      exact of
    | inr hf => exact covers.pending f hf
  · have counted := covers.counted
    simp only [List.countP_cons, reports, List.length_cons, ↓reduceIte]
    omega
  · simp only [List.filterMap_cons, silent, covers.sources]

theorem startCalls_covers (isSingle : Bool) (granted : Nat → Bool) (calls : List RpcCall)
    (k fresh : Nat) : Started.Covers codec methods isSingle calls fresh
      (startCalls codec methods isSingle granted calls k fresh) := by
  induction calls generalizing k fresh with
  | nil => exact ⟨.refl _, by simp [startCalls], by simp [startCalls], rfl, rfl⟩
  | cons call calls ih =>
    unfold startCalls
    split
    · next outcome responds =>
      have rest := ih (k + 1) fresh
      refine ⟨?_, rest.pending, ?_, ?_, rest.sources⟩
      · simp only [List.map_cons]
        exact List.perm_middle.trans (rest.calls.cons call)
      · intro p hp
        rcases List.mem_cons.mp hp with rfl | hp
        · exact ⟨_, call, outcome, responds, rfl⟩
        · exact rest.sent p hp
      · have counted := rest.counted
        simp only [List.countP_cons]
        omega
    · next req runs =>
      have rest := ih (k + 1) (fresh + 1)
      obtain ⟨async, method, params⟩ := dispatch_runs runs
      have reports : reportsResult methods isSingle call = true := by simp [reportsResult, method]
      refine ⟨rest.calls.cons call, ?_, rest.sent, ?_, ?_⟩
      · intro f hf
        rcases List.mem_cons.mp hf with rfl | hf
        · exact ⟨async, method, req, params, 0, rfl, rfl⟩
        · apply (rest.pending f hf).mono
          rintro i r ⟨j, rfl, asked⟩
          exact ⟨j + 1, by omega, asked⟩
      · have counted := rest.counted
        simp only [List.countP_cons, reports, List.length_cons, ↓reduceIte]
        omega
      · have sources := rest.sources
        simp only [List.length_cons, List.range'_succ]
        rw [← sources]
        rfl
    · next message runs =>
      have rest := ih (k + 1) fresh
      exact rest.pend ⟨call, .error message⟩ (dispatch_runs runs) rfl
    · next runs =>
      have rest := ih (k + 1) fresh
      exact rest.pend ⟨call, .panic⟩ (dispatch_runs runs) rfl

theorem sendError_calls {id : Id} {code : ErrorCode} {isSingle : Bool} {calls : List RpcCall} :
    sendError codec id code ≠ .calls isSingle calls := by
  unfold sendError
  split <;> nofun

/-- A body has at least one call, a single one has just one. -/
theorem service_calls {req : HttpRequest} {isSingle : Bool} {calls : List RpcCall}
    (h : service codec req = .calls isSingle calls) :
    calls ≠ [] ∧ (isSingle = true → calls.length = 1) := by
  unfold service processValidatedRequest at h
  split at h
  · split at h
    · split at h
      · cases h
      · cases h
      · cases h
      · split at h
        · cases h
          simp
        · split at h
          · cases h
          · exact absurd h sendError_calls
      · split at h
        · exact absurd h sendError_calls
        · cases h
          simp
        · split at h
          · cases h
          · exact absurd h sendError_calls
    · cases h
  · cases h

/-! ## The requests of a body -/

/-- The request a call decodes to, where its method is async and its resources are granted. -/
def requestOf (methods : Methods) (granted : Bool) (call : RpcCall) : Option Request :=
  if granted then
    match methods call.method with
    | some (.async callback) =>
      match callback call.params with
      | .value req => some req
      | _ => none
    | _ => none
  else none

/-- The calls' requests, in the order of the body. `k` is the first call's position. -/
def bodyRequests (methods : Methods) (granted : Nat → Bool) (calls : List RpcCall) (k : Nat) :
    List Request :=
  (calls.zipIdx k).filterMap fun p => requestOf methods (granted p.2) p.1

theorem dispatch_request (codec : Codec) {granted : Bool} {call : RpcCall} :
    requestOf methods granted call =
      match dispatch codec methods granted call with
      | .runs (.value req) => some req
      | _ => none := by
  unfold requestOf dispatch
  cases granted <;> cases methods call.method with
  | none => rfl
  | some kind =>
    cases kind with
    | async callback => cases read : callback call.params <;> simp [read]
    | sync | subscription => rfl

theorem bodyRequests_cons (granted : Nat → Bool) (call : RpcCall) (calls : List RpcCall) (k : Nat) :
    bodyRequests methods granted (call :: calls) k =
      (requestOf methods (granted k) call).toList ++ bodyRequests methods granted calls (k + 1) := by
  unfold bodyRequests
  rw [List.zipIdx_cons, List.filterMap_cons]
  cases requestOf methods (granted k) call <;> rfl

/-- Starting the calls sends just these. -/
theorem startCalls_requests (isSingle : Bool) (granted : Nat → Bool) (calls : List RpcCall)
    (k fresh : Nat) : (startCalls codec methods isSingle granted calls k fresh).requests =
      bodyRequests methods granted calls k := by
  induction calls generalizing k fresh with
  | nil => rfl
  | cons call calls ih =>
    rw [bodyRequests_cons, dispatch_request codec]
    unfold startCalls
    cases dispatch codec methods (granted k) call with
    | responds outcome => exact ih (k + 1) fresh
    | runs callback =>
      cases callback with
      | value req => exact congrArg (req :: ·) (ih (k + 1) (fresh + 1))
      | error message => exact ih (k + 1) fresh
      | panic => exact ih (k + 1) fresh

/-! ## One exchange -/

structure Exchange.Accounted (codec : Codec) (methods : Methods) (system : System env)
    (x : Exchange) : Prop where
  calls : (x.pending.map Future.call ++ x.sent.map Sent.call).Perm x.received.list
  pending : ∀ f ∈ x.pending, f.Of methods system.Requested
  sent : ∀ p ∈ x.sent, p.Answers codec methods system
  counted : x.onResult + x.pending.length =
    x.received.list.countP (reportsResult methods x.received.isSingle)
  ended : (∀ isSingle calls, x.received ≠ .calls isSingle calls) → x.phase = x.received.phase
  posted : ∀ isSingle calls, x.received = .calls isSingle calls →
    calls ≠ [] ∧ (isSingle = true → calls.length = 1)
  replied : ∀ isSingle calls, x.received = .calls isSingle calls →
    x.phase ≠ .expectFailed ∧ ∀ r, x.phase = .replied r → x.pending = [] ∧ x.reply codec = .replied r

/-- The body holds the response to every call and nothing else. -/
structure Exchange.Replied (codec : Codec) (methods : Methods) (system : System env)
    (x : Exchange) (r : HttpResponse) : Prop where
  calls : (x.sent.map Sent.call).Perm x.received.list
  answers : ∀ p ∈ x.sent, p.Answers codec methods system
  body : (∃ p, x.received.isSingle = true ∧ x.sent = [p] ∧ r = okResponse (.single p.response)) ∨
    (x.received.isSingle = false ∧ r = okResponse (.batch (x.sent.map Sent.response)))
  counted : x.onResult = x.received.list.countP (reportsResult methods x.received.isSingle)

/-- The calls of the system that the exchange has made. -/
def Exchange.sources (x : Exchange) : List Nat :=
  x.pending.filterMap Future.source ++ x.sent.filterMap Sent.source

variable {system system' : System env} {x : Exchange}

theorem Sent.Answers.mono {p : Sent} (h : p.Answers codec methods system)
    (requested : ∀ i req, system.Requested i req → system'.Requested i req)
    (answered : ∀ i a, system.answer i = some a → system'.answer i = some a) :
    p.Answers codec methods system' := by
  cases h with
  | now responds => exact .now responds
  | @later future outcome of ended =>
    refine .later (of.mono requested) ?_
    simp only [Endpoint.outcome] at ended ⊢
    split at ended
    · next call work =>
      obtain ⟨a, answer, rfl⟩ := Option.map_eq_some_iff.mp ended
      simp only [answered call a answer, Option.map_some]
    · exact ended
    · cases ended

theorem Exchange.Accounted.run {as : List (System.Action env)}
    (h : x.Accounted codec methods system) (run : Runs.run System.step system as = some system') :
    x.Accounted codec methods system' where
  calls := h.calls
  pending := fun f hf => (h.pending f hf).mono fun _ _ => System.run_requested run
  sent := fun p hp => (h.sent p hp).mono (fun _ _ => System.run_requested run)
    fun _ _ => System.run_answer run
  counted := h.counted
  ended := h.ended
  posted := h.posted
  replied := h.replied

theorem Exchange.ended_accounted {received : Received}
    (other : ∀ isSingle calls, received ≠ .calls isSingle calls) :
    (Exchange.ended received).Accounted codec methods system where
  calls := by
    cases received with
    | calls isSingle calls => exact absurd rfl (other isSingle calls)
    | respond | panics => exact .refl _
  pending := by simp [Exchange.ended]
  sent := by simp [Exchange.ended]
  counted := by
    cases received with
    | calls isSingle calls => exact absurd rfl (other isSingle calls)
    | respond | panics => rfl
  ended := fun _ => rfl
  posted := fun isSingle calls is => absurd is (other isSingle calls)
  replied := fun isSingle calls is => absurd is (other isSingle calls)

theorem Exchange.start_accounted {isSingle : Bool} {calls : List RpcCall} {fresh : Nat}
    {started : Started} (covers : started.Covers codec methods isSingle calls fresh)
    (asked : ∀ j req, started.requests[j]? = some req → system.Requested (fresh + j) req)
    (posted : calls ≠ [] ∧ (isSingle = true → calls.length = 1)) :
    (Exchange.start isSingle calls started).Accounted codec methods system where
  calls := covers.calls
  pending := by
    intro f hf
    apply (covers.pending f hf).mono
    rintro i req ⟨j, rfl, there⟩
    exact asked j req there
  sent := by
    intro p hp
    obtain ⟨granted, call, outcome, responds, rfl⟩ := covers.sent p hp
    exact .now responds
  counted := covers.counted
  ended := fun other => absurd rfl (other isSingle calls)
  posted := by
    rintro _ _ ⟨⟩
    exact posted
  replied := by
    intro _ _ _
    exact ⟨nofun, nofun⟩

/-- A running exchange has calls. -/
theorem Exchange.Accounted.running (h : x.Accounted codec methods system)
    (running : x.phase = .running) : ∃ isSingle calls, x.received = .calls isSingle calls := by
  cases received : x.received with
  | calls isSingle calls => exact ⟨isSingle, calls, rfl⟩
  | respond | panics =>
    have ended := h.ended (by simp [received])
    rw [running, received] at ended
    cases ended

theorem Exchange.Accounted.finish {i : Nat} {future : Future} {outcome : Payload}
    (h : x.Accounted codec methods system) (running : x.phase = .running)
    (get : x.pending[i]? = some future) (ended : Endpoint.outcome codec system future = some outcome) :
    Exchange.Accounted codec methods system { x with
      pending := x.pending.eraseIdx i
      sent := x.sent ++ [⟨future.call, future.source, ⟨future.call.id, outcome⟩⟩]
      onResult := x.onResult + 1 } where
  calls := by
    obtain ⟨bound, rfl⟩ := List.getElem?_eq_some_iff.mp get
    have moved := (List.getElem_cons_eraseIdx_perm bound).map Future.call
    simp only [List.map_append, List.map_cons, List.map_nil] at moved ⊢
    rw [← List.append_assoc]
    refine (List.perm_append_singleton _ _).trans ?_
    exact (moved.append_right _).trans h.calls
  pending := fun f hf => h.pending f (List.mem_of_mem_eraseIdx hf)
  sent := by
    intro p hp
    rcases List.mem_append.mp hp with hp | hp
    · exact h.sent p hp
    · cases List.mem_singleton.mp hp
      exact .later (h.pending future (List.mem_of_getElem? get)) ended
  counted := by
    obtain ⟨bound, -⟩ := List.getElem?_eq_some_iff.mp get
    have counted := h.counted
    simp only [List.length_eraseIdx_of_lt bound]
    omega
  ended := by
    obtain ⟨isSingle, calls, received⟩ := h.running running
    intro other
    exact absurd received (other isSingle calls)
  posted := h.posted
  replied := by
    intro _ _ _
    rw [running]
    exact ⟨nofun, nofun⟩

theorem Exchange.Accounted.abort (h : x.Accounted codec methods system)
    (running : x.phase = .running) :
    Exchange.Accounted codec methods system { x with phase := .aborted } := by
  obtain ⟨isSingle, calls, received⟩ := h.running running
  exact { h with
    ended := by simp [received]
    replied := by simp }

/-- The channel is not empty when it is closed. -/
theorem Exchange.Accounted.close (h : x.Accounted codec methods system)
    (running : x.phase = .running) (done : x.pending = []) :
    Exchange.Accounted codec methods system { x with phase := x.reply codec } := by
  obtain ⟨isSingle, calls, received⟩ := h.running running
  have sent (body : Body) : codec.reply body ≠ .expectFailed := by
    unfold Codec.reply
    split <;> nofun
  have ended : x.reply codec ≠ .expectFailed := by
    unfold Exchange.reply
    split
    · next empty =>
      have uncalled := h.calls
      simp only [done, empty, received, Received.list, List.map_nil, List.append_nil] at uncalled
      exact absurd uncalled.nil_eq.symm (h.posted _ _ received).1
    · exact sent _
    · exact sent _
  exact { h with
    ended := by simp [received]
    replied := fun _ _ _ => ⟨ended, fun r replied => ⟨done, replied⟩⟩ }

theorem Exchange.Accounted.complete (h : x.Accounted codec methods system) {isSingle : Bool}
    {calls : List RpcCall} {r : HttpResponse} (received : x.received = .calls isSingle calls)
    (phase : x.phase = .replied r) : x.Replied codec methods system r := by
  obtain ⟨done, replied⟩ := (h.replied _ _ received).2 r phase
  have all := h.calls
  have counted := h.counted
  simp only [done, List.map_nil, List.nil_append] at all
  simp only [done, List.length_nil, Nat.add_zero] at counted
  refine ⟨all, h.sent, ?_, counted⟩
  have whole {body : Body} (made : codec.reply body = .replied r) : r = okResponse body := by
    unfold Codec.reply at made
    split at made <;> cases made
    rfl
  unfold Exchange.reply at replied
  split at replied
  · cases replied
  · next first rest single sent =>
    cases whole replied
    have one := all.length_eq
    simp only [received, Received.isSingle] at single
    simp only [sent, List.map_cons, List.length_cons, List.length_map, received, Received.list,
      (h.posted _ _ received).2 single] at one
    have last : rest = [] := List.length_eq_zero_iff.mp (by omega)
    exact .inl ⟨first, by simp only [received, Received.isSingle, single], by rw [sent, last], rfl⟩
  · next batch =>
    cases whole replied
    exact .inr ⟨batch, rfl⟩

end HttpServer

open HttpServer

namespace Endpoint

open Base64Byte (Deserialized)

variable {env : Extern} {codec : Codec} {methods : Methods} {e e' : Endpoint env} {ev : Event env}
  {es : List (Event env)}

/-! ## The endpoint -/

/-- What an event is to the system, whatever the state: a body is the requests that its calls
decode to. -/
def Event.actions (codec : Codec) (methods : Methods) : Event env → List (System.Action env)
  | .post req granted =>
    match service codec req with
    | .calls _ calls => (bodyRequests methods granted calls 0).map .request
    | _ => []
  | .system a => [a]
  | .finish .. | .abort _ | .reply _ => []

def Event.received (codec : Codec) : Event env → Option Received
  | .post req _ => some (service codec req)
  | _ => none

/-- An exchange has gone from `x` to `x'`. -/
inductive Moves (codec : Codec) (system : System env) (x : Exchange) : Exchange → Prop where
  | finish {i future outcome} (get : x.pending[i]? = some future)
      (ended : Endpoint.outcome codec system future = some outcome) :
      Moves codec system x { x with
        pending := x.pending.eraseIdx i
        sent := x.sent ++ [⟨future.call, future.source, ⟨future.call.id, outcome⟩⟩]
        onResult := x.onResult + 1 }
  | abort : Moves codec system x { x with phase := .aborted }
  | reply (done : x.pending = []) : Moves codec system x { x with phase := x.reply codec }

theorem Moves.received {system : System env} {x x' : Exchange} (h : Moves codec system x x') :
    x'.received = x.received := by
  cases h <;> rfl

theorem Moves.accounted {system : System env} {x x' : Exchange} (h : Moves codec system x x')
    (running : x.phase = .running) (accounted : x.Accounted codec methods system) :
    x'.Accounted codec methods system := by
  cases h with
  | finish get ended => exact accounted.finish running get ended
  | abort => exact accounted.abort running
  | reply done => exact accounted.close running done

/-- A response comes from the future it was. -/
theorem Moves.sources {system : System env} {x x' : Exchange} (h : Moves codec system x x') :
    x'.sources.Perm x.sources := by
  cases h with
  | @finish i future outcome get ended =>
    obtain ⟨bound, rfl⟩ := List.getElem?_eq_some_iff.mp get
    have moved := (List.getElem_cons_eraseIdx_perm bound).filterMap Future.source
    simp only [Exchange.sources, List.filterMap_append]
    cases source : x.pending[i].source with
    | none =>
      rw [List.filterMap_cons_none source] at moved
      simpa [source] using moved.append_right _
    | some call =>
      rw [List.filterMap_cons_some source] at moved
      simp only [List.filterMap_cons, List.filterMap_nil, ← List.append_assoc]
      exact (List.perm_append_singleton _ _).trans (moved.append_right _)
  | abort | reply => exact .refl _

inductive Step (codec : Codec) (methods : Methods) (e : Endpoint env) :
    Event env → Endpoint env → Prop where
  | ended {req granted received} (is : service codec req = received)
      (other : ∀ isSingle calls, received ≠ .calls isSingle calls) :
      Step codec methods e (.post req granted)
        { e with exchanges := e.exchanges ++ [.ended received] }
  | start {req granted isSingle calls started} (received : service codec req = .calls isSingle calls)
      (start : started =
        startCalls codec methods isSingle granted calls 0 e.system.calls.length) :
      Step codec methods e (.post req granted)
        ⟨sendAll e.system started.requests, e.exchanges ++ [.start isSingle calls started]⟩
  | system {a s} (move : e.system.step a = some s) :
      Step codec methods e (.system a) { e with system := s }
  | exchange {ev n x x'} (quiet : ev.actions codec methods = [] ∧ ev.received codec = none)
      (get : e.exchanges[n]? = some x) (running : x.phase = .running)
      (moves : Moves codec e.system x x') : Step codec methods e ev (e.setExchange n x')

theorem step_cases (h : step codec methods e ev = some e') : Step codec methods e ev e' := by
  cases ev with
  | post req granted =>
    cases h
    cases received : service codec req with
    | calls isSingle calls => exact .start received rfl
    | respond | panics => exact .ended received nofun
  | system a =>
    obtain ⟨s, move, rfl⟩ := Option.map_eq_some_iff.mp h
    exact .system move
  | finish n i =>
    simp only [step, Option.bind_eq_bind, Option.bind_eq_some_iff] at h
    obtain ⟨x, get, future, inside, outcome, ended, h⟩ := h
    split at h
    · next running =>
      cases h
      exact .exchange ⟨rfl, rfl⟩ get running (.finish inside ended)
    · cases h
  | abort n =>
    simp only [step, Option.bind_eq_bind, Option.bind_eq_some_iff] at h
    obtain ⟨x, get, h⟩ := h
    split at h
    · next running =>
      cases h
      exact .exchange ⟨rfl, rfl⟩ get running .abort
    · cases h
  | reply n =>
    simp only [step, Option.bind_eq_bind, Option.bind_eq_some_iff] at h
    obtain ⟨x, get, h⟩ := h
    split at h
    · next ready =>
      cases h
      exact .exchange ⟨rfl, rfl⟩ get ready.1 (.reply ready.2)
    · cases h

theorem run_sendAll (system : System env) (requests : List Request) :
    Runs.run System.step system (requests.map .request) = some (sendAll system requests) := by
  induction requests generalizing system with
  | nil => rfl
  | cons req requests ih => exact ih (system.send none (some req))

theorem sendAll_calls (system : System env) (requests : List Request) :
    (sendAll system requests).calls = system.calls ++ requests.map (Call.of env none) := by
  induction requests generalizing system with
  | nil => simp [sendAll]
  | cons req requests ih =>
    have rest := ih (system.send none (some req))
    simp only [sendAll, List.foldl_cons] at rest ⊢
    rw [rest, System.send_calls]
    simp

theorem sendAll_requested {system : System env} {requests : List Request} {j : Nat} {req : Request}
    (h : requests[j]? = some req) :
    (sendAll system requests).Requested (system.calls.length + j) req := by
  refine ⟨Call.of env none req, ?_, rfl⟩
  rw [sendAll_calls, List.getElem?_append_right (by omega)]
  simp [h]

theorem step_refines (h : step codec methods e ev = some e') :
    Runs.run System.step e.system (ev.actions codec methods) = some e'.system := by
  cases step_cases h with
  | @ended req granted received is other =>
    cases received with
    | calls isSingle calls => exact absurd rfl (other isSingle calls)
    | respond | panics => simp only [Event.actions, is, Runs.run_nil]
  | start received start =>
    subst start
    simp only [Event.actions, received]
    rw [← startCalls_requests]
    exact run_sendAll _ _
  | system move => simp [Event.actions, move]
  | exchange quiet get running moves =>
    rw [quiet.1]
    rfl

/-- The exchanges account for all that was posted, and no two wait for one call. -/
structure Sound (codec : Codec) (methods : Methods) (e : Endpoint env) : Prop where
  accounted : ∀ x ∈ e.exchanges, x.Accounted codec methods e.system
  distinct : (e.exchanges.flatMap Exchange.sources).Nodup
  sent : ∀ i ∈ e.exchanges.flatMap Exchange.sources, i < e.system.calls.length

theorem flatMap_set_perm {l : List Exchange} {n : Nat} {x x' : Exchange} (get : l[n]? = some x)
    (same : x'.sources.Perm x.sources) :
    ((l.set n x').flatMap Exchange.sources).Perm (l.flatMap Exchange.sources) := by
  induction l generalizing n with
  | nil => cases get
  | cons y l ih =>
    cases n with
    | zero =>
      cases get
      simp only [List.set_cons_zero, List.flatMap_cons]
      exact same.append_right _
    | succ n =>
      simp only [List.set_cons_succ, List.flatMap_cons]
      exact (ih get).append_left _

theorem step_sound (sound : e.Sound codec methods) (h : step codec methods e ev = some e') :
    e'.Sound codec methods := by
  have refines := step_refines h
  have longer := System.run_calls refines
  have kept (x : Exchange) (hx : x ∈ e.exchanges) : x.Accounted codec methods e'.system :=
    (sound.accounted x hx).run refines
  cases step_cases h with
  | @ended req granted received is other =>
    refine ⟨?_, ?_, ?_⟩
    · intro x hx
      rcases List.mem_append.mp hx with hx | hx
      · exact kept x hx
      · cases List.mem_singleton.mp hx
        exact Exchange.ended_accounted other
    · simpa [Exchange.ended, Exchange.sources] using sound.distinct
    · simpa [Exchange.ended, Exchange.sources] using sound.sent
  | @start req granted isSingle calls started received start =>
    have covers : started.Covers codec methods isSingle calls e.system.calls.length := by
      rw [start]
      exact startCalls_covers isSingle granted calls 0 _
    have sources : (Exchange.start isSingle calls started).sources =
        List.range' e.system.calls.length started.requests.length := by
      have unsourced : started.sent.filterMap Sent.source = [] := by
        apply List.filterMap_eq_nil_iff.mpr
        intro p hp
        obtain ⟨granted, call, outcome, -, rfl⟩ := covers.sent p hp
        rfl
      simp only [Exchange.sources, Exchange.start, covers.sources, unsourced, List.append_nil]
    refine ⟨?_, ?_, ?_⟩
    · intro x hx
      rcases List.mem_append.mp hx with hx | hx
      · exact kept x hx
      · cases List.mem_singleton.mp hx
        exact Exchange.start_accounted covers (fun _ _ => sendAll_requested) (service_calls received)
    · simp only [List.flatMap_append, List.flatMap_cons, List.flatMap_nil, List.append_nil, sources]
      apply List.nodup_append.mpr
      refine ⟨sound.distinct, List.nodup_range', ?_⟩
      rintro i old j new rfl
      have bound := sound.sent i old
      have above := (List.mem_range'_1.mp new).1
      omega
    · intro i hi
      simp only [List.flatMap_append, List.flatMap_cons, List.flatMap_nil, List.append_nil, sources,
        List.mem_append, List.mem_range'_1] at hi
      rw [sendAll_calls, List.length_append, List.length_map]
      rcases hi with old | new
      · have bound := sound.sent i old
        omega
      · exact new.2
  | system move => exact ⟨kept, sound.distinct, fun i hi => (sound.sent i hi).trans_le longer⟩
  | @exchange ev n x x' quiet get running moves =>
    have same := flatMap_set_perm get moves.sources
    refine ⟨?_, same.nodup_iff.mpr sound.distinct, fun i hi => sound.sent i (same.mem_iff.mp hi)⟩
    intro y hy
    rcases List.mem_or_eq_of_mem_set hy with hy | rfl
    · exact sound.accounted y hy
    · exact moves.accounted running (sound.accounted x (List.mem_of_getElem? get))

theorem empty_sound (system : System env) : Sound codec methods ⟨system, []⟩ where
  accounted := by simp
  distinct := by simp
  sent := by simp

theorem reachable_sound {system : System env}
    (run : Runs.run (step codec methods) ⟨system, []⟩ es = some e) : e.Sound codec methods :=
  Runs.invariant run (empty_sound system) fun _ _ _ => step_sound

/-- There is one exchange for each request, in the order they came. -/
theorem step_received (h : step codec methods e ev = some e') :
    e'.exchanges.map Exchange.received =
      e.exchanges.map Exchange.received ++ (ev.received codec).toList := by
  cases step_cases h with
  | ended is => simp [Event.received, is, Exchange.ended]
  | start received => simp [Event.received, received, Exchange.start]
  | system move => simp [Event.received]
  | @exchange ev n x x' quiet get running moves =>
    obtain ⟨bound, rfl⟩ := List.getElem?_eq_some_iff.mp get
    simp only [quiet.2, setExchange, List.map_set, moves.received, Option.toList_none,
      List.append_nil]
    rw [← List.getElem_map Exchange.received (h := by simpa using bound), List.set_getElem_self]

theorem run_received {system : System env}
    (run : Runs.run (step codec methods) ⟨system, []⟩ es = some e) :
    e.exchanges.map Exchange.received = es.filterMap (Event.received codec) := by
  apply Runs.invariant_trace (I := fun es e =>
    e.exchanges.map Exchange.received = es.filterMap (Event.received codec)) run rfl
  intro pre ev u v _ _ before h
  rw [step_received h, before, List.filterMap_append]
  cases received : ev.received codec <;> simp [received]

/-- There is one exchange for each request that was posted. Where it is a response, it has
been sent, unless the log panics at it. Where it is calls, their body never fails to be made; once sent it holds one
response to each call, and no call of the system answers two of them. -/
theorem answered_once {system : System env}
    (run : Runs.run (step codec methods) ⟨system, []⟩ es = some e) :
    e.exchanges.map Exchange.received = es.filterMap (Event.received codec) ∧
    (e.exchanges.flatMap Exchange.sources).Nodup ∧
    ∀ x ∈ e.exchanges, (∀ r, x.received = .respond r → x.phase = .replied r) ∧
      (x.received = .panics → x.phase = .aborted) ∧
      ∀ isSingle calls, x.received = .calls isSingle calls → x.phase ≠ .expectFailed ∧
        ∀ r, x.phase = .replied r → x.Replied codec methods e.system r := by
  have sound := reachable_sound run
  refine ⟨run_received run, sound.distinct, ?_⟩
  intro x hx
  have accounted := sound.accounted x hx
  refine ⟨fun r received => ?_, fun received => ?_, fun isSingle calls received => ?_⟩
  · rw [accounted.ended (by simp [received]), received]
    rfl
  · rw [accounted.ended (by simp [received]), received]
    rfl
  · exact ⟨(accounted.replied _ _ received).1, fun r phase => accounted.complete received phase⟩

/-- A batch of a task's lookup and a method there is none of. -/
def lookupText : String :=
  "[\x7b\"jsonrpc\":\"2.0\",\"id\":1,\"method\":\"Proof.GetTask\",\"params\":[\"t\"]\x7d," ++
    "\x7b\"jsonrpc\":\"2.0\",\"id\":2,\"method\":\"Proof.Nope\"\x7d]"

def lookupCalls : List RpcCall :=
  [⟨.number 1, "Proof.GetTask", some (.arr [.str "t"])⟩, ⟨.number 2, "Proof.Nope", none⟩]

/-- `serde_json` and `jsonrpsee` on one body. -/
def bodyCodec (text : String) (calls : List RpcCall) : Codec where
  request _ := none
  notification _ := false
  batch body := if body = asBytes text then some calls else none
  notifications _ := false
  prepareError _ := (.null, .parseError)
  send := .answer
  text _ := ""
  debug := false

def postBody (text : String) : Event env :=
  .post ⟨"POST", some "application/json", .ok (asBytes text, false)⟩ fun _ => true

def lookupRun : List (Event Demo.env) :=
  [postBody lookupText, .system (.serve 0 ⟨1, none, none⟩), .finish 0 0, .reply 0]

/-- The unknown method is answered at once, the lookup when it ends. -/
def lookupBody : Body :=
  .batch [⟨.number 2, .error .methodNotFound⟩, ⟨.number 1, .answer (.error (.failed "not found t"))⟩]

theorem lookup_replied : ∃ e : Endpoint Demo.env,
    Runs.run (step (bodyCodec lookupText lookupCalls) (ProxyRpc.taskMethods ProxyRpc.noNames))
      ⟨System.idle (.empty (.db Table.empty)), []⟩ lookupRun = some e ∧
    e.exchanges.map Exchange.phase = [.replied (okResponse lookupBody)] := by
  have ran : ((Runs.run (step (bodyCodec lookupText lookupCalls) (ProxyRpc.taskMethods ProxyRpc.noNames))
      (⟨System.idle (.empty (.db Table.empty)), []⟩ : Endpoint Demo.env) lookupRun).map fun e =>
        e.exchanges.map Exchange.phase) = some [.replied (okResponse lookupBody)] := by
    decide +kernel
  exact Option.map_eq_some_iff.mp ran

theorem answered_once_demo : ∃ e : Endpoint Demo.env,
    e.exchanges.map Exchange.phase = [.replied (okResponse lookupBody)] ∧
    (e.exchanges.flatMap Exchange.sources).Nodup ∧ ∀ x ∈ e.exchanges, x.phase ≠ .expectFailed := by
  obtain ⟨e, run, replied⟩ := lookup_replied
  obtain ⟨-, distinct, exchanges⟩ := answered_once run
  refine ⟨e, replied, distinct, fun x there => ?_⟩
  cases received : x.received with
  | respond r => simp [(exchanges x there).1 r received]
  | panics => simp [(exchanges x there).2.1 received]
  | calls isSingle calls => exact ((exchanges x there).2.2 isSingle calls received).1

theorem run_system_of_events {system : System env}
    (run : Runs.run (step codec methods) ⟨system, []⟩ es = some e) :
    Runs.run System.step system (es.flatMap (Event.actions codec methods)) = some e.system := by
  apply Runs.invariant_trace (I := fun es e =>
    Runs.run System.step system (es.flatMap (Event.actions codec methods)) = some e.system) run rfl
  intro pre ev u v _ _ before h
  rw [List.flatMap_append, Runs.run_append, before]
  simpa using step_refines h

/-- Behind the HTTP server nothing happens but what the system can do: the requests that the
calls of the bodies decode to, one call each and in order, and its own actions. -/
theorem endpoint_refines {system : System env}
    (run : Runs.run (step codec methods) ⟨system, []⟩ es = some e) :
    Runs.run System.step system (es.flatMap (Event.actions codec methods)) = some e.system :=
  run_system_of_events run

/-- The system looks the task up and does nothing for the unknown method. -/
theorem endpoint_refines_demo : ∃ e : Endpoint Demo.env,
    e.exchanges.map Exchange.phase = [.replied (okResponse lookupBody)] ∧
    Runs.run System.step (System.idle (.empty (.db Table.empty)))
      [.request (.getTask "t"), .serve 0 ⟨1, none, none⟩] = some e.system := by
  obtain ⟨e, run, replied⟩ := lookup_replied
  have seen : lookupRun.flatMap (Event.actions (bodyCodec lookupText lookupCalls)
      (ProxyRpc.taskMethods ProxyRpc.noNames)) =
        ([.request (.getTask "t"), .serve 0 ⟨1, none, none⟩] : List (System.Action Demo.env)) := by
    rfl
  exact ⟨e, replied, seen ▸ endpoint_refines run⟩

end Endpoint

end GpuProxy
