import GpuProxy.Replies

/-!
# A call over the wire

What a client writes, what the server reads, the handler that runs and what the client
reads back, put together: the reply to a call is the answer to the request it stands for,
and has the type of its method.
-/

namespace GpuProxy

open HttpServer

namespace ProxyRpc

/-- The method's result, where the reply has one of its type. -/
def Call.result : (c : Call) → Reply → Option c.Res
  | .submitC2Task .., .taskId id => some id
  | .addTask .., .taskId id => some id
  | .getTask _, .task t => some t
  | .fetchTodo .., .task t => some t
  | .fetchUncompleted _, .tasks ts => some ts
  | .getResourceInfo _, .resource data => (Base64.decode data).map Base64Byte.mk
  | .recordProof .., .done => some ()
  | .recordError .., .done => some ()
  | .updateStatusById .., .done => some ()
  | _, _ => none

/-- An answer that is no error is a result of the method. -/
def Call.Typed (c : Call) (a : Answer) : Prop :=
  ∀ reply, a = .ok reply → ∃ result, c.result reply = some result

theorem sat_return {α : Type} {c : Call} {g : Handler α} {reply : α → Reply}
    (typed : ∀ a, ∃ result, c.result (reply a) = some result) :
    (do return reply (← g) : Handler Reply).run.Sat (fun _ => True) (fun _ _ => True) c.Typed := by
  apply Rpc.sat_bind (Q := fun _ => True) (Program.sat_true g.run)
  · rintro a - _ ⟨⟩
    exact typed a
  · intro e _ _
    nofun

/-- The handler of a call's request answers with the type of the call's method. -/
theorem Call.handler_typed {env : Extern} {c : Call} {req : Request} {h : Handler Reply}
    (sent : c.request = some req) (handler : req.handler env = some h) :
    h.run.Sat (fun _ => True) (fun _ _ => True) c.Typed := by
  cases c with
  | listTask | reportWorkerInfo | listWorker | deleteWorkerByWorkerId | deleteWorkerById
  | getWorkerByWorkerId | getWorkerById | getOfflineWorker => cases sent
  | submitC2Task | addTask | recordProof =>
    cases sent
    obtain ⟨bytes, -, rfl⟩ := Option.map_eq_some_iff.mp handler
    exact sat_return fun _ => ⟨_, rfl⟩
  | getResourceInfo resourceId =>
    cases sent
    cases handler
    exact sat_return fun bytes => ⟨⟨bytes⟩, by simp [result, Base64.decode_encode]⟩
  | getTask | fetchTodo | fetchUncompleted | recordError | updateStatusById =>
    cases sent
    cases handler
    exact sat_return fun _ => ⟨_, rfl⟩

theorem Call.request_name {c : Call} {req : Request} (sent : c.request = some req) :
    c.name ∈ taskNames := by
  cases c with
  | listTask | reportWorkerInfo | listWorker | deleteWorkerByWorkerId | deleteWorkerById
  | getWorkerByWorkerId | getWorkerById | getOfflineWorker => cases sent
  | _ => simp [name, taskNames]

theorem Call.request_valid {c : Call} {req : Request} (sent : c.request = some req) : c.Valid := by
  cases c with
  | getOfflineWorker => cases sent
  | _ => trivial

end ProxyRpc

namespace System

variable {env : Extern} {s t : System env} {as : List (Action env)}

/-- Every call that asks for what `c` asks for goes on to answers of its type. -/
def Types (s : System env) (c : ProxyRpc.Call) : Prop :=
  ∀ (i : Nat) d, s.calls[i]? = some d → c.request = some d.request →
    ∀ p, d.program = some p → p.Sat (fun _ => True) (fun _ _ => True) c.Typed

theorem step_types {a : Action env} {c : ProxyRpc.Call} (typed : s.Types c) (h : s.step a = some t) :
    t.Types c := by
  intro i d get sent p program
  obtain ⟨old, -⟩ | ⟨-, cause, req, -, rfl⟩ | ⟨ch, before, op, k, -, old, atOp, rfl⟩ := step_calls h get
  · exact typed i d old sent p program
  · obtain ⟨g, handler, rfl⟩ := Option.map_eq_some_iff.mp program
    exact ProxyRpc.Call.handler_typed sent handler
  · cases program
    exact (typed i before old sent _ atOp).2 _ trivial

theorem answer_typed {server : Server} {c : ProxyRpc.Call} {req : Request} {i : Nat} {a : Answer}
    (sent : c.request = some req) (run : Runs.run step (idle server) as = some s)
    (requested : s.Requested i req) (answered : s.answer i = some a) : c.Typed a := by
  have typed : s.Types c := by
    apply Runs.invariant run
    · simp [Types, idle]
    · exact fun _ _ _ => step_types
  obtain ⟨d, get, rfl⟩ := requested
  simp only [answer, get, Option.bind_some, Call.answer, Option.bind_eq_some_iff] at answered
  obtain ⟨p, program, ended⟩ := answered
  have contract := typed i d get sent p program
  cases p with
  | ret b =>
    cases ended
    exact contract
  | call op k => cases ended

end System

namespace Endpoint

open Base64Byte (Deserialized)
open ProxyRpc (taskMethods taskRequest)

variable {env : Extern} {codec : Codec} {e : Endpoint env} {es : List (Event env)}
  {byName : String → List (String × Json) → Deserialized ProxyRpc.Call}
  {c : ProxyRpc.Call} {req : Request} {id : Id}

/-- `serde_json` reads the text of a client's call as what it stands for. -/
def Reads (codec : Codec) : Prop :=
  ∀ id c call, (Json.read (Json.render (ProxyRpc.request id c))).map ProxyRpc.rpcCallFromJson =
      some (.value call) →
    codec.request (asBytes (String.ofList (Json.render (ProxyRpc.request id c)))) = some call

/-- The text of a response is its JSON, written out. -/
def Writes (codec : Codec) : Prop :=
  ∀ id (c : ProxyRpc.Call) reply result, c.result reply = some result →
    codec.text (.single ⟨id, .answer (.ok reply)⟩) =
      String.ofList (Json.render (ProxyRpc.response id c result))

/-- What the client sends. -/
def httpRequest (id : Id) (c : ProxyRpc.Call) : HttpRequest :=
  ⟨"POST", some "application/json",
    .ok (asBytes (String.ofList (Json.render (ProxyRpc.request id c))), true)⟩

def Event.posted : Event env → Option HttpRequest
  | .post req _ => some req
  | _ => none

theorem received_posted (es : List (Event env)) :
    es.filterMap (Event.received codec) = (es.filterMap Event.posted).map (service codec) := by
  rw [List.map_filterMap]
  congr 1
  funext ev
  cases ev <;> rfl

theorem service_httpRequest (reads : Reads codec) (id : Id) (c : ProxyRpc.Call) :
    service codec (httpRequest id c) = .calls true [⟨id, c.name, c.params.map .arr⟩] := by
  have read : codec.request (asBytes (String.ofList (Json.render (ProxyRpc.request id c)))) =
      some ⟨id, c.name, c.params.map .arr⟩ := by
    apply reads
    rw [Json.read_render (ProxyRpc.request_plain id c), Option.map_some,
      ProxyRpc.rpcCallFromJson_request]
  have json : isJson (some "application/json") = true := by simp [isJson, eqIgnoreAsciiCase]
  simp only [service, httpRequest, json, processValidatedRequest, read, ↓reduceIte]

/-- The method of a call about tasks reads its parameters as the request. -/
theorem taskMethods_call (byName : String → List (String × Json) → Deserialized ProxyRpc.Call)
    (id : Id) (sent : c.request = some req) :
    ∃ callback, taskMethods byName c.name = some (.async callback) ∧
      callback (c.params.map .arr) = .value req := by
  have decoded := ProxyRpc.decode_call byName id c (ProxyRpc.Call.request_valid sent)
  simp only [ProxyRpc.decode] at decoded
  obtain ⟨sequence, found, read⟩ := Option.map_eq_some_iff.mp decoded
  refine ⟨taskRequest byName c.name sequence, ?_, ?_⟩
  · simp [taskMethods, ProxyRpc.Call.request_name sent, found]
  · simp [taskRequest, read, sent]

/-- The response to a call about tasks that was read from its text. -/
theorem answers_call {p : Sent} {system : System env} (sent : c.request = some req)
    (same : p.call = ⟨id, c.name, c.params.map .arr⟩)
    (answers : p.Answers codec (taskMethods byName) system) :
    p.source = none ∧ p.response = ⟨id, .error .serverIsBusy⟩ ∨
    ∃ k a, p.source = some k ∧ system.Requested k req ∧ system.answer k = some a ∧
      p.response = ⟨id, codec.send a⟩ := by
  obtain ⟨callback, method, value⟩ := taskMethods_call byName id sent
  cases answers with
  | @now granted call outcome responds =>
    subst same
    left
    simp only [dispatch, method, value] at responds
    split at responds
    · cases responds
    · cases responds
      exact ⟨rfl, rfl⟩
  | @later future reached of ended =>
    obtain ⟨callback', method', work⟩ := of
    simp only at same
    rw [same] at method' work
    rw [method] at method'
    cases method'
    simp only [value] at work
    simp only [Endpoint.outcome] at ended
    right
    cases kind : future.work with
    | value k =>
      simp only [kind] at work ended
      obtain ⟨_, ⟨⟩, asked⟩ := work
      obtain ⟨a, answer, rfl⟩ := Option.map_eq_some_iff.mp ended
      exact ⟨k, a, by simp [Future.source, kind], asked, answer, by rw [same]⟩
    | error message => simp [kind] at work
    | panic => simp [kind] at work

/-- A call about tasks gets the answer to its own request, unless the server refuses to start it.
A result has the type of the method, and where it is not too long to send, the client reads
just that result from the body it gets. -/
theorem remote_call {server : Server} {n : Nat} {x : Exchange} {r : HttpResponse}
    (reads : Reads codec) (writes : Writes codec) (sent : c.request = some req)
    (run : Runs.run (step codec (taskMethods byName)) ⟨System.idle server, []⟩ es = some e)
    (posted : (es.filterMap Event.posted)[n]? = some (httpRequest id c))
    (get : e.exchanges[n]? = some x) (replied : x.phase = .replied r) :
    r = okResponse (.single ⟨id, .error .serverIsBusy⟩) ∨
    ∃ k a, x.sources = [k] ∧ e.system.Requested k req ∧ e.system.answer k = some a ∧
      r = okResponse (.single ⟨id, codec.send a⟩) ∧
      ∀ reply, a = .ok reply → ∃ result, c.result reply = some result ∧
        (Serde.Valid result → codec.send a = .answer a →
          (Json.read (codec.text r.body).toList).map (ProxyRpc.readResponse c) =
            some (.value (id, result))) := by
  have received : x.received = .calls true [⟨id, c.name, c.params.map .arr⟩] := by
    have all := congrArg (·[n]?) (run_received run)
    simp only [received_posted, List.getElem?_map, get, posted, Option.map_some, Option.some.injEq,
      service_httpRequest reads] at all
    exact all
  have accounted := (reachable_sound run).accounted x (List.mem_of_getElem? get)
  have complete := accounted.complete received replied
  have done : x.pending = [] := ((accounted.replied _ _ received).2 r replied).1
  have single : x.received.isSingle = true := by rw [received]; rfl
  obtain ⟨p, -, one, rfl⟩ | ⟨batch, -⟩ := complete.body
  · have same : p.call = ⟨id, c.name, c.params.map .arr⟩ := by
      have calls := complete.calls
      simp only [one, received, Received.list, List.map_cons, List.map_nil] at calls
      exact List.singleton_inj.mp (List.perm_singleton.mp calls)
    have answers := complete.answers p (by simp [one])
    obtain ⟨-, busy⟩ | ⟨k, a, source, requested, answered, response⟩ := answers_call sent same answers
    · exact .inl (by rw [busy])
    · refine .inr ⟨k, a, ?_, requested, answered, by rw [response], ?_⟩
      · simp [Exchange.sources, done, one, source]
      · intro reply ok
        obtain ⟨as, served⟩ : ∃ as, Runs.run System.step (System.idle server) as = some e.system :=
          ⟨_, Runs.run_collect Endpoint.system (fun _ _ _ => step_refines) run⟩
        obtain ⟨result, typed⟩ := System.answer_typed sent served requested answered reply ok
        refine ⟨result, typed, fun valid whole => ?_⟩
        have body : codec.text (.single ⟨id, codec.send a⟩) =
            String.ofList (Json.render (ProxyRpc.response id c result)) := by
          rw [whole, ok]
          exact writes id c reply result typed
        simp only [okResponse, response]
        rw [body, String.toList_ofList, Json.read_render (ProxyRpc.response_plain id c result), Option.map_some,
          ProxyRpc.readResponse_response id c result valid]
  · rw [single] at batch
    cases batch

/-- What `serde_json` makes of a reply. -/
def replyToJson : Reply → Json
  | .taskId id => Serde.toJson id
  | .task t => Serde.toJson t
  | .tasks ts => Serde.toJson ts
  | .resource data => .str (((Base64.decode data).map Base64.encode).getD data)
  | .done => Serde.toJson ()

/-- `serde_json` on the texts of calls and results. -/
def wireCodec : Codec where
  request body := do
    let text ← String.fromUTF8? ⟨body.toArray⟩
    match (Json.read text.toList).map ProxyRpc.rpcCallFromJson with
    | some (.value call) => some call
    | _ => none
  notification _ := false
  batch _ := none
  notifications _ := false
  prepareError _ := (.null, .parseError)
  send := .answer
  text
    | .single ⟨id, .answer (.ok reply)⟩ => String.ofList (Json.render
        (.obj [("jsonrpc", .str "2.0"), ("result", replyToJson reply), ("id", Serde.toJson id)]))
    | _ => ""
  debug := false

theorem wireCodec_reads : Reads wireCodec := by
  intro id c call read
  have back (text : List Char) : String.fromUTF8? ⟨(asBytes (String.ofList text)).toArray⟩ =
      some (String.ofList text) := by
    have whole : (⟨(asBytes (String.ofList text)).toArray⟩ : ByteArray) =
        (String.ofList text).toByteArray := rfl
    rw [whole, String.fromUTF8?, dif_pos (String.ofList text).isValidUTF8]
    rfl
  simp only [wireCodec, back, Option.bind_eq_bind, Option.bind_some, String.toList_ofList, read]

theorem toJson_result {c : ProxyRpc.Call} {reply : Reply} {result : c.Res}
    (typed : c.result reply = some result) : Serde.toJson result = replyToJson reply := by
  cases c with
  | getResourceInfo resourceId =>
    cases reply with
    | resource data =>
      obtain ⟨bytes, decoded, rfl⟩ := Option.map_eq_some_iff.mp typed
      simp [replyToJson, decoded, Serde.toJson, Base64Byte.serialize]
    | _ => cases typed
  | _ => cases reply <;> cases typed <;> rfl

theorem wireCodec_writes : Writes wireCodec := by
  intro id c reply result typed
  simp only [wireCodec, ProxyRpc.response, toJson_result typed]

def uncompleted : ProxyRpc.Call := .fetchUncompleted "w1"

def uncompletedRun : List (Event Demo.env) :=
  [.post (httpRequest (.number 7) uncompleted) fun _ => true, .system (.serve 0 ⟨1, none, none⟩),
    .finish 0 0, .reply 0]

/-- The client reads the empty list from the body. -/
theorem remote_call_demo : ∃ (e : Endpoint Demo.env) (x : Exchange),
    x.phase = .replied (okResponse (.single ⟨.number 7, .answer (.ok (.tasks []))⟩)) ∧
    (∃ k a, x.sources = [k] ∧ e.system.Requested k (.fetchUncompleted "w1") ∧
      e.system.answer k = some a ∧ Payload.answer (.ok (.tasks [])) = wireCodec.send a) ∧
    (Json.read (wireCodec.text (.single ⟨.number 7, .answer (.ok (.tasks []))⟩)).toList).map
      (ProxyRpc.readResponse uncompleted) = some (.value (.number 7, [])) := by
  let endpoint : Endpoint Demo.env := ⟨System.idle (.empty (.db Table.empty)), []⟩
  have ran : ((Runs.run (step wireCodec (taskMethods ProxyRpc.noNames)) endpoint uncompletedRun).bind
      fun e => e.exchanges[0]?.map Exchange.phase) =
        some (.replied (okResponse (.single ⟨.number 7, .answer (.ok (.tasks []))⟩))) := by
    simp only [uncompletedRun, Runs.run, step, service_httpRequest wireCodec_reads]
    decide +kernel
  obtain ⟨e, run, there⟩ := Option.bind_eq_some_iff.mp ran
  obtain ⟨x, get, replied⟩ := Option.map_eq_some_iff.mp there
  obtain busy | ⟨k, a, source, requested, answered, reply, reads⟩ :=
    remote_call (c := uncompleted) wireCodec_reads wireCodec_writes rfl run rfl get replied
  · cases busy
  · have same : wireCodec.send a = .answer (.ok (.tasks [])) := by
      simpa [okResponse] using reply.symm
    have answer : a = .ok (.tasks []) := by
      cases same
      rfl
    subst answer
    obtain ⟨result, typed, read⟩ := reads _ rfl
    cases typed
    refine ⟨e, x, replied, ⟨k, _, source, requested, answered, same.symm⟩, read ?_ rfl⟩
    intro t there
    cases there

end Endpoint

end GpuProxy
