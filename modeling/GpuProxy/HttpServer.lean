import GpuProxy.System
import GpuProxy.Base64Byte
import GpuProxy.Listing

/-!
# The HTTP server

The library's own server. One POST carries a call or a batch of calls. The calls of a
batch run together: each async callback puts its response into a channel when it ends,
and the body is what the channel holds when the last one has. Parsing is `serde_json`'s
and `jsonrpsee`'s; the calls themselves run in the system.
-/

namespace GpuProxy

namespace HttpServer

open Base64Byte (Deserialized)

/-- The id of a JSON-RPC request. -/
inductive Id where
  | null
  | number (n : UInt64)
  | str (s : String)
  deriving DecidableEq, Repr

inductive ErrorCode where
  | parseError
  | oversizedRequest
  | invalidRequest
  | methodNotFound
  | serverIsBusy
  | invalidParams
  | internalError
  | serverError (code : Int32)
  deriving DecidableEq, Repr

inductive Payload where
  | error (code : ErrorCode)
  | answer (a : Answer)
  deriving DecidableEq, Repr

structure Response where
  id : Id
  outcome : Payload
  deriving DecidableEq, Repr

/-- `jsonrpsee`'s `Request`. -/
structure RpcCall where
  id : Id
  method : String
  params : Option Json

/-- A sync callback answers at once. An async one reads its parameters, and then runs the
handler of a request, answers with an error or panics. -/
inductive MethodKind where
  | sync (callback : Option Json → Answer)
  | async (callback : Option Json → Deserialized Request)
  | subscription

abbrev Methods := String → Option MethodKind

/-! ## Responses -/

inductive Body where
  | text (s : String)
  /-- An error response whose id is null. -/
  | error (code : ErrorCode)
  | single (r : Response)
  | batch (rs : List Response)
  | empty
  deriving DecidableEq, Repr

structure HttpResponse where
  status : Nat
  contentType : String
  body : Body
  deriving DecidableEq, Repr

def JSON : String := "application/json; charset=utf-8"

def TEXT : String := "text/plain"

def internalError : HttpResponse := ⟨500, JSON, .error .internalError⟩

def tooLarge : HttpResponse := ⟨413, JSON, .error .oversizedRequest⟩

def malformed : HttpResponse := ⟨400, JSON, .error .parseError⟩

def okResponse (body : Body) : HttpResponse := ⟨200, JSON, body⟩

def methodNotAllowed : HttpResponse :=
  ⟨405, TEXT, .text "Used HTTP Method is not allowed. POST or OPTIONS is required\n"⟩

def unsupportedContentType : HttpResponse :=
  ⟨415, TEXT,
    .text "Supplied content type is not allowed. Content-Type: application/json is required\n"⟩

/-! ## Requests -/

/-- How `read_body` fails. -/
inductive TransportError where
  | tooLarge
  | malformed
  | inner
  deriving DecidableEq, Repr

structure HttpRequest where
  method : String
  /-- The `content-type` header, where it is visible ASCII. -/
  contentType : Option String
  /-- What `read_body` returns: the bytes, and whether they are a single call. -/
  body : Except TransportError (Bytes × Bool)

/-- How a body is parsed, what `MethodSink` sends for an answer (an error where the answer is
too long) and the texts that are sent. `debug` says whether the log takes debug messages. -/
structure Codec where
  request : Bytes → Option RpcCall
  notification : Bytes → Bool
  batch : Bytes → Option (List RpcCall)
  notifications : Bytes → Bool
  prepareError : Bytes → Id × ErrorCode
  send : Answer → Payload
  text : Body → String
  debug : Bool

/-- The message of `debug!` slices the first 1024 bytes of the text, which panics inside a
character. -/
def Codec.logs (codec : Codec) (body : Body) : Bool :=
  !codec.debug || (Cli.sliceTo (codec.text body) (min (codec.text body).utf8ByteSize 1024)).isSome

def eqIgnoreAsciiCase (s t : String) : Bool :=
  decide (s.toList.map Char.toLower = t.toList.map Char.toLower)

def isJson : Option String → Bool
  | some content => eqIgnoreAsciiCase content "application/json" ||
      eqIgnoreAsciiCase content "application/json; charset=utf-8" ||
      eqIgnoreAsciiCase content "application/json;charset=utf-8"
  | none => false

/-- What a request comes to: a response at once, a panic on the way to it, or calls to run. -/
inductive Received where
  | respond (r : HttpResponse)
  | panics
  | calls (isSingle : Bool) (calls : List RpcCall)

def Received.isSingle : Received → Bool
  | .respond _ | .panics => true
  | .calls isSingle _ => isSingle

def Received.list : Received → List RpcCall
  | .respond _ | .panics => []
  | .calls _ cs => cs

section
variable (codec : Codec)

/-- The error goes the way of every other response. -/
def sendError (id : Id) (code : ErrorCode) : Received :=
  if codec.logs (.single ⟨id, .error code⟩) then .respond (okResponse (.single ⟨id, .error code⟩))
  else .panics

def prepared (body : Bytes) : Received :=
  let e := codec.prepareError body
  sendError codec e.1 e.2

/-- `process_validated_request` up to where it runs the calls. -/
def processValidatedRequest : Except TransportError (Bytes × Bool) → Received
  | .error .tooLarge => .respond tooLarge
  | .error .malformed => .respond malformed
  | .error .inner => .respond internalError
  | .ok (body, true) =>
    match codec.request body with
    | some call => .calls true [call]
    | none =>
      if codec.notification body then .respond (okResponse .empty)
      else prepared codec body
  | .ok (body, false) =>
    match codec.batch body with
    | some [] => sendError codec .null .invalidRequest
    | some (call :: calls) => .calls false (call :: calls)
    | none =>
      if codec.notifications body then .respond (okResponse .empty)
      else prepared codec body

def service (req : HttpRequest) : Received :=
  if req.method = "POST" then
    if isJson req.contentType then processValidatedRequest codec req.body
    else .respond unsupportedContentType
  else .respond methodNotAllowed

end

/-! ## Running the calls -/

/-- What becomes of a call when its method is looked up and its resources are claimed. -/
inductive Dispatch where
  | responds (outcome : Payload)
  | runs (callback : Deserialized Request)

def dispatch (codec : Codec) (methods : Methods) (granted : Bool) (call : RpcCall) : Dispatch :=
  match methods call.method with
  | none => .responds (.error .methodNotFound)
  | some (.sync callback) =>
    if granted then .responds (codec.send (callback call.params))
    else .responds (.error .serverIsBusy)
  | some (.async callback) =>
    if granted then .runs (callback call.params) else .responds (.error .serverIsBusy)
  | some .subscription => .responds (.error .internalError)

/-- An async callback that has not ended, and the call of the system it waits for. -/
structure Future where
  call : RpcCall
  work : Deserialized Nat

/-- The call of the system whose answer the future waits for. -/
def Future.source (future : Future) : Option Nat :=
  match future.work with
  | .value call => some call
  | _ => none

/-- A response in the channel, with the call it is for. -/
structure Sent where
  call : RpcCall
  source : Option Nat
  response : Response

inductive Phase where
  | running
  | replied (r : HttpResponse)
  /-- A callback or the log has panicked, or the client has gone. -/
  | aborted
  /-- `rx.next().await.expect(..)` has found the channel empty. -/
  | expectFailed
  deriving DecidableEq, Repr

structure Exchange where
  received : Received
  pending : List Future
  sent : List Sent
  /-- How often `middleware.on_result` has been called. -/
  onResult : Nat
  phase : Phase

/-- The calls of a body, started in order: those answered at once, the futures of the
others, and the requests they make. -/
structure Started where
  pending : List Future
  sent : List Sent
  onResult : Nat
  requests : List Request

/-- A batch passes over `on_result` for a method there is none of. -/
def reportsResult (methods : Methods) (isSingle : Bool) (call : RpcCall) : Bool :=
  isSingle || (methods call.method).isSome

/-- `granted` says of each call whether its resources can be claimed; `k` is its position
and `fresh` the number of the next call of the system. -/
def startCalls (codec : Codec) (methods : Methods) (isSingle : Bool) (granted : Nat → Bool) :
    List RpcCall → Nat → Nat → Started
  | [], _, _ => ⟨[], [], 0, []⟩
  | call :: calls, k, fresh =>
    match dispatch codec methods (granted k) call with
    | .responds outcome =>
      let rest := startCalls codec methods isSingle granted calls (k + 1) fresh
      { rest with sent := ⟨call, none, ⟨call.id, outcome⟩⟩ :: rest.sent
                  onResult := rest.onResult + if reportsResult methods isSingle call then 1 else 0 }
    | .runs (.value req) =>
      let rest := startCalls codec methods isSingle granted calls (k + 1) (fresh + 1)
      { rest with pending := ⟨call, .value fresh⟩ :: rest.pending
                  requests := req :: rest.requests }
    | .runs (.error message) =>
      let rest := startCalls codec methods isSingle granted calls (k + 1) fresh
      { rest with pending := ⟨call, .error message⟩ :: rest.pending }
    | .runs .panic =>
      let rest := startCalls codec methods isSingle granted calls (k + 1) fresh
      { rest with pending := ⟨call, .panic⟩ :: rest.pending }

/-- How far the exchange has come without running a call. -/
def Received.phase : Received → Phase
  | .respond r => .replied r
  | .panics => .aborted
  | .calls .. => .running

def Exchange.ended (received : Received) : Exchange := ⟨received, [], [], 0, received.phase⟩

def Exchange.start (isSingle : Bool) (calls : List RpcCall) (started : Started) : Exchange :=
  ⟨.calls isSingle calls, started.pending, started.sent, started.onResult, .running⟩

theorem Codec.logs_of_quiet {codec : Codec} (quiet : codec.debug = false) (body : Body) :
    codec.logs body = true := by
  simp [logs, quiet]

def Codec.reply (codec : Codec) (body : Body) : Phase :=
  if codec.logs body then .replied (okResponse body) else .aborted

/-- The body, once the channel is closed. -/
def Exchange.reply (codec : Codec) (x : Exchange) : Phase :=
  match x.received.isSingle, x.sent with
  | true, [] => .expectFailed
  | true, first :: _ => codec.reply (.single first.response)
  | false, sent => codec.reply (.batch (sent.map Sent.response))

end HttpServer

open HttpServer

/-- The system behind its HTTP server. -/
structure Endpoint (env : Extern) where
  system : System env
  exchanges : List Exchange

namespace Endpoint

variable {env : Extern}

inductive Event (env : Extern) where
  /-- A request arrives; `granted` is what the resource limits allow. -/
  | post (req : HttpRequest) (granted : Nat → Bool)
  | system (a : System.Action env)
  /-- A future of an exchange ends and sends its response. -/
  | finish (exchange future : Nat)
  | abort (exchange : Nat)
  | reply (exchange : Nat)

/-- The outcome of a future, once there is one. -/
def outcome (codec : Codec) (system : System env) (future : Future) : Option Payload :=
  match future.work with
  | .value call => (system.answer call).map codec.send
  | .error message => some (codec.send (.error (.invalidParams message)))
  | .panic => none

section
variable (codec : Codec) (methods : Methods)

/-- Requests reach the system one by one. -/
def sendAll (system : System env) (requests : List Request) : System env :=
  requests.foldl (fun s req => s.send none (some req)) system

def receive (e : Endpoint env) (granted : Nat → Bool) : Received → Endpoint env
  | .calls isSingle calls =>
    let started := startCalls codec methods isSingle granted calls 0 e.system.calls.length
    ⟨sendAll e.system started.requests, e.exchanges ++ [.start isSingle calls started]⟩
  | received => { e with exchanges := e.exchanges ++ [.ended received] }

def setExchange (e : Endpoint env) (n : Nat) (x : Exchange) : Endpoint env :=
  { e with exchanges := e.exchanges.set n x }

def step (e : Endpoint env) : Event env → Option (Endpoint env)
  | .post req granted => some (e.receive codec methods granted (service codec req))
  | .system a => (e.system.step a).map fun s => { e with system := s }
  | .finish n i => do
    let x ← e.exchanges[n]?
    let future ← x.pending[i]?
    let outcome ← outcome codec e.system future
    if x.phase = .running then
      some (e.setExchange n { x with
        pending := x.pending.eraseIdx i
        sent := x.sent ++ [⟨future.call, future.source, ⟨future.call.id, outcome⟩⟩]
        onResult := x.onResult + 1 })
    else none
  | .abort n => do
    let x ← e.exchanges[n]?
    if x.phase = .running then some (e.setExchange n { x with phase := .aborted }) else none
  | .reply n => do
    let x ← e.exchanges[n]?
    if x.phase = .running ∧ x.pending = [] then some (e.setExchange n { x with phase := x.reply codec })
    else none

end

end Endpoint

end GpuProxy
