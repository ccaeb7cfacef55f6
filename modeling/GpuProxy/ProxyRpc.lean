import GpuProxy.Serde
import GpuProxy.HttpServer

/-!
# The API on the wire

The trait `ProxyRpc` gives both halves of the API: a client that writes a call as a method
name and its arguments in order, and a server that looks the method up and reads them back.
`calls_survive` says that the halves fit, `decode_panics_iff` which parameters bring the
server down instead of an error.
-/

namespace GpuProxy

open Base64Byte (Deserialized)
open Serde (toJson fromJson member invalidType Valid)
open LawfulSerde (fromJson_toJson plain)

/-! ## Rows -/

/-- The columns of a row as `camelCase` fields. -/
def Task.fields (t : Task) : List (String × Json) :=
  [("id", toJson t.id), ("miner", toJson t.miner), ("resourceId", toJson t.resourceId),
    ("proof", toJson t.proof), ("workerId", toJson t.workerId), ("taskType", toJson t.taskType),
    ("errorMsg", toJson t.errorMsg), ("comment", toJson t.comment), ("state", toJson t.state),
    ("createAt", toJson t.createAt), ("startAt", toJson t.startAt),
    ("completeAt", toJson t.completeAt)]

instance : Serde Task where
  toJson t := .obj t.fields
  fromJson
    | .obj fields => do
      let id ← member "id" fields
      let miner ← member "miner" fields
      let resourceId ← member "resourceId" fields
      let proof ← member "proof" fields
      let workerId ← member "workerId" fields
      let taskType ← member "taskType" fields
      let errorMsg ← member "errorMsg" fields
      let comment ← member "comment" fields
      let state ← member "state" fields
      let createAt ← member "createAt" fields
      let startAt ← member "startAt" fields
      let completeAt ← member "completeAt" fields
      return ⟨id, miner, resourceId, proof, workerId, taskType, errorMsg, comment, state, createAt,
        startAt, completeAt⟩
    | .arr [id, miner, resourceId, proof, workerId, taskType, errorMsg, comment, state, createAt,
        startAt, completeAt] => do
      return ⟨← fromJson id, ← fromJson miner, ← fromJson resourceId, ← fromJson proof,
        ← fromJson workerId, ← fromJson taskType, ← fromJson errorMsg, ← fromJson comment,
        ← fromJson state, ← fromJson createAt, ← fromJson startAt, ← fromJson completeAt⟩
    | _ => invalidType
  Valid t := Valid t.createAt ∧ Valid t.startAt ∧ Valid t.completeAt

def WorkerState.fields (w : WorkerState) : List (String × Json) :=
  [("id", toJson w.id), ("workerId", toJson w.workerId), ("ips", toJson w.ips),
    ("supportTypes", toJson w.supportTypes), ("updateAt", toJson w.updateAt),
    ("createAt", toJson w.createAt)]

instance : Serde WorkerState where
  toJson w := .obj w.fields
  fromJson
    | .obj fields => do
      let id ← member "id" fields
      let workerId ← member "workerId" fields
      let ips ← member "ips" fields
      let supportTypes ← member "supportTypes" fields
      let updateAt ← member "updateAt" fields
      let createAt ← member "createAt" fields
      return ⟨id, workerId, ips, supportTypes, updateAt, createAt⟩
    | .arr [id, workerId, ips, supportTypes, updateAt, createAt] => do
      return ⟨← fromJson id, ← fromJson workerId, ← fromJson ips, ← fromJson supportTypes,
        ← fromJson updateAt, ← fromJson createAt⟩
    | _ => invalidType
  Valid w := Valid w.updateAt ∧ Valid w.createAt

theorem Task.names_nodup (t : Task) : (t.fields.map Prod.fst).Nodup := by
  simp only [fields, List.map_cons, List.map_nil]
  decide

theorem WorkerState.names_nodup (w : WorkerState) : (w.fields.map Prod.fst).Nodup := by
  simp only [fields, List.map_cons, List.map_nil]
  decide

/-- A member of a row is read as the column it was written from. -/
theorem Task.member_fields {α : Type} [Serde α] [LawfulSerde α] {t : Task} {name : String} {a : α}
    (there : (name, toJson a) ∈ t.fields) (valid : Valid a) : member name t.fields = .value a :=
  Serde.member_of_mem t.names_nodup there valid

theorem WorkerState.member_fields {α : Type} [Serde α] [LawfulSerde α] {w : WorkerState}
    {name : String} {a : α} (there : (name, toJson a) ∈ w.fields) (valid : Valid a) :
    member name w.fields = .value a :=
  Serde.member_of_mem w.names_nodup there valid

instance : LawfulSerde Task where
  fromJson_toJson t valid := by
    obtain ⟨createAt, startAt, completeAt⟩ := valid
    change fromJson (.obj t.fields) = .value t
    simp only [fromJson]
    rw [Task.member_fields (a := t.id) (by simp [Task.fields]) trivial,
      Task.member_fields (a := t.miner) (by simp [Task.fields]) trivial,
      Task.member_fields (a := t.resourceId) (by simp [Task.fields]) trivial,
      Task.member_fields (a := t.proof) (by simp [Task.fields]) (fun _ _ => trivial),
      Task.member_fields (a := t.workerId) (by simp [Task.fields]) trivial,
      Task.member_fields (a := t.taskType) (by simp [Task.fields]) trivial,
      Task.member_fields (a := t.errorMsg) (by simp [Task.fields]) trivial,
      Task.member_fields (a := t.comment) (by simp [Task.fields]) trivial,
      Task.member_fields (a := t.state) (by simp [Task.fields]) trivial,
      Task.member_fields (a := t.createAt) (by simp [Task.fields]) createAt,
      Task.member_fields (a := t.startAt) (by simp [Task.fields]) startAt,
      Task.member_fields (a := t.completeAt) (by simp [Task.fields]) completeAt]
    rfl
  plain t := by
    apply Json.Plain.obj
    simp only [Task.fields, List.forall_mem_cons]
    exact ⟨plain _, plain _, plain _, plain _, plain _, plain _, plain _, plain _, plain _, plain _,
      plain _, plain _, nofun⟩

instance : LawfulSerde WorkerState where
  fromJson_toJson w valid := by
    obtain ⟨updateAt, createAt⟩ := valid
    change fromJson (.obj w.fields) = .value w
    simp only [fromJson]
    rw [WorkerState.member_fields (a := w.id) (by simp [WorkerState.fields]) trivial,
      WorkerState.member_fields (a := w.workerId) (by simp [WorkerState.fields]) trivial,
      WorkerState.member_fields (a := w.ips) (by simp [WorkerState.fields]) trivial,
      WorkerState.member_fields (a := w.supportTypes) (by simp [WorkerState.fields]) trivial,
      WorkerState.member_fields (a := w.updateAt) (by simp [WorkerState.fields]) updateAt,
      WorkerState.member_fields (a := w.createAt) (by simp [WorkerState.fields]) createAt]
    rfl
  plain w := by
    apply Json.Plain.obj
    simp only [WorkerState.fields, List.forall_mem_cons]
    exact ⟨plain _, plain _, plain _, plain _, plain _, plain _, nofun⟩

/-- A byte string of the API. -/
structure Base64Byte where
  data : Bytes
  deriving DecidableEq, Repr

instance : Serde Base64Byte where
  toJson b := Base64Byte.serialize b.data
  fromJson j := do return ⟨← Base64Byte.deserialize j⟩
  Valid _ := True

instance : LawfulSerde Base64Byte where
  fromJson_toJson b _ := by
    simp only [fromJson, toJson, Base64Byte.deserialize_serialize]
    rfl
  plain _ := .str _

/-! ## Calls -/

namespace ProxyRpc

open HttpServer (Id RpcCall MethodKind Methods)

/-- A method of the trait with its arguments. -/
inductive Call where
  | submitC2Task (phase1Output : Base64Byte) (miner comment : String) (proverId : ProverId)
      (sectorId : UInt64)
  | addTask (miner comment : String) (taskType : TaskType) (param : Base64Byte)
  | getTask (id : String)
  | fetchTodo (workerId : String) (types : Option (List TaskType))
  | fetchUncompleted (workerId : String)
  | recordProof (workerId tid : String) (proof : Base64Byte)
  | recordError (workerId tid errMsg : String)
  | listTask (workerId : Option String) (state : Option (List TaskState))
  | updateStatusById (tids : List String) (status : TaskState)
  | reportWorkerInfo (workerId ips supportTypes : String)
  | getResourceInfo (resourceId : String)
  | listWorker
  | deleteWorkerByWorkerId (workerId : String)
  | deleteWorkerById (id : String)
  | getWorkerByWorkerId (workerId : String)
  | getWorkerById (id : String)
  | getOfflineWorker (dur : Int)
  deriving DecidableEq, Repr

/-- The type of the method's result. -/
abbrev Call.Res : Call → Type
  | .submitC2Task .. | .addTask .. => String
  | .getTask _ | .fetchTodo .. => Task
  | .fetchUncompleted _ | .listTask .. => List Task
  | .recordProof .. | .recordError .. | .updateStatusById .. | .reportWorkerInfo ..
  | .deleteWorkerByWorkerId _ | .deleteWorkerById _ => Unit
  | .getResourceInfo _ => Base64Byte
  | .listWorker | .getOfflineWorker _ => List WorkerState
  | .getWorkerByWorkerId _ | .getWorkerById _ => WorkerState

instance : (c : Call) → Serde c.Res
  | .submitC2Task .. | .addTask .. => inferInstanceAs (Serde String)
  | .getTask _ | .fetchTodo .. => inferInstanceAs (Serde Task)
  | .fetchUncompleted _ | .listTask .. => inferInstanceAs (Serde (List Task))
  | .recordProof .. | .recordError .. | .updateStatusById .. | .reportWorkerInfo ..
  | .deleteWorkerByWorkerId _ | .deleteWorkerById _ => inferInstanceAs (Serde Unit)
  | .getResourceInfo _ => inferInstanceAs (Serde Base64Byte)
  | .listWorker | .getOfflineWorker _ => inferInstanceAs (Serde (List WorkerState))
  | .getWorkerByWorkerId _ | .getWorkerById _ => inferInstanceAs (Serde WorkerState)

instance : (c : Call) → LawfulSerde c.Res
  | .submitC2Task .. | .addTask .. => inferInstanceAs (LawfulSerde String)
  | .getTask _ | .fetchTodo .. => inferInstanceAs (LawfulSerde Task)
  | .fetchUncompleted _ | .listTask .. => inferInstanceAs (LawfulSerde (List Task))
  | .recordProof .. | .recordError .. | .updateStatusById .. | .reportWorkerInfo ..
  | .deleteWorkerByWorkerId _ | .deleteWorkerById _ => inferInstanceAs (LawfulSerde Unit)
  | .getResourceInfo _ => inferInstanceAs (LawfulSerde Base64Byte)
  | .listWorker | .getOfflineWorker _ => inferInstanceAs (LawfulSerde (List WorkerState))
  | .getWorkerByWorkerId _ | .getWorkerById _ => inferInstanceAs (LawfulSerde WorkerState)

/-! ## The client -/

def Call.name : Call → String
  | .submitC2Task .. => "Proof.SubmitC2Task"
  | .addTask .. => "Proof.AddTask"
  | .getTask _ => "Proof.GetTask"
  | .fetchTodo .. => "Proof.FetchTodo"
  | .fetchUncompleted _ => "Proof.FetchUncomplete"
  | .recordProof .. => "Proof.RecordProof"
  | .recordError .. => "Proof.RecordError"
  | .listTask .. => "Proof.ListTask"
  | .updateStatusById .. => "Proof.UpdateStatusById"
  | .reportWorkerInfo .. => "Proof.ReportWorkerInfo"
  | .getResourceInfo _ => "Proof.GetResourceInfo"
  | .listWorker => "Proof.ListWorker"
  | .deleteWorkerByWorkerId _ => "Proof.DeleteWorkerByWorkerId"
  | .deleteWorkerById _ => "Proof.DeleteWorkerById"
  | .getWorkerByWorkerId _ => "Proof.GetWorkerByWorkerId"
  | .getWorkerById _ => "Proof.GetWorkerById"
  | .getOfflineWorker _ => "Proof.GetOfflineWorker"

/-- The arguments in order. A method without any is sent no parameters. -/
def Call.params : Call → Option (List Json)
  | .submitC2Task phase1Output miner comment proverId sectorId =>
    some [toJson phase1Output, toJson miner, toJson comment, toJson proverId, toJson sectorId]
  | .addTask miner comment taskType param =>
    some [toJson miner, toJson comment, toJson taskType, toJson param]
  | .getTask id => some [toJson id]
  | .fetchTodo workerId types => some [toJson workerId, toJson types]
  | .fetchUncompleted workerId => some [toJson workerId]
  | .recordProof workerId tid proof => some [toJson workerId, toJson tid, toJson proof]
  | .recordError workerId tid errMsg => some [toJson workerId, toJson tid, toJson errMsg]
  | .listTask workerId state => some [toJson workerId, toJson state]
  | .updateStatusById tids status => some [toJson tids, toJson status]
  | .reportWorkerInfo workerId ips supportTypes =>
    some [toJson workerId, toJson ips, toJson supportTypes]
  | .getResourceInfo resourceId => some [toJson resourceId]
  | .listWorker => none
  | .deleteWorkerByWorkerId workerId => some [toJson workerId]
  | .deleteWorkerById id => some [toJson id]
  | .getWorkerByWorkerId workerId => some [toJson workerId]
  | .getWorkerById id => some [toJson id]
  | .getOfflineWorker dur => some [toJson dur]

/-- The arguments are ones the trait's types have. -/
def Call.Valid : Call → Prop
  | .getOfflineWorker dur => Serde.Valid dur
  | _ => True

/-! ## The server -/

/-- `ParamsSequence`: what is left of the parameters. Any after the last are not looked at. -/
abbrev Sequence := StateT (List Json) Deserialized

def next {α : Type} [Serde α] : Sequence α
  | [] => .error "No more params"
  | j :: rest => do return (← fromJson j, rest)

def optionalNext {α : Type} [Serde α] : Sequence (Option α)
  | [] => .value (none, [])
  | j :: rest => do return (← fromJson j, rest)

def methods : List (String × Sequence Call) :=
  [("Proof.SubmitC2Task", do
      let phase1Output ← next
      let miner ← next
      let comment ← next
      let proverId ← next
      let sectorId ← next
      return .submitC2Task phase1Output miner comment proverId sectorId),
    ("Proof.AddTask", do
      let miner ← next
      let comment ← next
      let taskType ← next
      let param ← next
      return .addTask miner comment taskType param),
    ("Proof.GetTask", do return .getTask (← next)),
    ("Proof.FetchTodo", do
      let workerId ← next
      let types ← optionalNext
      return .fetchTodo workerId types),
    ("Proof.FetchUncomplete", do return .fetchUncompleted (← next)),
    ("Proof.RecordProof", do
      let workerId ← next
      let tid ← next
      let proof ← next
      return .recordProof workerId tid proof),
    ("Proof.RecordError", do
      let workerId ← next
      let tid ← next
      let errMsg ← next
      return .recordError workerId tid errMsg),
    ("Proof.ListTask", do
      let workerId ← optionalNext
      let state ← optionalNext
      return .listTask workerId state),
    ("Proof.UpdateStatusById", do
      let tids ← next
      let status ← next
      return .updateStatusById tids status),
    ("Proof.ReportWorkerInfo", do
      let workerId ← next
      let ips ← next
      let supportTypes ← next
      return .reportWorkerInfo workerId ips supportTypes),
    ("Proof.GetResourceInfo", do return .getResourceInfo (← next)),
    ("Proof.ListWorker", return .listWorker),
    ("Proof.DeleteWorkerByWorkerId", do return .deleteWorkerByWorkerId (← next)),
    ("Proof.DeleteWorkerById", do return .deleteWorkerById (← next)),
    ("Proof.GetWorkerByWorkerId", do return .getWorkerByWorkerId (← next)),
    ("Proof.GetWorkerById", do return .getWorkerById (← next)),
    ("Proof.GetOfflineWorker", do return .getOfflineWorker (← next))]

section
variable (byName : String → List (String × Json) → Deserialized Call)

/-- `byName` reads parameters that come as an object. The one method without parameters does
not look at what comes. -/
def readParams (name : String) (sequence : Sequence Call) (params : Option Json) :
    Deserialized Call :=
  if name = "Proof.ListWorker" then do return (← sequence []).1
  else
    match params with
    | none => do return (← sequence []).1
    | some (.arr items) => do return (← sequence items).1
    | some (.obj fields) => byName name fields
    | some _ => invalidType

/-- The call of a request, or `none` where there is no such method. -/
def decode (call : RpcCall) : Option (Deserialized Call) :=
  (methods.lookup call.method).map fun sequence => readParams byName call.method sequence call.params

end

/-! ## Envelopes -/

instance : Serde Id where
  toJson
    | .null => .null
    | .number n => toJson n
    | .str s => .str s
  fromJson
    | .null => .value .null
    | .str s => .value (.str s)
    | j => do return .number (← fromJson j)
  Valid _ := True

instance : LawfulSerde Id where
  fromJson_toJson
    | .null, _ => rfl
    | .number n, _ => by
      have back := fromJson_toJson n trivial
      simp only [toJson, u64ToJson] at back ⊢
      simp only [fromJson] at back ⊢
      rw [back]
      rfl
    | .str s, _ => rfl
  plain
    | .null => .null
    | .number _ => .num _
    | .str s => .str s

def request (id : Id) (c : Call) : Json :=
  .obj ([("jsonrpc", .str "2.0"), ("id", toJson id), ("method", toJson c.name)] ++
    c.params.toList.map fun items => ("params", .arr items))

def twoPointZero : Json → Deserialized Unit
  | .str "2.0" => .value ()
  | _ => .error "invalid value"

def version (fields : List (String × Json)) : Deserialized Unit := do
  twoPointZero (← .ofExcept (field "jsonrpc" fields))

def requestFields : List String := ["jsonrpc", "id", "method", "params"]

/-- `serde` reads a request from its members, and from a list of their values as well. It
denies members of other names, and the same one twice. -/
def rpcCallFromJson : Json → Deserialized RpcCall
  | .obj fields =>
    if fields.all fun f => requestFields.contains f.1 then do
      version fields
      let id ← member "id" fields
      let method ← member "method" fields
      match fields.filter fun f => decide (f.1 = "params") with
      | [] | [(_, .null)] => return ⟨id, method, none⟩
      | [(_, params)] => return ⟨id, method, some params⟩
      | _ => .error "duplicate field params"
    else .error "unknown field"
  | .arr [jsonrpc, id, method, params] => do
    twoPointZero jsonrpc
    return ⟨← fromJson id, ← fromJson method,
      match params with
      | .null => none
      | _ => some params⟩
  | _ => invalidType

def response (id : Id) (c : Call) (result : c.Res) : Json :=
  .obj [("jsonrpc", .str "2.0"), ("result", toJson result), ("id", toJson id)]

/-- The client's `Response` passes over members of other names. -/
def readResponse (c : Call) : Json → Deserialized (Id × c.Res)
  | .obj fields => do
    version fields
    let result ← member "result" fields
    let id ← member "id" fields
    return (id, result)
  | _ => invalidType

/-! ## The halves fit -/

section
variable {α : Type} [Serde α]

theorem next_toJson [LawfulSerde α] {a : α} (valid : Valid a) (rest : List Json) :
    next (toJson a :: rest) = .value (a, rest) := by
  simp [next, fromJson_toJson a valid]

theorem optionalNext_toJson [LawfulSerde α] [NonNull α] {o : Option α} (valid : Valid o)
    (rest : List Json) : optionalNext (toJson o :: rest) = .value (o, rest) := by
  simp [optionalNext, fromJson_toJson o valid]

theorem sequence_bind {α β : Type} (m : Sequence α) (f : α → Sequence β) (items : List Json) :
    (m >>= f) items = (m items >>= fun p => f p.1 p.2) := rfl

theorem sequence_map {α β : Type} (f : α → β) (m : Sequence α) (items : List Json) :
    (f <$> m) items = (m items >>= fun p => .value (f p.1, p.2)) := rfl

end

theorem request_plain (id : Id) (c : Call) : (request id c).Plain := by
  have params (items : List Json) (sent : c.params = some items) : ∀ item ∈ items, item.Plain := by
    cases c with
    | listWorker => cases sent
    | _ =>
      cases sent
      simp only [List.forall_mem_cons]
      simp [plain]
  apply Json.Plain.obj
  rw [List.forall_mem_append]
  constructor
  · simp only [List.forall_mem_cons]
    exact ⟨.str _, plain id, plain c.name, nofun⟩
  · intro f hf
    obtain ⟨items, sent, rfl⟩ := List.mem_map.mp hf
    exact .arr (params items (by simpa using sent))

theorem version_of {fields : List (String × Json)} (names : (fields.map Prod.fst).Nodup)
    (there : ("jsonrpc", .str "2.0") ∈ fields) : version fields = .value () := by
  simp [version, Serde.field_of_mem names there, twoPointZero]

theorem rpcCallFromJson_request (id : Id) (c : Call) :
    rpcCallFromJson (request id c) = .value ⟨id, c.name, c.params.map .arr⟩ := by
  cases sent : c.params with
  | none =>
    have names : (([("jsonrpc", .str "2.0"), ("id", toJson id), ("method", toJson c.name)] :
        List (String × Json)).map Prod.fst).Nodup := by
      simp only [List.map_cons, List.map_nil]
      decide
    have known : [("jsonrpc", Json.str "2.0"), ("id", toJson id), ("method", toJson c.name)].all
        (fun f => requestFields.contains f.1) = true := by
      simp [requestFields]
    simp only [request, sent, Option.toList_none, List.map_nil, List.append_nil, rpcCallFromJson,
      known, ↓reduceIte]
    rw [version_of names (by simp), Serde.member_of_mem (a := id) names (by simp) trivial,
      Serde.member_of_mem (a := c.name) names (by simp) trivial]
    rfl
  | some items =>
    have names : (([("jsonrpc", .str "2.0"), ("id", toJson id), ("method", toJson c.name),
        ("params", .arr items)] : List (String × Json)).map Prod.fst).Nodup := by
      simp only [List.map_cons, List.map_nil]
      decide
    have known : [("jsonrpc", Json.str "2.0"), ("id", toJson id), ("method", toJson c.name),
        ("params", .arr items)].all (fun f => requestFields.contains f.1) = true := by
      simp [requestFields]
    simp only [request, sent, Option.toList_some, List.map_cons, List.map_nil, List.cons_append,
      List.nil_append, rpcCallFromJson, known, ↓reduceIte]
    rw [version_of names (by simp), Serde.member_of_mem (a := id) names (by simp) trivial,
      Serde.member_of_mem (a := c.name) names (by simp) trivial]
    rfl

theorem decode_call (byName : String → List (String × Json) → Deserialized Call) (id : Id) (c : Call)
    (valid : c.Valid) : decode byName ⟨id, c.name, c.params.map .arr⟩ = some (.value c) := by
  cases c with
  | listWorker => rfl
  | getOfflineWorker dur =>
    have back : fromJson (toJson dur) = .value dur := fromJson_toJson dur valid
    simp [decode, Call.name, Call.params, methods, List.lookup_cons, readParams, sequence_map, next, back]
  | submitC2Task | addTask | getTask | fetchUncompleted | recordProof | recordError | updateStatusById
  | reportWorkerInfo | getResourceInfo | deleteWorkerByWorkerId | deleteWorkerById
  | getWorkerByWorkerId | getWorkerById =>
    simp [decode, Call.name, Call.params, methods, List.lookup_cons, readParams, sequence_bind,
      sequence_map, next_toJson, Serde.Valid]
  | fetchTodo | listTask =>
    simp [decode, Call.name, Call.params, methods, List.lookup_cons, readParams, sequence_bind,
      sequence_map, next_toJson, optionalNext_toJson, Serde.Valid]

theorem response_plain (id : Id) (c : Call) (result : c.Res) : (response id c result).Plain := by
  apply Json.Plain.obj
  simp only [List.forall_mem_cons]
  exact ⟨.str _, plain result, plain id, nofun⟩

theorem readResponse_response (id : Id) (c : Call) (result : c.Res) (valid : Valid result) :
    readResponse c (response id c result) = .value (id, result) := by
  have names : (([("jsonrpc", .str "2.0"), ("result", toJson result), ("id", toJson id)] :
      List (String × Json)).map Prod.fst).Nodup := by
    simp only [List.map_cons, List.map_nil]
    decide
  simp only [readResponse, response]
  rw [version_of names (by simp), Serde.member_of_mem (a := result) names (by simp) valid,
    Serde.member_of_mem (a := id) names (by simp) trivial]
  rfl

/-- Whatever a client calls, the server reads from its text just that call; whatever the server
returns, the client reads from its text just that result. -/
theorem calls_survive (byName : String → List (String × Json) → Deserialized Call) (id : Id)
    (c : Call) (valid : c.Valid) :
    (∃ call, (Json.read (Json.render (request id c))).map rpcCallFromJson = some (.value call) ∧
      call.id = id ∧ decode byName call = some (.value c)) ∧
    ∀ result : c.Res, Valid result →
      (Json.read (Json.render (response id c result))).map (readResponse c) =
        some (.value (id, result)) := by
  constructor
  · refine ⟨⟨id, c.name, c.params.map .arr⟩, ?_, rfl, decode_call byName id c valid⟩
    rw [Json.read_render (request_plain id c), Option.map_some, rpcCallFromJson_request]
  · intro result valid
    rw [Json.read_render (response_plain id c result), Option.map_some,
      readResponse_response id c result valid]

/-- No parameters come as an object. -/
def noNames (_ : String) (_ : List (String × Json)) : Deserialized Call := invalidType

theorem calls_survive_demo :
    (∃ call, (Json.read (Json.render (request (.number 1) (.getOfflineWorker 300)))).map
        rpcCallFromJson = some (.value call) ∧ call.id = .number 1 ∧
      decode noNames call = some (.value (.getOfflineWorker 300))) ∧
    (Json.read (Json.render (response (.number 1) (.getOfflineWorker 300)
        [⟨"1", "w1", "10.0.0.1", "0", 5, 4⟩]))).map (readResponse (.getOfflineWorker 300)) =
      some (.value (.number 1, [⟨"1", "w1", "10.0.0.1", "0", 5, 4⟩])) := by
  obtain ⟨asked, answered⟩ :=
    calls_survive noNames (.number 1) (.getOfflineWorker 300) ⟨by decide, by decide⟩
  refine ⟨asked, answered _ ?_⟩
  intro w there
  cases List.mem_singleton.mp there
  exact ⟨⟨by decide, by decide⟩, ⟨by decide, by decide⟩⟩

/-! ## Parameters that panic -/

/-- Its `Deserialize` never panics. -/
class NoPanic (α : Type) [Serde α] : Prop where
  ne_panic : ∀ j, (fromJson j : Deserialized α) ≠ .panic

instance : NoPanic String where
  ne_panic j := by cases j <;> nofun

instance : NoPanic UInt64 where
  ne_panic _ := Deserialized.ofExcept_ne_panic _

instance : NoPanic ProverId where
  ne_panic _ := Deserialized.ofExcept_ne_panic _

instance : NoPanic Int where
  ne_panic j := by
    cases j with
    | num n =>
      simp only [fromJson]
      split <;> nofun
    | _ => nofun

theorem reprFromJson_ne_panic {α : Type} (all : List α) (toI32 : α → Int32) (j : Json) :
    Serde.reprFromJson all toI32 j ≠ .panic := by
  unfold Serde.reprFromJson
  split
  · split <;> nofun
  · nofun

instance : NoPanic TaskState where
  ne_panic := reprFromJson_ne_panic _ _

instance : NoPanic TaskType where
  ne_panic := reprFromJson_ne_panic _ _

instance {α : Type} [Serde α] [NoPanic α] : NoPanic (List α) where
  ne_panic j := by
    cases j with
    | arr items =>
      simp only [fromJson]
      induction items with
      | nil => nofun
      | cons item items ih => simp [Deserialized.bind_panic, NoPanic.ne_panic, ih]
    | _ => nofun

instance {α : Type} [Serde α] [NoPanic α] : NoPanic (Option α) where
  ne_panic j := by
    cases j with
    | null => nofun
    | _ => simp [fromJson, Deserialized.bind_panic, NoPanic.ne_panic]

/-- The sequence reads whatever it is given without a panic. -/
def Calm {α : Type} (m : Sequence α) : Prop := ∀ items, m items ≠ .panic

theorem calm_next {α : Type} [Serde α] [NoPanic α] : Calm (next : Sequence α) := by
  intro items
  cases items with
  | nil => nofun
  | cons j rest => simp [next, Deserialized.bind_panic, NoPanic.ne_panic]

theorem calm_optionalNext {α : Type} [Serde α] [NoPanic α] :
    Calm (optionalNext : Sequence (Option α)) := by
  intro items
  cases items with
  | nil => nofun
  | cons j rest => simp [optionalNext, Deserialized.bind_panic, NoPanic.ne_panic]

theorem Calm.bind {α β : Type} {m : Sequence α} {f : α → Sequence β} (first : Calm m)
    (rest : ∀ a, Calm (f a)) : Calm (m >>= f) := by
  intro items panics
  rw [sequence_bind, Deserialized.bind_panic] at panics
  obtain panics | ⟨p, -, panics⟩ := panics
  · exact first items panics
  · exact rest p.1 p.2 panics

theorem Calm.map {α β : Type} {m : Sequence α} (f : α → β) (calm : Calm m) : Calm (f <$> m) := by
  intro items panics
  rw [sequence_map, Deserialized.bind_panic] at panics
  obtain panics | ⟨p, -, panics⟩ := panics
  · exact calm items panics
  · cases panics

theorem calm_pure {α : Type} (a : α) : Calm (pure a : Sequence α) := by
  intro items
  nofun

theorem Calm.elim {α : Type} {m : Sequence α} {items : List Json} (calm : Calm m)
    (panics : m items = .panic) : False := calm items panics

theorem next_bind_panic {α β : Type} [Serde α] {f : α → Sequence β} {items : List Json} :
    (next >>= f) items = .panic ↔ ∃ j rest, items = j :: rest ∧
      (fromJson j = (.panic : Deserialized α) ∨ ∃ a, fromJson j = .value a ∧ f a rest = .panic) := by
  rw [sequence_bind, Deserialized.bind_panic]
  cases items with
  | nil => simp [next]
  | cons j rest =>
    simp only [next, Deserialized.bind_panic]
    cases read : (fromJson j : Deserialized α) <;> simp [read]

theorem string_fromJson {j : Json} {s : String} (h : fromJson j = .value s) : j = toJson s := by
  cases j with
  | str t =>
    cases h
    rfl
  | _ => cases h

theorem taskType_fromJson {j : Json} {t : TaskType} (h : fromJson j = .value t) : j = toJson t := by
  cases j with
  | num n =>
    simp only [fromJson, Serde.reprFromJson] at h
    split at h
    · next found =>
      cases h
      have same := List.find?_some found
      simp only [decide_eq_true_eq] at same
      simp only [toJson, same]
    · cases h
  | _ => cases h

theorem base64Byte_panic {j : Json} :
    fromJson j = (.panic : Deserialized Base64Byte) ↔ ∃ text, j = .str text ∧ Base64.decode text = none := by
  cases j with
  | str text =>
    cases decoded : Base64.decode text with
    | none => simp [fromJson, Base64Byte.deserialize_none decoded, decoded]
    | some bytes => simp [fromJson, Base64Byte.deserialize_some decoded, decoded]
  | _ => simp [fromJson, Base64Byte.deserialize]

/-- The parameters hold a byte string whose text does not decode, after parameters that do. -/
inductive Panics : String → List Json → Prop where
  | submitC2Task {text : String} {rest : List Json} (malformed : Base64.decode text = none) :
      Panics "Proof.SubmitC2Task" (.str text :: rest)
  | addTask {miner comment text : String} {taskType : TaskType} {rest : List Json}
      (malformed : Base64.decode text = none) :
      Panics "Proof.AddTask" (toJson miner :: toJson comment :: toJson taskType :: .str text :: rest)
  | recordProof {workerId tid text : String} {rest : List Json}
      (malformed : Base64.decode text = none) :
      Panics "Proof.RecordProof" (toJson workerId :: toJson tid :: .str text :: rest)

theorem Panics.name_ne {name : String} {items : List Json} (panics : Panics name items) :
    name ≠ "Proof.ListWorker" := by
  cases panics <;> decide

theorem methods_panic {name : String} {sequence : Sequence Call} (there : (name, sequence) ∈ methods)
    {items : List Json} (panics : sequence items = .panic) : Panics name items := by
  simp only [methods, List.mem_cons, List.not_mem_nil, or_false, Prod.mk.injEq] at there
  rcases there with ⟨rfl, rfl⟩ | ⟨rfl, rfl⟩ | ⟨rfl, rfl⟩ | ⟨rfl, rfl⟩ | ⟨rfl, rfl⟩ | ⟨rfl, rfl⟩ |
    ⟨rfl, rfl⟩ | ⟨rfl, rfl⟩ | ⟨rfl, rfl⟩ | ⟨rfl, rfl⟩ | ⟨rfl, rfl⟩ | ⟨rfl, rfl⟩ | ⟨rfl, rfl⟩ |
    ⟨rfl, rfl⟩ | ⟨rfl, rfl⟩ | ⟨rfl, rfl⟩ | ⟨rfl, rfl⟩
  case inl =>
    obtain ⟨j, rest, rfl, bad | ⟨a, -, later⟩⟩ := next_bind_panic.mp panics
    · obtain ⟨text, rfl, malformed⟩ := base64Byte_panic.mp bad
      exact .submitC2Task malformed
    · refine absurd later (Calm.bind calm_next (fun _ => ?_) rest)
      exact .bind calm_next fun _ => .bind calm_next fun _ => .bind calm_next fun _ => calm_pure _
  case inr.inl =>
    obtain ⟨j, rest, rfl, bad | ⟨miner, read, later⟩⟩ := next_bind_panic.mp panics
    · exact absurd bad (NoPanic.ne_panic j)
    rw [string_fromJson read]
    obtain ⟨j, rest, rfl, bad | ⟨comment, read, later⟩⟩ := next_bind_panic.mp later
    · exact absurd bad (NoPanic.ne_panic j)
    rw [string_fromJson read]
    obtain ⟨j, rest, rfl, bad | ⟨taskType, read, later⟩⟩ := next_bind_panic.mp later
    · exact absurd bad (NoPanic.ne_panic j)
    rw [taskType_fromJson read]
    obtain ⟨j, rest, rfl, bad | ⟨param, -, later⟩⟩ := next_bind_panic.mp later
    · obtain ⟨text, rfl, malformed⟩ := base64Byte_panic.mp bad
      exact .addTask malformed
    · cases later
  case inr.inr.inr.inr.inr.inl =>
    obtain ⟨j, rest, rfl, bad | ⟨workerId, read, later⟩⟩ := next_bind_panic.mp panics
    · exact absurd bad (NoPanic.ne_panic j)
    rw [string_fromJson read]
    obtain ⟨j, rest, rfl, bad | ⟨tid, read, later⟩⟩ := next_bind_panic.mp later
    · exact absurd bad (NoPanic.ne_panic j)
    rw [string_fromJson read]
    obtain ⟨j, rest, rfl, bad | ⟨proof, -, later⟩⟩ := next_bind_panic.mp later
    · obtain ⟨text, rfl, malformed⟩ := base64Byte_panic.mp bad
      exact .recordProof malformed
    · cases later
  -- the other methods have no byte strings
  all_goals
    refine (Calm.elim ?_ panics).elim
    repeat first
      | exact calm_pure _
      | refine Calm.bind calm_next fun _ => ?_
      | refine Calm.bind calm_optionalNext fun _ => ?_

theorem panics_methods {name : String} {items : List Json} (panics : Panics name items) :
    ∃ sequence, methods.lookup name = some sequence ∧ sequence items = .panic := by
  cases panics with
  | submitC2Task malformed =>
    refine ⟨_, rfl, next_bind_panic.mpr ⟨_, _, rfl, .inl (base64Byte_panic.mpr ⟨_, rfl, malformed⟩)⟩⟩
  | addTask malformed =>
    refine ⟨_, rfl, ?_⟩
    refine next_bind_panic.mpr ⟨_, _, rfl, .inr ⟨_, fromJson_toJson _ trivial, ?_⟩⟩
    refine next_bind_panic.mpr ⟨_, _, rfl, .inr ⟨_, fromJson_toJson _ trivial, ?_⟩⟩
    refine next_bind_panic.mpr ⟨_, _, rfl, .inr ⟨_, fromJson_toJson _ trivial, ?_⟩⟩
    exact next_bind_panic.mpr ⟨_, _, rfl, .inl (base64Byte_panic.mpr ⟨_, rfl, malformed⟩)⟩
  | recordProof malformed =>
    refine ⟨_, rfl, ?_⟩
    refine next_bind_panic.mpr ⟨_, _, rfl, .inr ⟨_, fromJson_toJson _ trivial, ?_⟩⟩
    refine next_bind_panic.mpr ⟨_, _, rfl, .inr ⟨_, fromJson_toJson _ trivial, ?_⟩⟩
    exact next_bind_panic.mpr ⟨_, _, rfl, .inl (base64Byte_panic.mpr ⟨_, rfl, malformed⟩)⟩

/-- Parameters by position panic exactly where a byte string does not decode that is reached. -/
theorem decode_panics_iff (byName : String → List (String × Json) → Deserialized Call) (id : Id)
    (name : String) (items : List Json) :
    decode byName ⟨id, name, some (.arr items)⟩ = some .panic ↔ Panics name items := by
  by_cases bare : name = "Proof.ListWorker"
  · subst bare
    constructor
    · intro panics
      have read : decode byName ⟨id, "Proof.ListWorker", some (.arr items)⟩ =
          some (.value .listWorker) := rfl
      rw [read] at panics
      cases panics
    · intro panics
      exact absurd rfl panics.name_ne
  simp only [decode, Option.map_eq_some_iff, readParams, if_neg bare]
  constructor
  · rintro ⟨sequence, found, panics⟩
    obtain ⟨before, after, split, -⟩ := List.lookup_eq_some_iff.mp found
    have there : (name, sequence) ∈ methods := by
      rw [split]
      simp
    rw [Deserialized.bind_panic] at panics
    obtain panics | ⟨p, -, panics⟩ := panics
    · exact methods_panic there panics
    · cases panics
  · intro panics
    obtain ⟨sequence, found, panics⟩ := panics_methods panics
    exact ⟨sequence, found, by rw [panics]; rfl⟩

/-! ## Calls as requests -/

/-- The request the call is, where it is about tasks and their resources. -/
def Call.request : Call → Option Request
  | .submitC2Task phase1Output miner comment proverId sectorId =>
    some (.submitC2Task (Base64.encode phase1Output.data) miner comment proverId sectorId)
  | .addTask miner comment taskType param =>
    some (.addTask miner comment taskType (Base64.encode param.data))
  | .getTask id => some (.getTask id)
  | .fetchTodo workerId types => some (.fetchTodo workerId types)
  | .fetchUncompleted workerId => some (.fetchUncompleted workerId)
  | .recordProof workerId tid proof => some (.recordProof workerId tid (Base64.encode proof.data))
  | .recordError workerId tid errMsg => some (.recordError workerId tid errMsg)
  | .updateStatusById tids status => some (.updateStatusById tids status)
  | .getResourceInfo resourceId => some (.getResourceInfo resourceId)
  | _ => none

/-- The call comes to its miner's address, and `Address::from_str` panics. -/
def Call.addressPanics (env : Extern) : Call → Bool
  | .submitC2Task phase1Output miner .. => Rpc.submitC2TaskPanics env phase1Output.data miner
  | .addTask miner .. => env.addressPanics miner
  | _ => false

/-- The rest of what has come over the wire has a handler. -/
theorem Call.request_handler (env : Extern) {c : Call} {req : Request} (h : c.request = some req) :
    req.handler env = none ↔ c.addressPanics env = true := by
  cases c with
  | listTask | reportWorkerInfo | listWorker | deleteWorkerByWorkerId | deleteWorkerById
  | getWorkerByWorkerId | getWorkerById | getOfflineWorker => cases h
  | submitC2Task | addTask | recordProof =>
    cases h
    simp [Request.handler, Base64.decode_encode, addressPanics]
  | getTask | fetchTodo | fetchUncompleted | recordError | updateStatusById | getResourceInfo =>
    cases h
    simp [Request.handler, addressPanics]

theorem Call.addressPanics_eq_false (env : Extern) {c : Call} (h : c.request = none) :
    c.addressPanics env = false := by
  cases c with
  | submitC2Task | addTask => cases h
  | _ => rfl

/-- The call panics: at a byte string of its parameters, or at its miner's address. -/
def Panicking (env : Extern) (byName : String → List (String × Json) → Deserialized Call)
    (call : RpcCall) : Prop :=
  decode byName call = some .panic ∨
    ∃ c, decode byName call = some (.value c) ∧ c.addressPanics env = true

/-- The methods whose calls the system runs. -/
def taskNames : List String :=
  ["Proof.SubmitC2Task", "Proof.AddTask", "Proof.GetTask", "Proof.FetchTodo",
    "Proof.FetchUncomplete", "Proof.RecordProof", "Proof.RecordError", "Proof.UpdateStatusById",
    "Proof.GetResourceInfo"]

section
variable (byName : String → List (String × Json) → Deserialized Call)

def taskRequest (name : String) (sequence : Sequence Call) (params : Option Json) :
    Deserialized Request := do
  match (← readParams byName name sequence params).request with
  | some req => return req
  | none => invalidType

def taskMethods : Methods := fun name =>
  if name ∈ taskNames then
    (methods.lookup name).map fun sequence => .async (taskRequest byName name sequence)
  else none

end

end ProxyRpc

end GpuProxy
