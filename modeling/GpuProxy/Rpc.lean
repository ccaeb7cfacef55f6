import GpuProxy.Storage
import GpuProxy.Base64

/-!
# The RPC handlers

Each method of `ProxyImpl` is a program over the storage calls. `Request` is a
call as it arrives: a `Base64Byte` parameter is still text, and text that does
not decode ends the call before its handler runs.
-/

namespace GpuProxy

abbrev Handler (α : Type) := ExceptT RpcError (Program Op Op.Response) α

namespace Rpc

/-- A storage call; its error becomes the error of the method. -/
def storage (op : Op) : Handler op.Res := ExceptT.mk do
  return internalCallError (← Program.perform op)

/-- A check of the parameters: `.invalid_params()?`. -/
def checkParams {α : Type} (r : Except String α) : Handler α := ExceptT.mk (pure (invalidParams r))

section
variable (env : Extern)

/-- The text of an address without its network letter. -/
def noprefixMiner (addr : Address) : String :=
  String.ofList ((env.addressToString addr).toList.drop 1)

def addTaskInner (addr : Address) (comment : String) (taskType : TaskType) (resourceBytes : Bytes) :
    Handler String := do
  let resourceId := genResourceId env resourceBytes
  if !(← storage (.hasResource resourceId)) then
    let _ ← storage (.storeResourceInfo resourceId resourceBytes)
  let taskId := genTaskId env addr taskType resourceBytes
  if !(← storage (.hasTask taskId)) then
    let _ ← storage (.addTask taskId (noprefixMiner env addr) taskType resourceId comment)
  return taskId

def submitC2Task (phase1Output : Bytes) (miner comment : String) (proverId : ProverId)
    (sectorId : UInt64) : Handler String := do
  let json ← checkParams (env.jsonFromSlice phase1Output)
  let scp1o ← checkParams (env.c1OutFromJson json)
  let addr ← checkParams (env.addressFromStr miner)
  let c2Resource : C2Resource env := ⟨proverId, sectorId, scp1o⟩
  addTaskInner env addr comment .c2 c2Resource.toVec

def addTask (miner comment : String) (taskType : TaskType) (param : Bytes) : Handler String := do
  let addr ← checkParams (env.addressFromStr miner)
  match taskType with
  | .c2 => let _ ← checkParams (C2Resource.fromSlice env param)
  addTaskInner env addr comment taskType param

end

def getTask (id : String) : Handler Task := storage (.fetch id)

def fetchTodo (workerId : String) (types : Option (List TaskType)) : Handler Task :=
  storage (.fetchOneTodo workerId types)

def fetchUncompleted (workerId : String) : Handler (List Task) :=
  storage (.fetchUncompleted workerId)

def getResourceInfo (resourceId : String) : Handler Bytes := storage (.getResourceInfo resourceId)

def recordProof (workerId tid : String) (proof : Bytes) : Handler Unit := do
  let task ← storage (.fetch tid)
  storage (.recordProof workerId tid proof)
  storage (.deleteResource task.resourceId)

def recordError (workerId tid errMsg : String) : Handler Unit :=
  storage (.recordError workerId tid errMsg)

def updateStatusById (tids : List String) (state : TaskState) : Handler Unit :=
  storage (.updateStatusById tids state)

end Rpc

inductive Request where
  | submitC2Task (phase1Output miner comment : String) (proverId : ProverId) (sectorId : UInt64)
  | addTask (miner comment : String) (taskType : TaskType) (param : String)
  | getTask (id : String)
  | fetchTodo (workerId : String) (types : Option (List TaskType))
  | fetchUncompleted (workerId : String)
  | getResourceInfo (resourceId : String)
  | recordProof (workerId tid proof : String)
  | recordError (workerId tid errMsg : String)
  | updateStatusById (tids : List String) (state : TaskState)

inductive Reply where
  | taskId (id : String)
  | task (t : Task)
  | tasks (ts : List Task)
  | resource (data : String)
  | done
  deriving DecidableEq, Repr

abbrev Answer := Except RpcError Reply

/-- `submit_c2_task` reads its first parameter, and then panics at the address. -/
def Rpc.submitC2TaskPanics (env : Extern) (phase1Output : Bytes) (miner : String) : Bool :=
  ((env.jsonFromSlice phase1Output).bind env.c1OutFromJson).isOk && env.addressPanics miner

/-- The handler's program, or `none` where a parameter does not decode or the miner's address
panics. -/
def Request.handler (env : Extern) : Request → Option (Handler Reply)
  | submitC2Task phase1Output miner comment proverId sectorId =>
    ((Base64.decode phase1Output).filter fun bytes => !Rpc.submitC2TaskPanics env bytes miner).map
      fun bytes => do
        return .taskId (← Rpc.submitC2Task env bytes miner comment proverId sectorId)
  | addTask miner comment taskType param =>
    ((Base64.decode param).filter fun _ => !env.addressPanics miner).map fun bytes => do
      return .taskId (← Rpc.addTask env miner comment taskType bytes)
  | getTask id => some do return .task (← Rpc.getTask id)
  | fetchTodo workerId types => some do return .task (← Rpc.fetchTodo workerId types)
  | fetchUncompleted workerId => some do return .tasks (← Rpc.fetchUncompleted workerId)
  | getResourceInfo resourceId =>
    some do return .resource (Base64.encode (← Rpc.getResourceInfo resourceId))
  | recordProof workerId tid proof =>
    (Base64.decode proof).map fun bytes => do
      Rpc.recordProof workerId tid bytes
      return .done
  | recordError workerId tid errMsg => some do
    Rpc.recordError workerId tid errMsg
    return .done
  | updateStatusById tids state => some do
    Rpc.updateStatusById tids state
    return .done

theorem Request.handler_addTask_encode {env : Extern} {miner : String}
    (calm : env.addressPanics miner = false) (comment : String) (taskType : TaskType)
    (bytes : Bytes) :
    (Request.addTask miner comment taskType (Base64.encode bytes)).handler env =
      some do return .taskId (← Rpc.addTask env miner comment taskType bytes) := by
  simp [Request.handler, Base64.decode_encode, calm]

/-! ## What a handler may do -/

/-- The address, type and bytes a submission that passes its checks is for. -/
def Request.Submits (env : Extern) : Request → Address → TaskType → Bytes → Prop
  | submitC2Task phase1Output miner _ proverId sectorId, addr, taskType, bytes =>
    taskType = .c2 ∧ env.addressFromStr miner = .ok addr ∧
      ∃ input json scp1o, Base64.decode phase1Output = some input ∧
        env.jsonFromSlice input = .ok json ∧ env.c1OutFromJson json = .ok scp1o ∧
        bytes = C2Resource.toVec ⟨proverId, sectorId, scp1o⟩
  | addTask miner _ ty param, addr, taskType, bytes =>
    taskType = ty ∧ env.addressFromStr miner = .ok addr ∧ Base64.decode param = some bytes ∧
      ∃ resource, C2Resource.fromSlice env bytes = .ok resource
  | _, _, _, _ => False

/-- The storage calls `add_task_inner` makes. -/
inductive SubmissionCall (env : Extern) (addr : Address) (taskType : TaskType) (bytes : Bytes) :
    Op → Prop
  | hasResource : SubmissionCall env addr taskType bytes (.hasResource (genResourceId env bytes))
  | storeResourceInfo :
      SubmissionCall env addr taskType bytes (.storeResourceInfo (genResourceId env bytes) bytes)
  | hasTask : SubmissionCall env addr taskType bytes (.hasTask (genTaskId env addr taskType bytes))
  | addTask (comment : String) :
      SubmissionCall env addr taskType bytes
        (.addTask (genTaskId env addr taskType bytes) (Rpc.noprefixMiner env addr) taskType
          (genResourceId env bytes) comment)

/-- The storage calls a request can lead to. -/
inductive Request.Calls (env : Extern) : Request → Op → Prop
  | submission {req addr taskType bytes op} (submits : Request.Submits env req addr taskType bytes)
      (call : SubmissionCall env addr taskType bytes op) : Request.Calls env req op
  | getTask {id} : Request.Calls env (.getTask id) (.fetch id)
  | fetchTodo {w types} : Request.Calls env (.fetchTodo w types) (.fetchOneTodo w types)
  | fetchUncompleted {w} : Request.Calls env (.fetchUncompleted w) (.fetchUncompleted w)
  | getResourceInfo {rid} : Request.Calls env (.getResourceInfo rid) (.getResourceInfo rid)
  | recordFetch {w tid proof} : Request.Calls env (.recordProof w tid proof) (.fetch tid)
  | recordProof {w tid proof bytes} (decodes : Base64.decode proof = some bytes) :
      Request.Calls env (.recordProof w tid proof) (.recordProof w tid bytes)
  | deleteResource {w tid proof rid} :
      Request.Calls env (.recordProof w tid proof) (.deleteResource rid)
  | recordError {w tid msg} : Request.Calls env (.recordError w tid msg) (.recordError w tid msg)
  | updateStatusById {tids state} :
      Request.Calls env (.updateStatusById tids state) (.updateStatusById tids state)

/-- Where the rows and bytes in an answer come from. -/
inductive Request.Answers (R : (op : Op) → op.Response → Prop) : Request → Answer → Prop
  | failed {req e} : Request.Answers R req (.error e)
  | getTask {id t} (h : R (.fetch id) (.ok t)) : Request.Answers R (.getTask id) (.ok (.task t))
  | fetchTodo {w types t} (h : R (.fetchOneTodo w types) (.ok t)) :
      Request.Answers R (.fetchTodo w types) (.ok (.task t))
  | fetchUncompleted {w ts} (h : R (.fetchUncompleted w) (.ok ts)) :
      Request.Answers R (.fetchUncompleted w) (.ok (.tasks ts))
  | getResourceInfo {rid bytes} (h : R (.getResourceInfo rid) (.ok bytes)) :
      Request.Answers R (.getResourceInfo rid) (.ok (.resource (Base64.encode bytes)))
  | taskId {req id} : Request.Answers R req (.ok (.taskId id))
  | done {req} : Request.Answers R req (.ok .done)

namespace Rpc

variable {env : Extern} {P : Op → Prop} {R : (op : Op) → op.Response → Prop} {α β : Type}
  {Q : Except RpcError α → Prop} {T : Except RpcError β → Prop}

theorem sat_storage {op : Op} {Q : Except RpcError op.Res → Prop} (call : P op)
    (answer : ∀ r, R op r → Q (internalCallError r)) : (storage op).run.Sat P R Q :=
  ⟨call, answer⟩

@[simp] theorem checkParams_ok_bind (a : α) (f : α → Handler β) :
    (checkParams (.ok a) >>= f) = f a := rfl

@[simp] theorem checkParams_error_bind (e : String) (f : α → Handler β) :
    (checkParams (.error e) >>= f) = checkParams (.error e) := rfl

theorem sat_bind {h : Handler α} {f : α → Handler β}
    (sat : h.run.Sat P R Q) (ok : ∀ a, Q (.ok a) → (f a).run.Sat P R T)
    (error : ∀ e, Q (.error e) → T (.error e)) : (h >>= f).run.Sat P R T := by
  apply Program.Sat.bind sat
  intro r hr
  cases r with
  | ok a => exact ok a hr
  | error e => exact error e hr

/-! ### `add_task_inner` call by call

How it goes on after each of its four calls. -/

/-- What the calls of `add_task_inner` are made with. -/
structure Entry where
  taskId : String
  resourceId : String
  miner : String
  taskType : TaskType
  bytes : Bytes
  comment : String

def Entry.of (env : Extern) (addr : Address) (comment : String) (taskType : TaskType)
    (bytes : Bytes) : Entry where
  taskId := genTaskId env addr taskType bytes
  resourceId := genResourceId env bytes
  miner := noprefixMiner env addr
  taskType := taskType
  bytes := bytes
  comment := comment

section
variable (entry : Entry)

def afterAddTask : Except String String → Program Op Op.Response (Except RpcError String)
  | .ok _ => .ret (.ok entry.taskId)
  | .error e => .ret (.error (.failed e))

def afterHasTask : Except String Bool → Program Op Op.Response (Except RpcError String)
  | .ok true => .ret (.ok entry.taskId)
  | .ok false =>
    .call (.addTask entry.taskId entry.miner entry.taskType entry.resourceId entry.comment)
      (afterAddTask entry)
  | .error e => .ret (.error (.failed e))

def afterStoreResourceInfo : Except String String → Program Op Op.Response (Except RpcError String)
  | .ok _ => .call (.hasTask entry.taskId) (afterHasTask entry)
  | .error e => .ret (.error (.failed e))

def afterHasResource : Except String Bool → Program Op Op.Response (Except RpcError String)
  | .ok true => .call (.hasTask entry.taskId) (afterHasTask entry)
  | .ok false =>
    .call (.storeResourceInfo entry.resourceId entry.bytes) (afterStoreResourceInfo entry)
  | .error e => .ret (.error (.failed e))

end

theorem addTaskInner_eq (addr : Address) (comment : String) (taskType : TaskType) (bytes : Bytes) :
    (addTaskInner env addr comment taskType bytes).run =
      .call (.hasResource (Entry.of env addr comment taskType bytes).resourceId)
        (afterHasResource (.of env addr comment taskType bytes)) := by
  let tid := genTaskId env addr taskType bytes
  let rid := genResourceId env bytes
  let insert : Handler String := do
    if !(← storage (.hasTask tid)) then
      let _ ← storage (.addTask tid (noprefixMiner env addr) taskType rid comment)
    return tid
  have inserts :
      insert.run = .call (.hasTask tid) (afterHasTask (.of env addr comment taskType bytes)) := by
    apply Program.call_congr
    intro r
    rcases r with e | _ | _
    · rfl
    · apply Program.call_congr
      intro r
      cases r <;> rfl
    · rfl
  apply Program.call_congr
  intro r
  rcases r with e | _ | _
  · rfl
  · apply Program.call_congr
    intro r
    cases r with
    | error e => rfl
    | ok id => exact inserts
  · exact inserts

theorem addTask_passes {miner : String} {addr : Address} {bytes : Bytes} {resource : C2Resource env}
    (parses : env.addressFromStr miner = .ok addr)
    (decodes : C2Resource.fromSlice env bytes = .ok resource) (comment : String)
    (taskType : TaskType) :
    addTask env miner comment taskType bytes = addTaskInner env addr comment taskType bytes := by
  cases taskType with
  | c2 => simp only [addTask, parses, decodes, checkParams_ok_bind]

/-- The program of a submission makes only its own calls and answers with its task id. -/
theorem addTaskInner_sat {addr : Address} {comment : String} {taskType : TaskType} {bytes : Bytes} :
    (addTaskInner env addr comment taskType bytes).run.Sat
      (SubmissionCall env addr taskType bytes) R
      (fun a => ∀ id, a = .ok id → id = genTaskId env addr taskType bytes) := by
  rw [addTaskInner_eq]
  have checked (r : Except String Bool) :
      (afterHasTask (.of env addr comment taskType bytes) r).Sat (SubmissionCall env addr taskType bytes)
        R (fun a => ∀ id, a = .ok id → id = genTaskId env addr taskType bytes) := by
    rcases r with e | _ | _
    · rintro id ⟨⟩
    · refine ⟨.addTask comment, fun r _ => ?_⟩
      cases r with
      | error e => rintro id ⟨⟩
      | ok id => rintro id ⟨⟩; rfl
    · rintro id ⟨⟩
      rfl
  refine ⟨.hasResource, fun r _ => ?_⟩
  rcases r with e | _ | _
  · rintro id ⟨⟩
  · refine ⟨.storeResourceInfo, fun r _ => ?_⟩
    cases r with
    | error e => rintro id ⟨⟩
    | ok id => exact ⟨.hasTask, fun r _ => checked r⟩
  · exact ⟨.hasTask, fun r _ => checked r⟩

/-- A submission whose checks fail ends there; one that passes them is `addTaskInner`. -/
def Checked (env : Extern) (req : Request) (h : Handler String) : Prop :=
  (∃ e, h = checkParams (.error e)) ∨
    ∃ addr comment taskType bytes, req.Submits env addr taskType bytes ∧
      h = addTaskInner env addr comment taskType bytes

theorem submitC2Task_checked {text miner comment : String} {proverId : ProverId} {sectorId : UInt64}
    {input : Bytes} (decodes : Base64.decode text = some input) :
    Checked env (.submitC2Task text miner comment proverId sectorId)
      (submitC2Task env input miner comment proverId sectorId) := by
  unfold submitC2Task
  cases hj : env.jsonFromSlice input with
  | error e => exact Or.inl ⟨e, rfl⟩
  | ok json =>
    simp only [checkParams_ok_bind]
    cases hc : env.c1OutFromJson json with
    | error e => exact Or.inl ⟨e, rfl⟩
    | ok scp1o =>
      simp only [checkParams_ok_bind]
      cases ha : env.addressFromStr miner with
      | error e => exact Or.inl ⟨e, rfl⟩
      | ok addr =>
        exact Or.inr ⟨addr, comment, .c2, _,
          ⟨rfl, ha, input, json, scp1o, decodes, hj, hc, rfl⟩, rfl⟩

theorem addTask_checked {miner comment param : String} {taskType : TaskType} {bytes : Bytes}
    (decodes : Base64.decode param = some bytes) :
    Checked env (.addTask miner comment taskType param)
      (addTask env miner comment taskType bytes) := by
  unfold addTask
  cases ha : env.addressFromStr miner with
  | error e => exact Or.inl ⟨e, rfl⟩
  | ok addr =>
    simp only [checkParams_ok_bind]
    cases taskType with
    | c2 =>
      cases hr : C2Resource.fromSlice env bytes with
      | error e => exact Or.inl ⟨e, rfl⟩
      | ok resource =>
        exact Or.inr ⟨addr, comment, .c2, bytes, ⟨rfl, ha, decodes, resource, hr⟩, rfl⟩

theorem Checked.sat {req : Request} {h : Handler String} (checked : Checked env req h) :
    h.run.Sat (Request.Calls env req) R fun _ => True := by
  rcases checked with ⟨e, rfl⟩ | ⟨addr, comment, taskType, bytes, hs, rfl⟩
  · trivial
  · exact addTaskInner_sat.mono (fun op hop => .submission hs hop) (fun _ _ hr => hr)
      fun _ _ => trivial

end Rpc

/-- The two submissions of the example sector, with their ids worked out. -/
def Demo.entry (miner comment : String) : Rpc.Entry where
  taskId :=
    if miner = "01000" then "48bb11f3-3f83-5d9f-ad3c-edd0b5481a6f"
    else "87366a6f-5463-5198-811e-9dc28171b74c"
  resourceId := Demo.resourceId
  miner := miner
  taskType := .c2
  bytes := asBytes Demo.text
  comment := comment

theorem Demo.genResourceId_text :
    genResourceId Demo.env (asBytes Demo.text) = Demo.resourceId := by
  simp only [genResourceId, Demo.env, Demo.newV5, ↓reduceIte]

theorem Demo.entry_1000 (comment : String) :
    Rpc.Entry.of Demo.env (.id 1000) comment .c2 (asBytes Demo.text) = Demo.entry "01000" comment := by
  have hash : Demo.newV5 (Demo.taskBuffer 1000) = "48bb11f3-3f83-5d9f-ad3c-edd0b5481a6f" := by
    decide +kernel
  have miner : Rpc.noprefixMiner Demo.env (.id 1000) = "01000" := by decide +kernel
  simp only [Rpc.Entry.of, genTaskId, Demo.genResourceId_text, miner]
  exact congrArg (Rpc.Entry.mk · _ _ _ _ _) hash

theorem Demo.entry_1001 (comment : String) :
    Rpc.Entry.of Demo.env (.id 1001) comment .c2 (asBytes Demo.text) = Demo.entry "01001" comment := by
  have hash : Demo.newV5 (Demo.taskBuffer 1001) = "87366a6f-5463-5198-811e-9dc28171b74c" := by
    decide +kernel
  have miner : Rpc.noprefixMiner Demo.env (.id 1001) = "01001" := by decide +kernel
  simp only [Rpc.Entry.of, genTaskId, Demo.genResourceId_text, miner]
  exact congrArg (Rpc.Entry.mk · _ _ _ _ _) hash

/-- Every handler makes only its request's calls, and its answer holds what
the storage returned. -/
theorem Request.handler_sat {env : Extern} {R : (op : Op) → op.Response → Prop} {req : Request}
    {h : Handler Reply} (hh : req.handler env = some h) :
    h.run.Sat (Request.Calls env req) R (Request.Answers R req) := by
  have submitted {g : Handler String} (checked : Rpc.Checked env req g) :
      (do return .taskId (← g) : Handler Reply).run.Sat (Request.Calls env req) R
        (Request.Answers R req) :=
    Rpc.sat_bind checked.sat (fun _ _ => .taskId) fun _ _ => .failed
  cases req with
  | submitC2Task text miner comment proverId sectorId =>
    obtain ⟨input, decodes, rfl⟩ := Option.map_eq_some_iff.mp hh
    exact submitted (Rpc.submitC2Task_checked (Option.filter_eq_some_iff.mp decodes).1)
  | addTask miner comment taskType param =>
    obtain ⟨bytes, decodes, rfl⟩ := Option.map_eq_some_iff.mp hh
    exact submitted (Rpc.addTask_checked (Option.filter_eq_some_iff.mp decodes).1)
  | getTask id =>
    cases hh
    refine Rpc.sat_bind (Rpc.sat_storage (Q := fun a => ∀ t, a = .ok t → R (.fetch id) (.ok t))
      .getTask ?_) (fun t ht => .getTask (ht t rfl)) fun _ _ => .failed
    rintro (e | t) hr u ⟨⟩
    exact hr
  | fetchTodo w types =>
    cases hh
    refine Rpc.sat_bind (Rpc.sat_storage
      (Q := fun a => ∀ t, a = .ok t → R (.fetchOneTodo w types) (.ok t))
      .fetchTodo ?_) (fun t ht => .fetchTodo (ht t rfl)) fun _ _ => .failed
    rintro (e | t) hr u ⟨⟩
    exact hr
  | fetchUncompleted w =>
    cases hh
    refine Rpc.sat_bind (Rpc.sat_storage
      (Q := fun a => ∀ ts, a = .ok ts → R (.fetchUncompleted w) (.ok ts))
      .fetchUncompleted ?_) (fun ts hts => .fetchUncompleted (hts ts rfl)) fun _ _ => .failed
    rintro (e | ts) hr u ⟨⟩
    exact hr
  | getResourceInfo rid =>
    cases hh
    refine Rpc.sat_bind (Rpc.sat_storage
      (Q := fun a => ∀ bytes, a = .ok bytes → R (.getResourceInfo rid) (.ok bytes))
      .getResourceInfo ?_) (fun bytes hb => .getResourceInfo (hb bytes rfl)) fun _ _ => .failed
    rintro (e | bytes) hr u ⟨⟩
    exact hr
  | recordProof w tid proof =>
    obtain ⟨bytes, decodes, rfl⟩ := Option.map_eq_some_iff.mp hh
    have any {op : Op} (call : Request.Calls env (.recordProof w tid proof) op) :
        (Rpc.storage op).run.Sat (Request.Calls env (.recordProof w tid proof)) R fun _ => True :=
      Rpc.sat_storage call fun _ _ => trivial
    refine Rpc.sat_bind (Q := fun _ => True) ?_ (fun _ _ => .done) fun _ _ => .failed
    refine Rpc.sat_bind (any .recordFetch) (fun task _ => ?_) fun _ _ => trivial
    exact Rpc.sat_bind (any (.recordProof decodes)) (fun _ _ => any .deleteResource) fun _ _ => trivial
  | recordError w tid msg =>
    cases hh
    exact Rpc.sat_bind (Rpc.sat_storage (Q := fun _ => True) .recordError fun _ _ => trivial)
      (fun _ _ => .done) fun _ _ => .failed
  | updateStatusById tids state =>
    cases hh
    exact Rpc.sat_bind (Rpc.sat_storage (Q := fun _ => True) .updateStatusById fun _ _ => trivial)
      (fun _ _ => .done) fun _ _ => .failed

/-! ## Handlers of one storage call -/

/-- The storage call of a request that makes just one, and the reply it becomes. -/
def Request.single : Request → Option ((op : Op) × (op.Res → Reply))
  | getTask id => some ⟨.fetch id, .task⟩
  | fetchTodo w types => some ⟨.fetchOneTodo w types, .task⟩
  | fetchUncompleted w => some ⟨.fetchUncompleted w, .tasks⟩
  | getResourceInfo rid => some ⟨.getResourceInfo rid, fun bytes => .resource (Base64.encode bytes)⟩
  | recordError w tid msg => some ⟨.recordError w tid msg, fun _ => .done⟩
  | updateStatusById tids state => some ⟨.updateStatusById tids state, fun _ => .done⟩
  | _ => none

/-- The answer such a request gives for a response. -/
def singleAnswer {op : Op} (reply : op.Res → Reply) (r : op.Response) : Answer :=
  (internalCallError r).map reply

theorem Request.handler_single {env : Extern} {req : Request} {op : Op} {reply : op.Res → Reply}
    (h : req.single = some ⟨op, reply⟩) :
    (req.handler env).map ExceptT.run = some (.call op fun r => .ret (singleAnswer reply r)) := by
  cases req with
  | submitC2Task | addTask | recordProof => cases h
  | _ =>
    cases h
    refine congrArg some (Program.call_congr fun r => ?_)
    cases r <;> rfl

end GpuProxy
