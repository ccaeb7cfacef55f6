import GpuProxy.System

/-!
# Where a proof comes from

A task id determines its bytes, and so does a resource id, as long as the ids of
what is submitted do not collide. Every row, stored resource, answer and result
on its way is then about the bytes its id stands for, and the proof of a
completed task was computed from them.
-/

namespace GpuProxy

/-- What is submitted, where no ids collide. -/
structure Submissions (env : Extern) where
  submitted : Address → TaskType → Bytes → Prop
  resourceId_inj : ∀ {a a' ty ty' b b'}, submitted a ty b → submitted a' ty' b' →
    genResourceId env b = genResourceId env b' → b = b'
  taskId_inj : ∀ {a a' ty ty' b b'}, submitted a ty b → submitted a' ty' b' →
    genTaskId env a ty b = genTaskId env a' ty' b' → b = b'

namespace Submissions

variable {env : Extern} (subs : Submissions env)

/-- The ids are those of one submission. -/
def Names (tid rid : String) : Prop :=
  ∃ addr ty bytes, subs.submitted addr ty bytes ∧ tid = genTaskId env addr ty bytes ∧
    rid = genResourceId env bytes

def Stores (rid : String) (bytes : Bytes) : Prop :=
  rid = genResourceId env bytes ∧ ∃ addr ty, subs.submitted addr ty bytes

/-- The proof is an output for what the task's bytes decode to. -/
def Proves (tid : String) (proof : Bytes) : Prop :=
  ∃ addr ty bytes r, subs.submitted addr ty bytes ∧ tid = genTaskId env addr ty bytes ∧
    C2Resource.fromSlice env bytes = .ok r ∧ env.SealOutput r.c1out r.proverId r.sectorId proof

structure SoundRow (row : Task) : Prop where
  names : subs.Names row.id row.resourceId
  proved : row.state = .completed → subs.Proves row.id row.proof

def SoundOp : Op → Prop
  | .storeResourceInfo rid bytes => subs.Stores rid bytes
  | .addTask tid _ _ rid _ => subs.Names tid rid
  | .recordProof _ tid proof => subs.Proves tid proof
  | .updateStatusById _ state => state ≠ .completed
  | _ => True

def SoundResponse : (op : Op) → op.Response → Prop
  | .getResourceInfo rid, .ok bytes => subs.Stores rid bytes
  | .fetch tid, .ok t => t.id = tid ∧ subs.SoundRow t
  | .fetchOneTodo _ _, .ok t => subs.SoundRow t
  | .fetchUncompleted _, .ok ts => ∀ t ∈ ts, subs.SoundRow t
  | _, _ => True

structure SoundServer (s : Server) : Prop where
  rows : ∀ tid row, s.tasks.find tid = some row → subs.SoundRow row
  contents : ∀ rid bytes, s.resources.content rid = some bytes → subs.Stores rid bytes

/-- Every storage call the request can lead to is sound. -/
def SoundRequest (req : Request) : Prop := ∀ op, req.Calls env op → subs.SoundOp op

variable {subs}

/-- The bytes a task id stands for, and what they decode to, are its proof's. -/
theorem Proves.sealOutput {addr : Address} {ty : TaskType} {bytes proof : Bytes}
    {r : C2Resource env} (proves : subs.Proves (genTaskId env addr ty bytes) proof)
    (submitted : subs.submitted addr ty bytes) (decodes : C2Resource.fromSlice env bytes = .ok r) :
    env.SealOutput r.c1out r.proverId r.sectorId proof := by
  obtain ⟨addr', ty', bytes', r', submitted', same, decodes', output⟩ := proves
  obtain rfl := subs.taskId_inj submitted submitted' same
  rw [decodes] at decodes'
  cases decodes'
  exact output

/-- What an execution computes from the resource stored for its task. -/
theorem proves_of_c2 {tid rid : String} {resource proof : Bytes} {seed : Nat}
    (names : subs.Names tid rid) (stores : subs.Stores rid resource)
    (computed : LocalWorker.c2 env resource seed = .ok proof) : subs.Proves tid proof := by
  obtain ⟨addr, ty, bytes, submitted, htid, hrid⟩ := names
  obtain ⟨same, addr', ty', submitted'⟩ := stores
  obtain rfl := subs.resourceId_inj submitted submitted' (hrid.symm.trans same)
  unfold LocalWorker.c2 at computed
  split at computed
  · next r decodes => exact ⟨addr, ty, bytes, r, submitted, htid, decodes, seed, computed⟩
  · cases computed

/-! ## Storage calls -/

theorem writes_sound {op : Op} {res : op.Response} {row : Task} (now : Int) (sound : subs.SoundOp op)
    (row_sound : subs.SoundRow row) : subs.SoundRow (Server.Writes now op res row) := by
  cases res with
  | error e => cases op <;> exact row_sound
  | ok v =>
    cases op with
    | fetchOneTodo w types =>
      simp only [Server.Writes]
      split
      · exact ⟨row_sound.names, by rintro ⟨⟩⟩
      · exact row_sound
    | recordError w tid msg =>
      simp only [Server.Writes]
      split
      · exact ⟨row_sound.names, by rintro ⟨⟩⟩
      · exact row_sound
    | recordProof w tid proof =>
      simp only [Server.Writes]
      split
      · next same =>
        have proves : subs.Proves tid proof := sound
        exact ⟨row_sound.names, fun _ => same ▸ proves⟩
      · exact row_sound
    | updateStatusById tids state =>
      simp only [Server.Writes]
      split
      · exact ⟨row_sound.names, fun completed => absurd completed sound⟩
      · exact row_sound
    | _ => exact row_sound

theorem act_sound {op : Op} {s : Server} (ch : Choice) (sound : subs.SoundOp op)
    (server : subs.SoundServer s) :
    subs.SoundResponse op (s.act ch op).1 ∧ subs.SoundServer (s.act ch op).2 := by
  refine ⟨?_, ⟨fun tid row found => ?_, fun rid bytes stored => ?_⟩⟩
  · cases hr : (s.act ch op).1 with
    | error e => cases op <;> trivial
    | ok v =>
      cases op with
      | getResourceInfo rid =>
        cases hf : ch.fails with
        | some e => rw [Server.act_fails hf] at hr; cases hr
        | none =>
          rw [Server.act_performs hf] at hr
          exact server.contents rid v (ResourceStore.getResourceInfo_ok.mp hr)
      | fetch tid =>
        obtain ⟨found, -⟩ := Server.act_fetch_ok hr
        exact ⟨DbOps.find_id found, server.rows tid v found⟩
      | fetchOneTodo w types =>
        obtain ⟨row, found, -, same, -⟩ := Server.act_fetchOneTodo_ok hr
        have row_sound := server.rows _ row found
        rw [same]
        exact ⟨row_sound.names, by rintro ⟨⟩⟩
      | fetchUncompleted w =>
        obtain ⟨rfl, -⟩ := Server.act_fetchUncompleted_ok hr
        intro t ht
        exact server.rows t.id t (DbOps.mem_fetchUncompleted.mp ht).1
      | _ => trivial
  · cases old : s.tasks.find tid with
    | some before =>
      rw [Server.act_find_some ch op old] at found
      cases found
      exact writes_sound ch.now sound (server.rows tid before old)
    | none =>
      rcases Server.act_find_none ch op old with absent | ⟨miner, ty, rid, comment, rfl, new⟩
      · rw [absent] at found
        cases found
      · rw [new] at found
        cases found
        exact ⟨sound, by rintro ⟨⟩⟩
  · rcases Server.act_content stored with old | rfl
    · exact server.contents rid bytes old
    · exact sound

/-! ## Requests -/

theorem submission_sound {req : Request}
    (submits : ∀ addr ty bytes, req.Submits env addr ty bytes → subs.submitted addr ty bytes)
    (proves : ∀ w tid text proof, req = .recordProof w tid text → Base64.decode text = some proof →
      subs.Proves tid proof)
    (updates : ∀ tids state, req = .updateStatusById tids state → state ≠ .completed) :
    subs.SoundRequest req := by
  intro op calls
  cases calls with
  | @submission _ addr ty bytes _ submitted call =>
    have submitted := submits addr ty bytes submitted
    cases call with
    | storeResourceInfo => exact ⟨rfl, addr, ty, submitted⟩
    | addTask comment => exact ⟨addr, ty, bytes, submitted, rfl, rfl⟩
    | hasResource | hasTask => trivial
  | recordProof decodes => exact proves _ _ _ _ rfl decodes
  | updateStatusById => exact updates _ _ rfl
  | _ => trivial

/-- A request of one storage call is as sound as that call. -/
theorem single_sound {req : Request} (op : Op) {reply : op.Res → Reply}
    (single : req.single = some ⟨op, reply⟩) (sound : subs.SoundOp op) : subs.SoundRequest req := by
  intro op' calls
  cases calls with
  | submission submits call =>
    cases req with
    | submitC2Task | addTask => cases single
    | _ => cases submits
  | recordFetch | recordProof | deleteResource => cases single
  | _ =>
    cases single
    exact sound

/-- A call keeps to sound storage calls, and answers with what they return. -/
theorem SoundRequest.sat {req : Request} (sound : subs.SoundRequest req) (cause : Option Nat) :
    Call.Sat (fun _ => subs.SoundOp) subs.SoundResponse (Request.Answers subs.SoundResponse)
      (Call.of env cause req) := by
  intro p hp
  obtain ⟨g, hg, rfl⟩ := Option.map_eq_some_iff.mp hp
  exact (Request.handler_sat hg).mono sound (fun _ _ => id) fun _ => id

/-! ## Workers -/

variable (subs) in
structure SoundWorker (process : LocalWorker) : Prop where
  tasks : ∀ t ∈ process.held, subs.Names t.id t.resourceId
  resources : ∀ t resource, Execution.running t resource ∈ process.executions →
    subs.Stores t.resourceId resource
  computed : ∀ t proof, Execution.sending t (.ok proof) ∈ process.executions → subs.Proves t.id proof
  results : ∀ t proof, (t, .ok proof) ∈ process.results → subs.Proves t.id proof

section Worker

variable {w : String} {answer : Nat → Option Answer} {fresh : Nat} {process process' : LocalWorker}
  {ev : LocalWorker.Event} {sent : Option Request} {requested : Nat → Request → Prop}

theorem start_sound (config : WorkerConfig) (call : Nat) :
    subs.SoundWorker (LocalWorker.start config call) where
  tasks := by simp [LocalWorker.held_start]
  resources := by simp [LocalWorker.start]
  computed := by simp [LocalWorker.start]
  results := by simp [LocalWorker.start]

/-- A task in an answer is the row the server had. -/
theorem incoming_named (waits : process.Waits w requested)
    (answers : ∀ call req x, requested call req → answer call = some x →
      Request.Answers subs.SoundResponse req x) {t : Task} (ht : t ∈ process.incoming answer) :
    subs.Names t.id t.resourceId := by
  rcases LocalWorker.mem_incoming.mp ht with ⟨call, ts, fetcher, ha, ht⟩ | ⟨call, fetcher, ha⟩
  · cases answers call _ _ (waits.starting call fetcher) ha with
    | fetchUncompleted sound => exact (sound t ht).names
  · cases answers call _ _ (waits.fetching call fetcher) ha with
    | fetchTodo sound => exact sound.names

theorem step_named (sound : subs.SoundWorker process) (waits : process.Waits w requested)
    (answers : ∀ call req x, requested call req → answer call = some x →
      Request.Answers subs.SoundResponse req x)
    (h : LocalWorker.Step env w answer fresh process ev process' sent) {t : Task} (ht : t ∈ process'.held) :
    subs.Names t.id t.resourceId := by
  have before : t ∈ process.held ++ process.received answer ev :=
    h.accounts.mem_iff.mpr (List.mem_append_left _ ht)
  rcases List.mem_append.mp before with held | received
  · exact sound.tasks t held
  · exact incoming_named waits answers ((LocalWorker.received_sublist answer process ev).subset received)

/-- What the executor reads for a task is stored under the task's resource id. -/
theorem read_stored (waits : process.Waits w requested)
    (answers : ∀ call req x, requested call req → answer call = some x →
      Request.Answers subs.SoundResponse req x)
    {t : Task} {retryCount : UInt32} {call : Nat} {d : Delivery} {r : Reply} {resource : Bytes}
    (executor : process.executor = .preparing t retryCount call)
    (ends : d.result (answer call) = some (.ok r)) (reply : r.toResource = .ok resource) :
    subs.Stores t.resourceId resource := by
  obtain ⟨rfl, ha⟩ := LocalWorker.result_answered ends
  cases answers call _ _ (waits.preparing t retryCount call executor) ha with
  | getResourceInfo sound =>
    simp only [Reply.toResource, Base64.decode_encode, Except.ok.injEq] at reply
    subst reply
    exact sound
  | taskId | done => cases reply

theorem step_worker (sound : subs.SoundWorker process) (waits : process.Waits w requested)
    (answers : ∀ call req x, requested call req → answer call = some x →
      Request.Answers subs.SoundResponse req x)
    (h : LocalWorker.Step env w answer fresh process ev process' sent) : subs.SoundWorker process' where
  tasks _ ht := step_named sound waits answers h ht
  resources := by
    intro t resource ht
    cases h with
    | read executor ends reply =>
      rcases List.mem_append.mp ht with old | new
      · exact sound.resources t resource old
      · cases List.mem_singleton.mp new
        exact read_stored waits answers executor ends reply
    | finish execution =>
      rcases List.mem_or_eq_of_mem_set ht with old | new
      · exact sound.resources t resource old
      · cases new
    | send execution empty => exact sound.resources t resource (List.mem_of_mem_eraseIdx ht)
    | _ => exact sound.resources t resource ht
  computed := by
    intro t proof ht
    cases h with
    | read executor ends reply =>
      rcases List.mem_append.mp ht with old | new
      · exact sound.computed t proof old
      · cases List.mem_singleton.mp new
    | @finish i seed undoTask resource execution =>
      have running := List.mem_of_getElem? execution
      rcases List.mem_or_eq_of_mem_set ht with old | new
      · exact sound.computed t proof old
      · obtain ⟨rfl, computed⟩ := Execution.sending.inj new
        have held : t ∈ process.held := by
          simp only [LocalWorker.held, List.mem_append, List.mem_map]
          exact Or.inl (Or.inr ⟨_, running, rfl⟩)
        exact proves_of_c2 (sound.tasks t held) (sound.resources t resource running) computed.symm
    | send execution empty => exact sound.computed t proof (List.mem_of_mem_eraseIdx ht)
    | _ => exact sound.computed t proof ht
  results := by
    intro t proof ht
    cases h with
    | send execution empty =>
      cases List.mem_singleton.mp ht
      exact sound.computed t proof (List.mem_of_getElem? execution)
    | take executor results =>
      exact sound.results t proof (by rw [results]; exact List.mem_cons_of_mem _ ht)
    | _ => exact sound.results t proof ht

/-- A worker records only what it has computed. -/
theorem worker_request {req : Request} (sound : subs.SoundWorker process)
    (h : LocalWorker.Step env w answer fresh process ev process' (some req)) : subs.SoundRequest req := by
  cases h with
  | fetch => exact single_sound (.fetchOneTodo _ _) rfl trivial
  | receive | retry => exact single_sound (.getResourceInfo _) rfl trivial
  | @take undoTask result rest executor results =>
    cases result with
    | error e => exact single_sound (.recordError _ _ _) rfl trivial
    | ok proof =>
      refine submission_sound (fun _ _ _ submits => by cases submits) ?_ (by rintro tids state ⟨⟩)
      rintro w tid text bytes ⟨⟩ decodes
      rw [Base64.decode_encode] at decodes
      cases decodes
      exact sound.results undoTask proof (by simp [results])

end Worker

/-! ## Plugins -/

variable (subs) in
/-- The input is one of the submissions, and it and its miner's address survive
being sent. -/
structure Transports (input : C2Input env) : Prop where
  submitted : subs.submitted (.id input.minerId) .c2 input.toVec
  address : env.addressFromStr (env.addressToString (.id input.minerId)) = .ok (.id input.minerId)
  decodes : C2Resource.fromSlice env input.toVec =
    .ok ⟨input.proverId, input.sectorId, input.c1out⟩

variable (subs) in
structure SoundPlugin (run : ProcessRequest env) : Prop where
  transports : subs.Transports run.input
  returned : ∀ proof, run.phase = .done (.ok proof) → subs.Proves run.taskId proof

section Plugin

variable {answer : Nat → Option Answer} {fresh : Nat} {run run' : ProcessRequest env}
  {ev : ProcessRequest.Event} {sent : Option Request} {requested : Nat → Request → Prop}

theorem addRequest_sound (transports : subs.Transports run.input) :
    subs.SoundRequest run.addRequest := by
  refine submission_sound ?_ (by rintro w tid text proof ⟨⟩) (by rintro tids state ⟨⟩)
  rintro addr ty bytes ⟨rfl, parses, decodes, -⟩
  rw [Base64.decode_encode] at decodes
  cases decodes
  rw [ProcessRequest.minerAddr, transports.address] at parses
  cases parses
  exact transports.submitted

theorem plugin_request {req : Request} (sound : subs.SoundPlugin run)
    (h : ProcessRequest.Step answer fresh run ev run' (some req)) : subs.SoundRequest req := by
  cases h with
  | check | poll => exact single_sound (.fetch _) rfl trivial
  | reset => exact single_sound (.updateStatusById _ .init) rfl (by rintro ⟨⟩)
  | add => exact addRequest_sound sound.transports

/-- The proof it returns is that of a completed row under its own task id. -/
theorem step_plugin (sound : subs.SoundPlugin run) (waits : run.Waits requested)
    (answers : ∀ call req x, requested call req → answer call = some x →
      Request.Answers subs.SoundResponse req x)
    (h : ProcessRequest.Step answer fresh run ev run' sent) : subs.SoundPlugin run' where
  transports := by
    rw [h.input_eq]
    exact sound.transports
  returned := by
    intro proof returned
    rw [h.taskId_eq]
    cases h with
    | @proved call task phase answered completed =>
      cases returned
      cases answers call _ _ (waits.polling call phase) answered with
      | getTask found =>
        obtain ⟨same, row⟩ := found
        exact same ▸ row.proved completed
    | _ => cases returned

end Plugin

/-! ## The whole system -/

variable (subs) in
structure SoundSystem (s : System env) : Prop where
  consistent : s.Consistent
  server : subs.SoundServer s.server
  calls : ∀ (i : Nat) c, s.calls[i]? = some c → c.Sat (fun _ => subs.SoundOp) subs.SoundResponse
    (Request.Answers subs.SoundResponse)
  plugins : ∀ (i : Nat) run, s.plugins[i]? = some run → subs.SoundPlugin run
  workers : ∀ w process, s.workers w = some process → subs.SoundWorker process

variable (subs) in
/-- Outsiders send only sound requests, and plugins are started on submissions. -/
def SoundAction : System.Action env → Prop
  | .request req => subs.SoundRequest req
  | .startPlugin input => subs.Transports input
  | _ => True

section System

variable {s s' : System env} {a : System.Action env}

theorem SoundSystem.answers (sound : subs.SoundSystem s) (call : Nat) (req : Request) (x : Answer)
    (requested : s.Requested call req) (answered : s.answer call = some x) :
    Request.Answers subs.SoundResponse req x := by
  obtain ⟨c, get, rfl⟩ := requested
  simp only [System.answer, get, Option.bind_some, Call.answer] at answered
  obtain ⟨p, program, answer⟩ := Option.bind_eq_some_iff.mp answered
  have contract := sound.calls call c get p program
  cases p with
  | call op k => cases answer
  | ret y =>
    cases answer
    exact contract

theorem sends_sound {cause : Option Nat} {req : Request} (sound : subs.SoundSystem s)
    (action : subs.SoundAction a) (sends : s.Sends a cause req) : subs.SoundRequest req := by
  cases sends with
  | request => exact action
  | plugin get move => exact plugin_request (sound.plugins _ _ get) move
  | startWorker => exact single_sound (.fetchUncompleted _) rfl trivial
  | worker alive move => exact worker_request (sound.workers _ _ alive) move

theorem step_plugins (sound : subs.SoundSystem s) (action : subs.SoundAction a)
    (h : s.step a = some s') (i : Nat) (run : ProcessRequest env) (get : s'.plugins[i]? = some run) :
    subs.SoundPlugin run := by
  rcases System.step_processes h get with ⟨old, -⟩ | ⟨input, rfl, -, rfl⟩ |
    ⟨ev, old, sent, -, get', move, -⟩
  · exact sound.plugins i run old
  · exact ⟨action, by rintro proof ⟨⟩⟩
  · exact step_plugin (sound.plugins i old get') (sound.consistent.plugins i old get') sound.answers move

theorem step_workers (sound : subs.SoundSystem s) (h : s.step a = some s') (w : String)
    (process : LocalWorker) (alive : s'.workers w = some process) : subs.SoundWorker process := by
  rcases System.step_workers h alive with old | ⟨config, rfl, -⟩ | ⟨ev, old, sent, alive', move, -⟩
  · exact sound.workers w process old
  · exact start_sound config _
  · exact step_worker (sound.workers w old alive') (sound.consistent.workers w old alive')
      sound.answers move

theorem step_sound (sound : subs.SoundSystem s) (action : subs.SoundAction a)
    (h : s.step a = some s') : subs.SoundSystem s' := by
  obtain ⟨server, calls⟩ := System.step_sat (I := subs.SoundServer)
    (fun _ ch _ _ op server => act_sound ch op server) h sound.server sound.calls
    fun cause _ sends => (sends_sound sound action sends).sat cause
  exact ⟨System.step_consistent sound.consistent h, server, calls,
    step_plugins sound action h, step_workers sound h⟩

theorem idle_sound {resources : ResourceStore} (nothing : ∀ rid, resources.content rid = none) :
    subs.SoundSystem (System.idle (.empty resources)) where
  consistent := System.idle_consistent _
  server := by
    constructor
    · intro tid row found
      cases found
    · intro rid bytes stored
      cases (nothing rid).symm.trans stored
  calls := by simp [System.idle]
  plugins := by simp [System.idle]
  workers := by simp [System.idle]

end System

end Submissions

namespace System

variable {env : Extern}

/-- Someone submits these bytes in the run, or a plugin is started on them. -/
def Submitted (as : List (Action env)) (addr : Address) (ty : TaskType) (bytes : Bytes) : Prop :=
  (∃ req, .request req ∈ as ∧ req.Submits env addr ty bytes) ∨
    ∃ input, .startPlugin input ∈ as ∧ addr = .id input.minerId ∧ ty = .c2 ∧ bytes = input.toVec

/-- What the other crates are trusted with, on the data of a run. -/
structure Trusted (as : List (Action env)) : Prop where
  uuidText : UuidText env
  resourceIds : NoCollision env fun b => ∃ addr ty, Submitted as addr ty b
  taskIds : NoCollision env fun b => ∃ addr ty bytes, Submitted as addr ty bytes ∧
    b = taskIdBuffer addr ty (genResourceId env bytes)
  json : ∀ input, .startPlugin input ∈ as → env.jsonFromSlice input.toVec = .ok input.toJson
  c1Out : ∀ input, .startPlugin input ∈ as →
    env.c1OutFromJson (env.c1OutToJson input.c1out) = .ok input.c1out
  address : ∀ input, .startPlugin input ∈ as →
    env.addressFromStr (env.addressToString (.id input.minerId)) = .ok (.id input.minerId)

def Trusted.submissions {as : List (Action env)} (trusted : Trusted as) : Submissions env where
  submitted := Submitted as
  resourceId_inj h h' same := trusted.resourceIds _ _ ⟨_, _, h⟩ ⟨_, _, h'⟩ same
  taskId_inj h h' same := genTaskId_bytes trusted.uuidText trusted.resourceIds trusted.taskIds
    ⟨_, _, h⟩ ⟨_, _, h'⟩ ⟨_, _, _, h, rfl⟩ ⟨_, _, _, h', rfl⟩ same

theorem Trusted.decodes {as : List (Action env)} (trusted : Trusted as) {input : C2Input env}
    (mem : .startPlugin input ∈ as) :
    C2Resource.fromSlice env input.toVec = .ok ⟨input.proverId, input.sectorId, input.c1out⟩ := by
  rw [C2Resource.fromSlice, trusted.json input mem]
  exact fromJson_input (trusted.c1Out input mem)

/-- A proof that `process_request` returns is an output of the prover on its input. -/
theorem returned_proof_is_output {resources : ResourceStore} {as : List (Action env)} {s : System env}
    {i : Nat} {process : ProcessRequest env} {proof : Bytes}
    (nothing : ∀ rid, resources.content rid = none) (trusted : Trusted as)
    (records : ∀ w tid text, .request (.recordProof w tid text) ∉ as)
    (updates : ∀ tids, .request (.updateStatusById tids .completed) ∉ as)
    (run : Runs.run step (idle (.empty resources)) as = some s)
    (get : s.plugins[i]? = some process) (returned : process.phase = .done (.ok proof)) :
    env.SealOutput process.input.c1out process.input.proverId process.input.sectorId proof := by
  let subs := trusted.submissions
  have outside (req : Request) (mem : .request req ∈ as) : subs.SoundRequest req :=
    Submissions.submission_sound (fun _ _ _ submits => Or.inl ⟨req, mem, submits⟩)
      (fun w tid text _ same => absurd (same ▸ mem) (records w tid text))
      (fun tids _ same completed => updates tids (completed ▸ same ▸ mem))
  have started (input : C2Input env) (mem : .startPlugin input ∈ as) : subs.Transports input :=
    ⟨Or.inr ⟨input, mem, rfl, rfl, rfl⟩, trusted.address input mem, trusted.decodes mem⟩
  have actions : Runs.Along step (fun _ a => subs.SoundAction a) (idle (.empty resources)) as := by
    rintro pre a post t rfl -
    have mem : a ∈ pre ++ a :: post := by simp
    cases a with
    | request req => exact outside req mem
    | startPlugin input => exact started input mem
    | _ => trivial
  have sound : subs.SoundSystem s := Runs.invariant_along run (Submissions.idle_sound nothing) actions
    fun _ _ _ sound action h => Submissions.step_sound sound action h
  obtain ⟨transports, proves⟩ := sound.plugins i process get
  exact (proves proof returned).sealOutput transports.submitted transports.decodes

/-- A plugin adds its task, a worker proves it, and the plugin polls the proof. -/
def proveOnce : List (Action Demo.env) :=
  [.startPlugin Demo.input, .plugin 0 .connected, .serve 0 ⟨1, none, none⟩,
    .plugin 0 (.ends .answered), .serve 1 ⟨2, none, none⟩, .serve 1 ⟨3, none, none⟩,
    .serve 1 ⟨4, none, none⟩, .serve 1 ⟨5, none, none⟩, .plugin 0 (.ends .answered),
    .startWorker "w1" Demo.config, .serve 2 ⟨6, none, none⟩, .worker "w1" (.fetched .answered),
    .worker "w1" .tick, .serve 3 ⟨7, none, Demo.waiting⟩, .worker "w1" (.fetched .answered),
    .worker "w1" .push, .worker "w1" .counted, .worker "w1" .receive, .serve 4 ⟨8, none, none⟩,
    .worker "w1" (.read .answered), .worker "w1" (.finish 0 1), .worker "w1" (.send 0),
    .worker "w1" .take, .serve 5 ⟨9, none, none⟩, .serve 5 ⟨10, none, none⟩,
    .serve 5 ⟨11, none, none⟩, .plugin 0 .wake, .serve 6 ⟨12, none, none⟩,
    .plugin 0 (.ends .answered)]

theorem trusted_proveOnce : Trusted proveOnce := by
  have only {input : C2Input Demo.env} (mem : Action.startPlugin input ∈ proveOnce) :
      input = Demo.input := by
    simpa [proveOnce] using mem
  have submitted {addr : Address} {ty : TaskType} {bytes : Bytes}
      (h : Submitted proveOnce addr ty bytes) :
      addr = .id 1000 ∧ ty = .c2 ∧ bytes = asBytes Demo.text := by
    rcases h with ⟨req, mem, -⟩ | ⟨input, mem, rfl, rfl, rfl⟩
    · simp [proveOnce] at mem
    · rw [only mem]
      exact ⟨rfl, rfl, rfl⟩
  constructor
  · exact Demo.uuidText
  · rintro a b ⟨addr, ty, ha⟩ ⟨addr', ty', hb⟩ -
    rw [(submitted ha).2.2, (submitted hb).2.2]
  · rintro a b ⟨addr, ty, bytes, ha, rfl⟩ ⟨addr', ty', bytes', hb, rfl⟩ -
    obtain ⟨rfl, rfl, rfl⟩ := submitted ha
    obtain ⟨rfl, rfl, rfl⟩ := submitted hb
    rfl
  · intro input mem
    rw [only mem]
    exact Demo.jsonFromSlice_text
  · intro input mem
    rfl
  · intro input mem
    rw [only mem]
    decide +kernel

theorem returned_proof_is_output_demo : ∃ s process,
    Runs.run step (idle (.empty (.db Table.empty))) proveOnce = some s ∧
    s.plugins[0]? = some process ∧ process.phase = .done (.ok [1, 1]) ∧
    Demo.env.SealOutput process.input.c1out process.input.proverId process.input.sectorId [1, 1] := by
  have ran : ((Runs.run step (idle (.empty (.db Table.empty))) proveOnce).map fun s =>
      s.plugins[0]?.map ProcessRequest.phase) = some (some (.done (.ok [1, 1]))) := by
    decide +kernel
  obtain ⟨s, run, hs⟩ := Option.map_eq_some_iff.mp ran
  obtain ⟨process, get, returned⟩ := Option.map_eq_some_iff.mp hs
  exact ⟨s, process, run, get, returned, returned_proof_is_output (fun _ => rfl) trusted_proveOnce
    (by simp [proveOnce]) (by simp [proveOnce]) run get returned⟩

end System

end GpuProxy
