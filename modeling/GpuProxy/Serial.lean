import GpuProxy.Rpc

/-!
# Whole calls, one after another

With no other call around and no storage failure, a request turns one server
into the next. Each kind of request is described by what it leaves in the two
stores.
-/

namespace GpuProxy

namespace Serial

variable (env : Extern)

/-- A request served alone. One that panics before it gets to a storage call does nothing. -/
def call (now : Int) (req : Request) (s : Server) : Option Answer × Server :=
  match req.handler env with
  | some h =>
    let r := Program.exec (Server.serial now) h.run s
    (some r.1, r.2)
  | none => (none, s)

section
variable {env} {now : Int} {s : Server} {req : Request} {α β : Type}

/-- What a handler goes on to return does not touch the stores. -/
theorem exec_bind_pure (h : Handler α) (f : α → β) :
    (Program.exec (Server.serial now) (do return f (← h) : Handler β).run s).2 =
      (Program.exec (Server.serial now) h.run s).2 := by
  change (Program.exec (Server.serial now) (h.run >>= ExceptT.bindCont fun a => pure (f a)) s).2 = _
  rw [Program.exec_bind]
  cases (Program.exec (Server.serial now) h.run s).1 <;> rfl

/-- A submission leaves its resource stored and its task in the table, as they
were if they were there. -/
structure Submitted (now : Int) (entry : Rpc.Entry) (s t : Server) : Prop where
  content : ∀ k, t.resources.content k =
    if k = entry.resourceId then some ((s.resources.content k).getD entry.bytes)
    else s.resources.content k
  tasks : ∀ k, t.tasks.find k =
    match s.tasks.find k with
    | some row => some row
    | none =>
      if k = entry.taskId then
        some (DbOps.newTask now k entry.miner entry.taskType entry.resourceId entry.comment)
      else none

theorem exec_hasTask (now : Int) (entry : Rpc.Entry) (s : Server) :
    (Program.exec (Server.serial now) (.call (.hasTask entry.taskId) (Rpc.afterHasTask entry))
      s).2.resources = s.resources ∧
    ∀ k, (Program.exec (Server.serial now) (.call (.hasTask entry.taskId) (Rpc.afterHasTask entry))
      s).2.tasks.find k =
      match s.tasks.find k with
      | some row => some row
      | none =>
        if k = entry.taskId then
          some (DbOps.newTask now k entry.miner entry.taskType entry.resourceId entry.comment)
        else none := by
  have asked : Server.serial now (.hasTask entry.taskId) s =
      (.ok (DbOps.hasTask entry.taskId s.tasks), s) := rfl
  rw [Program.exec_call, asked]
  cases hf : s.tasks.find entry.taskId with
  | some t =>
    rw [DbOps.hasTask_iff.mpr ⟨t, hf⟩]
    refine ⟨rfl, fun k => ?_⟩
    simp only [Rpc.afterHasTask, Program.exec_ret]
    cases hk : s.tasks.find k with
    | some row => rfl
    | none =>
      have hne : k ≠ entry.taskId := by
        rintro rfl
        rw [hf] at hk
        cases hk
      simp [hne]
  | none =>
    rw [DbOps.hasTask_false.mpr hf]
    obtain ⟨tasks, ha, hk⟩ := DbOps.addTask_absent now entry.miner entry.taskType entry.resourceId
      entry.comment hf
    have added : Server.serial now (.addTask entry.taskId entry.miner entry.taskType
        entry.resourceId entry.comment) s = (.ok entry.taskId, { s with tasks := tasks }) := by
      simp only [Server.serial, Server.perform, ha]
    simp only [Rpc.afterHasTask, Program.exec_call, added, Rpc.afterAddTask, Program.exec_ret, hk]
    refine ⟨trivial, fun k => ?_⟩
    by_cases hkt : k = entry.taskId
    · subst hkt
      simp [hf]
    · simp only [if_neg hkt]
      cases s.tasks.find k <;> rfl

theorem exec_hasResource (now : Int) (entry : Rpc.Entry) (s : Server) :
    Submitted now entry s (Program.exec (Server.serial now)
      (.call (.hasResource entry.resourceId) (Rpc.afterHasResource entry)) s).2 := by
  have checked : Server.serial now (.hasResource entry.resourceId) s =
      (.ok (s.resources.hasResource entry.resourceId), s) := rfl
  rw [Program.exec_call, checked]
  cases hc : s.resources.content entry.resourceId with
  | some data =>
    rw [ResourceStore.hasResource_iff.mpr ⟨data, hc⟩]
    obtain ⟨resources, tasks⟩ := exec_hasTask now entry s
    refine ⟨fun k => ?_, tasks⟩
    simp only [Rpc.afterHasResource, resources]
    split
    · next hk => simp [hk, hc]
    · rfl
  | none =>
    have absent : s.resources.hasResource entry.resourceId = false := by
      simp [ResourceStore.hasResource, hc]
    obtain ⟨r, store, hs⟩ : ∃ r store,
        s.resources.storeResourceInfo now entry.resourceId entry.bytes = (r, store) := ⟨_, _, rfl⟩
    cases r with
    | error e =>
      obtain ⟨-, data, hd⟩ := ResourceStore.storeResourceInfo_error hs
      rw [hc] at hd
      cases hd
    | ok id =>
      have stored : Server.serial now (.storeResourceInfo entry.resourceId entry.bytes) s =
          (.ok id, { s with resources := store }) := by
        simp only [Server.serial, Server.perform, hs]
      rw [absent]
      simp only [Rpc.afterHasResource, Program.exec_call, stored, Rpc.afterStoreResourceInfo]
      obtain ⟨resources, tasks⟩ := exec_hasTask now entry { s with resources := store }
      refine ⟨fun k => ?_, tasks⟩
      rw [Program.exec_call] at resources
      rw [resources, ResourceStore.storeResourceInfo_ok hs]
      split
      · next hk => simp [hk, hc]
      · rfl

theorem exec_addTaskInner (addr : Address) (taskType : TaskType) (bytes : Bytes)
    (comment : String) :
    Submitted now (.of env addr comment taskType bytes) s
      (Program.exec (Server.serial now) (Rpc.addTaskInner env addr comment taskType bytes).run s).2 := by
  rw [Rpc.addTaskInner_eq]
  exact exec_hasResource now _ s

/-! ## What each request leaves -/

theorem call_checked {h : Handler String} (checked : Rpc.Checked env req h)
    (handler : req.handler env = some do return .taskId (← h)) :
    (call env now req s).2 = s ∨ ∃ addr taskType bytes comment,
      req.Submits env addr taskType bytes ∧
        Submitted now (.of env addr comment taskType bytes) s (call env now req s).2 := by
  simp only [call, handler, exec_bind_pure]
  rcases checked with ⟨e, rfl⟩ | ⟨addr, comment, taskType, bytes, hs, rfl⟩
  · exact Or.inl rfl
  · exact Or.inr ⟨addr, taskType, bytes, comment, hs, exec_addTaskInner addr taskType bytes comment⟩

theorem call_submission (env : Extern) (now : Int) (s : Server)
    (submission : (∃ p m c v i, req = .submitC2Task p m c v i) ∨
      ∃ m c y p, req = .addTask m c y p) :
    (call env now req s).2 = s ∨ ∃ addr taskType bytes comment,
      req.Submits env addr taskType bytes ∧
        Submitted now (.of env addr comment taskType bytes) s (call env now req s).2 := by
  have panics (unreached : req.handler env = none) : (call env now req s).2 = s := by
    simp only [call, unreached]
  cases handler : req.handler env with
  | none => exact Or.inl (panics handler)
  | some h =>
    rcases submission with ⟨p, m, c, v, i, rfl⟩ | ⟨m, c, y, p, rfl⟩
    · obtain ⟨bytes, decodes, rfl⟩ := Option.map_eq_some_iff.mp handler
      exact call_checked (Rpc.submitC2Task_checked (Option.filter_eq_some_iff.mp decodes).1) handler
    · obtain ⟨bytes, decodes, rfl⟩ := Option.map_eq_some_iff.mp handler
      exact call_checked (Rpc.addTask_checked (Option.filter_eq_some_iff.mp decodes).1) handler

theorem call_fetchTodo {w : String} {types : Option (List TaskType)} :
    (call env now (.fetchTodo w types) s).2 = (Server.serial now (.fetchOneTodo w types) s).2 := by
  simp only [call, Request.handler, exec_bind_pure]
  rfl

theorem call_recordError {w tid msg : String} :
    (call env now (.recordError w tid msg) s).2 =
      { s with tasks := DbOps.recordError w tid msg s.tasks } := rfl

theorem call_updateStatusById {tids : List String} {state : TaskState} :
    (call env now (.updateStatusById tids state) s).2 =
      { s with tasks := DbOps.updateStatusById tids state s.tasks } := rfl

theorem call_recordProof {w tid text : String} {proof : Bytes}
    (decodes : Base64.decode text = some proof) :
    (call env now (.recordProof w tid text) s).2 =
      match s.tasks.find tid with
      | some row =>
        ⟨DbOps.recordProof now w tid proof s.tasks, (s.resources.deleteResource row.resourceId).2⟩
      | none => s := by
  have handled : (call env now (.recordProof w tid text) s).2 =
      (Program.exec (Server.serial now) (Rpc.recordProof w tid proof).run s).2 := by
    simp only [call, Request.handler, decodes, Option.map_some]
    exact exec_bind_pure (Rpc.recordProof w tid proof) fun _ => Reply.done
  rw [handled]
  cases hf : s.tasks.find tid with
  | none =>
    have fetched : Server.serial now (.fetch tid) s = (.error ("not found " ++ tid), s) := by
      simp [Server.serial, Server.perform, DbOps.fetch, hf, ifNotFound]
    change (Program.exec _ (.call (Op.fetch tid) _) s).2 = _
    rw [Program.exec_call, fetched]
    rfl
  | some row =>
    have fetched : Server.serial now (.fetch tid) s = (.ok row, s) := by
      simp [Server.serial, Server.perform, DbOps.fetch, hf, ifNotFound]
    change (Program.exec _ (.call (Op.fetch tid) _) s).2 = _
    rw [Program.exec_call, fetched]
    rfl

theorem call_recordProof_none {w tid text : String} (malformed : Base64.decode text = none) :
    (call env now (.recordProof w tid text) s).2 = s := by
  simp [call, Request.handler, malformed]

theorem call_getTask {id : String} : (call env now (.getTask id) s).2 = s := by
  simp only [call, Request.handler, exec_bind_pure]
  rfl

theorem call_fetchUncompleted {w : String} : (call env now (.fetchUncompleted w) s).2 = s := by
  simp only [call, Request.handler, exec_bind_pure]
  rfl

theorem call_getResourceInfo {rid : String} : (call env now (.getResourceInfo rid) s).2 = s := by
  simp only [call, Request.handler, exec_bind_pure]
  rfl

/-- An `add_task` call as a client sends it, with parameters that pass the checks. -/
theorem call_addTask {miner comment : String} {addr : Address} {taskType : TaskType} {bytes : Bytes}
    {resource : C2Resource env} (parses : env.addressFromStr miner = .ok addr)
    (decodes : C2Resource.fromSlice env bytes = .ok resource) :
    (call env now (.addTask miner comment taskType (Base64.encode bytes)) s).2 =
      (Program.exec (Server.serial now)
        (.call (.hasResource (Rpc.Entry.of env addr comment taskType bytes).resourceId)
          (Rpc.afterHasResource (.of env addr comment taskType bytes))) s).2 := by
  simp only [call, Request.handler_addTask_encode (Extern.addressPanics_of_ok parses),
    exec_bind_pure, Rpc.addTask_passes parses decodes, Rpc.addTaskInner_eq]

end

theorem demo_call_1000 (comment : String) (now : Int) (s : Server) :
    (call Demo.env now (.addTask "t01000" comment .c2 (Base64.encode (asBytes Demo.text))) s).2 =
      (Program.exec (Server.serial now) (.call (.hasResource Demo.resourceId)
        (Rpc.afterHasResource (Demo.entry "01000" comment))) s).2 := by
  have parses : Demo.env.addressFromStr "t01000" = .ok (.id 1000) := rfl
  rw [call_addTask parses Demo.fromSlice_text, Demo.entry_1000]
  rfl

theorem demo_call_1001 (comment : String) (now : Int) (s : Server) :
    (call Demo.env now (.addTask "t01001" comment .c2 (Base64.encode (asBytes Demo.text))) s).2 =
      (Program.exec (Server.serial now) (.call (.hasResource Demo.resourceId)
        (Rpc.afterHasResource (Demo.entry "01001" comment))) s).2 := by
  have parses : Demo.env.addressFromStr "t01001" = .ok (.id 1001) := rfl
  rw [call_addTask parses Demo.fromSlice_text, Demo.entry_1001]
  rfl

end Serial

end GpuProxy
