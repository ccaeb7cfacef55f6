import GpuProxy.Worker

/-!
# The sealing plugin

`process_request` looks its task up, adds it or resets it, and then polls until
the task has failed or has a proof.
-/

namespace GpuProxy

inductive ProcessRequest.Phase where
  | connecting
  | checking (call : Nat)
  | resetting (call : Nat)
  | adding (call : Nat)
  /-- Between two polls of `trace_task_result`. -/
  | sleeping
  | polling (call : Nat)
  | done (result : Except String Bytes)
  deriving DecidableEq, Repr

/-- One run of `process_request`. -/
structure ProcessRequest (env : Extern) where
  input : C2Input env
  phase : ProcessRequest.Phase

namespace ProcessRequest

variable {env : Extern}

inductive Event where
  /-- `get_proxy_api` has built the client, or could not. -/
  | connected
  | refused
  /-- The call it waits for ends. -/
  | ends (d : Delivery)
  | wake
  deriving DecidableEq, Repr

def start (input : C2Input env) : ProcessRequest env := ⟨input, .connecting⟩

def minerAddr (self : ProcessRequest env) : Address := .id self.input.minerId

def taskId (self : ProcessRequest env) : String := genTaskId env self.minerAddr .c2 self.input.toVec

/-- The call whose end it waits for. -/
def awaits (self : ProcessRequest env) : Option Nat :=
  match self.phase with
  | .checking call | .resetting call | .adding call | .polling call => some call
  | _ => none

def addRequest (self : ProcessRequest env) : Request :=
  .addTask (env.addressToString self.minerAddr)
    (env.sectorIdToString self.input.sectorId ++ " MinerId(" ++ toString self.input.minerId.toNat ++
      ")")
    .c2 (Base64.encode self.input.toVec)

def resetRequest (self : ProcessRequest env) : Request := .updateStatusById [self.taskId] .init

/-- The error `trace_task_result` reports for a failed task. -/
def failure (self : ProcessRequest env) (errorMsg : String) : String :=
  "task " ++ self.taskId ++ " sector " ++ env.sectorIdToString self.input.sectorId ++
    " error reason:" ++ errorMsg

/-- One action, with the request it sends. That request will be call `fresh`. -/
def step (answer : Nat → Option Answer) (fresh : Nat) (self : ProcessRequest env) (ev : Event) :
    Option (ProcessRequest env × Option Request) :=
  match self.phase, ev with
  | .connecting, .connected =>
    some ({ self with phase := .checking fresh }, some (.getTask self.taskId))
  | .connecting, .refused =>
    some ({ self with phase := .done (.error "connect gpu proxy url") }, none)
  | .checking call, .ends d =>
    (d.result (answer call)).map fun r =>
      match r.bind Reply.toTask with
      | .ok task =>
        if task.state = .error then
          ({ self with phase := .resetting fresh }, some self.resetRequest)
        else ({ self with phase := .sleeping }, none)
      | .error e =>
        if contains e "not found" then
          ({ self with phase := .adding fresh }, some self.addRequest)
        else ({ self with phase := .done (.error e) }, none)
  | .resetting call, .ends d =>
    (d.result (answer call)).map fun r =>
      match r with
      | .ok _ => ({ self with phase := .sleeping }, none)
      | .error e => ({ self with phase := .done (.error e) }, none)
  | .adding call, .ends d =>
    (d.result (answer call)).map fun r =>
      match r with
      | .ok _ => ({ self with phase := .sleeping }, none)
      | .error _ => ({ self with phase := .done (.error "add task") }, none)
  | .sleeping, .wake => some ({ self with phase := .polling fresh }, some (.getTask self.taskId))
  | .polling call, .ends d =>
    (d.result (answer call)).map fun r =>
      match r.bind Reply.toTask with
      | .ok task =>
        match task.state with
        | .error => ({ self with phase := .done (.error (self.failure task.errorMsg)) }, none)
        | .completed => ({ self with phase := .done (.ok task.proof) }, none)
        | _ => ({ self with phase := .sleeping }, none)
      | .error _ => ({ self with phase := .sleeping }, none)
  | _, _ => none

/-- Everything a step can do. -/
inductive Step (answer : Nat → Option Answer) (fresh : Nat) (self : ProcessRequest env) :
    Event → ProcessRequest env → Option Request → Prop where
  | check (phase : self.phase = .connecting) :
      Step answer fresh self .connected { self with phase := .checking fresh }
        (some (.getTask self.taskId))
  | reset {call task} (phase : self.phase = .checking call)
      (answered : answer call = some (.ok (.task task))) (failed : task.state = .error) :
      Step answer fresh self (.ends .answered) { self with phase := .resetting fresh }
        (some self.resetRequest)
  | add {call d r e} (phase : self.phase = .checking call) (ends : d.result (answer call) = some r)
      (reply : r.bind Reply.toTask = .error e) (absent : contains e "not found") :
      Step answer fresh self (.ends d) { self with phase := .adding fresh } (some self.addRequest)
  /-- The task is there, and has not failed. -/
  | found {call task} (phase : self.phase = .checking call)
      (answered : answer call = some (.ok (.task task))) (unfailed : task.state ≠ .error) :
      Step answer fresh self (.ends .answered) { self with phase := .sleeping } none
  /-- The reset or the submission is answered. -/
  | ready {call r} (phase : self.phase = .resetting call ∨ self.phase = .adding call)
      (answered : answer call = some (.ok r)) :
      Step answer fresh self (.ends .answered) { self with phase := .sleeping } none
  /-- It ends before it has come to `trace_task_result`. -/
  | giveUp {ev e} (phase : self.phase ≠ .sleeping ∧ ∀ call, self.phase ≠ .polling call) :
      Step answer fresh self ev { self with phase := .done (.error e) } none
  | poll (phase : self.phase = .sleeping) :
      Step answer fresh self .wake { self with phase := .polling fresh }
        (some (.getTask self.taskId))
  | proved {call task} (phase : self.phase = .polling call)
      (answered : answer call = some (.ok (.task task))) (completed : task.state = .completed) :
      Step answer fresh self (.ends .answered) { self with phase := .done (.ok task.proof) } none
  | failed {call task} (phase : self.phase = .polling call)
      (answered : answer call = some (.ok (.task task))) (failed : task.state = .error) :
      Step answer fresh self (.ends .answered)
        { self with phase := .done (.error (self.failure task.errorMsg)) } none
  /-- The poll has failed, or shows a task that is not finished. -/
  | again {call d} (phase : self.phase = .polling call) :
      Step answer fresh self (.ends d) { self with phase := .sleeping } none

variable {answer : Nat → Option Answer} {fresh : Nat} {self self' : ProcessRequest env}
  {sent : Option Request} {ev : Event} {d : Delivery} {call : Nat}

theorem answered_task {r : Except String Reply} {t : Task}
    (ends : d.result (answer call) = some r) (reply : r.bind Reply.toTask = .ok t) :
    d = .answered ∧ answer call = some (.ok (.task t)) := by
  cases r with
  | error e => cases reply
  | ok r =>
    obtain ⟨rfl, ha⟩ := LocalWorker.result_answered ends
    cases LocalWorker.toTask_ok reply
    exact ⟨rfl, ha⟩

theorem step_cases (h : self.step answer fresh ev = some (self', sent)) :
    Step answer fresh self ev self' sent := by
  simp only [step] at h
  split at h
  · next phase =>
    cases h
    exact .check phase
  · next phase =>
    cases h
    exact .giveUp (by simp [phase])
  · next call d phase =>
    obtain ⟨r, ends, he⟩ := Option.map_eq_some_iff.mp h
    split at he
    · next task reply =>
      obtain ⟨rfl, ha⟩ := answered_task ends reply
      split at he
      · next failed =>
        cases he
        exact .reset phase ha failed
      · next unfailed =>
        cases he
        exact .found phase ha unfailed
    · next e reply =>
      split at he
      · next absent =>
        cases he
        exact .add phase ends reply absent
      · cases he
        exact .giveUp (by simp [phase])
  · next call d phase =>
    obtain ⟨r, ends, he⟩ := Option.map_eq_some_iff.mp h
    cases r with
    | ok r =>
      cases he
      obtain ⟨rfl, answered⟩ := LocalWorker.result_answered ends
      exact .ready (.inl phase) answered
    | error e =>
      cases he
      exact .giveUp (by simp [phase])
  · next call d phase =>
    obtain ⟨r, ends, he⟩ := Option.map_eq_some_iff.mp h
    cases r with
    | ok r =>
      cases he
      obtain ⟨rfl, answered⟩ := LocalWorker.result_answered ends
      exact .ready (.inr phase) answered
    | error e =>
      cases he
      exact .giveUp (by simp [phase])
  · next phase =>
    cases h
    exact .poll phase
  · next call d phase =>
    obtain ⟨r, ends, he⟩ := Option.map_eq_some_iff.mp h
    split at he
    · next task reply =>
      obtain ⟨rfl, ha⟩ := answered_task ends reply
      split at he
      · next failed =>
        cases he
        exact .failed phase ha failed
      · next completed =>
        cases he
        exact .proved phase ha completed
      · cases he
        exact .again phase
    · cases he
      exact .again phase
  · cases h

theorem Step.input_eq (h : Step answer fresh self ev self' sent) : self'.input = self.input := by
  cases h <;> rfl

theorem Step.taskId_eq (h : Step answer fresh self ev self' sent) : self'.taskId = self.taskId := by
  simp only [taskId, minerAddr, h.input_eq]

/-- The calls whose answers it reads are about its own task. -/
structure Waits (run : ProcessRequest env) (requested : Nat → Request → Prop) : Prop where
  checking : ∀ call, run.phase = .checking call → requested call (.getTask run.taskId)
  polling : ∀ call, run.phase = .polling call → requested call (.getTask run.taskId)

theorem Waits.start {requested : Nat → Request → Prop} {input : C2Input env} :
    (start input).Waits requested :=
  ⟨by rintro c ⟨⟩, by rintro c ⟨⟩⟩

theorem Waits.mono {requested requested' : Nat → Request → Prop} (waits : self.Waits requested)
    (old : ∀ call req, requested call req → requested' call req) : self.Waits requested' :=
  ⟨fun c e => old _ _ (waits.checking c e), fun c e => old _ _ (waits.polling c e)⟩

theorem Waits.step {requested : Nat → Request → Prop} (h : Step answer fresh self ev self' sent)
    (new : ∀ req, sent = some req → requested fresh req) : self'.Waits requested := by
  have same := h.taskId_eq
  cases h with
  | check =>
    refine ⟨?_, by rintro c ⟨⟩⟩
    rintro c ⟨⟩
    exact new _ (by rw [same])
  | poll =>
    refine ⟨by rintro c ⟨⟩, ?_⟩
    rintro c ⟨⟩
    exact new _ (by rw [same])
  | _ => exact ⟨by rintro c ⟨⟩, by rintro c ⟨⟩⟩

end ProcessRequest

end GpuProxy
