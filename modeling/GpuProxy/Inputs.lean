import GpuProxy.Serial

/-!
# Every unfinished task keeps its input

The resource id is made from the parameter bytes alone, so tasks of different
miners can share a resource, and `record_proof` deletes it when the first of
them completes.
-/

namespace GpuProxy

/-- The task has yet to be computed, or may have to be again. -/
def Unfinished (row : Task) : Prop :=
  row.state = .init ∨ row.state = .running ∨ row.state = .error

instance (row : Task) : Decidable (Unfinished row) :=
  inferInstanceAs (Decidable (_ ∨ _ ∨ _))

namespace Serial

variable {env : Extern} {now : Int} {s t : Server} {req : Request}

/-- Records come from the worker the task is assigned to, and only tasks in
state `Error` are reset. -/
def permitted (s : Server) : Request → Bool
  | .recordProof w tid _ | .recordError w tid _ =>
    (s.tasks.find tid).any fun row => decide (row.state = .running) && decide (row.workerId = w)
  | .updateStatusById tids state =>
    decide (state = .init) &&
      tids.all fun tid => (s.tasks.find tid).all fun row => decide (row.state = .error)
  | _ => true

def permittedStep (env : Extern) (s : Server) (a : Int × Request) : Option Server :=
  if permitted s a.2 then some (call env a.1 a.2 s).2 else none

/-- Every unfinished task has its resource stored. -/
def Inputs (s : Server) : Prop :=
  ∀ tid row, s.tasks.find tid = some row → Unfinished row →
    ∃ data, s.resources.content row.resourceId = some data

/-- No other unfinished task has the resource of a task that completes. -/
def Unshared (s : Server) : Request → Prop
  | .recordProof _ tid proof => (∃ bytes, Base64.decode proof = some bytes) →
    ∀ row, s.tasks.find tid = some row → ∀ k other, s.tasks.find k = some other → k ≠ tid →
      Unfinished other → other.resourceId ≠ row.resourceId
  | _ => True

theorem submitted_inputs {entry : Rpc.Entry} (inputs : Inputs s)
    (submitted : Submitted now entry s t) : Inputs t := by
  have kept {k : String} {data : Bytes} (h : s.resources.content k = some data) :
      t.resources.content k = some data := by
    rw [submitted.content, h]
    split <;> rfl
  intro tid row found unfinished
  rw [submitted.tasks] at found
  cases hold : s.tasks.find tid with
  | some old =>
    rw [hold] at found
    cases found
    obtain ⟨data, hd⟩ := inputs tid row hold unfinished
    exact ⟨data, kept hd⟩
  | none =>
    simp only [hold] at found
    split at found
    · cases found
      exact ⟨_, (submitted.content _).trans (if_pos rfl)⟩
    · cases found

/-- A statement that changes neither the resource id of a row nor makes an
unfinished one of another. -/
theorem tasks_inputs {s' : Server} (inputs : Inputs s) (same : s'.resources = s.resources)
    (rows : ∀ k row', s'.tasks.find k = some row' → Unfinished row' → ∃ row,
      s.tasks.find k = some row ∧ Unfinished row ∧ row'.resourceId = row.resourceId) :
    Inputs s' := by
  intro tid row' found unfinished
  obtain ⟨row, hrow, hun, hid⟩ := rows tid row' found unfinished
  rw [same, hid]
  exact inputs tid row hrow hun

theorem fetchTodo_inputs {w : String} {types : Option (List TaskType)} (inputs : Inputs s) :
    Inputs (call env now (.fetchTodo w types) s).2 := by
  rw [call_fetchTodo, Server.serial_eq_act]
  cases hr : (Server.act ⟨now, none, s.selects (.fetchOneTodo w types)⟩ (.fetchOneTodo w types) s).1 with
  | error e => rwa [Server.act_fetchOneTodo_error hr]
  | ok task =>
    obtain ⟨row, found, init, -, htasks⟩ := Server.act_fetchOneTodo_ok hr
    apply tasks_inputs inputs (Server.act_fetchOneTodo_resources ..)
    intro k row' found' unfinished
    rw [htasks, DbOps.find_claim] at found'
    obtain ⟨old, hold, rfl⟩ := Option.map_eq_some_iff.mp found'
    by_cases claimed : k = task.id ∧ old.state = .init
    · exact ⟨old, hold, Or.inl claimed.2, by simp [claimed, DbOps.setRunning]⟩
    · rw [if_neg claimed] at unfinished ⊢
      exact ⟨old, hold, unfinished, rfl⟩

theorem recordError_inputs {w tid msg : String} (inputs : Inputs s)
    (permit : permitted s (.recordError w tid msg) = true) :
    Inputs (call env now (.recordError w tid msg) s).2 := by
  rw [call_recordError]
  refine tasks_inputs inputs rfl fun k row' found' unfinished => ?_
  rw [DbOps.find_recordError] at found'
  obtain ⟨old, hold, rfl⟩ := Option.map_eq_some_iff.mp found'
  by_cases hk : k = tid
  · subst hk
    have running : old.state = .running ∧ old.workerId = w := by simpa [permitted, hold] using permit
    exact ⟨old, hold, Or.inr (Or.inl running.1), by simp [DbOps.setError]⟩
  · rw [if_neg hk] at unfinished ⊢
    exact ⟨old, hold, unfinished, rfl⟩

theorem updateStatusById_inputs {tids : List String} {state : TaskState} (inputs : Inputs s)
    (permit : permitted s (.updateStatusById tids state) = true) :
    Inputs (call env now (.updateStatusById tids state) s).2 := by
  rw [call_updateStatusById]
  simp only [permitted, Bool.and_eq_true, decide_eq_true_eq, List.all_eq_true] at permit
  obtain ⟨rfl, failed⟩ := permit
  refine tasks_inputs inputs rfl fun k row' found' unfinished => ?_
  rw [DbOps.find_updateStatusById] at found'
  obtain ⟨old, hold, rfl⟩ := Option.map_eq_some_iff.mp found'
  by_cases hk : tids.contains k
  · have error : old.state = .error := by simpa [hold] using failed k (by simpa using hk)
    exact ⟨old, hold, Or.inr (Or.inr error), by rw [if_pos hk]; rfl⟩
  · rw [if_neg hk] at unfinished ⊢
    exact ⟨old, hold, unfinished, rfl⟩

/-- Completing a task keeps the inputs of the others exactly where none of them
has its resource. -/
theorem recordProof_inputs_iff {w tid text : String} (inputs : Inputs s)
    (permit : permitted s (.recordProof w tid text) = true) :
    Inputs (call env now (.recordProof w tid text) s).2 ↔ Unshared s (.recordProof w tid text) := by
  cases decodes : Base64.decode text with
  | none =>
    rw [call_recordProof_none decodes]
    exact iff_of_true inputs fun ⟨_, h⟩ => by rw [decodes] at h; cases h
  | some proof =>
    obtain ⟨row, found⟩ : ∃ row, s.tasks.find tid = some row := by
      cases hf : s.tasks.find tid with
      | some row => exact ⟨row, rfl⟩
      | none => simp [permitted, hf] at permit
    simp only [Unshared, decodes, found, Option.some.injEq, exists_eq', forall_const, forall_eq']
    simp only [call_recordProof decodes, found, Inputs, DbOps.find_recordProof,
      ResourceStore.content_deleteResource]
    constructor
    · intro after k other hother hk unfinished same
      obtain ⟨data, hd⟩ := after k other (by simp [hother, hk]) unfinished
      simp [same] at hd
    · intro unshared k row' found' unfinished
      obtain ⟨old, hold, rfl⟩ := Option.map_eq_some_iff.mp found'
      by_cases hk : k = tid
      · rw [if_pos hk] at unfinished
        simp [Unfinished, DbOps.setCompleted] at unfinished
      · rw [if_neg hk] at unfinished ⊢
        rw [if_neg (unshared k old hold hk unfinished)]
        exact inputs k old hold unfinished

theorem step_inputs_iff (inputs : Inputs s) {a : Int × Request}
    (h : permittedStep env s a = some t) : Inputs t ↔ Unshared s a.2 := by
  obtain ⟨now, req⟩ := a
  simp only [permittedStep] at h
  split at h
  · next permit =>
    cases h
    cases req with
    | submitC2Task p m c v i =>
      refine iff_of_true ?_ trivial
      rcases call_submission env now s (Or.inl ⟨p, m, c, v, i, rfl⟩) with
        same | ⟨_, _, _, _, -, submitted⟩
      · rwa [same]
      · exact submitted_inputs inputs submitted
    | addTask m c y p =>
      refine iff_of_true ?_ trivial
      rcases call_submission env now s (Or.inr ⟨m, c, y, p, rfl⟩) with
        same | ⟨_, _, _, _, -, submitted⟩
      · rwa [same]
      · exact submitted_inputs inputs submitted
    | getTask id => exact iff_of_true (by rwa [call_getTask]) trivial
    | fetchTodo w types => exact iff_of_true (fetchTodo_inputs inputs) trivial
    | fetchUncompleted w => exact iff_of_true (by rwa [call_fetchUncompleted]) trivial
    | getResourceInfo rid => exact iff_of_true (by rwa [call_getResourceInfo]) trivial
    | recordProof w tid text => exact recordProof_inputs_iff inputs permit
    | recordError w tid msg => exact iff_of_true (recordError_inputs inputs permit) trivial
    | updateStatusById tids state => exact iff_of_true (updateStatusById_inputs inputs permit) trivial
  · cases h

/-- In a run of whole calls every unfinished task has its input in every state
exactly when each task completes with no other unfinished task on its resource. -/
theorem inputs_iff_unshared {resources : ResourceStore} {as : List (Int × Request)} {t : Server}
    (run : Runs.run (permittedStep env) (Server.empty resources) as = some t) :
    Runs.Always (permittedStep env) Inputs (Server.empty resources) as ↔
      Runs.Along (permittedStep env) (fun s a => Unshared s a.2) (Server.empty resources) as :=
  Runs.always_iff_along run (fun _ _ h => by cases h) fun _ _ _ inputs h => step_inputs_iff inputs h

section Demo

/-- One sector submitted, handed out and completed. -/
def demoRun : List (Int × Request) :=
  [(1, .addTask "t01000" "1 MinerId(1000)" .c2 (Base64.encode (asBytes Demo.text))),
    (2, .fetchTodo "w1" none),
    (3, .recordProof "w1" "48bb11f3-3f83-5d9f-ad3c-edd0b5481a6f" "AQ==")]

theorem inputs_iff_unshared_demo :
    ∃ t, Runs.run (permittedStep Demo.env) (Server.empty (.db Table.empty)) demoRun = some t ∧
      (Runs.Always (permittedStep Demo.env) Inputs (Server.empty (.db Table.empty)) demoRun ↔
        Runs.Along (permittedStep Demo.env) (fun s a => Unshared s a.2)
          (Server.empty (.db Table.empty)) demoRun) := by
  have ran : (Runs.run (permittedStep Demo.env) (Server.empty (.db Table.empty)) demoRun).isSome := by
    simp only [demoRun, Runs.run_cons, permittedStep, permitted, demo_call_1000]
    decide +kernel
  obtain ⟨t, ht⟩ := Option.isSome_iff_exists.mp ran
  exact ⟨t, ht, inputs_iff_unshared ht⟩

/-- Two miners submit the same bytes, one worker has both tasks: completing the
first one leaves the second one running without its input. -/
theorem shared_resource_is_deleted :
    ∃ t, Runs.run (permittedStep Demo.env) (Server.empty (.db Table.empty))
      [(1, .addTask "t01000" "1 MinerId(1000)" .c2 (Base64.encode (asBytes Demo.text))),
        (2, .addTask "t01001" "1 MinerId(1001)" .c2 (Base64.encode (asBytes Demo.text))),
        (3, .fetchTodo "w1" none), (4, .fetchTodo "w1" none),
        (5, .recordProof "w1" "48bb11f3-3f83-5d9f-ad3c-edd0b5481a6f" "AQ==")] = some t ∧
      ¬ Inputs t := by
  have ran : ((Runs.run (permittedStep Demo.env) (Server.empty (.db Table.empty))
      [(1, .addTask "t01000" "1 MinerId(1000)" .c2 (Base64.encode (asBytes Demo.text))),
        (2, .addTask "t01001" "1 MinerId(1001)" .c2 (Base64.encode (asBytes Demo.text))),
        (3, .fetchTodo "w1" none), (4, .fetchTodo "w1" none),
        (5, .recordProof "w1" "48bb11f3-3f83-5d9f-ad3c-edd0b5481a6f" "AQ==")]).bind fun s =>
      (s.tasks.find "87366a6f-5463-5198-811e-9dc28171b74c").map fun row =>
        (row.state, s.resources.hasResource row.resourceId)) = some (.running, false) := by
    simp only [Runs.run_cons, permittedStep, permitted, demo_call_1000, demo_call_1001]
    decide +kernel
  obtain ⟨s, hs, hrow⟩ := Option.bind_eq_some_iff.mp ran
  obtain ⟨row, found, hw⟩ := Option.map_eq_some_iff.mp hrow
  refine ⟨s, hs, fun inputs => ?_⟩
  have running : row.state = .running := congrArg Prod.fst hw
  have absent : s.resources.hasResource row.resourceId = false := congrArg Prod.snd hw
  have stored := ResourceStore.hasResource_iff.mpr (inputs _ row found (Or.inr (Or.inl running)))
  rw [absent] at stored
  cases stored

end Demo

end Serial

end GpuProxy
