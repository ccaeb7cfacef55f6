import GpuProxy.Serial

/-!
# Storage comes back

`record_proof` deletes the resource of the task it completes, and nothing else
ever deletes one. `add_task_inner` stores a resource before it looks for the
task, so a task that is done may get its input stored once more.
-/

namespace GpuProxy

namespace Rpc

variable {env : Extern} {addr : Address} {taskType : TaskType} {bytes : Bytes}

/-- A submission that passes its checks runs `add_task_inner`. -/
theorem submits_handler {req : Request} (submits : req.Submits env addr taskType bytes) :
    ∃ comment, req.handler env =
      some do return .taskId (← addTaskInner env addr comment taskType bytes) := by
  cases req with
  | submitC2Task text miner comment proverId sectorId =>
    obtain ⟨rfl, parses, input, json, scp1o, decodes, document, c1, rfl⟩ := submits
    have calm : submitC2TaskPanics env input miner = false := by
      simp [submitC2TaskPanics, Extern.addressPanics_of_ok parses]
    refine ⟨comment, ?_⟩
    simp only [Request.handler, decodes, Option.filter_some, calm, Bool.not_false, ↓reduceIte,
      Option.map_some, submitC2Task, document, c1, parses, checkParams_ok_bind]
  | addTask miner comment ty param =>
    obtain ⟨rfl, parses, decodes, resource, passes⟩ := submits
    refine ⟨comment, ?_⟩
    simp only [Request.handler, decodes, Option.filter_some, Extern.addressPanics_of_ok parses,
      Bool.not_false, ↓reduceIte, Option.map_some, addTask_passes parses passes]
  | _ => cases submits

end Rpc

namespace Serial

variable {env : Extern} {now : Int} {s t : Server} {req : Request} {rid : String}

theorem call_submits {addr : Address} {taskType : TaskType} {bytes : Bytes} (now : Int) (s : Server)
    (submits : req.Submits env addr taskType bytes) :
    ∃ comment, Submitted now (.of env addr comment taskType bytes) s (call env now req s).2 := by
  obtain ⟨comment, handler⟩ := Rpc.submits_handler submits
  refine ⟨comment, ?_⟩
  simp only [call, handler, exec_bind_pure]
  exact exec_addTaskInner addr taskType bytes comment

/-- The calls of a task's life: all but the status updates. -/
def ofLife : Request → Bool
  | .updateStatusById _ _ => false
  | _ => true

/-- One of these calls, answered with `Ok`. -/
def lifeStep (env : Extern) (s : Server) (a : Int × Request) : Option Server :=
  match (call env a.1 a.2 s).1 with
  | some (.ok _) => if ofLife a.2 then some (call env a.1 a.2 s).2 else none
  | _ => none

/-- A task that is not completed has the resource. -/
def InUse (rid : String) (s : Server) : Prop :=
  ∃ tid row, s.tasks.find tid = some row ∧ row.resourceId = rid ∧ row.state ≠ .completed

def Reclaimed (s : Server) : Prop :=
  ∀ rid data, s.resources.content rid = some data → InUse rid s

/-- A submission stores a resource only for a task it adds, or one that is not done. -/
def Needed (env : Extern) (s : Server) (req : Request) : Prop :=
  ∀ addr taskType bytes, req.Submits env addr taskType bytes →
    s.resources.content (genResourceId env bytes) = none →
    s.tasks.find (genTaskId env addr taskType bytes) ≠ none →
    InUse (genResourceId env bytes) s

/-- Rows that stay undone on their resource. -/
theorem InUse.mono (rows : ∀ k row, s.tasks.find k = some row → row.resourceId = rid →
      row.state ≠ .completed →
      ∃ row', t.tasks.find k = some row' ∧ row'.resourceId = rid ∧ row'.state ≠ .completed)
    (used : InUse rid s) : InUse rid t := by
  obtain ⟨tid, row, found, same, undone⟩ := used
  obtain ⟨row', found', same', undone'⟩ := rows tid row found same undone
  exact ⟨tid, row', found', same', undone'⟩

theorem submitted_inUse {entry : Rpc.Entry} (submitted : Submitted now entry s t)
    (used : InUse rid s) : InUse rid t := by
  apply used.mono
  intro k row found same undone
  refine ⟨row, ?_, same, undone⟩
  rw [submitted.tasks, found]

/-- A row of the new state that is not of the old one is the submitted task's. -/
theorem submitted_origin {entry : Rpc.Entry} (submitted : Submitted now entry s t)
    (there : s.tasks.find entry.taskId ≠ none) (used : InUse rid t) : InUse rid s := by
  apply used.mono
  intro k row found same undone
  refine ⟨row, ?_, same, undone⟩
  rw [submitted.tasks] at found
  cases old : s.tasks.find k with
  | some before =>
    rw [old] at found
    exact found
  | none =>
    simp only [old] at found
    split at found
    · next new =>
      rw [new] at old
      exact absurd old there
    · cases found

theorem submitted_reclaimed {addr : Address} {comment : String} {taskType : TaskType} {bytes : Bytes}
    (reclaimed : Reclaimed s) (submitted : Submitted now (.of env addr comment taskType bytes) s t)
    (needed : s.resources.content (genResourceId env bytes) = none →
      s.tasks.find (genTaskId env addr taskType bytes) ≠ none → InUse (genResourceId env bytes) s) :
    Reclaimed t := by
  intro rid data stored
  rw [submitted.content] at stored
  split at stored
  · next same =>
    subst same
    cases held : s.resources.content (genResourceId env bytes) with
    | some old => exact submitted_inUse submitted (reclaimed _ old held)
    | none =>
      cases found : s.tasks.find (genTaskId env addr taskType bytes) with
      | some row => exact submitted_inUse submitted (needed held (by simp [found]))
      | none =>
        have added : t.tasks.find (genTaskId env addr taskType bytes) =
            some (DbOps.newTask now (genTaskId env addr taskType bytes) (Rpc.noprefixMiner env addr)
              taskType (genResourceId env bytes) comment) := by
          rw [submitted.tasks, found]
          exact if_pos rfl
        exact ⟨_, _, added, rfl, by simp [DbOps.newTask]⟩
  · exact submitted_inUse submitted (reclaimed rid data stored)

theorem recordProof_reclaimed {w tid text : String} (reclaimed : Reclaimed s) :
    Reclaimed (call env now (.recordProof w tid text) s).2 := by
  cases decodes : Base64.decode text with
  | none => rwa [call_recordProof_none decodes]
  | some proof =>
    rw [call_recordProof decodes]
    cases found : s.tasks.find tid with
    | none => exact reclaimed
    | some row =>
      intro rid data stored
      simp only [ResourceStore.content_deleteResource] at stored
      split at stored
      · cases stored
      · next other =>
        apply (reclaimed rid data stored).mono
        intro k row' found' same undone
        have elsewhere : k ≠ tid := by
          intro eq
          subst eq
          rw [found] at found'
          cases found'
          exact other same.symm
        exact ⟨row', by simp [DbOps.find_recordProof, found', elsewhere], same, undone⟩

/-- A storage call that completes no task and touches no resource. -/
theorem serial_reclaimed {op : Op} (reclaimed : Reclaimed s)
    (resources : (Server.serial now op s).2.resources = s.resources)
    (undone : ∀ res row, row.state ≠ .completed →
      (Server.Writes now op res row).resourceId = row.resourceId ∧
        (Server.Writes now op res row).state ≠ .completed) :
    Reclaimed (Server.serial now op s).2 := by
  intro rid data stored
  rw [resources] at stored
  apply (reclaimed rid data stored).mono
  intro k row found same open'
  obtain ⟨same', open''⟩ := undone (Server.serial now op s).1 row open'
  refine ⟨_, Server.act_find_some ⟨now, none, s.selects op⟩ op found, ?_, open''⟩
  rw [← same]
  exact same'

theorem step_reclaimed_iff (reclaimed : Reclaimed s) {a : Int × Request}
    (h : lifeStep env s a = some t) : Reclaimed t ↔ Needed env s a.2 := by
  obtain ⟨now, req⟩ := a
  simp only [lifeStep] at h
  split at h
  · split at h
    · next life =>
      cases h
      constructor
      · intro after addr taskType bytes submits absent there
        obtain ⟨comment, submitted⟩ := call_submits now s submits
        apply submitted_origin submitted there
        apply after _ bytes
        rw [submitted.content]
        simp [Rpc.Entry.of, absent]
      · intro needed
        by_cases submits : ∃ addr taskType bytes, req.Submits env addr taskType bytes
        · obtain ⟨addr, taskType, bytes, submits⟩ := submits
          obtain ⟨comment, submitted⟩ := call_submits now s submits
          exact submitted_reclaimed reclaimed submitted (needed addr taskType bytes submits)
        · cases req with
          | submitC2Task p m c v i =>
            rcases call_submission env now s (Or.inl ⟨p, m, c, v, i, rfl⟩) with
              same | ⟨addr, taskType, bytes, -, passes, -⟩
            · rwa [same]
            · exact absurd ⟨addr, taskType, bytes, passes⟩ submits
          | addTask m c y p =>
            rcases call_submission env now s (Or.inr ⟨m, c, y, p, rfl⟩) with
              same | ⟨addr, taskType, bytes, -, passes, -⟩
            · rwa [same]
            · exact absurd ⟨addr, taskType, bytes, passes⟩ submits
          | getTask id => rwa [call_getTask]
          | fetchTodo w types =>
            rw [call_fetchTodo]
            apply serial_reclaimed reclaimed rfl
            intro res row undone
            cases res with
            | error e => exact ⟨rfl, undone⟩
            | ok task =>
              simp only [Server.Writes]
              split
              · exact ⟨rfl, by simp [DbOps.setRunning]⟩
              · exact ⟨rfl, undone⟩
          | fetchUncompleted w => rwa [call_fetchUncompleted]
          | getResourceInfo rid => rwa [call_getResourceInfo]
          | recordProof w tid text => exact recordProof_reclaimed reclaimed
          | recordError w tid msg =>
            have alone : (call env now (.recordError w tid msg) s).2 =
                (Server.serial now (.recordError w tid msg) s).2 := call_recordError
            rw [alone]
            apply serial_reclaimed reclaimed rfl
            intro res row undone
            cases res with
            | error e => exact ⟨rfl, undone⟩
            | ok u =>
              simp only [Server.Writes]
              split
              · exact ⟨rfl, by simp [DbOps.setError]⟩
              · exact ⟨rfl, undone⟩
          | updateStatusById tids state => cases life
    · cases h
  · cases h

/-- Every resource is some undone task's in every state exactly if no submission
stores one again for a task that is done. -/
theorem reclaimed_iff_needed {resources : ResourceStore} {as : List (Int × Request)} {t : Server}
    (nothing : ∀ rid, resources.content rid = none)
    (run : Runs.run (lifeStep env) (Server.empty resources) as = some t) :
    Runs.Always (lifeStep env) Reclaimed (Server.empty resources) as ↔
      Runs.Along (lifeStep env) (fun s a => Needed env s a.2) (Server.empty resources) as := by
  apply Runs.always_iff_along run
  · intro rid data stored
    cases (nothing rid).symm.trans stored
  · intro u a v reclaimed h
    exact step_reclaimed_iff reclaimed h

/-- One sector submitted, computed and recorded. -/
def oneSector : List (Int × Request) :=
  [(1, .addTask "t01000" "1 MinerId(1000)" .c2 (Base64.encode (asBytes Demo.text))),
    (2, .fetchTodo "w1" none),
    (3, .recordProof "w1" "48bb11f3-3f83-5d9f-ad3c-edd0b5481a6f" "AQ==")]

/-- The same sector submitted once more. -/
def resubmitted : List (Int × Request) :=
  oneSector ++ [(4, .addTask "t01000" "1 MinerId(1000)" .c2 (Base64.encode (asBytes Demo.text)))]

theorem reclaimed_iff_needed_demo :
    ∃ t, Runs.run (lifeStep Demo.env) (Server.empty (.db Table.empty)) oneSector = some t ∧
      (Runs.Always (lifeStep Demo.env) Reclaimed (Server.empty (.db Table.empty)) oneSector ↔
        Runs.Along (lifeStep Demo.env) (fun s a => Needed Demo.env s a.2)
          (Server.empty (.db Table.empty)) oneSector) := by
  have ran : (Runs.run (lifeStep Demo.env) (Server.empty (.db Table.empty)) oneSector).isSome := by
    decide +kernel
  obtain ⟨t, run⟩ := Option.isSome_iff_exists.mp ran
  exact ⟨t, run, reclaimed_iff_needed (fun _ => rfl) run⟩

/-- The resource is stored again, and its only task is completed. -/
theorem resubmission_leaks_resource :
    ∃ t, Runs.run (lifeStep Demo.env) (Server.empty (.db Table.empty)) resubmitted = some t ∧
      ¬ Reclaimed t := by
  have ran : ((Runs.run (lifeStep Demo.env) (Server.empty (.db Table.empty)) resubmitted).map fun t =>
      (t.resources.hasResource Demo.resourceId, t.tasks.rows.all fun row =>
        decide (row.state = .completed))) = some (true, true) := by
    decide +kernel
  obtain ⟨t, run, ht⟩ := Option.map_eq_some_iff.mp ran
  simp only [Prod.mk.injEq, List.all_eq_true, decide_eq_true_eq] at ht
  obtain ⟨stored, done⟩ := ht
  refine ⟨t, run, ?_⟩
  intro reclaimed
  obtain ⟨data, held⟩ := ResourceStore.hasResource_iff.mp stored
  obtain ⟨tid, row, found, -, undone⟩ := reclaimed _ data held
  exact undone (done row (Table.find_some.mp found).1)

end Serial

end GpuProxy
