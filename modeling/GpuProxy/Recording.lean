import GpuProxy.Inputs

/-!
# Recording a proof

`record_proof` reads the task, updates its row and deletes its resource: three
storage calls with no transaction around them, and any of them may fail.
-/

namespace GpuProxy

namespace Recording

/-- The storage calls of a handler that runs alone, each with a choice of its own. -/
def attempt (op : Op) (s : Server × (Nat → Choice)) : op.Response × Server × (Nat → Choice) :=
  let r := s.1.act (s.2 0) op
  (r.1, r.2, fun n => s.2 (n + 1))

def call (workerId tid : String) (proof : Bytes) (chs : Nat → Choice) (s : Server) :
    Except RpcError Unit × Server :=
  let r := Program.exec attempt (Rpc.recordProof workerId tid proof).run (s, chs)
  (r.1, r.2.1)

/-- An error leaves the row as it was; `Ok` leaves it completed with the proof,
and its resource gone. -/
def AllOrNothing (workerId tid : String) (proof : Bytes) (chs : Nat → Choice) (s : Server) : Prop :=
  match call workerId tid proof chs s with
  | (.error _, s') => s'.tasks.find tid = s.tasks.find tid
  | (.ok _, s') => ∃ row, s'.tasks.find tid = some row ∧ row.state = .completed ∧
      row.proof = proof ∧ s'.resources.content row.resourceId = none

/-- Deleting the resource succeeds: a file has to be there, a row does not. -/
def Deletable (ch : Choice) (rid : String) (resources : ResourceStore) : Prop :=
  ch.fails = none ∧
    match resources with
    | .fs _ files => ∃ bytes, files rid = some bytes
    | .db _ => True

def afterDelete (r : Except String Unit) : Program Op Op.Response (Except RpcError Unit) :=
  .ret (internalCallError r)

def afterRecord (rid : String) : Except String Unit → Program Op Op.Response (Except RpcError Unit)
  | .ok _ => .call (.deleteResource rid) afterDelete
  | .error e => .ret (.error (.failed e))

def afterFetch (workerId tid : String) (proof : Bytes) :
    Except String Task → Program Op Op.Response (Except RpcError Unit)
  | .ok task => .call (.recordProof workerId tid proof) (afterRecord task.resourceId)
  | .error e => .ret (.error (.failed e))

variable {workerId tid rid : String} {proof : Bytes} {chs : Nat → Choice} {ch : Choice} {s : Server}

theorem recordProof_eq : (Rpc.recordProof workerId tid proof).run =
    .call (.fetch tid) (afterFetch workerId tid proof) := by
  apply Program.call_congr
  intro r
  cases r with
  | error e => rfl
  | ok task =>
    apply Program.call_congr
    intro r
    cases r with
    | error e => rfl
    | ok u =>
      apply Program.call_congr
      intro r
      cases r <;> rfl

theorem fetch_missing (ch : Choice) (missing : s.tasks.find tid = none) :
    ∃ e, s.act ch (.fetch tid) = (.error e, s) := by
  cases fails : ch.fails with
  | some e => exact ⟨e, Server.act_fails fails⟩
  | none =>
    rw [Server.act_performs fails]
    simp [Server.perform, DbOps.fetch, missing, ifNotFound]

theorem fetch_found {row : Task} (fails : ch.fails = none) (found : s.tasks.find tid = some row) :
    s.act ch (.fetch tid) = (.ok row, s) := by
  rw [Server.act_performs fails]
  simp [Server.perform, DbOps.fetch, found, ifNotFound]

theorem delete_tasks : (s.act ch (.deleteResource rid)).2.tasks = s.tasks := by
  cases fails : ch.fails with
  | some e => rw [Server.act_fails fails]
  | none =>
    rw [Server.act_performs fails]
    rfl

theorem delete_ok : (s.act ch (.deleteResource rid)).1 = .ok () ↔ Deletable ch rid s.resources := by
  cases fails : ch.fails with
  | some e => simp [Server.act_fails fails, Deletable, fails]
  | none =>
    rw [Server.act_performs fails]
    simp only [Server.perform, Deletable, fails, true_and]
    cases s.resources with
    | db rows => simp [ResourceStore.deleteResource]
    | fs root files =>
      simp only [ResourceStore.deleteResource]
      cases files rid <;> simp

theorem delete_content (deleted : (s.act ch (.deleteResource rid)).1 = .ok ()) :
    (s.act ch (.deleteResource rid)).2.resources.content rid = none := by
  obtain ⟨fails, -⟩ := delete_ok.mp deleted
  rw [Server.act_performs fails]
  simp [Server.perform, ResourceStore.content_deleteResource]

/-- Where the first two calls succeed, the delete decides the answer. -/
theorem call_recorded (workerId : String) (proof : Bytes) {row : Task}
    (found : s.tasks.find tid = some row)
    (fetches : (chs 0).fails = none) (updates : (chs 1).fails = none) :
    ∃ t : Server, t.resources = s.resources ∧
      t.tasks.find tid = some (DbOps.setCompleted (chs 1).now workerId proof row) ∧
      call workerId tid proof chs s =
        (internalCallError (t.act (chs 2) (.deleteResource row.resourceId)).1,
          (t.act (chs 2) (.deleteResource row.resourceId)).2) := by
  refine ⟨(s.act (chs 1) (.recordProof workerId tid proof)).2, ?_, ?_, ?_⟩
  · rw [Server.act_performs updates]
    rfl
  · rw [Server.act_performs updates]
    simp [Server.perform, DbOps.find_recordProof, found]
  · have updated : (s.act (chs 1) (.recordProof workerId tid proof)).1 = .ok () := by
      rw [Server.act_performs updates]
      rfl
    simp only [call, recordProof_eq, Program.exec_call, attempt, fetch_found fetches found,
      afterFetch, updated, afterRecord, afterDelete, Program.exec_ret]

/-- Where one of them fails, nothing has changed. -/
theorem call_unrecorded (workerId : String) (proof : Bytes) (stops : s.tasks.find tid = none ∨ (chs 0).fails ≠ none ∨
    (chs 1).fails ≠ none) : ∃ e, call workerId tid proof chs s = (.error e, s) := by
  have stopped (e : String) (failed : s.act (chs 0) (.fetch tid) = (.error e, s)) :
      call workerId tid proof chs s = (.error (.failed e), s) := by
    simp only [call, recordProof_eq, Program.exec_call, attempt, failed, afterFetch,
      Program.exec_ret]
  cases found : s.tasks.find tid with
  | none =>
    obtain ⟨e, failed⟩ := fetch_missing (chs 0) found
    exact ⟨.failed e, stopped e failed⟩
  | some row =>
    cases fetches : (chs 0).fails with
    | some e => exact ⟨.failed e, stopped e (Server.act_fails fetches)⟩
    | none =>
      cases updates : (chs 1).fails with
      | none => simp [found, fetches, updates] at stops
      | some e =>
        refine ⟨.failed e, ?_⟩
        simp only [call, recordProof_eq, Program.exec_call, attempt, fetch_found fetches found,
          afterFetch, Server.act_fails updates, afterRecord, Program.exec_ret]

/-- `record_proof` is all or nothing exactly where the delete succeeds after an
`UPDATE` that changed the row. -/
theorem allOrNothing_iff (workerId tid : String) (proof : Bytes) (chs : Nat → Choice) (s : Server) :
    AllOrNothing workerId tid proof chs s ↔
      ∀ row, s.tasks.find tid = some row → (chs 0).fails = none → (chs 1).fails = none →
        DbOps.setCompleted (chs 1).now workerId proof row ≠ row →
        Deletable (chs 2) row.resourceId s.resources := by
  by_cases stops : s.tasks.find tid = none ∨ (chs 0).fails ≠ none ∨ (chs 1).fails ≠ none
  · obtain ⟨e, answer⟩ := call_unrecorded workerId proof stops
    simp only [AllOrNothing, answer, true_iff]
    intro row found fetches updates
    simp [found, fetches, updates] at stops
  · simp only [not_or, ne_eq, not_not] at stops
    obtain ⟨there, fetches, updates⟩ := stops
    obtain ⟨row, found⟩ := Option.ne_none_iff_exists'.mp there
    obtain ⟨t, resources, recorded, answer⟩ :=
      call_recorded workerId proof found fetches updates
    simp only [found, Option.some.injEq, forall_eq', fetches, updates, forall_const]
    rw [← resources, ← delete_ok, AllOrNothing, answer]
    cases deleted : (t.act (chs 2) (.deleteResource row.resourceId)).1 with
    | ok u =>
      simp only [internalCallError, Except.mapError, delete_tasks, recorded, Option.some.injEq,
        exists_eq_left', implies_true, iff_true]
      exact ⟨rfl, rfl, delete_content deleted⟩
    | error e =>
      simp only [internalCallError, Except.mapError, delete_tasks, recorded, found,
        Option.some.injEq, reduceCtorEq, imp_false, not_not]

/-- Two miners' tasks share a file. Completing the first deletes it, and completing
the second then fails after its row is updated. -/
def sharedFile : List (Int × Request) :=
  [(1, .addTask "t01000" "1 MinerId(1000)" .c2 (Base64.encode (asBytes Demo.text))),
    (2, .addTask "t01001" "1 MinerId(1001)" .c2 (Base64.encode (asBytes Demo.text))),
    (3, .fetchTodo "w1" none), (4, .fetchTodo "w1" none),
    (5, .recordProof "w1" "48bb11f3-3f83-5d9f-ad3c-edd0b5481a6f" "AQ==")]

theorem second_record_fails_half_done :
    ∃ s, Runs.run (Serial.permittedStep Demo.env) (Server.empty (.fs "/data" fun _ => none)) sharedFile =
      some s ∧
      ¬ AllOrNothing "w1" "87366a6f-5463-5198-811e-9dc28171b74c" [1] (fun _ => ⟨6, none, none⟩) s := by
  have ran : ((Runs.run (Serial.permittedStep Demo.env) (Server.empty (.fs "/data" fun _ => none))
      sharedFile).map fun s =>
        let r := call "w1" "87366a6f-5463-5198-811e-9dc28171b74c" [1] (fun _ => ⟨6, none, none⟩) s
        (r.1.isOk, (s.tasks.find "87366a6f-5463-5198-811e-9dc28171b74c").map Task.state,
          (r.2.tasks.find "87366a6f-5463-5198-811e-9dc28171b74c").map Task.state)) =
      some (false, some .running, some .completed) := by
    decide +kernel
  obtain ⟨s, run, hs⟩ := Option.map_eq_some_iff.mp ran
  simp only [Prod.mk.injEq] at hs
  obtain ⟨failed, before, after⟩ := hs
  refine ⟨s, run, ?_⟩
  intro holds
  unfold AllOrNothing at holds
  generalize call "w1" "87366a6f-5463-5198-811e-9dc28171b74c" [1] (fun _ => ⟨6, none, none⟩) s = r at *
  obtain ⟨answer, t⟩ := r
  cases answer with
  | ok u => cases failed
  | error e =>
    have unchanged : t.tasks.find _ = s.tasks.find _ := holds
    rw [unchanged, before] at after
    cases after

end Recording

end GpuProxy
