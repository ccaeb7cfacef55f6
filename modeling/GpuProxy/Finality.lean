import GpuProxy.Custody

/-!
# What ends a completion

No storage call filters on `Completed`. A completed task stays so until an
`UPDATE` that records an error for it or sets another state, whoever sent it
and however long ago.
-/

namespace GpuProxy

/-- The call takes a completed task out of its state. -/
def Op.Undoes (tid : String) : Op → Prop
  | .recordError _ tid' _ => tid' = tid
  | .updateStatusById tids state => tid ∈ tids ∧ state ≠ .completed
  | _ => False

theorem Server.act_completed (ch : Choice) (op : Op) {s : Server} {tid : String} {row : Task}
    (found : s.tasks.find tid = some row) (completed : row.state = .completed) :
    (∃ row', (act ch op s).2.tasks.find tid = some row' ∧ row'.state = .completed) ↔
      ¬ (ch.fails = none ∧ op.Undoes tid) := by
  have hid := DbOps.find_id found
  have after := act_find_some ch op found
  cases hf : ch.fails with
  | some e =>
    rw [act_fails hf]
    exact iff_of_true ⟨row, found, completed⟩ (by simp)
  | none =>
    simp only [after, Option.some.injEq, exists_eq_left', true_and]
    cases op with
    | fetchOneTodo w types =>
      refine iff_of_true ?_ id
      cases hr : (act ch (.fetchOneTodo w types) s).1 with
      | error e => exact completed
      | ok t =>
        obtain ⟨row', found', init, -⟩ := act_fetchOneTodo_ok hr
        have other : row.id ≠ t.id := by
          intro same
          rw [← same, hid, found] at found'
          cases found'
          rw [completed] at init
          cases init
        simpa [Writes, other] using completed
    | recordError w tid' msg =>
      rw [act_performs hf]
      simp only [perform, Writes, Op.Undoes, hid]
      split
      · next same => exact iff_of_false (by rintro ⟨⟩) (fun h => h same.symm)
      · next other => exact iff_of_true completed (fun h => other h.symm)
    | recordProof w tid' proof =>
      rw [act_performs hf]
      simp only [perform, Writes]
      split
      · exact iff_of_true rfl id
      · exact iff_of_true completed id
    | updateStatusById tids state =>
      rw [act_performs hf]
      simp only [perform, Writes, Op.Undoes, hid, List.contains_iff_mem]
      split
      · next named =>
        simp only [DbOps.setState, named, true_and, ne_eq, not_not]
      · next other => exact iff_of_true completed (fun h => other h.1)
    | _ => exact iff_of_true completed id

namespace System

variable {env : Extern} {u v s : System env} {a : Action env} {as : List (Action env)}
  {tid w : String} {call : Nat} {ch : Choice} {proof : Bytes}

def Completed (tid : String) (s : System env) : Prop :=
  ∃ row, s.server.tasks.find tid = some row ∧ row.state = .completed

/-- The step makes an `UPDATE` that takes the task out of `Completed`. -/
def Undoes (tid : String) (s : System env) (a : Action env) : Prop :=
  ∃ call ch op, s.Serves a call ch op ∧ ch.fails = none ∧ op.Undoes tid

theorem completed_step (h : s.step a = some v) (completed : s.Completed tid) :
    v.Completed tid ↔ ¬ s.Undoes tid a := by
  obtain ⟨row, found, state⟩ := completed
  rcases step_server h with ⟨same, -, unserved⟩ | ⟨call, ch, op, serves, same, -⟩
  · apply iff_of_true ⟨row, by rw [same, found], state⟩
    rintro ⟨call, ch, op, serves, -⟩
    exact unserved call ch op serves
  · have kept := Server.act_completed ch op found state
    rw [Completed, same, kept]
    constructor
    · rintro not ⟨call', ch', op', serves', performs, undoes⟩
      obtain rfl := serves.op_eq serves'
      have same : ch = ch' := by
        obtain ⟨rfl, -⟩ := serves
        obtain ⟨⟨⟩, -⟩ := serves'
        rfl
      subst same
      exact not ⟨performs, undoes⟩
    · rintro not ⟨performs, undoes⟩
      exact not ⟨call, ch, op, serves, performs, undoes⟩

theorem recorded_completes (serves : u.Serves a call ch (.recordProof w tid proof))
    (performs : ch.fails = none) (found : ∃ row, u.server.tasks.find tid = some row)
    (h : u.step a = some v) : v.Completed tid := by
  obtain ⟨row, found⟩ := found
  refine ⟨DbOps.setCompleted ch.now w proof row, ?_, rfl⟩
  rw [serves_server h serves, Server.act_performs performs]
  simp [Server.perform, DbOps.find_recordProof, found]

/-- Once `record_proof` has completed a task, it is `Completed` in every later state
exactly if no later step records an error for it or resets it. -/
theorem completion_final_iff (serves : u.Serves a call ch (.recordProof w tid proof))
    (performs : ch.fails = none) (found : ∃ row, u.server.tasks.find tid = some row)
    (h : u.step a = some v) (run : Runs.run step v as = some s) :
    Runs.Always step (Completed tid) v as ↔ Runs.Along step (fun s a => ¬ s.Undoes tid a) v as :=
  Runs.always_iff_along run (recorded_completes serves performs found h)
    fun _ _ _ completed h => completed_step h completed

/-- A worker's execution fails, and it crashes with `record_error` on its way. After
the restart it has the task again, proves it, and sends `record_proof`. -/
def secondAttempt : List (Action Demo.env) :=
  [.startWorker "w1" Demo.config, .serve 0 ⟨1, none, none⟩, .worker "w1" (.fetched .answered),
    .worker "w1" .tick, .serve 1 ⟨2, none, Demo.waiting⟩, .worker "w1" (.fetched .answered),
    .worker "w1" .push, .worker "w1" .counted, .worker "w1" .receive, .serve 2 ⟨3, none, none⟩,
    .worker "w1" (.read .answered), .worker "w1" (.finish 0 0), .worker "w1" (.send 0),
    .worker "w1" .take, .crashWorker "w1",
    .startWorker "w1" Demo.config, .serve 4 ⟨4, none, none⟩, .worker "w1" (.fetched .answered),
    .worker "w1" .tick, .worker "w1" .push, .worker "w1" .counted, .worker "w1" .receive,
    .serve 5 ⟨5, none, none⟩, .worker "w1" (.read .answered), .worker "w1" (.finish 0 1),
    .worker "w1" (.send 0), .worker "w1" .take, .serve 6 ⟨6, none, none⟩]

def textQueued : System Demo.env := idle (Demo.queued (asBytes Demo.text))

theorem completion_final_iff_demo : ∃ u v s, Runs.run step textQueued secondAttempt = some u ∧
    u.step (.serve 6 ⟨7, none, none⟩) = some v ∧
    Runs.run step v [.serve 6 ⟨8, none, none⟩] = some s ∧
    (Runs.Always step (Completed "48bb11f3-3f83-5d9f-ad3c-edd0b5481a6f") v
        [.serve 6 ⟨8, none, none⟩] ↔
      Runs.Along step (fun s a => ¬ s.Undoes "48bb11f3-3f83-5d9f-ad3c-edd0b5481a6f" a) v
        [.serve 6 ⟨8, none, none⟩]) := by
  have ran : ((Runs.run step textQueued secondAttempt).map fun u =>
      (u.next 6, (u.server.tasks.find "48bb11f3-3f83-5d9f-ad3c-edd0b5481a6f").isSome,
        (Runs.run step u [.serve 6 ⟨7, none, none⟩, .serve 6 ⟨8, none, none⟩]).isSome)) =
      some (some (.recordProof "w1" "48bb11f3-3f83-5d9f-ad3c-edd0b5481a6f" [1, 1]), true, true) := by
    decide +kernel
  obtain ⟨u, first, hu⟩ := Option.map_eq_some_iff.mp ran
  simp only [Prod.mk.injEq, Option.isSome_iff_exists] at hu
  obtain ⟨next, found, s, run⟩ := hu
  obtain ⟨v, h, rest⟩ := Runs.run_cons_some run
  exact ⟨u, v, s, first, h, rest, completion_final_iff (serves_of_next _ next) rfl found h rest⟩

/-- The first attempt's `record_error` arrives after the second one's proof is
recorded, and makes the finished task a failed one. -/
theorem late_error_undoes_completion : ∃ u v s, Runs.run step textQueued secondAttempt = some u ∧
    u.Serves (.serve 6 ⟨7, none, none⟩) 6 ⟨7, none, none⟩
      (.recordProof "w1" "48bb11f3-3f83-5d9f-ad3c-edd0b5481a6f" [1, 1]) ∧
    u.step (.serve 6 ⟨7, none, none⟩) = some v ∧
    v.Completed "48bb11f3-3f83-5d9f-ad3c-edd0b5481a6f" ∧
    v.step (.serve 3 ⟨8, none, none⟩) = some s ∧
    ¬ s.Completed "48bb11f3-3f83-5d9f-ad3c-edd0b5481a6f" := by
  have ran : ((Runs.run step textQueued secondAttempt).bind fun u =>
      (u.step (.serve 6 ⟨7, none, none⟩)).bind fun v => (v.step (.serve 3 ⟨8, none, none⟩)).map fun s =>
        (u.next 6, (v.server.tasks.find "48bb11f3-3f83-5d9f-ad3c-edd0b5481a6f").map Task.state,
          (s.server.tasks.find "48bb11f3-3f83-5d9f-ad3c-edd0b5481a6f").map Task.state)) =
      some (some (.recordProof "w1" "48bb11f3-3f83-5d9f-ad3c-edd0b5481a6f" [1, 1]),
        some .completed, some .error) := by
    decide +kernel
  obtain ⟨u, first, hu⟩ := Option.bind_eq_some_iff.mp ran
  obtain ⟨v, h, hv⟩ := Option.bind_eq_some_iff.mp hu
  obtain ⟨s, h', hs⟩ := Option.map_eq_some_iff.mp hv
  simp only [Prod.mk.injEq, Option.map_eq_some_iff] at hs
  obtain ⟨next, completed, row, found, error⟩ := hs
  refine ⟨u, v, s, first, serves_of_next _ next, h, completed, h', ?_⟩
  rintro ⟨row', found', state⟩
  rw [found] at found'
  cases found'
  rw [error] at state
  cases state

end System

end GpuProxy
