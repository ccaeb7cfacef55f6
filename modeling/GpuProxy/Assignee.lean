import GpuProxy.Serial

/-!
# Whose result a record takes

`record_proof` and `record_error` filter on the task id alone. They change the
row whoever calls and whoever the task is assigned to.
-/

namespace GpuProxy

/-- The task waits for a worker, or runs on another one. -/
def Foreign (w : String) (row : Task) : Prop :=
  row.state = .init ∨ row.state = .running ∧ row.workerId ≠ w

/-- The request records a result of worker `w` for task `tid`. -/
def Request.Records : Request → String → String → Prop
  | recordProof w tid proof, w', tid' => w' = w ∧ tid' = tid ∧ ∃ bytes, Base64.decode proof = some bytes
  | recordError w tid _, w', tid' => w' = w ∧ tid' = tid
  | _, _, _ => False

namespace Serial

variable {env : Extern} {now : Int} {s : Server} {req : Request} {w tid : String} {row : Task}

/-- A record leaves the task completed or failed, and its own worker's. -/
theorem call_records (env : Extern) (now : Int) (records : req.Records w tid) (found : s.tasks.find tid = some row) :
    ∃ row', (call env now req s).2.tasks.find tid = some row' ∧ row'.workerId = w ∧
      (row'.state = .completed ∨ row'.state = .error) := by
  cases req with
  | recordProof w' tid' proof =>
    obtain ⟨rfl, rfl, bytes, decodes⟩ := records
    refine ⟨DbOps.setCompleted now w bytes row, ?_, rfl, Or.inl rfl⟩
    simp [call_recordProof decodes, found, DbOps.find_recordProof]
  | recordError w' tid' msg =>
    obtain ⟨rfl, rfl⟩ := records
    refine ⟨DbOps.setError w msg row, ?_, rfl, Or.inr rfl⟩
    simp [call_recordError, found, DbOps.find_recordError]
  | _ => cases records

theorem record_changes_foreign (records : req.Records w tid) (found : s.tasks.find tid = some row)
    (foreign : Foreign w row) : (call env now req s).2.tasks.find tid ≠ some row := by
  obtain ⟨row', found', -, final⟩ := call_records env now records found
  rw [found']
  rintro ⟨⟩
  rcases foreign with h | ⟨h, -⟩ <;> rw [h] at final <;> simp at final

/-- A request, served at some time. -/
def step (env : Extern) (s : Server) (a : Int × Request) : Option Server :=
  some (call env a.1 a.2 s).2

/-- The records of a run leave the tasks of other workers as they are only where
none of them names such a task. -/
theorem records_keep_foreign_iff {as : List (Int × Request)} :
    Runs.Along (step env) (fun s a => ∀ w tid row, a.2.Records w tid → s.tasks.find tid = some row →
      Foreign w row → (call env a.1 a.2 s).2.tasks.find tid = some row) s as ↔
    Runs.Along (step env) (fun s a => ∀ w tid row, a.2.Records w tid → s.tasks.find tid = some row →
      ¬ Foreign w row) s as := by
  refine Runs.along_congr fun s a => ⟨fun keeps w tid row records found foreign => ?_,
    fun spared w tid row records found foreign => ?_⟩
  · exact record_changes_foreign records found foreign (keeps w tid row records found foreign)
  · exact absurd foreign (spared w tid row records found)

/-- The first worker's failure puts the task back through a reset, the second
worker has it, and a late result of the first one ends it. -/
theorem late_record_ends_reassigned_task :
    ∃ s row, Runs.Reachable (step Demo.env) (Server.empty (.db Table.empty)) s ∧
      s.tasks.find "48bb11f3-3f83-5d9f-ad3c-edd0b5481a6f" = some row ∧ Foreign "w1" row ∧
      (call Demo.env 9 (.recordProof "w1" "48bb11f3-3f83-5d9f-ad3c-edd0b5481a6f" "AQ==") s).2.tasks.find
        "48bb11f3-3f83-5d9f-ad3c-edd0b5481a6f" ≠ some row ∧
      (call Demo.env 9 (.recordError "w1" "48bb11f3-3f83-5d9f-ad3c-edd0b5481a6f" "late") s).2.tasks.find
        "48bb11f3-3f83-5d9f-ad3c-edd0b5481a6f" ≠ some row := by
  let tid := "48bb11f3-3f83-5d9f-ad3c-edd0b5481a6f"
  let as : List (Int × Request) :=
    [(1, .addTask "t01000" "1 MinerId(1000)" .c2 (Base64.encode (asBytes Demo.text))),
      (2, .fetchTodo "w1" none), (3, .recordError "w1" tid "lost"),
      (4, .updateStatusById [tid] .init), (5, .fetchTodo "w2" none)]
  have ran : ((Runs.run (step Demo.env) (Server.empty (.db Table.empty)) as).bind fun s =>
      (s.tasks.find tid).map fun row => (row.state, row.workerId)) = some (.running, "w2") := by
    simp only [as, Runs.run_cons, step, demo_call_1000]
    decide +kernel
  obtain ⟨s, hs, hrow⟩ := Option.bind_eq_some_iff.mp ran
  obtain ⟨row, found, hw⟩ := Option.map_eq_some_iff.mp hrow
  have running : row.state = .running := congrArg Prod.fst hw
  have other : row.workerId = "w2" := congrArg Prod.snd hw
  have foreign : Foreign "w1" row := Or.inr ⟨running, by simp [other]⟩
  exact ⟨s, row, ⟨as, hs⟩, found, foreign,
    record_changes_foreign ⟨rfl, rfl, [1], by decide⟩ found foreign,
    record_changes_foreign ⟨rfl, rfl⟩ found foreign⟩

end Serial

end GpuProxy
