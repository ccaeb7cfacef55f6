import GpuProxy.Dispatch

/-!
# Oldest first

The statements of the task table one after another. `fetch_one_todo` takes the oldest row it
may take and touches no other, so under a clock that does not run backwards and one filter the
tasks come out in the order they were created in.
-/

namespace GpuProxy

namespace Ordering

open DbOps (Tasks)
open Dispatch (Statement)

inductive Call where
  | fetchOneTodo (workerId : String) (types : Option (List TaskType))
  | write (statement : Statement)

/-- A call with the clock it reads. -/
def step (tasks : Tasks) : Int × Call → Option Tasks
  | (now, .fetchOneTodo workerId types) => some (DbOps.fetchOneTodo now workerId types tasks).2
  | (now, .write statement) => some (statement.exec now tasks)

/-- The task a call hands out. -/
def fetched (tasks : Tasks) : Int × Call → List Task
  | (now, .fetchOneTodo workerId types) =>
    match (DbOps.fetchOneTodo now workerId types tasks).1 with
    | .ok t => [t]
    | .error _ => []
  | (_, .write _) => []

/-- `t` was the oldest task to take, and taking it is all that has changed. -/
structure TookOldest (now : Int) (workerId : String) (types : Option (List TaskType))
    (tasks : Tasks) (t : Task) (tasks' : Tasks) : Prop where
  taken : ∃ row, tasks.find t.id = some row ∧ DbOps.isTodo types row = true ∧
    t = { row with state := .running, workerId := workerId, startAt := now }
  oldest : ∀ s, tasks.find s.id = some s → DbOps.isTodo types s = true → t.createAt ≤ s.createAt
  row : tasks'.find t.id = some t
  others : ∀ k, k ≠ t.id → tasks'.find k = tasks.find k

def Exact (tasks : Tasks) : Int × Call → Prop
  | (now, .fetchOneTodo workerId types) =>
    ∀ t tasks', DbOps.fetchOneTodo now workerId types tasks = (.ok t, tasks') →
      TookOldest now workerId types tasks t tasks'
  | (_, .write _) => True

/-- One filter and no `update_status_by_id` back to `Init`. -/
def Call.Plain (types : Option (List TaskType)) : Call → Prop
  | .fetchOneTodo _ types' => types' = types
  | .write (.updateStatusById _ status) => status ≠ .init
  | .write _ => True

structure Orderly (types : Option (List TaskType)) (tasks : Tasks) (calls : List (Int × Call)) :
    Prop where
  clock : calls.Pairwise fun c d => c.1 ≤ d.1
  created : ∀ k row, tasks.find k = some row → ∀ call ∈ calls, row.createAt ≤ call.1
  plain : ∀ call ∈ calls, call.2.Plain types

/-! ## One call -/

section
variable {now : Int} {workerId : String} {types : Option (List TaskType)} {tasks tasks' : Tasks}
  {t : Task}

theorem fetchOneTodo_ok (h : DbOps.fetchOneTodo now workerId types tasks = (.ok t, tasks')) :
    TookOldest now workerId types tasks t tasks' := by
  unfold DbOps.fetchOneTodo at h
  cases selected : DbOps.selectTodo types tasks with
  | none =>
    rw [selected] at h
    cases h
  | some undo =>
    obtain ⟨found, todo, oldest⟩ := DbOps.selectTodo_some selected
    have init := DbOps.isTodo_init todo
    rw [selected] at h
    rcases DbOps.fetchSelected_cases now workerId tasks (some undo) with
      ⟨u, row, same, row_found, -, answer⟩ | ⟨e, answer, -⟩
    · cases same
      rw [found] at row_found
      cases row_found
      rw [answer] at h
      cases h
      refine ⟨⟨undo, found, todo, rfl⟩, oldest, ?_, ?_⟩
      · change (DbOps.claim now workerId undo.id tasks).2.find undo.id = _
        rw [DbOps.find_claim, found, Option.map_some, if_pos ⟨rfl, init⟩]
      · intro k other
        have other : k ≠ undo.id := other
        rw [DbOps.find_claim]
        cases tasks.find k with
        | none => rfl
        | some s => rw [Option.map_some, if_neg fun both => other both.1]
    · rw [answer] at h
      cases h

theorem fetchOneTodo_error {e : String}
    (h : (DbOps.fetchOneTodo now workerId types tasks).1 = .error e) :
    (DbOps.fetchOneTodo now workerId types tasks).2 = tasks := by
  unfold DbOps.fetchOneTodo at h ⊢
  rcases DbOps.fetchSelected_cases now workerId tasks (DbOps.selectTodo types tasks) with
    ⟨u, row, -, -, -, answer⟩ | ⟨e', answer, -⟩
  · rw [answer] at h
    cases h
  · rw [answer]

/-- A row after a call was there before it, or it is an older row that is not `Init` now, or it
has just been created. -/
inductive Origin (tasks : Tasks) (now : Int) (k : String) (s : Task) : Prop where
  | same (found : tasks.find k = some s)
  | changed {row : Task} (found : tasks.find k = some row) (age : row.createAt = s.createAt)
      (state : s.state ≠ .init)
  | new (age : s.createAt = now)

theorem exec_origin {statement : Statement} {k : String} {s : Task}
    (plain : (Call.write statement).Plain types)
    (found : (statement.exec now tasks).find k = some s) : Origin tasks now k s := by
  cases statement with
  | addTask taskId miner taskType resourceId comment =>
    cases before : tasks.find taskId with
    | some row =>
      rw [Statement.exec, DbOps.addTask_present before] at found
      exact .same found
    | none =>
      obtain ⟨added, answer, rows⟩ :=
        DbOps.addTask_absent now miner taskType resourceId comment before
      rw [Statement.exec, answer, rows] at found
      by_cases this : k = taskId
      · rw [if_pos this] at found
        cases found
        exact .new rfl
      · rw [if_neg this] at found
        exact .same found
  | recordError workerId tid errMsg =>
    rw [Statement.exec, DbOps.find_recordError, Option.map_eq_some_iff] at found
    obtain ⟨row, before, rfl⟩ := found
    split
    · exact .changed before rfl (by simp [DbOps.setError])
    · exact .same before
  | recordProof workerId tid proof =>
    rw [Statement.exec, DbOps.find_recordProof, Option.map_eq_some_iff] at found
    obtain ⟨row, before, rfl⟩ := found
    split
    · exact .changed before rfl (by simp [DbOps.setCompleted])
    · exact .same before
  | updateStatusById tids status =>
    rw [Statement.exec, DbOps.find_updateStatusById, Option.map_eq_some_iff] at found
    obtain ⟨row, before, rfl⟩ := found
    split
    · exact .changed before rfl plain
    · exact .same before

theorem step_origin {call : Int × Call} {k : String} {s : Task} (plain : call.2.Plain types)
    (h : step tasks call = some tasks') (found : tasks'.find k = some s) :
    Origin tasks call.1 k s := by
  obtain ⟨now, call⟩ := call
  cases call with
  | write statement =>
    cases h
    exact exec_origin plain found
  | fetchOneTodo workerId types' =>
    cases h
    cases answer : (DbOps.fetchOneTodo now workerId types' tasks).1 with
    | error e =>
      rw [fetchOneTodo_error answer] at found
      exact .same found
    | ok t =>
      have took := fetchOneTodo_ok (Prod.ext answer rfl)
      by_cases this : k = t.id
      · subst this
        rw [took.row] at found
        cases found
        obtain ⟨row, before, -, rfl⟩ := took.taken
        exact .changed before rfl (by simp)
      · rw [took.others k this] at found
        exact .same found

theorem fetched_took {call : Int × Call} (plain : call.2.Plain types) (ht : t ∈ fetched tasks call)
    (h : step tasks call = some tasks') : ∃ workerId, TookOldest call.1 workerId types tasks t tasks' := by
  obtain ⟨now, call⟩ := call
  cases call with
  | write statement => cases ht
  | fetchOneTodo workerId types' =>
    cases h
    cases (plain : types' = types)
    unfold fetched at ht
    simp only at ht
    split at ht
    · next answer =>
      cases List.mem_singleton.mp ht
      exact ⟨workerId, fetchOneTodo_ok (Prod.ext answer rfl)⟩
    · cases ht

/-! ## Whole runs -/

theorem Orderly.next {call : Int × Call} {calls : List (Int × Call)}
    (orderly : Orderly types tasks (call :: calls)) (h : step tasks call = some tasks') :
    Orderly types tasks' calls := by
  obtain ⟨first, clock⟩ := List.pairwise_cons.mp orderly.clock
  refine ⟨clock, ?_, fun c later => orderly.plain c (List.mem_cons_of_mem call later)⟩
  intro k s found c later
  cases step_origin (orderly.plain call List.mem_cons_self) h found with
  | same before => exact orderly.created k s before c (List.mem_cons_of_mem call later)
  | changed before age _ =>
    rw [← age]
    exact orderly.created k _ before c (List.mem_cons_of_mem call later)
  | new age =>
    rw [age]
    exact first c later

/-- Everything that waits, or comes later, is as new as `t`. -/
def Bounds (types : Option (List TaskType)) (t : Task) (tasks : Tasks) (calls : List (Int × Call)) :
    Prop :=
  (∀ k s, tasks.find k = some s → DbOps.isTodo types s = true → t.createAt ≤ s.createAt) ∧
    ∀ call ∈ calls, t.createAt ≤ call.1

theorem Bounds.next {call : Int × Call} {calls : List (Int × Call)} (plain : call.2.Plain types)
    (bounds : Bounds types t tasks (call :: calls)) (h : step tasks call = some tasks') :
    Bounds types t tasks' calls := by
  obtain ⟨queued, later⟩ := bounds
  refine ⟨?_, fun c hc => later c (List.mem_cons_of_mem call hc)⟩
  intro k s found todo
  cases step_origin plain h found with
  | same before => exact queued k s before todo
  | changed _ _ state => exact absurd (DbOps.isTodo_init todo) state
  | new age =>
    rw [age]
    exact later call List.mem_cons_self

theorem TookOldest.bounds {call : Int × Call} {calls : List (Int × Call)}
    (orderly : Orderly types tasks (call :: calls)) (h : step tasks call = some tasks')
    (took : TookOldest call.1 workerId types tasks t tasks') : Bounds types t tasks' calls := by
  obtain ⟨row, before, -, same⟩ := took.taken
  have age : row.createAt = t.createAt := by rw [same]
  have queued : Bounds types t tasks (call :: calls) := by
    constructor
    · intro k s found todo
      exact took.oldest s (DbOps.find_self found) todo
    · intro c hc
      rw [← age]
      exact orderly.created _ row before c hc
  exact queued.next (orderly.plain call List.mem_cons_self) h

theorem Bounds.above {s : Task} {call : Int × Call} {calls : List (Int × Call)}
    (plain : call.2.Plain types) (bounds : Bounds types t tasks (call :: calls))
    (hs : s ∈ fetched tasks call) : t.createAt ≤ s.createAt := by
  obtain ⟨tasks', h⟩ : ∃ tasks', step tasks call = some tasks' := by
    obtain ⟨now, call⟩ := call
    cases call <;> exact ⟨_, rfl⟩
  obtain ⟨workerId, took⟩ := fetched_took plain hs h
  obtain ⟨row, before, todo, same⟩ := took.taken
  rw [same]
  exact bounds.1 s.id row before todo

theorem fetched_one (tasks : Tasks) (call : Int × Call) :
    (fetched tasks call).Pairwise fun s t => s.createAt ≤ t.createAt := by
  obtain ⟨now, call⟩ := call
  cases call with
  | write statement => exact List.Pairwise.nil
  | fetchOneTodo workerId types =>
    unfold fetched
    simp only
    split
    · exact List.pairwise_singleton _ _
    · exact List.Pairwise.nil

/-- Every fetch of a run takes the oldest task it may take and changes only its row. Where the
clock does not run backwards, the filter is one and nothing is reset, the tasks of all fetches
come in the order of their creation. -/
theorem oldest_first (types : Option (List TaskType)) (start : Tasks) (calls : List (Int × Call)) :
    Runs.Along step Exact start calls ∧
      (Orderly types start calls →
        (Runs.collect step fetched start calls).Pairwise fun s t => s.createAt ≤ t.createAt) := by
  constructor
  · rintro pre ⟨now, call⟩ post tasks - -
    cases call with
    | write statement => trivial
    | fetchOneTodo workerId types' =>
      intro t tasks' answer
      exact fetchOneTodo_ok answer
  · intro orderly
    refine Runs.collect_pairwise (I := Orderly types) (B := Bounds types) ?_ ?_ ?_ ?_ ?_ orderly
    · intro tasks call rest tasks' orderly h
      exact orderly.next h
    · intro tasks call rest _
      exact fetched_one tasks call
    · intro tasks call rest tasks' orderly h t ht
      obtain ⟨workerId, took⟩ := fetched_took (orderly.plain call List.mem_cons_self) ht h
      exact took.bounds orderly h
    · intro t tasks call rest tasks' orderly bounds h
      exact bounds.next (orderly.plain call List.mem_cons_self) h
    · intro t tasks call rest orderly bounds s hs
      exact bounds.above (orderly.plain call List.mem_cons_self) hs

end

/-! ### A run: two tasks wait, the first fails, a third one comes -/

def Demo.calls : List (Int × Call) :=
  [(10, .write (.addTask "b" "t01000" .c2 "rb" "")), (12, .write (.addTask "a" "t01000" .c2 "ra" "")),
    (12, .fetchOneTodo "w1" (some [.c2])), (13, .write (.recordError "w1" "b" "no gpu")),
    (15, .write (.addTask "c" "t01000" .c2 "rc" "")), (15, .fetchOneTodo "w2" (some [.c2])),
    (16, .fetchOneTodo "w1" (some [.c2])), (17, .fetchOneTodo "w2" (some [.c2]))]

theorem Demo.orderly : Orderly (some [.c2]) Table.empty Demo.calls := by
  constructor
  · decide
  · nofun
  · simp [Demo.calls, Call.Plain]

theorem oldest_first_demo :
    (Runs.collect step fetched Table.empty Demo.calls).map Task.id = ["b", "a", "c"] ∧
      (Runs.collect step fetched Table.empty Demo.calls).Pairwise fun s t =>
        s.createAt ≤ t.createAt :=
  ⟨by decide, (oldest_first (some [.c2]) Table.empty Demo.calls).2 Demo.orderly⟩

end Ordering

end GpuProxy
