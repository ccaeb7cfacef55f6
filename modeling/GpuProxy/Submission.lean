import GpuProxy.Rpc

/-!
# Submitting the same task concurrently

Calls of `add_task` for one miner, type and parameter run at once, each a
thread of a `Pool` whose step is one storage call. `Race` is what such a pool
comes to: whether the resource and the row are there, and how far each call
is. Both pairs of calls check first and insert later, so a call is safe where
no other one stands between its check and its insert.
-/

namespace GpuProxy

/-- How far a call of `add_task_inner` is. -/
inductive Stage where
  | start
  | storing
  | asking
  | adding
  | done
  | failed
  deriving DecidableEq, Repr

/-- `strict` says that a second insert of the resource fails. -/
structure Race where
  strict : Bool
  stored : Bool
  present : Bool
  stages : List Stage
  deriving DecidableEq, Repr

namespace Race

def step (r : Race) (i : Nat) : Option Race :=
  match r.stages[i]? with
  | some .start =>
    some { r with stages := r.stages.set i (if r.stored then .asking else .storing) }
  | some .storing =>
    some { r with
      stored := true
      stages := r.stages.set i (if r.strict && r.stored then .failed else .asking) }
  | some .asking =>
    some { r with stages := r.stages.set i (if r.present then .done else .adding) }
  | some .adding =>
    some { r with
      present := true
      stages := r.stages.set i (if r.present then .failed else .done) }
  | _ => none

/-- Inserts of the row that have happened or will. -/
def rows (r : Race) : Nat := r.stages.count .adding + r.present.toNat

/-- Inserts of the resource that have happened or will, where two of them clash. -/
def resources (r : Race) : Nat :=
  if r.strict then r.stages.count .storing + r.stored.toNat else 0

/-- No other call stands between its check and its insert when this one checks
and finds nothing. -/
def Alone (r : Race) (i : Nat) : Prop :=
  match r.stages[i]? with
  | some .start => r.strict = true → r.stored = false → .storing ∉ r.stages
  | some .asking => r.present = false → .adding ∉ r.stages
  | _ => True

/-- Some call has failed or is going to. -/
def Doomed (r : Race) : Prop := 1 < r.rows ∨ 1 < r.resources ∨ .failed ∈ r.stages

theorem count_set {stages : List Stage} {i : Nat} {x y : Stage} (z : Stage)
    (h : stages[i]? = some x) :
    (stages.set i y).count z + (if x = z then 1 else 0) =
      stages.count z + if y = z then 1 else 0 := by
  obtain ⟨hi, hx⟩ := List.getElem?_eq_some_iff.mp h
  have pos : x = z → 0 < stages.count z := by
    rintro rfl
    exact List.count_pos_iff.mpr (hx ▸ List.getElem_mem hi)
  rw [List.count_set hi, hx]
  simp only [beq_iff_eq]
  split <;> split <;> simp_all

theorem failed_set {stages : List Stage} {i : Nat} {x y : Stage} (h : stages[i]? = some x)
    (hx : x ≠ .failed) : .failed ∈ stages.set i y ↔ .failed ∈ stages ∨ y = .failed := by
  have counts := count_set (y := y) .failed h
  simp only [if_neg hx, Nat.add_zero] at counts
  simp only [← List.count_pos_iff, counts]
  split
  · next h => simp [h]
  · next h => simp [h]

/-- What a step does to the two counts and to the failures: a count falls only
where an insert clashes, and that call fails. -/
theorem step_counts {r r' : Race} {i : Nat} (h : r.step i = some r') :
    (r.Alone i → (r'.rows ≤ r.rows ∨ r'.rows ≤ 1) ∧ (r'.resources ≤ r.resources ∨ r'.resources ≤ 1)) ∧
    (¬ r.Alone i → 1 < r'.rows ∨ 1 < r'.resources) ∧
    (r'.rows < r.rows → 1 < r.rows) ∧ (r'.resources < r.resources → 1 < r.resources) ∧
    (.failed ∈ r'.stages ↔ .failed ∈ r.stages ∨ r'.rows < r.rows ∨ r'.resources < r.resources) := by
  obtain ⟨strict, stored, present, stages⟩ := r
  simp only [step] at h
  simp only [Alone, rows, resources, ← List.count_eq_zero]
  split at h
  · next hi =>
    cases h
    have adding := count_set (y := if stored then .asking else .storing) .adding hi
    have storing := count_set (y := if stored then .asking else .storing) .storing hi
    simp only [hi, failed_set hi (by decide : Stage.start ≠ .failed)]
    cases strict <;> cases stored <;> simp at adding storing ⊢ <;> omega
  · next hi =>
    cases h
    have adding := count_set (y := if strict && stored then .failed else .asking) .adding hi
    have storing := count_set (y := if strict && stored then .failed else .asking) .storing hi
    have here : .storing ∈ stages := List.mem_of_getElem? hi
    simp only [hi, failed_set hi (by decide : Stage.storing ≠ .failed)]
    cases strict <;> cases stored <;> simp [here] at adding storing ⊢ <;> omega
  · next hi =>
    cases h
    have adding := count_set (y := if present then .done else .adding) .adding hi
    have storing := count_set (y := if present then .done else .adding) .storing hi
    simp only [hi, failed_set hi (by decide : Stage.asking ≠ .failed)]
    cases strict <;> cases present <;> simp at adding storing ⊢ <;> omega
  · next hi =>
    cases h
    have adding := count_set (y := if present then .failed else .done) .adding hi
    have storing := count_set (y := if present then .failed else .done) .storing hi
    have here : .adding ∈ stages := List.mem_of_getElem? hi
    simp only [hi, failed_set hi (by decide : Stage.adding ≠ .failed)]
    cases strict <;> cases present <;> simp [here] at adding storing ⊢ <;> omega
  · cases h

theorem step_doomed {r r' : Race} {i : Nat} (h : r.step i = some r') (doomed : r.Doomed) :
    r'.Doomed := by
  obtain ⟨-, -, rows, resources, failed⟩ := step_counts h
  simp only [Doomed, failed] at doomed ⊢
  by_cases before : Stage.failed ∈ r.stages
  · exact Or.inr (Or.inr (Or.inl before))
  · simp only [before, or_false, false_or] at doomed ⊢
    omega

theorem step_not_alone {r r' : Race} {i : Nat} (h : r.step i = some r') (clash : ¬ r.Alone i) :
    r'.Doomed := by
  rcases (step_counts h).2.1 clash with rows | resources
  · exact Or.inl rows
  · exact Or.inr (Or.inl resources)

theorem step_alone {r r' : Race} {i : Nat} (h : r.step i = some r') (alone : r.Alone i)
    (safe : ¬ r.Doomed) : ¬ r'.Doomed := by
  obtain ⟨counts, -, rows, resources, failed⟩ := step_counts h
  have grow := counts alone
  simp only [Doomed, failed, not_or] at safe ⊢
  obtain ⟨hrows, hresources, before⟩ := safe
  exact ⟨by omega, by omega, before, by omega, by omega⟩

theorem not_doomed_of_start {r : Race} (fresh : ∀ st ∈ r.stages, st = .start) : ¬ r.Doomed := by
  have absent (st : Stage) (h : st ≠ .start) : st ∉ r.stages := fun hm => h (fresh st hm)
  have adding := List.count_eq_zero.mpr (absent .adding (by decide))
  have storing := List.count_eq_zero.mpr (absent .storing (by decide))
  have present := Bool.toNat_le r.present
  have stored := Bool.toNat_le r.stored
  simp only [Doomed, rows, resources, adding, storing]
  rintro (h | h | h)
  · omega
  · split at h <;> omega
  · exact absent .failed (by decide) h

/-- In a run from a safe state, no call fails or is going to, exactly when every
check that finds nothing is made alone. -/
theorem run_alone {r r' : Race} {is : List Nat} (h : Runs.run step r is = some r')
    (safe : ¬ r.Doomed) : ¬ r'.Doomed ↔ Runs.Along step Alone r is := by
  induction is generalizing r with
  | nil =>
    cases h
    exact iff_of_true safe (Runs.along_nil _ _)
  | cons i is ih =>
    obtain ⟨u, hu, hr⟩ := Runs.run_cons_some h
    simp only [Runs.along_cons, hu, Option.some.injEq, forall_eq']
    by_cases alone : r.Alone i
    · rw [ih hr (step_alone hu alone safe)]
      exact (and_iff_right alone).symm
    · have doomed : r'.Doomed :=
        Runs.invariant hr (step_not_alone hu alone) fun _ _ _ hd hs => step_doomed hs hd
      exact iff_of_false (not_not.mpr doomed) fun ok => alone ok.1

/-- Calls that have all answered, with nothing left to insert: doomed means that one failed. -/
theorem doomed_of_finished {r : Race} (finished : ∀ st ∈ r.stages, st = .done ∨ st = .failed) :
    r.Doomed ↔ .failed ∈ r.stages := by
  have absent (st : Stage) (h : st ≠ .done ∧ st ≠ .failed) : r.stages.count st = 0 := by
    rw [List.count_eq_zero]
    intro hm
    rcases finished st hm with rfl | rfl
    · exact h.1 rfl
    · exact h.2 rfl
  have adding := absent .adding (by decide)
  have storing := absent .storing (by decide)
  have present := Bool.toNat_le r.present
  have stored := Bool.toNat_le r.stored
  simp only [Doomed, rows, resources, adding, storing]
  constructor
  · rintro (h | h | h)
    · omega
    · split at h <;> omega
    · exact h
  · exact fun h => Or.inr (Or.inr h)

/-- A call goes on past its first pair only with the resource there, and answers
only with the row there. -/
structure Kept (r : Race) : Prop where
  stored : ∀ st ∈ r.stages, st = .asking ∨ st = .adding ∨ st = .done → r.stored = true
  present : .done ∈ r.stages → r.present = true

theorem kept_of_start {r : Race} (fresh : ∀ st ∈ r.stages, st = .start) : r.Kept := by
  refine ⟨fun st hst far => ?_, fun hd => ?_⟩
  · rw [fresh st hst] at far
    simp at far
  · cases fresh _ hd

theorem step_kept {r r' : Race} {i : Nat} (kept : r.Kept) (h : r.step i = some r') : r'.Kept := by
  obtain ⟨stored, present⟩ := kept
  simp only [step] at h
  split at h
  · next hi =>
    cases h
    refine ⟨fun st hst far => ?_, fun hd => ?_⟩
    · rcases List.mem_or_eq_of_mem_set hst with hst | rfl
      · exact stored st hst far
      · split at far <;> simp_all
    · rcases List.mem_or_eq_of_mem_set hd with hd | hd
      · exact present hd
      · split at hd <;> cases hd
  · next hi =>
    cases h
    refine ⟨fun _ _ _ => rfl, fun hd => ?_⟩
    rcases List.mem_or_eq_of_mem_set hd with hd | hd
    · exact present hd
    · split at hd <;> cases hd
  · next hi =>
    cases h
    have asked : r.stored = true := stored _ (List.mem_of_getElem? hi) (Or.inl rfl)
    refine ⟨fun _ _ _ => asked, fun hd => ?_⟩
    rcases List.mem_or_eq_of_mem_set hd with hd | hd
    · exact present hd
    · split at hd
      · assumption
      · cases hd
  · next hi =>
    cases h
    have added : r.stored = true := stored _ (List.mem_of_getElem? hi) (Or.inr (Or.inl rfl))
    exact ⟨fun _ _ _ => added, fun _ => rfl⟩
  · cases h

end Race

namespace ResourceStore

/-- A second insert under an id fails. -/
def strict : ResourceStore → Bool
  | fs _ _ => false
  | db _ => true

variable (store : ResourceStore) (now : Int) (rid : String) (resource : Bytes)

theorem strict_storeResourceInfo :
    (store.storeResourceInfo now rid resource).2.strict = store.strict := by
  cases store with
  | fs root files => rfl
  | db rows =>
    simp only [storeResourceInfo]
    split <;> rfl

theorem storeResourceInfo_cases :
    (store.strict = true ∧ store.hasResource rid = true ∧
      store.storeResourceInfo now rid resource = (.error primaryKeyConflict, store)) ∨
    ((store.strict && store.hasResource rid) = false ∧
      (store.storeResourceInfo now rid resource).1 = .ok rid) := by
  cases store with
  | fs root files => exact Or.inr ⟨rfl, rfl⟩
  | db rows =>
    cases hi : rows.insert ⟨rid, resource, now⟩ with
    | some rows' =>
      have absent : rows.find rid = none := Table.insert_absent hi
      refine Or.inr ⟨?_, by simp [storeResourceInfo, hi]⟩
      simp [hasResource, content, absent]
    | none =>
      obtain ⟨row, hr⟩ := Table.insert_none.mp hi
      have present : rows.find rid = some row := hr
      exact Or.inl ⟨rfl, by simp [hasResource, content, present], by simp [storeResourceInfo, hi]⟩

end ResourceStore

namespace Submission

abbrev Call := Program Op Op.Response (Except RpcError String)

abbrev Calls := Pool Server Op Op.Response (Except RpcError String)

/-- One storage call of one call of `add_task`, at some time. The storage fails
none but by a key conflict. -/
def step : Calls → Nat × Int → Option Calls :=
  Pool.step fun now op s => Server.perform now none op s

def stage : Call → Stage
  | .ret (.ok _) => .done
  | .ret (.error _) => .failed
  | .call (.hasResource _) _ => .start
  | .call (.storeResourceInfo _ _) _ => .storing
  | .call (.hasTask _) _ => .asking
  | .call _ _ => .adding

section
variable (env : Extern) (addr : Address) (taskType : TaskType) (bytes : Bytes)

def race (pool : Calls) : Race where
  strict := pool.shared.resources.strict
  stored := pool.shared.resources.hasResource (genResourceId env bytes)
  present := DbOps.hasTask (genTaskId env addr taskType bytes) pool.shared.tasks
  stages := pool.threads.map stage

/-- A call of `add_task_inner` on these arguments, at some point of its way. -/
inductive Shaped : Call → Prop where
  | start (comment : String) :
      Shaped (.call (.hasResource (genResourceId env bytes))
        (Rpc.afterHasResource (.of env addr comment taskType bytes)))
  | storing (comment : String) :
      Shaped (.call (.storeResourceInfo (genResourceId env bytes) bytes)
        (Rpc.afterStoreResourceInfo (.of env addr comment taskType bytes)))
  | asking (comment : String) :
      Shaped (.call (.hasTask (genTaskId env addr taskType bytes))
        (Rpc.afterHasTask (.of env addr comment taskType bytes)))
  | adding (comment : String) :
      Shaped (.call (.addTask (genTaskId env addr taskType bytes) (Rpc.noprefixMiner env addr)
        taskType (genResourceId env bytes) comment) (Rpc.afterAddTask (.of env addr comment taskType bytes)))
  | done : Shaped (.ret (.ok (genTaskId env addr taskType bytes)))
  | failed (e : RpcError) : Shaped (.ret (.error e))

variable {env addr taskType bytes}

theorem shaped_addTaskInner (comment : String) :
    Shaped env addr taskType bytes (Rpc.addTaskInner env addr comment taskType bytes).run := by
  rw [Rpc.addTaskInner_eq]
  exact .start comment

/-- Each storage call of a pool is the step of its race. -/
theorem simulates : Runs.Simulates step Race.step (race env addr taskType bytes) Prod.fst
    fun pool => ∀ p ∈ pool.threads, Shaped env addr taskType bytes p := by
  rintro ⟨s, threads⟩ ⟨i, now⟩ pool' shaped hs
  obtain ⟨op, k, hi, rfl⟩ := Pool.step_some.mp hs
  have here := shaped _ (List.mem_of_getElem? hi)
  have set {p : Call} (hp : Shaped env addr taskType bytes p) :
      ∀ q ∈ threads.set i p, Shaped env addr taskType bytes q := by
    intro q hq
    rcases List.mem_or_eq_of_mem_set hq with hq | rfl
    · exact shaped q hq
    · exact hp
  have at_i : (threads.map stage)[i]? = some (stage (.call op k)) := by
    rw [List.getElem?_map, hi]
    rfl
  simp only [race, Race.step, at_i, List.map_set]
  cases here with
  | start comment =>
    obtain ⟨b, hb⟩ : ∃ b, s.resources.hasResource (genResourceId env bytes) = b := ⟨_, rfl⟩
    cases b with
    | true =>
      have hp : Server.perform now none (.hasResource (genResourceId env bytes)) s =
          (.ok true, s) := by simp only [Server.perform, hb]
      simp only [hp, hb]
      exact ⟨rfl, set (.asking comment)⟩
    | false =>
      have hp : Server.perform now none (.hasResource (genResourceId env bytes)) s =
          (.ok false, s) := by simp only [Server.perform, hb]
      simp only [hp, hb]
      exact ⟨rfl, set (.storing comment)⟩
  | storing comment =>
    have strict := s.resources.strict_storeResourceInfo now (genResourceId env bytes) bytes
    rcases s.resources.storeResourceInfo_cases now (genResourceId env bytes) bytes with ⟨hst, hhas, he⟩ | ⟨hfree, hok⟩
    · have hp : Server.perform now none (.storeResourceInfo (genResourceId env bytes) bytes) s =
          (.error primaryKeyConflict, s) := by simp only [Server.perform, he]
      simp only [hp, hst, hhas]
      exact ⟨rfl, set (.failed _)⟩
    · obtain ⟨store, hs⟩ : ∃ store, s.resources.storeResourceInfo now (genResourceId env bytes) bytes =
          (.ok (genResourceId env bytes), store) := ⟨_, Prod.ext hok rfl⟩
      have hp : Server.perform now none (.storeResourceInfo (genResourceId env bytes) bytes) s =
          (.ok (genResourceId env bytes), { s with resources := store }) := by
        simp only [Server.perform, hs]
      have stored : store.hasResource (genResourceId env bytes) = true := by
        simp [ResourceStore.hasResource, ResourceStore.storeResourceInfo_ok hs]
      rw [hs] at strict
      simp only [hp, hfree, strict, stored]
      exact ⟨rfl, set (.asking comment)⟩
  | asking comment =>
    obtain ⟨b, hb⟩ : ∃ b, DbOps.hasTask (genTaskId env addr taskType bytes) s.tasks = b := ⟨_, rfl⟩
    cases b with
    | true =>
      have hp : Server.perform now none (.hasTask (genTaskId env addr taskType bytes)) s =
          (.ok true, s) := by simp only [Server.perform, hb]
      simp only [hp, hb]
      exact ⟨rfl, set .done⟩
    | false =>
      have hp : Server.perform now none (.hasTask (genTaskId env addr taskType bytes)) s =
          (.ok false, s) := by simp only [Server.perform, hb]
      simp only [hp, hb]
      exact ⟨rfl, set (.adding comment)⟩
  | adding comment =>
    cases hf : s.tasks.find (genTaskId env addr taskType bytes) with
    | some t =>
      have present : DbOps.hasTask (genTaskId env addr taskType bytes) s.tasks = true :=
        DbOps.hasTask_iff.mpr ⟨t, hf⟩
      have hp : Server.perform now none (.addTask (genTaskId env addr taskType bytes)
          (Rpc.noprefixMiner env addr) taskType (genResourceId env bytes) comment) s =
          (.error primaryKeyConflict, s) := by
        simp only [Server.perform, DbOps.addTask_present hf]
      simp only [hp, present]
      exact ⟨rfl, set (.failed _)⟩
    | none =>
      have absent : DbOps.hasTask (genTaskId env addr taskType bytes) s.tasks = false :=
        DbOps.hasTask_false.mpr hf
      obtain ⟨tasks, ha, hk⟩ := DbOps.addTask_absent now (Rpc.noprefixMiner env addr) taskType
        (genResourceId env bytes) comment hf
      have hp : Server.perform now none (.addTask (genTaskId env addr taskType bytes)
          (Rpc.noprefixMiner env addr) taskType (genResourceId env bytes) comment) s =
          (.ok (genTaskId env addr taskType bytes), { s with tasks := tasks }) := by
        simp only [Server.perform, ha]
      have present : DbOps.hasTask (genTaskId env addr taskType bytes) tasks = true :=
        DbOps.hasTask_iff.mpr ⟨_, (hk _).trans (if_pos rfl)⟩
      simp only [hp, absent, present]
      exact ⟨rfl, set .done⟩

/-- What was stored under the resource id stays; otherwise only the bytes of the
calls can be stored there. -/
def Held (env : Extern) (bytes : Bytes) (before : Option Bytes) (pool : Calls) : Prop :=
  match before with
  | some data =>
    pool.shared.resources.content (genResourceId env bytes) = some data ∧
      ∀ p ∈ pool.threads, stage p ≠ .storing
  | none =>
    ∀ data, pool.shared.resources.content (genResourceId env bytes) = some data → data = bytes

theorem step_held {before : Option Bytes} {pool pool' : Calls} {a : Nat × Int}
    (shaped : ∀ p ∈ pool.threads, Shaped env addr taskType bytes p)
    (held : Held env bytes before pool) (h : step pool a = some pool') :
    Held env bytes before pool' := by
  obtain ⟨i, now⟩ := a
  obtain ⟨op, k, hi, rfl⟩ := Pool.step_some.mp h
  have hm : .call op k ∈ pool.threads := List.mem_of_getElem? hi
  have here := shaped _ hm
  cases before with
  | some data =>
    obtain ⟨content, quiet⟩ := held
    have set {p : Call} (hp : stage p ≠ .storing) : ∀ q ∈ pool.threads.set i p, stage q ≠ .storing := by
      intro q hq
      rcases List.mem_or_eq_of_mem_set hq with hq | rfl
      · exact quiet q hq
      · exact hp
    cases here with
    | start comment =>
      have stored : pool.shared.resources.hasResource (genResourceId env bytes) = true :=
        ResourceStore.hasResource_iff.mpr ⟨data, content⟩
      refine ⟨content, set ?_⟩
      simp only [Server.perform, stored]
      simp [Rpc.afterHasResource, stage]
    | storing comment => exact absurd rfl (quiet _ hm)
    | asking comment =>
      refine ⟨content, set ?_⟩
      simp only [Server.perform]
      cases DbOps.hasTask (genTaskId env addr taskType bytes) pool.shared.tasks <;>
        simp [Rpc.afterHasTask, stage]
    | adding comment =>
      refine ⟨content, set ?_⟩
      simp only [Server.perform]
      cases (DbOps.addTask now (genTaskId env addr taskType bytes) (Rpc.noprefixMiner env addr)
        taskType (genResourceId env bytes) comment pool.shared.tasks).1 <;>
        simp [Rpc.afterAddTask, stage]
  | none =>
    cases here with
    | start comment => exact held
    | storing comment =>
      intro data hd
      simp only [Server.perform] at hd
      obtain ⟨r, store, hr⟩ : ∃ r store, pool.shared.resources.storeResourceInfo now
          (genResourceId env bytes) bytes = (r, store) := ⟨_, _, rfl⟩
      rw [hr] at hd
      cases r with
      | ok id => simpa [ResourceStore.storeResourceInfo_ok hr, eq_comm] using hd
      | error e => exact held data ((ResourceStore.storeResourceInfo_error hr).1 ▸ hd)
    | asking comment => exact held
    | adding comment => exact held

theorem held_of_start {pool : Calls} (fresh : ∀ p ∈ pool.threads, stage p = .start) :
    Held env bytes (pool.shared.resources.content (genResourceId env bytes)) pool := by
  unfold Held
  split
  · next data hd => exact ⟨hd, fun p hp => by simp [fresh p hp]⟩
  · next hn => simp [hn]

theorem run_held {before : Option Bytes} {pool pool' : Calls} {as : List (Nat × Int)}
    (shaped : ∀ p ∈ pool.threads, Shaped env addr taskType bytes p)
    (held : Held env bytes before pool) (h : Runs.run step pool as = some pool') :
    Held env bytes before pool' :=
  (Runs.invariant (I := fun pool => (∀ p ∈ pool.threads, Shaped env addr taskType bytes p) ∧
      Held env bytes before pool) h ⟨shaped, held⟩
    fun _ a _ ih hs => ⟨(simulates _ a _ ih.1 hs).2, step_held ih.1 ih.2 hs⟩).2

/-- What idempotent submission promises of the server after the calls. -/
def Idempotent (env : Extern) (addr : Address) (taskType : TaskType) (bytes : Bytes)
    (before : Server) (after : Calls) : Prop :=
  (∀ p ∈ after.threads, p = .ret (.ok (genTaskId env addr taskType bytes))) ∧
  after.shared.tasks.count (fun t => decide (t.id = genTaskId env addr taskType bytes)) = 1 ∧
  (before.tasks.find (genTaskId env addr taskType bytes) = none →
    after.shared.resources.content (genResourceId env bytes) =
      some ((before.resources.content (genResourceId env bytes)).getD bytes))

/-- All the calls answer with the task id, over one row and its resource, exactly
when each check that finds nothing is made with no other call between its own
check and insert. -/
theorem submissions_idempotent_iff {miner : String} {resource : C2Resource env}
    (parses : env.addressFromStr miner = .ok addr)
    (decodes : C2Resource.fromSlice env bytes = .ok resource)
    {comments : List String} (some_call : comments ≠ []) {s : Server} {as : List (Nat × Int)}
    {pool : Calls}
    (run : Runs.run step
      ⟨s, comments.map fun c => (Rpc.addTask env miner c taskType bytes).run⟩ as = some pool)
    (finished : pool.Finished) :
    Idempotent env addr taskType bytes s pool ↔
      Runs.Along step (fun pool a => (race env addr taskType bytes pool).Alone a.1)
        ⟨s, comments.map fun c => (Rpc.addTask env miner c taskType bytes).run⟩ as := by
  let start : Calls := ⟨s, comments.map fun c => (Rpc.addTaskInner env addr c taskType bytes).run⟩
  simp only [Rpc.addTask_passes parses decodes] at run ⊢
  have shaped : ∀ p ∈ start.threads, Shaped env addr taskType bytes p := by
    intro p hp
    obtain ⟨c, -, rfl⟩ := List.mem_map.mp hp
    exact shaped_addTaskInner c
  have fresh : ∀ st ∈ (race env addr taskType bytes start).stages, st = .start := by
    intro st hst
    obtain ⟨p, hp, rfl⟩ := List.mem_map.mp hst
    obtain ⟨c, -, rfl⟩ := List.mem_map.mp hp
    rw [Rpc.addTaskInner_eq]
    rfl
  obtain ⟨raced, shaped'⟩ := simulates.run shaped run
  have answered : ∀ st ∈ (race env addr taskType bytes pool).stages, st = .done ∨ st = .failed := by
    intro st hst
    obtain ⟨p, hp, rfl⟩ := List.mem_map.mp hst
    obtain ⟨a, rfl⟩ := finished p hp
    cases a <;> simp [stage]
  have alone := (Race.run_alone raced (Race.not_doomed_of_start fresh)).trans
    (simulates.along shaped run).symm
  rw [← alone, Race.doomed_of_finished answered]
  constructor
  · rintro ⟨ok, -, -⟩ hf
    obtain ⟨p, hp, hs⟩ := List.mem_map.mp hf
    rw [ok p hp] at hs
    cases hs
  · intro running
    have ok : ∀ p ∈ pool.threads, p = .ret (.ok (genTaskId env addr taskType bytes)) := by
      intro p hp
      obtain ⟨a, ha⟩ := finished p hp
      cases shaped' p hp with
      | done => rfl
      | failed e => exact absurd (List.mem_map.mpr ⟨_, hp, rfl⟩) running
      | _ => cases ha
    have nonempty : pool.threads ≠ [] := by
      intro h
      have length := Pool.run_length run
      simp only [h, List.length_nil, List.length_map] at length
      exact some_call (List.length_eq_zero_iff.mp length.symm)
    obtain ⟨p, hp⟩ := List.exists_mem_of_ne_nil _ nonempty
    have done : .done ∈ (race env addr taskType bytes pool).stages :=
      List.mem_map.mpr ⟨p, hp, by rw [ok p hp]; rfl⟩
    have kept : (race env addr taskType bytes pool).Kept :=
      Runs.invariant raced (Race.kept_of_start fresh) fun _ _ _ hk hs => Race.step_kept hk hs
    refine ⟨ok, ?_, fun _ => ?_⟩
    · exact Table.count_key_eq_one.mpr (DbOps.hasTask_iff.mp (kept.present done))
    · obtain ⟨data, hd⟩ := ResourceStore.hasResource_iff.mp (kept.stored _ done (by simp))
      have held := run_held shaped (held_of_start fun p hp => fresh _ (List.mem_map_of_mem hp)) run
      change Held env bytes (s.resources.content (genResourceId env bytes)) pool at held
      cases hb : s.resources.content (genResourceId env bytes) with
      | some before =>
        rw [hb] at held
        simpa using held.1
      | none =>
        rw [hb] at held
        rw [hd, held data hd]
        rfl

section Demo

/-- Two calls for one sector on an empty database, step by step. -/
def demo (schedule : List Nat) : Option Calls :=
  Runs.run step
    ⟨Server.empty (.db Table.empty), ["1 MinerId(1000)", "1 MinerId(1000)"].map fun c =>
      (Rpc.addTask Demo.env "t01000" c .c2 (asBytes Demo.text)).run⟩
    (schedule.map fun i => (i, 0))

theorem demo_answers (schedule : List Nat) (answers : List (Except RpcError String))
    (h : ((demo schedule).map fun pool => pool.threads.map Program.answer) =
      some (answers.map some)) :
    ∃ pool, demo schedule = some pool ∧ pool.Finished ∧
      pool.threads.map Program.answer = answers.map some := by
  obtain ⟨pool, hp, ha⟩ := Option.map_eq_some_iff.mp h
  exact ⟨pool, hp, Pool.finished_of_answers ha, ha⟩

theorem submissions_idempotent_iff_demo :
    ∃ pool, demo [0, 0, 0, 0, 1, 1] = some pool ∧
      (Idempotent Demo.env (.id 1000) .c2 (asBytes Demo.text) (Server.empty (.db Table.empty)) pool ↔
        Runs.Along step
          (fun pool a => (race Demo.env (.id 1000) .c2 (asBytes Demo.text) pool).Alone a.1)
          ⟨Server.empty (.db Table.empty), ["1 MinerId(1000)", "1 MinerId(1000)"].map fun c =>
            (Rpc.addTask Demo.env "t01000" c .c2 (asBytes Demo.text)).run⟩
          ([0, 0, 0, 0, 1, 1].map fun i => (i, 0))) := by
  obtain ⟨pool, run, finished, -⟩ := demo_answers [0, 0, 0, 0, 1, 1]
    [.ok "48bb11f3-3f83-5d9f-ad3c-edd0b5481a6f", .ok "48bb11f3-3f83-5d9f-ad3c-edd0b5481a6f"]
    (by decide +kernel)
  exact ⟨pool, run, submissions_idempotent_iff rfl Demo.fromSlice_text (by simp) run finished⟩

/-- The second call asks for the task before the first has inserted it, and its
own insert is refused. -/
theorem overlapping_submissions_conflict :
    ∃ pool, demo [0, 0, 0, 1, 1, 0, 1] = some pool ∧ pool.Finished ∧
      ¬ Idempotent Demo.env (.id 1000) .c2 (asBytes Demo.text) (Server.empty (.db Table.empty))
        pool := by
  obtain ⟨pool, run, finished, answers⟩ := demo_answers [0, 0, 0, 1, 1, 0, 1]
    [.ok "48bb11f3-3f83-5d9f-ad3c-edd0b5481a6f", .error (.failed primaryKeyConflict)]
    (by decide +kernel)
  refine ⟨pool, run, finished, fun ⟨ok, _⟩ => ?_⟩
  have refused : some (.error (.failed primaryKeyConflict)) ∈ pool.threads.map Program.answer := by
    simp [answers]
  obtain ⟨p, hp, ha⟩ := List.mem_map.mp refused
  rw [ok p hp] at ha
  cases ha

end Demo

end

end Submission

end GpuProxy
