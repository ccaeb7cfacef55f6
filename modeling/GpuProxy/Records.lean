import GpuProxy.Storage
import GpuProxy.Runs

/-!
# What a finished row says

Four statements write the columns of a task, a reset leaves behind what they
wrote, and a record may come from an earlier assignee. Still the columns of a
completed or failed row are those of the latest record.
-/

namespace GpuProxy

namespace Records

/-- One storage call. Every call can be made in every state. -/
def step (s : Server) (a : Choice × Op) : Option Server := some (s.act a.1 a.2).2

/-- Of the calls the storage has performed, the latest that is a `p` is `op`. -/
def Latest (p : Op → Prop) (as : List (Choice × Op)) (op : Op) : Prop :=
  ∃ pre ch post, as = pre ++ (ch, op) :: post ∧ ch.fails = none ∧ p op ∧
    ∀ a ∈ post, a.1.fails = none → ¬ p a.2

def ProofOf (tid : String) (op : Op) : Prop := ∃ w proof, op = .recordProof w tid proof

def ErrorOf (tid : String) (op : Op) : Prop := ∃ w msg, op = .recordError w tid msg

/-- The call dispatches the task to the worker. -/
def Fetches (w tid : String) (s : Server) (a : Choice × Op) : Prop :=
  ∃ types t, a.2 = .fetchOneTodo w types ∧ (s.act a.1 (.fetchOneTodo w types)).1 = .ok t ∧ t.id = tid

/-- The clock never goes back, nobody updates a status to `Completed` or `Error`,
and a worker records proofs only for tasks it has fetched. -/
structure Disciplined (start : Server) (as : List (Choice × Op)) : Prop where
  clock : as.Pairwise fun a b => a.1.now ≤ b.1.now
  updates : ∀ a ∈ as, ∀ tids status, a.2 = .updateStatusById tids status →
    status ≠ .completed ∧ status ≠ .error
  fetched : ∀ pre ch post w tid proof, as = pre ++ (ch, .recordProof w tid proof) :: post →
    Runs.Happened step (Fetches w tid) start pre

variable {p : Op → Prop} {as : List (Choice × Op)} {a : Choice × Op} {op : Op} {start s t : Server}
  {tid w : String} {row row' : Task}

theorem Latest.other (latest : Latest p as op) (other : a.1.fails = none → ¬ p a.2) :
    Latest p (as ++ [a]) op := by
  obtain ⟨pre, ch, post, rfl, performs, hp, unmatched⟩ := latest
  refine ⟨pre, ch, post ++ [a], by simp, performs, hp, ?_⟩
  intro b hb
  rcases List.mem_append.mp hb with old | new
  · exact unmatched b old
  · rw [List.mem_singleton.mp new]
    exact other

theorem latest_self {ch : Choice} (performs : ch.fails = none) (hp : p op) :
    Latest p (as ++ [(ch, op)]) op :=
  ⟨as, ch, [], rfl, performs, hp, by simp⟩

/-! ## Who wrote the columns -/

structure Told (as : List (Choice × Op)) (tid : String) (row : Task) : Prop where
  completed : row.state = .completed →
    Latest (ProofOf tid) as (.recordProof row.workerId tid row.proof) ∧ row.errorMsg = ""
  failed : row.state = .error →
    Latest (ErrorOf tid) as (.recordError row.workerId tid row.errorMsg)

/-- A row whose state says it is not finished. -/
theorem told_of_unfinished (completed : row.state ≠ .completed) (failed : row.state ≠ .error) :
    Told as tid row :=
  ⟨fun h => absurd h completed, fun h => absurd h failed⟩

theorem Told.other (told : Told as tid row)
    (proof : ∀ w proof, a.2 = .recordProof w tid proof → a.1.fails ≠ none)
    (error : ∀ w msg, a.2 = .recordError w tid msg → a.1.fails ≠ none) :
    Told (as ++ [a]) tid row where
  completed := by
    intro completed
    obtain ⟨latest, message⟩ := told.completed completed
    refine ⟨latest.other ?_, message⟩
    intro performs is
    obtain ⟨w, bytes, call⟩ := is
    exact proof w bytes call performs
  failed := by
    intro failed
    apply (told.failed failed).other
    intro performs is
    obtain ⟨w, msg, call⟩ := is
    exact error w msg call performs

theorem step_told (told : ∀ row, s.tasks.find tid = some row → Told as tid row)
    (updates : ∀ tids status, a.2 = .updateStatusById tids status →
      status ≠ .completed ∧ status ≠ .error)
    (found' : (s.act a.1 a.2).2.tasks.find tid = some row') : Told (as ++ [a]) tid row' := by
  obtain ⟨ch, op⟩ := a
  cases Server.act_changes found' with
  | none found proof error => exact (told row' found).other proof error
  | added call absent performs new =>
    rw [new]
    exact told_of_unfinished (by simp [DbOps.newTask]) (by simp [DbOps.newTask])
  | dispatched call found init new =>
    rw [new]
    exact told_of_unfinished (by simp [DbOps.setRunning]) (by simp [DbOps.setRunning])
  | @failed w msg row call found performs new =>
    cases call
    rw [new]
    constructor
    · intro completed
      cases completed
    · intro failed
      exact latest_self performs ⟨w, msg, rfl⟩
  | @completed w proof row call found performs new =>
    cases call
    rw [new]
    constructor
    · intro completed
      exact ⟨latest_self performs ⟨w, proof, rfl⟩, rfl⟩
    · intro failed
      cases failed
  | updated call found performs named new =>
    obtain ⟨completed, failed⟩ := updates _ _ call
    rw [new]
    exact told_of_unfinished completed failed

/-! ## The times -/

/-- `t` is no earlier than any call so far. -/
def Bounds (as : List (Choice × Op)) (t : Int) : Prop := ∀ a ∈ as, a.1.now ≤ t

theorem Bounds.init {t : Int} (bounds : Bounds (as ++ [a]) t) : Bounds as t := by
  intro b hb
  exact bounds b (List.mem_append_left _ hb)

theorem Bounds.last {t : Int} (bounds : Bounds (as ++ [a]) t) : a.1.now ≤ t :=
  bounds a (by simp)

structure Timed (start : Server) (as : List (Choice × Op)) (tid : String) (row : Task) : Prop where
  created : ∀ t, Bounds as t → row.createAt ≤ t
  started : ∀ w, Runs.Happened step (Fetches w tid) start as →
    row.createAt ≤ row.startAt ∧ ∀ t, Bounds as t → row.startAt ≤ t
  ended : row.state = .completed → row.createAt ≤ row.startAt ∧ row.startAt ≤ row.completeAt

/-- A dispatched task is there, and stays. -/
theorem fetched_there (run : Runs.run step start as = some s)
    (fetched : Runs.Happened step (Fetches w tid) start as) : s.tasks.find tid ≠ none := by
  obtain ⟨pre, a, post, u, rfl, before, types, t, call, response, rfl⟩ := fetched
  obtain ⟨u', v, before', moved, rest⟩ := Runs.run_split run
  rw [before] at before'
  cases before'
  obtain ⟨row, found, -⟩ := Server.act_fetchOneTodo_ok response
  have stays (x : Server) (b : Choice × Op) (y : Server) (there : x.tasks.find t.id ≠ none)
      (h : step x b = some y) : y.tasks.find t.id ≠ none := by
    obtain ⟨old, old'⟩ := Option.ne_none_iff_exists'.mp there
    cases h
    simp [Server.act_find_some b.1 b.2 old']
  apply Runs.invariant (I := fun x => x.tasks.find t.id ≠ none) rest
  · exact stays u a v (by simp [found]) moved
  · intro x b y there h
    exact stays x b y there h

/-- The row a dispatch leaves. -/
theorem fetches_row (fetches : Fetches w tid s a)
    (found' : (s.act a.1 a.2).2.tasks.find tid = some row') :
    ∃ row, s.tasks.find tid = some row ∧ row' = DbOps.setRunning a.1.now w row := by
  obtain ⟨types, t, call, response, rfl⟩ := fetches
  obtain ⟨row, found, -⟩ := Server.act_fetchOneTodo_ok response
  rw [call, Server.act_find_some _ _ found, response] at found'
  refine ⟨row, found, ?_⟩
  simpa [Server.Writes, DbOps.find_id found] using found'.symm

/-- A row that keeps its times, or starts now. -/
theorem step_timed (run : Runs.run step start as = some s)
    (timed : ∀ row, s.tasks.find tid = some row → Timed start as tid row)
    (clock : Bounds as a.1.now)
    (updates : ∀ tids status, a.2 = .updateStatusById tids status → status ≠ .completed)
    (fetched : ∀ w proof, a.2 = .recordProof w tid proof →
      Runs.Happened step (Fetches w tid) start as)
    (found' : (s.act a.1 a.2).2.tasks.find tid = some row') : Timed start (as ++ [a]) tid row' := by
  have keep {row : Task} (found : s.tasks.find tid = some row) (create : row'.createAt = row.createAt)
      (begin' : row'.startAt = row.startAt)
      (ended : row'.state = .completed → row.createAt ≤ row.startAt ∧ row.startAt ≤ row'.completeAt) :
      Timed start (as ++ [a]) tid row' := by
    have old := timed row found
    refine ⟨?_, ?_, ?_⟩
    · intro t bounds
      rw [create]
      exact old.created t bounds.init
    · intro w happened
      rcases (Runs.happened_snoc run).mp happened with before | now
      · obtain ⟨order, late⟩ := old.started w before
        rw [create, begin']
        exact ⟨order, fun t bounds => late t bounds.init⟩
      · obtain ⟨row₀, found₀, same⟩ := fetches_row now found'
        rw [found] at found₀
        cases found₀
        rw [same]
        refine ⟨old.created _ clock, ?_⟩
        intro t bounds
        exact bounds.last
    · intro completed
      rw [create, begin']
      exact ended completed
  cases Server.act_changes found' with
  | none found => exact keep found rfl rfl (timed row' found).ended
  | added call absent performs new =>
    refine ⟨?_, ?_, ?_⟩
    · intro t bounds
      rw [new]
      exact bounds.last
    · intro w happened
      rcases (Runs.happened_snoc run).mp happened with before | now
      · exact absurd absent (fetched_there run before)
      · obtain ⟨types, t, call', -⟩ := now
        rw [call] at call'
        cases call'
    · intro completed
      rw [new] at completed
      cases completed
  | dispatched call found init new =>
    have old := timed _ found
    rw [new]
    refine ⟨?_, ?_, ?_⟩
    · intro t bounds
      exact old.created t bounds.init
    · intro w happened
      refine ⟨old.created _ clock, ?_⟩
      intro t bounds
      exact bounds.last
    · intro completed
      cases completed
  | failed call found performs new =>
    apply keep found (by rw [new]; rfl) (by rw [new]; rfl)
    intro completed
    rw [new] at completed
    cases completed
  | completed call found performs new =>
    apply keep found (by rw [new]; rfl) (by rw [new]; rfl)
    intro completed
    obtain ⟨order, late⟩ := (timed _ found).started _ (fetched _ _ call)
    rw [new]
    exact ⟨order, late _ clock⟩
  | updated call found performs named new =>
    apply keep found (by rw [new]; rfl) (by rw [new]; rfl)
    intro completed
    rw [new] at completed
    exact absurd completed (updates _ _ call)

/-- A completed row has the worker and proof of the latest `record_proof`, no error
message, and its times in order; a failed one has the worker and message of the latest
`record_error`. -/
theorem finished_rows {resources : ResourceStore} (disciplined : Disciplined (.empty resources) as)
    (run : Runs.run step (.empty resources) as = some s) (found : s.tasks.find tid = some row) :
    (row.state = .completed →
      Latest (ProofOf tid) as (.recordProof row.workerId tid row.proof) ∧ row.errorMsg = "" ∧
        row.createAt ≤ row.startAt ∧ row.startAt ≤ row.completeAt) ∧
    (row.state = .error →
      Latest (ErrorOf tid) as (.recordError row.workerId tid row.errorMsg)) := by
  have kept : ∀ row, s.tasks.find tid = some row →
      Told as tid row ∧ Timed (.empty resources) as tid row := by
    apply Runs.invariant_trace (I := fun as s => ∀ row, s.tasks.find tid = some row →
      Told as tid row ∧ Timed (.empty resources) as tid row) run
    · intro row found
      cases found
    · intro pre a u v split before kept moved row' found'
      obtain ⟨post, whole⟩ := split
      have member : a ∈ as := by simp [← whole]
      cases moved
      constructor
      · apply step_told (fun row found => (kept row found).1) _ found'
        exact disciplined.updates a member
      · apply step_timed before (fun row found => (kept row found).2) _ _ _ found'
        · intro b hb
          have ordered := disciplined.clock
          rw [← whole, List.append_assoc, List.pairwise_append] at ordered
          exact ordered.2.2 b hb a (by simp)
        · intro tids status call
          exact (disciplined.updates a member tids status call).1
        · intro w proof call
          apply disciplined.fetched pre a.1 post w tid proof
          rw [← whole, ← call]
          simp
  obtain ⟨told, timed⟩ := kept row found
  constructor
  · intro completed
    obtain ⟨latest, message⟩ := told.completed completed
    exact ⟨latest, message, timed.ended completed⟩
  · exact told.failed

/-- Two tasks are added and dispatched, one after the other. The first one is completed, the
second one fails. -/
def onceThrough : List (Choice × Op) :=
  [(⟨1, none, none⟩, .addTask "t" "01000" .c2 "r" "1 MinerId(1000)"),
    (⟨2, none, some (DbOps.newTask 1 "t" "01000" .c2 "r" "1 MinerId(1000)")⟩,
      .fetchOneTodo "w1" none),
    (⟨3, none, none⟩, .recordProof "w1" "t" [7]),
    (⟨4, none, none⟩, .addTask "u" "01000" .c2 "q" "2 MinerId(1000)"),
    (⟨5, none, some (DbOps.newTask 4 "u" "01000" .c2 "q" "2 MinerId(1000)")⟩,
      .fetchOneTodo "w2" none),
    (⟨6, none, none⟩, .recordError "w2" "u" "no gpu")]

theorem disciplined_onceThrough (resources : ResourceStore) :
    Disciplined (.empty resources) onceThrough where
  clock := by simp [onceThrough]
  updates := by simp [onceThrough]
  fetched := by
    intro pre ch post w tid proof whole
    have first : pre = onceThrough.take 2 ∧ w = "w1" ∧ tid = "t" := by
      have recorded : ∀ i, onceThrough[i]? = some (ch, .recordProof w tid proof) →
          i = 2 ∧ w = "w1" ∧ tid = "t" := by
        intro i there
        match i with
        | 2 => cases there; exact ⟨rfl, rfl, rfl⟩
        | 0 | 1 | 3 | 4 | 5 => cases there
        | i + 6 => cases there
      obtain ⟨length, worker, task⟩ := recorded pre.length (by simp [whole])
      exact ⟨by rw [whole, ← length, List.take_left], worker, task⟩
    obtain ⟨rfl, rfl, rfl⟩ := first
    let added := DbOps.newTask 1 "t" "01000" .c2 "r" "1 MinerId(1000)"
    refine ⟨onceThrough.take 1, _, [], _, rfl, rfl, none, DbOps.setRunning 2 "w1" added, rfl, ?_, rfl⟩
    rfl

theorem finished_rows_demo : ∃ s row failed,
    Runs.run step (.empty (.db Table.empty)) onceThrough = some s ∧
    (s.tasks.find "t" = some row ∧ row.state = .completed ∧
      Latest (ProofOf "t") onceThrough (.recordProof row.workerId "t" row.proof) ∧
        row.errorMsg = "" ∧ row.createAt ≤ row.startAt ∧ row.startAt ≤ row.completeAt) ∧
    (s.tasks.find "u" = some failed ∧ failed.state = .error ∧
      Latest (ErrorOf "u") onceThrough (.recordError failed.workerId "u" failed.errorMsg)) := by
  have ran : ((Runs.run step (.empty (.db Table.empty)) onceThrough).map fun s =>
      ((s.tasks.find "t").map Task.state, (s.tasks.find "u").map Task.state)) =
        some (some .completed, some .error) := by
    decide +kernel
  obtain ⟨s, run, states⟩ := Option.map_eq_some_iff.mp ran
  simp only [Prod.mk.injEq, Option.map_eq_some_iff] at states
  obtain ⟨⟨row, found, completed⟩, failed, found', error⟩ := states
  have disciplined := disciplined_onceThrough (.db Table.empty)
  exact ⟨s, row, failed, run,
    ⟨found, completed, (finished_rows disciplined run found).1 completed⟩,
    ⟨found', error, (finished_rows disciplined run found').2 error⟩⟩

end Records

end GpuProxy
