import GpuProxy.Directory
import GpuProxy.Offline

/-!
# Who has stopped to report

`get_offline_worker` compares a column with the clock. What the column stands for is the
time of the worker's last report, in the order in which the database took the reports,
whatever else the registry has been told in between.
-/

namespace GpuProxy

namespace Directory

structure Report where
  now : Int
  ips : String
  supportTypes : String
  deriving DecidableEq, Repr

/-- The worker's report, if this is one. -/
def Action.reportOf (w : String) : Action → Option Report
  | .report now _ workerId ips supportTypes =>
    if workerId = w then some ⟨now, ips, supportTypes⟩ else none
  | _ => none

def lastReport (w : String) (actions : List Action) : Option Report :=
  (actions.filterMap (Action.reportOf w)).getLast?

variable {d : Directory} {w : String} {actions : List Action} {a : Action} {r : WorkerState}

theorem lastReport_snoc : lastReport w (actions ++ [a]) = (a.reportOf w).or (lastReport w actions) := by
  unfold lastReport
  rw [List.filterMap_append]
  cases report : a.reportOf w <;> simp [report]

/-- What an action leaves a registered worker's row to be. -/
theorem apply_some (h : d.apply a w = some r) :
    (∃ now id ips supportTypes, a = .report now id w ips supportTypes ∧ r.ips = ips ∧
      r.supportTypes = supportTypes ∧ r.updateAt = now) ∨
    a.reportOf w = none ∧ d w = some r := by
  cases a with
  | report now id workerId ips supportTypes =>
    by_cases same : w = workerId
    · subst same
      simp only [apply, Function.update_self, Option.some.injEq] at h
      left
      refine ⟨now, id, ips, supportTypes, rfl, ?_⟩
      subst h
      cases d w <;> exact ⟨rfl, rfl, rfl⟩
    · simp only [apply, Function.update_of_ne same] at h
      exact Or.inr ⟨if_neg (Ne.symm same), h⟩
  | forget workerId =>
    by_cases same : w = workerId
    · subst same
      simp [apply] at h
    · simp only [apply, Function.update_of_ne same] at h
      exact Or.inr ⟨rfl, h⟩
  | forgetId id =>
    simp only [apply, Option.filter_eq_some_iff] at h
    exact Or.inr ⟨rfl, h.1⟩

/-- The row of a worker has what its last report said, and when that was. -/
theorem last_report (run : Runs.run step (fun _ => none) actions = some d) (row : d w = some r) :
    lastReport w actions = some ⟨r.updateAt, r.ips, r.supportTypes⟩ := by
  have reported : ∀ r, d w = some r →
      lastReport w actions = some ⟨r.updateAt, r.ips, r.supportTypes⟩ := by
    apply Runs.invariant_trace (I := fun actions d => ∀ r, d w = some r →
      lastReport w actions = some ⟨r.updateAt, r.ips, r.supportTypes⟩) run nofun
    intro pre a u v _ _ before stepped r there
    cases stepped
    rw [lastReport_snoc]
    obtain ⟨now, id, ips, supportTypes, rfl, rfl, rfl, rfl⟩ | ⟨other, there⟩ := apply_some there
    · simp [Action.reportOf]
    · rw [other, Option.none_or, before r there]
  exact reported r row

end Directory

namespace WorkerStateRepo

variable {calls : List Call} {registry : Registry} {rows : WorkersStates} {now dur : Int64}

theorem offlineWorkers_nodup (one : OneRow rows) (p : WorkerState → Bool) (column : WorkerState → Int) :
    ((rows.selectBy p column).map WorkerState.workerId).Nodup := by
  apply List.Nodup.map_on
  · intro r hr s hs same
    exact one r (Table.mem_selectBy.mp hr).1 s (Table.mem_selectBy.mp hs).1 same
  · exact (rows.selectBy_nodup p column).of_map

/-- As long as the registry holds one row for a worker, those it says are offline are the
registered workers whose last report is older than the duration, each of them once. -/
theorem offline_by_last_report {as : List (Nat × Choice)} (fresh : FreshIds Call.newId calls)
    (run : Runs.run step (start calls) as = some registry)
    (separate : Runs.Along step Apart (start calls) as) (clock : 0 ≤ now.toInt)
    (fits : now.toInt - dur.toInt < 2 ^ 63) (build : Build) :
    ∃ ws, getOfflineWorker build now dur registry.shared = some ws ∧
      (ws.map WorkerState.workerId).Nodup ∧
      ∀ w, w ∈ ws.map WorkerState.workerId ↔ (directory registry.shared w).isSome ∧
        ∃ report, Directory.lastReport w (Runs.collect step effects (start calls) as) = some report ∧
          dur.toInt < now.toInt - report.now := by
  obtain ⟨ran, one⟩ := run_directory fresh run separate
  have exact : (now - dur).toInt = now.toInt - dur.toInt := (sub_exact_of_clock clock).mpr fits
  have answer : ∃ ws, getOfflineWorker build now dur registry.shared = some ws ∧
      Silent now.toInt dur.toInt registry.shared ws := getOfflineWorker_exact exact
  obtain ⟨ws, returned, silent⟩ := answer
  have last {w : String} {r : WorkerState} (row : directory registry.shared w = some r) :=
    Directory.last_report ran row
  refine ⟨ws, returned, ?_, ?_⟩
  · obtain ⟨_, -, listed⟩ := Option.bind_eq_some_iff.mp returned
    cases listed
    exact offlineWorkers_nodup one _ _
  · intro w
    rw [List.mem_map]
    constructor
    · rintro ⟨r, found, rfl⟩
      obtain ⟨there, old⟩ := (silent r).mp found
      have row : directory registry.shared r.workerId = some r := (directory_some one).mpr ⟨there, rfl⟩
      exact ⟨by rw [row]; rfl, _, last row, old⟩
    · rintro ⟨registered, report, said, old⟩
      obtain ⟨r, row⟩ := Option.isSome_iff_exists.mp registered
      obtain ⟨there, worker⟩ := (directory_some one).mp row
      rw [last row] at said
      cases said
      exact ⟨r, (silent r).mpr ⟨there, old⟩, worker⟩

/-- An hour later, for workers that have not reported for half an hour. -/
theorem offline_by_last_report_demo : ∃ registry,
    Runs.run step (start reports) overlapping = some registry ∧
    ∃ ws, getOfflineWorker .debug 3600 1800 registry.shared = some ws ∧
      (ws.map WorkerState.workerId).Nodup ∧
      ∀ w, w ∈ ws.map WorkerState.workerId ↔ (directory registry.shared w).isSome ∧
        ∃ report, Directory.lastReport w (Runs.collect step effects (start reports) overlapping) =
          some report ∧ (1800 : Int64).toInt < (3600 : Int64).toInt - report.now := by
  have ran : (Runs.run step (start reports) overlapping).isSome := by decide
  obtain ⟨registry, run⟩ := Option.isSome_iff_exists.mp ran
  have separate : Runs.Along step Apart (start reports) overlapping :=
    Runs.along_of_check apart_sound (by decide)
  exact ⟨registry, run,
    offline_by_last_report (by decide) run separate (by decide) (by decide) .debug⟩

end WorkerStateRepo

end GpuProxy
