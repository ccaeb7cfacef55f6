import GpuProxy.Registry
import Mathlib.Algebra.Group.Int.Defs

/-!
# Who is offline

`get_offline_worker` subtracts a duration from the clock in `i64` without a check: a debug
build panics where the subtraction overflows, a release build goes on with what it wraps to.
The command line casts a `u64` number of seconds to it, which never wraps for a duration
that `duration_str` can parse.
-/

namespace GpuProxy

namespace WorkerStateRepo

inductive Build where
  | debug
  | release
  deriving DecidableEq, Repr

/-- `x - y` on `i64`; `none` is the panic of a debug build. -/
def Build.sub (build : Build) (x y : Int64) : Option Int64 :=
  if (x - y).toInt = x.toInt - y.toInt then some (x - y)
  else
    match build with
    | .debug => none
    | .release => some (x - y)

/-- `ORDER BY create_at DESC`; `now` is `Utc::now().timestamp()`. -/
def getOfflineWorker (build : Build) (now dur : Int64) (rows : WorkersStates) :
    Option (List WorkerState) := do
  let offlineTime ← build.sub now dur
  return rows.selectBy (fun r => decide (r.updateAt < offlineTime.toInt)) fun r => -r.createAt

/-- `std::time::Duration`. -/
structure Duration where
  secs : UInt64
  nanos : UInt32
  deriving DecidableEq, Repr

def Duration.asSecs (d : Duration) : UInt64 := d.secs

/-- `duration_str` adds a duration up in nanoseconds, in a `u64`. -/
def CountsNanoseconds (parse : String → Except String Duration) : Prop :=
  ∀ text d, parse text = .ok d → d.secs.toNat * 10 ^ 9 + d.nanos.toNat < 2 ^ 64

/-- `as_secs() as i64`. -/
def offlineCheckPoint (d : Duration) : Int64 := d.asSecs.toInt64

/-- `parse` is `duration_str::parse`. The call goes to a server with this clock and table. -/
def offlineWorkers (parse : String → Except String Duration) (build : Build) (now : Int64)
    (rows : WorkersStates) (durStr : String) : Except String (Option (List WorkerState)) := do
  let dur ← parse durStr
  return getOfflineWorker build now (offlineCheckPoint dur) rows

/-- The rows of the workers that have not reported for more than `dur` seconds. -/
def Silent (now dur : Int) (rows : WorkersStates) (found : List WorkerState) : Prop :=
  ∀ r, r ∈ found ↔ r ∈ rows ∧ dur < now - r.updateAt

/-- The RPC returns those workers, and its subtraction is exact. -/
structure ExactRpc (build : Build) (now dur : Int64) (rows : WorkersStates) : Prop where
  sub : (now - dur).toInt = now.toInt - dur.toInt
  found : ∃ ws, getOfflineWorker build now dur rows = some ws ∧ Silent now.toInt dur.toInt rows ws

/-- The command gets those workers for the duration it has parsed, and no conversion or
subtraction wraps on the way. -/
structure ExactCli (parse : String → Except String Duration) (build : Build) (now : Int64)
    (rows : WorkersStates) (durStr : String) (d : Duration) : Prop where
  cast : (offlineCheckPoint d).toInt = d.secs.toNat
  sub : (now - offlineCheckPoint d).toInt = now.toInt - (offlineCheckPoint d).toInt
  found : ∃ ws, offlineWorkers parse build now rows durStr = .ok (some ws) ∧
    Silent now.toInt d.secs.toNat rows ws

variable {build : Build} {now dur : Int64} {rows : WorkersStates}

theorem sub_exact_iff {x y : Int64} : (x - y).toInt = x.toInt - y.toInt ↔
    -2 ^ 63 ≤ x.toInt - y.toInt ∧ x.toInt - y.toInt < 2 ^ 63 := by
  constructor
  · intro exact
    rw [← exact]
    exact ⟨Int64.le_toInt _, Int64.toInt_lt _⟩
  · rintro ⟨low, high⟩
    rw [Int64.toInt_sub]
    apply Int.bmod_eq_of_le
    · omega
    · omega

/-- From a clock that is not negative only a negative duration can overflow. -/
theorem sub_exact_of_clock (clock : 0 ≤ now.toInt) :
    (now - dur).toInt = now.toInt - dur.toInt ↔ now.toInt - dur.toInt < 2 ^ 63 := by
  rw [sub_exact_iff]
  have bound := dur.toInt_lt
  constructor
  · intro h
    exact h.2
  · intro high
    exact ⟨by omega, high⟩

theorem cast_exact {n : UInt64} (small : n.toNat < 2 ^ 63) : n.toInt64.toInt = n.toNat := by
  have same : n.toInt64 = Int64.ofNat n.toNat := by
    rw [← UInt64.toInt64_ofNat', UInt64.ofNat_toNat]
  rw [same, Int64.toInt_ofNat_of_lt small]

theorem getOfflineWorker_exact (exact : (now - dur).toInt = now.toInt - dur.toInt) :
    ∃ ws, getOfflineWorker build now dur rows = some ws ∧ Silent now.toInt dur.toInt rows ws := by
  have computed : build.sub now dur = some (now - dur) := by
    unfold Build.sub
    rw [if_pos exact]
  refine ⟨_, by simp only [getOfflineWorker, computed]; rfl, ?_⟩
  intro r
  rw [Table.mem_selectBy, decide_eq_true_eq, exact]
  apply and_congr_right
  intro _
  constructor
  · intro h
    omega
  · intro h
    omega

theorem exactRpc_iff (clock : 0 ≤ now.toInt) :
    ExactRpc build now dur rows ↔ now.toInt - dur.toInt < 2 ^ 63 := by
  rw [← sub_exact_of_clock clock]
  constructor
  · intro h
    exact h.sub
  · intro exact
    exact ⟨exact, getOfflineWorker_exact exact⟩

theorem exactCli_of_parsed {parse : String → Except String Duration} {durStr : String}
    {d : Duration} (clock : 0 ≤ now.toInt) (nanoseconds : CountsNanoseconds parse)
    (parsed : parse durStr = .ok d) : ExactCli parse build now rows durStr d := by
  have range : d.secs.toNat * 10 ^ 9 + d.nanos.toNat < 2 ^ 64 := nanoseconds durStr d parsed
  have small : d.secs.toNat < 2 ^ 63 := by omega
  have cast : (offlineCheckPoint d).toInt = d.secs.toNat := cast_exact small
  have bound := now.toInt_lt
  have sub : (now - offlineCheckPoint d).toInt = now.toInt - (offlineCheckPoint d).toInt := by
    rw [sub_exact_of_clock clock]
    omega
  have silent : ∃ ws, getOfflineWorker build now (offlineCheckPoint d) rows = some ws ∧
      Silent now.toInt (offlineCheckPoint d).toInt rows ws := getOfflineWorker_exact sub
  obtain ⟨ws, returned, silent⟩ := silent
  refine ⟨cast, sub, ws, ?_, cast ▸ silent⟩
  unfold offlineWorkers
  rw [parsed]
  exact congrArg Except.ok returned

/-- Detection is exact exactly where the clock less the duration is an `i64`, and always from
the command line. -/
theorem offline_exact_iff (clock : 0 ≤ now.toInt) (build : Build) (rows : WorkersStates) :
    (∀ dur, ExactRpc build now dur rows ↔ now.toInt - dur.toInt < 2 ^ 63) ∧
      ∀ parse durStr d, CountsNanoseconds parse → parse durStr = .ok d →
        ExactCli parse build now rows durStr d := by
  constructor
  · intro dur
    exact exactRpc_iff clock
  · intro parse durStr d nanoseconds parsed
    exact exactCli_of_parsed clock nanoseconds parsed

/-- A worker that reported at 1700000000. -/
def heartbeat : WorkerState := ⟨"5d1f", "w1", "10.0.0.1", "C2", 1700000000, 1690000000⟩

def oneWorker : WorkersStates where
  rows := [heartbeat]
  nodup := by decide

def parseHalfHour (text : String) : Except String Duration :=
  if text = "30m" then .ok ⟨1800, 0⟩ else .error "parse"

theorem parseHalfHour_counts : CountsNanoseconds parseHalfHour := by
  intro text d parsed
  unfold parseHalfHour at parsed
  split at parsed
  · cases parsed
    decide
  · cases parsed

/-- A second after the half hour the command lists the worker. -/
theorem offline_exact_iff_demo :
    (∀ dur, ExactRpc .debug 1700001801 dur oneWorker ↔
        (1700001801 : Int64).toInt - dur.toInt < 2 ^ 63) ∧
      ExactCli parseHalfHour .debug 1700001801 oneWorker "30m" ⟨1800, 0⟩ ∧
      offlineWorkers parseHalfHour .debug 1700001801 oneWorker "30m" = .ok (some [heartbeat]) := by
  have both := @offline_exact_iff 1700001801 (by decide) .debug oneWorker
  have listed : (offlineWorkers parseHalfHour .debug 1700001801 oneWorker "30m").toOption =
      some (some [heartbeat]) := by
    decide +kernel
  refine ⟨both.1, both.2 parseHalfHour "30m" ⟨1800, 0⟩ parseHalfHour_counts rfl, ?_⟩
  cases answer : offlineWorkers parseHalfHour .debug 1700001801 oneWorker "30m" with
  | ok found =>
    rw [answer] at listed
    cases listed
    rfl
  | error e =>
    rw [answer] at listed
    cases listed

/-- Half an hour later the worker is offline for more than the least `i64`: a release build
does not say so and a debug build panics. -/
theorem extreme_durations_misreport :
    (getOfflineWorker .release 1700001800 Int64.minValue oneWorker = some [] ∧
      Int64.minValue.toInt < (1700001800 : Int) - heartbeat.updateAt) ∧
    getOfflineWorker .debug 1700001800 Int64.minValue oneWorker = none ∧
    ¬ ∀ build dur, ExactRpc build 1700001800 dur oneWorker := by
  have hidden : getOfflineWorker .release 1700001800 Int64.minValue oneWorker = some [] := by
    decide +kernel
  refine ⟨⟨hidden, by decide +kernel⟩, by decide +kernel, ?_⟩
  intro exact
  obtain ⟨ws, returned, silent⟩ := (exact .release Int64.minValue).found
  rw [hidden] at returned
  cases returned
  have there : heartbeat ∈ oneWorker := List.mem_singleton.mpr rfl
  have listed := (silent heartbeat).mpr ⟨there, by decide +kernel⟩
  cases listed

end WorkerStateRepo

end GpuProxy
