import GpuProxy.Worker
import Mathlib.Algebra.Group.Int.Defs

/-!
# What the migrated columns hold

The entity has text of any length. The migrations create its columns by `string()`, which is
`VARCHAR(255)` on MySQL and unlimited on SQLite. MySQL in strict mode fails an `UPDATE` that
gives a row a value its column does not hold, and changes nothing.
-/

namespace GpuProxy

namespace Migrator

inductive Database where
  | mySql
  | sqlite
  deriving DecidableEq, Repr

inductive ColumnType where
  | string
  | integer
  deriving DecidableEq, Repr

inductive Value where
  | text (s : String)
  | int (n : Int)
  deriving DecidableEq, Repr

/-- A value the column type holds. -/
def ColumnType.holds : Database → ColumnType → Value → Bool
  | .mySql, .string, .text s => decide (s.length ≤ 255)
  | .sqlite, .string, .text _ => true
  | .mySql, .integer, .int n => decide (-2 ^ 31 ≤ n) && decide (n < 2 ^ 31)
  | .sqlite, .integer, .int n => decide (-2 ^ 63 ≤ n) && decide (n < 2 ^ 63)
  | _, _, _ => false

/-- The columns of `tasks` that are text or numbers. -/
inductive Column where
  | id
  | miner
  | resourceId
  | workerId
  | taskType
  | errorMsg
  | state
  | createAt
  | startAt
  | completeAt
  | comment
  deriving DecidableEq, Repr

/-- `m20220101_000001_create_table`. -/
def createTasks : List (Column × ColumnType) :=
  [(.id, .string), (.miner, .string), (.resourceId, .string), (.workerId, .string),
    (.taskType, .integer), (.errorMsg, .string), (.state, .integer), (.createAt, .integer),
    (.startAt, .integer), (.completeAt, .integer)]

/-- `m20230113_000001_create_table`. -/
def addComment : Column × ColumnType := (.comment, .string)

def tasks : List (Column × ColumnType) := createTasks ++ [addComment]

/-- Every column that is set holds its value. -/
def fits (db : Database) (values : List (Column × Value)) : Bool :=
  values.all fun (column, value) =>
    match tasks.lookup column with
    | some type => type.holds db value
    | none => false

end Migrator

open Migrator (Database)

def TaskState.toI32 : TaskState → Int32
  | .undefined => 0
  | .init => 1
  | .running => 2
  | .error => 3
  | .completed => 4

namespace DbOps

/-- The text of MySQL's error for a value that is too long. -/
def dataTooLong : String := "Data too long for column"

/-- What the `UPDATE` of `record_error` sets. -/
def errorValues (workerId errMsg : String) : List (Migrator.Column × Migrator.Value) :=
  [(.state, .int TaskState.error.toI32.toInt), (.workerId, .text workerId),
    (.errorMsg, .text errMsg)]

/-- `record_error` on the migrated table. A value is checked where there is a row to set it in. -/
def recordErrorIn (db : Database) (workerId tid errMsg : String) (tasks : Tasks) :
    Except String Unit × Tasks :=
  if hasTask tid tasks && !Migrator.fits db (errorValues workerId errMsg) then
    (.error dataTooLong, tasks)
  else (.ok (), recordError workerId tid errMsg tasks)

/-- The call succeeds, and the task has failed with exactly this message. -/
def Recorded (db : Database) (workerId tid errMsg : String) (tasks : Tasks) : Prop :=
  (recordErrorIn db workerId tid errMsg tasks).1 = .ok () ∧
    ∃ row, (recordErrorIn db workerId tid errMsg tasks).2.find tid = some row ∧
      row.state = .error ∧ row.errorMsg = errMsg

variable {db : Database} {workerId tid errMsg : String} {tasks : Tasks} {row : Task}

theorem fits_errorValues : Migrator.fits db (errorValues workerId errMsg) = true ↔
    (db = .mySql → errMsg.length ≤ 255 ∧ workerId.length ≤ 255) := by
  have state : TaskState.error.toI32.toInt = 3 := rfl
  cases db with
  | mySql =>
    simp only [Migrator.fits, errorValues, state, List.all_cons, List.all_nil, Migrator.tasks,
      Migrator.createTasks, Bool.and_eq_true, and_true]
    constructor
    · rintro ⟨-, worker, message⟩ -
      exact ⟨of_decide_eq_true message, of_decide_eq_true worker⟩
    · intro short
      obtain ⟨message, worker⟩ := short trivial
      exact ⟨rfl, decide_eq_true worker, decide_eq_true message⟩
  | sqlite =>
    simp only [reduceCtorEq, false_implies, iff_true]
    rfl

/-- A failure is recorded exactly where the message and the worker id are short enough for
the database's columns. -/
theorem recorded_iff (found : tasks.find tid = some row) (db : Database) (workerId errMsg : String) :
    Recorded db workerId tid errMsg tasks ↔
      (db = .mySql → errMsg.length ≤ 255 ∧ workerId.length ≤ 255) := by
  have there : hasTask tid tasks = true := hasTask_iff.mpr ⟨row, found⟩
  rw [← fits_errorValues]
  unfold Recorded recordErrorIn
  by_cases fits : Migrator.fits db (errorValues workerId errMsg) = true
  · simp only [there, fits, Bool.not_true, Bool.and_false, Bool.false_eq_true, ↓reduceIte, true_and,
      iff_true]
    refine ⟨setError workerId errMsg row, ?_, rfl, rfl⟩
    rw [find_recordError, found]
    simp
  · simp only [there, fits, Bool.not_false, Bool.and_true, ↓reduceIte, reduceCtorEq, false_and]

/-- A task that runs on `w1`. -/
def running : Tasks :=
  (fetchOneTodo 1 "w1" none (addTask 0 "t" "01000" .c2 "r" "" Table.empty).2).2

theorem running_row : running.find "t" =
    some { newTask 0 "t" "01000" .c2 "r" "" with state := .running, workerId := "w1", startAt := 1 } := by
  decide +kernel

theorem recorded_iff_demo : Recorded .mySql "w1" "t" "seal commit phase2" running ↔
    (Database.mySql = .mySql → "seal commit phase2".length ≤ 255 ∧ "w1".length ≤ 255) :=
  recorded_iff running_row .mySql "w1" "seal commit phase2"

/-- A panic whose message has 256 characters. -/
def longPanic : String := "Panic: " ++ String.ofList (List.replicate 249 'x')

theorem longPanic_length : longPanic.length = 256 := by
  have letters : (String.ofList (List.replicate 249 'x')).length = 249 := by
    rw [String.length_ofList, List.length_replicate]
  have start : "Panic: ".length = 7 := by decide
  unfold longPanic
  rw [String.length_append, letters, start]

/-- The worker's record call fails on MySQL, and the task stays as it was: running. -/
theorem long_panic_not_recorded :
    (∀ t, LocalWorker.recordRequest "w1" t (.error longPanic) = .recordError "w1" t.id longPanic) ∧
    recordErrorIn .mySql "w1" "t" longPanic running = (.error dataTooLong, running) ∧
    (∃ row, running.find "t" = some row ∧ row.state = .running) ∧
    ¬ ∀ db errMsg, Recorded db "w1" "t" errMsg running := by
  have tooLong : recordErrorIn .mySql "w1" "t" longPanic running = (.error dataTooLong, running) := by
    have there : hasTask "t" running = true := hasTask_iff.mpr ⟨_, running_row⟩
    have rejected : Migrator.fits .mySql (errorValues "w1" longPanic) = false := by
      rw [← Bool.not_eq_true, fits_errorValues, longPanic_length]
      decide
    simp only [recordErrorIn, there, rejected, Bool.not_false, Bool.and_self, ↓reduceIte]
  refine ⟨fun _ => rfl, tooLong, ⟨_, running_row, rfl⟩, ?_⟩
  intro all
  have recorded := (all .mySql longPanic).1
  rw [tooLong] at recorded
  cases recorded

end DbOps

end GpuProxy
