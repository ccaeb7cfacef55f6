import GpuProxy.Registry
import Mathlib.Data.String.Basic

/-!
# Listings

The command line prints tasks and workers as tables, long messages cut short. The cut is at
a byte index: `&msg[..len]` panics where that falls inside a character, and one such row
takes the whole listing with it.
-/

namespace GpuProxy

namespace Cli

/-! ## `short_msg` -/

/-- The characters of the first bytes, where some characters make just these bytes. -/
def takeBytes : Nat → List Char → Option (List Char)
  | 0, _ => some []
  | _ + 1, [] => none
  | n + 1, c :: cs =>
    if c.utf8Size ≤ n + 1 then (takeBytes (n + 1 - c.utf8Size) cs).map (c :: ·) else none

/-- `&msg[..len]`; `none` is its panic. -/
def sliceTo (msg : String) (len : Nat) : Option String := (takeBytes len msg.toList).map String.ofList

def shortMsg (msg : String) (len : Nat) : Option String :=
  if len < msg.utf8ByteSize then do
    let preMsg ← sliceTo msg len
    return preMsg ++ "..."
  else some msg

/-- The message needs no cut, or the cut is at the end of a character. -/
def Cuts (msg : String) (len : Nat) : Prop :=
  len < msg.utf8ByteSize → String.Pos.Raw.IsValid msg ⟨len⟩

instance (msg : String) (len : Nat) : Decidable (Cuts msg len) :=
  inferInstanceAs (Decidable (_ → _))

/-- The message itself where it is short enough, and otherwise a beginning of it with dots. -/
def Shortened (msg : String) (len : Nat) (short : Option String) : Prop :=
  if msg.utf8ByteSize ≤ len then short = some msg
  else ∃ pre post, msg = pre ++ post ∧ pre.utf8ByteSize ≤ len ∧ short = some (pre ++ "...")

/-! ## Tables -/

/-- What `timestamp_opt` finds in the local time zone, as text. -/
inductive LocalResult where
  | none
  | single (v : String)
  | ambiguous (v1 v2 : String)
  deriving DecidableEq, Repr

structure Builder where
  header : List String
  records : List (List String)
  deriving DecidableEq, Repr

def Builder.pushRecord (builder : Builder) (record : List String) : Builder :=
  { builder with records := builder.records ++ [record] }

/-- The loop of a listing: a record for every entry, or the panic of one of them. -/
def rows {α : Type} (header : List String) (record : α → Option (List String)) (entries : List α) :
    Option Builder :=
  entries.foldlM (fun builder entry => (record entry).map builder.pushRecord) ⟨header, []⟩

inductive Style where
  | ascii
  | default
  deriving DecidableEq, Repr

def stateToString : TaskState → String
  | .undefined => "Undefined"
  | .init => "Init"
  | .running => "Running"
  | .error => "Error"
  | .completed => "Completed"

/-- `impl Display for TaskType`. -/
def taskTypeToString : TaskType → String
  | .c2 => "C2"

section
variable (timestampOpt : Int → LocalResult) (render : Style → Builder → String)

def timestampToString (tm : Int) : String :=
  match timestampOpt tm with
  | .none => ""
  | .single v => v
  | .ambiguous v1 v2 => v1 ++ ", " ++ v2

def taskHeader : List String :=
  ["Id", "Miner", "Type", "State", "ResourceId", "Comment", "Err", "CreateAt", "StartAt",
    "CompleteAt"]

def taskRecord (task : Task) : Option (List String) := do
  let comment ← shortMsg task.comment 30
  let err ← shortMsg task.errorMsg 20
  return [task.id, task.miner, taskTypeToString task.taskType, stateToString task.state,
    task.resourceId, comment, err, timestampToString timestampOpt task.createAt,
    timestampToString timestampOpt task.startAt, timestampToString timestampOpt task.completeAt]

def workerHeader : List String :=
  ["Id", "WorkerId", "IPs", "SupportTypes", "CreateAt", "UpdateAt"]

def workerRecord (worker : WorkerState) : Option (List String) := do
  let ips ← shortMsg worker.ips 20
  return [worker.id, worker.workerId, ips, worker.supportTypes,
    timestampToString timestampOpt worker.createAt, timestampToString timestampOpt worker.updateAt]

/-- What `print_task` writes; `none` is a panic. -/
def printTask (tasks : List Task) : Option String :=
  (rows taskHeader (taskRecord timestampOpt) tasks).map fun table => render .ascii table ++ "\n"

def printWorker (workers : List WorkerState) : Option String :=
  (rows workerHeader (workerRecord timestampOpt) workers).map fun table =>
    render .default table ++ "\n"

/-- The listing is printed, with one row for each entry. -/
def Listed {α : Type} (print : List α → Option String) (style : Style) (header : List String)
    (record : α → Option (List String)) (entries : List α) : Prop :=
  ∃ records, List.Forall₂ (fun entry r => record entry = some r) entries records ∧
    print entries = some (render style ⟨header, records⟩ ++ "\n")

end

/-! ## What is cut -/

theorem takeBytes_some {n : Nat} {cs p : List Char} :
    takeBytes n cs = some p ↔ ∃ q, cs = p ++ q ∧ String.utf8Len p = n := by
  induction cs generalizing n p with
  | nil =>
    cases n with
    | zero =>
      simp only [takeBytes, Option.some.injEq]
      constructor
      · rintro rfl
        exact ⟨[], rfl, rfl⟩
      · rintro ⟨q, empty, -⟩
        exact (List.append_eq_nil_iff.mp empty.symm).1.symm
    | succ n =>
      simp only [takeBytes, reduceCtorEq, false_iff]
      rintro ⟨q, empty, size⟩
      rw [(List.append_eq_nil_iff.mp empty.symm).1] at size
      cases size
  | cons c cs ih =>
    have positive := c.utf8Size_pos
    cases n with
    | zero =>
      simp only [takeBytes, Option.some.injEq]
      constructor
      · rintro rfl
        exact ⟨c :: cs, rfl, rfl⟩
      · rintro ⟨q, -, size⟩
        exact (String.utf8Len_eq_zero.mp size).symm
    | succ n =>
      rw [takeBytes]
      constructor
      · intro h
        split at h
        · next fits =>
          obtain ⟨p', taken, rfl⟩ := Option.map_eq_some_iff.mp h
          obtain ⟨q, rfl, size⟩ := ih.mp taken
          refine ⟨q, rfl, ?_⟩
          rw [String.utf8Len_cons]
          omega
        · cases h
      · rintro ⟨q, split, size⟩
        cases p with
        | nil => cases size
        | cons d p =>
          obtain ⟨rfl, rfl⟩ := List.cons.inj split
          rw [String.utf8Len_cons] at size
          rw [if_pos (by omega), ih.mpr ⟨q, rfl, by omega⟩]
          rfl

theorem sliceTo_some {msg pre : String} {len : Nat} :
    sliceTo msg len = some pre ↔ ∃ post, msg = pre ++ post ∧ pre.utf8ByteSize = len := by
  unfold sliceTo
  rw [Option.map_eq_some_iff]
  constructor
  · rintro ⟨p, taken, rfl⟩
    obtain ⟨q, split, size⟩ := takeBytes_some.mp taken
    refine ⟨String.ofList q, ?_, ?_⟩
    · rw [← String.ofList_append, ← split, String.ofList_toList]
    · rw [String.utf8ByteSize_ofList, size]
  · rintro ⟨post, rfl, size⟩
    refine ⟨pre.toList, takeBytes_some.mpr ⟨post.toList, String.toList_append, ?_⟩,
      String.ofList_toList⟩
    rw [← String.utf8ByteSize_ofList, String.ofList_toList, size]

/-- A slice panics exactly where the index is inside a character. -/
theorem sliceTo_isSome {msg : String} {len : Nat} :
    (∃ pre, sliceTo msg len = some pre) ↔ String.Pos.Raw.IsValid msg ⟨len⟩ := by
  rw [String.Pos.Raw.isValid_iff_exists_append]
  constructor
  · rintro ⟨pre, sliced⟩
    obtain ⟨post, split, size⟩ := sliceTo_some.mp sliced
    exact ⟨pre, post, split, congrArg String.Pos.Raw.mk size.symm⟩
  · rintro ⟨pre, post, split, size⟩
    exact ⟨pre, sliceTo_some.mpr ⟨post, split, (congrArg String.Pos.Raw.byteIdx size).symm⟩⟩

theorem shortMsg_isSome {msg : String} {len : Nat} :
    (∃ short, shortMsg msg len = some short) ↔ Cuts msg len := by
  unfold shortMsg Cuts
  split
  · next long =>
    rw [← sliceTo_isSome]
    constructor
    · rintro ⟨short, taken⟩ -
      obtain ⟨pre, sliced, -⟩ := Option.bind_eq_some_iff.mp taken
      exact ⟨pre, sliced⟩
    · intro cut
      obtain ⟨pre, sliced⟩ := cut long
      exact ⟨pre ++ "...", by rw [sliced]; rfl⟩
  · next short =>
    constructor
    · intro _ long
      exact absurd long short
    · intro _
      exact ⟨msg, rfl⟩

/-- `short_msg` shortens a message exactly where its cut is at the end of a character. -/
theorem shortened_iff (msg : String) (len : Nat) :
    Shortened msg len (shortMsg msg len) ↔ Cuts msg len := by
  rw [← shortMsg_isSome]
  unfold Shortened
  constructor
  · intro shortened
    split at shortened
    · exact ⟨msg, shortened⟩
    · obtain ⟨pre, post, -, -, short⟩ := shortened
      exact ⟨_, short⟩
  · rintro ⟨short, taken⟩
    split
    · next fits =>
      unfold shortMsg
      rw [if_neg (by omega)]
    · next long =>
      unfold shortMsg at taken ⊢
      rw [if_pos (by omega)] at taken ⊢
      obtain ⟨pre, sliced, -⟩ := Option.bind_eq_some_iff.mp taken
      obtain ⟨post, split, size⟩ := sliceTo_some.mp sliced
      refine ⟨pre, post, split, by omega, ?_⟩
      rw [sliced]
      rfl

/-! ## What is printed -/

section
variable {α : Type} {record : α → Option (List String)} {timestampOpt : Int → LocalResult}
  {render : Style → Builder → String}

/-- The loop ends where every entry has a record, and then it has pushed these in order. -/
theorem foldlM_records {entries : List α} {builder table : Builder} :
    entries.foldlM (fun builder entry => (record entry).map builder.pushRecord) builder = some table ↔
      ∃ records, List.Forall₂ (fun entry r => record entry = some r) entries records ∧
        table = ⟨builder.header, builder.records ++ records⟩ := by
  induction entries generalizing builder with
  | nil =>
    simp only [List.foldlM_nil, Option.pure_def, Option.some.injEq, List.forall₂_nil_left_iff,
      exists_eq_left, List.append_nil]
    exact eq_comm
  | cons entry entries ih =>
    rw [List.foldlM_cons]
    simp only [Option.bind_eq_bind, Option.bind_eq_some_iff, Option.map_eq_some_iff]
    constructor
    · rintro ⟨next, ⟨r, made, rfl⟩, rest⟩
      obtain ⟨records, all, rfl⟩ := ih.mp rest
      refine ⟨r :: records, .cons made all, ?_⟩
      simp [Builder.pushRecord]
    · rintro ⟨records, all, rfl⟩
      cases all with
      | @cons _ r _ records made all =>
        refine ⟨builder.pushRecord r, ⟨r, made, rfl⟩, ih.mpr ⟨records, all, ?_⟩⟩
        simp [Builder.pushRecord]

theorem exists_records {entries : List α} :
    (∃ records, List.Forall₂ (fun entry r => record entry = some r) entries records) ↔
      ∀ entry ∈ entries, ∃ r, record entry = some r := by
  induction entries with
  | nil => exact iff_of_true ⟨[], .nil⟩ (by simp)
  | cons entry entries ih =>
    rw [List.forall_mem_cons, ← ih]
    constructor
    · rintro ⟨_, all⟩
      cases all with
      | @cons _ r _ records made all => exact ⟨⟨r, made⟩, records, all⟩
    · rintro ⟨⟨r, made⟩, records, all⟩
      exact ⟨r :: records, .cons made all⟩

/-- A listing is printed exactly where every entry has a record. -/
theorem listed_iff {print : List α → Option String} {style : Style} {header : List String}
    {entries : List α}
    (prints : print entries =
      (rows header record entries).map fun table => render style table ++ "\n") :
    Listed render print style header record entries ↔
      ∀ entry ∈ entries, ∃ r, record entry = some r := by
  rw [← exists_records]
  constructor
  · rintro ⟨records, all, -⟩
    exact ⟨records, all⟩
  · rintro ⟨records, all⟩
    have table : rows header record entries = some ⟨header, records⟩ :=
      foldlM_records.mpr ⟨records, all, rfl⟩
    refine ⟨records, all, ?_⟩
    rw [prints, table]
    rfl

theorem taskRecord_isSome {task : Task} : (∃ r, taskRecord timestampOpt task = some r) ↔
    Cuts task.comment 30 ∧ Cuts task.errorMsg 20 := by
  rw [← shortMsg_isSome, ← shortMsg_isSome]
  unfold taskRecord
  constructor
  · rintro ⟨r, made⟩
    obtain ⟨comment, shortComment, made⟩ := Option.bind_eq_some_iff.mp made
    obtain ⟨err, shortErr, -⟩ := Option.bind_eq_some_iff.mp made
    exact ⟨⟨comment, shortComment⟩, err, shortErr⟩
  · rintro ⟨⟨comment, shortComment⟩, err, shortErr⟩
    rw [shortComment, shortErr]
    exact ⟨_, rfl⟩

theorem workerRecord_isSome {worker : WorkerState} :
    (∃ r, workerRecord timestampOpt worker = some r) ↔ Cuts worker.ips 20 := by
  rw [← shortMsg_isSome]
  unfold workerRecord
  constructor
  · rintro ⟨r, made⟩
    obtain ⟨ips, shortIps, -⟩ := Option.bind_eq_some_iff.mp made
    exact ⟨ips, shortIps⟩
  · rintro ⟨ips, shortIps⟩
    rw [shortIps]
    exact ⟨_, rfl⟩

/-- One task whose text is cut inside a character takes the whole listing with it. -/
theorem printTask_none {tasks : List Task} {task : Task} (there : task ∈ tasks)
    (inside : ¬ (Cuts task.comment 30 ∧ Cuts task.errorMsg 20)) :
    printTask timestampOpt render tasks = none := by
  cases printed : printTask timestampOpt render tasks with
  | none => rfl
  | some text =>
    obtain ⟨table, made, -⟩ := Option.map_eq_some_iff.mp printed
    obtain ⟨records, all, -⟩ := foldlM_records.mp made
    exact absurd (taskRecord_isSome.mp (exists_records.mp ⟨records, all⟩ task there)) inside

/-- Messages are shortened, and tasks and workers listed, exactly where every cut of a text
is at the end of a character. -/
theorem listings_iff (timestampOpt : Int → LocalResult) (render : Style → Builder → String) :
    (∀ msg len, Shortened msg len (shortMsg msg len) ↔ Cuts msg len) ∧
    (∀ tasks, Listed render (printTask timestampOpt render) .ascii taskHeader
        (taskRecord timestampOpt) tasks ↔
      ∀ task ∈ tasks, Cuts task.comment 30 ∧ Cuts task.errorMsg 20) ∧
    ∀ workers, Listed render (printWorker timestampOpt render) .default workerHeader
        (workerRecord timestampOpt) workers ↔
      ∀ worker ∈ workers, Cuts worker.ips 20 := by
  refine ⟨shortened_iff, ?_, ?_⟩
  · intro tasks
    rw [listed_iff rfl]
    simp only [taskRecord_isSome]
  · intro workers
    rw [listed_iff rfl]
    simp only [workerRecord_isSome]

end

/-- A failed task; each character of the message has three bytes. -/
def failedTask : Task where
  id := "48bb11f3-3f83-5d9f-ad3c-edd0b5481a6f"
  miner := "01000"
  resourceId := "2edc36a3-4ac0-5593-ad49-3938cf06aa77"
  proof := []
  workerId := "w1"
  taskType := .c2
  errorMsg := "证明计算失败了"
  comment := "1 MinerId(1000)"
  state := .error
  createAt := 1
  startAt := 2
  completeAt := 0

theorem cut_inside_character_panics :
    printTask (fun _ => .none) (fun _ _ => "") [failedTask] = none ∧
      (¬ ∀ tasks, Listed (fun _ _ => "") (printTask (fun _ => .none) fun _ _ => "") .ascii taskHeader
        (taskRecord fun _ => .none) tasks) ∧
      ¬ ∀ msg len, Shortened msg len (shortMsg msg len) := by
  have inside : ¬ Cuts "证明计算失败了" 20 := by decide +kernel
  have panicked : printTask (fun _ => .none) (fun _ _ => "") [failedTask] = none :=
    printTask_none (List.mem_singleton.mpr rfl) fun cuts => inside cuts.2
  refine ⟨panicked, ?_, ?_⟩
  · intro all
    obtain ⟨records, -, printed⟩ := all [failedTask]
    rw [panicked] at printed
    cases printed
  · intro all
    exact inside ((shortened_iff _ _).mp (all _ _))

end Cli

end GpuProxy
