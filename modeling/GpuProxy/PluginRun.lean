import GpuProxy.JsonText
import GpuProxy.PluginOut
import GpuProxy.Resource

/-!
# The plugin's main loop

`run` announces itself, reads request lines, and spawns a task for each that parses. A
task writes one response when its request is finished, at whatever moment that is.
-/

namespace GpuProxy

/-! ## Requests and responses -/

namespace ClusterC2Plugin

def readyMsg (name : String) : String := name ++ " processor ready\n"

section
variable (env : Extern)

structure Request where
  id : UInt64
  task : C2Input env

variable {env}

def c2InputFromJson : Json → Except String (C2Input env)
  | .obj fields => do
    let c1out ← env.c1OutFromJson (← field "c1out" fields)
    let proverId ← proverIdFromJson (← field "prover_id" fields)
    let sectorId ← u64FromJson (← field "sector_id" fields)
    let minerId ← u64FromJson (← field "miner_id" fields)
    .ok ⟨c1out, proverId, sectorId, minerId⟩
  | .arr [a, b, c, d] => do
    let c1out ← env.c1OutFromJson a
    let proverId ← proverIdFromJson b
    let sectorId ← u64FromJson c
    let minerId ← u64FromJson d
    .ok ⟨c1out, proverId, sectorId, minerId⟩
  | _ => .error "invalid type"

def Request.fromJson : Json → Except String (Request env)
  | .obj fields => do
    let id ← u64FromJson (← field "id" fields)
    let task ← c2InputFromJson (← field "task" fields)
    .ok ⟨id, task⟩
  | .arr [a, b] => do
    let id ← u64FromJson a
    let task ← c2InputFromJson b
    .ok ⟨id, task⟩
  | _ => .error "invalid type"

variable (env) in
def Request.fromStr (line : String) : Except String (Request env) := do
  Request.fromJson (← env.jsonFromSlice (asBytes line))

end

/-- The output is the proof of a `SealCommitPhase2Output`. -/
structure Response where
  id : UInt64
  errMsg : Option String
  output : Option Bytes
  deriving DecidableEq, Repr

namespace Response

def value (id : UInt64) (proof : Bytes) : Response := ⟨id, none, some proof⟩

/-- `debug` is the `{:?}` of the error's text. -/
def err (debug : String → String) (id : UInt64) (e : String) : Response := ⟨id, some (debug e), none⟩

/-- What the task of a request answers with when `process_request` returns. -/
def of (debug : String → String) (id : UInt64) : Except String Bytes → Response
  | .ok proof => value id proof
  | .error e => err debug id e

def toJson (r : Response) : Json :=
  .obj [("id", u64ToJson r.id),
    ("err_msg", match r.errMsg with
      | some e => .str e
      | none => .null),
    ("output", match r.output with
      | some proof => .obj [("proof", .arr (proof.map u8ToJson))]
      | none => .null)]

def toString (r : Response) : String := String.ofList r.toJson.render

/-- `res_str`, as `write_resp` writes it. -/
def resStr (r : Response) : Bytes := asBytes (r.toString.push '\n')

theorem plain (r : Response) : r.toJson.Plain := by
  refine .obj fun f hf => ?_
  simp only [List.mem_cons, List.not_mem_nil, or_false] at hf
  rcases hf with rfl | rfl | rfl
  · exact .num _
  · cases r.errMsg with
    | none => exact .null
    | some e => exact .str e
  · cases r.output with
    | none => exact .null
    | some proof =>
      refine .obj fun f hf => ?_
      obtain rfl := List.mem_singleton.mp hf
      refine .arr fun item hi => ?_
      obtain ⟨b, -, rfl⟩ := List.mem_map.mp hi
      exact .num _

theorem read_toString (r : Response) : Json.read r.toString.toList = some r.toJson := by
  rw [toString, String.toList_ofList]
  exact Json.read_render r.plain

/-- One line, and then the newline. -/
theorem resStr_eq (r : Response) : r.resStr = asBytes r.toString ++ [10] := by
  simp only [resStr, asBytes_eq, String.toList_push, List.flatMap_append]
  rfl

theorem newline_not_mem (r : Response) : 10 ∉ asBytes r.toString := by
  intro newline
  have line := newline_mem_asBytes newline
  rw [toString, String.toList_ofList] at line
  exact Json.newline_not_mem_render r.plain line

end Response

/-! ## `run` -/

inductive Phase where
  /-- In `process_request`, however it ends. -/
  | working
  | responding (resp : Response) (call : WriteAll)
  deriving DecidableEq, Repr

/-- A spawned task, with the number of its request line. -/
structure Spawned where
  line : Nat
  id : UInt64
  phase : Phase
  deriving DecidableEq, Repr

/-- `lines` are the lines read so far. -/
structure State where
  out : PluginOut
  greeting : WriteAll
  lines : List String
  tasks : List Spawned
  deriving DecidableEq, Repr

def start : State := ⟨PluginOut.idle [], .locking, [], []⟩

inductive Action where
  | greet (n : Nat)
  | line (text : String)
  | finish (i : Nat) (result : Except String Bytes)
  | write (i n : Nat)
  deriving DecidableEq

def greetingData : Bytes := asBytes (readyMsg "c2")

section
variable (env : Extern) (debug : String → String) (capacity : Nat)

/-- A line that does not parse is logged, and that is all. -/
def readLine (text : String) (s : State) : State :=
  match Request.fromStr env text with
  | .ok req =>
    { s with
      lines := s.lines ++ [text]
      tasks := s.tasks ++ [⟨s.lines.length, req.id, .working⟩] }
  | .error _ => { s with lines := s.lines ++ [text] }

/-- Lines are read once the greeting has been written. -/
def step (s : State) : Action → Option State
  | .greet n =>
    (s.out.writeAll capacity n greetingData s.greeting).map fun (out, call) =>
      { s with out := out, greeting := call }
  | .line text => if s.greeting = .returned then some (readLine env text s) else none
  | .finish i result =>
    match s.tasks[i]? with
    | some ⟨line, id, .working⟩ =>
      some { s with
        tasks := s.tasks.set i ⟨line, id, .responding (.of debug id result) .locking⟩ }
    | _ => none
  | .write i n =>
    match s.tasks[i]? with
    | some ⟨line, id, .responding resp call⟩ =>
      (s.out.writeAll capacity n resp.resStr call).map fun (out, call) =>
        { s with out := out, tasks := s.tasks.set i ⟨line, id, .responding resp call⟩ }
    | _ => none

/-- Everything a step can do. -/
inductive Step (s : State) : Action → State → Prop
  | greet {n out call} (writes : s.out.writeAll capacity n greetingData s.greeting = some (out, call)) :
      Step s (.greet n) { s with out := out, greeting := call }
  | line {text} (greeted : s.greeting = .returned) : Step s (.line text) (readLine env text s)
  | finish {i line id result} (here : s.tasks[i]? = some ⟨line, id, .working⟩) :
      Step s (.finish i result)
        { s with tasks := s.tasks.set i ⟨line, id, .responding (.of debug id result) .locking⟩ }
  | write {i n line id resp call out call'}
      (here : s.tasks[i]? = some ⟨line, id, .responding resp call⟩)
      (writes : s.out.writeAll capacity n resp.resStr call = some (out, call')) :
      Step s (.write i n)
        { s with out := out, tasks := s.tasks.set i ⟨line, id, .responding resp call'⟩ }

variable {env debug capacity} {s s' : State} {a : Action}

theorem step_cases (h : step env debug capacity s a = some s') : Step env debug capacity s a s' := by
  cases a with
  | greet n =>
    obtain ⟨⟨out, call⟩, writes, same⟩ := Option.map_eq_some_iff.mp h
    cases same
    exact .greet writes
  | line text =>
    simp only [step] at h
    split at h
    · next greeted =>
      cases h
      exact .line greeted
    · cases h
  | finish i result =>
    simp only [step] at h
    split at h
    · next here =>
      cases h
      exact .finish here
    · cases h
  | write i n =>
    simp only [step] at h
    split at h
    · next here =>
      obtain ⟨⟨out, call⟩, writes, same⟩ := Option.map_eq_some_iff.mp h
      cases same
      exact .write here writes
    · cases h

end

end ClusterC2Plugin

end GpuProxy
