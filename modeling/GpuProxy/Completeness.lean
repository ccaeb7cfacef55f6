import GpuProxy.FileWrite
import GpuProxy.Rpc

/-!
# What is found is complete

Requests at once on a directory of resources, each store of which may fail, stop or be
overtaken between any two of its writes. `has_resource` is `is_file`, so a file counts as
stored from its creation on. `relied_complete_iff` says when those that go by it have a
complete file, and `torn_file_accepted` shows a retry that has not.
-/

namespace GpuProxy

namespace Disk

/-! ## The calls of submissions -/

/-- Storage calls that leave the files alone. -/
def Leaves (op : Op) : Prop :=
  (∀ rid, op ≠ .deleteResource rid) ∧ ∀ rid resource, op ≠ .storeResourceInfo rid resource

/-- The calls of threads that store the byte strings of `hashed` under their ids. -/
inductive FileCall (env : Extern) (hashed : Bytes → Prop) : FileOp → Prop
  | whole {op : Op} (leaves : Leaves op) : FileCall env hashed (.whole op)
  | create {bytes : Bytes} (h : hashed bytes) : FileCall env hashed (.create (genResourceId env bytes))
  | write {bytes : Bytes} {offset : Nat} {byte : UInt8} (h : hashed bytes)
      (piece : bytes[offset]? = some byte) :
      FileCall env hashed (.write (genResourceId env bytes) offset byte)

section
variable {env : Extern} {hashed : Bytes → Prop} {R : (op : FileOp) → op.Response → Prop}

theorem writeAll_sat {bytes : Bytes} (h : hashed bytes) {offset : Nat} {rest : Bytes}
    (suffix : bytes.drop offset = rest) :
    (writeAll (genResourceId env bytes) offset rest).Sat (FileCall env hashed) R fun _ => True := by
  induction rest generalizing offset with
  | nil => trivial
  | cons byte rest ih =>
    have piece : bytes[offset]? = some byte := by
      rw [← List.head?_drop, suffix]
      rfl
    refine ⟨.write h piece, fun r _ => ?_⟩
    cases r with
    | error e => trivial
    | ok _ =>
      apply ih
      rw [← List.tail_drop, suffix]
      rfl

theorem write_sat {bytes : Bytes} (h : hashed bytes) :
    (write (genResourceId env bytes) bytes).Sat (FileCall env hashed) R fun _ => True := by
  refine ⟨.create h, fun r _ => ?_⟩
  cases r with
  | error e => trivial
  | ok _ => exact writeAll_sat h rfl

theorem carryOut_leaves {op : Op} (h : Leaves op) : carryOut op = Program.perform (FileOp.whole op) := by
  cases op with
  | storeResourceInfo rid resource => exact absurd rfl (h.2 rid resource)
  | _ => rfl

theorem carryOut_sat {op : Op}
    (call : Leaves op ∨ ∃ bytes, hashed bytes ∧ op = .storeResourceInfo (genResourceId env bytes) bytes) :
    (carryOut op).Sat (FileCall env hashed) R fun _ => True := by
  rcases call with leaves | ⟨bytes, h, rfl⟩
  · rw [carryOut_leaves leaves]
    exact ⟨.whole leaves, fun _ _ => trivial⟩
  · exact (write_sat h).bind fun _ _ => trivial

/-- The files are made of pieces of what is stored under their ids. -/
structure Kept (env : Extern) (hashed : Bytes → Prop) (d : Disk) : Prop where
  created : ∀ rid, d.files rid = none ↔ .create rid ∉ d.log
  pieces : ∀ rid content, d.files rid = some content →
    ∃ bytes, hashed bytes ∧ genResourceId env bytes = rid ∧ Pieces rid bytes d.log content

theorem act_leaves {op : Op} (h : Leaves op) (ch : Choice) (s : Server) :
    (Server.act ch op s).2.resources = s.resources := by
  unfold Server.act
  split
  · rfl
  · cases op with
    | deleteResource rid => exact absurd rfl (h.1 rid)
    | storeResourceInfo rid resource => exact absurd rfl (h.2 rid resource)
    | _ => rfl

/-- A call on one file leaves the others as they are. -/
theorem Kept.update {d : Disk} (kept : Kept env hashed d) {op : FileOp} {name : String}
    {file : Option Bytes}
    (only : ∀ rid, rid ≠ name → op ≠ .create rid ∧ ∀ o b, op ≠ .write rid o b)
    (created : file = none ↔ .create name ∉ op :: d.log)
    (pieces : ∀ content, file = some content → ∃ bytes, hashed bytes ∧
      genResourceId env bytes = name ∧ Pieces name bytes (op :: d.log) content) :
    Kept env hashed { d with files := Function.update d.files name file, log := op :: d.log } := by
  constructor
  · intro rid
    by_cases same : rid = name
    · subst same
      simp only [Function.update_self]
      exact created
    · simp only [Function.update_of_ne same, List.mem_cons, kept.created]
      rw [or_iff_right (Ne.symm (only rid same).1)]
  · intro rid content
    by_cases same : rid = name
    · subst same
      simp only [Function.update_self]
      exact pieces content
    · simp only [Function.update_of_ne same]
      intro found
      obtain ⟨bytes, hb, id, old⟩ := kept.pieces rid content found
      exact ⟨bytes, hb, id, old.other (only rid same).1 (only rid same).2⟩

theorem act_kept (ids : NoCollision env hashed) (ch : Choice) {op : FileOp} {d : Disk}
    (call : FileCall env hashed op) (kept : Kept env hashed d) :
    Kept env hashed (act ch op d).2 := by
  cases call with
  | @whole op leaves =>
    have same : (act ch (.whole op) d).2 =
        { d with tasks := (Server.act ch op d.server).2.tasks } := by
      simp only [act, act_leaves leaves, server]
      rfl
    rw [same]
    exact ⟨kept.created, kept.pieces⟩
  | @create bytes hb =>
    simp only [act]
    split
    · exact kept
    · apply kept.update
      · intro rid other
        simp [Ne.symm other]
      · simp
      · intro content found
        cases found
        exact ⟨bytes, hb, rfl, pieces_create _ _ _⟩
  | @write bytes offset byte hb piece =>
    simp only [act]
    split
    · exact kept
    · apply kept.update
      · intro rid other
        simp [Ne.symm other]
      · simp [kept.created]
      · intro content found
        obtain ⟨old, there, rfl⟩ := Option.map_eq_some_iff.mp found
        obtain ⟨bytes', hb', id, pieces⟩ := kept.pieces _ old there
        have same : bytes' = bytes := ids bytes' bytes hb' hb id
        subst same
        exact ⟨bytes', hb, rfl, pieces.write piece⟩

end

/-! ## Requests at once -/

/-- One call of one thread; a thread answers `none` where its parameters do not decode. -/
abbrev Threads := Pool Disk FileOp FileOp.Response (Option Answer)

def step : Threads → Nat × Choice → Option Threads := Pool.step act

section
variable (env : Extern) (reqs : List Request)

def thread (req : Request) : Program FileOp FileOp.Response (Option Answer) :=
  match req.handler env with
  | some h => do return some (← lower h.run)
  | none => .ret none

/-- Thread `i` is for request `i`. Nothing is stored yet. -/
def start (root : String) (tasks : DbOps.Tasks) : Threads :=
  ⟨⟨tasks, root, fun _ => none, []⟩, reqs.map (thread env)⟩

/-- Byte strings that a submission among the requests is for. -/
def Submitted (bytes : Bytes) : Prop :=
  ∃ req ∈ reqs, ∃ addr taskType, req.Submits env addr taskType bytes

/-- What is stored under the id is all of what was submitted under it. -/
def Complete (d : Disk) (rid : String) : Prop :=
  ∃ bytes, Submitted env reqs bytes ∧ genResourceId env bytes = rid ∧
    d.server.resources.getResourceInfo rid = .ok bytes

/-- Since the file was last created or truncated, the last byte of what was submitted under
the id and each of its bytes but zeros have been written. -/
def Written (d : Disk) (rid : String) : Prop :=
  ∃ bytes, Submitted env reqs bytes ∧ genResourceId env bytes = rid ∧ .create rid ∈ d.log ∧
    ∀ o b, bytes[o]? = some b → b ≠ 0 ∨ o + 1 = bytes.length → .write rid o b ∈ since rid d.log

/-- The step takes the resource for stored: the file is found or read, or a submission
of it is answered with its task. -/
inductive Relies (u : Threads) : Nat × Choice → String → Prop
  | finds {i ch rid k} (next : u.threads[i]? = some (.call (.whole (.hasResource rid)) k))
      (found : (act ch (.whole (.hasResource rid)) u.shared).1 = .ok true) : Relies u (i, ch) rid
  | reads {i ch rid k bytes}
      (next : u.threads[i]? = some (.call (.whole (.getResourceInfo rid)) k))
      (read : (act ch (.whole (.getResourceInfo rid)) u.shared).1 = .ok bytes) :
      Relies u (i, ch) rid
  | accepts {i ch v req addr taskType bytes id} (request : reqs[i]? = some req)
      (submits : req.Submits env addr taskType bytes) (taken : step u (i, ch) = some v)
      (answer : v.threads[i]? = some (.ret (some (.ok (.taskId id))))) :
      Relies u (i, ch) (genResourceId env bytes)

end

section
variable {env : Extern} {reqs : List Request}

theorem calls_carryOut {req : Request} {op : Op} (mem : req ∈ reqs)
    (noRecord : ∀ w tid proof, req ≠ .recordProof w tid proof) (call : Request.Calls env req op) :
    Leaves op ∨
      ∃ bytes, Submitted env reqs bytes ∧ op = .storeResourceInfo (genResourceId env bytes) bytes := by
  cases call with
  | @submission _ addr taskType bytes _ submits call =>
    cases call with
    | storeResourceInfo => exact Or.inr ⟨bytes, ⟨req, mem, addr, taskType, submits⟩, rfl⟩
    | hasResource | hasTask | addTask => exact Or.inl (by simp [Leaves])
  | recordFetch | recordProof | deleteResource => exact absurd rfl (noRecord _ _ _)
  | _ => exact Or.inl (by simp [Leaves])

theorem thread_sat {req : Request} {R : (op : FileOp) → op.Response → Prop} (mem : req ∈ reqs)
    (noRecord : ∀ w tid proof, req ≠ .recordProof w tid proof) :
    (thread env req).Sat (FileCall env (Submitted env reqs)) R fun _ => True := by
  unfold thread
  split
  · next h hh =>
    have calls : h.run.Sat (Request.Calls env req) (fun _ _ => True) fun _ => True :=
      (Request.handler_sat hh).mono (fun _ call => call) (fun _ _ hr => hr) fun _ _ => trivial
    have lowered : (lower h.run).Sat (FileCall env (Submitted env reqs)) R fun _ => True :=
      Program.interpret_sat (fun op call => carryOut_sat (calls_carryOut mem noRecord call)) calls
    exact lowered.bind fun _ _ => trivial
  · trivial

theorem run_kept {root : String} {tasks : DbOps.Tasks} {as : List (Nat × Choice)} {u : Threads}
    (ids : NoCollision env (Submitted env reqs))
    (noRecords : ∀ req ∈ reqs, ∀ w tid proof, req ≠ .recordProof w tid proof)
    (run : Runs.run step (start env reqs root tasks) as = some u) :
    Kept env (Submitted env reqs) u.shared := by
  have empty : Kept env (Submitted env reqs) (start env reqs root tasks).shared := by
    constructor
    · intro rid
      simp [start]
    · intro rid content found
      cases found
  have contracts : ∀ p ∈ (start env reqs root tasks).threads,
      p.Sat (FileCall env (Submitted env reqs)) (fun _ _ => True) fun _ => True := by
    intro p hp
    obtain ⟨req, mem, rfl⟩ := List.mem_map.mp hp
    exact thread_sat mem (noRecords req mem)
  have keep (ch : Choice) (op : FileOp) (d : Disk) (call : FileCall env (Submitted env reqs) op)
      (kept : Kept env (Submitted env reqs) d) :
      True ∧ Kept env (Submitted env reqs) (act ch op d).2 :=
    ⟨trivial, act_kept ids ch call kept⟩
  exact (Pool.run_sat keep run empty contracts).1

/-- What is stored under an id is complete exactly where its pieces have been written. -/
theorem Kept.complete_iff {d : Disk} {rid : String} (ids : NoCollision env (Submitted env reqs))
    (kept : Kept env (Submitted env reqs) d) :
    Complete env reqs d rid ↔ Written env reqs d rid := by
  constructor
  · rintro ⟨bytes, submitted, id, read⟩
    have file : d.files rid = some bytes := ResourceStore.getResourceInfo_ok.mp read
    obtain ⟨bytes', submitted', id', pieces⟩ := kept.pieces rid bytes file
    have same : bytes' = bytes := ids bytes' bytes submitted' submitted (id'.trans id.symm)
    subst same
    refine ⟨bytes', submitted, id, ?_, pieces.complete_iff.mp rfl⟩
    by_contra absent
    rw [(kept.created rid).mpr absent] at file
    cases file
  · rintro ⟨bytes, submitted, id, created, written⟩
    obtain ⟨content, file⟩ : ∃ content, d.files rid = some content := by
      apply Option.ne_none_iff_exists'.mp
      intro absent
      exact (kept.created rid).mp absent created
    obtain ⟨bytes', submitted', id', pieces⟩ := kept.pieces rid content file
    have same : bytes' = bytes := ids bytes' bytes submitted' submitted (id'.trans id.symm)
    subst same
    have whole : content = bytes' := pieces.complete_iff.mpr written
    subst whole
    exact ⟨content, submitted, id, ResourceStore.getResourceInfo_ok.mpr file⟩

/-- Every resource that is found, read or accepted is complete exactly where its pieces
have been written by then. -/
theorem relied_complete_iff (root : String) (tasks : DbOps.Tasks) (as : List (Nat × Choice))
    (ids : NoCollision env (Submitted env reqs))
    (noRecords : ∀ req ∈ reqs, ∀ w tid proof, req ≠ .recordProof w tid proof) :
    Runs.Along step (fun u a => ∀ rid, Relies env reqs u a rid → Complete env reqs u.shared rid)
        (start env reqs root tasks) as ↔
      Runs.Along step (fun u a => ∀ rid, Relies env reqs u a rid → Written env reqs u.shared rid)
        (start env reqs root tasks) as := by
  constructor
  · intro complete pre a post u split run rid relies
    exact ((run_kept ids noRecords run).complete_iff ids).mp
      (complete pre a post u split run rid relies)
  · intro written pre a post u split run rid relies
    exact ((run_kept ids noRecords run).complete_iff ids).mpr
      (written pre a post u split run rid relies)

section Demo

def retried : List Request :=
  ["1 MinerId(1000)", "1 MinerId(1000)"].map fun c =>
    .addTask "t01000" c .c2 (Base64.encode (asBytes Demo.text))

def fine : Choice := ⟨0, none, none⟩

/-- The first store fails after one byte. -/
def torn : List (Nat × Choice) :=
  [(0, fine), (0, fine), (0, fine), (0, ⟨0, some osError, none⟩), (1, fine), (1, fine)]

theorem retried_submitted {bytes : Bytes} (h : Submitted Demo.env retried bytes) :
    bytes = asBytes Demo.text := by
  obtain ⟨req, mem, addr, taskType, submits⟩ := h
  obtain ⟨c, -, rfl⟩ := List.mem_map.mp mem
  have decodes : Base64.decode (Base64.encode (asBytes Demo.text)) = some bytes := submits.2.2.1
  rw [Base64.decode_encode] at decodes
  exact (Option.some.inj decodes).symm

theorem retried_ids : NoCollision Demo.env (Submitted Demo.env retried) := by
  intro a b ha hb _
  rw [retried_submitted ha, retried_submitted hb]

theorem retried_noRecords : ∀ req ∈ retried, ∀ w tid proof, req ≠ .recordProof w tid proof := by
  intro req mem w tid proof
  obtain ⟨c, -, rfl⟩ := List.mem_map.mp mem
  simp

def tornAnswers : List (Option (Option Answer)) :=
  [some (some (.error (.failed osError))),
    some (some (.ok (.taskId "48bb11f3-3f83-5d9f-ad3c-edd0b5481a6f")))]

/-- The file before the last step, and the answers after it. -/
theorem torn_run : ∃ u v, Runs.run step (start Demo.env retried "" Table.empty) torn = some u ∧
    u.shared.files Demo.resourceId = some [123] ∧ step u (1, fine) = some v ∧
    v.shared.files Demo.resourceId = some [123] ∧ v.threads.map Program.answer = tornAnswers := by
  have ran : ((Runs.run step (start Demo.env retried "" Table.empty) torn).map fun u =>
      decide (u.shared.files Demo.resourceId = some [123]) && (step u (1, fine)).any fun v =>
        decide (v.shared.files Demo.resourceId = some [123]) &&
          decide (v.threads.map Program.answer = tornAnswers)) = some true := by
    decide +kernel
  obtain ⟨u, run, checked⟩ := Option.map_eq_some_iff.mp ran
  simp only [Bool.and_eq_true, decide_eq_true_eq, Option.any_eq_true] at checked
  obtain ⟨before, v, taken, after, answers⟩ := checked
  exact ⟨u, v, run, before, taken, after, answers⟩

theorem relied_complete_iff_demo :
    Runs.Along step
        (fun u a => ∀ rid, Relies Demo.env retried u a rid → Complete Demo.env retried u.shared rid)
        (start Demo.env retried "" Table.empty) torn ↔
      Runs.Along step
        (fun u a => ∀ rid, Relies Demo.env retried u a rid → Written Demo.env retried u.shared rid)
        (start Demo.env retried "" Table.empty) torn :=
  relied_complete_iff "" Table.empty torn retried_ids retried_noRecords

/-- The retry finds the one byte the failed store has left and is answered with its task. -/
theorem torn_file_accepted : ∃ v,
    Runs.run step (start Demo.env retried "" Table.empty) (torn ++ [(1, fine)]) = some v ∧
    v.threads.map Program.answer = [some (some (.error (.failed osError))),
      some (some (.ok (.taskId "48bb11f3-3f83-5d9f-ad3c-edd0b5481a6f")))] ∧
    v.shared.server.resources.hasResource Demo.resourceId = true ∧
    v.shared.server.resources.getResourceInfo Demo.resourceId = .ok [123] ∧
    ¬ Runs.Along step
      (fun u a => ∀ rid, Relies Demo.env retried u a rid → Complete Demo.env retried u.shared rid)
      (start Demo.env retried "" Table.empty) (torn ++ [(1, fine)]) := by
  obtain ⟨u, v, run, before, taken, after, answers⟩ := torn_run
  refine ⟨v, Runs.run_snoc run taken, answers, ?_, ResourceStore.getResourceInfo_ok.mpr after, ?_⟩
  · exact ResourceStore.hasResource_iff.mpr ⟨_, after⟩
  · intro complete
    have accepted : v.threads[1]? =
        some (.ret (some (.ok (.taskId "48bb11f3-3f83-5d9f-ad3c-edd0b5481a6f")))) := by
      have second : (v.threads.map Program.answer)[1]? = _ := congrArg (·[1]?) answers
      rw [List.getElem?_map] at second
      obtain ⟨p, there, answer⟩ := Option.map_eq_some_iff.mp second
      cases p with
      | ret a =>
        cases answer
        exact there
      | call op k => cases answer
    have relies : Relies Demo.env retried u (1, fine)
        (genResourceId Demo.env (asBytes Demo.text)) :=
      .accepts rfl ⟨rfl, rfl, Base64.decode_encode _, _, Demo.fromSlice_text⟩ taken accepted
    obtain ⟨bytes, submitted, -, read⟩ := complete torn (1, fine) [] u rfl run _ relies
    have stored := ResourceStore.getResourceInfo_ok.mp read
    rw [Demo.genResourceId_text, retried_submitted submitted] at stored
    have same : some [123] = some (asBytes Demo.text) := before.symm.trans stored
    revert same
    decide +kernel

end Demo

end

end Disk

end GpuProxy
