import GpuProxy.Storage

/-!
# Resources written in pieces

`ResourceStore.fs` replaces a file in one call. Here `fs::write` is what it is:
the file is created or truncated first, then its bytes are written one after
the other at the offset of the writer's own descriptor, and each of these calls
may fail or be the last one of its thread. `is_file` holds from the first of
them on. A request alone and without failures does what it does with the whole
call.
-/

namespace GpuProxy

inductive FileOp where
  | whole (op : Op)
  | create (rid : String)
  | write (rid : String) (offset : Nat) (byte : UInt8)
  deriving DecidableEq

abbrev FileOp.Response : FileOp → Type
  | .whole op => op.Response
  | .create _ => Except String Unit
  | .write _ _ _ => Except String Unit

/-- The server with files for resources. `log` is the creations and writes so far,
the latest first. -/
structure Disk where
  tasks : DbOps.Tasks
  root : String
  files : String → Option Bytes
  log : List FileOp

/-- A byte written past the end leaves zeros in between. -/
def putAt (offset : Nat) (byte : UInt8) (content : Bytes) : Bytes :=
  if offset < content.length then content.set offset byte
  else content ++ List.replicate (offset - content.length) 0 ++ [byte]

namespace Disk

def server (d : Disk) : Server := ⟨d.tasks, .fs d.root d.files⟩

@[simp] theorem content_fs (root : String) (files : String → Option Bytes) :
    (ResourceStore.fs root files).content = files := rfl

def act (ch : Choice) : (op : FileOp) → Disk → op.Response × Disk
  | .whole op, d =>
    let r := Server.act ch op d.server
    (r.1, { d with tasks := r.2.tasks, files := r.2.resources.content })
  | .create rid, d =>
    match ch.fails with
    | some e => (.error e, d)
    | none =>
      (.ok (), { d with
        files := Function.update d.files rid (some [])
        log := .create rid :: d.log })
  | .write rid offset byte, d =>
    match ch.fails with
    | some e => (.error e, d)
    | none =>
      (.ok (), { d with
        files := Function.update d.files rid ((d.files rid).map (putAt offset byte))
        log := .write rid offset byte :: d.log })

/-! ## `fs::write` -/

/-- `write_all`: the rest of the bytes, from an offset on. -/
def writeAll (rid : String) : Nat → Bytes → Program FileOp FileOp.Response (Except String Unit)
  | _, [] => .ret (.ok ())
  | offset, byte :: rest =>
    .call (.write rid offset byte) fun
      | .ok () => writeAll rid (offset + 1) rest
      | .error e => .ret (.error e)

def write (rid : String) (resource : Bytes) :
    Program FileOp FileOp.Response (Except String Unit) :=
  .call (.create rid) fun
    | .ok () => writeAll rid 0 resource
    | .error e => .ret (.error e)

/-- `store_resource_info` in pieces; the other storage calls as they are. -/
def carryOut : (op : Op) → Program FileOp FileOp.Response op.Response
  | .storeResourceInfo rid resource => do return (← write rid resource).map fun _ => rid
  | op => Program.perform (FileOp.whole op)

def lower {α : Type} : Program Op Op.Response α → Program FileOp FileOp.Response α :=
  Program.interpret carryOut

/-! ## One request alone -/

/-- A call with no other one around and no failure. -/
def serial (now : Int) : (op : FileOp) → Disk → op.Response × Disk
  | .whole op, d => act ⟨now, none, d.server.selects op⟩ (.whole op) d
  | op, d => act ⟨now, none, none⟩ op d

section
variable (now : Int)

theorem putAt_length (byte : UInt8) (content : Bytes) :
    putAt content.length byte content = content ++ [byte] := by simp [putAt]

/-- Alone, the rest of the bytes follows what is there. -/
theorem exec_writeAll {rid : String} {o : Nat} {rest content : Bytes} {d : Disk}
    (there : d.files rid = some content) (size : content.length = o) :
    ((writeAll rid o rest).exec (serial now) d).1 = .ok () ∧
      ((writeAll rid o rest).exec (serial now) d).2.server =
        ⟨d.tasks, .fs d.root (Function.update d.files rid (some (content ++ rest)))⟩ := by
  induction rest generalizing o content d with
  | nil =>
    refine ⟨rfl, ?_⟩
    rw [List.append_nil, ← there, Function.update_eq_self]
    rfl
  | cons byte rest ih =>
    let d' : Disk := { d with
      files := Function.update d.files rid (some (content ++ [byte]))
      log := .write rid o byte :: d.log }
    have step : serial now (.write rid o byte) d = (.ok (), d') := by
      simp only [serial, act, there, Option.map_some, ← size, putAt_length]
      simp [d', size]
    have last : d'.files rid = some (content ++ [byte]) := Function.update_self ..
    obtain ⟨ok, server⟩ := ih (o := o + 1) last (by simp [size])
    simp only [writeAll, Program.exec_call, step]
    refine ⟨ok, server.trans ?_⟩
    simp [d']

theorem exec_carryOut (op : Op) (d : Disk) :
    (((carryOut op).exec (serial now) d).1, ((carryOut op).exec (serial now) d).2.server) =
      Server.serial now op d.server := by
  cases op with
  | storeResourceInfo rid resource =>
    let d' : Disk := { d with
      files := Function.update d.files rid (some [])
      log := .create rid :: d.log }
    have created : serial now (.create rid) d = (.ok (), d') := rfl
    have empty : d'.files rid = some [] := Function.update_self ..
    obtain ⟨ok, server⟩ := exec_writeAll now (o := 0) empty rfl
    simp only [carryOut, write, Program.call_bind, Program.exec_call, created, Program.exec_bind,
      Program.pure_eq, Program.exec_ret]
    rw [ok, server]
    simp [d', Server.serial, Server.perform, ResourceStore.storeResourceInfo, Disk.server,
      Except.map]
  | deleteResource rid =>
    cases file : d.files rid <;>
      simp [carryOut, Program.perform, serial, act, Server.act, Server.serial, Server.perform,
        ResourceStore.deleteResource, server, file]
  | _ => rfl

/-- A request whose stores run alone and do not fail sees whole files only. -/
theorem exec_lower {α : Type} (p : Program Op Op.Response α) (d : Disk) :
    (((lower p).exec (serial now) d).1, ((lower p).exec (serial now) d).2.server) =
      p.exec (Server.serial now) d.server :=
  Program.exec_interpret (exec_carryOut now) p d

end

/-! ## What the pieces of a file make -/

theorem length_putAt (offset : Nat) (byte : UInt8) (content : Bytes) :
    (putAt offset byte content).length = max content.length (offset + 1) := by
  unfold putAt
  split
  · rw [List.length_set]
    omega
  · simp only [List.length_append, List.length_replicate, List.length_cons, List.length_nil]
    omega

theorem getElem?_putAt (offset : Nat) (byte : UInt8) (content : Bytes) (i : Nat) :
    (putAt offset byte content)[i]? =
      if i = offset then some byte
      else if i < content.length then content[i]?
      else if i < offset then some 0
      else none := by
  unfold putAt
  split
  · next inside =>
    rw [List.getElem?_set]
    by_cases hi : offset = i
    · subst hi
      simp [inside]
    · simp only [hi, Ne.symm hi, ↓reduceIte]
      split
      · rfl
      · next beyond => rw [List.getElem?_eq_none (by omega), if_neg (by omega)]
  · next outside =>
    rw [List.getElem?_append, List.getElem?_append]
    simp only [List.length_append, List.length_replicate]
    grind

/-- The calls since the file was last created or truncated. -/
def since (rid : String) (log : List FileOp) : List FileOp :=
  log.takeWhile fun op => decide (op ≠ .create rid)

@[simp] theorem since_create (rid : String) (log : List FileOp) :
    since rid (.create rid :: log) = [] := by simp [since]

theorem since_cons {rid : String} {op : FileOp} (h : op ≠ .create rid) (log : List FileOp) :
    since rid (op :: log) = op :: since rid log := by simp [since, h]

/-- The content of a file whose pieces are all of `bytes`: the bytes that have been
written and zeros, up to the last one written. -/
structure Pieces (rid : String) (bytes : Bytes) (log : List FileOp) (content : Bytes) : Prop where
  agree : ∀ o b, .write rid o b ∈ since rid log → bytes[o]? = some b
  written : ∀ o b, .write rid o b ∈ since rid log → content[o]? = some b
  hole : ∀ o b, content[o]? = some b → .write rid o b ∈ since rid log ∨ b = 0
  last : content ≠ [] → ∃ b, .write rid (content.length - 1) b ∈ since rid log

section
variable {rid : String} {bytes content : Bytes} {log : List FileOp}

theorem pieces_create (rid : String) (bytes : Bytes) (log : List FileOp) :
    Pieces rid bytes (.create rid :: log) [] := by
  constructor
  · intro o b h
    simp at h
  · intro o b h
    simp at h
  · intro o b h
    simp at h
  · intro h
    exact absurd rfl h

/-- Calls on other files, or none, change nothing. -/
theorem Pieces.other {op : FileOp} (pieces : Pieces rid bytes log content)
    (created : op ≠ .create rid) (written : ∀ o b, op ≠ .write rid o b) :
    Pieces rid bytes (op :: log) content := by
  have same (o : Nat) (b : UInt8) :
      .write rid o b ∈ since rid (op :: log) ↔ .write rid o b ∈ since rid log := by
    rw [since_cons created, List.mem_cons]
    exact or_iff_right (Ne.symm (written o b))
  constructor
  · intro o b h
    exact pieces.agree o b ((same o b).mp h)
  · intro o b h
    exact pieces.written o b ((same o b).mp h)
  · intro o b h
    rw [same]
    exact pieces.hole o b h
  · intro h
    simp only [same]
    exact pieces.last h

theorem Pieces.write {offset : Nat} {byte : UInt8} (pieces : Pieces rid bytes log content)
    (piece : bytes[offset]? = some byte) :
    Pieces rid bytes (.write rid offset byte :: log) (putAt offset byte content) := by
  have mem (o : Nat) (b : UInt8) : .write rid o b ∈ since rid (.write rid offset byte :: log) ↔
      (o = offset ∧ b = byte) ∨ .write rid o b ∈ since rid log := by
    rw [since_cons (by simp), List.mem_cons]
    simp
  have agree (o : Nat) (b : UInt8)
      (h : .write rid o b ∈ since rid (.write rid offset byte :: log)) : bytes[o]? = some b := by
    rcases (mem o b).mp h with ⟨rfl, rfl⟩ | h
    · exact piece
    · exact pieces.agree o b h
  constructor
  · exact agree
  · intro o b h
    rw [getElem?_putAt]
    split
    · next same =>
      have both : bytes[o]? = some b := agree o b h
      rw [same, piece] at both
      exact both
    · next other =>
      have old : content[o]? = some b := pieces.written o b (((mem o b).mp h).resolve_left (by simp [other]))
      have inside : o < content.length := (List.getElem?_eq_some_iff.mp old).1
      rw [if_pos inside, old]
  · intro o b h
    rw [getElem?_putAt] at h
    rw [mem]
    split at h
    · next same =>
      cases h
      exact Or.inl (Or.inl ⟨same, rfl⟩)
    · split at h
      · rcases pieces.hole o b h with old | zero
        · exact Or.inl (Or.inr old)
        · exact Or.inr zero
      · split at h
        · cases h
          exact Or.inr rfl
        · cases h
  · intro _
    rw [length_putAt]
    by_cases inside : offset < content.length
    · obtain ⟨b, hb⟩ := pieces.last (List.ne_nil_of_length_pos (Nat.zero_lt_of_lt inside))
      refine ⟨b, (mem _ b).mpr (Or.inr ?_)⟩
      rwa [Nat.max_eq_left inside]
    · refine ⟨byte, (mem _ byte).mpr (Or.inl ⟨?_, rfl⟩)⟩
      omega

/-- A file is complete exactly where its last byte and every byte but zeros have been
written since it was last truncated. -/
theorem Pieces.complete_iff (pieces : Pieces rid bytes log content) :
    content = bytes ↔ ∀ o b, bytes[o]? = some b → b ≠ 0 ∨ o + 1 = bytes.length →
      .write rid o b ∈ since rid log := by
  constructor
  · rintro rfl o b piece needed
    rcases pieces.hole o b piece with written | zero
    · exact written
    · have final : o + 1 = content.length := needed.resolve_left (not_not.mpr zero)
      obtain ⟨b', last⟩ := pieces.last (List.ne_nil_of_length_pos (by omega))
      have same : content.length - 1 = o := by omega
      rw [same] at last
      have value := pieces.agree o b' last
      rw [piece] at value
      cases value
      exact last
  · intro all
    have short : content.length ≤ bytes.length := by
      by_cases empty : content = []
      · simp [empty]
      · obtain ⟨b, last⟩ := pieces.last empty
        have inside := (List.getElem?_eq_some_iff.mp (pieces.agree _ b last)).1
        omega
    have long : bytes.length ≤ content.length := by
      by_cases empty : bytes.length = 0
      · omega
      · have final : bytes[bytes.length - 1]? = some (bytes[bytes.length - 1]) :=
          List.getElem?_eq_getElem (by omega)
        have there := pieces.written _ _ (all _ _ final (Or.inr (by omega)))
        have inside := (List.getElem?_eq_some_iff.mp there).1
        omega
    apply List.ext_getElem?
    intro o
    by_cases inside : o < content.length
    · have here : content[o]? = some content[o] := List.getElem?_eq_getElem inside
      have piece : bytes[o]? = some bytes[o] := List.getElem?_eq_getElem (by omega)
      by_cases zero : bytes[o] = 0
      · rcases pieces.hole o _ here with written | hole
        · rw [here, pieces.agree o _ written]
        · rw [here, piece, hole, zero]
      · rw [piece, pieces.written o _ (all o _ piece (Or.inl zero))]
    · rw [List.getElem?_eq_none (by omega), List.getElem?_eq_none (by omega)]

end

end Disk

end GpuProxy
