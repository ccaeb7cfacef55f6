import GpuProxy.Entity
import Mathlib.Data.List.Infix
import Mathlib.Algebra.Group.Nat.Defs

/-!
# Code outside the repository, and the ids built from it

`Extern` collects what the program calls in other crates: UUID v5, the text
form of addresses and sector ids, `serde_json`, and the prover. The JSON layer
stops at a document tree; how the repository's structs map to it is `Resource`.
-/

namespace GpuProxy

/-- A JSON document. `decimal` is a number literal with a fraction or an exponent. -/
inductive Json where
  | null
  | bool (b : Bool)
  | num (n : Int)
  | decimal (literal : String)
  | str (s : String)
  | arr (items : List Json)
  | obj (fields : List (String × Json))

structure Extern where
  /-- `SealCommitPhase1Output`. -/
  C1Out : Type
  /-- `Uuid::new_v5(&Uuid::NAMESPACE_OID, _).to_string()`. -/
  newV5 : Bytes → String
  /-- `Address::from_str`. It slices the text without a check, so a short one (`f1aa`)
  makes it panic: `none`. -/
  parseAddress : String → Option (Except String Address)
  addressToString : Address → String
  sectorIdToString : UInt64 → String
  jsonToVec : Json → Bytes
  jsonFromSlice : Bytes → Except String Json
  c1OutToJson : C1Out → Json
  c1OutFromJson : Json → Except String C1Out
  /-- `seal_commit_phase2`. The number is its randomness; an error is the text
  of the error or of the panic it ends in. -/
  sealCommitPhase2 : C1Out → ProverId → UInt64 → Nat → Except String Bytes

/-- The address, where reading it does not panic. -/
def Extern.addressFromStr (env : Extern) (text : String) : Except String Address :=
  (env.parseAddress text).getD (.error "panicked")

def Extern.addressPanics (env : Extern) (text : String) : Bool := (env.parseAddress text).isNone

theorem Extern.addressPanics_of_ok {env : Extern} {text : String} {addr : Address}
    (parses : env.addressFromStr text = .ok addr) : env.addressPanics text = false := by
  unfold addressFromStr at parses
  unfold addressPanics
  cases read : env.parseAddress text with
  | none =>
    rw [read] at parses
    cases parses
  | some r => rfl

/-- `proof` is a possible output of `seal_commit_phase2` on these arguments. -/
def Extern.SealOutput (env : Extern) (c1out : env.C1Out) (proverId : ProverId) (sectorId : UInt64)
    (proof : Bytes) : Prop :=
  ∃ seed, env.sealCommitPhase2 c1out proverId sectorId seed = .ok proof

/-- An error of the RPC layer, with the text a client sees. -/
inductive RpcError where
  | invalidParams (message : String)
  | failed (message : String)
  deriving DecidableEq, Repr

def RpcError.message : RpcError → String
  | .invalidParams message => message
  | .failed message => message

def invalidParams {α : Type} : Except String α → Except RpcError α :=
  Except.mapError .invalidParams

def internalCallError {α : Type} : Except String α → Except RpcError α :=
  Except.mapError .failed

def ifNotFound {α : Type} (what : String) : Option α → Except String α
  | some a => .ok a
  | none => .error ("not found " ++ what)

/-- The text of a duplicate-key error, which the database writes. -/
def primaryKeyConflict : String := "primary key conflict"

/-- The text of an I/O error, which the operating system writes. -/
def osError : String := "os error"

/-- `str::contains`. -/
def contains (text pattern : String) : Bool := decide (pattern.toList <:+: text.toList)

def asBytes (s : String) : Bytes := s.toUTF8.data.toList

theorem asBytes_inj {s t : String} (h : asBytes s = asBytes t) : s = t := by
  apply String.toByteArray_inj.mp
  apply ByteArray.ext
  exact Array.toList_inj.mp h

/-- `BufMut::put_i32`: four bytes, most significant first. -/
def putI32 (v : Int32) : Bytes :=
  let n := v.toUInt32.toNat
  [UInt8.ofNat (n / 2 ^ 24), UInt8.ofNat (n / 2 ^ 16), UInt8.ofNat (n / 2 ^ 8), UInt8.ofNat n]

section
variable (env : Extern)

def genResourceId (resourceBytes : Bytes) : String := env.newV5 resourceBytes

/-- The buffer `gen_task_id` hashes. -/
def taskIdBuffer (addr : Address) (taskType : TaskType) (resourceId : String) : Bytes :=
  addr.payloadBytes ++ putI32 taskType.toI32 ++ asBytes resourceId

def genTaskId (addr : Address) (taskType : TaskType) (resourceBytes : Bytes) : String :=
  env.newV5 (taskIdBuffer addr taskType (genResourceId env resourceBytes))

/-- Different byte strings of `hashed` have different UUIDs. -/
def NoCollision (hashed : Bytes → Prop) : Prop :=
  ∀ a b, hashed a → hashed b → env.newV5 a = env.newV5 b → a = b

/-- UUID text is 36 bytes long. -/
def UuidText : Prop := ∀ b, (asBytes (env.newV5 b)).length = 36

end

/-- Equal suffixes of equal length: the buffer determines the resource id. -/
theorem taskIdBuffer_resource {env : Extern} (text : UuidText env) {a a' : Address}
    {ty ty' : TaskType} {b b' : Bytes}
    (h : taskIdBuffer a ty (genResourceId env b) = taskIdBuffer a' ty' (genResourceId env b')) :
    genResourceId env b = genResourceId env b' := by
  have same : (asBytes (env.newV5 b)).length = (asBytes (env.newV5 b')).length := by
    rw [text, text]
  exact asBytes_inj (List.append_inj_right' h same)

/-- A task id determines the bytes of its task, short of a UUID collision. -/
theorem genTaskId_bytes {env : Extern} {resources buffers : Bytes → Prop} (text : UuidText env)
    (resourceIds : NoCollision env resources) (taskIds : NoCollision env buffers)
    {a a' : Address} {ty ty' : TaskType} {b b' : Bytes} (hb : resources b) (hb' : resources b')
    (ht : buffers (taskIdBuffer a ty (genResourceId env b)))
    (ht' : buffers (taskIdBuffer a' ty' (genResourceId env b')))
    (h : genTaskId env a ty b = genTaskId env a' ty' b') : b = b' :=
  resourceIds b b' hb hb' (taskIdBuffer_resource text (taskIds _ _ ht ht' h))

end GpuProxy
