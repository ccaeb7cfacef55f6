import GpuProxy.Table

/-!
# Rows and the values they are made of

`Task` is a row of `tasks`, `ResourceInfo` a row of `resource_infos`. An
`Address` carries the payload `payload_bytes` returns: the LEB128 number of an
ID address, the raw hash or key of the others.
-/

namespace GpuProxy

abbrev Bytes := List UInt8

/-- A byte array whose length is part of its type. -/
structure FixedBytes (n : Nat) where
  bytes : Bytes
  size : bytes.length = n
  deriving DecidableEq, Repr

abbrev ProverId := FixedBytes 32

inductive TaskState where
  | undefined
  | init
  | running
  | error
  | completed
  deriving DecidableEq, Repr

inductive TaskType where
  | c2
  deriving DecidableEq, Repr

def TaskType.toI32 : TaskType → Int32
  | .c2 => 0

inductive Address where
  | id (number : UInt64)
  | secp256k1 (hash : FixedBytes 20)
  | actor (hash : FixedBytes 20)
  | bls (key : FixedBytes 48)
  deriving DecidableEq, Repr

/-- Unsigned LEB128. Ten groups of seven bits hold every `u64`. -/
def leb128 : Nat → Nat → Bytes
  | 0, _ => []
  | fuel + 1, n =>
    if n < 128 then [UInt8.ofNat n] else UInt8.ofNat (n % 128 + 128) :: leb128 fuel (n / 128)

def Address.payloadBytes : Address → Bytes
  | .id number => leb128 10 number.toNat
  | .secp256k1 hash => hash.bytes
  | .actor hash => hash.bytes
  | .bls key => key.bytes

structure Task where
  id : String
  miner : String
  resourceId : String
  proof : Bytes
  workerId : String
  taskType : TaskType
  errorMsg : String
  comment : String
  state : TaskState
  createAt : Int
  startAt : Int
  completeAt : Int
  deriving DecidableEq, Repr

instance : HasKey Task String := ⟨Task.id⟩

@[simp] theorem key_task (t : Task) : key t = t.id := rfl

structure ResourceInfo where
  id : String
  data : Bytes
  createAt : Int
  deriving DecidableEq, Repr

instance : HasKey ResourceInfo String := ⟨ResourceInfo.id⟩

@[simp] theorem key_resourceInfo (r : ResourceInfo) : key r = r.id := rfl

end GpuProxy
