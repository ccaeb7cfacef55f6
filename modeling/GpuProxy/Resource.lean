import GpuProxy.Utils
import GpuProxy.FileTree

/-!
# Task inputs

`C2Resource` is what the server stores and the worker decodes; `C2Input` is
what the plugin encodes. Both are JSON objects and share three field names.
`ResourceStore` is the `ResourceRepo` behind the server: files by name under
one root, or rows of `resource_infos`.
-/

namespace GpuProxy

/-! ## The structs as JSON -/

def unsignedFromJson (bound : Nat) : Json → Except String Nat
  | .num (.ofNat n) => if n < bound then .ok n else .error "invalid value"
  | .num (.negSucc _) => .error "invalid value"
  | _ => .error "invalid type"

def u64ToJson (n : UInt64) : Json := .num (.ofNat n.toNat)

def u64FromJson (j : Json) : Except String UInt64 :=
  (unsignedFromJson (2 ^ 64) j).map UInt64.ofNat

def u8ToJson (n : UInt8) : Json := .num (.ofNat n.toNat)

def u8FromJson (j : Json) : Except String UInt8 := (unsignedFromJson (2 ^ 8) j).map UInt8.ofNat

def proverIdToJson (p : ProverId) : Json := .arr (p.bytes.map u8ToJson)

def proverIdFromJson : Json → Except String ProverId
  | .arr items => do
    let bytes ← items.mapM u8FromJson
    if h : bytes.length = 32 then .ok ⟨bytes, h⟩ else .error "invalid length"
  | _ => .error "invalid type"

/-- A field of a struct: named once. Fields with other names are ignored. -/
def field (name : String) (fields : List (String × Json)) : Except String Json :=
  match fields.filter fun f => decide (f.1 = name) with
  | [f] => .ok f.2
  | [] => .error ("missing field " ++ name)
  | _ => .error ("duplicate field " ++ name)

section
variable (env : Extern)

/-- Inputs of stage c2, as the plugin receives them. -/
structure C2Input where
  c1out : env.C1Out
  proverId : ProverId
  sectorId : UInt64
  minerId : UInt64

/-- The data required for computing c2 type tasks. -/
structure C2Resource where
  proverId : ProverId
  sectorId : UInt64
  c1out : env.C1Out

variable {env}

def C2Input.toJson (i : C2Input env) : Json :=
  .obj [("c1out", env.c1OutToJson i.c1out), ("prover_id", proverIdToJson i.proverId),
    ("sector_id", u64ToJson i.sectorId), ("miner_id", u64ToJson i.minerId)]

def C2Input.toVec (i : C2Input env) : Bytes := env.jsonToVec i.toJson

def C2Resource.toJson (r : C2Resource env) : Json :=
  .obj [("prover_id", proverIdToJson r.proverId), ("sector_id", u64ToJson r.sectorId),
    ("c1out", env.c1OutToJson r.c1out)]

def C2Resource.toVec (r : C2Resource env) : Bytes := env.jsonToVec r.toJson

/-- A struct is read from an object, or from an array in field order. -/
def C2Resource.fromJson : Json → Except String (C2Resource env)
  | .obj fields => do
    let proverId ← proverIdFromJson (← field "prover_id" fields)
    let sectorId ← u64FromJson (← field "sector_id" fields)
    let c1out ← env.c1OutFromJson (← field "c1out" fields)
    .ok ⟨proverId, sectorId, c1out⟩
  | .arr [a, b, c] => do
    let proverId ← proverIdFromJson a
    let sectorId ← u64FromJson b
    let c1out ← env.c1OutFromJson c
    .ok ⟨proverId, sectorId, c1out⟩
  | _ => .error "invalid type"

def C2Resource.fromSlice (env : Extern) (bytes : Bytes) : Except String (C2Resource env) := do
  C2Resource.fromJson (← env.jsonFromSlice bytes)

theorem u8FromJson_toJson (n : UInt8) : u8FromJson (u8ToJson n) = .ok n := by
  have h := n.toNat_lt
  simp [u8FromJson, u8ToJson, unsignedFromJson, h, Except.map]

theorem u64FromJson_toJson (n : UInt64) : u64FromJson (u64ToJson n) = .ok n := by
  have h := n.toNat_lt
  simp only [u64FromJson, u64ToJson, unsignedFromJson, h, ↓reduceIte, Except.map,
    UInt64.ofNat_toNat]

theorem u8s_fromJson (bytes : Bytes) : (bytes.map u8ToJson).mapM u8FromJson = .ok bytes := by
  induction bytes with
  | nil => rfl
  | cons b bytes ih =>
    simp only [List.map_cons, List.mapM_cons, u8FromJson_toJson, ih]
    rfl

theorem proverIdFromJson_toJson (p : ProverId) : proverIdFromJson (proverIdToJson p) = .ok p := by
  simp only [proverIdToJson, proverIdFromJson, u8s_fromJson]
  simp [bind, Except.bind, p.size]

/-- Decoding by field name finds the plugin's three fields and ignores `miner_id`. -/
theorem fromJson_input {i : C2Input env}
    (c1 : env.c1OutFromJson (env.c1OutToJson i.c1out) = .ok i.c1out) :
    C2Resource.fromJson i.toJson = .ok ⟨i.proverId, i.sectorId, i.c1out⟩ := by
  have prover : field "prover_id" [("c1out", env.c1OutToJson i.c1out),
      ("prover_id", proverIdToJson i.proverId), ("sector_id", u64ToJson i.sectorId),
      ("miner_id", u64ToJson i.minerId)] = .ok (proverIdToJson i.proverId) := rfl
  have sector : field "sector_id" [("c1out", env.c1OutToJson i.c1out),
      ("prover_id", proverIdToJson i.proverId), ("sector_id", u64ToJson i.sectorId),
      ("miner_id", u64ToJson i.minerId)] = .ok (u64ToJson i.sectorId) := rfl
  have c1out : field "c1out" [("c1out", env.c1OutToJson i.c1out),
      ("prover_id", proverIdToJson i.proverId), ("sector_id", u64ToJson i.sectorId),
      ("miner_id", u64ToJson i.minerId)] = .ok (env.c1OutToJson i.c1out) := rfl
  simp only [C2Input.toJson, C2Resource.fromJson, prover, sector, c1out]
  simp only [bind, Except.bind, proverIdFromJson_toJson, u64FromJson_toJson, c1]

end

/-! ## The two back ends -/

/-- `fs` lists the regular files directly under `root` by name; `FileResource`
relates it to a directory tree. -/
inductive ResourceStore where
  | fs (root : String) (files : String → Option Bytes)
  | db (rows : Table ResourceInfo)

namespace ResourceStore

/-- The bytes stored under an id. -/
def content : ResourceStore → String → Option Bytes
  | fs _ files, rid => files rid
  | db rows, rid => (rows.find rid).map ResourceInfo.data

def hasResource (rid : String) (store : ResourceStore) : Bool := (store.content rid).isSome

def getResourceInfo (rid : String) : ResourceStore → Except String Bytes
  | fs root files =>
    match files rid with
    | some bytes => .ok bytes
    | none => .error ("read file: " ++ String.ofList (FileTree.join root.toList rid.toList))
  | db rows => (ifNotFound rid (rows.find rid)).map ResourceInfo.data

/-- `fs::write` replaces a file; an insert fails where the row exists. -/
def storeResourceInfo (now : Int) (rid : String) (resource : Bytes) :
    ResourceStore → Except String String × ResourceStore
  | fs root files => (.ok rid, fs root (Function.update files rid (some resource)))
  | db rows =>
    match rows.insert ⟨rid, resource, now⟩ with
    | some rows' => (.ok rid, db rows')
    | none => (.error primaryKeyConflict, db rows)

/-- `fs::remove_file` fails where there is no file; `delete_by_id` never does. -/
def deleteResource (rid : String) : ResourceStore → Except String Unit × ResourceStore
  | fs root files =>
    match files rid with
    | some _ => (.ok (), fs root (Function.update files rid none))
    | none => (.error osError, fs root files)
  | db rows => (.ok (), db (rows.deleteWhere fun r => decide (r.id = rid)))

variable {now : Int} {rid : String} {resource bytes : Bytes} {store : ResourceStore}

theorem hasResource_iff : store.hasResource rid = true ↔ ∃ bytes, store.content rid = some bytes :=
  Option.isSome_iff_exists

theorem getResourceInfo_ok :
    store.getResourceInfo rid = .ok bytes ↔ store.content rid = some bytes := by
  cases store with
  | fs root files => simp only [getResourceInfo, content]; cases files rid <;> simp
  | db rows => simp only [getResourceInfo, content]; cases rows.find rid <;> simp [ifNotFound, Except.map]

/-- A store call that succeeds leaves exactly the given bytes under its id. -/
theorem storeResourceInfo_ok {r : String} {store' : ResourceStore}
    (h : store.storeResourceInfo now rid resource = (.ok r, store')) (k : String) :
    store'.content k = if k = rid then some resource else store.content k := by
  cases store with
  | fs root files =>
    cases h
    simp only [content, Function.update_apply]
  | db rows =>
    simp only [storeResourceInfo] at h
    split at h
    · next rows' hi =>
      cases h
      simp only [content, Table.find_insert hi, key_resourceInfo, eq_comm]
      split <;> rfl
    · cases h

/-- A failing one changes nothing, and finds the id taken. -/
theorem storeResourceInfo_error {e : String} {store' : ResourceStore}
    (h : store.storeResourceInfo now rid resource = (.error e, store')) :
    store' = store ∧ ∃ bytes, store.content rid = some bytes := by
  cases store with
  | fs root files => cases h
  | db rows =>
    simp only [storeResourceInfo] at h
    split at h
    · cases h
    · next hi =>
      cases h
      obtain ⟨row, hr⟩ := Table.insert_none.mp hi
      have hr : rows.find rid = some row := hr
      exact ⟨rfl, row.data, by simp [content, hr]⟩

theorem content_deleteResource (k : String) :
    (store.deleteResource rid).2.content k = if k = rid then none else store.content k := by
  cases store with
  | fs root files =>
    simp only [deleteResource]
    split
    · simp only [content, Function.update_apply]
    · next h => simp only [content]; split <;> simp_all
  | db rows =>
    have hf := Table.find_deleteKey rows rid k
    simp only [key_resourceInfo] at hf
    simp only [deleteResource, content, hf]
    split <;> rfl

end ResourceStore

/-! ## One sector

A concrete environment for examples: the document of one sector, its UUIDs and
the texts of two addresses are the real ones. -/

namespace Demo

def c1out : Json := .obj [("registered_proof", .str "StackedDrg2KiBV1")]

def proverId : ProverId := ⟨[232, 7] ++ List.replicate 30 0, rfl⟩

def text : String :=
  "\x7b\"c1out\":\x7b\"registered_proof\":\"StackedDrg2KiBV1\"\x7d,\"prover_id\":[232,7,0,0,0,0,0,0," ++
  "0,0,0,0,0,0,0,0,0,0,0,0,0,0,0,0,0,0,0,0,0,0,0,0],\"sector_id\":1,\"miner_id\":1000\x7d"

def resourceId : String := "2edc36a3-4ac0-5593-ad49-3938cf06aa77"

def taskBuffer (miner : UInt64) : Bytes :=
  (Address.id miner).payloadBytes ++ putI32 TaskType.c2.toI32 ++ asBytes resourceId

def newV5 (b : Bytes) : String :=
  if b = asBytes text then resourceId
  else if b = taskBuffer 1000 then "48bb11f3-3f83-5d9f-ad3c-edd0b5481a6f"
  else if b = taskBuffer 1001 then "87366a6f-5463-5198-811e-9dc28171b74c"
  else "00000000-0000-0000-0000-000000000000"

def document : Json :=
  .obj [("c1out", c1out), ("prover_id", proverIdToJson proverId), ("sector_id", u64ToJson 1),
    ("miner_id", u64ToJson 1000)]

def env : Extern where
  C1Out := Json
  newV5 := newV5
  parseAddress := fun s =>
    if s = "t01000" then some (.ok (.id 1000))
    else if s = "t01001" then some (.ok (.id 1001))
    else if s = "f1aa" then none
    else some (.error "invalid address")
  addressToString := fun a =>
    match a with
    | .id n => "t0" ++ toString n.toNat
    | _ => "t"
  sectorIdToString := fun n => toString n.toNat
  jsonToVec := fun _ => asBytes text
  jsonFromSlice := fun b => if b = asBytes text then .ok document else .error "expected value"
  c1OutToJson := id
  c1OutFromJson := .ok
  sealCommitPhase2 := fun _ _ sectorId seed =>
    if seed = 0 then .error "seal commit phase2"
    else .ok [UInt8.ofNat sectorId.toNat, UInt8.ofNat seed]

theorem uuidText : UuidText env := by
  intro b
  change (asBytes (newV5 b)).length = 36
  unfold newV5
  split
  · decide +kernel
  · split
    · decide +kernel
    · split <;> decide +kernel

def input : C2Input env := ⟨c1out, proverId, 1, 1000⟩

theorem jsonFromSlice_text : env.jsonFromSlice (asBytes text) = .ok input.toJson := by
  simp only [env, ↓reduceIte]
  rfl

theorem fromSlice_text :
    C2Resource.fromSlice env (asBytes text) = .ok ⟨proverId, 1, c1out⟩ := by
  rw [C2Resource.fromSlice, jsonFromSlice_text]
  have codec : env.c1OutFromJson (env.c1OutToJson input.c1out) = .ok input.c1out := rfl
  exact fromJson_input codec

end Demo

end GpuProxy
