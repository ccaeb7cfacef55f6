import GpuProxy.Serial

/-!
# Byte strings in parameters

A `Base64Byte` travels as a JSON string. Its `Deserialize` unwraps the result of the decoder,
so text that does not decode is no deserialisation error but a panic in the server, before
the handler runs. What does decode may lack its padding.
-/

namespace GpuProxy

namespace Base64Byte

/-- How a deserialisation ends. -/
inductive Deserialized (α : Type) where
  | value (a : α)
  | error (message : String)
  | panic
  deriving DecidableEq, Repr

def serialize (data : Bytes) : Json := .str (Base64.encode data)

/-- The message of a value of another type is `serde`'s. -/
def deserialize : Json → Deserialized Bytes
  | .str bytesStr =>
    match Base64.decode bytesStr with
    | some bytes => .value bytes
    | none => .panic
  | _ => .error "invalid type"

/-- A call with a `Base64Byte` parameter, that parameter apart. -/
inductive Call where
  | submitC2Task (miner comment : String) (proverId : ProverId) (sectorId : UInt64)
  | addTask (miner comment : String) (taskType : TaskType)
  | recordProof (workerId tid : String)

def Call.request : Call → String → Request
  | .submitC2Task miner comment proverId sectorId, text =>
    .submitC2Task text miner comment proverId sectorId
  | .addTask miner comment taskType, text => .addTask miner comment taskType text
  | .recordProof workerId tid, text => .recordProof workerId tid text

section
variable (env : Extern)

/-- `none` where the miner's address panics. -/
def Call.handler : Call → Bytes → Option (Handler Reply)
  | .submitC2Task miner comment proverId sectorId, bytes =>
    if Rpc.submitC2TaskPanics env bytes miner then none
    else some do return .taskId (← Rpc.submitC2Task env bytes miner comment proverId sectorId)
  | .addTask miner comment taskType, bytes =>
    if env.addressPanics miner then none
    else some do return .taskId (← Rpc.addTask env miner comment taskType bytes)
  | .recordProof workerId tid, bytes => some do
    Rpc.recordProof workerId tid bytes
    return .done

/-- The call alone, with this JSON value for the parameter. -/
def serve (now : Int) (call : Call) (param : Json) (s : Server) : Deserialized Answer × Server :=
  match deserialize param with
  | .value bytes =>
    match call.handler env bytes with
    | some h =>
      let r := Program.exec (Server.serial now) h.run s
      (.value r.1, r.2)
    | none => (.panic, s)
  | .error message => (.value (.error (.invalidParams message)), s)
  | .panic => (.panic, s)

/-- The parameter is the bytes its text encodes, or the call ends in an error that comes
of its deserialisation and leaves both stores. -/
def DecodesSafely (now : Int) (call : Call) (s : Server) (text : String) : Prop :=
  (∃ bytes, deserialize (.str text) = .value bytes ∧ Base64.encode bytes = text) ∨
    ∃ message e, deserialize (.str text) = .error message ∧
      serve env now call (.str text) s = (.value (.error e), s)

end

variable {env : Extern} {now : Int} {call : Call} {s : Server} {text : String}

theorem deserialize_some {bytes : Bytes} (decoded : Base64.decode text = some bytes) :
    deserialize (.str text) = .value bytes := by
  simp only [deserialize, decoded]

/-- The decoder's error is unwrapped. -/
theorem deserialize_none (undecoded : Base64.decode text = none) :
    deserialize (.str text) = .panic := by
  simp only [deserialize, undecoded]

theorem deserialize_serialize (data : Bytes) : deserialize (serialize data) = .value data :=
  deserialize_some (Base64.decode_encode data)

/-- A call that panics has no answer. -/
theorem serve_call : Serial.call env now (call.request text) s =
    (match (serve env now call (.str text) s).1 with
      | .value answer => some answer
      | _ => none,
      (serve env now call (.str text) s).2) := by
  cases decoded : Base64.decode text with
  | none =>
    have panics : serve env now call (.str text) s = (.panic, s) := by
      simp only [serve, deserialize_none decoded]
    have undecoded : (call.request text).handler env = none := by
      cases call with
      | submitC2Task | addTask | recordProof =>
        simp only [Call.request, Request.handler, decoded, Option.filter_none, Option.map_none]
    rw [panics]
    simp only [Serial.call, undecoded]
  | some bytes =>
    have handled : (call.request text).handler env = call.handler env bytes := by
      cases call with
      | submitC2Task miner =>
        simp only [Call.request, Request.handler, Call.handler, decoded, Option.filter_some]
        cases Rpc.submitC2TaskPanics env bytes miner <;> rfl
      | addTask miner =>
        simp only [Call.request, Request.handler, Call.handler, decoded, Option.filter_some]
        cases env.addressPanics miner <;> rfl
      | recordProof => simp only [Call.request, Request.handler, Call.handler, decoded, Option.map_some]
    simp only [Serial.call, handled, serve, deserialize_some decoded]
    cases call.handler env bytes <;> rfl

theorem decodesSafely_iff : DecodesSafely env now call s text ↔ Base64.Padded text.toList := by
  rw [Base64.padded_iff]
  constructor
  · rintro (⟨bytes, -, encoded⟩ | ⟨message, e, refused, -⟩)
    · exact ⟨bytes, encoded⟩
    · -- a string is never refused
      cases decoded : Base64.decode text with
      | none =>
        rw [deserialize_none decoded] at refused
        cases refused
      | some bytes =>
        rw [deserialize_some decoded] at refused
        cases refused
  · rintro ⟨bytes, rfl⟩
    exact Or.inl ⟨bytes, deserialize_serialize bytes, rfl⟩

/-- Byte strings survive the round trip, and a parameter decodes safely exactly where its
text is standard padded base64. -/
theorem byte_parameters_iff (env : Extern) :
    (∀ data, deserialize (serialize data) = .value data) ∧
      ∀ now call s text, DecodesSafely env now call s text ↔ Base64.Padded text.toList := by
  constructor
  · exact deserialize_serialize
  · intro now call s text
    exact decodesSafely_iff

/-- Text that does not decode panics, and text without its padding is taken. -/
theorem malformed_parameter_panics :
    serve Demo.env 0 (.recordProof "w1" "t") (.str "*") (.empty (.db Table.empty)) =
        (.panic, .empty (.db Table.empty)) ∧
      deserialize (.str "Zg") = .value [102] ∧ Base64.encode [102] = "Zg==" ∧
      ¬ DecodesSafely Demo.env 0 (.recordProof "w1" "t") (.empty (.db Table.empty)) "*" ∧
      ¬ DecodesSafely Demo.env 0 (.recordProof "w1" "t") (.empty (.db Table.empty)) "Zg" := by
  have panics : deserialize (.str "*") = .panic := by decide +kernel
  have unpadded : deserialize (.str "Zg") = .value [102] := by decide +kernel
  have padded : Base64.encode [102] = "Zg==" := by decide +kernel
  refine ⟨?_, unpadded, padded, ?_, ?_⟩
  · unfold serve
    rw [panics]
  · rintro (⟨bytes, decoded, -⟩ | ⟨message, e, refused, -⟩)
    · rw [panics] at decoded
      cases decoded
    · rw [panics] at refused
      cases refused
  · rintro (⟨bytes, decoded, same⟩ | ⟨message, e, refused, -⟩)
    · rw [unpadded] at decoded
      cases decoded
      rw [padded] at same
      revert same
      decide
    · rw [unpadded] at refused
      cases refused

end Base64Byte

end GpuProxy
