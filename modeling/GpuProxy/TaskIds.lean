import GpuProxy.Resource

/-!
# What a task id is made from

`gen_task_id` hashes the address payload, the task type and the resource id one after the
other. The last two have a fixed length, so the buffer determines all three parts. A payload
has no protocol byte: `payloadBytes_eq` says which addresses have the same one.
-/

namespace GpuProxy

/-! ## Payloads -/

theorem leb128_length (fuel n : Nat) : (leb128 fuel n).length ≤ fuel := by
  induction fuel generalizing n with
  | zero => simp [leb128]
  | succ fuel ih =>
    unfold leb128
    split
    · simp
    · rw [List.length_cons]
      have rest := ih (n / 128)
      omega

/-- Enough groups of seven bits determine the number. -/
theorem leb128_inj {fuel n m : Nat} (hn : n < 128 ^ fuel) (hm : m < 128 ^ fuel)
    (h : leb128 fuel n = leb128 fuel m) : n = m := by
  induction fuel generalizing n m with
  | zero => omega
  | succ fuel ih =>
    have byte {x : Nat} (hx : x < 256) : (UInt8.ofNat x).toNat = x := by
      rw [UInt8.toNat_ofNat']
      omega
    unfold leb128 at h
    by_cases n_last : n < 128
    · by_cases m_last : m < 128
      · simp only [n_last, m_last, ↓reduceIte, List.cons.injEq, and_true] at h
        have same := congrArg UInt8.toNat h
        rwa [byte (by omega), byte (by omega)] at same
      · -- only the last group has its high bit clear
        simp only [n_last, m_last, ↓reduceIte, List.cons.injEq] at h
        have same := congrArg UInt8.toNat h.1
        rw [byte (by omega), byte (by omega)] at same
        omega
    · by_cases m_last : m < 128
      · simp only [n_last, m_last, ↓reduceIte, List.cons.injEq] at h
        have same := congrArg UInt8.toNat h.1
        rw [byte (by omega), byte (by omega)] at same
        omega
      · simp only [n_last, m_last, ↓reduceIte, List.cons.injEq] at h
        obtain ⟨group, rest⟩ := h
        have low := congrArg UInt8.toNat group
        rw [byte (by omega), byte (by omega)] at low
        rw [Nat.pow_succ] at hn hm
        have high : n / 128 = m / 128 := by
          apply ih _ _ rest
          · omega
          · omega
        omega

theorem FixedBytes.ext {n : Nat} {a b : FixedBytes n} (h : a.bytes = b.bytes) : a = b := by
  cases a
  cases b
  simp only [FixedBytes.mk.injEq]
  exact h

/-- A Secp256k1 and an Actor address of one hash. -/
def Confusable (a a' : Address) : Prop :=
  ∃ hash, (a = .secp256k1 hash ∧ a' = .actor hash) ∨ (a = .actor hash ∧ a' = .secp256k1 hash)

theorem payloadBytes_length (a : Address) :
    match a with
    | .id _ => a.payloadBytes.length ≤ 10
    | .secp256k1 _ | .actor _ => a.payloadBytes.length = 20
    | .bls _ => a.payloadBytes.length = 48 := by
  cases a with
  | id number => exact leb128_length 10 number.toNat
  | secp256k1 hash | actor hash => exact hash.size
  | bls key => exact key.size

theorem payloadBytes_eq {a a' : Address} :
    a.payloadBytes = a'.payloadBytes ↔ a = a' ∨ Confusable a a' := by
  constructor
  · intro h
    have lengths := congrArg List.length h
    have size := payloadBytes_length a
    have size' := payloadBytes_length a'
    cases a with
    | id number =>
      cases a' with
      | id number' =>
        have bound := number.toNat_lt
        have bound' := number'.toNat_lt
        have same : number.toNat = number'.toNat := leb128_inj (by omega) (by omega) h
        rw [UInt64.toNat_inj.mp same]
        exact Or.inl rfl
      | secp256k1 | actor | bls =>
        simp only at size size'
        omega
    | secp256k1 hash =>
      cases a' with
      | secp256k1 hash' =>
        rw [FixedBytes.ext h]
        exact Or.inl rfl
      | actor hash' =>
        rw [FixedBytes.ext h]
        exact Or.inr ⟨hash', Or.inl ⟨rfl, rfl⟩⟩
      | id | bls =>
        simp only at size size'
        omega
    | actor hash =>
      cases a' with
      | secp256k1 hash' =>
        rw [FixedBytes.ext h]
        exact Or.inr ⟨hash', Or.inr ⟨rfl, rfl⟩⟩
      | actor hash' =>
        rw [FixedBytes.ext h]
        exact Or.inl rfl
      | id | bls =>
        simp only at size size'
        omega
    | bls key =>
      cases a' with
      | bls key' =>
        rw [FixedBytes.ext h]
        exact Or.inl rfl
      | id | secp256k1 | actor =>
        simp only at size size'
        omega
  · rintro (rfl | ⟨hash, ⟨rfl, rfl⟩ | ⟨rfl, rfl⟩⟩)
    · rfl
    · rfl
    · rfl

/-! ## The buffer -/

theorem TaskType.toI32_inj {ty ty' : TaskType} (h : putI32 ty.toI32 = putI32 ty'.toI32) : ty = ty' := by
  cases ty
  cases ty'
  rfl

theorem putI32_length (v : Int32) : (putI32 v).length = 4 := rfl

/-- The buffer determines the payload, the type and the resource id. -/
theorem taskIdBuffer_parts {env : Extern} (text : UuidText env) {a a' : Address} {ty ty' : TaskType}
    {b b' : Bytes}
    (h : taskIdBuffer a ty (genResourceId env b) = taskIdBuffer a' ty' (genResourceId env b')) :
    a.payloadBytes = a'.payloadBytes ∧ ty = ty' ∧ genResourceId env b = genResourceId env b' := by
  have resource := taskIdBuffer_resource text h
  unfold taskIdBuffer at h
  rw [resource] at h
  have heads := List.append_cancel_right h
  have lengths : (putI32 ty.toI32).length = (putI32 ty'.toI32).length :=
    (putI32_length _).trans (putI32_length _).symm
  obtain ⟨payload, types⟩ := List.append_inj' heads lengths
  exact ⟨payload, TaskType.toI32_inj types, resource⟩

/-- Equal buffers are of equal addresses, types and resource ids, whatever the types and the
bytes are, exactly where the addresses are not a Secp256k1 and an Actor address of one hash. -/
theorem taskIdBuffer_inj_iff {env : Extern} (text : UuidText env) (a a' : Address) :
    (∀ ty ty' b b',
      taskIdBuffer a ty (genResourceId env b) = taskIdBuffer a' ty' (genResourceId env b') →
        a = a' ∧ ty = ty' ∧ genResourceId env b = genResourceId env b') ↔ ¬ Confusable a a' := by
  constructor
  · intro inj confusable
    have payload : a.payloadBytes = a'.payloadBytes := payloadBytes_eq.mpr (Or.inr confusable)
    have buffers : taskIdBuffer a .c2 (genResourceId env []) =
        taskIdBuffer a' .c2 (genResourceId env []) := by
      unfold taskIdBuffer
      rw [payload]
    obtain ⟨same, -, -⟩ := inj .c2 .c2 [] [] buffers
    subst same
    obtain ⟨hash, ⟨rfl, other⟩ | ⟨rfl, other⟩⟩ := confusable
    · cases other
    · cases other
  · intro distinct ty ty' b b' h
    obtain ⟨payload, types, resource⟩ := taskIdBuffer_parts text h
    rcases payloadBytes_eq.mp payload with same | confusable
    · exact ⟨same, types, resource⟩
    · exact absurd confusable distinct

theorem taskIdBuffer_inj_iff_demo :
    (∀ ty ty' b b', taskIdBuffer (.id 1000) ty (genResourceId Demo.env b) =
        taskIdBuffer (.id 1001) ty' (genResourceId Demo.env b') →
      Address.id 1000 = .id 1001 ∧ ty = ty' ∧ genResourceId Demo.env b = genResourceId Demo.env b') ↔
    ¬ Confusable (.id 1000) (.id 1001) :=
  taskIdBuffer_inj_iff Demo.uuidText (.id 1000) (.id 1001)

/-- A hash of twenty zeros, as a public key's or an actor's. -/
def zeroHash : FixedBytes 20 := ⟨List.replicate 20 0, rfl⟩

theorem protocols_share_buffer :
    Address.secp256k1 zeroHash ≠ .actor zeroHash ∧ ∀ env ty b,
      taskIdBuffer (.secp256k1 zeroHash) ty (genResourceId env b) =
        taskIdBuffer (.actor zeroHash) ty (genResourceId env b) := by
  constructor
  · simp
  · intro env ty b
    rfl

end GpuProxy
