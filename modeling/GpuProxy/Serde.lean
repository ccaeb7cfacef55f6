import GpuProxy.JsonText
import GpuProxy.Base64Byte
import GpuProxy.Registry
import GpuProxy.Schema

/-!
# Values as JSON

`Serde` is `Serialize` and `Deserialize` in one. A `LawfulSerde` type is read from what it
is written as; its instances follow the shape of the types, up to the rows the API sends.
-/

namespace GpuProxy

namespace Base64Byte.Deserialized

variable {α β : Type}

def bind (d : Deserialized α) (f : α → Deserialized β) : Deserialized β :=
  match d with
  | value a => f a
  | error message => error message
  | panic => panic

instance : Monad Deserialized where
  pure := value
  bind := bind

def ofExcept : Except String α → Deserialized α
  | .ok a => value a
  | .error message => error message

@[simp] theorem pure_eq (a : α) : (pure a : Deserialized α) = value a := rfl

@[simp] theorem value_bind (a : α) (f : α → Deserialized β) : (value a >>= f) = f a := rfl

@[simp] theorem error_bind (message : String) (f : α → Deserialized β) :
    ((error message : Deserialized α) >>= f) = error message := rfl

@[simp] theorem panic_bind (f : α → Deserialized β) : ((panic : Deserialized α) >>= f) = panic := rfl

@[simp] theorem ofExcept_ok (a : α) : ofExcept (.ok a) = value a := rfl

instance : LawfulMonad Deserialized :=
  LawfulMonad.mk' Deserialized (fun d => by cases d <;> rfl) (fun _ _ => rfl)
    (fun d _ _ => by cases d <;> rfl)

theorem bind_panic {d : Deserialized α} {f : α → Deserialized β} :
    (d >>= f) = panic ↔ d = panic ∨ ∃ a, d = value a ∧ f a = panic := by
  cases d <;> simp

theorem ofExcept_ne_panic (r : Except String α) : ofExcept r ≠ panic := by
  cases r <;> nofun

end Base64Byte.Deserialized

open Base64Byte (Deserialized)

/-- `Valid` says which values of the model the source's type has. -/
class Serde (α : Type) where
  toJson : α → Json
  fromJson : Json → Deserialized α
  Valid : α → Prop

class LawfulSerde (α : Type) [Serde α] : Prop where
  fromJson_toJson : ∀ a : α, Serde.Valid a → Serde.fromJson (Serde.toJson a) = .value a
  plain : ∀ a : α, (Serde.toJson a).Plain

/-- No value is written as `null`. -/
class NonNull (α : Type) [Serde α] : Prop where
  ne_null : ∀ a : α, Serde.toJson a ≠ .null

namespace Serde

open LawfulSerde

variable {α : Type} [Serde α]

/-! ## Numbers and strings -/

def invalidType {α : Type} : Deserialized α := .error "invalid type"

instance : Serde Unit where
  toJson _ := .null
  fromJson
    | .null => .value ()
    | _ => invalidType
  Valid _ := True

instance : LawfulSerde Unit where
  fromJson_toJson _ _ := rfl
  plain _ := .null

instance : Serde String where
  toJson := .str
  fromJson
    | .str s => .value s
    | _ => invalidType
  Valid _ := True

instance : LawfulSerde String where
  fromJson_toJson _ _ := rfl
  plain := .str

instance : NonNull String where
  ne_null := nofun

instance : Serde UInt8 where
  toJson := u8ToJson
  fromJson j := .ofExcept (u8FromJson j)
  Valid _ := True

instance : LawfulSerde UInt8 where
  fromJson_toJson n _ := congrArg Deserialized.ofExcept (u8FromJson_toJson n)
  plain _ := .num _

instance : Serde UInt64 where
  toJson := u64ToJson
  fromJson j := .ofExcept (u64FromJson j)
  Valid _ := True

instance : LawfulSerde UInt64 where
  fromJson_toJson n _ := congrArg Deserialized.ofExcept (u64FromJson_toJson n)
  plain _ := .num _

instance : Serde ProverId where
  toJson := proverIdToJson
  fromJson j := .ofExcept (proverIdFromJson j)
  Valid _ := True

instance : LawfulSerde ProverId where
  fromJson_toJson p _ := congrArg Deserialized.ofExcept (proverIdFromJson_toJson p)
  plain p := by
    apply Json.Plain.arr
    intro item there
    obtain ⟨n, -, rfl⟩ := List.mem_map.mp there
    exact .num _

/-- `i64`. -/
instance : Serde Int where
  toJson := .num
  fromJson
    | .num n => if -2 ^ 63 ≤ n ∧ n < 2 ^ 63 then .value n else .error "invalid value"
    | _ => invalidType
  Valid n := -2 ^ 63 ≤ n ∧ n < 2 ^ 63

instance : LawfulSerde Int where
  fromJson_toJson _ valid := if_pos valid
  plain := .num

/-! ## Enumerations, by `serde_repr` -/

/-- The number of a variant of `all` is read as that variant. -/
def reprFromJson {α : Type} (all : List α) (toI32 : α → Int32) : Json → Deserialized α
  | .num n =>
    match all.find? fun a => decide ((toI32 a).toInt = n) with
    | some a => .value a
    | none => .error "invalid value"
  | _ => invalidType

theorem reprFromJson_toI32 {α : Type} {all : List α} {toI32 : α → Int32} {a : α} (there : a ∈ all)
    (inj : ∀ b ∈ all, (toI32 b).toInt = (toI32 a).toInt → b = a) :
    reprFromJson all toI32 (.num (toI32 a).toInt) = .value a := by
  obtain ⟨b, found⟩ : ∃ b, (all.find? fun b => decide ((toI32 b).toInt = (toI32 a).toInt)) = some b :=
    Option.isSome_iff_exists.mp (List.find?_isSome.mpr ⟨a, there, by simp⟩)
  have same : b = a := inj b (List.mem_of_find?_eq_some found) (by simpa using List.find?_some found)
  simp only [reprFromJson, found, same]

instance : Serde TaskState where
  toJson s := .num s.toI32.toInt
  fromJson := reprFromJson [.undefined, .init, .running, .error, .completed] TaskState.toI32
  Valid _ := True

instance : LawfulSerde TaskState where
  fromJson_toJson s _ := by
    apply reprFromJson_toI32
    · cases s <;> simp
    · cases s <;> decide
  plain _ := .num _

instance : Serde TaskType where
  toJson t := .num t.toI32.toInt
  fromJson := reprFromJson [.c2] TaskType.toI32
  Valid _ := True

instance : LawfulSerde TaskType where
  fromJson_toJson t _ := by
    apply reprFromJson_toI32
    · cases t; simp
    · cases t; decide
  plain _ := .num _

/-! ## Lists and options -/

instance : Serde (List α) where
  toJson l := .arr (l.map toJson)
  fromJson
    | .arr items => items.mapM fromJson
    | _ => invalidType
  Valid l := ∀ a ∈ l, Valid a

theorem mapM_fromJson [LawfulSerde α] {l : List α} (valid : ∀ a ∈ l, Valid a) :
    (l.map toJson).mapM (fromJson (α := α)) = .value l := by
  induction l with
  | nil => rfl
  | cons a l ih =>
    have rest := ih fun b hb => valid b (List.mem_cons_of_mem a hb)
    simp [fromJson_toJson a (valid a List.mem_cons_self), rest]

instance [LawfulSerde α] : LawfulSerde (List α) where
  fromJson_toJson _ := mapM_fromJson
  plain l := by
    apply Json.Plain.arr
    intro item there
    obtain ⟨a, -, rfl⟩ := List.mem_map.mp there
    exact plain a

instance : NonNull (List α) where
  ne_null := nofun

instance : Serde (Option α) where
  toJson
    | none => .null
    | some a => toJson a
  fromJson
    | .null => .value none
    | j => do return some (← fromJson j)
  Valid o := ∀ a ∈ o, Valid a

instance [LawfulSerde α] [NonNull α] : LawfulSerde (Option α) where
  fromJson_toJson
    | none, _ => rfl
    | some a, valid => by
      have back := fromJson_toJson a (valid a rfl)
      have there := NonNull.ne_null a
      change fromJson (α := Option α) (toJson a) = .value (some a)
      generalize toJson a = j at back there
      cases j with
      | null => exact absurd rfl there
      | _ => simp [fromJson, back]
  plain
    | none => .null
    | some a => plain a

/-! ## Structs -/

/-- What a field of a struct is read as. -/
def member (name : String) (fields : List (String × Json)) : Deserialized α := do
  fromJson (← .ofExcept (field name fields))

theorem field_of_mem {name : String} {j : Json} {fields : List (String × Json)}
    (names : (fields.map Prod.fst).Nodup) (there : (name, j) ∈ fields) : field name fields = .ok j := by
  have only : fields.filter (fun f => decide (f.1 = name)) = [(name, j)] := by
    induction fields with
    | nil => cases there
    | cons f fields ih =>
      obtain ⟨absent, names⟩ := List.nodup_cons.mp names
      by_cases same : f.1 = name
      · have others : fields.filter (fun f => decide (f.1 = name)) = [] := by
          apply List.filter_eq_nil_iff.mpr
          intro g hg
          have other : g.1 ∈ fields.map Prod.fst := List.mem_map_of_mem hg
          rw [decide_eq_true_eq]
          rintro rfl
          exact absent (same ▸ other)
        have first : (name, j) = f := by
          refine (List.mem_cons.mp there).resolve_right fun later => absent ?_
          rw [same]
          exact List.mem_map_of_mem (f := Prod.fst) later
        simp [← first, others]
      · have later : (name, j) ∈ fields := (List.mem_cons.mp there).resolve_left fun first =>
          same (congrArg Prod.fst first).symm
        simp [same, ih names later]
  simp only [field, only]

theorem member_of_mem [LawfulSerde α] {name : String} {a : α} {fields : List (String × Json)}
    (names : (fields.map Prod.fst).Nodup) (there : (name, toJson a) ∈ fields) (valid : Valid a) :
    member name fields = .value a := by
  simp [member, field_of_mem names there, fromJson_toJson a valid]

end Serde

end GpuProxy
