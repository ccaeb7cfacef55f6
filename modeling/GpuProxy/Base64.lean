import Mathlib.Data.List.Basic

/-!
# Base64, standard alphabet

`encode` always pads. `decode` takes padded and unpadded text: a `=` may stand
only in the last group, after two symbols, and the bits of the last symbol that
no byte uses must be zero.
-/

namespace Base64

def alphabet : List Char :=
  ['A', 'B', 'C', 'D', 'E', 'F', 'G', 'H', 'I', 'J', 'K', 'L', 'M', 'N', 'O', 'P',
    'Q', 'R', 'S', 'T', 'U', 'V', 'W', 'X', 'Y', 'Z', 'a', 'b', 'c', 'd', 'e', 'f',
    'g', 'h', 'i', 'j', 'k', 'l', 'm', 'n', 'o', 'p', 'q', 'r', 's', 't', 'u', 'v',
    'w', 'x', 'y', 'z', '0', '1', '2', '3', '4', '5', '6', '7', '8', '9', '+', '/']

def symbol (n : Nat) : Char := alphabet.getD n '='

/-- The byte of an ASCII character. -/
def code (c : Char) : UInt8 := UInt8.ofNat c.toNat

def pad : UInt8 := code '='

def value (b : UInt8) : Option Nat := alphabet.findIdx? fun c => code c == b

theorem value_symbol {n : Nat} (h : n < 64) : value (code (symbol n)) = some n := by
  have all : ∀ m : Fin 64, value (code (symbol m)) = some m.val := by decide +kernel
  exact all ⟨n, h⟩

theorem symbol_ne_pad {n : Nat} (h : n < 64) : code (symbol n) ≠ pad := by
  have all : ∀ m : Fin 64, code (symbol m) ≠ pad := by decide +kernel
  exact all ⟨n, h⟩

theorem code_pad : code '=' = pad := rfl

theorem symbol_ascii {n : Nat} (h : n < 64) : (symbol n).toNat ≤ 127 := by
  have all : ∀ m : Fin 64, (symbol m).toNat ≤ 127 := by decide +kernel
  exact all ⟨n, h⟩

def encodeChars : List UInt8 → List Char
  | [] => []
  | [a] => [symbol (a.toNat / 4), symbol (a.toNat % 4 * 16), '=', '=']
  | [a, b] =>
    [symbol (a.toNat / 4), symbol (a.toNat % 4 * 16 + b.toNat / 16),
      symbol (b.toNat % 16 * 4), '=']
  | a :: b :: c :: rest =>
    symbol (a.toNat / 4) :: symbol (a.toNat % 4 * 16 + b.toNat / 16) ::
      symbol (b.toNat % 16 * 4 + c.toNat / 64) :: symbol (c.toNat % 64) :: encodeChars rest

/-- Two symbols carry one byte. -/
def decodeTwo (a b : UInt8) : Option (List UInt8) := do
  let x ← value a
  let y ← value b
  if y % 16 = 0 then some [UInt8.ofNat (x * 4 + y / 16)] else none

/-- Three symbols carry two bytes. -/
def decodeThree (a b c : UInt8) : Option (List UInt8) := do
  let x ← value a
  let y ← value b
  let z ← value c
  if z % 4 = 0 then
    some [UInt8.ofNat (x * 4 + y / 16), UInt8.ofNat (y % 16 * 16 + z / 4)]
  else none

def decodeFour (a b c d : UInt8) : Option (List UInt8) := do
  let x ← value a
  let y ← value b
  let z ← value c
  let w ← value d
  some [UInt8.ofNat (x * 4 + y / 16), UInt8.ofNat (y % 16 * 16 + z / 4),
    UInt8.ofNat (z % 4 * 64 + w)]

def decodeBytes : List UInt8 → Option (List UInt8)
  | [] => some []
  | [_] => none
  | [a, b] => decodeTwo a b
  | [a, b, c] => if c = pad then decodeTwo a b else decodeThree a b c
  | [a, b, c, d] =>
    if c = pad then (if d = pad then decodeTwo a b else none)
    else if d = pad then decodeThree a b c
    else decodeFour a b c d
  | a :: b :: c :: d :: e :: rest => do
    let head ← decodeFour a b c d
    let tail ← decodeBytes (e :: rest)
    some (head ++ tail)

def encode (bytes : List UInt8) : String := String.ofList (encodeChars bytes)

/-- A text is decoded by its bytes. -/
def decode (text : String) : Option (List UInt8) := decodeBytes text.toUTF8.data.toList

theorem decodeTwo_symbols (a : UInt8) :
    decodeTwo (code (symbol (a.toNat / 4))) (code (symbol (a.toNat % 4 * 16))) = some [a] := by
  have ha := a.toNat_lt
  have byte : a.toNat / 4 * 4 + a.toNat % 4 * 16 / 16 = a.toNat := by omega
  have zero : a.toNat % 4 * 16 % 16 = 0 := by omega
  simp only [decodeTwo, value_symbol (show a.toNat / 4 < 64 by omega),
    value_symbol (show a.toNat % 4 * 16 < 64 by omega), Option.bind_eq_bind, Option.bind_some,
    byte, zero, ↓reduceIte, UInt8.ofNat_toNat]

theorem decodeThree_symbols (a b : UInt8) :
    decodeThree (code (symbol (a.toNat / 4))) (code (symbol (a.toNat % 4 * 16 + b.toNat / 16)))
      (code (symbol (b.toNat % 16 * 4))) = some [a, b] := by
  have ha := a.toNat_lt
  have hb := b.toNat_lt
  have first : a.toNat / 4 * 4 + (a.toNat % 4 * 16 + b.toNat / 16) / 16 = a.toNat := by omega
  have second : (a.toNat % 4 * 16 + b.toNat / 16) % 16 * 16 + b.toNat % 16 * 4 / 4 = b.toNat := by
    omega
  have zero : b.toNat % 16 * 4 % 4 = 0 := by omega
  simp only [decodeThree, value_symbol (show a.toNat / 4 < 64 by omega),
    value_symbol (show a.toNat % 4 * 16 + b.toNat / 16 < 64 by omega),
    value_symbol (show b.toNat % 16 * 4 < 64 by omega), Option.bind_eq_bind, Option.bind_some,
    first, second, zero, ↓reduceIte, UInt8.ofNat_toNat]

theorem decodeFour_symbols (a b c : UInt8) :
    decodeFour (code (symbol (a.toNat / 4))) (code (symbol (a.toNat % 4 * 16 + b.toNat / 16)))
      (code (symbol (b.toNat % 16 * 4 + c.toNat / 64))) (code (symbol (c.toNat % 64))) =
        some [a, b, c] := by
  have ha := a.toNat_lt
  have hb := b.toNat_lt
  have hc := c.toNat_lt
  have first : a.toNat / 4 * 4 + (a.toNat % 4 * 16 + b.toNat / 16) / 16 = a.toNat := by omega
  have second : (a.toNat % 4 * 16 + b.toNat / 16) % 16 * 16 +
      (b.toNat % 16 * 4 + c.toNat / 64) / 4 = b.toNat := by omega
  have third : (b.toNat % 16 * 4 + c.toNat / 64) % 4 * 64 + c.toNat % 64 = c.toNat := by omega
  simp only [decodeFour, value_symbol (show a.toNat / 4 < 64 by omega),
    value_symbol (show a.toNat % 4 * 16 + b.toNat / 16 < 64 by omega),
    value_symbol (show b.toNat % 16 * 4 + c.toNat / 64 < 64 by omega),
    value_symbol (show c.toNat % 64 < 64 by omega), Option.bind_eq_bind, Option.bind_some,
    first, second, third, UInt8.ofNat_toNat]

theorem encodeChars_eq_nil {bytes : List UInt8} (h : encodeChars bytes = []) : bytes = [] := by
  match bytes with
  | [] => rfl
  | [_] | [_, _] | _ :: _ :: _ :: _ => simp [encodeChars] at h

theorem decodeBytes_encodeChars (bytes : List UInt8) :
    decodeBytes ((encodeChars bytes).map code) = some bytes := by
  fun_induction encodeChars bytes with
  | case1 => rfl
  | case2 a => simpa [decodeBytes, code_pad] using decodeTwo_symbols a
  | case3 a b =>
    have hb := b.toNat_lt
    have third := symbol_ne_pad (show b.toNat % 16 * 4 < 64 by omega)
    simpa [decodeBytes, third, code_pad] using decodeThree_symbols a b
  | case4 a b c rest ih =>
    have hb := b.toNat_lt
    have hc := c.toNat_lt
    have third := symbol_ne_pad (show b.toNat % 16 * 4 + c.toNat / 64 < 64 by omega)
    have fourth := symbol_ne_pad (show c.toNat % 64 < 64 by omega)
    have group := decodeFour_symbols a b c
    cases ht : encodeChars rest with
    | nil =>
      rw [encodeChars_eq_nil ht]
      simpa [decodeBytes, third, fourth] using group
    | cons e tail =>
      rw [ht, List.map_cons] at ih
      simp [decodeBytes, group, ih]

theorem encodeChars_ascii (bytes : List UInt8) : ∀ c ∈ encodeChars bytes, c.toNat ≤ 127 := by
  have equals : '='.toNat ≤ 127 := by decide
  fun_induction encodeChars bytes with
  | case1 => simp
  | case2 a =>
    have ha := a.toNat_lt
    simp only [List.forall_mem_cons, List.not_mem_nil, false_implies, implies_true, and_true]
    exact ⟨symbol_ascii (by omega), symbol_ascii (by omega), equals, equals⟩
  | case3 a b =>
    have ha := a.toNat_lt
    have hb := b.toNat_lt
    simp only [List.forall_mem_cons, List.not_mem_nil, false_implies, implies_true, and_true]
    exact ⟨symbol_ascii (by omega), symbol_ascii (by omega), symbol_ascii (by omega), equals⟩
  | case4 a b c rest ih =>
    have ha := a.toNat_lt
    have hb := b.toNat_lt
    have hc := c.toNat_lt
    simp only [List.forall_mem_cons]
    exact ⟨symbol_ascii (by omega), symbol_ascii (by omega), symbol_ascii (by omega),
      symbol_ascii (by omega), ih⟩

/-- ASCII text has one byte for each character. -/
theorem toUTF8_ofList {cs : List Char} (ascii : ∀ c ∈ cs, c.toNat ≤ 127) :
    (String.ofList cs).toUTF8.data.toList = cs.map code := by
  have bytes : (String.ofList cs).toUTF8.data.toList = cs.flatMap String.utf8EncodeChar := by
    simp [List.utf8Encode]
  have one (c : Char) (hc : c ∈ cs) : String.utf8EncodeChar c = [code c] := by
    simp only [String.utf8EncodeChar, code]
    exact if_pos (ascii c hc)
  rw [bytes, List.flatMap_congr one, List.map_eq_flatMap]

/-- Decoding returns what was encoded. -/
theorem decode_encode (bytes : List UInt8) : decode (encode bytes) = some bytes := by
  rw [decode, encode, toUTF8_ofList (encodeChars_ascii bytes), decodeBytes_encodeChars]

/-! ## Padded text -/

/-- Standard padded base64: groups of four symbols, the last one perhaps with `=` for the
symbols that carry no byte, and zeros for the bits that carry none. -/
inductive Padded : List Char → Prop where
  | nil : Padded []
  | one {x y : Nat} (hx : x < 64) (hy : y < 64) (unused : y % 16 = 0) :
      Padded [symbol x, symbol y, '=', '=']
  | two {x y z : Nat} (hx : x < 64) (hy : y < 64) (hz : z < 64) (unused : z % 4 = 0) :
      Padded [symbol x, symbol y, symbol z, '=']
  | group {x y z w : Nat} {rest : List Char} (hx : x < 64) (hy : y < 64) (hz : z < 64)
      (hw : w < 64) (padded : Padded rest) :
      Padded (symbol x :: symbol y :: symbol z :: symbol w :: rest)

theorem padded_encodeChars (bytes : List UInt8) : Padded (encodeChars bytes) := by
  fun_induction encodeChars bytes with
  | case1 => exact .nil
  | case2 a =>
    have ha := a.toNat_lt
    exact .one (by omega) (by omega) (by omega)
  | case3 a b =>
    have ha := a.toNat_lt
    have hb := b.toNat_lt
    exact .two (by omega) (by omega) (by omega) (by omega)
  | case4 a b c rest ih =>
    have ha := a.toNat_lt
    have hb := b.toNat_lt
    have hc := c.toNat_lt
    exact .group (by omega) (by omega) (by omega) (by omega) ih

theorem toNat_byte {n : Nat} (h : n < 256) : (UInt8.ofNat n).toNat = n := by
  rw [UInt8.toNat_ofNat']
  omega

/-- Padded text is what the encoder writes. -/
theorem exists_encodeChars {cs : List Char} (padded : Padded cs) :
    ∃ bytes, encodeChars bytes = cs := by
  induction padded with
  | nil => exact ⟨[], rfl⟩
  | @one x y hx hy unused =>
    have first : (UInt8.ofNat (x * 4 + y / 16)).toNat = x * 4 + y / 16 := toNat_byte (by omega)
    refine ⟨[UInt8.ofNat (x * 4 + y / 16)], ?_⟩
    rw [encodeChars, first]
    have high : (x * 4 + y / 16) / 4 = x := by omega
    have low : (x * 4 + y / 16) % 4 * 16 = y := by omega
    rw [high, low]
  | @two x y z hx hy hz unused =>
    have first : (UInt8.ofNat (x * 4 + y / 16)).toNat = x * 4 + y / 16 := toNat_byte (by omega)
    have second : (UInt8.ofNat (y % 16 * 16 + z / 4)).toNat = y % 16 * 16 + z / 4 :=
      toNat_byte (by omega)
    refine ⟨[UInt8.ofNat (x * 4 + y / 16), UInt8.ofNat (y % 16 * 16 + z / 4)], ?_⟩
    rw [encodeChars, first, second]
    have high : (x * 4 + y / 16) / 4 = x := by omega
    have middle : (x * 4 + y / 16) % 4 * 16 + (y % 16 * 16 + z / 4) / 16 = y := by omega
    have low : (y % 16 * 16 + z / 4) % 16 * 4 = z := by omega
    rw [high, middle, low]
  | @group x y z w rest hx hy hz hw padded ih =>
    obtain ⟨bytes, encoded⟩ := ih
    have first : (UInt8.ofNat (x * 4 + y / 16)).toNat = x * 4 + y / 16 := toNat_byte (by omega)
    have second : (UInt8.ofNat (y % 16 * 16 + z / 4)).toNat = y % 16 * 16 + z / 4 :=
      toNat_byte (by omega)
    have third : (UInt8.ofNat (z % 4 * 64 + w)).toNat = z % 4 * 64 + w := toNat_byte (by omega)
    refine ⟨UInt8.ofNat (x * 4 + y / 16) :: UInt8.ofNat (y % 16 * 16 + z / 4) ::
      UInt8.ofNat (z % 4 * 64 + w) :: bytes, ?_⟩
    rw [encodeChars, first, second, third, encoded]
    have one : (x * 4 + y / 16) / 4 = x := by omega
    have two : (x * 4 + y / 16) % 4 * 16 + (y % 16 * 16 + z / 4) / 16 = y := by omega
    have three : (y % 16 * 16 + z / 4) % 16 * 4 + (z % 4 * 64 + w) / 64 = z := by omega
    have four : (z % 4 * 64 + w) % 64 = w := by omega
    rw [one, two, three, four]

theorem padded_iff {text : String} : Padded text.toList ↔ ∃ bytes, encode bytes = text := by
  constructor
  · intro padded
    obtain ⟨bytes, encoded⟩ := exists_encodeChars padded
    refine ⟨bytes, ?_⟩
    rw [encode, encoded, String.ofList_toList]
  · rintro ⟨bytes, rfl⟩
    rw [encode, String.toList_ofList]
    exact padded_encodeChars bytes

end Base64
