import GpuProxy.Utils

/-!
# JSON on one line

The compact text `serde_json::to_string` writes, and a reader for it. `read_render` says
that the text of a document is read back as that document, so no other document has it;
`newline_not_mem_render` that it is one line, whatever its strings are.
-/

namespace GpuProxy

/-! ## Newlines in UTF-8 -/

theorem utf8Encode_toList (cs : List Char) :
    cs.utf8Encode.data.toList = cs.flatMap String.utf8EncodeChar := by
  simp [List.utf8Encode]

theorem asBytes_eq (s : String) : asBytes s = s.toList.flatMap String.utf8EncodeChar := by
  rw [← utf8Encode_toList, asBytes, String.utf8Encode_toList]
  rfl

/-- Only the newline has its byte in its encoding. -/
theorem newline_mem_encodeChar {c : Char} (h : 10 ∈ String.utf8EncodeChar c) : c = '\n' := by
  have byte (n : Nat) : 10 = UInt8.ofNat n ↔ n % 256 = 10 := by
    rw [← UInt8.toNat_inj, UInt8.toNat_ofNat', eq_comm]
    rfl
  have code : c.val.toNat = 10 := by
    simp only [String.utf8EncodeChar] at h
    split at h
    · simp only [List.mem_singleton, byte] at h
      omega
    · split at h
      · simp only [List.mem_cons, List.not_mem_nil, or_false, byte] at h
        omega
      · split at h <;> simp only [List.mem_cons, List.not_mem_nil, or_false, byte] at h <;> omega
  apply Char.ext
  exact UInt32.toNat_inj.mp code

theorem newline_mem_asBytes {s : String} (h : 10 ∈ asBytes s) : '\n' ∈ s.toList := by
  rw [asBytes_eq] at h
  obtain ⟨c, hc, hb⟩ := List.mem_flatMap.mp h
  rwa [← newline_mem_encodeChar hb]

namespace Json

/-! ## Writing -/

/-- What `serde_json` writes for a character of a string. -/
def escape (c : Char) : List Char :=
  if c = '\x22' then ['\\', '\x22']
  else if c = '\\' then ['\\', '\\']
  else if c = '\x08' then ['\\', 'b']
  else if c = '\t' then ['\\', 't']
  else if c = '\n' then ['\\', 'n']
  else if c = '\x0c' then ['\\', 'f']
  else if c = '\r' then ['\\', 'r']
  else if c.toNat < 32 then
    ['\\', 'u', '0', '0', (c.toNat / 16).digitChar, (c.toNat % 16).digitChar]
  else [c]

def renderString (s : String) : List Char := '\x22' :: (s.toList.flatMap escape ++ ['\x22'])

def renderInt : Int → List Char
  | .ofNat n => Nat.toDigits 10 n
  | .negSucc n => '-' :: Nat.toDigits 10 (n + 1)

/-- The compact format: no space between tokens. -/
def render : Json → List Char
  | .null => ['n', 'u', 'l', 'l']
  | .bool true => ['t', 'r', 'u', 'e']
  | .bool false => ['f', 'a', 'l', 's', 'e']
  | .num n => renderInt n
  | .decimal literal => literal.toList
  | .str s => renderString s
  | .arr items => '[' :: renderItems items
  | .obj fields => '\x7b' :: renderFields fields
where
  renderItems : List Json → List Char
    | [] => [']']
    | item :: rest => render item ++ renderMoreItems rest
  renderMoreItems : List Json → List Char
    | [] => [']']
    | item :: rest => ',' :: (render item ++ renderMoreItems rest)
  renderField : String × Json → List Char
    | (name, value) => renderString name ++ ':' :: render value
  renderFields : List (String × Json) → List Char
    | [] => ['\x7d']
    | f :: rest => renderField f ++ renderMoreFields rest
  renderMoreFields : List (String × Json) → List Char
    | [] => ['\x7d']
    | f :: rest => ',' :: (renderField f ++ renderMoreFields rest)

/-! ## Reading -/

def hexValue (c : Char) : Option Nat :=
  (List.range 16).find? fun n => decide (n.digitChar = c.toLower)

/-- The character of an escape with four digits. Surrogates are not read: they come in
pairs, which are never written. -/
def readHex (a b c d : Char) : Option Char := do
  let n := (((← hexValue a) * 16 + (← hexValue b)) * 16 + (← hexValue c)) * 16 + (← hexValue d)
  if n.isValidChar then some (Char.ofNat n) else none

def unescape : Char → Option Char
  | '\x22' => some '\x22'
  | '\\' => some '\\'
  | '/' => some '/'
  | 'b' => some '\x08'
  | 'f' => some '\x0c'
  | 'n' => some '\n'
  | 'r' => some '\r'
  | 't' => some '\t'
  | _ => none

/-- The rest of a string, through its closing quote. -/
def readString : List Char → Option (List Char × List Char)
  | '\x22' :: rest => some ([], rest)
  | '\\' :: 'u' :: a :: b :: c :: d :: rest => do
    let first ← readHex a b c d
    let (cs, rest) ← readString rest
    some (first :: cs, rest)
  | '\\' :: e :: rest => do
    let first ← unescape e
    let (cs, rest) ← readString rest
    some (first :: cs, rest)
  | c :: rest =>
    if c.toNat < 32 ∨ c = '\\' then none
    else do
      let (cs, rest) ← readString rest
      some (c :: cs, rest)
  | [] => none

def readDigits (cs : List Char) : Option (Nat × List Char) :=
  if (cs.takeWhile Char.isDigit).isEmpty then none
  else some (Nat.ofDigitChars 10 (cs.takeWhile Char.isDigit) 0, cs.dropWhile Char.isDigit)

mutual

/-- The document at the front of a text, and what follows it. -/
def readValue : Nat → List Char → Option (Json × List Char)
  | 0, _ => none
  | _ + 1, 'n' :: 'u' :: 'l' :: 'l' :: rest => some (.null, rest)
  | _ + 1, 't' :: 'r' :: 'u' :: 'e' :: rest => some (.bool true, rest)
  | _ + 1, 'f' :: 'a' :: 'l' :: 's' :: 'e' :: rest => some (.bool false, rest)
  | _ + 1, '\x22' :: rest => do
    let (cs, rest) ← readString rest
    some (.str (String.ofList cs), rest)
  | _ + 1, '[' :: ']' :: rest => some (.arr [], rest)
  | fuel + 1, '[' :: rest => do
    let (item, rest) ← readValue fuel rest
    let (items, rest) ← readMoreItems fuel rest
    some (.arr (item :: items), rest)
  | _ + 1, '\x7b' :: '\x7d' :: rest => some (.obj [], rest)
  | fuel + 1, '\x7b' :: rest => do
    let (f, rest) ← readField fuel rest
    let (fields, rest) ← readMoreFields fuel rest
    some (.obj (f :: fields), rest)
  | _ + 1, '-' :: rest => do
    let (n, rest) ← readDigits rest
    some (.num (-n), rest)
  | _ + 1, cs => do
    let (n, rest) ← readDigits cs
    some (.num n, rest)

def readMoreItems : Nat → List Char → Option (List Json × List Char)
  | _ + 1, ']' :: rest => some ([], rest)
  | fuel + 1, ',' :: rest => do
    let (item, rest) ← readValue fuel rest
    let (items, rest) ← readMoreItems fuel rest
    some (item :: items, rest)
  | _, _ => none

def readField : Nat → List Char → Option ((String × Json) × List Char)
  | fuel + 1, '\x22' :: rest => do
    let (name, rest) ← readString rest
    match rest with
    | ':' :: rest =>
      let (value, rest) ← readValue fuel rest
      some ((String.ofList name, value), rest)
    | _ => none
  | _, _ => none

def readMoreFields : Nat → List Char → Option (List (String × Json) × List Char)
  | _ + 1, '\x7d' :: rest => some ([], rest)
  | fuel + 1, ',' :: rest => do
    let (f, rest) ← readField fuel rest
    let (fields, rest) ← readMoreFields fuel rest
    some (f :: fields, rest)
  | _, _ => none

end

/-- The document a whole text is. A document is nested no deeper than its text is long. -/
def read (text : List Char) : Option Json :=
  match readValue text.length text with
  | some (j, []) => some j
  | _ => none

/-! ## A document is read back -/

theorem readHex_control {n : Nat} (h : n < 32) :
    readHex '0' '0' (n / 16).digitChar (n % 16).digitChar = some (Char.ofNat n) := by
  have all : ∀ m : Fin 32, readHex '0' '0' (m.val / 16).digitChar (m.val % 16).digitChar =
      some (Char.ofNat m) := by decide +kernel
  exact all ⟨n, h⟩

theorem readString_unescape {e c : Char} (h : unescape e = some c) (text : List Char) :
    readString ('\\' :: e :: text) = (readString text).map fun r => (c :: r.1, r.2) := by
  have unicode : e ≠ 'u' := by
    rintro rfl
    cases h
  rw [readString, h]
  · cases readString text <;> rfl
  · intro a b c d rest same
    exact absurd same (by simp [unicode])

/-- A short escape, a numeric one, or the character itself. -/
theorem escape_cases (c : Char) :
    (∃ e, escape c = ['\\', e] ∧ unescape e = some c) ∨
    (c.toNat < 32 ∧
      escape c = ['\\', 'u', '0', '0', (c.toNat / 16).digitChar, (c.toNat % 16).digitChar]) ∨
    (32 ≤ c.toNat ∧ c ≠ '\x22' ∧ c ≠ '\\' ∧ escape c = [c]) := by
  have short (d e : Char) (same : c = d) (escaped : escape d = ['\\', e])
      (back : unescape e = some d) : ∃ e, escape c = ['\\', e] ∧ unescape e = some c := by
    subst same
    exact ⟨e, escaped, back⟩
  by_cases quote : c = '\x22'
  · exact Or.inl (short _ _ quote rfl rfl)
  by_cases backslash : c = '\\'
  · exact Or.inl (short _ _ backslash rfl rfl)
  by_cases backspace : c = '\x08'
  · exact Or.inl (short _ _ backspace rfl rfl)
  by_cases tab : c = '\t'
  · exact Or.inl (short _ _ tab rfl rfl)
  by_cases newline : c = '\n'
  · exact Or.inl (short _ _ newline rfl rfl)
  by_cases feed : c = '\x0c'
  · exact Or.inl (short _ _ feed rfl rfl)
  by_cases back : c = '\r'
  · exact Or.inl (short _ _ back rfl rfl)
  right
  simp only [escape, quote, backslash, backspace, tab, newline, feed, back, ↓reduceIte]
  by_cases control : c.toNat < 32
  · exact Or.inl ⟨control, if_pos control⟩
  · exact Or.inr ⟨by omega, quote, backslash, if_neg control⟩

theorem readString_escape (c : Char) (text : List Char) :
    readString (escape c ++ text) = (readString text).map fun r => (c :: r.1, r.2) := by
  rcases escape_cases c with ⟨e, escaped, back⟩ | ⟨control, escaped⟩ | ⟨plain, quote, backslash, same⟩
  · rw [escaped]
    exact readString_unescape back text
  · rw [escaped]
    simp only [List.cons_append, List.nil_append]
    rw [readString, readHex_control control, Char.ofNat_toNat]
    cases readString text <;> rfl
  · rw [same, List.singleton_append, readString]
    · rw [if_neg (by simp [backslash]; omega)]
      cases readString text <;> rfl
    · exact quote
    · intro a b c d rest h
      exact absurd h (by simp [backslash])
    · intro e rest h
      exact absurd h (by simp [backslash])

theorem readString_escapes (cs rest : List Char) :
    readString (cs.flatMap escape ++ '\x22' :: rest) = some (cs, rest) := by
  induction cs with
  | nil => rw [List.flatMap_nil, List.nil_append, readString]
  | cons c cs ih =>
    rw [List.flatMap_cons, List.append_assoc, readString_escape, ih]
    rfl

/-- The text goes on with no further digit. -/
def Stops (rest : List Char) : Prop := ∀ c ∈ rest.head?, c.isDigit = false

theorem readDigits_toDigits (n : Nat) {rest : List Char} (stops : Stops rest) :
    readDigits (Nat.toDigits 10 n ++ rest) = some (n, rest) := by
  have digits : ∀ c ∈ Nat.toDigits 10 n, c.isDigit = true := by
    intro c hc
    exact Nat.isDigit_of_mem_toDigits (by omega) (by omega) hc
  have after : rest.takeWhile Char.isDigit = [] ∧ rest.dropWhile Char.isDigit = rest := by
    cases rest with
    | nil => exact ⟨rfl, rfl⟩
    | cons c rest =>
      have no : c.isDigit = false := stops c rfl
      simp [no]
  simp only [readDigits, List.takeWhile_append_of_pos digits, List.dropWhile_append_of_pos digits,
    after, List.append_nil, List.isEmpty_iff, Nat.toDigits_ne_nil, ↓reduceIte,
    Nat.ofDigitChars_ten_toDigits]

/-- A document without a fraction or an exponent in it. -/
inductive Plain : Json → Prop
  | null : Plain .null
  | bool (b : Bool) : Plain (.bool b)
  | num (n : Int) : Plain (.num n)
  | str (s : String) : Plain (.str s)
  | arr {items : List Json} (h : ∀ item ∈ items, Plain item) : Plain (.arr items)
  | obj {fields : List (String × Json)} (h : ∀ f ∈ fields, Plain f.2) : Plain (.obj fields)

theorem digit_of_toDigits (n : Nat) : ∃ d ds, Nat.toDigits 10 n = d :: ds ∧ d.isDigit = true := by
  obtain ⟨d, ds, digits⟩ := List.exists_cons_of_ne_nil (Nat.toDigits_ne_nil (n := n) (b := 10))
  refine ⟨d, ds, digits, Nat.isDigit_of_mem_toDigits (b := 10) (n := n) (by omega) (by omega) ?_⟩
  rw [digits]
  exact List.mem_cons_self

/-- No document's text starts as the end of a list or of an object does. -/
theorem render_head {j : Json} (plain : j.Plain) :
    ∃ c cs, render j = c :: cs ∧ c ≠ ']' := by
  cases plain with
  | null => exact ⟨_, _, rfl, by decide⟩
  | bool b => cases b <;> exact ⟨_, _, rfl, by decide⟩
  | num n =>
    cases n with
    | ofNat n =>
      obtain ⟨d, ds, digits, digit⟩ := digit_of_toDigits n
      refine ⟨d, ds, digits, ?_⟩
      rintro rfl
      cases digit
    | negSucc n => exact ⟨_, _, rfl, by decide⟩
  | str s => exact ⟨_, _, rfl, by decide⟩
  | arr h => exact ⟨_, _, rfl, by decide⟩
  | obj h => exact ⟨_, _, rfl, by decide⟩

/-- The reader reads `j` at the front of a text, given enough fuel. -/
def ReadsBack (j : Json) : Prop :=
  ∀ fuel rest, (render j).length ≤ fuel → Stops rest →
    readValue fuel (render j ++ rest) = some (j, rest)

/-- One character is one unit of fuel. -/
theorem fuel_cons {c : Char} {cs : List Char} {fuel : Nat} (enough : (c :: cs).length ≤ fuel) :
    ∃ f, fuel = f + 1 ∧ cs.length ≤ f := by
  rw [List.length_cons] at enough
  exact ⟨fuel - 1, by omega, by omega⟩

theorem readsBack_num (n : Int) : ReadsBack (.num n) := by
  intro fuel rest enough stops
  cases n with
  | ofNat n =>
    obtain ⟨d, ds, digits, digit⟩ := digit_of_toDigits n
    have back := readDigits_toDigits n stops
    simp only [render, renderInt, digits, List.cons_append] at enough back ⊢
    obtain ⟨fuel, rfl, -⟩ := fuel_cons enough
    rw [readValue, back]
    · rfl
    all_goals
      intro _ same
      injection same with head
      rw [head] at digit
      cases digit
  | negSucc n =>
    have back := readDigits_toDigits (n + 1) stops
    obtain ⟨fuel, rfl, -⟩ := fuel_cons enough
    simp only [render, renderInt, List.cons_append]
    rw [readValue, back]
    rfl

theorem readsBack_str (s : String) : ReadsBack (.str s) := by
  intro fuel rest enough stops
  obtain ⟨fuel, rfl, -⟩ := fuel_cons enough
  simp only [render, renderString, List.cons_append, List.append_assoc, List.nil_append]
  rw [readValue, readString_escapes]
  simp

theorem stops_cons {c : Char} (h : c.isDigit = false) (rest : List Char) : Stops (c :: rest) := by
  rintro d ⟨⟩
  exact h

theorem stops_moreItems (items : List Json) (rest : List Char) :
    Stops (render.renderMoreItems items ++ rest) := by
  cases items with
  | nil => exact stops_cons (by decide) _
  | cons item items => exact stops_cons (by decide) _

theorem stops_moreFields (fields : List (String × Json)) (rest : List Char) :
    Stops (render.renderMoreFields fields ++ rest) := by
  cases fields with
  | nil => exact stops_cons (by decide) _
  | cons f fields => exact stops_cons (by decide) _

theorem readMoreItems_render {items : List Json} (back : ∀ item ∈ items, ReadsBack item) (fuel : Nat)
    (rest : List Char) (enough : (render.renderMoreItems items).length ≤ fuel) :
    readMoreItems fuel (render.renderMoreItems items ++ rest) = some (items, rest) := by
  induction items generalizing fuel with
  | nil =>
    obtain ⟨fuel, rfl, -⟩ := fuel_cons enough
    simp only [render.renderMoreItems, List.cons_append, List.nil_append, readMoreItems]
  | cons item items ih =>
    obtain ⟨fuel, rfl, left⟩ := fuel_cons enough
    rw [List.length_append] at left
    have first := back item List.mem_cons_self fuel (render.renderMoreItems items ++ rest)
      (by omega) (stops_moreItems items rest)
    have others := ih (fun j hj => back j (List.mem_cons_of_mem item hj)) fuel (by omega)
    simp only [render.renderMoreItems, List.cons_append, List.append_assoc]
    rw [readMoreItems, first]
    simp [others]

theorem readField_render {f : String × Json} (back : ReadsBack f.2) (fuel : Nat) {rest : List Char}
    (stops : Stops rest) (enough : (render.renderField f).length ≤ fuel) :
    readField fuel (render.renderField f ++ rest) = some (f, rest) := by
  obtain ⟨name, value⟩ := f
  change ReadsBack value at back
  obtain ⟨fuel, rfl, left⟩ := fuel_cons enough
  simp only [List.length_append, List.length_cons, List.append_eq] at left
  have read := back fuel rest (by omega) stops
  simp only [render.renderField, renderString, List.cons_append, List.append_assoc,
    List.nil_append]
  rw [readField, readString_escapes]
  simp [read]

theorem readMoreFields_render {fields : List (String × Json)} (back : ∀ f ∈ fields, ReadsBack f.2)
    (fuel : Nat) (rest : List Char) (enough : (render.renderMoreFields fields).length ≤ fuel) :
    readMoreFields fuel (render.renderMoreFields fields ++ rest) = some (fields, rest) := by
  induction fields generalizing fuel with
  | nil =>
    obtain ⟨fuel, rfl, -⟩ := fuel_cons enough
    simp only [render.renderMoreFields, List.cons_append, List.nil_append, readMoreFields]
  | cons f fields ih =>
    obtain ⟨fuel, rfl, left⟩ := fuel_cons enough
    rw [List.length_append] at left
    have first := readField_render (back f List.mem_cons_self) fuel (stops_moreFields fields rest)
      (by omega)
    have others := ih (fun g hg => back g (List.mem_cons_of_mem f hg)) fuel (by omega)
    simp only [render.renderMoreFields, List.cons_append, List.append_assoc]
    rw [readMoreFields, first]
    simp [others]

theorem readsBack_arr {items : List Json} (plain : ∀ item ∈ items, item.Plain)
    (back : ∀ item ∈ items, ReadsBack item) : ReadsBack (.arr items) := by
  intro fuel rest enough stops
  obtain ⟨fuel, rfl, left⟩ := fuel_cons enough
  cases items with
  | nil => simp only [render, render.renderItems, List.cons_append, List.nil_append, readValue]
  | cons item items =>
    obtain ⟨c, cs, head, closing⟩ := render_head (plain item List.mem_cons_self)
    simp only [render, render.renderItems, List.cons_append, List.append_assoc,
      List.length_append] at left ⊢
    have first := back item List.mem_cons_self fuel (render.renderMoreItems items ++ rest)
      (by omega) (stops_moreItems items rest)
    have others := readMoreItems_render (fun j hj => back j (List.mem_cons_of_mem item hj)) fuel
      rest (by omega)
    rw [readValue, first]
    · simp [others]
    · intro tail same
      rw [head] at same
      injection same with wrong
      exact closing wrong

theorem readsBack_obj {fields : List (String × Json)} (back : ∀ f ∈ fields, ReadsBack f.2) :
    ReadsBack (.obj fields) := by
  intro fuel rest enough stops
  obtain ⟨fuel, rfl, left⟩ := fuel_cons enough
  cases fields with
  | nil => simp only [render, render.renderFields, List.cons_append, List.nil_append, readValue]
  | cons f fields =>
    simp only [render, render.renderFields, List.cons_append, List.append_assoc,
      List.length_append] at left ⊢
    have first := readField_render (back f List.mem_cons_self) fuel (stops_moreFields fields rest)
      (by omega)
    have others := readMoreFields_render (fun g hg => back g (List.mem_cons_of_mem f hg)) fuel
      rest (by omega)
    rw [readValue, first]
    · simp [others]
    · intro tail same
      obtain ⟨name, value⟩ := f
      simp [render.renderField, renderString] at same

theorem readsBack {j : Json} (plain : j.Plain) : ReadsBack j := by
  induction plain with
  | null =>
    intro fuel rest enough stops
    obtain ⟨fuel, rfl, -⟩ := fuel_cons enough
    simp only [render, List.cons_append, List.nil_append, readValue]
  | bool b =>
    intro fuel rest enough stops
    cases b with
    | true =>
      obtain ⟨fuel, rfl, -⟩ := fuel_cons enough
      simp only [render, List.cons_append, List.nil_append, readValue]
    | false =>
      obtain ⟨fuel, rfl, -⟩ := fuel_cons enough
      simp only [render, List.cons_append, List.nil_append, readValue]
  | num n => exact readsBack_num n
  | str s => exact readsBack_str s
  | arr plain back => exact readsBack_arr plain back
  | obj plain back => exact readsBack_obj back

theorem read_render {j : Json} (plain : j.Plain) : read (render j) = some j := by
  have whole := readsBack plain _ [] (Nat.le_refl _) (by rintro c ⟨⟩)
  rw [List.append_nil] at whole
  simp only [read, whole]

/-! ## One line -/

theorem newline_not_mem_escape (c : Char) : '\n' ∉ escape c := by
  rcases escape_cases c with ⟨e, escaped, back⟩ | ⟨control, escaped⟩ | ⟨plain, -, -, same⟩
  · rw [escaped]
    intro newline
    simp only [List.mem_cons, List.not_mem_nil, or_false] at newline
    rcases newline with slash | rfl
    · cases slash
    · cases back
  · have digits : ∀ n : Fin 32, '\n' ∉
        ['\\', 'u', '0', '0', (n.val / 16).digitChar, (n.val % 16).digitChar] := by decide +kernel
    rw [escaped]
    exact digits ⟨c.toNat, control⟩
  · rw [same]
    intro newline
    rw [List.mem_singleton] at newline
    subst newline
    revert plain
    decide

theorem newline_not_mem_string (s : String) : '\n' ∉ renderString s := by
  simp only [renderString, List.mem_cons, List.mem_append, List.mem_flatMap, List.not_mem_nil,
    or_false]
  rintro (quote | ⟨c, -, newline⟩ | quote)
  · cases quote
  · exact newline_not_mem_escape c newline
  · cases quote

theorem newline_not_mem_digits (n : Nat) : '\n' ∉ Nat.toDigits 10 n := by
  intro newline
  have digit := Nat.isDigit_of_mem_toDigits (by omega) (by omega) newline
  cases digit

theorem newline_not_mem_moreItems {items : List Json} (lines : ∀ item ∈ items, '\n' ∉ render item) :
    '\n' ∉ render.renderMoreItems items := by
  induction items with
  | nil => decide
  | cons item items ih =>
    have others := ih fun j hj => lines j (List.mem_cons_of_mem item hj)
    simp [render.renderMoreItems, lines item, others]

theorem newline_not_mem_field {f : String × Json} (line : '\n' ∉ render f.2) :
    '\n' ∉ render.renderField f := by
  obtain ⟨name, value⟩ := f
  change '\n' ∉ render value at line
  simp [render.renderField, newline_not_mem_string, line]

theorem newline_not_mem_moreFields {fields : List (String × Json)}
    (lines : ∀ f ∈ fields, '\n' ∉ render f.2) : '\n' ∉ render.renderMoreFields fields := by
  induction fields with
  | nil => decide
  | cons f fields ih =>
    have others := ih fun g hg => lines g (List.mem_cons_of_mem f hg)
    have first := newline_not_mem_field (lines f List.mem_cons_self)
    simp [render.renderMoreFields, first, others]

/-- A document is one line: newlines in its strings are escaped. -/
theorem newline_not_mem_render {j : Json} (plain : j.Plain) : '\n' ∉ render j := by
  induction plain with
  | null => decide
  | bool b => cases b <;> decide
  | num n =>
    cases n with
    | ofNat n => exact newline_not_mem_digits n
    | negSucc n =>
      simp only [render, renderInt, List.mem_cons, newline_not_mem_digits, or_false]
      decide
  | str s => exact newline_not_mem_string s
  | @arr items _ lines =>
    cases items with
    | nil => decide
    | cons item items =>
      have others := newline_not_mem_moreItems fun j hj => lines j (List.mem_cons_of_mem item hj)
      simp [render, render.renderItems, lines item, others]
  | @obj fields _ lines =>
    cases fields with
    | nil => decide
    | cons f fields =>
      have others := newline_not_mem_moreFields fun g hg => lines g (List.mem_cons_of_mem f hg)
      have first := newline_not_mem_field (lines f List.mem_cons_self)
      simp [render, render.renderFields, first, others]

end Json

end GpuProxy
