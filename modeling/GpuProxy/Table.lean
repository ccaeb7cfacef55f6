import Mathlib.Data.List.Nodup
import Mathlib.Data.List.Sort

/-!
# Tables with a primary key

A row type names its key column. A table is a list of rows whose keys differ,
so no operation can store a second row under a key. Every operation is
described by what `find` returns afterwards. `FreshIds` is about the ids that
callers make up for new rows.
-/

/-- The primary key of a row. -/
class HasKey (ρ : Type) (κ : outParam Type) where
  key : ρ → κ

export HasKey (key)

structure Table (ρ : Type) {κ : Type} [HasKey ρ κ] where
  rows : List ρ
  nodup : (rows.map key).Nodup

namespace Table

variable {ρ κ : Type} [HasKey ρ κ]

def empty : Table ρ := ⟨[], List.nodup_nil⟩

instance : Membership ρ (Table ρ) := ⟨fun t r => r ∈ t.rows⟩

theorem mem_iff {t : Table ρ} {r : ρ} : r ∈ t ↔ r ∈ t.rows := Iff.rfl

theorem not_mem_empty (r : ρ) : r ∉ (empty : Table ρ) := by simp [mem_iff, empty]

theorem ext_key {t : Table ρ} {r s : ρ} (hr : r ∈ t) (hs : s ∈ t) (h : key r = key s) : r = s :=
  List.inj_on_of_nodup_map t.nodup hr hs h

/-- Set columns of the rows a filter selects. The key column is never set. -/
def updateWhere (t : Table ρ) (p : ρ → Bool) (set : ρ → ρ) (keeps : ∀ r, key (set r) = key r) :
    Table ρ where
  rows := t.rows.map fun r => if p r then set r else r
  nodup := by
    have same : (key ∘ fun r => if p r then set r else r) = (key : ρ → κ) := by
      funext r
      simp only [Function.comp]
      split
      · exact keeps r
      · rfl
    rw [List.map_map, same]
    exact t.nodup

def deleteWhere (t : Table ρ) (p : ρ → Bool) : Table ρ where
  rows := t.rows.filter fun r => !p r
  nodup := t.nodup.sublist ((t.rows.filter_sublist).map key)

def count (t : Table ρ) (p : ρ → Bool) : Nat := t.rows.countP p

/-- A `SELECT ... LIMIT 1`. Which of the rows that match it returns is open. -/
def selectOne (t : Table ρ) (p : ρ → Bool) (pick : Nat) : Option ρ :=
  let found := t.rows.filter p
  found[pick % found.length]?

/-- Rows a filter selects, ordered by a column, ties in table order. -/
def selectBy (t : Table ρ) (p : ρ → Bool) (column : ρ → Int) : List ρ :=
  (t.rows.filter p).insertionSort fun r s => column r ≤ column s

@[simp] theorem mem_updateWhere {t : Table ρ} {p : ρ → Bool} {set : ρ → ρ}
    {keeps : ∀ r, key (set r) = key r} {r : ρ} :
    r ∈ t.updateWhere p set keeps ↔ ∃ s ∈ t, (if p s then set s else s) = r := by
  simp only [mem_iff, updateWhere, List.mem_map]

@[simp] theorem mem_deleteWhere {t : Table ρ} {p : ρ → Bool} {r : ρ} :
    r ∈ t.deleteWhere p ↔ r ∈ t ∧ p r = false := by
  simp [mem_iff, deleteWhere]

theorem mem_selectBy {t : Table ρ} {p : ρ → Bool} {column : ρ → Int} {r : ρ} :
    r ∈ t.selectBy p column ↔ r ∈ t ∧ p r = true := by
  simp [selectBy, mem_iff]

theorem selectBy_sorted (t : Table ρ) (p : ρ → Bool) (column : ρ → Int) :
    (t.selectBy p column).Pairwise fun r s => column r ≤ column s := by
  let before : ρ → ρ → Prop := fun r s => column r ≤ column s
  have total : Std.Total before := ⟨fun r s => Int.le_total (column r) (column s)⟩
  have trans : IsTrans ρ before := ⟨fun _ _ _ => Int.le_trans⟩
  exact List.pairwise_insertionSort before _

theorem selectBy_nodup (t : Table ρ) (p : ρ → Bool) (column : ρ → Int) :
    ((t.selectBy p column).map key).Nodup := by
  have kept : ((t.rows.filter p).map key).Nodup := t.nodup.sublist ((t.rows.filter_sublist).map key)
  exact (((List.perm_insertionSort _ _).map key).nodup_iff).mpr kept

/-- The first of the ordered rows has the least column of all that match. -/
theorem selectBy_head {t : Table ρ} {p : ρ → Bool} {column : ρ → Int} {r : ρ}
    (h : (t.selectBy p column).head? = some r) :
    r ∈ t ∧ p r = true ∧ ∀ s ∈ t, p s = true → column r ≤ column s := by
  have sorted := selectBy_sorted t p column
  obtain ⟨rest, hl⟩ := List.head?_eq_some_iff.mp h
  have mem : r ∈ t.selectBy p column := by simp [hl]
  obtain ⟨hr, hp⟩ := mem_selectBy.mp mem
  refine ⟨hr, hp, fun s hs hps => ?_⟩
  have hm : s ∈ t.selectBy p column := mem_selectBy.mpr ⟨hs, hps⟩
  rw [hl] at hm sorted
  rcases List.mem_cons.mp hm with rfl | hm
  · exact Int.le_refl _
  · exact (List.pairwise_cons.mp sorted).1 s hm

theorem updateWhere_congr {t : Table ρ} {p q : ρ → Bool} {f g : ρ → ρ}
    (hf : ∀ r, key (f r) = key r) (hg : ∀ r, key (g r) = key r)
    (h : ∀ r ∈ t, (if p r then f r else r) = if q r then g r else r) :
    t.updateWhere p f hf = t.updateWhere q g hg := by
  have rows : (t.updateWhere p f hf).rows = (t.updateWhere q g hg).rows := List.map_congr_left h
  cases hu : t.updateWhere p f hf
  cases hv : t.updateWhere q g hg
  simp_all

theorem keys_updateWhere (t : Table ρ) (p : ρ → Bool) (set : ρ → ρ)
    (keeps : ∀ r, key (set r) = key r) :
    (t.updateWhere p set keeps).rows.map key = t.rows.map key := by
  simp only [updateWhere, List.map_map]
  apply List.map_congr_left
  intro r _
  simp only [Function.comp]
  split
  · exact keeps r
  · rfl

/-- An update that takes a row out of a filter, and brings none in, lowers its count. -/
theorem count_updateWhere_lt {t : Table ρ} {p q : ρ → Bool} {set : ρ → ρ} {r : ρ}
    (keeps : ∀ r, key (set r) = key r) (there : r ∈ t) (matched : q r = true)
    (out : q (if p r then set r else r) = false)
    (only : ∀ s ∈ t, q (if p s then set s else s) = true → q s = true) :
    (t.updateWhere p set keeps).count q < t.count q := by
  let after : ρ → Bool := fun s => q (if p s then set s else s)
  have counted : (t.updateWhere p set keeps).count q = t.rows.countP after := by
    simp only [count, updateWhere, List.countP_map]
    rfl
  have split := List.countP_eq_countP_filter_add t.rows q after
  have kept : (t.rows.filter after).countP q = t.rows.countP after := by
    rw [List.countP_filter]
    apply List.countP_congr
    intro s hs
    simp only [Bool.and_eq_true, and_iff_right_iff_imp]
    exact only s hs
  have lost : 0 < (t.rows.filter fun s => !after s).countP q := by
    refine List.countP_pos_iff.mpr ⟨r, List.mem_filter.mpr ⟨there, ?_⟩, matched⟩
    simp [after, out]
  change _ < t.rows.countP q
  omega

/-- Whatever is picked, a row that matches. -/
theorem selectOne_mem {t : Table ρ} {p : ρ → Bool} {pick : Nat} {r : ρ}
    (h : t.selectOne p pick = some r) : r ∈ t ∧ p r = true :=
  List.mem_filter.mp (List.mem_of_getElem? h)

variable [DecidableEq κ]

def find (t : Table ρ) (k : κ) : Option ρ := t.rows.find? fun r => decide (key r = k)

/-- `INSERT`: fails on a primary-key conflict. -/
def insert (t : Table ρ) (r : ρ) : Option (Table ρ) :=
  if h : key r ∈ t.rows.map key then none
  else some ⟨t.rows ++ [r], by
    rw [List.map_append, List.nodup_append]
    refine ⟨t.nodup, by simp, ?_⟩
    rintro k hk _ hr rfl
    simp only [List.map_cons, List.map_nil, List.mem_singleton] at hr
    exact h (hr ▸ hk)⟩

theorem find_some {t : Table ρ} {k : κ} {r : ρ} : t.find k = some r ↔ r ∈ t ∧ key r = k := by
  constructor
  · intro h
    exact ⟨List.mem_of_find?_eq_some h, by simpa using List.find?_some h⟩
  · rintro ⟨hr, rfl⟩
    cases hf : t.find (key r) with
    | none =>
      have absent := List.find?_eq_none.mp hf r hr
      simp at absent
    | some s =>
      have hs : s ∈ t := List.mem_of_find?_eq_some hf
      have hk : key s = key r := by simpa using List.find?_some hf
      rw [ext_key hs hr hk]

theorem find_none {t : Table ρ} {k : κ} : t.find k = none ↔ ∀ r ∈ t, key r ≠ k := by
  simp [find, mem_iff]

theorem find_key {t : Table ρ} {k : κ} {r : ρ} (h : t.find k = some r) : key r = k :=
  (find_some.mp h).2

theorem find_of_mem {t : Table ρ} {r : ρ} (h : r ∈ t) : t.find (key r) = some r :=
  find_some.mpr ⟨h, rfl⟩

@[simp] theorem find_empty (k : κ) : (empty : Table ρ).find k = none := rfl

@[simp] theorem find_updateWhere (t : Table ρ) (p : ρ → Bool) (set : ρ → ρ)
    (keeps : ∀ r, key (set r) = key r) (k : κ) :
    (t.updateWhere p set keeps).find k = (t.find k).map fun r => if p r then set r else r := by
  cases hf : t.find k with
  | none =>
    apply find_none.mpr
    intro r hr
    obtain ⟨s, hs, rfl⟩ := mem_updateWhere.mp hr
    have absent := find_none.mp hf s hs
    split
    · rwa [keeps]
    · exact absent
  | some s =>
    obtain ⟨hs, hk⟩ := find_some.mp hf
    refine find_some.mpr ⟨mem_updateWhere.mpr ⟨s, hs, rfl⟩, ?_⟩
    dsimp only
    split
    · rw [keeps, hk]
    · exact hk

theorem find_deleteKey (t : Table ρ) (k j : κ) :
    (t.deleteWhere fun r => decide (key r = k)).find j = if j = k then none else t.find j := by
  split
  · next h =>
    subst h
    apply find_none.mpr
    intro r hr
    simpa using (mem_deleteWhere.mp hr).2
  · next h =>
    cases hf : t.find j with
    | none => exact find_none.mpr fun r hr => find_none.mp hf r (mem_deleteWhere.mp hr).1
    | some s =>
      obtain ⟨hs, rfl⟩ := find_some.mp hf
      exact find_some.mpr ⟨mem_deleteWhere.mpr ⟨hs, by simpa using h⟩, rfl⟩

theorem insert_none {t : Table ρ} {r : ρ} : t.insert r = none ↔ ∃ s, t.find (key r) = some s := by
  simp only [insert, find_some]
  split
  · next h =>
    obtain ⟨s, hs, hk⟩ := List.mem_map.mp h
    simp only [true_iff]
    exact ⟨s, hs, hk⟩
  · next h =>
    simp only [reduceCtorEq, false_iff]
    rintro ⟨s, hs, hk⟩
    exact h (List.mem_map.mpr ⟨s, hs, hk⟩)

theorem mem_insert {t u : Table ρ} {r s : ρ} (h : t.insert r = some u) :
    s ∈ u ↔ s ∈ t ∨ s = r := by
  simp only [insert] at h
  split at h
  · cases h
  · cases h
    simp [mem_iff]

theorem insert_absent {t u : Table ρ} {r : ρ} (h : t.insert r = some u) : t.find (key r) = none := by
  cases hf : t.find (key r) with
  | none => rfl
  | some s => rw [insert_none.mpr ⟨s, hf⟩] at h; cases h

theorem find_insert {t u : Table ρ} {r : ρ} (h : t.insert r = some u) (k : κ) :
    u.find k = if key r = k then some r else t.find k := by
  split
  · next hk => exact find_some.mpr ⟨(mem_insert h).mpr (Or.inr rfl), hk⟩
  · next hk =>
    cases hf : t.find k with
    | none =>
      apply find_none.mpr
      intro s hs
      rcases (mem_insert h).mp hs with hs | rfl
      · exact find_none.mp hf s hs
      · exact hk
    | some s =>
      obtain ⟨hs, he⟩ := find_some.mp hf
      exact find_some.mpr ⟨(mem_insert h).mpr (Or.inl hs), he⟩

theorem insert_of_absent {t : Table ρ} {r : ρ} (h : t.find (key r) = none) :
    ∃ u, t.insert r = some u := by
  cases hi : t.insert r with
  | some u => exact ⟨u, rfl⟩
  | none =>
    obtain ⟨s, hs⟩ := insert_none.mp hi
    rw [h] at hs
    cases hs

/-- At most one row has a given key, so the count tells only whether there is one. -/
theorem count_key_pos {t : Table ρ} {k : κ} :
    0 < t.count (fun r => decide (key r = k)) ↔ ∃ r, t.find k = some r := by
  simp [count, List.countP_pos_iff, find_some, mem_iff]

/-- A key has one row or none. -/
theorem count_key_eq_one {t : Table ρ} {k : κ} :
    t.count (fun r => decide (key r = k)) = 1 ↔ ∃ r, t.find k = some r := by
  have le_one : t.count (fun r => decide (key r = k)) ≤ 1 := by
    have counted := List.nodup_iff_count_le_one.mp t.nodup k
    rwa [List.count_eq_countP, List.countP_map] at counted
  rw [← count_key_pos]
  omega

end Table

section
variable {γ κ : Type} {newId : γ → Option κ} {calls : List γ}

/-- No two of the calls insert their row under one id. -/
def FreshIds (newId : γ → Option κ) (calls : List γ) : Prop := (calls.filterMap newId).Nodup

instance [DecidableEq κ] : Decidable (FreshIds newId calls) := inferInstanceAs (Decidable (List.Nodup _))

theorem FreshIds.eq (fresh : FreshIds newId calls) {i j : Nat} {c d : γ} {id : κ}
    (hi : calls[i]? = some c) (hj : calls[j]? = some d) (ci : newId c = some id)
    (dj : newId d = some id) : i = j := by
  obtain ⟨bi, gi⟩ := List.getElem?_eq_some_iff.mp hi
  obtain ⟨bj, gj⟩ := List.getElem?_eq_some_iff.mp hj
  have pairs := List.pairwise_iff_getElem.mp (List.pairwise_filterMap.mp fresh)
  rcases Nat.lt_trichotomy i j with before | same | after
  · exact absurd rfl (pairs i j bi bj before id (by rw [gi, ci]) id (by rw [gj, dj]))
  · exact same
  · exact absurd rfl (pairs j i bj bi after id (by rw [gj, dj]) id (by rw [gi, ci]))

end
