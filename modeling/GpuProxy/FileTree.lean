import Mathlib.Data.List.Infix
import Mathlib.Data.List.DropRight
import Mathlib.Logic.Function.Basic

/-!
# Directory trees and path resolution

A file system maps locations (the names from the top) to nodes, closed under
parents, without links (`Tree` has them). A path is text: `join` and `components` are those of
Unix paths, and resolving one visits a directory for every component. `..`
leaves a directory and does not erase a component.

`confined_iff` says exactly which paths read the same in any two trees that
agree below a directory.
-/

namespace FileTree

abbrev Name := List Char
abbrev Location := List Name

inductive Node where
  | dir
  | file (bytes : List UInt8)
  deriving DecidableEq

structure FileSystem where
  node : Location → Option Node
  top : node [] = some .dir
  parent : ∀ p x, node (p ++ [x]) ≠ none → node p = some .dir

theorem FileSystem.ancestor {fs : FileSystem} {p v : Location} (h : p <+: v)
    (hv : fs.node v = some .dir) : fs.node p = some .dir := by
  obtain ⟨rest, rfl⟩ := h
  induction rest using List.reverseRecOn with
  | nil => simpa using hv
  | append_singleton rest x ih =>
    apply ih
    apply fs.parent _ x
    simp only [List.append_assoc, hv]
    exact Option.some_ne_none _

/-! ## Paths -/

def isAbsolute (path : List Char) : Bool := decide (path.head? = some '/')

/-- `Path::join`: an absolute argument replaces the base. -/
def join (base path : List Char) : List Char :=
  if isAbsolute path then path
  else if base = [] ∨ base.getLast? = some '/' then base ++ path
  else base ++ '/' :: path

def components (path : List Char) : List Name := path.splitOn '/'

theorem components_slash (a b : List Char) :
    components (a ++ '/' :: b) = components a ++ components b := by
  simp only [components, List.splitOn_eq_splitOnP]
  exact List.splitOnP_append_cons a b (by simp)

theorem components_plain {name : List Char} (h : '/' ∉ name) : components name = [name] := by
  simp only [components, List.splitOn_eq_splitOnP]
  apply List.splitOnP_eq_singleton
  intro c hc
  simp only [beq_eq_false_iff_ne, ne_eq]
  rintro rfl
  exact h hc

def enter (cur : Location) (c : Name) : Location :=
  if c = [] ∨ c = ['.'] then cur else if c = ['.', '.'] then cur.dropLast else cur ++ [c]

def locate (cur : Location) (cs : List Name) : Location := cs.foldl enter cur

/-- The locations that must be directories for the components to resolve. -/
def visited : Location → List Name → List Location
  | _, [] => []
  | cur, c :: cs => cur :: visited (enter cur c) cs

theorem locate_append (cur : Location) (as bs : List Name) :
    locate cur (as ++ bs) = locate (locate cur as) bs := by
  simp [locate]

theorem visited_append (cur : Location) (as bs : List Name) :
    visited cur (as ++ bs) = visited cur as ++ visited (locate cur as) bs := by
  induction as generalizing cur with
  | nil => rfl
  | cons a as ih => simp [visited, locate, ih]

section
variable (cwd : Location) (path : List Char)

def start : Location := if isAbsolute path then [] else cwd

def destination : Location := locate (start cwd path) (components path)

def passes : List Location := visited (start cwd path) (components path)

end

namespace FileSystem
variable (fs : FileSystem) (cwd : Location) (path : List Char)

/-- The path has no NUL and every directory on the way is there. -/
def Resolves : Prop := '\x00' ∉ path ∧ ∀ v ∈ passes cwd path, fs.node v = some .dir

instance : Decidable (fs.Resolves cwd path) := inferInstanceAs (Decidable (_ ∧ _))

/-- `fs::read`. -/
def read : Option (List UInt8) :=
  if fs.Resolves cwd path then
    match fs.node (destination cwd path) with
    | some (.file bytes) => some bytes
    | _ => none
  else none

/-- `Path::is_file`. -/
def isFile : Bool := (fs.read cwd path).isSome

/-- `fs::write`: creates or replaces a file in a directory that exists. -/
def write (bytes : List UInt8) : Option FileSystem :=
  if h : fs.Resolves cwd path ∧ destination cwd path ≠ [] ∧
      fs.node (destination cwd path).dropLast = some .dir ∧
      fs.node (destination cwd path) ≠ some .dir then
    some
      { node := Function.update fs.node (destination cwd path) (some (.file bytes))
        top := by rw [Function.update_of_ne (Ne.symm h.2.1)]; exact fs.top
        parent := by
          intro p x hx
          obtain ⟨-, -, hdir, hfile⟩ := h
          by_cases he : p ++ [x] = destination cwd path
          · have hp : p = (destination cwd path).dropLast := by simp [← he]
            have hne : p ≠ destination cwd path := by
              intro hc
              have hlen := congrArg List.length (he.trans hc.symm)
              simp at hlen
            rw [Function.update_of_ne hne, hp, hdir]
          · rw [Function.update_of_ne he] at hx
            have hd := fs.parent p x hx
            have hne : p ≠ destination cwd path := by rintro rfl; exact hfile hd
            rw [Function.update_of_ne hne, hd] }
  else none

/-- `fs::remove_file`. -/
def remove : Option FileSystem :=
  if h : fs.Resolves cwd path ∧ fs.node (destination cwd path) ≠ some .dir ∧
      fs.node (destination cwd path) ≠ none then
    some
      { node := Function.update fs.node (destination cwd path) none
        top := by
          rw [Function.update_of_ne]
          · exact fs.top
          · intro hc; exact h.2.1 (hc ▸ fs.top)
        parent := by
          intro p x hx
          by_cases he : p ++ [x] = destination cwd path
          · rw [he, Function.update_self] at hx
            exact absurd rfl hx
          · rw [Function.update_of_ne he] at hx
            have hd := fs.parent p x hx
            have hne : p ≠ destination cwd path := by rintro rfl; exact h.2.1 hd
            rw [Function.update_of_ne hne, hd] }
  else none

end FileSystem

theorem read_eq_some {fs : FileSystem} {cwd : Location} {path : List Char} {bytes : List UInt8} :
    fs.read cwd path = some bytes ↔
      fs.Resolves cwd path ∧ fs.node (destination cwd path) = some (.file bytes) := by
  unfold FileSystem.read
  split
  · next h =>
    split
    · next b hb => simp [h, hb]
    · next hb => simp [h]; intro hc; exact hb _ hc
  · next h => simp [h]

theorem write_eq_some {fs : FileSystem} {cwd : Location} {path : List Char} (bytes : List UInt8)
    (hr : fs.Resolves cwd path) (hne : destination cwd path ≠ [])
    (hdir : fs.node (destination cwd path).dropLast = some .dir)
    (hfile : fs.node (destination cwd path) ≠ some .dir) :
    ∃ fs', fs.write cwd path bytes = some fs' ∧
      fs'.node = Function.update fs.node (destination cwd path) (some (.file bytes)) := by
  unfold FileSystem.write
  rw [dif_pos ⟨hr, hne, hdir, hfile⟩]
  exact ⟨_, rfl, rfl⟩

theorem remove_eq_some {fs : FileSystem} {cwd : Location} {path : List Char} {bytes : List UInt8}
    (hr : fs.Resolves cwd path) (hfile : fs.node (destination cwd path) = some (.file bytes)) :
    ∃ fs', fs.remove cwd path = some fs' ∧
      fs'.node = Function.update fs.node (destination cwd path) none := by
  have ready : fs.Resolves cwd path ∧ fs.node (destination cwd path) ≠ some .dir ∧
      fs.node (destination cwd path) ≠ none := ⟨hr, by simp [hfile], by simp [hfile]⟩
  unfold FileSystem.remove
  rw [dif_pos ready]
  exact ⟨_, rfl, rfl⟩

theorem remove_eq_none {fs : FileSystem} {cwd : Location} {path : List Char}
    (h : ∀ bytes, fs.node (destination cwd path) ≠ some (.file bytes)) :
    fs.remove cwd path = none := by
  simp only [FileSystem.remove]
  split
  · next ready =>
    match hn : fs.node (destination cwd path) with
    | none => exact absurd hn ready.2.2
    | some .dir => exact absurd hn ready.2.1
    | some (.file bytes) => exact absurd hn (h bytes)
  · rfl

/-! ## Reading under one directory -/

def Dirs (fs : FileSystem) (known : List Location) : Prop :=
  ∀ v ∈ known, fs.node v = some .dir

def AgreeUnder (base : Location) (fs fs' : FileSystem) : Prop :=
  ∀ p, base <+: p → fs.node p = fs'.node p

/-- Some tree in which the known directories exist lets the path be read: the
file it names is not one of the directories that must be there. -/
def Readable (known : List Location) (cwd : Location) (path : List Char) : Prop :=
  '\x00' ∉ path ∧ ∀ v ∈ known ++ passes cwd path, ¬ destination cwd path <+: v

/-- Everything the path visits is below `base` or a directory known to exist. -/
def Inside (known : List Location) (base cwd : Location) (path : List Char) : Prop :=
  (∀ v ∈ passes cwd path, base <+: v ∨ ∃ k ∈ known, v <+: k) ∧
    base <+: destination cwd path

instance (known : List Location) (cwd : Location) (path : List Char) :
    Decidable (Readable known cwd path) := inferInstanceAs (Decidable (_ ∧ _))

instance (known : List Location) (base cwd : Location) (path : List Char) :
    Decidable (Inside known base cwd path) := inferInstanceAs (Decidable (_ ∧ _))

section
variable {known : List Location} {base cwd : Location} {path : List Char}

theorem read_none_of_not_readable {fs : FileSystem} (hk : Dirs fs known)
    (h : ¬ Readable known cwd path) : fs.read cwd path = none := by
  cases hr : fs.read cwd path with
  | none => rfl
  | some bytes =>
    obtain ⟨⟨nul, dirs⟩, hfile⟩ := read_eq_some.mp hr
    refine absurd ⟨nul, fun v hv hp => ?_⟩ h
    have hdir : fs.node v = some .dir := by
      rcases List.mem_append.mp hv with hv | hv
      · exact hk v hv
      · exact dirs v hv
    rw [FileSystem.ancestor hp hdir] at hfile
    cases hfile

/-- Trees that agree below `base` resolve a path inside it alike. -/
theorem resolves_of_inside {fs fs' : FileSystem} (hk' : Dirs fs' known)
    (agree : AgreeUnder base fs fs') (inside : Inside known base cwd path)
    (h : fs.Resolves cwd path) : fs'.Resolves cwd path := by
  refine ⟨h.1, fun v hv => ?_⟩
  rcases inside.1 v hv with hb | ⟨k, hkm, hp⟩
  · rw [← agree v hb]
    exact h.2 v hv
  · exact FileSystem.ancestor hp (hk' k hkm)

theorem read_of_inside {fs fs' : FileSystem} (hk' : Dirs fs' known)
    (agree : AgreeUnder base fs fs') (inside : Inside known base cwd path) {bytes : List UInt8}
    (h : fs.read cwd path = some bytes) : fs'.read cwd path = some bytes := by
  obtain ⟨hr, hfile⟩ := read_eq_some.mp h
  refine read_eq_some.mpr ⟨resolves_of_inside hk' agree inside hr, ?_⟩
  rw [← agree _ inside.2, hfile]

/-- The smallest tree with given directories in which the path can be read. -/
def withFile (known : List Location) (cwd : Location) (path : List Char) (bytes : List UInt8)
    (h : Readable known cwd path) (hne : destination cwd path ≠ []) : FileSystem where
  node p :=
    if p = destination cwd path then some (.file bytes)
    else if ∃ v ∈ destination cwd path :: (known ++ passes cwd path), p <+: v then some .dir
    else none
  top := by simp [Ne.symm hne]
  parent := by
    intro p x hx
    have ⟨v, hv, hp⟩ : ∃ v ∈ destination cwd path :: (known ++ passes cwd path), p ++ [x] <+: v := by
      by_cases he : p ++ [x] = destination cwd path
      · exact ⟨_, List.mem_cons_self, he ▸ List.prefix_refl _⟩
      · by_contra hc
        rw [if_neg he, if_neg hc] at hx
        exact hx rfl
    have hpv : p <+: v := (List.prefix_append p [x]).trans hp
    have hne : p ≠ destination cwd path := by
      rintro rfl
      rcases List.mem_cons.mp hv with rfl | hv
      · have hlen := hp.length_le
        simp only [List.length_append, List.length_singleton] at hlen
        omega
      · exact h.2 v hv hpv
    rw [if_neg hne, if_pos ⟨v, hv, hpv⟩]

/-- The same tree with one location and everything below it removed. -/
def without (fs : FileSystem) (u : Location) (hu : u ≠ []) : FileSystem where
  node p := if u <+: p then none else fs.node p
  top := by
    have hn : ¬ u <+: [] := fun h => hu (List.prefix_nil.mp h)
    rw [if_neg hn]
    exact fs.top
  parent := by
    intro p x hx
    have hn : ¬ u <+: p := by
      intro hp
      rw [if_pos (hp.trans (List.prefix_append p [x]))] at hx
      exact hx rfl
    have hn' : ¬ u <+: p ++ [x] := by
      intro hp
      rw [if_pos hp] at hx
      exact hx rfl
    rw [if_neg hn'] at hx
    rw [if_neg hn]
    exact fs.parent p x hx

theorem withFile_dirs {bytes : List UInt8} (h : Readable known cwd path)
    (hne : destination cwd path ≠ []) {v : Location} (hv : v ∈ known ++ passes cwd path) :
    (withFile known cwd path bytes h hne).node v = some .dir := by
  have hd : v ≠ destination cwd path := by
    rintro rfl
    exact h.2 _ hv (List.prefix_refl _)
  simp only [withFile, if_neg hd]
  exact if_pos ⟨v, List.mem_cons_of_mem _ hv, List.prefix_refl _⟩

theorem withFile_read {bytes : List UInt8} (h : Readable known cwd path)
    (hne : destination cwd path ≠ []) :
    (withFile known cwd path bytes h hne).read cwd path = some bytes := by
  refine read_eq_some.mpr ⟨⟨h.1, fun v hv => ?_⟩, by simp [withFile]⟩
  exact withFile_dirs h hne (List.mem_append_right known hv)

/-- A readable path that visits one location outside can tell two trees apart. -/
theorem escape (hb : base ∈ known) (h : Readable known cwd path) {u : Location}
    (hu : u = destination cwd path ∨ u ∈ passes cwd path) (outside : ¬ base <+: u)
    (unknown : ∀ k ∈ known, ¬ u <+: k) :
    ∃ fs fs', Dirs fs known ∧ Dirs fs' known ∧ AgreeUnder base fs fs' ∧
      fs.read cwd path ≠ fs'.read cwd path := by
  have hne : destination cwd path ≠ [] := by
    intro hd
    exact h.2 base (List.mem_append_left _ hb) (hd ▸ List.nil_prefix)
  have hun : u ≠ [] := by
    rintro rfl
    exact unknown base hb List.nil_prefix
  let fs := withFile known cwd path [] h hne
  have known_dirs : Dirs fs known := fun v hv => withFile_dirs h hne (List.mem_append_left _ hv)
  refine ⟨fs, without fs u hun, known_dirs, fun v hv => ?_, fun p hp => ?_, ?_⟩
  · simp only [without, if_neg (unknown v hv)]
    exact known_dirs v hv
  · have hn : ¬ u <+: p := by
      intro hup
      rcases List.prefix_or_prefix_of_prefix hp hup with hc | hc
      · exact outside hc
      · exact unknown base hb hc
    simp only [without, if_neg hn]
  · have gone : (without fs u hun).node u = none := by simp [without]
    have lost : (without fs u hun).read cwd path = none := by
      cases hr : (without fs u hun).read cwd path with
      | none => rfl
      | some bytes =>
        obtain ⟨⟨-, dirs⟩, hfile⟩ := read_eq_some.mp hr
        rcases hu with rfl | hu
        · rw [gone] at hfile; cases hfile
        · rw [dirs u hu] at gone; cases gone
    rw [lost, withFile_read h hne]
    exact Option.some_ne_none _

/-- A path reads the same in all trees that agree below `base` exactly when no
tree lets it be read, or it visits nothing outside. -/
theorem confined_iff (hb : base ∈ known) :
    (∀ fs fs', Dirs fs known → Dirs fs' known → AgreeUnder base fs fs' →
      fs.read cwd path = fs'.read cwd path) ↔
    (Readable known cwd path → Inside known base cwd path) := by
  constructor
  · intro same h
    by_contra hi
    have ⟨u, hu, outside, unknown⟩ : ∃ u, (u = destination cwd path ∨ u ∈ passes cwd path) ∧
        ¬ base <+: u ∧ ∀ k ∈ known, ¬ u <+: k := by
      by_cases hd : base <+: destination cwd path
      · have hv : ¬ ∀ v ∈ passes cwd path, base <+: v ∨ ∃ k ∈ known, v <+: k :=
          fun hall => hi ⟨hall, hd⟩
        push Not at hv
        obtain ⟨v, hv, hout, hunk⟩ := hv
        exact ⟨v, Or.inr hv, hout, hunk⟩
      · exact ⟨_, Or.inl rfl, hd, fun k hk => h.2 k (List.mem_append_left _ hk)⟩
    obtain ⟨fs, fs', hk, hk', agree, differ⟩ := escape hb h hu outside unknown
    exact differ (same fs fs' hk hk' agree)
  · intro h fs fs' hk hk' agree
    by_cases hr : Readable known cwd path
    · have inside := h hr
      have agree' : AgreeUnder base fs' fs := fun p hp => (agree p hp).symm
      apply Option.ext
      intro bytes
      exact ⟨read_of_inside hk' agree inside, read_of_inside hk agree' inside⟩
    · rw [read_none_of_not_readable hk hr, read_none_of_not_readable hk' hr]

end

end FileTree
