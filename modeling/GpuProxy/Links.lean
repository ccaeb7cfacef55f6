import GpuProxy.FileTree

/-!
# Trees with symbolic links

The trees of `FileTree` with links, which resolving a path follows, the last
component's included. Where no link is on the way a path reads as in the tree
without its links (`read_bare`), so `confined_iff` carries over. Where links may
be, a file below a directory can be any other file (`links_escape`).
-/

namespace FileTree

inductive Entry where
  | node (n : Node)
  | link (target : List Char)
  deriving DecidableEq

def Entry.bare : Entry → Option Node
  | .node n => some n
  | .link _ => none

structure Tree where
  entry : Location → Option Entry
  top : entry [] = some (.node .dir)
  parent : ∀ p x, entry (p ++ [x]) ≠ none → entry p = some (.node .dir)
  target : ∀ p text, entry p = some (.link text) → text ≠ [] ∧ '\x00' ∉ text

/-- Where resolving the components comes to: a location, or the first link on the way. -/
inductive Stop where
  | arrived (place : Location)
  | link (dir : Location) (target : List Char) (rest : List Name)
  deriving DecidableEq

namespace Tree
variable (t : Tree)

def linkAt (cur : Location) (c : Name) : Option (List Char) :=
  match t.entry (enter cur c) with
  | some (.link target) => some target
  | _ => none

def walk : Location → List Name → Option Stop
  | cur, [] => some (.arrived cur)
  | cur, c :: cs =>
    if t.entry cur = some (.node .dir) then
      match t.linkAt cur c with
      | some target => some (.link cur target cs)
      | none => walk (enter cur c) cs
    else none

/-- A link's target is resolved from the directory it is in. -/
def follow : Nat → Location → List Name → Option Location
  | 0, cur, cs =>
    match t.walk cur cs with
    | some (.arrived l) => some l
    | _ => none
  | links + 1, cur, cs =>
    match t.walk cur cs with
    | some (.arrived l) => some l
    | some (.link dir target rest) => follow links (start dir target) (components target ++ rest)
    | none => none

/-- `fs::read`. `takes` are the paths that are not too long for the system, which follows
no more than 40 links. -/
def read (takes : List Char → Bool) (cwd : Location) (path : List Char) : Option (List UInt8) :=
  if takes path ∧ '\x00' ∉ path then
    match (t.follow 40 (start cwd path) (components path)).bind t.entry with
    | some (.node (.file bytes)) => some bytes
    | _ => none
  else none

/-- The same tree without its links. -/
def bare : FileSystem where
  node p := (t.entry p).bind Entry.bare
  top := by rw [t.top]; rfl
  parent := by
    intro p x hx
    have there : t.entry (p ++ [x]) ≠ none := by
      intro gone
      rw [gone] at hx
      exact hx rfl
    rw [t.parent p x there]
    rfl

end Tree

def FileSystem.tree (fs : FileSystem) : Tree where
  entry p := (fs.node p).map .node
  top := by rw [fs.top]; rfl
  parent := by
    intro p x hx
    have there : fs.node (p ++ [x]) ≠ none := by
      intro gone
      rw [gone] at hx
      exact hx rfl
    rw [fs.parent p x there]
    rfl
  target := by
    intro p text link
    cases h : fs.node p with
    | none => simp [h] at link
    | some n => simp [h] at link

theorem FileSystem.bare_tree (fs : FileSystem) : fs.tree.bare = fs := by
  have same (o : Option Node) : (o.map Entry.node).bind Entry.bare = o := by
    cases o <;> rfl
  cases fs
  simp only [tree, Tree.bare, same]

/-- No link is where resolving the path comes by. -/
def Linkless (cwd : Location) (path : List Char) (t : Tree) : Prop :=
  ∀ v ∈ destination cwd path :: passes cwd path, ∀ target, t.entry v ≠ some (.link target)

def Tree.AgreeUnder (base : Location) (t t' : Tree) : Prop :=
  ∀ p, base <+: p → t.entry p = t'.entry p

section
variable {t t' : Tree} {cwd : Location} {path : List Char} {takes : List Char → Bool}

theorem tree_linkless (fs : FileSystem) : Linkless cwd path fs.tree := by
  intro v _ target link
  cases h : fs.node v with
  | none => simp [FileSystem.tree, h] at link
  | some n => simp [FileSystem.tree, h] at link

theorem bare_dir {p : Location} : t.bare.node p = some .dir ↔ t.entry p = some (.node .dir) := by
  simp only [Tree.bare]
  cases h : t.entry p with
  | none => simp
  | some e => cases e <;> simp [Entry.bare]

theorem bare_file {p : Location} {bytes : List UInt8} :
    t.bare.node p = some (.file bytes) ↔ t.entry p = some (.node (.file bytes)) := by
  simp only [Tree.bare]
  cases h : t.entry p with
  | none => simp
  | some e => cases e <;> simp [Entry.bare]

theorem Tree.AgreeUnder.bare {base : Location} (agree : AgreeUnder base t t') :
    FileTree.AgreeUnder base t.bare t'.bare := by
  intro p hp
  simp only [Tree.bare, agree p hp]

theorem linkAt_eq_none {cur : Location} {c : Name}
    (free : ∀ target, t.entry (enter cur c) ≠ some (.link target)) : t.linkAt cur c = none := by
  unfold Tree.linkAt
  split
  · next target link => exact absurd link (free target)
  · rfl

theorem walk_append {cur : Location} {cs : List Name} (rest : List Name)
    (dirs : ∀ v ∈ visited cur cs, t.entry v = some (.node .dir))
    (free : ∀ target, t.entry (locate cur cs) ≠ some (.link target)) :
    t.walk cur (cs ++ rest) = t.walk (locate cur cs) rest := by
  induction cs generalizing cur with
  | nil => rfl
  | cons c cs ih =>
    have here : t.entry cur = some (.node .dir) := dirs cur List.mem_cons_self
    have there : t.linkAt cur c = none := by
      apply linkAt_eq_none
      intro target link
      cases cs with
      | nil => exact free target link
      | cons d ds =>
        have dir := dirs (enter cur c) (by simp [visited])
        rw [dir] at link
        cases link
    simp only [List.cons_append, Tree.walk, here, ↓reduceIte, there]
    exact ih (fun v hv => dirs v (List.mem_cons_of_mem _ hv)) free

/-- Without links on the way the components resolve as their names say. -/
theorem walk_linkless {cur : Location} {cs : List Name}
    (dirs : ∀ v ∈ visited cur cs, t.entry v = some (.node .dir))
    (free : ∀ target, t.entry (locate cur cs) ≠ some (.link target)) :
    t.walk cur cs = some (.arrived (locate cur cs)) := by
  have walked := walk_append [] dirs free
  rwa [List.append_nil] at walked

theorem walk_stuck {cur : Location} {cs : List Name}
    (free : ∀ v ∈ visited cur cs, ∀ target, t.entry v ≠ some (.link target))
    (last : ∀ target, t.entry (locate cur cs) ≠ some (.link target))
    (missing : ∃ v ∈ visited cur cs, t.entry v ≠ some (.node .dir)) : t.walk cur cs = none := by
  induction cs generalizing cur with
  | nil => simp [visited] at missing
  | cons c cs ih =>
    by_cases here : t.entry cur = some (.node .dir)
    · have there : t.linkAt cur c = none := by
        apply linkAt_eq_none
        intro target link
        cases cs with
        | nil => exact last target link
        | cons d ds => exact free (enter cur c) (by simp [visited]) target link
      simp only [Tree.walk, here, ↓reduceIte, there]
      apply ih (fun v hv => free v (List.mem_cons_of_mem _ hv)) last
      obtain ⟨v, hv, other⟩ := missing
      rcases List.mem_cons.mp hv with rfl | hv
      · exact absurd here other
      · exact ⟨v, hv, other⟩
    · simp only [Tree.walk, here, ↓reduceIte]

theorem follow_arrived {n : Nat} {cur l : Location} {cs : List Name}
    (h : t.walk cur cs = some (.arrived l)) : t.follow n cur cs = some l := by
  cases n <;> simp only [Tree.follow, h]

theorem follow_stuck {n : Nat} {cur : Location} {cs : List Name} (h : t.walk cur cs = none) :
    t.follow n cur cs = none := by
  cases n <;> simp only [Tree.follow, h]

theorem read_refused (refused : takes path = false) : t.read takes cwd path = none := by
  simp [Tree.read, refused]

/-- Without links on the way a path reads as without the links elsewhere. -/
theorem read_bare (free : Linkless cwd path t) (taken : takes path = true) :
    t.read takes cwd path = t.bare.read cwd path := by
  by_cases nul : '\x00' ∈ path
  · simp [Tree.read, FileSystem.read, FileSystem.Resolves, nul]
  by_cases dirs : ∀ v ∈ passes cwd path, t.entry v = some (.node .dir)
  · have arrives := follow_arrived (n := 40)
      (walk_linkless dirs (free _ List.mem_cons_self))
    have resolves : t.bare.Resolves cwd path := ⟨nul, fun v hv => bare_dir.mpr (dirs v hv)⟩
    apply Option.ext
    intro bytes
    rw [read_eq_some, bare_file, and_iff_right resolves]
    simp only [Tree.read, taken, nul, not_false_eq_true, and_self, ↓reduceIte, arrives,
      Option.bind_some]
    change _ ↔ t.entry (locate (start cwd path) (components path)) = _
    split
    · next there => simp [there]
    · next other => simp only [reduceCtorEq, false_iff]; exact other bytes
  · have missing : ∃ v ∈ visited (start cwd path) (components path),
        t.entry v ≠ some (.node .dir) := by
      by_contra all
      push Not at all
      exact dirs all
    have stuck := follow_stuck (n := 40)
      (walk_stuck (fun v hv => free v (List.mem_cons_of_mem _ hv)) (free _ List.mem_cons_self)
        missing)
    have unresolved : ¬ t.bare.Resolves cwd path := by
      intro resolves
      exact dirs fun v hv => bare_dir.mp (resolves.2 v hv)
    simp [Tree.read, FileSystem.read, stuck, unresolved]

/-- Whatever is at the path, it is read as a directory. -/
def EndsAsDir (path : List Char) : Prop :=
  ∃ init c, components path = init ++ [c] ∧ (c = [] ∨ c = ['.'] ∨ c = ['.', '.'])

section
variable {c : Name}

theorem enter_dir (dot : c = [] ∨ c = ['.'] ∨ c = ['.', '.']) {cur : Location}
    (here : t.entry cur = some (.node .dir)) : t.entry (enter cur c) = some (.node .dir) := by
  by_cases up : c = ['.', '.']
  · subst up
    change t.entry cur.dropLast = some (.node .dir)
    induction cur using List.reverseRecOn with
    | nil => exact here
    | append_singleton p x _ =>
      rw [List.dropLast_concat]
      apply t.parent p x
      rw [here]
      exact Option.some_ne_none _
  · have stays : c = [] ∨ c = ['.'] := by
      rcases dot with nil | one | two
      · exact Or.inl nil
      · exact Or.inr one
      · exact absurd two up
    simpa only [enter, if_pos stays] using here

/-- Where components that end in `c` can stop if `c` leads to directories only. -/
def Stop.OfDir (t : Tree) (c : Name) : Stop → Prop
  | .arrived l => t.entry l = some (.node .dir)
  | .link _ _ rest => ∃ rest', rest = rest' ++ [c]

theorem walk_dir (dot : c = [] ∨ c = ['.'] ∨ c = ['.', '.']) {cur : Location} {init : List Name}
    {stop : Stop} (walked : t.walk cur (init ++ [c]) = some stop) : stop.OfDir t c := by
  induction init generalizing cur with
  | nil =>
    rw [List.nil_append, Tree.walk] at walked
    split at walked
    · next here =>
      have dir := enter_dir dot here
      have free : t.linkAt cur c = none := by
        apply linkAt_eq_none
        intro target link
        rw [dir] at link
        cases link
      rw [free] at walked
      cases walked
      exact dir
    · cases walked
  | cons d ds ih =>
    rw [List.cons_append, Tree.walk] at walked
    split at walked
    · split at walked
      · cases walked
        exact ⟨ds, rfl⟩
      · exact ih walked
    · cases walked

theorem follow_dir (dot : c = [] ∨ c = ['.'] ∨ c = ['.', '.']) {n : Nat} {cur l : Location}
    {init : List Name} (followed : t.follow n cur (init ++ [c]) = some l) :
    t.entry l = some (.node .dir) := by
  induction n generalizing cur init with
  | zero =>
    rw [Tree.follow] at followed
    split at followed
    · next place arrived =>
      cases followed
      exact walk_dir dot arrived
    · cases followed
  | succ n ih =>
    rw [Tree.follow] at followed
    split at followed
    · next place arrived =>
      cases followed
      exact walk_dir dot arrived
    · next dir target rest link =>
      obtain ⟨rest', rfl⟩ := walk_dir dot link
      rw [← List.append_assoc] at followed
      exact ih followed
    · cases followed

end

/-- Through links, too, such a path names no file. -/
theorem read_endsAsDir (ends : EndsAsDir path) : t.read takes cwd path = none := by
  obtain ⟨init, c, parts, dot⟩ := ends
  unfold Tree.read
  split
  · cases followed : t.follow 40 (start cwd path) (components path) with
    | none => rfl
    | some l =>
      rw [parts] at followed
      simp only [Option.bind_some, follow_dir dot followed]
  · rfl

/-! ## Reading under one directory -/

section
variable {known : List Location} {base : Location}

/-- `confined_iff` for the trees with no link on the way. -/
theorem confined_linkless_iff (hb : base ∈ known) :
    (∀ t t', Dirs t.bare known → Dirs t'.bare known → Linkless cwd path t → Linkless cwd path t' →
      t.AgreeUnder base t' → t.read takes cwd path = t'.read takes cwd path) ↔
    (takes path = true → Readable known cwd path → Inside known base cwd path) := by
  by_cases taken : takes path = true
  · rw [forall_prop_of_true taken, ← confined_iff hb]
    constructor
    · intro same fs fs' hk hk' agree
      have read := same fs.tree fs'.tree (by rwa [fs.bare_tree]) (by rwa [fs'.bare_tree])
        (tree_linkless fs) (tree_linkless fs') fun p hp => by simp only [FileSystem.tree, agree p hp]
      rwa [read_bare (tree_linkless fs) taken, read_bare (tree_linkless fs') taken, fs.bare_tree,
        fs'.bare_tree] at read
    · intro same t t' hk hk' free free' agree
      rw [read_bare free taken, read_bare free' taken]
      exact same t.bare t'.bare hk hk' agree.bare
  · have refused : takes path = false := by simpa using taken
    simp [read_refused refused, taken]

/-- A name that is in none of the locations. -/
def freshName (ls : List Location) : Name := List.replicate (ls.flatten.flatten.length + 3) 'x'

theorem freshName_not_mem {ls : List Location} {l : Location} (hl : l ∈ ls) :
    freshName ls ∉ l := by
  intro member
  have inner := (List.sublist_flatten_of_mem hl).subset member
  have bound := (List.sublist_flatten_of_mem inner).length_le
  rw [freshName, List.length_replicate] at bound
  omega

theorem freshName_chars (ls : List Location) : '/' ∉ freshName ls ∧ '\x00' ∉ freshName ls := by
  constructor
  · intro slash
    cases List.eq_of_mem_replicate slash
  · intro nul
    cases List.eq_of_mem_replicate nul

theorem freshName_plain (ls : List Location) : enter [] (freshName ls) = [freshName ls] := by
  have long : 3 ≤ (freshName ls).length := by simp [freshName]
  have nil : freshName ls ≠ [] := by intro h; simp [h] at long
  have dot : freshName ls ≠ ['.'] := by intro h; simp [h] at long
  have dots : freshName ls ≠ ['.', '.'] := by intro h; simp [h] at long
  simp [enter, nil, dot, dots]

/-- A path whose last component is a link stops there, with nothing left. -/
theorem walk_link {target : List Char} (dirs : ∀ v ∈ passes cwd path, t.entry v = some (.node .dir))
    (linked : t.entry (destination cwd path) = some (.link target)) :
    ∃ dir, t.walk (start cwd path) (components path) = some (.link dir target []) := by
  obtain ⟨init, c, last⟩ : ∃ init c, components path = init ++ [c] := by
    rcases List.eq_nil_or_concat (components path) with nil | ⟨init, c, last⟩
    · exact absurd nil (List.splitOn_ne_nil _ _)
    · exact ⟨init, c, by simpa using last⟩
  have passed : passes cwd path = visited (start cwd path) init ++ [locate (start cwd path) init] := by
    rw [passes, last, visited_append]
    rfl
  have dest : enter (locate (start cwd path) init) c = destination cwd path := by
    rw [destination, last, locate_append]
    rfl
  have before : t.entry (locate (start cwd path) init) = some (.node .dir) := by
    apply dirs
    simp [passed]
  refine ⟨locate (start cwd path) init, ?_⟩
  rw [last, walk_append]
  · simp only [Tree.walk, before, ↓reduceIte, Tree.linkAt, dest, linked]
  · intro v hv
    apply dirs
    simp [passed, hv]
  · intro target link
    rw [before] at link
    cases link

/-- A path to something at the top. -/
theorem walk_top {x : Name} {n : Node} (slash : '/' ∉ x) (plain : enter [] x = [x])
    (moved : t.entry [x] = some (.node n)) :
    t.walk [] (components ('/' :: x)) = some (.arrived [x]) := by
  have parts : components ('/' :: x) = [[], x] := by
    have split := components_slash [] x
    rw [List.nil_append] at split
    rw [split, components_plain slash]
    rfl
  have arrives := @walk_linkless t [] [[], x]
  simp only [locate, List.foldl_cons, List.foldl_nil] at arrives
  rw [show enter (enter [] []) x = [x] from plain] at arrives
  rw [parts]
  apply arrives
  · intro v hv
    have nil : v = [] := by simpa [visited, enter] using hv
    rw [nil]
    exact t.top
  · intro text link
    rw [moved] at link
    cases link

/-- The same tree with the file at `u` as a link to a new file at the top. -/
def redirect (fs : FileSystem) (u : Location) (x : Name) (bytes : List UInt8)
    (file : ∀ p, p = u → fs.node p ≠ some .dir) (there : fs.node u ≠ none)
    (absent : fs.node [x] = none) (nul : '\x00' ∉ x) : Tree where
  entry p :=
    if p = u then some (.link ('/' :: x))
    else if p = [x] then some (.node (.file bytes))
    else (fs.node p).map .node
  top := by
    have hu : [] ≠ u := by intro h; exact file [] h fs.top
    simp [hu, fs.top]
  parent := by
    have dir (p : Location) (h : fs.node p = some .dir) : p ≠ u ∧ p ≠ [x] := by
      constructor
      · intro same
        exact file p same h
      · rintro rfl
        rw [absent] at h
        cases h
    intro p y hy
    have above : fs.node p = some .dir := by
      by_cases hu : p ++ [y] = u
      · exact fs.parent p y (hu ▸ there)
      by_cases hx : p ++ [y] = [x]
      · have nil : p = [] := by
          cases p with
          | nil => rfl
          | cons a as => simp at hx
        rw [nil]
        exact fs.top
      · rw [if_neg hu, if_neg hx] at hy
        apply fs.parent p y
        intro gone
        rw [gone] at hy
        exact hy rfl
    rw [if_neg (dir p above).1, if_neg (dir p above).2, above]
    rfl
  target := by
    intro p text link
    split at link
    · cases link
      exact ⟨List.cons_ne_nil _ _, by simp [nul]⟩
    · split at link
      · cases link
      · cases h : fs.node p with
        | none => simp [h] at link
        | some n => simp [h] at link

section
variable {fs : FileSystem} {x : Name} {bytes : List UInt8}
  {file : ∀ p, p = destination cwd path → fs.node p ≠ some .dir}
  {there : fs.node (destination cwd path) ≠ none} {absent : fs.node [x] = none} {nul : '\x00' ∉ x}

/-- Only the file has become a link. -/
theorem redirect_dir {p : Location} (dir : fs.node p = some .dir) :
    (redirect fs (destination cwd path) x bytes file there absent nul).entry p =
      some (.node .dir) := by
  have hu : p ≠ destination cwd path := fun same => file p same dir
  have hx : p ≠ [x] := by
    rintro rfl
    rw [absent] at dir
    cases dir
  simp [redirect, hu, hx, dir]

/-- The path that named the file now names the other one. -/
theorem redirect_read (taken : takes path = true) (resolves : fs.Resolves cwd path)
    (slash : '/' ∉ x) (plain : enter [] x = [x]) :
    (redirect fs (destination cwd path) x bytes file there absent nul).read takes cwd path =
      some bytes := by
  let t := redirect fs (destination cwd path) x bytes file there absent nul
  have dirs (v : Location) (hv : v ∈ passes cwd path) : t.entry v = some (.node .dir) :=
    redirect_dir (resolves.2 v hv)
  have linked : t.entry (destination cwd path) = some (.link ('/' :: x)) := if_pos rfl
  have other : [x] ≠ destination cwd path := by
    intro same
    exact there (same ▸ absent)
  have moved : t.entry [x] = some (.node (.file bytes)) := by simp [t, redirect, other]
  obtain ⟨dir, walked⟩ := walk_link dirs linked
  have followed : t.follow 40 (start cwd path) (components path) = some [x] := by
    simp only [Tree.follow, walked, List.append_nil]
    exact follow_arrived (n := 39) (walk_top slash plain moved)
  change t.read takes cwd path = some bytes
  simp only [Tree.read, taken, resolves.1, not_false_eq_true, and_self, ↓reduceIte, followed,
    Option.bind_some, moved]

end

/-- Where links may be on the way, no path that can name a file reads the same in all trees
that agree below `base`. -/
theorem links_escape (hb : base ∈ known) (hne : base ≠ []) (taken : takes path = true)
    (h : Readable known cwd path) :
    ∃ t t' : Tree, Dirs t.bare known ∧ Dirs t'.bare known ∧ t.AgreeUnder base t' ∧
      t.read takes cwd path ≠ t'.read takes cwd path := by
  have hd : destination cwd path ≠ [] := by
    intro hd
    exact h.2 base (List.mem_append_left _ hb) (hd ▸ List.nil_prefix)
  let fs := withFile known cwd path [] h hd
  let x := freshName (destination cwd path :: (known ++ passes cwd path))
  obtain ⟨slash, nul⟩ : '/' ∉ x ∧ '\x00' ∉ x := freshName_chars _
  have plain : enter [] x = [x] := freshName_plain _
  have unused (v : Location) (hv : v ∈ destination cwd path :: (known ++ passes cwd path)) :
      ¬ [x] <+: v := by
    intro hp
    exact freshName_not_mem hv (hp.subset List.mem_cons_self)
  have absent : fs.node [x] = none := by
    have hu : [x] ≠ destination cwd path := by
      intro same
      exact unused _ List.mem_cons_self (same ▸ List.prefix_refl _)
    simp only [fs, withFile, if_neg hu]
    rw [if_neg]
    rintro ⟨v, hv, hp⟩
    exact unused v hv hp
  have here : fs.node (destination cwd path) = some (.file []) := by simp [fs, withFile]
  have resolves : fs.Resolves cwd path :=
    ⟨h.1, fun v hv => withFile_dirs h hd (List.mem_append_right known hv)⟩
  have file (p : Location) (same : p = destination cwd path) : fs.node p ≠ some .dir := by
    rw [same, here]
    exact fun hc => by cases hc
  have there : fs.node (destination cwd path) ≠ none := by simp [here]
  have keeps (bytes : List UInt8) :
      Dirs (redirect fs (destination cwd path) x bytes file there absent nul).bare known := by
    intro v hv
    exact bare_dir.mpr (redirect_dir (withFile_dirs h hd (List.mem_append_left _ hv)))
  refine ⟨redirect fs (destination cwd path) x [0] file there absent nul,
    redirect fs (destination cwd path) x [1] file there absent nul, keeps [0], keeps [1], ?_, ?_⟩
  · intro p hp
    have hx : p ≠ [x] := by
      rintro rfl
      obtain ⟨rest, whole⟩ := hp
      cases hbase : base with
      | nil => exact hne hbase
      | cons b bs =>
        rw [hbase, List.cons_append, List.cons.injEq] at whole
        apply unused base (List.mem_cons_of_mem _ (List.mem_append_left _ hb))
        rw [hbase, whole.1]
        exact ⟨bs, rfl⟩
    simp only [redirect, if_neg hx]
  · rw [redirect_read taken resolves slash plain, redirect_read taken resolves slash plain]
    decide

end

end

end FileTree
