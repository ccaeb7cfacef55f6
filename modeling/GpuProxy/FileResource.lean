import GpuProxy.Resource
import GpuProxy.Links

/-!
# Resources as files

`FileResource` over a directory tree, with the path each method builds. A
resource id is text from the client: `getResourceInfo_confined_iff` says which
ids stay inside the root, in trees that may have links too. For ids that are plain file names the four methods
are those of `ResourceStore.fs` (`refines_*`).
-/

namespace GpuProxy

open FileTree

/-- `cwd` is the directory a relative root starts from. -/
structure FileResource where
  root : String
  cwd : Location

namespace FileResource

variable (self : FileResource)

def path (rid : String) : List Char := join self.root.toList rid.toList

def hasResource (rid : String) (fs : FileSystem) : Bool := fs.isFile self.cwd (self.path rid)

/-- What `get_resource_info` makes of the file's content. -/
def contentOf (rid : String) : Option Bytes → Except String Bytes
  | some content => .ok content
  | none => .error ("read file: " ++ String.ofList (self.path rid))

def getResourceInfo (rid : String) (fs : FileSystem) : Except String Bytes :=
  self.contentOf rid (fs.read self.cwd (self.path rid))

def storeResourceInfo (rid : String) (resource : Bytes) (fs : FileSystem) :
    Except String String × FileSystem :=
  match fs.write self.cwd (self.path rid) resource with
  | some fs' => (.ok rid, fs')
  | none => (.error osError, fs)

def deleteResource (rid : String) (fs : FileSystem) : Except String Unit × FileSystem :=
  match fs.remove self.cwd (self.path rid) with
  | some fs' => (.ok (), fs')
  | none => (.error osError, fs)

/-- `Proof.GetResourceInfo` of a server with this back end, on a tree with links and a
system that does not take every path. -/
def getResourceInfoRpc (takes : List Char → Bool) (rid : String) (t : Tree) :
    Except RpcError Bytes :=
  internalCallError (self.contentOf rid (t.read takes self.cwd (self.path rid)))

/-- The directory the root names. -/
def base : Location := destination self.cwd self.root.toList

/-- The directories that exist because the root does. -/
def rootDirs : List Location := self.base :: passes self.cwd self.root.toList

def RootExists (fs : FileSystem) : Prop := Dirs fs self.rootDirs

/-- The answer for `rid` depends on nothing outside the root, in the trees that are
`Admitted`. -/
def Confined (takes : List Char → Bool) (Admitted : Tree → Prop) (rid : String) : Prop :=
  ∀ t t', self.RootExists t.bare → self.RootExists t'.bare → Admitted t → Admitted t' →
    t.AgreeUnder self.base t' → self.getResourceInfoRpc takes rid t = self.getResourceInfoRpc takes rid t'

variable {self} {rid : String} {takes : List Char → Bool}

theorem getResourceInfoRpc_eq_iff {t t' : Tree} :
    self.getResourceInfoRpc takes rid t = self.getResourceInfoRpc takes rid t' ↔
      t.read takes self.cwd (self.path rid) = t'.read takes self.cwd (self.path rid) := by
  simp only [getResourceInfoRpc]
  cases t.read takes self.cwd (self.path rid) <;> cases t'.read takes self.cwd (self.path rid) <;>
    simp [contentOf, internalCallError, Except.mapError]

theorem base_mem_rootDirs (self : FileResource) : self.base ∈ self.rootDirs := List.mem_cons_self

/-- Where resolving it meets no link. -/
theorem confined_linkless :
    self.Confined takes (Linkless self.cwd (self.path rid)) rid ↔
      (takes (self.path rid) = true → Readable self.rootDirs self.cwd (self.path rid) →
        Inside self.rootDirs self.base self.cwd (self.path rid)) := by
  rw [← confined_linkless_iff self.base_mem_rootDirs]
  simp only [Confined, RootExists, getResourceInfoRpc_eq_iff]

theorem not_confined_of_links (top : self.base ≠ []) (taken : takes (self.path rid) = true)
    (readable : Readable self.rootDirs self.cwd (self.path rid)) :
    ¬ self.Confined takes (fun _ => True) rid := by
  intro confined
  obtain ⟨t, t', root, root', agree, differ⟩ :=
    links_escape self.base_mem_rootDirs top taken readable
  exact differ (getResourceInfoRpc_eq_iff.mp (confined t t' root root' trivial trivial agree))

/-- What no tree has a file at, through links or not, depends on nothing. -/
theorem confined_of_no_file (no : takes (self.path rid) = false ∨ '\x00' ∈ self.path rid ∨
    EndsAsDir (self.path rid)) : self.Confined takes (fun _ => True) rid := by
  have unread (t : Tree) : t.read takes self.cwd (self.path rid) = none := by
    rcases no with refused | nul | ends
    · exact read_refused refused
    · simp [Tree.read, nul]
    · exact read_endsAsDir ends
  intro t t' _ _ _ _ _
  rw [getResourceInfoRpc_eq_iff, unread t, unread t']

/-- Where resolving it meets no link, an id is confined exactly when the system does not take
its path, or the path names no file whatever the tree, or resolving it leaves the root only
for directories the root's own path needs. Where it may meet links, an id that can name a
file without them is not, and one that can name none through them is. -/
theorem getResourceInfo_confined_iff (self : FileResource) (takes : List Char → Bool)
    (rid : String) :
    (self.Confined takes (Linkless self.cwd (self.path rid)) rid ↔
      (takes (self.path rid) = true → Readable self.rootDirs self.cwd (self.path rid) →
        Inside self.rootDirs self.base self.cwd (self.path rid))) ∧
    (self.base ≠ [] → takes (self.path rid) = true →
      Readable self.rootDirs self.cwd (self.path rid) →
      ¬ self.Confined takes (fun _ => True) rid) ∧
    (takes (self.path rid) = false ∨ '\x00' ∈ self.path rid ∨ EndsAsDir (self.path rid) →
      self.Confined takes (fun _ => True) rid) := by
  refine ⟨confined_linkless, ?_, confined_of_no_file⟩
  intro top taken readable
  exact not_confined_of_links top taken readable

/-- A name is confined unless it may be a link, and with a slash after it it names no file. -/
theorem getResourceInfo_confined_iff_demo :
    let data : FileResource := ⟨"/data", []⟩
    let takes (path : List Char) : Bool := decide (path.length < 4096)
    data.Confined takes (Linkless [] (data.path "r1")) "r1" ∧
      ¬ data.Confined takes (fun _ => True) "r1" ∧ data.Confined takes (fun _ => True) "r1/" := by
  intro data takes
  obtain ⟨linkless, links, -⟩ := getResourceInfo_confined_iff data takes "r1"
  obtain ⟨-, -, noFile⟩ := getResourceInfo_confined_iff data takes "r1/"
  refine ⟨linkless.mpr ?_, links (by decide) (by decide) (by decide), noFile ?_⟩
  · intro _ _
    decide
  · have ends : components (data.path "r1/") = [[], ['d', 'a', 't', 'a'], ['r', '1']] ++ [[]] := by
      decide
    exact Or.inr (Or.inr ⟨_, _, ends, Or.inl rfl⟩)

/-- An absolute id replaces the root, `..` climbs out of it, and so does the name of a
file that may be a link. -/
theorem absolute_and_parent_ids_escape :
    let data : FileResource := ⟨"/data", []⟩
    let takes (path : List Char) : Bool := decide (path.length < 4096)
    ¬ data.Confined takes (Linkless [] (data.path "/etc/passwd")) "/etc/passwd" ∧
      ¬ data.Confined takes (Linkless [] (data.path "../etc/passwd")) "../etc/passwd" ∧
      ¬ data.Confined takes (fun _ => True) "r1" := by
  refine ⟨?_, ?_, ?_⟩
  · intro h
    exact absurd (confined_linkless.mp h (by decide) (by decide)) (by decide)
  · intro h
    exact absurd (confined_linkless.mp h (by decide) (by decide)) (by decide)
  · exact not_confined_of_links (by decide) (by decide) (by decide)

/-! ## Ids that are file names -/

/-- Every id `gen_resource_id` makes is of this kind. -/
def PlainName (rid : String) : Prop :=
  '/' ∉ rid.toList ∧ '\x00' ∉ rid.toList ∧ rid.toList ≠ [] ∧ rid.toList ≠ ['.'] ∧
    rid.toList ≠ ['.', '.']

/-- The components of a root joined with a plain name are those of the root,
up to one that stays where it is, and the name. -/
theorem components_join {name : List Char} (root : List Char) (hs : '/' ∉ name) (hn : name ≠ []) :
    isAbsolute (join root name) = isAbsolute root ∧
      ∃ init, components (join root name) = init ++ [name] ∧
        (components root = init ∨ components root = init ++ [[]]) := by
  have rel : isAbsolute name = false := by
    cases name with
    | nil => rfl
    | cons c cs =>
      have hc : c ≠ '/' := by rintro rfl; exact hs List.mem_cons_self
      simp [isAbsolute, hc]
  simp only [join, rel, Bool.false_eq_true, ↓reduceIte]
  by_cases hroot : root = []
  · subst hroot
    refine ⟨by simpa [isAbsolute] using rel, [], ?_, Or.inr rfl⟩
    simp [components_plain hs]
  · obtain ⟨c, cs, rfl⟩ := List.exists_cons_of_ne_nil hroot
    split
    · next hlast =>
      have hlast : (c :: cs).getLast? = some '/' := by simpa using hlast
      obtain ⟨init, hi⟩ := List.getLast?_eq_some_iff.mp hlast
      refine ⟨by simp [isAbsolute], components init, ?_, Or.inr ?_⟩
      · rw [hi, List.append_assoc, List.singleton_append, components_slash, components_plain hs]
      · rw [hi, components_slash]
        rfl
    · refine ⟨by simp [isAbsolute], components (c :: cs), ?_, Or.inl rfl⟩
      rw [components_slash, components_plain hs]

theorem path_plain (h : PlainName rid) :
    destination self.cwd (self.path rid) = self.base ++ [rid.toList] ∧
      ∀ v ∈ passes self.cwd (self.path rid), v ∈ self.rootDirs := by
  obtain ⟨slash, -, nil, dot, dots⟩ := h
  obtain ⟨habs, init, hpath, hroot⟩ := components_join self.root.toList slash nil
  have hstart : start self.cwd (self.path rid) = start self.cwd self.root.toList := by
    simp only [start, path, habs]
  have hbase : self.base = locate (start self.cwd self.root.toList) init := by
    rcases hroot with hr | hr
    · simp only [base, destination, hr]
    · simp [base, destination, hr, locate, enter]
  have hvisited : ∀ v ∈ visited (start self.cwd self.root.toList) init,
      v ∈ passes self.cwd self.root.toList := by
    intro v hv
    rcases hroot with hr | hr
    · simpa only [passes, hr] using hv
    · simp only [passes, hr, visited_append, List.mem_append]
      exact Or.inl hv
  constructor
  · simp only [destination, hstart]
    rw [path, hpath, locate_append, ← hbase]
    simp [locate, enter, nil, dot, dots]
  · intro v hv
    simp only [passes, hstart] at hv
    rw [path, hpath, visited_append, List.mem_append, ← hbase] at hv
    rcases hv with hv | hv
    · exact List.mem_cons_of_mem _ (hvisited v hv)
    · simp only [visited, List.mem_singleton] at hv
      simp [rootDirs, hv]

variable (self) in
/-- The regular files directly under the root. -/
def files (fs : FileSystem) (name : String) : Option Bytes :=
  match fs.node (self.base ++ [name.toList]) with
  | some (.file bytes) => some bytes
  | _ => none

variable (self) in
def view (fs : FileSystem) : ResourceStore := .fs self.root (self.files fs)

/-- The content of a node that is a regular file. -/
theorem files_eq_some {fs : FileSystem} {name : String} {bytes : Bytes} :
    self.files fs name = some bytes ↔
      fs.node (self.base ++ [name.toList]) = some (.file bytes) := by
  simp only [files]
  split
  · next b hb => simp [hb]
  · next hb => simp only [reduceCtorEq, false_iff]; exact hb bytes

/-- Changing the node of one name changes one file. -/
theorem files_update {fs fs' : FileSystem} {n : Option Node}
    (h : fs'.node = Function.update fs.node (self.base ++ [rid.toList]) n) (name : String) :
    (name ≠ rid → self.files fs' name = self.files fs name) ∧
      ∀ bytes, self.files fs' rid = some bytes ↔ n = some (.file bytes) := by
  constructor
  · intro hne
    apply Option.ext
    intro bytes
    rw [files_eq_some, files_eq_some, h, Function.update_of_ne]
    simpa [String.toList_inj] using hne
  · intro bytes
    rw [files_eq_some, h, Function.update_self]

theorem files_write {fs fs' : FileSystem} {bytes : Bytes}
    (h : fs'.node = Function.update fs.node (self.base ++ [rid.toList]) (some (.file bytes))) :
    self.files fs' = Function.update (self.files fs) rid (some bytes) := by
  funext name
  by_cases hn : name = rid
  · subst hn
    rw [Function.update_self]
    exact ((files_update h name).2 bytes).mpr rfl
  · rw [Function.update_of_ne hn]
    exact (files_update h name).1 hn

theorem files_remove {fs fs' : FileSystem}
    (h : fs'.node = Function.update fs.node (self.base ++ [rid.toList]) none) :
    self.files fs' = Function.update (self.files fs) rid none := by
  funext name
  by_cases hn : name = rid
  · subst hn
    rw [Function.update_self, Option.eq_none_iff_forall_ne_some]
    intro bytes there
    cases ((files_update h name).2 bytes).mp there
  · rw [Function.update_of_ne hn]
    exact (files_update h name).1 hn

section Refinement

variable {fs : FileSystem} {bytes : Bytes} (root : self.RootExists fs)
  (nul : '\x00' ∉ self.root.toList) (plain : PlainName rid)

include root nul plain

theorem resolves_plain : fs.Resolves self.cwd (self.path rid) := by
  refine ⟨?_, fun v hv => root v ((path_plain plain).2 v hv)⟩
  simp only [path, join]
  split
  · exact plain.2.1
  · split <;> simp [nul, plain.2.1]

theorem read_plain : fs.read self.cwd (self.path rid) = self.files fs rid := by
  apply Option.ext
  intro content
  rw [read_eq_some, files_eq_some, (path_plain plain).1]
  exact and_iff_right (resolves_plain root nul plain)

theorem refines_hasResource : self.hasResource rid fs = (self.view fs).hasResource rid := by
  simp only [hasResource, FileSystem.isFile, read_plain root nul plain]
  rfl

theorem refines_getResourceInfo :
    self.getResourceInfo rid fs = (self.view fs).getResourceInfo rid := by
  simp only [getResourceInfo, read_plain root nul plain, view, ResourceStore.getResourceInfo]
  rfl

/-- `fs::write` on an id that names no directory. -/
theorem storeResourceInfo_node (bytes : Bytes)
    (noDir : fs.node (self.base ++ [rid.toList]) ≠ some .dir) :
    ∃ fs', self.storeResourceInfo rid bytes fs = (.ok rid, fs') ∧
      fs'.node = Function.update fs.node (self.base ++ [rid.toList]) (some (.file bytes)) := by
  have dest : destination self.cwd (self.path rid) = self.base ++ [rid.toList] :=
    (path_plain plain).1
  have rootDir : fs.node self.base = some .dir := root _ self.base_mem_rootDirs
  obtain ⟨fs', hw, hnode⟩ := write_eq_some bytes (resolves_plain root nul plain)
    (by simp [dest]) (by simpa [dest] using rootDir) (by rwa [dest])
  rw [dest] at hnode
  exact ⟨fs', by simp only [storeResourceInfo, hw], hnode⟩

theorem deleteResource_node {content : Bytes} (file : self.files fs rid = some content) :
    ∃ fs', self.deleteResource rid fs = (.ok (), fs') ∧
      fs'.node = Function.update fs.node (self.base ++ [rid.toList]) none := by
  have dest : destination self.cwd (self.path rid) = self.base ++ [rid.toList] :=
    (path_plain plain).1
  have hnode : fs.node (destination self.cwd (self.path rid)) = some (.file content) := by
    rw [dest]
    exact files_eq_some.mp file
  obtain ⟨fs', hr, hnode'⟩ := remove_eq_some (resolves_plain root nul plain) hnode
  rw [dest] at hnode'
  exact ⟨fs', by simp only [deleteResource, hr], hnode'⟩

omit root nul in
theorem deleteResource_missing (missing : self.files fs rid = none) :
    self.deleteResource rid fs = (.error osError, fs) := by
  have gone : fs.remove self.cwd (self.path rid) = none := by
    apply remove_eq_none
    intro content file
    rw [(path_plain plain).1, ← files_eq_some, missing] at file
    cases file
  simp only [deleteResource, gone]

end Refinement

end FileResource

end GpuProxy
