import GpuProxy.FileResource
import GpuProxy.Runs

/-!
# Files and rows

`ProxyImpl` uses either back end through the same four calls. `tree_refines_store`
says that over a directory tree they do what they do to a set of named files. A file
is overwritten where a row's insert fails, and removing a file that is not there
fails where `delete_by_id` does not.
-/

namespace GpuProxy

inductive ResourceCall where
  | hasResource (rid : String)
  | getResourceInfo (rid : String)
  | storeResourceInfo (rid : String) (resource : Bytes)
  | deleteResource (rid : String)

def ResourceCall.id : ResourceCall → String
  | hasResource rid | getResourceInfo rid | storeResourceInfo rid _ | deleteResource rid => rid

/-- What a call returns; an error without its text. -/
inductive Outcome where
  | has (b : Bool)
  | info (resource : Bytes)
  | stored (rid : String)
  | deleted
  | error
  deriving DecidableEq, Repr

def Outcome.of {α : Type} (ok : α → Outcome) : Except String α → Outcome
  | .ok a => ok a
  | .error _ => error

def FileResource.answer (self : FileResource) (fs : FileTree.FileSystem) :
    Int × ResourceCall → Outcome × FileTree.FileSystem
  | (_, .hasResource rid) => (.has (self.hasResource rid fs), fs)
  | (_, .getResourceInfo rid) => (.of .info (self.getResourceInfo rid fs), fs)
  | (_, .storeResourceInfo rid resource) =>
    let r := self.storeResourceInfo rid resource fs
    (.of .stored r.1, r.2)
  | (_, .deleteResource rid) =>
    let r := self.deleteResource rid fs
    (.of (fun _ => .deleted) r.1, r.2)

namespace ResourceStore

/-- `DbResource` where the store is a table. -/
def answer (store : ResourceStore) : Int × ResourceCall → Outcome × ResourceStore
  | (_, .hasResource rid) => (.has (store.hasResource rid), store)
  | (_, .getResourceInfo rid) => (.of .info (store.getResourceInfo rid), store)
  | (now, .storeResourceInfo rid resource) =>
    let r := store.storeResourceInfo now rid resource
    (.of .stored r.1, r.2)
  | (_, .deleteResource rid) =>
    let r := store.deleteResource rid
    (.of (fun _ => .deleted) r.1, r.2)

/-- The calls both back ends answer alike. -/
def Agrees (store : ResourceStore) : Int × ResourceCall → Prop
  | (_, .storeResourceInfo rid _) => store.content rid = none
  | (_, .deleteResource rid) => store.content rid ≠ none
  | _ => True

theorem getResourceInfo_of {store : ResourceStore} {rid : String} :
    Outcome.of .info (store.getResourceInfo rid) =
      match store.content rid with
      | some bytes => .info bytes
      | none => .error := by
  cases found : store.content rid with
  | some bytes => rw [getResourceInfo_ok.mpr found, Outcome.of]
  | none =>
    cases got : store.getResourceInfo rid with
    | error e => rfl
    | ok bytes =>
      rw [getResourceInfo_ok.mp got] at found
      cases found

/-- The insert succeeds exactly where there is no row. -/
theorem db_store (rows : Table ResourceInfo) (now : Int) (rid : String) (resource : Bytes) :
    ((db rows).storeResourceInfo now rid resource).1 = .ok rid ↔ (db rows).content rid = none := by
  simp only [storeResourceInfo, content, Option.map_eq_none_iff]
  cases inserted : rows.insert ⟨rid, resource, now⟩ with
  | some rows' => simpa using Table.insert_absent inserted
  | none =>
    obtain ⟨row, found⟩ := Table.insert_none.mp inserted
    simp only [key_resourceInfo] at found
    simp [found]

end ResourceStore

namespace FileResource

open FileTree ResourceStore

variable {self : FileResource} {fs : FileSystem} {store : ResourceStore} {rid : String}

/-- The root is there, and no directory is in it. -/
structure Flat (repo : FileResource) (fs : FileSystem) : Prop where
  root : repo.RootExists fs
  noDir : ∀ name : String, fs.node (repo.base ++ [name.toList]) ≠ some .dir

/-- A file put or removed under the root. -/
theorem Flat.update {fs' : FileSystem} (flat : self.Flat fs) (bytes : Option Bytes)
    (node : fs'.node = Function.update fs.node (self.base ++ [rid.toList]) (bytes.map .file)) :
    self.Flat fs' where
  root := by
    intro v hv
    have elsewhere : v ≠ self.base ++ [rid.toList] := by
      intro eq
      exact flat.noDir rid (eq ▸ flat.root v hv)
    rw [node, Function.update_of_ne elsewhere]
    exact flat.root v hv
  noDir := by
    intro name
    rw [node, Function.update_apply]
    split
    · cases bytes <;> simp
    · exact flat.noDir name

/-! ## The tree as a store of files -/

/-- A tree and a table that hold the same resources. -/
structure Alike (repo : FileResource) (fs : FileSystem) (store : ResourceStore) : Prop
    extends Flat repo fs where
  content : ∀ name, repo.files fs name = store.content name
  db : ∃ rows, store = .db rows

/-- A file put or removed under the root, and the same in the table. -/
theorem Alike.update {fs' : FileSystem} {store' : ResourceStore} (alike : self.Alike fs store)
    (bytes : Option Bytes)
    (node : fs'.node = Function.update fs.node (self.base ++ [rid.toList]) (bytes.map .file))
    (content : ∀ name, store'.content name = if name = rid then bytes else store.content name)
    (db : ∃ rows, store' = .db rows) : self.Alike fs' store' where
  toFlat := alike.toFlat.update bytes node
  content := by
    intro name
    rw [content]
    split
    · next same =>
      subst same
      cases bytes with
      | none => rw [files_remove node, Function.update_self]
      | some b => rw [files_write node, Function.update_self]
    · next other =>
      rw [(files_update node name).1 other]
      exact alike.content name
  db := db

theorem alike_hasResource (alike : self.Alike fs store) (nul : '\x00' ∉ self.root.toList)
    (plain : PlainName rid) : self.hasResource rid fs = store.hasResource rid := by
  rw [refines_hasResource alike.root nul plain]
  simp only [ResourceStore.hasResource, view]
  exact congrArg Option.isSome (alike.content rid)

theorem alike_getResourceInfo (alike : self.Alike fs store) (nul : '\x00' ∉ self.root.toList)
    (plain : PlainName rid) :
    Outcome.of .info (self.getResourceInfo rid fs) =
      Outcome.of .info (store.getResourceInfo rid) := by
  rw [refines_getResourceInfo alike.root nul plain, getResourceInfo_of, getResourceInfo_of,
    ← alike.content rid]
  rfl

/-- A file is stored whatever was there; the row only where there was none. -/
theorem alike_storeResourceInfo (alike : self.Alike fs store) (nul : '\x00' ∉ self.root.toList)
    (plain : PlainName rid) (now : Int) (resource : Bytes) :
    (self.storeResourceInfo rid resource fs).1 = .ok rid ∧
      ((store.storeResourceInfo now rid resource).1 = .ok rid ↔ store.content rid = none) ∧
      (store.content rid = none → self.Alike (self.storeResourceInfo rid resource fs).2
        (store.storeResourceInfo now rid resource).2) := by
  obtain ⟨rows, rfl⟩ := alike.db
  obtain ⟨fs', written, node⟩ :=
    storeResourceInfo_node alike.root nul plain resource (alike.noDir rid)
  have inserts := db_store rows now rid resource
  refine ⟨by rw [written], inserts, ?_⟩
  intro absent
  have inserted := inserts.mpr absent
  rw [written]
  apply alike.update (some resource) node
  · intro name
    apply storeResourceInfo_ok (r := rid)
    rw [← inserted]
  · simp only [ResourceStore.storeResourceInfo]
    split
    · exact ⟨_, rfl⟩
    · exact ⟨_, rfl⟩

theorem alike_deleteResource (alike : self.Alike fs store) (nul : '\x00' ∉ self.root.toList)
    (plain : PlainName rid) :
    (store.deleteResource rid).1 = .ok () ∧
      ((self.deleteResource rid fs).1 = .ok () ↔ store.content rid ≠ none) ∧
      self.Alike (self.deleteResource rid fs).2 (store.deleteResource rid).2 := by
  have same := alike.content rid
  obtain ⟨rows, rfl⟩ := alike.db
  refine ⟨rfl, ?_⟩
  cases file : self.files fs rid with
  | some bytes =>
    obtain ⟨fs', removed, node⟩ := deleteResource_node alike.root nul plain file
    rw [removed, ← same, file]
    refine ⟨by simp, ?_⟩
    apply alike.update none node
    · intro name
      exact content_deleteResource name
    · exact ⟨_, rfl⟩
  | none =>
    rw [deleteResource_missing plain file, ← same, file]
    refine ⟨by simp, alike.toFlat, ?_, _, rfl⟩
    intro name
    rw [content_deleteResource]
    split
    · next eq => rw [eq, file]
    · exact alike.content name

theorem alike_answer (alike : self.Alike fs store) (nul : '\x00' ∉ self.root.toList)
    (c : Int × ResourceCall) (plain : PlainName c.2.id) :
    ((self.answer fs c).1 = (store.answer c).1 ↔ store.Agrees c) ∧
      (store.Agrees c → self.Alike (self.answer fs c).2 (store.answer c).2) := by
  obtain ⟨now, call⟩ := c
  cases call with
  | hasResource rid =>
    refine ⟨iff_of_true ?_ trivial, fun _ => alike⟩
    exact congrArg Outcome.has (alike_hasResource alike nul plain)
  | getResourceInfo rid =>
    exact ⟨iff_of_true (alike_getResourceInfo alike nul plain) trivial, fun _ => alike⟩
  | storeResourceInfo rid resource =>
    have named : PlainName rid := plain
    obtain ⟨written, inserts, after⟩ := alike_storeResourceInfo alike nul named now resource
    refine ⟨?_, after⟩
    simp only [answer, ResourceStore.answer, written, Agrees, ← inserts, Outcome.of]
    cases inserted : (store.storeResourceInfo now rid resource).1 with
    | error e => simp
    | ok r =>
      obtain ⟨rows, rfl⟩ := alike.db
      simp only [ResourceStore.storeResourceInfo] at inserted
      split at inserted <;> cases inserted
      simp
  | deleteResource rid =>
    have named : PlainName rid := plain
    obtain ⟨dropped, removes, after⟩ := alike_deleteResource alike nul named
    refine ⟨?_, fun _ => after⟩
    simp only [answer, ResourceStore.answer, dropped, Agrees, ← removes, Outcome.of]
    cases (self.deleteResource rid fs).1 <;> simp

/-- An empty directory and an empty table. -/
theorem alike_empty (root : self.RootExists fs)
    (nothing : ∀ name : String, fs.node (self.base ++ [name.toList]) = none) :
    self.Alike fs (.db Table.empty) where
  root := root
  noDir := by simp [nothing]
  content := by
    intro name
    simp only [files, nothing]
    rfl
  db := ⟨_, rfl⟩

/-- The two back ends give the same results exactly where no id is stored that is
there, and none deleted that is not. -/
theorem backends_agree_iff {env : Extern} {calls : List (Int × ResourceCall)}
    (root : self.RootExists fs) (nul : '\x00' ∉ self.root.toList)
    (nothing : ∀ name : String, fs.node (self.base ++ [name.toList]) = none)
    (uuid : ∀ b, PlainName (genResourceId env b))
    (ids : ∀ c ∈ calls, ∃ b, c.2.id = genResourceId env b) :
    Runs.outcomes self.answer fs calls = Runs.outcomes ResourceStore.answer (.db Table.empty) calls ↔
      Runs.Along (fun store c => some (store.answer c).2) Agrees (.db Table.empty) calls := by
  apply Runs.outcomes_eq_iff (R := self.Alike) (P := fun c => PlainName c.2.id)
  · intro fs store c alike plain
    exact alike_answer alike nul c plain
  · exact alike_empty root nothing
  · intro c hc
    obtain ⟨b, same⟩ := ids c hc
    rw [same]
    exact uuid b

/-- A tree with nothing but the directory `/data`. -/
def emptyData : FileSystem where
  node p := if p = [] ∨ p = ["data".toList] then some .dir else none
  top := rfl
  parent := by
    intro p x there
    have root : p ++ [x] = [] ++ ["data".toList] := by simpa using there
    obtain ⟨rfl, -⟩ := List.append_inj' root rfl
    rfl

def dataFiles : FileResource := ⟨"/data", []⟩

theorem emptyData_alike : dataFiles.Alike emptyData (.db Table.empty) := by
  apply alike_empty
  · intro v hv
    have dirs : ∀ v ∈ dataFiles.rootDirs, v = [] ∨ v = ["data".toList] := by decide
    exact if_pos (dirs v hv)
  · intro name
    have base : dataFiles.base = ["data".toList] := by decide
    simp [emptyData, base]

theorem plain_demo (b : Bytes) : PlainName (genResourceId Demo.env b) := by
  change PlainName (Demo.newV5 b)
  unfold Demo.newV5 PlainName
  split
  · decide +kernel
  · split
    · decide +kernel
    · split <;> decide +kernel

/-- One resource stored, read and deleted. -/
def storedOnce : List (Int × ResourceCall) :=
  [(1, .storeResourceInfo (genResourceId Demo.env [1]) [1]),
    (2, .getResourceInfo (genResourceId Demo.env [1])),
    (3, .deleteResource (genResourceId Demo.env [1]))]

theorem backends_agree_iff_demo :
    Runs.outcomes dataFiles.answer emptyData storedOnce =
        Runs.outcomes ResourceStore.answer (.db Table.empty) storedOnce ↔
      Runs.Along (fun store c => some (store.answer c).2) Agrees (.db Table.empty) storedOnce := by
  apply backends_agree_iff emptyData_alike.root (by decide) _ plain_demo
  · intro c hc
    simp only [storedOnce, List.mem_cons, List.not_mem_nil, or_false] at hc
    rcases hc with rfl | rfl | rfl <;> exact ⟨[1], rfl⟩
  · intro name
    have base : dataFiles.base = ["data".toList] := by decide
    simp [emptyData, base]

/-- Deleting what is not there, and storing what is. -/
theorem backends_disagree :
    Runs.outcomes dataFiles.answer emptyData [(1, .deleteResource Demo.resourceId)] ≠
        Runs.outcomes ResourceStore.answer (.db Table.empty) [(1, .deleteResource Demo.resourceId)] ∧
      Runs.outcomes dataFiles.answer emptyData
          [(1, .storeResourceInfo Demo.resourceId [1]), (2, .storeResourceInfo Demo.resourceId [1])] ≠
        Runs.outcomes ResourceStore.answer (.db Table.empty)
          [(1, .storeResourceInfo Demo.resourceId [1]), (2, .storeResourceInfo Demo.resourceId [1])] := by
  have plain : PlainName Demo.resourceId := by
    unfold PlainName
    decide +kernel
  have nul : '\x00' ∉ dataFiles.root.toList := by decide
  constructor
  · intro same
    have missing : dataFiles.files emptyData Demo.resourceId = none := emptyData_alike.content _
    simp only [Runs.outcomes, answer, deleteResource_missing plain missing] at same
    cases same
  · obtain ⟨-, -, after⟩ := alike_storeResourceInfo emptyData_alike nul plain 1 [1]
    have again := alike_storeResourceInfo (after rfl) nul plain 2 [1]
    intro same
    simp only [Runs.outcomes, answer, again.1, List.cons.injEq] at same
    have refused : (ResourceStore.answer (ResourceStore.answer (.db Table.empty)
        (1, .storeResourceInfo Demo.resourceId [1])).2 (2, .storeResourceInfo Demo.resourceId [1])).1 =
        .error := by
      decide +kernel
    rw [refused] at same
    cases same.2.1

end FileResource

end GpuProxy
