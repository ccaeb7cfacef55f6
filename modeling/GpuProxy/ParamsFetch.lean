import Mathlib.Data.List.AList

/-!
# Fetching parameter files

`paramfetch` checks the parameter files in the cache by their digests, moves the bad ones
aside and downloads them again, round after round, until none is bad. A round looks only at
the files that were still bad in the round before it.
-/

namespace GpuProxy

namespace ParamsFetch

/-- A name of one path component, as all of `parameters.json` are: what `join` and
`with_file_name` keep in the cache directory. -/
structure FileName where
  text : String
  plain : text ≠ "" ∧ text ≠ "." ∧ text ≠ ".." ∧ '/' ∉ text.toList
  deriving DecidableEq

theorem plain_append {text : String} (plain : '/' ∉ text.toList) :
    text ++ "-invalid-digest" ≠ "" ∧ text ++ "-invalid-digest" ≠ "." ∧
      text ++ "-invalid-digest" ≠ ".." ∧ '/' ∉ (text ++ "-invalid-digest").toList := by
  have long : ∀ short : String, short.length < 15 → text ++ "-invalid-digest" ≠ short := by
    rintro short fits rfl
    rw [String.length_append] at fits
    exact absurd fits (Nat.not_lt.mpr (Nat.le_add_left 15 _))
  refine ⟨long "" (by decide), long "." (by decide), long ".." (by decide), ?_⟩
  rw [String.toList_append, List.mem_append]
  rintro (inside | inside)
  · exact plain inside
  · exact absurd inside (by decide)

def FileName.invalid (name : FileName) : FileName :=
  ⟨name.text ++ "-invalid-digest", plain_append name.plain.2.2.2⟩

structure ParameterData where
  cid : String
  digest : String
  sectorSize : UInt64
  deriving DecidableEq, Repr

abbrev ParameterMap := AList fun _ : FileName => ParameterData

/-- The files of the cache directory. -/
abbrev Cache (File : Type) := FileName → Option File

/-- A call that does not return: `panic!` and `exit`. -/
inductive Halt where
  | panicked (message : String)
  | exited (code : Nat)
  deriving DecidableEq, Repr

def expect {α : Type} (message : String) : Except String α → Except Halt α
  | .ok a => .ok a
  | .error e => .error (.panicked (message ++ ": " ++ e))

/-- What the operating system answers while one file is checked. -/
structure Check where
  pathExists : Bool
  hashed : Bool
  moved : Except String Unit

/-- How `ipget` ends for one file, and what it leaves at its path. -/
inductive Download (File : Type) where
  | panicked (message : String)
  | ended (result : Except String Unit) (file : Option File)

structure Round (File : Type) where
  download : FileName → String → Download File
  check : FileName → Check

/-- Every answer from outside during one call. -/
structure Environment (File : Type) where
  check : FileName → Check
  ipgetExists : Bool
  downloadIpget : Except Halt (Except String Unit)
  createDirAll : Except String Unit
  rounds : List (Round File)

inductive Outcome (File : Type) where
  | returned (cache : Cache File)
  | halted (halt : Halt)
  | running (filenames : List FileName) (cache : Cache File)

def verifyingKeyExt : String := "vk"

def grothParameterExt : String := "params"

section
variable {File : Type} (digestOf : File → String) (hasExtension : String → String → Bool)

/-- `rename(path, new_path)` within the cache directory. -/
def Cache.rename (cache : Cache File) (name newName : FileName) : Cache File :=
  Function.update (Function.update cache name none) newName (cache name)

/-- The closure of the filter: whether the file is to be downloaded, and the cache after it. -/
def requiresDownload (map : ParameterMap) (check : Check) (name : FileName) (cache : Cache File) :
    Except Halt (Bool × Cache File) :=
  match cache name with
  | none => .ok (true, cache)
  | some file =>
    if !check.pathExists then .ok (true, cache)
    else if !check.hashed then .ok (true, cache)
    else
      match map.lookup name with
      | none => .error (.panicked "no entry found for key")
      | some data =>
        if digestOf file = data.digest then .ok (false, cache)
        else
          match expect "failed to move file" check.moved with
          | .ok () => .ok (true, cache.rename name name.invalid)
          | .error halt => .error halt

def getFilenamesRequiringDownload (map : ParameterMap) (check : FileName → Check) :
    List FileName → Cache File → Except Halt (List FileName × Cache File)
  | [], cache => .ok ([], cache)
  | name :: names, cache =>
    match requiresDownload digestOf map (check name) name cache with
    | .error halt => .error halt
    | .ok (required, cache) =>
      match getFilenamesRequiringDownload map check names cache with
      | .error halt => .error halt
      | .ok (rest, cache) => .ok (if required then name :: rest else rest, cache)

/-- The inner loop of a round. The result of a download is only logged. -/
def downloadFiles (map : ParameterMap) (download : FileName → String → Download File) :
    List FileName → Cache File → Except Halt (Cache File)
  | [], cache => .ok cache
  | name :: names, cache =>
    match map.lookup name with
    | none => .error (.panicked "no entry found for key")
    | some data =>
      match download name data.cid with
      | .panicked message => .error (.panicked message)
      | .ended _ file => downloadFiles map download names (Function.update cache name file)

/-- The outer loop; `running` where the rounds of the environment end before it does. -/
def fetchLoop (map : ParameterMap) :
    List (Round File) → List FileName → Cache File → Outcome File
  | [], names, cache => .running names cache
  | round :: rounds, names, cache =>
    match downloadFiles map round.download names cache with
    | .error halt => .halted halt
    | .ok cache =>
      match getFilenamesRequiringDownload digestOf map round.check names cache with
      | .error halt => .halted halt
      | .ok ([], cache) => .returned cache
      | .ok (name :: names, cache) => fetchLoop map rounds (name :: names) cache

def remove (sectorSizes : List UInt64) (name : FileName) (data : ParameterData) : Bool :=
  hasExtension name.text verifyingKeyExt ||
    (hasExtension name.text grothParameterExt && !sectorSizes.contains data.sectorSize)

/-- The file names that pass the sector-size filter. -/
def selectFilenames (map : ParameterMap) : Option (List UInt64) → List FileName
  | none => map.keys
  | some sectorSizes =>
    map.keys.filter fun name =>
      (map.lookup name).any fun data => !remove hasExtension sectorSizes name data

/-- The preparations between the first check and the loop. -/
def prepare (env : Environment File) : Except Halt Unit := do
  if !env.ipgetExists then
    let result ← env.downloadIpget
    expect "ipget download failed" result
  expect "failed to create param cache dir" env.createDirAll

/-- The map is `none` where the built-in text does not parse. -/
def downloadSectorSize (parameterMap : Option ParameterMap) (sectorSizes : Option (List UInt64))
    (env : Environment File) (cache : Cache File) : Outcome File :=
  match parameterMap with
  | none => .halted (.exited 1)
  | some map =>
    match getFilenamesRequiringDownload digestOf map env.check
        (selectFilenames hasExtension map sectorSizes) cache with
    | .error halt => .halted halt
    | .ok ([], cache) => .returned cache
    | .ok (name :: names, cache) =>
      match prepare env with
      | .error halt => .halted halt
      | .ok () => fetchLoop digestOf map env.rounds (name :: names) cache

/-- The file is there and has the digest the map requires. -/
def Good (map : ParameterMap) (cache : Cache File) (name : FileName) : Prop :=
  ∃ file data, cache name = some file ∧ map.lookup name = some data ∧ digestOf file = data.digest

end

/-! ## One check and one round -/

section
variable {File : Type} {digestOf : File → String} {hasExtension : String → String → Bool}
  {map : ParameterMap}

theorem Good.congr {cache cache' : Cache File} {name : FileName}
    (same : cache' name = cache name) (good : Good digestOf map cache name) :
    Good digestOf map cache' name := by
  unfold Good
  rw [same]
  exact good

theorem rename_other (cache : Cache File) {name newName other : FileName}
    (old : other ≠ name) (new : other ≠ newName) :
    cache.rename name newName other = cache other := by
  unfold Cache.rename
  rw [Function.update_of_ne new, Function.update_of_ne old]

/-- A file that is not marked for download is good, and the check moves no third file. -/
theorem requiresDownload_ok {check : Check} {name : FileName} {cache cache' : Cache File}
    {required : Bool}
    (checked : requiresDownload digestOf map check name cache = .ok (required, cache')) :
    (required = false → Good digestOf map cache' name) ∧
      ∀ other, other ≠ name → other ≠ name.invalid → cache' other = cache other := by
  unfold requiresDownload at checked
  split at checked
  · cases checked
    exact ⟨nofun, fun _ _ _ => rfl⟩
  · next file present =>
    split at checked
    · cases checked
      exact ⟨nofun, fun _ _ _ => rfl⟩
    · split at checked
      · cases checked
        exact ⟨nofun, fun _ _ _ => rfl⟩
      · split at checked
        · cases checked
        · next data entry =>
          by_cases digest : digestOf file = data.digest
          · rw [if_pos digest] at checked
            cases checked
            exact ⟨fun _ => ⟨file, data, present, entry, digest⟩, fun _ _ _ => rfl⟩
          · rw [if_neg digest] at checked
            split at checked
            · cases checked
              exact ⟨nofun, fun other old new => rename_other cache old new⟩
            · cases checked

/-- No name of the list is another one moved aside. -/
def Free (names : List FileName) : Prop := ∀ a ∈ names, ∀ b ∈ names, b ≠ a.invalid

instance (names : List FileName) : Decidable (Free names) :=
  inferInstanceAs (Decidable (∀ a ∈ names, ∀ b ∈ names, b ≠ a.invalid))

theorem Free.sub {names names' : List FileName} (free : Free names) (sub : names' ⊆ names) :
    Free names' :=
  fun a ha b hb => free a (sub ha) b (sub hb)

theorem getFilenames_cons {check : FileName → Check} {name : FileName} {names rest : List FileName}
    {cache cache' : Cache File}
    (checked : getFilenamesRequiringDownload digestOf map check (name :: names) cache =
      .ok (rest, cache')) :
    ∃ required middle later,
      requiresDownload digestOf map (check name) name cache = .ok (required, middle) ∧
      getFilenamesRequiringDownload digestOf map check names middle = .ok (later, cache') ∧
      rest = if required then name :: later else later := by
  unfold getFilenamesRequiringDownload at checked
  split at checked
  · cases checked
  · next required middle one =>
    split at checked
    · cases checked
    · next later final all =>
      cases checked
      exact ⟨required, middle, later, one, all, rfl⟩

theorem getFilenames_sublist {check : FileName → Check} {names rest : List FileName}
    {cache cache' : Cache File}
    (checked : getFilenamesRequiringDownload digestOf map check names cache = .ok (rest, cache')) :
    rest.Sublist names := by
  induction names generalizing cache rest with
  | nil =>
    cases checked
    exact .slnil
  | cons name names ih =>
    obtain ⟨required, middle, later, -, all, rfl⟩ := getFilenames_cons checked
    cases required with
    | false => exact (ih all).cons name
    | true => exact (ih all).cons_cons name

/-- The files a pass of the filter has nothing to do with are as before. -/
theorem getFilenames_frame {check : FileName → Check} {names rest : List FileName}
    {cache cache' : Cache File}
    (checked : getFilenamesRequiringDownload digestOf map check names cache = .ok (rest, cache'))
    (other : FileName) (outside : other ∉ names) (apart : ∀ name ∈ names, other ≠ name.invalid) :
    cache' other = cache other := by
  induction names generalizing cache rest with
  | nil =>
    cases checked
    rfl
  | cons name names ih =>
    obtain ⟨required, middle, later, one, all, -⟩ := getFilenames_cons checked
    obtain ⟨head, tail⟩ := not_or.mp (mt List.mem_cons.mpr outside)
    rw [ih all tail fun n inside => apart n (List.mem_cons_of_mem name inside),
      (requiresDownload_ok one).2 other head (apart name List.mem_cons_self)]

/-- What a pass of the filter drops is good when the pass is over. -/
theorem getFilenames_good {check : FileName → Check} {names rest : List FileName}
    {cache cache' : Cache File} (nodup : names.Nodup) (free : Free names)
    (checked : getFilenamesRequiringDownload digestOf map check names cache = .ok (rest, cache')) :
    ∀ name ∈ names, name ∉ rest → Good digestOf map cache' name := by
  induction names generalizing cache rest with
  | nil => nofun
  | cons name names ih =>
    obtain ⟨fresh, nodup⟩ := List.nodup_cons.mp nodup
    obtain ⟨required, middle, later, one, all, rfl⟩ := getFilenames_cons checked
    intro n listed out
    by_cases head : n = name
    · subst head
      cases required with
      | true => exact absurd List.mem_cons_self out
      | false =>
        -- the later checks move only later files, to names that are not in the list
        apply ((requiresDownload_ok one).1 rfl).congr
        apply getFilenames_frame all n fresh
        intro m inside
        exact free m (List.mem_cons_of_mem n inside) n List.mem_cons_self
    · have inside : n ∈ names := (List.mem_cons.mp listed).resolve_left head
      apply ih nodup (free.sub (List.subset_cons_self name names)) all n inside
      intro still
      apply out
      cases required with
      | false => exact still
      | true => exact List.mem_cons_of_mem name still

/-- The downloads of a round write only the files of the list. -/
theorem downloadFiles_ok {download : FileName → String → Download File} {names : List FileName}
    {cache cache' : Cache File} (downloaded : downloadFiles map download names cache = .ok cache')
    (other : FileName) (outside : other ∉ names) : cache' other = cache other := by
  induction names generalizing cache with
  | nil =>
    cases downloaded
    rfl
  | cons name names ih =>
    obtain ⟨head, tail⟩ := not_or.mp (mt List.mem_cons.mpr outside)
    unfold downloadFiles at downloaded
    split at downloaded
    · cases downloaded
    · split at downloaded
      · cases downloaded
      · rw [ih downloaded tail, Function.update_of_ne head]

/-! ## The loop -/

/-- The files that are no longer in the list are good. -/
structure Kept (digestOf : File → String) (map : ParameterMap) (selected names : List FileName)
    (cache : Cache File) : Prop where
  sub : names.Sublist selected
  good : ∀ name ∈ selected, name ∉ names → Good digestOf map cache name

theorem Kept.checked {selected names rest : List FileName} {cache cache' : Cache File}
    {check : FileName → Check} (nodup : selected.Nodup) (free : Free selected)
    (kept : Kept digestOf map selected names cache)
    (checked : getFilenamesRequiringDownload digestOf map check names cache = .ok (rest, cache')) :
    Kept digestOf map selected rest cache' := by
  constructor
  · exact (getFilenames_sublist checked).trans kept.sub
  · intro name chosen out
    by_cases still : name ∈ names
    · exact getFilenames_good (kept.sub.nodup nodup) (free.sub kept.sub.subset) checked name still out
    · apply (kept.good name chosen still).congr
      apply getFilenames_frame checked name still
      intro n listed
      exact free n (kept.sub.subset listed) name chosen

theorem Kept.downloaded {selected names : List FileName} {cache cache' : Cache File}
    {download : FileName → String → Download File}
    (kept : Kept digestOf map selected names cache)
    (downloaded : downloadFiles map download names cache = .ok cache') :
    Kept digestOf map selected names cache' := by
  constructor
  · exact kept.sub
  · intro name chosen out
    exact (kept.good name chosen out).congr (downloadFiles_ok downloaded name out)

theorem fetchLoop_good {rounds : List (Round File)} {selected names : List FileName}
    {cache cache' : Cache File} (nodup : selected.Nodup) (free : Free selected)
    (kept : Kept digestOf map selected names cache)
    (returned : fetchLoop digestOf map rounds names cache = .returned cache') :
    ∀ name ∈ selected, Good digestOf map cache' name := by
  induction rounds generalizing names cache with
  | nil => cases returned
  | cons round rounds ih =>
    unfold fetchLoop at returned
    split at returned
    · cases returned
    · next middle downloaded =>
      have after := kept.downloaded downloaded
      split at returned
      · cases returned
      · next done final checked =>
        cases returned
        intro name chosen
        exact (after.checked nodup free checked).good name chosen List.not_mem_nil
      · next name names next checked => exact ih (after.checked nodup free checked) returned

theorem selectFilenames_sublist (sectorSizes : Option (List UInt64)) :
    (selectFilenames hasExtension map sectorSizes).Sublist map.keys := by
  cases sectorSizes with
  | none => exact List.Sublist.refl _
  | some sizes => exact List.filter_sublist

/-- Whenever `download_sector_size` returns, every file that passed the filter is in the cache
with the digest the map requires. -/
theorem returns_with_good_files (digestOf : File → String)
    (hasExtension : String → String → Bool) (map : ParameterMap) (free : Free map.keys)
    (sectorSizes : Option (List UInt64)) (env : Environment File) (cache cache' : Cache File)
    (returned : downloadSectorSize digestOf hasExtension (some map) sectorSizes env cache =
      .returned cache') :
    ∀ name ∈ selectFilenames hasExtension map sectorSizes, Good digestOf map cache' name := by
  have chosen : (selectFilenames hasExtension map sectorSizes).Sublist map.keys :=
    selectFilenames_sublist sectorSizes
  have nodup := chosen.nodup map.keys_nodup
  have free := free.sub chosen.subset
  have start : Kept digestOf map (selectFilenames hasExtension map sectorSizes)
      (selectFilenames hasExtension map sectorSizes) cache :=
    ⟨List.Sublist.refl _, fun name inside out => absurd inside out⟩
  unfold downloadSectorSize at returned
  simp only at returned
  split at returned
  · cases returned
  · next final checked =>
    cases returned
    intro name inside
    exact (start.checked nodup free checked).good name inside List.not_mem_nil
  · next name names next checked =>
    split at returned
    · cases returned
    · exact fetchLoop_good nodup free (start.checked nodup free checked) returned

end

/-! ### A run: a partial file is moved aside, one download fails, the next is good -/

/-- The BLAKE2b digests of the texts below. -/
def Demo.digestOf (file : String) : String :=
  if file = "key" then "900146c90a20a87dd431616bd9c83053"
  else if file = "partial" then "de4085b9f6ac32ad9e06e9c73881d461"
  else "786a02f742015903c6c6fd852552d272"

def Demo.hasExtension (filename ext : String) : Bool :=
  ('.' :: ext.toList).isSuffixOf filename.toList

def Demo.params : FileName := ⟨"v28-8-0-0.params", by decide⟩

def Demo.vk : FileName := ⟨"v28-8-0-0.vk", by decide⟩

def Demo.map : ParameterMap :=
  ⟨[⟨Demo.params, ⟨"QmParams", "900146c90a20a87dd431616bd9c83053", 2048⟩⟩,
    ⟨Demo.vk, ⟨"QmVk", "786a02f742015903c6c6fd852552d272", 2048⟩⟩],
    by unfold List.NodupKeys; decide⟩

def Demo.check (_ : FileName) : Check := ⟨true, true, .ok ()⟩

def Demo.env : Environment String where
  check := Demo.check
  ipgetExists := true
  downloadIpget := .ok (.ok ())
  createDirAll := .ok ()
  rounds :=
    [⟨fun _ _ => .ended (.error "ipget returned non-zero exit code") none, Demo.check⟩,
      ⟨fun _ _ => .ended (.ok ()) (some "key"), Demo.check⟩]

def Demo.cache (name : FileName) : Option String :=
  if name = Demo.params then some "partial" else none

theorem returns_with_good_files_demo :
    ∃ cache', downloadSectorSize Demo.digestOf Demo.hasExtension (some Demo.map) (some [2048])
        Demo.env Demo.cache = .returned cache' ∧
      cache' Demo.params = some "key" ∧ cache' Demo.params.invalid = some "partial" ∧
      ∀ name ∈ selectFilenames Demo.hasExtension Demo.map (some [2048]),
        Good Demo.digestOf Demo.map cache' name :=
  ⟨_, rfl, rfl, rfl,
    returns_with_good_files Demo.digestOf Demo.hasExtension Demo.map (by decide) (some [2048])
      Demo.env Demo.cache _ rfl⟩

end ParamsFetch

end GpuProxy
