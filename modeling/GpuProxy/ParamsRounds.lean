import GpuProxy.ParamsFetch

/-!
# When `paramfetch` comes to an end

The loop asks for every file that is left, whatever came of the others. So it ends when each
file has once come whole, in rounds that need have nothing to do with each other, and until
then it is after exactly the files that have not.
-/

namespace GpuProxy

namespace ParamsFetch

section
variable {File : Type} (digestOf : File → String) (map : ParameterMap)

/-- The check finds the file, can hash it and finds the digest of the map. -/
def current (check : FileName → Check) (cache : Cache File) (name : FileName) : Bool :=
  match cache name, map.lookup name with
  | some file, some data =>
    (check name).pathExists && (check name).hashed && decide (digestOf file = data.digest)
  | _, _ => false

/-- The file comes whole in the round, however `ipget` ends. -/
def passes (round : Round File) (name : FileName) : Bool :=
  match map.lookup name with
  | some data =>
    match round.download name data.cid with
    | .ended _ (some file) =>
      (round.check name).pathExists && (round.check name).hashed &&
        decide (digestOf file = data.digest)
    | _ => false
  | none => false

/-- Files can be moved aside. -/
def Moves (names : List FileName) (check : FileName → Check) : Prop :=
  ∀ name ∈ names, (check name).moved = .ok ()

/-- Nothing panics in the round. -/
structure Calm (names : List FileName) (round : Round File) : Prop where
  moves : Moves names round.check
  ended : ∀ name ∈ names, ∀ cid message, round.download name cid ≠ .panicked message

end

variable {File : Type} {digestOf : File → String} {map : ParameterMap} {names : List FileName}
  {cache : Cache File}

theorem current_congr {check : FileName → Check} {cache' : Cache File} {name : FileName}
    (same : cache' name = cache name) :
    current digestOf map check cache' name = current digestOf map check cache name := by
  unfold current
  rw [same]

/-! ## One round -/

theorem requiresDownload_eq (digestOf : File → String) (cache : Cache File) {check : Check}
    {checks : FileName → Check} {name : FileName} (listed : name ∈ map) (moved : check.moved = .ok ())
    (here : checks name = check) :
    ∃ cache', requiresDownload digestOf map check name cache =
      .ok (!current digestOf map checks cache name, cache') := by
  obtain ⟨data, entry⟩ := Option.isSome_iff_exists.mp (AList.lookup_isSome.mpr listed)
  subst here
  unfold requiresDownload current
  rw [entry]
  cases cache name with
  | none => exact ⟨cache, rfl⟩
  | some file =>
    by_cases there : (checks name).pathExists = true
    · by_cases hashed : (checks name).hashed = true
      · by_cases digest : digestOf file = data.digest
        · exact ⟨cache, by simp [there, hashed, digest]⟩
        · exact ⟨cache.rename name name.invalid, by simp [there, hashed, digest, moved, expect]⟩
      · exact ⟨cache, by simp [there, hashed]⟩
    · exact ⟨cache, by simp [there]⟩

/-- A pass of the filter drops just what is current when it begins. -/
theorem getFilenames_eq (digestOf : File → String) (cache : Cache File) {check : FileName → Check}
    (nodup : names.Nodup) (free : Free names) (listed : ∀ name ∈ names, name ∈ map)
    (moves : Moves names check) :
    ∃ cache', getFilenamesRequiringDownload digestOf map check names cache =
      .ok (names.filter fun name => !current digestOf map check cache name, cache') := by
  induction names generalizing cache with
  | nil => exact ⟨cache, rfl⟩
  | cons name names ih =>
    obtain ⟨fresh, nodup⟩ := List.nodup_cons.mp nodup
    obtain ⟨middle, one⟩ := requiresDownload_eq digestOf cache
      (listed name List.mem_cons_self) (moves name List.mem_cons_self) rfl
    obtain ⟨cache', all⟩ := ih middle nodup (free.sub (List.subset_cons_self name names))
      (fun n inside => listed n (List.mem_cons_of_mem name inside))
      (fun n inside => moves n (List.mem_cons_of_mem name inside))
    have later : (names.filter fun n => !current digestOf map check middle n) =
        names.filter fun n => !current digestOf map check cache n := by
      apply List.filter_congr
      intro n inside
      have apart : n ≠ name := by
        rintro rfl
        exact fresh inside
      rw [current_congr ((requiresDownload_ok one).2 n apart
        (free name List.mem_cons_self n (List.mem_cons_of_mem name inside)))]
    refine ⟨cache', ?_⟩
    rw [getFilenamesRequiringDownload, one]
    simp only [all, later, List.filter_cons]

/-- The downloads leave at each path what `ipget` left there. -/
theorem downloadFiles_eq (cache : Cache File) {round : Round File} (nodup : names.Nodup)
    (listed : ∀ name ∈ names, name ∈ map)
    (ended : ∀ name ∈ names, ∀ cid message, round.download name cid ≠ .panicked message) :
    ∃ cache', downloadFiles map round.download names cache = .ok cache' ∧
      ∀ name ∈ names, ∃ data result, map.lookup name = some data ∧
        round.download name data.cid = .ended result (cache' name) := by
  induction names generalizing cache with
  | nil => exact ⟨cache, rfl, by simp⟩
  | cons name names ih =>
    obtain ⟨fresh, nodup⟩ := List.nodup_cons.mp nodup
    obtain ⟨data, entry⟩ :=
      Option.isSome_iff_exists.mp (AList.lookup_isSome.mpr (listed name List.mem_cons_self))
    cases download : round.download name data.cid with
    | panicked message => exact absurd download (ended name List.mem_cons_self _ _)
    | ended result file =>
      obtain ⟨cache', downloaded, left⟩ := ih (Function.update cache name file) nodup
        (fun n inside => listed n (List.mem_cons_of_mem name inside))
        (fun n inside => ended n (List.mem_cons_of_mem name inside))
      refine ⟨cache', by simp [downloadFiles, entry, download, downloaded], ?_⟩
      intro n inside
      rcases List.mem_cons.mp inside with rfl | inside
      · refine ⟨data, result, entry, ?_⟩
        rw [downloadFiles_ok downloaded n fresh, Function.update_self, download]
      · exact left n inside

theorem current_of_download {round : Round File} {name : FileName}
    (left : ∃ data result, map.lookup name = some data ∧
      round.download name data.cid = .ended result (cache name)) :
    current digestOf map round.check cache name = passes digestOf map round name := by
  obtain ⟨data, result, entry, download⟩ := left
  unfold current passes
  rw [entry]
  simp only [download]
  cases cache name <;> rfl

/-! ## The loop -/

/-- What is left of the files when the rounds are over. -/
def pending (digestOf : File → String) (map : ParameterMap) (rounds : List (Round File))
    (names : List FileName) : List FileName :=
  names.filter fun name => !rounds.any fun round => passes digestOf map round name

theorem pending_cons (round : Round File) (rounds : List (Round File)) :
    pending digestOf map (round :: rounds) names =
      pending digestOf map rounds (names.filter fun name => !passes digestOf map round name) := by
  simp only [pending, List.filter_filter, List.any_cons, Bool.not_or, Bool.and_comm]

/-- One round leaves the files that have not come whole in it. -/
theorem round_eq (digestOf : File → String) (cache : Cache File) {round : Round File}
    (nodup : names.Nodup) (free : Free names) (listed : ∀ name ∈ names, name ∈ map)
    (calm : Calm names round) :
    ∃ downloaded cache', downloadFiles map round.download names cache = .ok downloaded ∧
      getFilenamesRequiringDownload digestOf map round.check names downloaded =
        .ok (names.filter fun name => !passes digestOf map round name, cache') := by
  obtain ⟨downloaded, ended, left⟩ := downloadFiles_eq cache nodup listed calm.ended
  obtain ⟨cache', checked⟩ :=
    getFilenames_eq digestOf downloaded nodup free listed calm.moves
  refine ⟨downloaded, cache', ended, ?_⟩
  rw [checked, List.filter_congr fun name inside => by rw [current_of_download (left name inside)]]

theorem fetchLoop_eq {rounds : List (Round File)} (asked : names ≠ []) (nodup : names.Nodup)
    (free : Free names) (listed : ∀ name ∈ names, name ∈ map)
    (calm : ∀ round ∈ rounds, Calm names round) :
    ∃ cache', fetchLoop digestOf map rounds names cache =
      if pending digestOf map rounds names = [] then .returned cache'
      else .running (pending digestOf map rounds names) cache' := by
  induction rounds generalizing names cache with
  | nil =>
    have all : pending digestOf map [] names = names := by simp [pending]
    exact ⟨cache, by rw [all, if_neg asked]; rfl⟩
  | cons round rounds ih =>
    obtain ⟨downloaded, cache', ended, checked⟩ := round_eq digestOf cache nodup free listed
      (calm round List.mem_cons_self)
    rw [pending_cons, fetchLoop, ended]
    simp only [checked]
    cases left : names.filter fun name => !passes digestOf map round name with
    | nil => exact ⟨cache', rfl⟩
    | cons name rest =>
      have sub : (name :: rest) ⊆ names := by
        rw [← left]
        exact List.filter_subset_self names
      have kept : (name :: rest).Sublist names := by
        rw [← left]
        exact List.filter_sublist
      exact ih (List.cons_ne_nil name rest) (kept.nodup nodup) (free.sub sub)
        (fun n inside => listed n (sub inside)) fun later inside =>
          have calm := calm later (List.mem_cons_of_mem round inside)
          ⟨fun n inside => calm.moves n (sub inside), fun n inside => calm.ended n (sub inside)⟩

/-- The files that are not current in the cache and that no round brings. -/
def missing (digestOf : File → String) (hasExtension : String → String → Bool) (map : ParameterMap)
    (sectorSizes : Option (List UInt64)) (env : Environment File) (cache : Cache File) :
    List FileName :=
  (selectFilenames hasExtension map sectorSizes).filter fun name =>
    !(current digestOf map env.check cache name ||
      env.rounds.any fun round => passes digestOf map round name)

/-- Nothing but the downloads fails. -/
structure Environment.Calm (env : Environment File) (names : List FileName) : Prop where
  moves : Moves names env.check
  rounds : ∀ round ∈ env.rounds, ParamsFetch.Calm names round
  prepared : prepare env = .ok ()

/-- Where nothing but the downloads fails, `download_sector_size` returns exactly if each file is
current to begin with or comes whole in one round or another; otherwise it is still after just
the files that have not. -/
theorem returns_iff_all_came (digestOf : File → String) (hasExtension : String → String → Bool)
    (map : ParameterMap) (free : Free map.keys) (sectorSizes : Option (List UInt64))
    (env : Environment File) (cache : Cache File)
    (calm : env.Calm (selectFilenames hasExtension map sectorSizes)) :
    ∃ cache', downloadSectorSize digestOf hasExtension (some map) sectorSizes env cache =
      if missing digestOf hasExtension map sectorSizes env cache = [] then .returned cache'
      else .running (missing digestOf hasExtension map sectorSizes env cache) cache' := by
  have chosen : (selectFilenames hasExtension map sectorSizes).Sublist map.keys :=
    selectFilenames_sublist sectorSizes
  have nodup := chosen.nodup map.keys_nodup
  have free := free.sub chosen.subset
  have listed : ∀ name ∈ selectFilenames hasExtension map sectorSizes, name ∈ map :=
    fun name inside => AList.mem_keys.mpr (chosen.subset inside)
  obtain ⟨checkedCache, checked⟩ :=
    getFilenames_eq digestOf cache nodup free listed calm.moves
  have split : missing digestOf hasExtension map sectorSizes env cache =
      pending digestOf map env.rounds ((selectFilenames hasExtension map sectorSizes).filter
        fun name => !current digestOf map env.check cache name) := by
    simp only [missing, pending, List.filter_filter, Bool.not_or, Bool.and_comm]
  rw [split]
  simp only [downloadSectorSize, checked]
  cases left : (selectFilenames hasExtension map sectorSizes).filter fun name =>
      !current digestOf map env.check cache name with
  | nil => exact ⟨checkedCache, rfl⟩
  | cons name rest =>
    have kept : (name :: rest).Sublist (selectFilenames hasExtension map sectorSizes) := by
      rw [← left]
      exact List.filter_sublist
    simp only [calm.prepared]
    exact fetchLoop_eq (List.cons_ne_nil name rest) (kept.nodup nodup) (free.sub kept.subset)
      (fun n inside => listed n (kept.subset inside)) fun later inside =>
        have calm := calm.rounds later inside
        ⟨fun n there => calm.moves n (kept.subset there), fun n there => calm.ended n (kept.subset there)⟩

/-- The key comes in the first round, the parameters in the second. -/
def Demo.inTurns : Environment String where
  check := Demo.check
  ipgetExists := true
  downloadIpget := .ok (.ok ())
  createDirAll := .ok ()
  rounds :=
    [⟨fun name _ => if name = Demo.vk then .ended (.ok ()) (some "verifying")
        else .ended (.error "ipget returned non-zero exit code") (some "partial"), Demo.check⟩,
      ⟨fun _ _ => .ended (.ok ()) (some "key"), Demo.check⟩]

theorem Demo.inTurns_calm (names : List FileName) : Demo.inTurns.Calm names where
  moves _ _ := rfl
  rounds := by
    intro round inside
    simp only [Demo.inTurns, List.mem_cons, List.not_mem_nil, or_false] at inside
    obtain rfl | rfl := inside
    · refine ⟨fun _ _ => rfl, fun name _ cid message => ?_⟩
      by_cases key : name = Demo.vk <;> simp [key]
    · exact ⟨fun _ _ => rfl, fun _ _ _ _ => nofun⟩
  prepared := rfl

theorem returns_iff_all_came_demo :
    missing Demo.digestOf Demo.hasExtension Demo.map none Demo.inTurns Demo.cache = [] ∧
    ∃ cache', downloadSectorSize Demo.digestOf Demo.hasExtension (some Demo.map) none Demo.inTurns
      Demo.cache = .returned cache' := by
  have none_left :
      missing Demo.digestOf Demo.hasExtension Demo.map none Demo.inTurns Demo.cache = [] := by
    decide
  obtain ⟨cache', outcome⟩ := returns_iff_all_came Demo.digestOf Demo.hasExtension Demo.map (by decide)
    none Demo.inTurns Demo.cache (Demo.inTurns_calm _)
  rw [if_pos none_left] at outcome
  exact ⟨none_left, cache', outcome⟩

end ParamsFetch

end GpuProxy
