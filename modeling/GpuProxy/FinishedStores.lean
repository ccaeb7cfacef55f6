import GpuProxy.Completeness

/-!
# Stores that end

A file lacks a piece only while a store of it is under way, or after a write of one has
failed. A thread that is never taken up again is under way for good.
-/

namespace GpuProxy

namespace Disk

section
variable {env : Extern} {reqs : List Request}

/-- A store of the id stands between its creation of the file and its last write. -/
def UnderWay (u : Threads) (rid : String) : Prop :=
  ∃ p ∈ u.threads, ∃ o b, p.next = some (.write rid o b)

/-- The step is not a write that fails. -/
def Unfailing (u : Threads) (a : Nat × Choice) : Prop :=
  ∀ p rid o b, u.threads[a.1]? = some p → p.next = some (.write rid o b) → a.2.fails = none

/-- A program that writes only by `write`, at some point of its way. -/
inductive Shaped (env : Extern) (hashed : Bytes → Prop) {α : Type} :
    Program FileOp FileOp.Response α → Prop
  | ret (a : α) : Shaped env hashed (.ret a)
  | whole {op : Op} {k : op.Response → Program FileOp FileOp.Response α} (leaves : Leaves op)
      (next : ∀ r, Shaped env hashed (k r)) : Shaped env hashed (.call (.whole op) k)
  | storing {bytes : Bytes} {f : Except String Unit → Program FileOp FileOp.Response α}
      (h : hashed bytes) (next : ∀ r, Shaped env hashed (f r)) :
      Shaped env hashed (write (genResourceId env bytes) bytes >>= f)
  | writing {bytes : Bytes} {o : Nat} {f : Except String Unit → Program FileOp FileOp.Response α}
      (h : hashed bytes) (inside : o < bytes.length) (next : ∀ r, Shaped env hashed (f r)) :
      Shaped env hashed (writeAll (genResourceId env bytes) o (bytes.drop o) >>= f)

theorem Shaped.bind {hashed : Bytes → Prop} {α β : Type} {p : Program FileOp FileOp.Response α}
    {g : α → Program FileOp FileOp.Response β} (shaped : Shaped env hashed p)
    (next : ∀ a, Shaped env hashed (g a)) : Shaped env hashed (p >>= g) := by
  induction shaped with
  | ret a => exact next a
  | whole leaves _ ih => exact .whole leaves ih
  | storing h _ ih =>
    rw [Program.bind_assoc]
    exact .storing h ih
  | writing h inside _ ih =>
    rw [Program.bind_assoc]
    exact .writing h inside ih

theorem shaped_lower {hashed : Bytes → Prop} {α : Type} {P : Op → Prop} {Q : α → Prop}
    {p : Program Op Op.Response α}
    (calls : ∀ op, P op → Leaves op ∨
      ∃ bytes, hashed bytes ∧ op = .storeResourceInfo (genResourceId env bytes) bytes)
    (h : p.Sat P (fun _ _ => True) Q) : Shaped env hashed (lower p) := by
  induction p with
  | ret a => exact .ret a
  | call op k ih =>
    have next (r : op.Response) : Shaped env hashed (lower (k r)) := ih r (h.2 r trivial)
    rcases calls op h.1 with leaves | ⟨bytes, hb, rfl⟩
    · change Shaped env hashed (carryOut op >>= fun r => lower (k r))
      rw [carryOut_leaves leaves]
      exact .whole leaves next
    · change Shaped env hashed (carryOut (.storeResourceInfo _ bytes) >>= fun r => lower (k r))
      rw [carryOut, Program.bind_assoc]
      exact .storing hb fun r => next _

theorem shaped_thread {req : Request} (mem : req ∈ reqs)
    (noRecord : ∀ w tid proof, req ≠ .recordProof w tid proof) :
    Shaped env (Submitted env reqs) (thread env req) := by
  unfold thread
  split
  · next h hh =>
    have calls : h.run.Sat (Request.Calls env req) (fun _ _ => True) fun _ => True :=
      (Request.handler_sat hh).mono (fun _ call => call) (fun _ _ hr => hr) fun _ _ => trivial
    exact (shaped_lower (fun op call => calls_carryOut mem noRecord call) calls).bind fun _ => .ret _
  · exact .ret none

/-- The file has all of `bytes`, or a store of it is at an offset up to which it has. -/
def Reaches (u : Threads) (rid : String) (bytes : Bytes) : Prop :=
  ∃ o, (∀ o' b, o' < o → bytes[o']? = some b → .write rid o' b ∈ since rid u.shared.log) ∧
    (bytes.length ≤ o ∨ ∃ (i : Nat) (f : Except String Unit → _), o < bytes.length ∧
      u.threads[i]? = some (writeAll rid o (bytes.drop o) >>= f))

theorem writeAll_cons (rid : String) {o : Nat} {bytes : Bytes} (inside : o < bytes.length) :
    ∃ k : Except String Unit → Program FileOp FileOp.Response (Except String Unit),
      writeAll rid o (bytes.drop o) = .call (.write rid o bytes[o]) k ∧
      k (.ok ()) = writeAll rid (o + 1) (bytes.drop (o + 1)) ∧
      ∀ e, k (.error e) = .ret (.error e) := by
  have split : bytes.drop o = bytes[o] :: bytes.drop (o + 1) := List.drop_eq_getElem_cons inside
  simp only [split]
  exact ⟨_, rfl, rfl, fun _ => rfl⟩

theorem shaped_writeAll {hashed : Bytes → Prop} {α : Type} {bytes : Bytes}
    {f : Except String Unit → Program FileOp FileOp.Response α} (h : hashed bytes)
    (next : ∀ r, Shaped env hashed (f r)) (o : Nat) :
    Shaped env hashed (writeAll (genResourceId env bytes) o (bytes.drop o) >>= f) := by
  by_cases inside : o < bytes.length
  · exact .writing h inside next
  · rw [List.drop_eq_nil_of_le (by omega)]
    exact next _

/-- The next call of a program of this shape, and how it goes on. -/
inductive NextCall (env : Extern) (hashed : Bytes → Prop) {α : Type} :
    (op : FileOp) → (op.Response → Program FileOp FileOp.Response α) → Prop
  | whole {op : Op} {k : op.Response → Program FileOp FileOp.Response α}
      (next : ∀ r, Shaped env hashed (k r)) : NextCall env hashed (.whole op) k
  | create {bytes : Bytes} {k f : Except String Unit → Program FileOp FileOp.Response α}
      (h : hashed bytes) (next : ∀ r, Shaped env hashed (f r))
      (ok : k (.ok ()) = writeAll (genResourceId env bytes) 0 (bytes.drop 0) >>= f)
      (error : ∀ e, k (.error e) = f (.error e)) :
      NextCall env hashed (.create (genResourceId env bytes)) k
  | write {bytes : Bytes} {o : Nat} {k f : Except String Unit → Program FileOp FileOp.Response α}
      (h : hashed bytes) (inside : o < bytes.length) (next : ∀ r, Shaped env hashed (f r))
      (ok : k (.ok ()) = writeAll (genResourceId env bytes) (o + 1) (bytes.drop (o + 1)) >>= f)
      (error : ∀ e, k (.error e) = f (.error e)) :
      NextCall env hashed (.write (genResourceId env bytes) o bytes[o]) k

theorem Shaped.nextCall {hashed : Bytes → Prop} {α : Type} {op : FileOp}
    {k : op.Response → Program FileOp FileOp.Response α} (h : Shaped env hashed (.call op k)) :
    NextCall env hashed op k := by
  generalize same : Program.call op k = p at h
  cases h with
  | ret a => cases same
  | whole leaves next =>
    cases same
    exact .whole next
  | storing hb next =>
    cases same
    exact .create hb next rfl fun _ => rfl
  | @writing bytes o f hb inside next =>
    obtain ⟨k', unfolded, ok, error⟩ := writeAll_cons (genResourceId env bytes) inside
    rw [unfolded] at same
    cases same
    refine .write hb inside next (congrArg (· >>= f) ok) ?_
    intro e
    exact congrArg (· >>= f) (error e)

theorem NextCall.shaped {hashed : Bytes → Prop} {α : Type} {op : FileOp}
    {k : op.Response → Program FileOp FileOp.Response α} (h : NextCall env hashed op k)
    (r : op.Response) : Shaped env hashed (k r) := by
  cases h with
  | whole next => exact next r
  | create hb next ok error =>
    cases r with
    | error e => exact error e ▸ next _
    | ok _ => exact ok ▸ shaped_writeAll hb next 0
  | write hb inside next ok error =>
    cases r with
    | error e => exact error e ▸ next _
    | ok _ => exact ok ▸ shaped_writeAll hb next _

theorem step_shaped {u v : Threads} {a : Nat × Choice} {hashed : Bytes → Prop}
    (h : step u a = some v) (shaped : ∀ p ∈ u.threads, Shaped env hashed p) :
    ∀ p ∈ v.threads, Shaped env hashed p := by
  obtain ⟨i, ch⟩ := a
  obtain ⟨op, k, here, rfl⟩ := Pool.step_some.mp h
  intro p hp
  rcases List.mem_or_eq_of_mem_set hp with hp | rfl
  · exact shaped p hp
  · exact (shaped _ (List.mem_of_getElem? here)).nextCall.shaped _

/-- A call that is no write of the file, and after which all its pieces are still there. -/
theorem Reaches.frame {u : Threads} {rid : String} {bytes : Bytes} {i : Nat} {op : FileOp}
    {k : op.Response → Program FileOp FileOp.Response (Option Answer)}
    {p : Program FileOp FileOp.Response (Option Answer)} {d : Disk} (reaches : Reaches u rid bytes)
    (here : u.threads[i]? = some (.call op k)) (next : ∀ o b, op ≠ .write rid o b)
    (kept : ∀ piece ∈ since rid u.shared.log, piece ∈ since rid d.log) :
    Reaches ⟨d, u.threads.set i p⟩ rid bytes := by
  obtain ⟨o, written, ending⟩ := reaches
  refine ⟨o, fun o' b before piece => kept _ (written o' b before piece), ?_⟩
  rcases ending with all | ⟨j, f, inside, there⟩
  · exact Or.inl all
  · refine Or.inr ⟨j, f, inside, ?_⟩
    rw [List.getElem?_set_ne, there]
    rintro rfl
    obtain ⟨k', unfolded, -, -⟩ := writeAll_cons rid inside
    rw [here, unfolded] at there
    cases there
    exact next _ _ rfl

theorem step_reaches {u v : Threads} {a : Nat × Choice} {hashed : Bytes → Prop}
    (ids : NoCollision env hashed) (h : step u a = some v) (unfailing : Unfailing u a)
    (shaped : ∀ p ∈ u.threads, Shaped env hashed p)
    (reaches : ∀ bytes, hashed bytes → .create (genResourceId env bytes) ∈ u.shared.log →
      Reaches u (genResourceId env bytes) bytes) :
    ∀ bytes, hashed bytes → .create (genResourceId env bytes) ∈ v.shared.log →
      Reaches v (genResourceId env bytes) bytes := by
  obtain ⟨i, ch⟩ := a
  obtain ⟨op, k, here, rfl⟩ := Pool.step_some.mp h
  have inside := (List.getElem?_eq_some_iff.mp here).1
  intro bytes hb created
  cases (shaped _ (List.mem_of_getElem? here)).nextCall with
  | whole next => exact (reaches bytes hb created).frame here (by simp) fun _ kept => kept
  | @create bytes' _ f hb' next ok error =>
    cases fails : ch.fails with
    | some e =>
      simp only [act, fails] at created ⊢
      exact (reaches bytes hb created).frame here (by simp) fun _ kept => kept
    | none =>
      simp only [act, fails] at created ⊢
      by_cases same : genResourceId env bytes = genResourceId env bytes'
      · obtain rfl := ids bytes bytes' hb hb' same
        refine ⟨0, by simp, ?_⟩
        by_cases some_bytes : 0 < bytes.length
        · refine Or.inr ⟨i, f, some_bytes, ?_⟩
          rw [List.getElem?_set_self inside, ok]
        · exact Or.inl (by omega)
      · have other : FileOp.create (genResourceId env bytes') ≠ .create (genResourceId env bytes) := by
          simpa [eq_comm] using same
        have before : .create (genResourceId env bytes) ∈ u.shared.log :=
          (List.mem_cons.mp created).resolve_left (Ne.symm other)
        apply (reaches bytes hb before).frame here (by simp)
        intro piece kept
        rw [since_cons other]
        exact List.mem_cons_of_mem _ kept
  | @write bytes' o _ f hb' more next ok error =>
    have fails : ch.fails = none := unfailing _ _ _ _ here rfl
    simp only [act, fails] at created ⊢
    have before : .create (genResourceId env bytes) ∈ u.shared.log :=
      (List.mem_cons.mp created).resolve_left (by simp)
    have kept : ∀ piece ∈ since (genResourceId env bytes) u.shared.log, piece ∈
        since (genResourceId env bytes)
          (.write (genResourceId env bytes') o bytes'[o] :: u.shared.log) := by
      intro piece kept
      rw [since_cons (by simp)]
      exact List.mem_cons_of_mem _ kept
    by_cases same : genResourceId env bytes = genResourceId env bytes'
    · obtain rfl := ids bytes bytes' hb hb' same
      obtain ⟨o₁, written, ending⟩ := reaches bytes hb before
      have still (o' : Nat) (b : UInt8) (h : o' < o₁) (piece : bytes[o']? = some b) :
          .write (genResourceId env bytes) o' b ∈ since (genResourceId env bytes)
            (.write (genResourceId env bytes) o bytes[o] :: u.shared.log) :=
        kept _ (written o' b h piece)
      rcases ending with all | ⟨j, f', inside', there⟩
      · exact ⟨o₁, still, Or.inl all⟩
      · by_cases mine : i = j
        · subst mine
          obtain ⟨k', unfolded, -, -⟩ := writeAll_cons (genResourceId env bytes) inside'
          rw [here, unfolded] at there
          cases there
          refine ⟨o + 1, ?_, ?_⟩
          · intro o' b h piece
            by_cases last : o' = o
            · subst last
              rw [List.getElem?_eq_getElem more] at piece
              cases piece
              rw [since_cons (by simp)]
              exact List.mem_cons_self
            · exact still o' b (by omega) piece
          · by_cases further : o + 1 < bytes.length
            · refine Or.inr ⟨i, f, further, ?_⟩
              rw [List.getElem?_set_self inside]
              exact congrArg some ok
            · exact Or.inl (by omega)
        · refine ⟨o₁, still, Or.inr ⟨j, f', inside', ?_⟩⟩
          rw [List.getElem?_set_ne mine, there]
    · apply (reaches bytes hb before).frame here
      · intro o' b
        simp [Ne.symm same]
      · exact kept

theorem run_reaches {root : String} {tasks : DbOps.Tasks} {as : List (Nat × Choice)} {u : Threads}
    (ids : NoCollision env (Submitted env reqs))
    (noRecords : ∀ req ∈ reqs, ∀ w tid proof, req ≠ .recordProof w tid proof)
    (run : Runs.run step (start env reqs root tasks) as = some u)
    (unfailing : Runs.Along step Unfailing (start env reqs root tasks) as) :
    ∀ bytes, Submitted env reqs bytes → .create (genResourceId env bytes) ∈ u.shared.log →
      Reaches u (genResourceId env bytes) bytes := by
  have shaped : ∀ p ∈ (start env reqs root tasks).threads, Shaped env (Submitted env reqs) p := by
    intro p hp
    obtain ⟨req, mem, rfl⟩ := List.mem_map.mp hp
    exact shaped_thread mem (noRecords req mem)
  have both := Runs.invariant_along (I := fun u => (∀ p ∈ u.threads, Shaped env (Submitted env reqs) p) ∧
      ∀ bytes, Submitted env reqs bytes → .create (genResourceId env bytes) ∈ u.shared.log →
        Reaches u (genResourceId env bytes) bytes)
    run ⟨shaped, by simp [start]⟩ unfailing ?_
  · exact both.2
  · intro u a v before ok h
    exact ⟨step_shaped h before.1, step_reaches ids h ok before.1 before.2⟩

/-- What `has_resource` finds is complete, where no write has failed so far and no store of
the id is under way. -/
theorem found_complete {root : String} {tasks : DbOps.Tasks} {as : List (Nat × Choice)} {u : Threads}
    {rid : String} (ids : NoCollision env (Submitted env reqs))
    (noRecords : ∀ req ∈ reqs, ∀ w tid proof, req ≠ .recordProof w tid proof)
    (run : Runs.run step (start env reqs root tasks) as = some u)
    (unfailing : Runs.Along step Unfailing (start env reqs root tasks) as)
    (ended : ¬ UnderWay u rid) (found : u.shared.server.resources.hasResource rid = true) :
    Complete env reqs u.shared rid := by
  have kept := run_kept ids noRecords run
  obtain ⟨content, file⟩ := ResourceStore.hasResource_iff.mp found
  have file : u.shared.files rid = some content := file
  obtain ⟨bytes, submitted, rfl, -⟩ := kept.pieces rid content file
  have created : .create (genResourceId env bytes) ∈ u.shared.log := by
    by_contra absent
    rw [(kept.created _).mpr absent] at file
    cases file
  obtain ⟨o, written, all | ⟨i, f, inside, there⟩⟩ :=
    run_reaches ids noRecords run unfailing bytes submitted created
  · refine (kept.complete_iff ids).mpr ⟨bytes, submitted, rfl, created, ?_⟩
    intro o' b piece _
    have before := (List.getElem?_eq_some_iff.mp piece).1
    exact written o' b (by omega) piece
  · obtain ⟨k, unfolded, -, -⟩ := writeAll_cons (genResourceId env bytes) inside
    rw [unfolded] at there
    exact absurd ⟨_, List.mem_of_getElem? there, o, _, rfl⟩ ended

end

/-- The first submission stores its bytes to the end, and the second one finds them. -/
def storedOnce : List (Nat × Choice) :=
  List.replicate ((asBytes Demo.text).length + 4) (0, fine) ++ List.replicate 2 (1, fine)

theorem found_complete_demo : ∃ u,
    Runs.run step (start Demo.env retried "" Table.empty) storedOnce = some u ∧
    u.shared.server.resources.hasResource Demo.resourceId = true ∧
    Complete Demo.env retried u.shared Demo.resourceId := by
  have ran : ((Runs.run step (start Demo.env retried "" Table.empty) storedOnce).map fun u =>
      (u.shared.server.resources.hasResource Demo.resourceId,
        u.threads.all fun p => p.next.isNone)) = some (true, true) := by
    decide +kernel
  obtain ⟨u, run, seen⟩ := Option.map_eq_some_iff.mp ran
  obtain ⟨found, ended⟩ := Prod.mk.inj seen
  have unfailing : Runs.Along step Unfailing (start Demo.env retried "" Table.empty) storedOnce := by
    apply Runs.along_of_mem
    intro a member t p rid o b _ _
    rcases List.mem_append.mp member with member | member
    · rw [List.eq_of_mem_replicate member]
      rfl
    · rw [List.eq_of_mem_replicate member]
      rfl
  have idle : ¬ UnderWay u Demo.resourceId := by
    rintro ⟨p, hp, o, b, writes⟩
    have finished := List.all_eq_true.mp ended p hp
    rw [writes] at finished
    cases finished
  exact ⟨u, run, found, found_complete retried_ids retried_noRecords run unfailing idle found⟩

end Disk

end GpuProxy
