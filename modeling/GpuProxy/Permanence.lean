import GpuProxy.System

/-!
# What a stored task keeps

No storage call deletes a row or sets the columns a submission gives it, and only one hands
a task out. What a task can have gone through is accounted for by the log: a hand-out uses
up the one chance that its submission, or an `UPDATE` to `Init`, has given it.
-/

namespace GpuProxy

/-- What a submission says of a task, and when it came. -/
structure Submission where
  miner : String
  taskType : TaskType
  resourceId : String
  comment : String
  createAt : Int
  deriving DecidableEq, Repr

def Task.submission (t : Task) : Submission :=
  ⟨t.miner, t.taskType, t.resourceId, t.comment, t.createAt⟩

/-- Whether the task can be handed out as it is, or once it is submitted. -/
def chances : Option Task → Nat
  | some row => if row.state = .init then 1 else 0
  | none => 1

namespace Op

def handsOut (tid : String) : (op : Op) → op.Response → Bool
  | .fetchOneTodo _ _, .ok t => decide (t.id = tid)
  | _, _ => false

def revives (tid : String) : (op : Op) → op.Response → Bool
  | .updateStatusById tids .init, .ok _ => tids.contains tid
  | _, _ => false

end Op

namespace Server

variable {ch : Choice} {op : Op} {s : Server} {tid : String} {row : Task}

@[simp] theorem writes_submission (now : Int) (op : Op) (res : op.Response) (row : Task) :
    (Writes now op res row).submission = row.submission := by
  unfold Writes
  split
  any_goals rfl
  all_goals split <;> rfl

/-- A hand-out uses up the chance of a row that is there. -/
theorem chances_writes (found : s.tasks.find tid = some row) :
    (op.handsOut tid (act ch op s).1).toNat + chances (some (Writes ch.now op (act ch op s).1 row)) ≤
      (op.revives tid (act ch op s).1).toNat + chances (some row) := by
  have hid := DbOps.find_id found
  cases op with
  | fetchOneTodo w types =>
    cases response : (act ch (.fetchOneTodo w types) s).1 with
    | error e => simp [Op.handsOut, Op.revives, Writes]
    | ok t =>
      obtain ⟨old, there, init, -, -⟩ := act_fetchOneTodo_ok response
      by_cases same : t.id = tid
      · rw [same, found] at there
        cases there
        simp [Op.handsOut, Op.revives, Writes, chances, same, hid, init, DbOps.setRunning]
      · have other : row.id ≠ t.id := fun equal => same (equal.symm.trans hid)
        simp [Op.handsOut, Op.revives, Writes, same, other]
  | recordError w tid' msg =>
    cases response : (act ch (.recordError w tid' msg) s).1 with
    | error e => simp [Op.handsOut, Op.revives, Writes]
    | ok r =>
      by_cases same : row.id = tid'
      · simp [Op.handsOut, Op.revives, Writes, chances, same, DbOps.setError]
      · simp [Op.handsOut, Op.revives, Writes, same]
  | recordProof w tid' proof =>
    cases response : (act ch (.recordProof w tid' proof) s).1 with
    | error e => simp [Op.handsOut, Op.revives, Writes]
    | ok r =>
      by_cases same : row.id = tid'
      · simp [Op.handsOut, Op.revives, Writes, chances, same, DbOps.setCompleted]
      · simp [Op.handsOut, Op.revives, Writes, same]
  | updateStatusById tids status =>
    cases response : (act ch (.updateStatusById tids status) s).1 with
    | error e => simp [Op.handsOut, Op.revives, Writes]
    | ok r =>
      by_cases named : tid ∈ tids
      · cases status <;> simp [Op.handsOut, Op.revives, Writes, chances, named, hid, DbOps.setState]
      · simp [Op.handsOut, Op.revives, Writes, named, hid]
  | _ => simp [Op.handsOut, Op.revives, Writes]

theorem act_chances (ch : Choice) (op : Op) (s : Server) (tid : String) :
    (op.handsOut tid (act ch op s).1).toNat + chances ((act ch op s).2.tasks.find tid) ≤
      (op.revives tid (act ch op s).1).toNat + chances (s.tasks.find tid) := by
  cases found : s.tasks.find tid with
  | some row =>
    rw [act_find_some ch op found]
    exact chances_writes found
  | none =>
    have kept : op.handsOut tid (act ch op s).1 = false := by
      cases op with
      | fetchOneTodo w types =>
        cases response : (act ch (.fetchOneTodo w types) s).1 with
        | error e => rfl
        | ok t =>
          obtain ⟨old, there, -⟩ := act_fetchOneTodo_ok response
          by_cases same : t.id = tid
          · rw [same, found] at there
            cases there
          · simp [Op.handsOut, same]
      | _ => rfl
    have one : ∀ o, chances o ≤ 1 := by
      intro o
      unfold chances
      split
      · split <;> omega
      · omega
    simp only [kept, Bool.toNat_false, Nat.zero_add]
    exact (one _).trans (Nat.le_add_left _ _)

end Server

theorem countP_cons_toNat {α : Type} (p : α → Bool) (a : α) (l : List α) :
    (a :: l).countP p = l.countP p + (p a).toNat := by
  cases counted : p a <;> simp [counted]

def Served.handsOut (tid : String) (e : Served) : Bool := e.op.handsOut tid e.res

def Served.revives (tid : String) (e : Served) : Bool := e.op.revives tid e.res

namespace System

variable {env : Extern} {s t : System env} {as : List (Action env)} {tid : String}

/-- What has come to pass for a task since `s`. -/
structure Since (s : System env) (tid : String) (t : System env) : Prop where
  kept : ∀ row, s.server.tasks.find tid = some row →
    ∃ row', t.server.tasks.find tid = some row' ∧ row'.submission = row.submission
  accounted : ∃ new, t.log = new ++ s.log ∧
    new.countP (Served.handsOut tid) + chances (t.server.tasks.find tid) ≤
      new.countP (Served.revives tid) + chances (s.server.tasks.find tid)

theorem step_since {u : System env} {a : Action env} (since : s.Since tid t) (h : t.step a = some u) :
    s.Since tid u := by
  obtain ⟨new, logged, bound⟩ := since.accounted
  obtain ⟨server, log, -⟩ | ⟨call, ch, op, -, server, log⟩ := step_server h
  · refine ⟨?_, new, by rw [log, logged], by rw [server]; exact bound⟩
    rw [server]
    exact since.kept
  · refine ⟨?_, ⟨call, op, (t.server.act ch op).1⟩ :: new, by rw [log, logged, List.cons_append], ?_⟩
    · intro row found
      obtain ⟨row', found', same⟩ := since.kept row found
      rw [server]
      exact ⟨_, Server.act_find_some ch op found', by rw [Server.writes_submission, same]⟩
    · have step := Server.act_chances ch op t.server tid
      rw [server]
      simp only [countP_cons_toNat, Served.handsOut, Served.revives] at bound ⊢
      omega

/-- Whatever is sent to the server, whoever crashes and whatever the command line sets: a stored
task stays, with all it was submitted with, and since any moment it has been handed out at most
once, and once more for each `UPDATE` of it to `Init`. -/
theorem task_kept (run : Runs.run step s as = some t) (tid : String) : s.Since tid t := by
  apply Runs.invariant run
  · exact ⟨fun row found => ⟨row, found, rfl⟩, [], rfl, Nat.le_refl _⟩
  · exact fun _ _ _ since h => step_since since h

/-- The task is handed out, set back and handed out again. -/
def twiceOut : List (Action Demo.env) :=
  [.request (.fetchTodo "w1" none), .serve 0 ⟨1, none, Demo.waiting⟩,
    .request (.updateStatusById ["48bb11f3-3f83-5d9f-ad3c-edd0b5481a6f"] .init), .serve 1 ⟨2, none, none⟩,
    .request (.fetchTodo "w2" none), .serve 2 ⟨3, none, Demo.waiting⟩]

theorem task_kept_demo : ∃ t : System Demo.env, Runs.run step (idle (Demo.queued [])) twiceOut = some t ∧
    t.log.countP (Served.handsOut "48bb11f3-3f83-5d9f-ad3c-edd0b5481a6f") = 2 ∧
    (idle (Demo.queued [])).Since "48bb11f3-3f83-5d9f-ad3c-edd0b5481a6f" t := by
  have ran : (Runs.run step (idle (Demo.queued []) : System Demo.env) twiceOut).map (fun t =>
      t.log.countP (Served.handsOut "48bb11f3-3f83-5d9f-ad3c-edd0b5481a6f")) = some 2 := by
    decide +kernel
  obtain ⟨t, run, twice⟩ := Option.map_eq_some_iff.mp ran
  exact ⟨t, run, twice, task_kept run _⟩

end System

end GpuProxy
