import GpuProxy.Statements

/-!
# Statements for every run

The other way round: what the system does where each `fetch_one_todo` sees the table as it is,
the statements can do. Its transactions then run one after the other, so none of them waits.
What workers can still bring about in the system, they can bring about statement by statement.
-/

namespace GpuProxy

namespace SqlSystem

variable {env : Extern} {d : SqlSystem env}

/-- Every transaction has come to its end. -/
structure Quiet (d : SqlSystem env) : Prop where
  sound : Sound d
  ended : ∀ txn ∈ d.txns, txn.phase.open = false

/-- The storage call of an action. -/
def served : System.Action env → Option (Nat × Choice)
  | .serve call ch => some (call, ch)
  | _ => none

/-- A `fetch_one_todo` that the database does not fail sees the table as it is. -/
def Current (s : System env) (a : System.Action env) : Prop :=
  ∀ p ∈ served a, ∀ op ∈ s.next p.1, op.isTransaction = true → p.2.fails = none →
    p.2.selected = s.server.selects op

instance (s : System env) (a : System.Action env) : Decidable (Current s a) :=
  inferInstanceAs (Decidable (∀ p ∈ served a, ∀ op ∈ s.next p.1, op.isTransaction = true →
    p.2.fails = none → p.2.selected = s.server.selects op))

theorem holds_ended {phase : Dispatch.Phase} (ended : phase.open = false) :
    phase.holds = none := by
  cases phase with
  | committed | failed => rfl
  | begun | selected | updated | reread => cases ended

theorem Quiet.busy (quiet : d.Quiet) (call : Nat) : d.busy call = false := by
  apply Bool.eq_false_iff.mpr
  intro busy
  obtain ⟨⟨txn, caller⟩, there, running⟩ := List.any_eq_true.mp busy
  simp [quiet.ended txn (List.of_mem_zip there).1] at running

theorem Quiet.locked (quiet : d.Quiet) (tid : String) : d.db.locked tid = false := by
  apply Bool.eq_false_iff.mpr
  intro locked
  obtain ⟨txn, there, holds⟩ := List.any_eq_true.mp locked
  simp [holds_ended (quiet.ended txn there)] at holds

/-- One more transaction, which runs for the call. -/
def running (d : SqlSystem env) (call : Nat) (workerId : String) (types : Option (List TaskType))
    (phase : Dispatch.Phase) : SqlSystem env :=
  { d with txns := d.txns ++ [⟨workerId, types, phase⟩], callers := d.callers ++ [call] }

section
variable {call : Nat} {workerId : String} {types : Option (List TaskType)}
  {phase phase' : Dispatch.Phase} {a : Dispatch.Action}

theorem running_get : (d.running call workerId types phase).db.txns[d.txns.length]? =
    some ⟨workerId, types, phase⟩ := List.getElem?_concat_length

theorem running_caller (sound : Sound d) :
    (d.running call workerId types phase).callers[d.txns.length]? = some call := by
  rw [← sound.callers]
  exact List.getElem?_concat_length

theorem running_setPhase : (d.running call workerId types phase).db.setPhase d.txns.length
    ⟨workerId, types, phase⟩ phase' = (d.running call workerId types phase').db := by
  simp [Dispatch.Db.setPhase, db, running]

theorem running_moves (sound : Sound d) (act : a.txn = some d.txns.length)
    (moved : Dispatch.step (d.running call workerId types phase).db a =
      some (d.running call workerId types phase').db) (opened : phase'.answer = none) :
    (d.running call workerId types phase).step (.statement a) =
      some (d.running call workerId types phase') := by
  have answer : (d.running call workerId types phase').db.answer d.txns.length = none := by
    simp only [Dispatch.Db.answer, running_get, Option.bind_some, opened]
  simp only [step, act, Option.bind_eq_bind, Option.bind_some, running_caller sound, moved, settle,
    answer]
  rfl

/-- The statement that ends the transaction has the call go on as `fetch_one_todo` would. -/
theorem running_ends {c : Call} (ch : Choice) {answer : Except String Task}
    {k : Op.Response (.fetchOneTodo workerId types) → Program Op Op.Response Answer}
    {db' : Dispatch.Db} (quiet : d.Quiet) (get : d.system.calls[call]? = some c)
    (program : c.program = some (.call (.fetchOneTodo workerId types) k))
    (held : Sound (d.running call workerId types phase)) (act : a.txn = some d.txns.length)
    (moved : Dispatch.step (d.running call workerId types phase).db a = some db')
    (same : db'.txns = (d.running call workerId types phase').db.txns)
    (ended : phase'.answer = some answer)
    (called : d.system.server.act ch (.fetchOneTodo workerId types) =
      (answer, ⟨db'.tasks, d.system.server.resources⟩)) :
    ∃ d', (d.running call workerId types phase).step (.statement a) = some d' ∧
      d'.system = d.system.serve call ch c (.fetchOneTodo workerId types) k ∧ d'.Quiet := by
  have answered : db'.answer d.txns.length = some answer := by
    simp only [Dispatch.Db.answer, same, running_get, Option.bind_some, ended]
  have resumed : resume d.system call db'.tasks answer =
      some (d.system.serve call ch c (.fetchOneTodo workerId types) k) := by
    simp only [resume, get, Option.bind_eq_bind, Option.bind_some, program, System.serve, called]
  have stepped : (d.running call workerId types phase).step (.statement a) =
      some { d.running call workerId types phase with
        system := d.system.serve call ch c (.fetchOneTodo workerId types) k
        past := db'.past, txns := db'.txns } := by
    simp only [step, act, Option.bind_eq_bind, Option.bind_some, running_caller quiet.sound, moved,
      settle, answered]
    change (resume d.system call db'.tasks answer).bind _ = _
    rw [resumed]
    rfl
  refine ⟨_, stepped, rfl, step_sound held stepped, ?_⟩
  intro txn there
  change txn ∈ db'.txns at there
  rw [same] at there
  cases List.mem_append.mp there with
  | inl old => exact quiet.ended txn old
  | inr last =>
    cases List.mem_singleton.mp last
    cases phase' with
    | committed | failed => rfl
    | begun | selected | updated | reread => cases ended

theorem begins (quiet : d.Quiet)
    (next : d.system.next call = some (.fetchOneTodo workerId types)) :
    d.step (.begin call) = some (d.running call workerId types .begun) := by
  simp only [step, next, quiet.busy, Bool.false_eq_true, ↓reduceIte]
  rfl

theorem Quiet.free (quiet : d.Quiet) (tid : String) {undoTask : Task} :
    (d.running call workerId types (.selected undoTask)).db.locked tid = false := by
  have others : (d.txns.any fun txn => decide (txn.phase.holds = some tid)) = false :=
    quiet.locked tid
  change ((d.txns ++ [(⟨workerId, types, .selected undoTask⟩ : Dispatch.Txn)]).any fun txn =>
    decide (txn.phase.holds = some tid)) = false
  rw [List.any_append, others]
  rfl

/-! ## One transaction by itself -/

theorem select_none (none_left : DbOps.selectTodo types d.system.server.tasks = none) :
    Dispatch.step (d.running call workerId types .begun).db (.select d.txns.length 0) =
      some (d.running call workerId types
        (.failed (DbOps.recordNotFound "no task to do for worker"))).db := by
  have seen : DbOps.selectTodo types (d.running call workerId types .begun).db.tasks = none := none_left
  simp only [Dispatch.step, running_get, List.getElem?_cons_zero, Option.bind_eq_bind,
    Option.bind_some, seen, running_setPhase]

theorem select_some {undoTask : Task}
    (todo : DbOps.selectTodo types d.system.server.tasks = some undoTask) :
    Dispatch.step (d.running call workerId types .begun).db (.select d.txns.length 0) =
      some (d.running call workerId types (.selected undoTask)).db := by
  have seen : DbOps.selectTodo types (d.running call workerId types .begun).db.tasks = some undoTask :=
    todo
  simp only [Dispatch.step, running_get, List.getElem?_cons_zero, Option.bind_eq_bind,
    Option.bind_some, seen, running_setPhase]

theorem update_init (quiet : d.Quiet) (now : Int) {undoTask row : Task}
    (found : d.system.server.tasks.find undoTask.id = some row) (init : row.state = .init) :
    Dispatch.step (d.running call workerId types (.selected undoTask)).db
        (.update d.txns.length now) =
      some (d.running call workerId types
        (.updated undoTask (some (DbOps.setRunning now workerId row)))).db := by
  have affected : (DbOps.claim now workerId undoTask.id
      (d.running call workerId types (.selected undoTask)).db.tasks).1 ≠ 0 :=
    DbOps.claim_affected.mpr ⟨row, found, init⟩
  have version : (DbOps.claim now workerId undoTask.id
      (d.running call workerId types (.selected undoTask)).db.tasks).2.find undoTask.id =
        some (DbOps.setRunning now workerId row) := by
    change (DbOps.claim now workerId undoTask.id d.system.server.tasks).2.find undoTask.id = _
    simp [DbOps.find_claim, found, init]
  simp only [Dispatch.step, running_get, Option.bind_eq_bind, Option.bind_some, quiet.free,
    Bool.false_eq_true, ↓reduceIte, if_neg affected, version, running_setPhase]

/-- One storage call for `fetch_one_todo`, carried out by a transaction with nothing in between. -/
theorem fetch_realized {c : Call} {ch : Choice}
    {k : Op.Response (.fetchOneTodo workerId types) → Program Op Op.Response Answer}
    (quiet : d.Quiet) (get : d.system.calls[call]? = some c)
    (program : c.program = some (.call (.fetchOneTodo workerId types) k))
    (current : ch.fails = none → ch.selected = DbOps.selectTodo types d.system.server.tasks) :
    ∃ es d', Runs.run step d es = some d' ∧
      d'.system = d.system.serve call ch c (.fetchOneTodo workerId types) k ∧ d'.Quiet := by
  let i := d.txns.length
  have next : d.system.next call = some (.fetchOneTodo workerId types) := by
    simp [System.next, get, program]
  have begun := begins quiet next
  have sound := step_sound quiet.sound begun
  cases fails : ch.fails with
  | some e =>
    have moved : Dispatch.step (d.running call workerId types .begun).db (.abort i e) =
        some (d.running call workerId types (.failed e)).db := by
      simp only [Dispatch.step, i, running_get, Option.bind_eq_bind, Option.bind_some,
        running_setPhase]
      rfl
    obtain ⟨d', ends, same, quiet'⟩ := running_ends ch quiet get program sound rfl moved rfl rfl
      (Server.act_fails fails)
    exact ⟨[.begin call, .statement (.abort i e)], d', by simp [Runs.run, begun, ends], same, quiet'⟩
  | none =>
    have selected := current fails
    cases todo : DbOps.selectTodo types d.system.server.tasks with
    | none =>
      have called : d.system.server.act ch (.fetchOneTodo workerId types) =
          (.error (DbOps.recordNotFound "no task to do for worker"), d.system.server) := by
        rw [Server.act_performs fails]
        simp only [Server.perform, selected, todo]
        rfl
      obtain ⟨d', ends, same, quiet'⟩ := running_ends ch quiet get program sound rfl
        (select_none todo) rfl rfl called
      exact ⟨[.begin call, .statement (.select i 0)], d', by simp [Runs.run, begun, i, ends], same,
        quiet'⟩
    | some undoTask =>
      obtain ⟨found, isTodo, -⟩ := DbOps.selectTodo_some todo
      let task := DbOps.setRunning ch.now workerId undoTask
      have sees : (d.running call workerId types .begun).step (.statement (.select i 0)) =
          some (d.running call workerId types (.selected undoTask)) :=
        running_moves quiet.sound rfl (select_some todo) rfl
      have updates : (d.running call workerId types (.selected undoTask)).step
          (.statement (.update i ch.now)) =
            some (d.running call workerId types (.updated undoTask (some task))) :=
        running_moves quiet.sound rfl
          (update_init quiet ch.now found (DbOps.isTodo_init isTodo)) rfl
      have rereads : (d.running call workerId types (.updated undoTask (some task))).step
          (.statement (.reread i)) = some (d.running call workerId types (.reread undoTask task)) := by
        apply running_moves quiet.sound rfl ?_ rfl
        simp only [Dispatch.step, i, running_get, Option.bind_eq_bind, Option.bind_some,
          running_setPhase]
      have held := step_sound (step_sound (step_sound sound sees) updates) rereads
      let db' : Dispatch.Db := { (d.running call workerId types (.committed task)).db with
        tasks := Dispatch.install task d.system.server.tasks
        past := d.system.server.tasks :: d.past }
      have commits : Dispatch.step (d.running call workerId types (.reread undoTask task)).db
          (.commit i) = some db' := by
        simp only [Dispatch.step, i, running_get, Option.bind_eq_bind, Option.bind_some,
          running_setPhase]
        rfl
      have ended : db'.answer i = some (.ok task) := by
        simp only [Dispatch.Db.answer, db', i, running_get, Option.bind_some]
        rfl
      have choice : ch = ⟨ch.now, none, some undoTask⟩ := by
        rw [← fails, ← todo, ← selected]
      have called := (ends_call d.system.server.resources held.db rfl running_get commits ended).2
      obtain ⟨d', ends, same, quiet'⟩ := running_ends ch quiet get program held rfl commits rfl rfl
        (by rw [choice]; exact called)
      refine ⟨[.begin call, .statement (.select i 0), .statement (.update i ch.now),
        .statement (.reread i), .statement (.commit i)], d', ?_, same, quiet'⟩
      simp [Runs.run, begun, i, sees, updates, rereads, ends]

end

theorem Quiet.waits (quiet : d.Quiet) {a : System.Action env} (waits : d.waits a = true) :
    ∃ call ch workerId types, a = .serve call ch ∧
      d.system.next call = some (.fetchOneTodo workerId types) := by
  cases a with
  | serve call ch =>
    simp only [SqlSystem.waits] at waits
    split at waits
    · next op next =>
      have unlocked : op.touches.any d.db.locked = false := by
        apply Bool.eq_false_iff.mpr
        intro locked
        obtain ⟨tid, -, held⟩ := List.any_eq_true.mp locked
        rw [quiet.locked] at held
        cases held
      rw [unlocked, Bool.and_false, Bool.or_false] at waits
      cases op with
      | fetchOneTodo workerId types => exact ⟨call, ch, workerId, types, rfl, next⟩
      | _ => cases waits
    · cases waits
  | _ => cases waits

theorem step_realized {s : System env} {a : System.Action env} (quiet : d.Quiet)
    (current : Current d.system a) (h : d.system.step a = some s) :
    ∃ es d', Runs.run step d es = some d' ∧ d'.system = s ∧ d'.Quiet := by
  by_cases waits : d.waits a = true
  · obtain ⟨call, ch, workerId, types, rfl, next⟩ := quiet.waits waits
    have sees := current (call, ch) rfl (.fetchOneTodo workerId types) next rfl
    cases System.step_cases h with
    | serve get program =>
      simp only [System.next, get, program, Option.bind_some, Program.next_call,
        Option.some.injEq] at next
      subst next
      exact fetch_realized quiet get program sees
  · have stepped : d.step (.act a) = some { d with system := s, past := d.pastAfter a } := by
      simp only [step, waits, Bool.false_eq_true, ↓reduceIte, h, Option.map_some]
    exact ⟨[.act a], _, by simp [Runs.run, stepped], rfl, step_sound quiet.sound stepped, quiet.ended⟩

/-- A run of the system in which each `fetch_one_todo` sees the table as it is comes of
statements as well: those of one transaction after the other, with all other steps in between. -/
theorem statements_realize {s t : System env} {as : List (System.Action env)}
    (run : Runs.run System.step s as = some t) (current : Runs.Along System.step Current s as) :
    ∃ es d, Runs.run step (start s) es = some d ∧ d.system = t ∧ d.Quiet :=
  Runs.exists_run_along SqlSystem.system (fun _ _ _ quiet current h => step_realized quiet current h)
    run ⟨start_sound s, by simp [start]⟩ current

/-- A worker fetches the task that waits. -/
def oneFetch : List (System.Action Demo.env) :=
  [.request (.fetchTodo "w1" none), .serve 0 ⟨5, none, Demo.waiting⟩]

theorem statements_realize_demo : ∃ (t : System Demo.env) (es : List (Event Demo.env))
    (d : SqlSystem Demo.env),
    Runs.run System.step (System.idle (Demo.queued [])) oneFetch = some t ∧
    Runs.run step (start (System.idle (Demo.queued []))) es = some d ∧ d.system = t := by
  have ran : (Runs.run System.step (System.idle (Demo.queued [])) oneFetch).isSome := by
    decide +kernel
  obtain ⟨t, run⟩ := Option.isSome_iff_exists.mp ran
  have checked (s : System Demo.env) (a : System.Action Demo.env) :
      decide (Current s a) = true → Current s a := of_decide_eq_true
  have current : Runs.Along System.step Current (System.idle (Demo.queued [])) oneFetch :=
    Runs.along_of_check checked (by decide +kernel)
  obtain ⟨es, d, run', same, -⟩ := statements_realize run current
  exact ⟨t, es, d, run, run', same⟩

end SqlSystem

end GpuProxy
