import GpuProxy.DbOps
import GpuProxy.Resource
import GpuProxy.Program

/-!
# Storage calls

The server's state and the calls its handlers make on it. A call is atomic;
`fetchOneTodo` stands for the whole transaction, which `Dispatch` justifies
statement by statement.
-/

namespace GpuProxy

structure Server where
  tasks : DbOps.Tasks
  resources : ResourceStore

inductive Op where
  | hasResource (resourceId : String)
  | getResourceInfo (resourceId : String)
  | storeResourceInfo (resourceId : String) (resource : Bytes)
  | deleteResource (resourceId : String)
  | hasTask (taskId : String)
  | addTask (taskId miner : String) (taskType : TaskType) (resourceId comment : String)
  | fetch (tid : String)
  | fetchOneTodo (workerId : String) (types : Option (List TaskType))
  | fetchUncompleted (workerId : String)
  | recordError (workerId tid errMsg : String)
  | recordProof (workerId tid : String) (proof : Bytes)
  | updateStatusById (tids : List String) (status : TaskState)
  deriving DecidableEq

abbrev Op.Res : Op → Type
  | .hasResource _ => Bool
  | .getResourceInfo _ => Bytes
  | .storeResourceInfo _ _ => String
  | .deleteResource _ => Unit
  | .hasTask _ => Bool
  | .addTask _ _ _ _ _ => String
  | .fetch _ => Task
  | .fetchOneTodo _ _ => Task
  | .fetchUncompleted _ => List Task
  | .recordError _ _ _ => Unit
  | .recordProof _ _ _ => Unit
  | .updateStatusById _ _ => Unit

abbrev Op.Response (op : Op) : Type := Except String op.Res

/-- What a call does not determine itself: the clock, whether the storage fails
it, and the row the `SELECT` of `fetch_one_todo` saw, perhaps no longer current. -/
structure Choice where
  now : Int
  fails : Option String
  selected : Option Task

namespace Server

def perform (now : Int) (selected : Option Task) : (op : Op) → Server → op.Response × Server
  | .hasResource rid, s => (.ok (s.resources.hasResource rid), s)
  | .getResourceInfo rid, s => (s.resources.getResourceInfo rid, s)
  | .storeResourceInfo rid resource, s =>
    let r := s.resources.storeResourceInfo now rid resource
    (r.1, { s with resources := r.2 })
  | .deleteResource rid, s =>
    let r := s.resources.deleteResource rid
    (r.1, { s with resources := r.2 })
  | .hasTask tid, s => (.ok (DbOps.hasTask tid s.tasks), s)
  | .addTask tid miner ty rid comment, s =>
    let r := DbOps.addTask now tid miner ty rid comment s.tasks
    (r.1, { s with tasks := r.2 })
  | .fetch tid, s => (DbOps.fetch tid s.tasks, s)
  | .fetchOneTodo w types, s =>
    let r := DbOps.fetchSelected now w (selected.filter (DbOps.isTodo types)) s.tasks
    (r.1, { s with tasks := r.2 })
  | .fetchUncompleted w, s => (.ok (DbOps.fetchUncompleted w s.tasks), s)
  | .recordError w tid msg, s => (.ok (), { s with tasks := DbOps.recordError w tid msg s.tasks })
  | .recordProof w tid proof, s =>
    (.ok (), { s with tasks := DbOps.recordProof now w tid proof s.tasks })
  | .updateStatusById tids status, s =>
    (.ok (), { s with tasks := DbOps.updateStatusById tids status s.tasks })

/-- A call that the storage fails changes nothing. -/
def act (ch : Choice) (op : Op) (s : Server) : op.Response × Server :=
  match ch.fails with
  | some e => (.error e, s)
  | none => perform ch.now ch.selected op s

def selects (s : Server) : Op → Option Task
  | .fetchOneTodo _ types => DbOps.selectTodo types s.tasks
  | _ => none

/-- A call with no other one around and no failure: the `SELECT` is current. -/
def serial (now : Int) (op : Op) (s : Server) : op.Response × Server :=
  perform now (s.selects op) op s

def empty (resources : ResourceStore) : Server := ⟨Table.empty, resources⟩

theorem serial_eq_act (now : Int) (op : Op) (s : Server) :
    serial now op s = act ⟨now, none, s.selects op⟩ op s := rfl

theorem serial_fetchOneTodo (now : Int) (w : String) (types : Option (List TaskType)) (s : Server) :
    serial now (.fetchOneTodo w types) s =
      ((DbOps.fetchOneTodo now w types s.tasks).1,
        { s with tasks := (DbOps.fetchOneTodo now w types s.tasks).2 }) := by
  have current : (DbOps.selectTodo types s.tasks).filter (DbOps.isTodo types) =
      DbOps.selectTodo types s.tasks := by
    cases h : DbOps.selectTodo types s.tasks with
    | none => rfl
    | some t => simp [(DbOps.selectTodo_some h).2.1]
  simp only [serial, selects, perform, current, DbOps.fetchOneTodo]

/-! ## What a call does to a task row

`Writes op res row` is the row a call leaves where `row` was; `act_find_some` says
that nothing else happens to rows, apart from `addTask` putting a new one. -/

def Writes (now : Int) : (op : Op) → op.Response → Task → Task
  | .fetchOneTodo w _, .ok t, row => if row.id = t.id then DbOps.setRunning now w row else row
  | .recordError w tid msg, .ok _, row =>
    if row.id = tid then DbOps.setError w msg row else row
  | .recordProof w tid proof, .ok _, row =>
    if row.id = tid then DbOps.setCompleted now w proof row else row
  | .updateStatusById tids status, .ok _, row =>
    if tids.contains row.id then DbOps.setState status row else row
  | _, _, row => row

variable {ch : Choice} {op : Op} {s : Server}

theorem act_fails {e : String} (h : ch.fails = some e) : act ch op s = (.error e, s) := by
  simp [act, h]

theorem act_performs (h : ch.fails = none) : act ch op s = perform ch.now ch.selected op s := by
  simp [act, h]

@[simp] theorem writes_id (now : Int) (op : Op) (res : op.Response) (row : Task) :
    (Writes now op res row).id = row.id := by
  unfold Writes
  split
  any_goals rfl
  all_goals split <;> rfl

/-- A fetch that succeeds returns the row it leaves, which was `Init` before. -/
theorem act_fetchOneTodo_ok {w : String} {types : Option (List TaskType)} {t : Task}
    (h : (act ch (.fetchOneTodo w types) s).1 = .ok t) :
    ∃ row, s.tasks.find t.id = some row ∧ row.state = .init ∧ t = DbOps.setRunning ch.now w row ∧
      (act ch (.fetchOneTodo w types) s).2.tasks = (DbOps.claim ch.now w t.id s.tasks).2 := by
  cases hf : ch.fails with
  | some e => rw [act_fails hf] at h; cases h
  | none =>
    rw [act_performs hf] at h ⊢
    simp only [perform] at h ⊢
    rcases DbOps.fetchSelected_cases ch.now w s.tasks
        (ch.selected.filter (DbOps.isTodo types)) with ⟨u, row, -, hr, hs, he⟩ | ⟨e, he, -⟩
    · rw [he] at h ⊢
      cases h
      have hid : row.id = u.id := DbOps.find_id hr
      refine ⟨row, ?_, hs, rfl, ?_⟩
      · exact DbOps.find_self hr
      · change _ = (DbOps.claim ch.now w row.id s.tasks).2
        rw [hid]
    · rw [he] at h; cases h

theorem act_fetchOneTodo_resources (ch : Choice) (w : String) (types : Option (List TaskType))
    (s : Server) : (act ch (.fetchOneTodo w types) s).2.resources = s.resources := by
  unfold act
  split <;> rfl

/-- A fetch that fails changes no task. -/
theorem act_fetchOneTodo_error {w : String} {types : Option (List TaskType)} {e : String}
    (h : (act ch (.fetchOneTodo w types) s).1 = .error e) :
    (act ch (.fetchOneTodo w types) s).2 = s := by
  cases hf : ch.fails with
  | some e => rw [act_fails hf]
  | none =>
    rw [act_performs hf] at h ⊢
    simp only [perform] at h ⊢
    rcases DbOps.fetchSelected_cases ch.now w s.tasks
        (ch.selected.filter (DbOps.isTodo types)) with ⟨u, row, -, -, -, he⟩ | ⟨e, he, -⟩
    · rw [he] at h; cases h
    · rw [he]

theorem act_fetchUncompleted_ok {w : String} {ts : List Task}
    (h : (act ch (.fetchUncompleted w) s).1 = .ok ts) :
    ts = DbOps.fetchUncompleted w s.tasks ∧ (act ch (.fetchUncompleted w) s).2 = s := by
  cases hf : ch.fails with
  | some e => rw [act_fails hf] at h; cases h
  | none =>
    rw [act_performs hf] at h ⊢
    cases h
    exact ⟨rfl, rfl⟩

theorem act_fetch_ok {tid : String} {t : Task} (h : (act ch (.fetch tid) s).1 = .ok t) :
    s.tasks.find tid = some t ∧ (act ch (.fetch tid) s).2 = s := by
  cases hf : ch.fails with
  | some e => rw [act_fails hf] at h; cases h
  | none =>
    rw [act_performs hf] at h ⊢
    refine ⟨?_, rfl⟩
    simp only [perform, DbOps.fetch] at h
    cases hr : s.tasks.find tid with
    | none => rw [hr] at h; cases h
    | some row => rw [hr] at h; cases h; rfl

/-- Rows that are there stay, changed only as `Writes` says. -/
theorem act_find_some (ch : Choice) (op : Op) {k : String} {row : Task}
    (h : s.tasks.find k = some row) :
    (act ch op s).2.tasks.find k = some (Writes ch.now op (act ch op s).1 row) := by
  cases hf : ch.fails with
  | some e =>
    rw [act_fails hf]
    cases op <;> exact h
  | none =>
    cases op with
    | fetchOneTodo w types =>
      cases hr : (act ch (.fetchOneTodo w types) s).1 with
      | error e => rw [act_fetchOneTodo_error hr]; exact h
      | ok t =>
        obtain ⟨row', ht, hs, rfl, htasks⟩ := act_fetchOneTodo_ok hr
        have hid : (DbOps.setRunning ch.now w row').id = row'.id := rfl
        rw [htasks, DbOps.find_claim, h]
        simp only [Option.map_some, Writes, DbOps.find_id h, hid]
        by_cases hk : k = row'.id
        · subst hk
          rw [hid, h] at ht
          cases ht
          simp [hs]
        · simp [hk]
    | addTask tid miner ty rid comment =>
      rw [act_performs hf]
      simp only [perform]
      cases hfind : s.tasks.find tid with
      | some t => rw [DbOps.addTask_present hfind]; exact h
      | none =>
        obtain ⟨tasks', he, hk⟩ := DbOps.addTask_absent ch.now miner ty rid comment hfind
        have hne : k ≠ tid := by rintro rfl; rw [h] at hfind; cases hfind
        rw [he]
        simp only [hk, if_neg hne, h, Writes]
    | recordError w tid msg =>
      rw [act_performs hf]
      simp only [perform, DbOps.find_recordError, h, Option.map_some, Writes, DbOps.find_id h]
    | recordProof w tid proof =>
      rw [act_performs hf]
      simp only [perform, DbOps.find_recordProof, h, Option.map_some, Writes, DbOps.find_id h]
    | updateStatusById tids status =>
      rw [act_performs hf]
      simp only [perform, DbOps.find_updateStatusById, h, Option.map_some, Writes, DbOps.find_id h]
    | _ =>
      rw [act_performs hf]
      exact h

/-- A row appears only by `addTask`, and then it is new. -/
theorem act_find_none (ch : Choice) (op : Op) {k : String} (h : s.tasks.find k = none) :
    (act ch op s).2.tasks.find k = none ∨
      ∃ miner ty rid comment, op = .addTask k miner ty rid comment ∧
        (act ch op s).2.tasks.find k = some (DbOps.newTask ch.now k miner ty rid comment) := by
  cases hf : ch.fails with
  | some e =>
    rw [act_fails hf]
    exact Or.inl h
  | none =>
    cases op with
    | fetchOneTodo w types =>
      apply Or.inl
      cases hr : (act ch (.fetchOneTodo w types) s).1 with
      | error e => rw [act_fetchOneTodo_error hr]; exact h
      | ok t =>
        obtain ⟨-, -, -, -, htasks⟩ := act_fetchOneTodo_ok hr
        rw [htasks, DbOps.find_claim, h]
        rfl
    | addTask tid miner ty rid comment =>
      rw [act_performs hf]
      simp only [perform]
      cases hfind : s.tasks.find tid with
      | some t => rw [DbOps.addTask_present hfind]; exact Or.inl h
      | none =>
        obtain ⟨tasks', he, hk⟩ := DbOps.addTask_absent ch.now miner ty rid comment hfind
        rw [he]
        by_cases hkt : k = tid
        · subst hkt
          exact Or.inr ⟨miner, ty, rid, comment, rfl, by simp [hk]⟩
        · exact Or.inl (by simp only [hk, if_neg hkt, h])
    | recordError w tid msg =>
      rw [act_performs hf]
      exact Or.inl (by simp only [perform, DbOps.find_recordError, h, Option.map_none])
    | recordProof w tid proof =>
      rw [act_performs hf]
      exact Or.inl (by simp only [perform, DbOps.find_recordProof, h, Option.map_none])
    | updateStatusById tids status =>
      rw [act_performs hf]
      exact Or.inl (by simp only [perform, DbOps.find_updateStatusById, h, Option.map_none])
    | _ =>
      rw [act_performs hf]
      exact Or.inl h

/-- Everything a call can have done to the row it leaves under a key. -/
inductive Changes (ch : Choice) (op : Op) (s : Server) (k : String) (row' : Task) : Prop where
  /-- It has left the row alone, and recorded nothing for it. -/
  | none (found : s.tasks.find k = some row')
      (proof : ∀ w proof, op = .recordProof w k proof → ch.fails ≠ Option.none)
      (error : ∀ w msg, op = .recordError w k msg → ch.fails ≠ Option.none)
  | added {miner ty rid comment} (call : op = .addTask k miner ty rid comment)
      (absent : s.tasks.find k = Option.none) (performs : ch.fails = Option.none)
      (new : row' = DbOps.newTask ch.now k miner ty rid comment)
  | dispatched {w types row} (call : op = .fetchOneTodo w types) (found : s.tasks.find k = some row)
      (init : row.state = .init) (new : row' = DbOps.setRunning ch.now w row)
  | failed {w msg row} (call : op = .recordError w k msg) (found : s.tasks.find k = some row)
      (performs : ch.fails = Option.none) (new : row' = DbOps.setError w msg row)
  | completed {w proof row} (call : op = .recordProof w k proof) (found : s.tasks.find k = some row)
      (performs : ch.fails = Option.none) (new : row' = DbOps.setCompleted ch.now w proof row)
  | updated {tids status row} (call : op = .updateStatusById tids status)
      (found : s.tasks.find k = some row) (performs : ch.fails = Option.none) (named : k ∈ tids)
      (new : row' = DbOps.setState status row)

theorem act_changes {k : String} {row' : Task} (found' : (act ch op s).2.tasks.find k = some row') :
    Changes ch op s k row' := by
  cases found : s.tasks.find k with
  | none =>
    rcases act_find_none ch op found with absent | ⟨miner, ty, rid, comment, call, new⟩
    · rw [absent] at found'
      cases found'
    · rw [new] at found'
      cases found'
      refine .added call found ?_ rfl
      cases performs : ch.fails with
      | none => rfl
      | some e =>
        rw [act_fails performs, found] at new
        cases new
  | some row =>
    have hid := DbOps.find_id found
    rw [act_find_some ch op found] at found'
    cases fails : ch.fails with
    | some e =>
      rw [act_fails fails] at found'
      have same : row = row' := by cases op <;> exact Option.some.inj found'
      subst same
      exact .none found (by simp [fails]) (by simp [fails])
    | none =>
      cases op with
      | fetchOneTodo w types =>
        cases response : (act ch (.fetchOneTodo w types) s).1 with
        | error e =>
          rw [response] at found'
          cases found'
          exact .none found (by simp) (by simp)
        | ok t =>
          obtain ⟨old, there, init, -, -⟩ := act_fetchOneTodo_ok response
          rw [response] at found'
          simp only [Writes, hid] at found'
          split at found'
          · next same =>
            rw [← same, found] at there
            cases there
            cases found'
            exact .dispatched rfl found init rfl
          · cases found'
            exact .none found (by simp) (by simp)
      | recordError w tid msg =>
        rw [act_performs fails] at found'
        simp only [perform, Writes, hid] at found'
        split at found'
        · next same =>
          subst same
          cases found'
          exact .failed rfl found fails rfl
        · next other =>
          cases found'
          refine .none found (by simp) ?_
          intro w' msg' call
          cases call
          exact absurd rfl other
      | recordProof w tid proof =>
        rw [act_performs fails] at found'
        simp only [perform, Writes, hid] at found'
        split at found'
        · next same =>
          subst same
          cases found'
          exact .completed rfl found fails rfl
        · next other =>
          cases found'
          refine .none found ?_ (by simp)
          intro w' proof' call
          cases call
          exact absurd rfl other
      | updateStatusById tids status =>
        rw [act_performs fails] at found'
        simp only [perform, Writes, hid, List.contains_iff_mem] at found'
        split at found'
        · next named =>
          cases found'
          exact .updated rfl found fails named rfl
        · cases found'
          exact .none found (by simp) (by simp)
      | _ =>
        rw [act_performs fails] at found'
        cases found'
        exact .none found (by simp) (by simp)

/-- Stored bytes were there before, or the call has stored them. -/
theorem act_content {k : String} {bytes : Bytes}
    (h : (act ch op s).2.resources.content k = some bytes) :
    s.resources.content k = some bytes ∨ op = .storeResourceInfo k bytes := by
  cases hf : ch.fails with
  | some e =>
    rw [act_fails hf] at h
    exact Or.inl h
  | none =>
    rw [act_performs hf] at h
    cases op with
    | storeResourceInfo rid resource =>
      simp only [perform] at h
      cases hr : s.resources.storeResourceInfo ch.now rid resource with
      | mk r store =>
        rw [hr] at h
        cases r with
        | error e =>
          obtain ⟨rfl, -⟩ := ResourceStore.storeResourceInfo_error hr
          exact Or.inl h
        | ok id =>
          change store.content k = some bytes at h
          rw [ResourceStore.storeResourceInfo_ok hr] at h
          split at h
          · next same =>
            cases h
            exact Or.inr (by rw [same])
          · exact Or.inl h
    | deleteResource rid =>
      simp only [perform, ResourceStore.content_deleteResource] at h
      split at h
      · cases h
      · exact Or.inl h
    | _ => exact Or.inl h

end Server

end GpuProxy
