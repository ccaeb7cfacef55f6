import GpuProxy.Plugin
import Mathlib.Logic.Function.Basic

/-!
# The whole system

The server, the calls it has been sent, the plugin's requests, and the worker
processes. Calls are numbered in the order they are sent. The server may make
any storage call of any of them next, long after the caller is gone, or never;
a caller may see its call fail at any time. A worker id has one process or none.
-/

namespace GpuProxy

structure Call where
  request : Request
  /-- What is left of the handler. A parameter that does not decode ends the
  call in a panic before there is one. -/
  program : Option (Program Op Op.Response Answer)
  /-- The call whose answer the sender acted on. -/
  cause : Option Nat

def Call.of (env : Extern) (cause : Option Nat) (request : Request) : Call :=
  ⟨request, (request.handler env).map ExceptT.run, cause⟩

def Call.answer (c : Call) : Option Answer := c.program.bind Program.answer

/-- What is left of a call's handler meets a contract. -/
def Call.Sat (P : Request → Op → Prop) (R : (op : Op) → op.Response → Prop)
    (Q : Request → Answer → Prop) (c : Call) : Prop :=
  ∀ p, c.program = some p → p.Sat (P c.request) R (Q c.request)

/-- A storage call the server has made, for which call, and its response. -/
structure Served where
  call : Nat
  op : Op
  res : op.Response

structure System (env : Extern) where
  server : Server
  calls : List Call
  /-- The storage calls so far, the latest first. -/
  log : List Served
  plugins : List (ProcessRequest env)
  workers : String → Option LocalWorker

namespace System

variable {env : Extern}

inductive Action (env : Extern) where
  /-- Someone else sends a request: a submitter, or the command line. -/
  | request (req : Request)
  | serve (call : Nat) (ch : Choice)
  | startPlugin (input : C2Input env)
  | plugin (i : Nat) (ev : ProcessRequest.Event)
  | startWorker (workerId : String) (config : WorkerConfig)
  | crashWorker (workerId : String)
  | worker (workerId : String) (ev : LocalWorker.Event)

/-- No call sent and no process alive. -/
def idle (server : Server) : System env := ⟨server, [], [], [], fun _ => none⟩

def answer (s : System env) (call : Nat) : Option Answer := s.calls[call]?.bind Call.answer

def send (s : System env) (cause : Option Nat) (sent : Option Request) : System env :=
  { s with calls := s.calls ++ sent.toList.map (Call.of env cause) }

/-- Call `call`, whose handler is at `op`, gets the response. -/
def serve (s : System env) (call : Nat) (ch : Choice) (c : Call) (op : Op)
    (k : op.Response → Program Op Op.Response Answer) : System env :=
  let r := s.server.act ch op
  { s with server := r.2
           calls := s.calls.set call { c with program := some (k r.1) }
           log := ⟨call, op, r.1⟩ :: s.log }

def setWorker (s : System env) (workerId : String) (w : Option LocalWorker) : System env :=
  { s with workers := Function.update s.workers workerId w }

def step (s : System env) : Action env → Option (System env)
  | .request req => some (s.send none (some req))
  | .serve call ch => do
    let c ← s.calls[call]?
    match c.program with
    | some (.call op k) => some (s.serve call ch c op k)
    | _ => none
  | .startPlugin input => some { s with plugins := s.plugins ++ [ProcessRequest.start input] }
  | .plugin i ev => do
    let self ← s.plugins[i]?
    let (self', sent) ← self.step s.answer s.calls.length ev
    some { s.send self.awaits sent with plugins := s.plugins.set i self' }
  | .startWorker workerId config =>
    match s.workers workerId with
    | some _ => none
    | none =>
      some ((s.send none (some (.fetchUncompleted workerId))).setWorker workerId
        (some (LocalWorker.start config s.calls.length)))
  | .crashWorker workerId =>
    match s.workers workerId with
    | some _ => some (s.setWorker workerId none)
    | none => none
  | .worker workerId ev => do
    let self ← s.workers workerId
    let (self', sent) ← self.step env workerId s.answer s.calls.length ev
    some ((s.send none sent).setWorker workerId (some self'))

/-- The action lets `call` make the storage call `op`. -/
def Serves (s : System env) (a : Action env) (call : Nat) (ch : Choice) (op : Op) : Prop :=
  a = .serve call ch ∧ ∃ c k, s.calls[call]? = some c ∧ c.program = some (.call op k)

/-- The storage call that `call` makes next. -/
def next (s : System env) (call : Nat) : Option Op :=
  (s.calls[call]?.bind Call.program).bind Program.next

/-- Call `i` is about request `req`. -/
def Requested (s : System env) (i : Nat) (req : Request) : Prop :=
  ∃ c, s.calls[i]? = some c ∧ c.request = req

inductive Step (s : System env) : Action env → System env → Prop where
  | request (req : Request) : Step s (.request req) (s.send none (some req))
  | serve {call ch c op k} (get : s.calls[call]? = some c) (program : c.program = some (.call op k)) :
      Step s (.serve call ch) (s.serve call ch c op k)
  | startPlugin (input : C2Input env) :
      Step s (.startPlugin input) { s with plugins := s.plugins ++ [ProcessRequest.start input] }
  | plugin {i ev self self' sent} (get : s.plugins[i]? = some self)
      (move : ProcessRequest.Step s.answer s.calls.length self ev self' sent) :
      Step s (.plugin i ev) { s.send self.awaits sent with plugins := s.plugins.set i self' }
  | startWorker {w config} (free : s.workers w = none) :
      Step s (.startWorker w config) ((s.send none (some (.fetchUncompleted w))).setWorker w
        (some (LocalWorker.start config s.calls.length)))
  | crashWorker {w self} (alive : s.workers w = some self) :
      Step s (.crashWorker w) (s.setWorker w none)
  | worker {w ev self self' sent} (alive : s.workers w = some self)
      (move : LocalWorker.Step env w s.answer s.calls.length self ev self' sent) :
      Step s (.worker w ev) ((s.send none sent).setWorker w (some self'))

variable {s s' : System env} {a : Action env}

theorem step_cases (h : s.step a = some s') : Step s a s' := by
  cases a with
  | request req =>
    cases h
    exact .request req
  | serve call ch =>
    simp only [step, Option.bind_eq_bind, Option.bind_eq_some_iff] at h
    obtain ⟨c, get, h⟩ := h
    split at h
    · next op k program =>
      cases h
      exact .serve get program
    · cases h
  | startPlugin input =>
    cases h
    exact .startPlugin input
  | plugin i ev =>
    simp only [step, Option.bind_eq_bind, Option.bind_eq_some_iff] at h
    obtain ⟨self, get, ⟨self', sent⟩, move, h⟩ := h
    cases h
    exact .plugin get (ProcessRequest.step_cases move)
  | startWorker w config =>
    simp only [step] at h
    split at h
    · cases h
    · next free =>
      cases h
      exact .startWorker free
  | crashWorker w =>
    simp only [step] at h
    split at h
    · next self alive =>
      cases h
      exact .crashWorker alive
    · cases h
  | worker w ev =>
    simp only [step, Option.bind_eq_bind, Option.bind_eq_some_iff] at h
    obtain ⟨self, alive, ⟨self', sent⟩, move, h⟩ := h
    cases h
    exact .worker alive (LocalWorker.step_cases move)

theorem serves_of_next {call : Nat} {op : Op} (ch : Choice) (h : s.next call = some op) :
    s.Serves (.serve call ch) call ch op := by
  obtain ⟨p, hp, hn⟩ := Option.bind_eq_some_iff.mp h
  obtain ⟨c, get, program⟩ := Option.bind_eq_some_iff.mp hp
  obtain ⟨k, rfl⟩ := Program.next_some hn
  exact ⟨rfl, c, k, get, program⟩

/-! ## What is left alone -/

section
variable {cause : Option Nat} {sent : Option Request} {w : String} {p : Option LocalWorker}
  {call : Nat} {ch : Choice} {c : Call} {op : Op} {k : op.Response → Program Op Op.Response Answer}

@[simp] theorem send_server : (s.send cause sent).server = s.server := rfl
@[simp] theorem send_log : (s.send cause sent).log = s.log := rfl
@[simp] theorem send_workers : (s.send cause sent).workers = s.workers := rfl
@[simp] theorem send_plugins : (s.send cause sent).plugins = s.plugins := rfl
@[simp] theorem setWorker_server : (s.setWorker w p).server = s.server := rfl
@[simp] theorem setWorker_calls : (s.setWorker w p).calls = s.calls := rfl
@[simp] theorem setWorker_log : (s.setWorker w p).log = s.log := rfl
@[simp] theorem setWorker_plugins : (s.setWorker w p).plugins = s.plugins := rfl
@[simp] theorem setWorker_answer : (s.setWorker w p).answer = s.answer := rfl
@[simp] theorem setWorker_self : (s.setWorker w p).workers w = p := Function.update_self ..
@[simp] theorem serve_workers : (s.serve call ch c op k).workers = s.workers := rfl
@[simp] theorem serve_plugins : (s.serve call ch c op k).plugins = s.plugins := rfl

theorem setWorker_ne {v : String} (h : v ≠ w) : (s.setWorker w p).workers v = s.workers v :=
  Function.update_of_ne h ..

theorem send_calls : (s.send cause sent).calls = s.calls ++ sent.toList.map (Call.of env cause) := rfl

theorem send_get_old {i : Nat} {d : Call} (h : s.calls[i]? = some d) :
    (s.send cause sent).calls[i]? = some d := by
  obtain ⟨bound, rfl⟩ := List.getElem?_eq_some_iff.mp h
  rw [send_calls, List.getElem?_append_left bound, List.getElem?_eq_getElem bound]

theorem send_get_new (req : Request) :
    (s.send cause (some req)).calls[s.calls.length]? = some (Call.of env cause req) := by
  simp [send_calls]

/-- A call of the new list is an old one, or the one just sent. -/
theorem send_get {i : Nat} {d : Call} (h : (s.send cause sent).calls[i]? = some d) :
    s.calls[i]? = some d ∨
      i = s.calls.length ∧ ∃ req, sent = some req ∧ d = Call.of env cause req := by
  by_cases bound : i < s.calls.length
  · rw [send_calls, List.getElem?_append_left bound] at h
    exact Or.inl h
  · rw [send_calls, List.getElem?_append_right (by omega)] at h
    cases sent with
    | none => simp at h
    | some req =>
      right
      obtain ⟨last, hd⟩ := List.getElem?_eq_some_iff.mp h
      have index : i = s.calls.length := by
        simp at last
        omega
      subst index
      simp at hd
      exact ⟨rfl, req, rfl, hd.symm⟩

theorem answer_send_old {i : Nat} (h : i < s.calls.length) :
    (s.send cause sent).answer i = s.answer i := by
  simp only [answer, send_get_old (List.getElem?_eq_getElem h), List.getElem?_eq_getElem h]

theorem serve_get_ne {i : Nat} (h : i ≠ call) :
    (s.serve call ch c op k).calls[i]? = s.calls[i]? := by
  simp only [serve]
  exact List.getElem?_set_ne (Ne.symm h)

theorem serve_get_self (h : s.calls[call]? = some c) :
    (s.serve call ch c op k).calls[call]? =
      some { c with program := some (k (s.server.act ch op).1) } := by
  obtain ⟨bound, -⟩ := List.getElem?_eq_some_iff.mp h
  simp [serve, bound]

theorem answer_serve_ne {i : Nat} (h : i ≠ call) :
    (s.serve call ch c op k).answer i = s.answer i := by
  simp only [answer, serve_get_ne h]

theorem answer_serve_self (ch : Choice) (op : Op)
    (k : op.Response → Program Op Op.Response Answer) (h : s.calls[call]? = some c) :
    (s.serve call ch c op k).answer call = (k (s.server.act ch op).1).answer := by
  simp only [answer, serve_get_self h]
  rfl

end

/-- The server changes only in a storage call it makes, which goes to the log. -/
theorem step_server (h : s.step a = some s') :
    (s'.server = s.server ∧ s'.log = s.log ∧ ∀ call ch op, ¬ s.Serves a call ch op) ∨
    ∃ call ch op, s.Serves a call ch op ∧ s'.server = (s.server.act ch op).2 ∧
      s'.log = ⟨call, op, (s.server.act ch op).1⟩ :: s.log := by
  cases step_cases h with
  | serve get program => exact Or.inr ⟨_, _, _, ⟨rfl, _, _, get, program⟩, rfl, rfl⟩
  | _ => exact Or.inl ⟨rfl, rfl, by rintro call ch op ⟨⟨⟩, -⟩⟩

theorem serves_server {call : Nat} {ch : Choice} {op : Op} (h : s.step a = some s') (serves : s.Serves a call ch op) :
    s'.server = (s.server.act ch op).2 := by
  obtain ⟨rfl, c, k, get, program⟩ := serves
  cases step_cases h with
  | serve get' program' =>
    rw [get] at get'
    cases get'
    rw [program] at program'
    cases program'
    rfl

theorem Serves.op_eq {call call' : Nat} {ch ch' : Choice} {op op' : Op}
    (h : s.Serves a call ch op) (h' : s.Serves a call' ch' op') : op = op' := by
  obtain ⟨rfl, c, k, get, program⟩ := h
  obtain ⟨⟨⟩, c', k', get', program'⟩ := h'
  rw [get] at get'
  cases get'
  rw [program] at program'
  cases program'
  rfl

/-- Calls are never withdrawn, and keep their request and cause. -/
theorem step_call {i : Nat} {d : Call} (h : s.step a = some s') (get : s.calls[i]? = some d) :
    ∃ d', s'.calls[i]? = some d' ∧ d'.request = d.request ∧ d'.cause = d.cause := by
  cases step_cases h with
  | request req => exact ⟨d, send_get_old get, rfl, rfl⟩
  | @serve call ch c op k get' program =>
    by_cases hi : i = call
    · subst hi
      rw [get'] at get
      cases get
      exact ⟨_, serve_get_self get', rfl, rfl⟩
    · exact ⟨d, by rw [serve_get_ne hi, get], rfl, rfl⟩
  | startPlugin input => exact ⟨d, get, rfl, rfl⟩
  | plugin => exact ⟨d, send_get_old get, rfl, rfl⟩
  | startWorker => exact ⟨d, send_get_old get, rfl, rfl⟩
  | crashWorker => exact ⟨d, get, rfl, rfl⟩
  | worker => exact ⟨d, send_get_old get, rfl, rfl⟩

/-- An answer is final. -/
theorem step_answer {i : Nat} {x : Answer} (h : s.step a = some s')
    (answered : s.answer i = some x) : s'.answer i = some x := by
  obtain ⟨c, get, hc⟩ := Option.bind_eq_some_iff.mp answered
  have bound : i < s.calls.length := (List.getElem?_eq_some_iff.mp get).1
  cases step_cases h with
  | @serve call ch c' op k get' program =>
    by_cases hi : i = call
    · subst hi
      rw [get] at get'
      cases get'
      simp [Call.answer, program] at hc
    · rw [answer_serve_ne hi, answered]
  | startPlugin | crashWorker => exact answered
  | request | plugin | startWorker | worker => exact (answer_send_old bound).trans answered

/-- A call of one storage call is not answered when it is sent. -/
theorem answer_fresh {cause : Option Nat} {req : Request} {op : Op} {reply : op.Res → Reply}
    (single : req.single = some ⟨op, reply⟩) :
    (s.send cause (some req)).answer s.calls.length = none := by
  simp only [answer, send_get_new, Option.bind_some, Call.answer, Call.of,
    Request.handler_single single, Program.answer_call]

/-- A worker's process of the new state was there, has just been started, or has just
moved. -/
theorem step_workers {w : String} {process : LocalWorker} (h : s.step a = some s')
    (alive : s'.workers w = some process) :
    s.workers w = some process ∨
    (∃ config, process = LocalWorker.start config s.calls.length ∧
      s'.Requested s.calls.length (.fetchUncompleted w)) ∨
    ∃ ev old sent, s.workers w = some old ∧
      LocalWorker.Step env w s.answer s.calls.length old ev process sent ∧
      ∀ req, sent = some req → s'.Requested s.calls.length req := by
  cases step_cases h with
  | @startWorker v config free =>
    by_cases same : w = v
    · subst same
      rw [setWorker_self] at alive
      cases alive
      exact Or.inr (Or.inl ⟨config, rfl, _, send_get_new _, rfl⟩)
    · rw [setWorker_ne same] at alive
      exact Or.inl alive
  | @crashWorker v old alive' =>
    by_cases same : w = v
    · subst same
      rw [setWorker_self] at alive
      cases alive
    · rw [setWorker_ne same] at alive
      exact Or.inl alive
  | @worker v ev old new sent alive' move =>
    by_cases same : w = v
    · subst same
      rw [setWorker_self] at alive
      cases alive
      refine Or.inr (Or.inr ⟨ev, old, sent, alive', move, ?_⟩)
      intro req sends
      subst sends
      exact ⟨_, send_get_new req, rfl⟩
    · rw [setWorker_ne same] at alive
      exact Or.inl alive
  | _ => exact Or.inl alive

/-- A plugin's process of the new state was there, has just been started, or has
just moved. -/
theorem step_processes {i : Nat} {process : ProcessRequest env} (h : s.step a = some s')
    (get : s'.plugins[i]? = some process) :
    (s.plugins[i]? = some process ∧ ∀ ev, a ≠ .plugin i ev) ∨
    (∃ input, a = .startPlugin input ∧ i = s.plugins.length ∧ process = ProcessRequest.start input) ∨
    ∃ ev old sent, a = .plugin i ev ∧ s.plugins[i]? = some old ∧
      ProcessRequest.Step s.answer s.calls.length old ev process sent ∧
      s' = { s.send old.awaits sent with plugins := s.plugins.set i process } ∧
      ∀ req, sent = some req → s'.Requested s.calls.length req := by
  cases step_cases h with
  | @plugin j ev old new sent get' move =>
    by_cases same : i = j
    · subst same
      obtain ⟨bound, -⟩ := List.getElem?_eq_some_iff.mp get'
      simp only [List.getElem?_set_self bound, Option.some.injEq] at get
      subst get
      refine Or.inr (Or.inr ⟨ev, old, sent, rfl, get', move, rfl, ?_⟩)
      intro req sends
      subst sends
      exact ⟨_, send_get_new req, rfl⟩
    · rw [List.getElem?_set_ne (Ne.symm same)] at get
      refine Or.inl ⟨get, ?_⟩
      rintro _ ⟨⟩
      exact same rfl
  | startPlugin input =>
    by_cases bound : i < s.plugins.length
    · rw [List.getElem?_append_left bound] at get
      exact Or.inl ⟨get, by rintro ev ⟨⟩⟩
    · rw [List.getElem?_append_right (by omega)] at get
      obtain ⟨last, rfl⟩ := List.getElem?_eq_some_iff.mp get
      simp at last
      refine Or.inr (Or.inl ⟨input, rfl, by omega, ?_⟩)
      simp
  | _ => exact Or.inl ⟨get, by rintro ev ⟨⟩⟩

/-! ## Calls, old and new -/

/-- The request an action sends, and the call whose answer it acts on. -/
inductive Sends (s : System env) : Action env → Option Nat → Request → Prop where
  | request (req : Request) : Sends s (.request req) none req
  | plugin {i ev self self' req} (get : s.plugins[i]? = some self)
      (move : ProcessRequest.Step s.answer s.calls.length self ev self' (some req)) :
      Sends s (.plugin i ev) self.awaits req
  | startWorker {w config} : Sends s (.startWorker w config) none (.fetchUncompleted w)
  | worker {w ev self self' req} (alive : s.workers w = some self)
      (move : LocalWorker.Step env w s.answer s.calls.length self ev self' (some req)) :
      Sends s (.worker w ev) none req

/-- Where a call of the new state comes from: it was there, it has just been
sent, or it has just made a storage call. -/
theorem step_calls {i : Nat} {d : Call} (h : s.step a = some s') (get : s'.calls[i]? = some d) :
    s.calls[i]? = some d ∧ (∀ ch, a ≠ .serve i ch) ∨
    (i = s.calls.length ∧ ∃ cause req, s.Sends a cause req ∧ d = Call.of env cause req) ∨
    ∃ ch c op k, a = .serve i ch ∧ s.calls[i]? = some c ∧ c.program = some (.call op k) ∧
      d = { c with program := some (k (s.server.act ch op).1) } := by
  have sent {cause : Option Nat} {sent : Option Request}
      (get : (s.send cause sent).calls[i]? = some d) (quiet : ∀ ch, a ≠ .serve i ch)
      (sends : ∀ req, sent = some req → s.Sends a cause req) :
      s.calls[i]? = some d ∧ (∀ ch, a ≠ .serve i ch) ∨
      (i = s.calls.length ∧ ∃ cause req, s.Sends a cause req ∧ d = Call.of env cause req) ∨
      ∃ ch c op k, a = .serve i ch ∧ s.calls[i]? = some c ∧ c.program = some (.call op k) ∧
        d = { c with program := some (k (s.server.act ch op).1) } := by
    rcases send_get get with old | ⟨rfl, req, rfl, rfl⟩
    · exact Or.inl ⟨old, quiet⟩
    · exact Or.inr (Or.inl ⟨rfl, cause, req, sends req rfl, rfl⟩)
  cases step_cases h with
  | request req => exact sent get (by rintro ch ⟨⟩) (by rintro _ ⟨⟩; exact .request req)
  | @serve call ch c op k get' program =>
    by_cases hi : i = call
    · subst hi
      rw [serve_get_self get'] at get
      cases get
      exact Or.inr (Or.inr ⟨ch, c, op, k, rfl, get', program, rfl⟩)
    · rw [serve_get_ne hi] at get
      refine Or.inl ⟨get, ?_⟩
      rintro _ ⟨⟩
      exact hi rfl
  | startPlugin input => exact Or.inl ⟨get, by rintro ch ⟨⟩⟩
  | plugin get' move => exact sent get (by rintro ch ⟨⟩) (by rintro _ rfl; exact .plugin get' move)
  | startWorker free => exact sent get (by rintro ch ⟨⟩) (by rintro _ ⟨⟩; exact .startWorker)
  | crashWorker alive => exact Or.inl ⟨get, by rintro ch ⟨⟩⟩
  | worker alive move => exact sent get (by rintro ch ⟨⟩) (by rintro _ rfl; exact .worker alive move)

/-- A step keeps the contract of every call, as long as storage does and what is
sent comes with its own. -/
theorem step_sat {P : Request → Op → Prop} {R : (op : Op) → op.Response → Prop}
    {Q : Request → Answer → Prop} {I : Server → Prop}
    (keep : ∀ req ch op srv, P req op → I srv → R op (srv.act ch op).1 ∧ I (srv.act ch op).2)
    (h : s.step a = some s') (hi : I s.server)
    (calls : ∀ (i : Nat) c, s.calls[i]? = some c → Call.Sat P R Q c)
    (new : ∀ cause req, s.Sends a cause req → Call.Sat P R Q (Call.of env cause req)) :
    I s'.server ∧ ∀ (i : Nat) c, s'.calls[i]? = some c → Call.Sat P R Q c := by
  constructor
  · rcases step_server h with ⟨same, -, -⟩ | ⟨call, ch, op, ⟨-, c, k, get, program⟩, same, -⟩
    · rw [same]
      exact hi
    · rw [same]
      exact (keep _ ch op _ (calls call c get _ program).1 hi).2
  · intro i d get
    rcases step_calls h get with ⟨old, -⟩ | ⟨-, cause, req, sends, rfl⟩ |
      ⟨ch, c, op, k, -, old, program, rfl⟩
    · exact calls i d old
    · exact new cause req sends
    · rintro _ ⟨⟩
      have contract := calls i c old _ program
      exact contract.2 _ (keep _ ch op _ contract.1 hi).1

/-- A handler makes only its request's calls. -/
theorem of_permits (cause : Option Nat) (req : Request) :
    Call.Sat (Request.Calls env) (fun _ _ => True) (fun _ _ => True) (Call.of env cause req) := by
  intro p hp
  obtain ⟨g, hg, rfl⟩ := Option.map_eq_some_iff.mp hp
  exact (Request.handler_sat (R := fun _ _ => True) hg).mono (fun _ => id) (fun _ _ => id)
    fun _ _ => trivial

/-! ## Facts about every reachable state -/

/-- A call whose handler makes one storage call has made it or not. If it has, it
is answered, and the log says with what. -/
def Single (s : System env) (i : Nat) (c : Call) : Prop :=
  ∀ op reply, c.request.single = some ⟨op, reply⟩ →
    (c.program = some (.call op fun r => .ret (singleAnswer reply r)) ∧ ∀ e ∈ s.log, e.call ≠ i) ∨
    ∃ r newer older, c.program = some (.ret (singleAnswer reply r)) ∧
      s.log = newer ++ ⟨i, op, r⟩ :: older ∧ ∀ e ∈ newer, e.call ≠ i

structure Consistent (s : System env) : Prop where
  logged : ∀ e ∈ s.log, e.call < s.calls.length
  permits : ∀ (i : Nat) c, s.calls[i]? = some c →
    Call.Sat (Request.Calls env) (fun _ _ => True) (fun _ _ => True) c
  single : ∀ (i : Nat) c, s.calls[i]? = some c → s.Single i c
  plugins : ∀ (i : Nat) run, s.plugins[i]? = some run → run.Waits s.Requested
  workers : ∀ w process, s.workers w = some process → process.Waits w s.Requested

theorem idle_consistent (server : Server) : (idle server : System env).Consistent where
  logged := by simp [idle]
  permits := by simp [idle]
  single := by simp [idle]
  plugins := by simp [idle]
  workers := by simp [idle]

theorem step_requested {i : Nat} {req : Request} (h : s.step a = some s')
    (requested : s.Requested i req) : s'.Requested i req := by
  obtain ⟨c, get, rfl⟩ := requested
  obtain ⟨d, get', same, -⟩ := step_call h get
  exact ⟨d, get', same⟩

theorem step_length (h : s.step a = some s') : s.calls.length ≤ s'.calls.length := by
  cases step_cases h with
  | serve => simp [serve]
  | startPlugin | crashWorker => exact Nat.le_refl _
  | request | plugin | startWorker | worker => simp [send_calls]

theorem step_logged (h : s.step a = some s') (logged : ∀ e ∈ s.log, e.call < s.calls.length) :
    ∀ e ∈ s'.log, e.call < s'.calls.length := by
  have longer := step_length h
  intro e he
  rcases step_server h with ⟨-, same, -⟩ | ⟨call, ch, op, ⟨-, c, k, get, -⟩, -, same⟩
  · rw [same] at he
    exact Nat.lt_of_lt_of_le (logged e he) longer
  · rw [same] at he
    rcases List.mem_cons.mp he with rfl | he
    · obtain ⟨bound, -⟩ := List.getElem?_eq_some_iff.mp get
      exact Nat.lt_of_lt_of_le bound longer
    · exact Nat.lt_of_lt_of_le (logged e he) longer

theorem step_single (h : s.step a = some s') (logged : ∀ e ∈ s.log, e.call < s.calls.length)
    (single : ∀ (i : Nat) c, s.calls[i]? = some c → s.Single i c) :
    ∀ (i : Nat) c, s'.calls[i]? = some c → s'.Single i c := by
  intro i d get op reply shape
  rcases step_calls h get with ⟨old, quiet⟩ | ⟨rfl, cause, req, sends, rfl⟩ |
    ⟨ch, c, op', k, rfl, old, program, rfl⟩
  · -- another call's entry, or none
    have others : ∃ front, s'.log = front ++ s.log ∧ ∀ e ∈ front, e.call ≠ i := by
      rcases step_server h with ⟨-, same, -⟩ | ⟨call, ch, op, ⟨rfl, -⟩, -, same⟩
      · exact ⟨[], same, by simp⟩
      · refine ⟨[_], same, ?_⟩
        rintro e he rfl
        rw [List.mem_singleton.mp he] at quiet
        exact quiet ch rfl
    obtain ⟨front, same, others⟩ := others
    rcases single i d old op reply shape with ⟨program, unlogged⟩ | ⟨r, newer, older, program, log, unlogged⟩
    · refine Or.inl ⟨program, fun e he => ?_⟩
      rw [same] at he
      rcases List.mem_append.mp he with he | he
      · exact others e he
      · exact unlogged e he
    · refine Or.inr ⟨r, front ++ newer, older, program, by rw [same, log, List.append_assoc], ?_⟩
      intro e he
      rcases List.mem_append.mp he with he | he
      · exact others e he
      · exact unlogged e he
  · refine Or.inl ⟨Request.handler_single shape, fun e he index => ?_⟩
    rcases step_server h with ⟨-, same, -⟩ | ⟨call, ch, op', ⟨rfl, -⟩, -⟩
    · rw [same] at he
      exact absurd (logged e he) (by omega)
    · cases sends
  · rcases single i c old op reply shape with ⟨program', unlogged⟩ | ⟨r, -, -, program', -⟩
    · rw [program] at program'
      cases program'
      rcases step_server h with ⟨-, -, not⟩ | ⟨call, ch', op', ⟨⟨⟩, c', k', get', program''⟩, -, same⟩
      · exact absurd ⟨rfl, c, _, old, program⟩ (not i ch op)
      · rw [old] at get'
        cases get'
        rw [program] at program''
        cases program''
        exact Or.inr ⟨_, [], s.log, rfl, same, by simp⟩
    · rw [program] at program'
      cases program'

theorem step_consistent (consistent : s.Consistent) (h : s.step a = some s') : s'.Consistent where
  logged := step_logged h consistent.logged
  permits := (step_sat (I := fun _ => True) (fun _ _ _ _ _ _ => ⟨trivial, trivial⟩) h trivial
    consistent.permits fun cause req _ => of_permits cause req).2
  single := step_single h consistent.logged consistent.single
  plugins := by
    intro i run get
    rcases step_processes h get with ⟨old, -⟩ | ⟨input, -, -, rfl⟩ | ⟨ev, old, sent, -, -, move, -, new⟩
    · exact (consistent.plugins i run old).mono fun _ _ => step_requested h
    · exact .start
    · exact .step move new
  workers := by
    intro w process alive
    have waits (old : LocalWorker) (alive : s.workers w = some old) : old.Waits w s'.Requested :=
      (consistent.workers w old alive).mono fun _ _ => step_requested h
    rcases step_workers h alive with old | ⟨config, rfl, asked⟩ | ⟨ev, old, sent, alive', move, new⟩
    · exact waits process old
    · exact .start asked
    · exact (waits old alive').step move new

theorem reachable_consistent {server : Server} (h : Runs.Reachable step (idle server) s) :
    s.Consistent := by
  obtain ⟨as, hs⟩ := h
  exact Runs.invariant hs (idle_consistent server) fun _ _ _ => step_consistent

/-- A status update is made for a request that asks for it. -/
theorem Consistent.update_requested (consistent : s.Consistent) {tids : List String}
    {state : TaskState} (serves : s.Serves a call ch (.updateStatusById tids state)) :
    s.Requested call (.updateStatusById tids state) := by
  obtain ⟨-, c, k, get, program⟩ := serves
  refine ⟨c, get, ?_⟩
  have permitted := (consistent.permits call c get _ program).1
  generalize c.request = req at permitted
  cases permitted with
  | submission _ call => cases call
  | updateStatusById => rfl

/-- Only the command line and the plugin send status updates; the plugin's is the
reset of its own task, after it saw the task failed. -/
theorem Sends.status {cause : Option Nat} {tids : List String} {state : TaskState}
    (sends : s.Sends a cause (.updateStatusById tids state)) :
    a = .request (.updateStatusById tids state) ∨
    ∃ i self call task, a = .plugin i (.ends .answered) ∧ s.plugins[i]? = some self ∧
      self.phase = .checking call ∧ cause = some call ∧ s.answer call = some (.ok (.task task)) ∧
      task.state = .error ∧ tids = [self.taskId] ∧ state = .init := by
  generalize he : Request.updateStatusById tids state = req at sends
  cases sends with
  | request req => exact Or.inl rfl
  | @plugin i ev self self' req get move =>
    cases move with
    | @reset call task phase answered failed =>
      cases he
      refine Or.inr ⟨i, self, call, task, rfl, get, phase, ?_, answered, failed, rfl, rfl⟩
      simp [ProcessRequest.awaits, phase]
    | _ => cases he
  | startWorker => cases he
  | worker alive move =>
    cases move with
    | @take undoTask result rest => cases result <;> cases he
    | _ => cases he

end System

/-- A server with the example task waiting and some bytes stored as its resource. -/
def Demo.queued (resource : Bytes) : Server where
  tasks := (DbOps.addTask 0 "48bb11f3-3f83-5d9f-ad3c-edd0b5481a6f" "01000" .c2 Demo.resourceId
    "1 MinerId(1000)" Table.empty).2
  resources := ((ResourceStore.db Table.empty).storeResourceInfo 0 Demo.resourceId resource).2

def Demo.config : WorkerConfig := ⟨1, by decide, none, 5⟩

/-- The row the first `SELECT` of a fetch sees there. -/
def Demo.waiting : Option Task := DbOps.selectTodo none (Demo.queued []).tasks

end GpuProxy
