import GpuProxy.PluginRun
import GpuProxy.Runs
import Mathlib.Data.List.Perm.Basic

/-!
# What the sealing plugin writes

stdout is the greeting and then one frame after the other, the last one perhaps not whole
yet: one for each finished request, in the order in which their tasks got the lock.
-/

namespace GpuProxy

namespace ClusterC2Plugin

/-! ## Documents -/

/-- The response to a request line. -/
structure Document where
  line : Nat
  response : Response
  deriving DecidableEq, Repr

def frames (docs : List Document) : Bytes := docs.flatMap fun d => d.response.resStr

namespace Spawned

/-- The response of a task whose request is finished. -/
def document (t : Spawned) : Option Document :=
  match t.phase with
  | .responding resp _ => some ⟨t.line, resp⟩
  | .working => none

/-- The response, once `write_all` has returned. -/
def written (t : Spawned) : Option Document :=
  match t.phase with
  | .responding resp .returned => some ⟨t.line, resp⟩
  | _ => none

/-- The response, before `write_all` has returned. -/
def unwritten (t : Spawned) : Option Document :=
  if t.written.isSome then none else t.document

/-- What a task that holds the lock has yet to put into the writer. -/
def rest (t : Spawned) : Option Bytes :=
  match t.phase with
  | .responding _ call => call.rest
  | .working => none

end Spawned

/-- One response per finished request. -/
def State.documents (s : State) : List Document := s.tasks.filterMap Spawned.document

section
variable {α β : Type} {f : α → Option β} {l : List α} {i : Nat} {a b : α}

theorem filterMap_set_same (h : l[i]? = some a) (same : f b = f a) :
    (l.set i b).filterMap f = l.filterMap f := by
  induction l generalizing i with
  | nil => cases h
  | cons x l ih =>
    cases i with
    | zero =>
      cases h
      simp only [List.set_cons_zero, List.filterMap_cons, same]
    | succ i => simp only [List.set_cons_succ, List.filterMap_cons, ih h]

theorem filterMap_set_new {y : β} (h : l[i]? = some a) (before : f a = none) (after : f b = some y) :
    ((l.set i b).filterMap f).Perm (y :: l.filterMap f) := by
  induction l generalizing i with
  | nil => cases h
  | cons x l ih =>
    cases i with
    | zero =>
      cases h
      simp only [List.set_cons_zero, List.filterMap_cons, before, after]
      exact .refl _
    | succ i =>
      simp only [List.set_cons_succ, List.filterMap_cons]
      cases f x with
      | none => exact ih h
      | some z => exact ((ih h).cons z).trans (.swap y z _)

end

/-! ## What is on stdout -/

/-- What is on stdout, by who holds the lock: nobody yet, the greeting, nobody, or the
task at `i`. `order` is the responses that have been written. -/
inductive Output (s : State) : Prop
  | silent (greeting : s.greeting = .locking) (out : s.out = PluginOut.idle []) (tasks : s.tasks = [])
  | greets {rest} (greeting : s.greeting.rest = some rest)
      (sending : PluginOut.Sending [] greetingData rest s.out) (tasks : s.tasks = [])
  | free {order} (greeting : s.greeting = .returned)
      (out : s.out = PluginOut.idle (greetingData ++ frames order))
      (waits : ∀ t ∈ s.tasks, t.rest = none)
      (written : order.Perm (s.tasks.filterMap Spawned.written))
  | held {order : List Document} {i line : Nat} {id : UInt64} {resp : Response} {call : WriteAll}
      {rest : Bytes} (greeting : s.greeting = .returned)
      (here : s.tasks[i]? = some ⟨line, id, .responding resp call⟩) (holds : call.rest = some rest)
      (sending : PluginOut.Sending (greetingData ++ frames order) resp.resStr rest s.out)
      (waits : ∀ (j : Nat) (t : Spawned), j ≠ i → s.tasks[j]? = some t → t.rest = none)
      (written : order.Perm (s.tasks.filterMap Spawned.written))

section
variable {env : Extern} {debug : String → String} {capacity : Nat} {s s' : State}

/-- Tasks that neither write nor have written can come and change. -/
theorem Output.quiet (output : Output s) (greeted : s.greeting = .returned) {lines : List String}
    {tasks : List Spawned}
    (old : ∀ (i : Nat) (t : Spawned), s.tasks[i]? = some t → t.rest ≠ none → tasks[i]? = some t)
    (waits : ∀ (i : Nat) (t : Spawned), tasks[i]? = some t → t.rest ≠ none → s.tasks[i]? = some t)
    (written : tasks.filterMap Spawned.written = s.tasks.filterMap Spawned.written) :
    Output { s with lines := lines, tasks := tasks } := by
  cases output with
  | silent greeting => rw [greeted] at greeting; cases greeting
  | greets greeting => rw [greeted] at greeting; cases greeting
  | free greeting out idle perm =>
    refine .free greeting out ?_ (by rwa [written])
    intro t ht
    by_contra writes
    obtain ⟨i, here⟩ := List.mem_iff_getElem?.mp ht
    exact writes (idle t (List.mem_of_getElem? (waits i t here writes)))
  | held greeting here holds sending idle perm =>
    refine .held greeting (old _ _ here ?_) holds sending ?_ (by rwa [written])
    · simp [Spawned.rest, holds]
    · intro j t other there
      by_contra writes
      exact writes (idle j t other (waits j t there writes))

theorem greet_output {n : Nat} {out : PluginOut} {call : WriteAll} (output : Output s)
    (writes : s.out.writeAll capacity n greetingData s.greeting = some (out, call)) :
    Output { s with out := out, greeting := call } := by
  cases output with
  | silent greeting idle tasks =>
    rw [greeting, idle] at writes
    obtain ⟨-, rfl, rfl⟩ := PluginOut.writeAll_locking writes
    exact .greets rfl (PluginOut.sending_idle [] greetingData) tasks
  | greets greeting sending tasks =>
    rcases PluginOut.writeAll_sending writes greeting sending with ⟨rest, holds, more⟩ | ⟨rfl, rfl⟩
    · exact .greets holds more tasks
    · refine @Output.free _ [] rfl ?_ ?_ ?_
      · simp [frames]
      · simp [tasks]
      · simp [tasks]
  | free greeting | held greeting =>
    rw [greeting] at writes
    cases writes

theorem line_output {text : String} (output : Output s) (greeted : s.greeting = .returned) :
    Output (readLine env text s) := by
  unfold readLine
  split
  · next req parsed =>
    apply output.quiet greeted
    · intro i t here _
      exact List.getElem?_append_left (List.getElem?_eq_some_iff.mp here).1 ▸ here
    · intro i t here writes
      rw [List.getElem?_append] at here
      split at here
      · exact here
      · have new := List.mem_of_getElem? here
        rw [List.mem_singleton] at new
        subst new
        exact absurd rfl writes
    · simp [Spawned.written]
  · exact output.quiet greeted (fun _ _ here _ => here) (fun _ _ here _ => here) rfl

theorem finish_output {i line : Nat} {id : UInt64} {result : Except String Bytes}
    (output : Output s) (here : s.tasks[i]? = some ⟨line, id, .working⟩) :
    Output { s with
      tasks := s.tasks.set i ⟨line, id, .responding (.of debug id result) .locking⟩ } := by
  have greeted : s.greeting = .returned := by
    cases output with
    | silent _ _ tasks | greets _ _ tasks => rw [tasks] at here; cases here
    | free greeting | held greeting => exact greeting
  apply output.quiet greeted
  · intro j t there writes
    rw [List.getElem?_set_ne, there]
    rintro rfl
    rw [here] at there
    cases there
    exact writes rfl
  · intro j t there writes
    by_cases same : i = j
    · subst same
      have inside := (List.getElem?_eq_some_iff.mp here).1
      rw [List.getElem?_set_self inside] at there
      cases there
      exact absurd rfl writes
    · rwa [List.getElem?_set_ne same] at there
  · exact filterMap_set_same here rfl

/-- A call that does not hold the lock can only take it, which it cannot while another does. -/
theorem writeAll_waiting {n : Nat} {data : Bytes} {out out' : PluginOut} {call call' : WriteAll}
    (writes : out.writeAll capacity n data call = some (out', call')) (waits : call.rest = none) :
    call = .locking := by
  cases call with
  | locking => rfl
  | writing rest | flushing => cases waits
  | returned => cases writes

theorem write_output {i n line : Nat} {id : UInt64} {resp : Response} {call call' : WriteAll}
    {out : PluginOut} (output : Output s)
    (here : s.tasks[i]? = some ⟨line, id, .responding resp call⟩)
    (writes : s.out.writeAll capacity n resp.resStr call = some (out, call')) :
    Output { s with out := out, tasks := s.tasks.set i ⟨line, id, .responding resp call'⟩ } := by
  have inside := (List.getElem?_eq_some_iff.mp here).1
  have now : (s.tasks.set i ⟨line, id, .responding resp call'⟩)[i]? =
      some ⟨line, id, .responding resp call'⟩ := List.getElem?_set_self inside
  cases output with
  | silent _ _ tasks | greets _ _ tasks => rw [tasks] at here; cases here
  | free greeting idle waits perm =>
    have waiting : call.rest = none := waits _ (List.mem_of_getElem? here)
    obtain rfl := writeAll_waiting writes waiting
    rw [idle] at writes
    obtain ⟨-, rfl, rfl⟩ := PluginOut.writeAll_locking writes
    refine .held greeting now rfl (PluginOut.sending_idle _ _) ?_ ?_
    · intro j t other there
      rw [List.getElem?_set_ne (Ne.symm other)] at there
      exact waits t (List.mem_of_getElem? there)
    · have same : (s.tasks.set i ⟨line, id, .responding resp (.writing resp.resStr)⟩).filterMap
          Spawned.written = s.tasks.filterMap Spawned.written := filterMap_set_same here rfl
      rwa [same]
  | @held order j line' id' resp' call'' rest greeting there holds sending waits perm =>
    by_cases same : i = j
    · subst same
      rw [here] at there
      cases there
      have others : ∀ (j : Nat) (t : Spawned), j ≠ i →
          (s.tasks.set i ⟨line, id, .responding resp call'⟩)[j]? = some t → t.rest = none := by
        intro j t other there
        rw [List.getElem?_set_ne (Ne.symm other)] at there
        exact waits j t other there
      have unwritten : Spawned.written ⟨line, id, .responding resp call⟩ = none := by
        cases call with
        | returned => cases holds
        | _ => rfl
      rcases PluginOut.writeAll_sending writes holds sending with ⟨rest, holds', more⟩ | ⟨rfl, rfl⟩
      · refine .held greeting now holds' more others ?_
        rw [filterMap_set_same here]
        · exact perm
        · rw [unwritten]
          cases call' with
          | returned => cases holds'
          | _ => rfl
      · refine @Output.free _ (order ++ [⟨line, resp⟩]) greeting ?_ ?_ ?_
        · simp [frames]
        · intro t ht
          obtain ⟨j, there⟩ := List.mem_iff_getElem?.mp ht
          by_cases same : j = i
          · subst same
            rw [now] at there
            cases there
            rfl
          · exact others j t same there
        · have new := filterMap_set_new (b := ⟨line, id, .responding resp .returned⟩) here unwritten rfl
          exact ((List.perm_append_singleton _ _).trans (perm.cons _)).trans new.symm
    · have waiting : call.rest = none := waits i _ same here
      obtain rfl := writeAll_waiting writes waiting
      have free := (PluginOut.writeAll_locking writes).1
      rw [sending.1] at free
      cases free

theorem step_output {a : Action} (h : step env debug capacity s a = some s') (output : Output s) :
    Output s' := by
  cases step_cases h with
  | greet writes => exact greet_output output writes
  | line greeted => exact line_output output greeted
  | finish here => exact finish_output output here
  | write here writes => exact write_output output here writes

/-! ## Which line a response is for -/

/-- The request lines among the lines, with their ids. -/
def wellFormed (env : Extern) (lines : List String) : List (Nat × UInt64) :=
  lines.zipIdx.filterMap fun (text, k) =>
    match Request.fromStr env text with
    | .ok req => some (k, req.id)
    | .error _ => none

/-- The request of the line finishes with the result. -/
def Finishes (line : Nat) (result : Except String Bytes) (s : State) (a : Action) : Prop :=
  ∃ i id, a = .finish i result ∧ s.tasks[i]? = some ⟨line, id, .working⟩

/-- Every well formed line has one task, which answers under its id, with what its request has
ended with. -/
structure Tracked (env : Extern) (debug : String → String)
    (ended : Nat → Except String Bytes → Prop) (s : State) : Prop where
  tasks : s.tasks.map (fun t => (t.line, t.id)) = wellFormed env s.lines
  responses : ∀ t ∈ s.tasks, ∀ resp call, t.phase = .responding resp call →
    ∃ result, ended t.line result ∧ resp = .of debug t.id result

theorem mem_wellFormed {lines : List String} {k : Nat} {id : UInt64} :
    (k, id) ∈ wellFormed env lines ↔ ∃ text req, lines[k]? = some text ∧
      Request.fromStr env text = .ok req ∧ req.id = id := by
  simp only [wellFormed, List.mem_filterMap, Prod.exists, List.mem_zipIdx_iff_getElem?]
  constructor
  · rintro ⟨text, k', there, parsed⟩
    split at parsed
    · next req h =>
      cases parsed
      exact ⟨text, req, there, h, rfl⟩
    · cases parsed
  · rintro ⟨text, req, there, parsed, rfl⟩
    exact ⟨text, k, there, by simp only [parsed]⟩

theorem wellFormed_snoc (lines : List String) (text : String) :
    wellFormed env (lines ++ [text]) = wellFormed env lines ++
      match Request.fromStr env text with
      | .ok req => [(lines.length, req.id)]
      | .error _ => [] := by
  simp only [wellFormed, List.zipIdx_append, List.filterMap_append, List.zipIdx_singleton]
  cases parsed : Request.fromStr env text <;> simp [parsed]

theorem nodup_wellFormed (lines : List String) : ((wellFormed env lines).map Prod.fst).Nodup := by
  induction lines using List.reverseRecOn with
  | nil => exact List.nodup_nil
  | append_singleton lines text ih =>
    rw [wellFormed_snoc, List.map_append]
    cases parsed : Request.fromStr env text with
    | error e => simpa using ih
    | ok req =>
      simp only [List.map_cons, List.map_nil]
      apply List.Nodup.append ih (List.nodup_singleton _)
      intro k old new
      rw [List.mem_singleton] at new
      subst new
      obtain ⟨⟨k, id⟩, mem, same⟩ := List.mem_map.mp old
      obtain ⟨text', req', there, -, -⟩ := mem_wellFormed.mp mem
      have inside := (List.getElem?_eq_some_iff.mp there).1
      change k = lines.length at same
      omega

theorem map_set_same {α β : Type} {f : α → β} {l : List α} {i : Nat} {a b : α}
    (h : l[i]? = some a) (same : f b = f a) : (l.set i b).map f = l.map f := by
  have all := filterMap_set_same (f := fun x => some (f x)) h (by rw [same])
  simpa only [List.filterMap_eq_map'] using all

theorem step_tracked {a : Action} {ended ended' : Nat → Except String Bytes → Prop}
    (before : ∀ line result, ended line result → ended' line result)
    (now : ∀ line result, Finishes line result s a → ended' line result)
    (h : step env debug capacity s a = some s') (tracked : Tracked env debug ended s) :
    Tracked env debug ended' s' := by
  have old (t : Spawned) (ht : t ∈ s.tasks) (resp : Response) (call : WriteAll)
      (phase : t.phase = .responding resp call) :
      ∃ result, ended' t.line result ∧ resp = .of debug t.id result := by
    obtain ⟨result, did, same⟩ := tracked.responses t ht resp call phase
    exact ⟨result, before _ _ did, same⟩
  have set {i line : Nat} {id : UInt64} {phase : Phase} {out : PluginOut} {resp : Response}
      {call : WriteAll} (here : s.tasks[i]? = some ⟨line, id, phase⟩)
      (answers : ∃ result, ended' line result ∧ resp = .of debug id result) :
      Tracked env debug ended' { s with
        out := out, tasks := s.tasks.set i ⟨line, id, .responding resp call⟩ } := by
    constructor
    · rw [← tracked.tasks]
      exact map_set_same here rfl
    · intro t ht resp' call' phase
      rcases List.mem_or_eq_of_mem_set ht with ht | rfl
      · exact old t ht resp' call' phase
      · cases phase
        exact answers
  cases step_cases h with
  | greet writes => exact ⟨tracked.tasks, old⟩
  | @line text greeted =>
    unfold readLine
    split
    · next req parsed =>
      constructor
      · simp only [List.map_append, tracked.tasks, wellFormed_snoc, parsed]
        rfl
      · intro t ht resp call phase
        rcases List.mem_append.mp ht with ht | ht
        · exact old t ht resp call phase
        · rw [List.mem_singleton] at ht
          subst ht
          cases phase
    · next e parsed =>
      constructor
      · simp only [tracked.tasks, wellFormed_snoc, parsed, List.append_nil]
      · exact old
  | finish here => exact set here ⟨_, now _ _ ⟨_, _, rfl, here⟩, rfl⟩
  | write here writes => exact set here (old _ (List.mem_of_getElem? here) _ _ rfl)

variable (env debug capacity) in
/-- In the run the request of the line has finished with the result. -/
def Ended (as : List Action) (line : Nat) (result : Except String Bytes) : Prop :=
  Runs.Happened (step env debug capacity) (Finishes line result) start as

theorem run_tracked {as : List Action} (run : Runs.run (step env debug capacity) start as = some s) :
    Tracked env debug (Ended env debug capacity as) s := by
  apply Runs.invariant_trace (I := fun as s => Tracked env debug (Ended env debug capacity as) s) run
  · exact ⟨rfl, by simp [start]⟩
  · intro pre a u v _ before tracked h
    apply step_tracked _ _ h tracked
    · intro line result ended
      exact (Runs.happened_snoc before).mpr (Or.inl ended)
    · intro line result finishes
      exact (Runs.happened_snoc before).mpr (Or.inr finishes)

/-! ## The frames -/

variable (env debug) in
/-- The response is that of a request line: it has the id of the line, and the output or the
error message that the request has finished with; its text is one line and can be read back. -/
structure Answers (ended : Nat → Except String Bytes → Prop) (lines : List String) (d : Document) :
    Prop where
  request : ∃ text req, lines[d.line]? = some text ∧ Request.fromStr env text = .ok req ∧
    d.response.id = req.id
  outcome :
    (∃ proof, ended d.line (.ok proof) ∧ d.response.output = some proof ∧ d.response.errMsg = none) ∨
    ∃ e, ended d.line (.error e) ∧ d.response.errMsg = some (debug e) ∧ d.response.output = none
  complete : Json.read d.response.toString.toList = some d.response.toJson
  terminated : d.response.resStr = asBytes d.response.toString ++ [10]
  oneLine : 10 ∉ asBytes d.response.toString

theorem document_some {t : Spawned} {d : Document} (h : t.document = some d) :
    d.line = t.line ∧ ∃ call, t.phase = .responding d.response call := by
  unfold Spawned.document at h
  split at h
  · next resp call phase =>
    cases h
    exact ⟨rfl, call, phase⟩
  · cases h

theorem document_written {t : Spawned} {d : Document} (h : t.written = some d) :
    t.document = some d := by
  unfold Spawned.written at h
  split at h
  · next resp phase =>
    cases h
    simp only [Spawned.document, phase]
  · cases h

theorem answers_document {d : Document} {ended : Nat → Except String Bytes → Prop}
    (tracked : Tracked env debug ended s) (h : d ∈ s.documents) :
    Answers env debug ended s.lines d := by
  obtain ⟨t, ht, responds⟩ := List.mem_filterMap.mp h
  obtain ⟨line, call, phase⟩ := document_some responds
  obtain ⟨result, ended, response⟩ := tracked.responses t ht _ _ phase
  rw [← line] at ended
  have mem : (t.line, t.id) ∈ wellFormed env s.lines := by
    rw [← tracked.tasks]
    exact List.mem_map_of_mem (f := fun t : Spawned => (t.line, t.id)) ht
  obtain ⟨text, req, there, parsed, id⟩ := mem_wellFormed.mp mem
  constructor
  · refine ⟨text, req, by rw [line]; exact there, parsed, ?_⟩
    rw [response, id]
    cases result <;> rfl
  · rw [response]
    cases result with
    | ok proof => exact Or.inl ⟨proof, ended, rfl, rfl⟩
    | error e => exact Or.inr ⟨e, ended, rfl, rfl⟩
  · exact d.response.read_toString
  · exact d.response.resStr_eq
  · exact d.response.newline_not_mem

theorem lines_documents (tasks : List Spawned) :
    ((tasks.filterMap Spawned.document).map Document.line).Sublist (tasks.map Spawned.line) := by
  induction tasks with
  | nil => exact .slnil
  | cons t tasks ih =>
    rw [List.filterMap_cons, List.map_cons]
    cases responds : t.document with
    | none => exact ih.cons _
    | some d =>
      have line := (document_some responds).1
      simp only [List.map_cons, line]
      exact ih.cons_cons _

/-- No two responses are for one line. -/
theorem nodup_documents {ended : Nat → Except String Bytes → Prop}
    (tracked : Tracked env debug ended s) :
    (s.documents.map Document.line).Nodup := by
  have lines : (s.tasks.map Spawned.line).Nodup := by
    have all : ((wellFormed env s.lines).map Prod.fst).Nodup := nodup_wellFormed s.lines
    rw [← tracked.tasks, List.map_map] at all
    exact all
  exact lines.sublist (lines_documents s.tasks)

/-- Responses that are written, and the others. -/
theorem documents_perm (tasks : List Spawned) : (tasks.filterMap Spawned.document).Perm
    (tasks.filterMap Spawned.written ++ tasks.filterMap Spawned.unwritten) := by
  induction tasks with
  | nil => exact .refl _
  | cons t tasks ih =>
    simp only [List.filterMap_cons]
    cases written : t.written with
    | some d =>
      have responds := document_written written
      simp only [responds, Spawned.unwritten, written, Option.isSome_some, ↓reduceIte]
      exact ih.cons d
    | none =>
      simp only [Spawned.unwritten, written, Option.isSome_none, Bool.false_eq_true, ↓reduceIte]
      cases t.document with
      | none => exact ih
      | some d => exact (ih.cons d).trans List.perm_middle.symm

/-- stdout is a prefix of the greeting and one frame for each of `docs`, and has the
frames of the responses that are written. -/
structure Framed (s : State) (docs : List Document) : Prop where
  all : docs.Perm s.documents
  stdout : s.out.writer.stdout <+: greetingData ++ frames docs
  written : ∀ t ∈ s.tasks, ∀ d, t.written = some d → ∃ pre post, docs = pre ++ d :: post ∧
    greetingData ++ frames (pre ++ [d]) <+: s.out.writer.stdout

theorem framed_of_order {order others : List Document} {sent : Bytes}
    (written : order.Perm (s.tasks.filterMap Spawned.written))
    (unwritten : others.Perm (s.tasks.filterMap Spawned.unwritten))
    (stdout : s.out.writer.stdout = greetingData ++ frames order ++ sent)
    (next : sent <+: frames others) : Framed s (order ++ others) := by
  constructor
  · exact (written.append unwritten).trans (documents_perm s.tasks).symm
  · obtain ⟨tail, next⟩ := next
    refine ⟨tail, ?_⟩
    rw [stdout, List.append_assoc, next]
    simp [frames]
  · intro t ht d hd
    have mem : d ∈ order := written.mem_iff.mpr (List.mem_filterMap.mpr ⟨t, ht, hd⟩)
    obtain ⟨pre, post, rfl⟩ := List.append_of_mem mem
    refine ⟨pre, post ++ others, by simp, frames post ++ sent, ?_⟩
    simp [stdout, frames]

theorem Output.framed (output : Output s) : ∃ docs, Framed s docs := by
  cases output with
  | silent greeting out tasks =>
    refine ⟨[], by simp [State.documents, tasks], ?_, by simp [tasks]⟩
    rw [out]
    exact List.nil_prefix
  | @greets rest greeting sending tasks =>
    obtain ⟨-, -, sent, stdout, whole⟩ := sending
    refine ⟨[], by simp [State.documents, tasks], ?_, by simp [tasks]⟩
    rw [stdout, ← whole]
    simp [frames, List.append_assoc]
  | @free order greeting out waits written =>
    refine ⟨_, framed_of_order written (.refl _) ?_ List.nil_prefix⟩
    rw [out, List.append_nil]
    rfl
  | @held order i line id resp call rest greeting here holds sending waits written =>
    obtain ⟨-, -, sent, stdout, whole⟩ := sending
    have mem : ⟨line, resp⟩ ∈ s.tasks.filterMap Spawned.unwritten := by
      refine List.mem_filterMap.mpr ⟨_, List.mem_of_getElem? here, ?_⟩
      cases call with
      | returned => cases holds
      | _ => rfl
    let waiting := (s.tasks.filterMap Spawned.unwritten).erase ⟨line, resp⟩
    refine ⟨_, framed_of_order written (List.perm_cons_erase mem).symm stdout ?_⟩
    refine ⟨s.out.writer.pending ++ rest ++ frames waiting, ?_⟩
    rw [← List.append_assoc, ← List.append_assoc, whole]
    rfl

variable (env debug capacity) in
/-- At any moment of any run: what is on stdout, which responses it is made of, that each
well formed line so far has its task and no other line has, and that the next line, if it
is malformed, changes nothing else. -/
theorem output_framed (as : List Action)
    (run : Runs.run (step env debug capacity) start as = some s) :
    (∃ docs, Framed s docs ∧ (docs.map Document.line).Nodup ∧
      ∀ d ∈ docs, Answers env debug (Ended env debug capacity as) s.lines d) ∧
    (∀ k id, (∃ t ∈ s.tasks, t.line = k ∧ t.id = id) ↔ ∃ text req, s.lines[k]? = some text ∧
      Request.fromStr env text = .ok req ∧ req.id = id) ∧
    (s.greeting = .returned → ∀ text, ∃ s', step env debug capacity s (.line text) = some s' ∧
      s'.lines = s.lines ++ [text] ∧ s'.greeting = .returned ∧ s'.out = s.out ∧
      ∀ e, Request.fromStr env text = .error e → s'.tasks = s.tasks) := by
  have output : Output s :=
    Runs.invariant run (.silent rfl rfl rfl) fun _ _ _ output h => step_output h output
  have tracked : Tracked env debug (Ended env debug capacity as) s := run_tracked run
  obtain ⟨docs, framed⟩ := output.framed
  refine ⟨⟨docs, framed, ?_, ?_⟩, ?_, ?_⟩
  · exact (framed.all.map Document.line).nodup_iff.mpr (nodup_documents tracked)
  · intro d hd
    exact answers_document tracked (framed.all.mem_iff.mp hd)
  · intro k id
    rw [← mem_wellFormed, ← tracked.tasks]
    simp
  · intro greeted text
    refine ⟨readLine env text s, by simp only [step, greeted, ↓reduceIte], ?_⟩
    unfold readLine
    split
    · next req parsed =>
      refine ⟨rfl, greeted, rfl, ?_⟩
      intro e malformed
      rw [parsed] at malformed
      cases malformed
    · exact ⟨rfl, greeted, rfl, fun _ _ => rfl⟩

section Demo

def requestLine : String := "\x7b\"id\":7,\"task\":" ++ Demo.text ++ "\x7d"

/-- The example sector as a request line. -/
def demoEnv : Extern :=
  { Demo.env with
    jsonFromSlice := fun b =>
      if b = asBytes requestLine then .ok (.obj [("id", .num 7), ("task", Demo.document)])
      else .error "expected value" }

/-- The `{:?}` of a text without characters to escape. -/
def demoDebug (text : String) : String := "\"" ++ text ++ "\""

/-- Two requests with a malformed line between them; the second is finished and answered first. -/
def twoRequests : List Action :=
  [.greet 0, .greet 0, .greet 0, .greet 5, .greet 14, .greet 0, .line requestLine, .line "\x7b",
    .line requestLine, .finish 1 (.error "no task"), .finish 0 (.ok [1, 2]), .write 1 0, .write 1 0,
    .write 1 0, .write 1 40, .write 1 7, .write 1 0, .write 0 0, .write 0 0, .write 0 0, .write 0 8]

theorem twoRequests_stdout :
    (Runs.run (step demoEnv demoDebug 8192) start twoRequests).map (fun s => s.out.writer.stdout) =
      some (asBytes ("c2 processor ready\n" ++
        "\x7b\"id\":7,\"err_msg\":\"\\\"no task\\\"\",\"output\":null\x7d\n" ++ "\x7b\"id\":7,")) := by
  decide +kernel

/-- The first request's output is to come in whole, as the text says. -/
theorem output_framed_demo : ∃ s docs,
    Runs.run (step demoEnv demoDebug 8192) start twoRequests = some s ∧
    s.out.writer.stdout = asBytes ("c2 processor ready\n" ++
      "\x7b\"id\":7,\"err_msg\":\"\\\"no task\\\"\",\"output\":null\x7d\n" ++ "\x7b\"id\":7,") ∧
    ⟨0, ⟨7, none, some [1, 2]⟩⟩ ∈ docs ∧ (Response.mk 7 none (some [1, 2])).toString =
      "\x7b\"id\":7,\"err_msg\":null,\"output\":\x7b\"proof\":[1,2]\x7d\x7d" ∧
    Ended demoEnv demoDebug 8192 twoRequests 0 (.ok [1, 2]) ∧
    Framed s docs ∧ (docs.map Document.line).Nodup ∧
      ∀ d ∈ docs, Answers demoEnv demoDebug (Ended demoEnv demoDebug 8192 twoRequests) s.lines d := by
  obtain ⟨s, run, stdout⟩ := Option.map_eq_some_iff.mp twoRequests_stdout
  have responses : (Runs.run (step demoEnv demoDebug 8192) start twoRequests).map State.documents =
      some [⟨0, ⟨7, none, some [1, 2]⟩⟩, ⟨2, ⟨7, some "\"no task\"", none⟩⟩] := by
    decide +kernel
  obtain ⟨⟨docs, framed, nodup, answers⟩, -, -⟩ := output_framed demoEnv demoDebug 8192 twoRequests run
  rw [run, Option.map_some, Option.some.injEq] at responses
  have listed : ⟨0, ⟨7, none, some [1, 2]⟩⟩ ∈ docs := by
    rw [framed.all.mem_iff, responses]
    exact List.mem_cons_self
  have ended : Ended demoEnv demoDebug 8192 twoRequests 0 (.ok [1, 2]) := by
    obtain ⟨proof, ended, output, -⟩ | ⟨e, -, -, output⟩ := (answers _ listed).outcome
    · cases output
      exact ended
    · cases output
  exact ⟨s, docs, run, stdout, listed, by decide +kernel, ended, framed, nodup, answers⟩

end Demo

end

end ClusterC2Plugin

end GpuProxy