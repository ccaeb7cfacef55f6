import GpuProxy.Runs

/-!
# Programs over atomic calls

A handler is a tree: it either has its answer or makes one call and goes on
with the response. The same tree has two readings. `exec` runs it alone, one
call after the other. In a `Pool` every thread is such a tree and a step
performs one call of one thread, so calls of different threads interleave.

`Sat P R Q` is a contract: under responses in `R` the program makes only calls
in `P` and ends in `Q`; `Pool.step_sat` is its rule for threads. `interpret`
carries each call out by a program over other calls.
-/

inductive Program (Op : Type) (Res : Op → Type) (α : Type) where
  | ret (a : α)
  | call (op : Op) (k : Res op → Program Op Res α)

namespace Program

variable {Op : Type} {Res : Op → Type} {α β : Type}

def bind : Program Op Res α → (α → Program Op Res β) → Program Op Res β
  | ret a, f => f a
  | call op k, f => call op fun r => (k r).bind f

instance : Monad (Program Op Res) where
  pure := ret
  bind := bind

@[simp] theorem pure_eq (a : α) : (pure a : Program Op Res α) = ret a := rfl

@[simp] theorem ret_bind (a : α) (f : α → Program Op Res β) : (ret a >>= f) = f a := rfl

@[simp] theorem call_bind (op : Op) (k : Res op → Program Op Res α) (f : α → Program Op Res β) :
    (call op k >>= f) = call op fun r => k r >>= f := rfl

theorem bind_assoc {γ : Type} (p : Program Op Res α) (f : α → Program Op Res β)
    (g : β → Program Op Res γ) : (p >>= f) >>= g = p >>= fun a => f a >>= g := by
  induction p with
  | ret a => rfl
  | call op k ih =>
    change call op (fun r => (k r >>= f) >>= g) = call op fun r => k r >>= fun a => f a >>= g
    simp only [ih]

theorem call_congr {op : Op} {k k' : Res op → Program Op Res α} (h : ∀ r, k r = k' r) :
    call op k = call op k' := congrArg (call op) (funext h)

/-- One call, answering with its response. -/
def perform (op : Op) : Program Op Res (Res op) := call op ret

/-- The call the program makes next. -/
def next : Program Op Res α → Option Op
  | ret _ => none
  | call op _ => some op

theorem next_some {p : Program Op Res α} {op : Op} (h : p.next = some op) :
    ∃ k, p = call op k := by
  cases p with
  | ret a => cases h
  | call op' k =>
    cases h
    exact ⟨k, rfl⟩

def answer : Program Op Res α → Option α
  | ret a => some a
  | call _ _ => none

@[simp] theorem next_ret (a : α) : (ret a : Program Op Res α).next = none := rfl

@[simp] theorem next_call (op : Op) (k : Res op → Program Op Res α) :
    (call op k).next = some op := rfl

@[simp] theorem answer_ret (a : α) : (ret a : Program Op Res α).answer = some a := rfl

@[simp] theorem answer_call (op : Op) (k : Res op → Program Op Res α) :
    (call op k).answer = none := rfl

section Contracts

variable {P P' : Op → Prop} {R R' : (op : Op) → Res op → Prop} {Q Q' : α → Prop}

def Sat (P : Op → Prop) (R : (op : Op) → Res op → Prop) (Q : α → Prop) :
    Program Op Res α → Prop
  | ret a => Q a
  | call op k => P op ∧ ∀ r, R op r → Sat P R Q (k r)

@[simp] theorem sat_ret (a : α) : Sat P R Q (ret a) ↔ Q a := Iff.rfl

@[simp] theorem sat_call (op : Op) (k : Res op → Program Op Res α) :
    Sat P R Q (call op k) ↔ P op ∧ ∀ r, R op r → Sat P R Q (k r) := Iff.rfl

theorem Sat.mono {p : Program Op Res α} (h : Sat P R Q p) (hP : ∀ op, P op → P' op)
    (hR : ∀ op r, R' op r → R op r) (hQ : ∀ a, Q a → Q' a) : Sat P' R' Q' p := by
  induction p with
  | ret a => exact hQ a h
  | call op k ih => exact ⟨hP op h.1, fun r hr => ih r (h.2 r (hR op r hr))⟩

theorem Sat.bind {T : β → Prop} {p : Program Op Res α} {f : α → Program Op Res β}
    (h : Sat P R Q p) (hf : ∀ a, Q a → Sat P R T (f a)) : Sat P R T (p >>= f) := by
  induction p with
  | ret a => exact hf a h
  | call op k ih => exact ⟨h.1, fun r hr => ih r (h.2 r hr)⟩

/-- Every program meets the contract that asks for nothing. -/
theorem sat_true (p : Program Op Res α) : p.Sat (fun _ => True) R fun _ => True := by
  induction p with
  | ret a => trivial
  | call op k ih => exact ⟨trivial, fun r _ => ih r⟩

end Contracts

section Serial

variable {σ : Type} (act : (op : Op) → σ → Res op × σ)

/-- The program alone: each call sees the state the one before it left. -/
def exec : Program Op Res α → σ → α × σ
  | ret a, s => (a, s)
  | call op k, s => exec (k (act op s).1) (act op s).2

@[simp] theorem exec_ret (a : α) (s : σ) : exec act (ret a) s = (a, s) := rfl

@[simp] theorem exec_call (op : Op) (k : Res op → Program Op Res α) (s : σ) :
    exec act (call op k) s = exec act (k (act op s).1) (act op s).2 := rfl

theorem exec_bind (p : Program Op Res α) (f : α → Program Op Res β) (s : σ) :
    exec act (p >>= f) s = exec act (f (exec act p s).1) (exec act p s).2 := by
  induction p generalizing s with
  | ret a => rfl
  | call op k ih => exact ih _ _

end Serial

section Interpretation

variable {Op' : Type} {Res' : Op' → Type}

/-- The same program over other calls: `f` carries out each of its calls. -/
def interpret (f : (op : Op) → Program Op' Res' (Res op)) :
    Program Op Res α → Program Op' Res' α
  | ret a => ret a
  | call op k => f op >>= fun r => interpret f (k r)

variable {f : (op : Op) → Program Op' Res' (Res op)}

theorem interpret_sat {P : Op → Prop} {R : (op : Op) → Res op → Prop} {Q : α → Prop}
    {P' : Op' → Prop} {R' : (op : Op') → Res' op → Prop}
    (calls : ∀ op, P op → (f op).Sat P' R' (R op)) {p : Program Op Res α} (h : p.Sat P R Q) :
    (interpret f p).Sat P' R' Q := by
  induction p with
  | ret a => exact h
  | call op k ih => exact (calls op h.1).bind fun r hr => ih r (h.2 r hr)

/-- Alone, a program does what its interpretation does, if that holds of each call. -/
theorem exec_interpret {σ τ : Type} {act : (op : Op) → σ → Res op × σ}
    {act' : (op : Op') → τ → Res' op × τ} {view : τ → σ}
    (calls : ∀ op t, ((exec act' (f op) t).1, view (exec act' (f op) t).2) = act op (view t))
    (p : Program Op Res α) (t : τ) :
    ((exec act' (interpret f p) t).1, view (exec act' (interpret f p) t).2) =
      exec act p (view t) := by
  induction p generalizing t with
  | ret a => rfl
  | call op k ih =>
    simp only [interpret, exec_bind, exec_call, ih, ← calls op t]

end Interpretation

end Program

/-- What a call answers and leaves. One that fails leaves everything as it was. -/
def unlessFails {ε α σ : Type} (fails : Option ε) (done : Except ε α × σ) (s : σ) : Except ε α × σ :=
  match fails with
  | some e => (.error e, s)
  | none => done

/-- Threads over one shared state. -/
structure Pool (σ Op : Type) (Res : Op → Type) (α : Type) where
  shared : σ
  threads : List (Program Op Res α)

namespace Pool

variable {σ Op : Type} {Res : Op → Type} {α χ : Type}

/-- One call of thread `i`; `ch` resolves what the call leaves open. -/
def step (act : χ → (op : Op) → σ → Res op × σ) (pool : Pool σ Op Res α) :
    Nat × χ → Option (Pool σ Op Res α)
  | (i, ch) =>
    match pool.threads[i]? with
    | some (.call op k) =>
      some ⟨(act ch op pool.shared).2, pool.threads.set i (k (act ch op pool.shared).1)⟩
    | _ => none

def Finished (pool : Pool σ Op Res α) : Prop := ∀ p ∈ pool.threads, ∃ a, p = .ret a

/-- A thread that has ended has no turn. -/
theorem turn_ne {pool : Pool σ Op Res α} {i j : Nat} {op : Op} {k : Res op → Program Op Res α}
    {a : α} (turn : pool.threads[i]? = some (.call op k))
    (ended : pool.threads[j]? = some (.ret a)) : i ≠ j := by
  rintro rfl
  rw [turn] at ended
  cases ended

theorem finished_of_answers {pool : Pool σ Op Res α} {as : List α}
    (h : pool.threads.map Program.answer = as.map some) : pool.Finished := by
  intro p hp
  have hm : p.answer ∈ as.map some := h ▸ List.mem_map_of_mem hp
  obtain ⟨a, -, ha⟩ := List.mem_map.mp hm
  cases p with
  | ret b => exact ⟨b, rfl⟩
  | call op k => cases ha

theorem step_some {act : χ → (op : Op) → σ → Res op × σ} {pool pool' : Pool σ Op Res α} {i : Nat}
    {ch : χ} : step act pool (i, ch) = some pool' ↔
      ∃ op k, pool.threads[i]? = some (.call op k) ∧
        pool' = ⟨(act ch op pool.shared).2, pool.threads.set i (k (act ch op pool.shared).1)⟩ := by
  simp only [step]
  constructor
  · intro h
    split at h
    · next op k hi => cases h; exact ⟨op, k, hi, rfl⟩
    · cases h
  · rintro ⟨op, k, hi, rfl⟩
    simp [hi]

theorem run_length {act : χ → (op : Op) → σ → Res op × σ} {pool pool' : Pool σ Op Res α}
    {as : List (Nat × χ)} (h : Runs.run (step act) pool as = some pool') :
    pool'.threads.length = pool.threads.length := by
  refine Runs.invariant (I := fun p => p.threads.length = pool.threads.length) h rfl ?_
  rintro p ⟨i, ch⟩ p' hp hs
  obtain ⟨op, k, -, rfl⟩ := step_some.mp hs
  simpa using hp

/-- The interleaved reading keeps what every thread's contract promises. -/
theorem step_sat {act : χ → (op : Op) → σ → Res op × σ} {P : Op → Prop}
    {R : (op : Op) → Res op → Prop} {Q : α → Prop} {I : σ → Prop}
    (keep : ∀ ch op s, P op → I s → R op (act ch op s).1 ∧ I (act ch op s).2)
    {pool pool' : Pool σ Op Res α} {a : Nat × χ} (hs : step act pool a = some pool')
    (hi : I pool.shared) (ht : ∀ p ∈ pool.threads, p.Sat P R Q) :
    I pool'.shared ∧ ∀ p ∈ pool'.threads, p.Sat P R Q := by
  obtain ⟨i, ch⟩ := a
  obtain ⟨op, k, hk, rfl⟩ := step_some.mp hs
  have contract := ht _ (List.mem_of_getElem? hk)
  obtain ⟨hr, hi'⟩ := keep ch op pool.shared contract.1 hi
  refine ⟨hi', fun p hp => ?_⟩
  rcases List.mem_or_eq_of_mem_set hp with hp | rfl
  · exact ht p hp
  · exact contract.2 _ hr

/-- The rule over a whole run, and what it says of a thread that has its answer. -/
theorem run_sat {act : χ → (op : Op) → σ → Res op × σ} {P : Op → Prop}
    {R : (op : Op) → Res op → Prop} {Q : α → Prop} {I : σ → Prop}
    (keep : ∀ ch op s, P op → I s → R op (act ch op s).1 ∧ I (act ch op s).2)
    {pool pool' : Pool σ Op Res α} {as : List (Nat × χ)}
    (h : Runs.run (step act) pool as = some pool') (hi : I pool.shared)
    (ht : ∀ p ∈ pool.threads, p.Sat P R Q) :
    I pool'.shared ∧ ∀ p ∈ pool'.threads, p.Sat P R Q :=
  Runs.invariant (I := fun pool => I pool.shared ∧ ∀ p ∈ pool.threads, p.Sat P R Q) h ⟨hi, ht⟩
    fun _ _ _ ih hs => step_sat keep hs ih.1 ih.2

end Pool
