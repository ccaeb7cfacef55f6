import GpuProxy.Runs

/-!
# Scripts that are run again

A script changes a state one statement at a time. Runs of it may end anywhere, and several
may be going on at once; a new one starts with what the state says is left. What a later run
meets again is done already: the statement then changes nothing or fails.
-/

namespace Script

variable {σ α : Type}

/-- A state, and what each run that is going on has left to do. -/
structure Execution (σ α : Type) where
  state : σ
  running : List (List α)

inductive Event where
  | start
  | next (run : Nat)
  | stop (run : Nat)
  deriving DecidableEq, Repr

/-- `exec` fails with `none`, and with it the run. A run with nothing left has succeeded. -/
def step (exec : σ → α → Option σ) (resume : σ → List α) (e : Execution σ α) :
    Event → Option (Execution σ α)
  | .start => some { e with running := e.running ++ [resume e.state] }
  | .next i =>
    match e.running[i]? with
    | some (a :: rest) =>
      match exec e.state a with
      | some t => some ⟨t, e.running.set i rest⟩
      | none => some { e with running := e.running.eraseIdx i }
    | _ => none
  | .stop i =>
    if i < e.running.length then some { e with running := e.running.eraseIdx i } else none

/-- The states of the script, and where a run starts in each. -/
structure Plan (exec : σ → α → Option σ) (resume : σ → List α) (script : List α) where
  states : Nat → σ
  base : Nat → Nat
  fresh : ∀ n a, script[n]? = some a → exec (states n) a = some (states (n + 1))
  again : ∀ n m a, n ≤ script.length → m < n → script[m]? = some a →
    exec (states n) a = some (states n) ∨ exec (states n) a = none
  resumes : ∀ n, n ≤ script.length → resume (states n) = script.drop (base n)
  base_le : ∀ n, n ≤ script.length → base n ≤ n

variable {exec : σ → α → Option σ} {resume : σ → List α} {script : List α}
  {e e' : Execution σ α} {ev : Event}

namespace Plan

variable (plan : Plan exec resume script) {n k : Nat}

/-- The first `n` statements are done, and every run is at one of the first `k` or behind them. -/
structure Within (n k : Nat) (e : Execution σ α) : Prop where
  state : e.state = plan.states n
  running : ∀ left ∈ e.running, ∃ m ≤ k, left = script.drop m

/-- What is met again after `n` statements changes nothing. -/
def Repeats (n : Nat) : Prop :=
  ∀ m a, plan.base n ≤ m → m < n → script[m]? = some a →
    exec (plan.states n) a = some (plan.states n)

variable {plan}

theorem Within.erase (within : plan.Within n k e) (i : Nat) :
    plan.Within n k { e with running := e.running.eraseIdx i } :=
  ⟨within.state, fun left there => within.running left (List.mem_of_mem_eraseIdx there)⟩

theorem Within.set {m i : Nat} {t : σ} {n' k' : Nat} (within : plan.Within n k e)
    (state : t = plan.states n') (grows : k ≤ k') (bound : m ≤ k') :
    plan.Within n' k' ⟨t, e.running.set i (script.drop m)⟩ := by
  refine ⟨state, fun left there => ?_⟩
  obtain there | rfl := List.mem_or_eq_of_mem_set there
  · obtain ⟨j, low, rfl⟩ := within.running left there
    exact ⟨j, low.trans grows, rfl⟩
  · exact ⟨m, bound, rfl⟩

/-- One step, where a run may start and no run goes past the first `k` statements. -/
theorem step_within (within : plan.Within n k e) (bound : n ≤ script.length) (low : plan.base n ≤ k)
    (upto : k ≤ n) (h : step exec resume e ev = some e') :
    plan.Within n k e' ∨
      ∃ a, script[k]? = some a ∧ ∃ t, exec (plan.states n) a = some t ∧
        ∃ i, e' = ⟨t, e.running.set i (script.drop (k + 1))⟩ := by
  cases ev with
  | start =>
    cases h
    left
    refine ⟨within.state, fun left there => ?_⟩
    rcases List.mem_append.mp there with there | there
    · exact within.running left there
    · cases List.mem_singleton.mp there
      exact ⟨plan.base n, low, by rw [within.state, plan.resumes n bound]⟩
  | stop i =>
    simp only [step, Option.ite_none_right_eq_some, Option.some.injEq] at h
    obtain ⟨-, rfl⟩ := h
    exact .inl (within.erase i)
  | next i =>
    simp only [step] at h
    split at h
    · next a rest turn =>
      obtain ⟨m, later, left⟩ := within.running _ (List.mem_of_getElem? turn)
      have get : script[m]? = some a := by
        rw [← List.head?_drop, ← left, List.head?_cons]
      have after : rest = script.drop (m + 1) := by
        rw [← List.tail_drop, ← left, List.tail_cons]
      rw [after] at h
      split at h
      · next t executed =>
        rw [within.state] at executed
        cases h
        by_cases before : m < k
        · left
          obtain same | fails := plan.again n m a bound (by omega) get
          · rw [same] at executed
            cases executed
            exact within.set rfl (Nat.le_refl k) before
          · rw [fails] at executed
            cases executed
        · obtain rfl : m = k := by omega
          exact .inr ⟨a, get, t, executed, i, rfl⟩
      · cases h
        exact .inl (within.erase i)
    · cases h

/-- In every reachable state the script has been done up to some statement. -/
theorem reachable_within (reach : Runs.Reachable (step exec resume) ⟨plan.states 0, []⟩ e) :
    ∃ n ≤ script.length, plan.Within n n e := by
  obtain ⟨as, run⟩ := reach
  apply Runs.invariant (I := fun e => ∃ n ≤ script.length, plan.Within n n e) run
  · exact ⟨0, Nat.zero_le _, rfl, by simp⟩
  · rintro u ev v ⟨n, bound, within⟩ h
    obtain same | ⟨a, get, t, executed, i, rfl⟩ :=
      step_within within bound (plan.base_le n bound) (Nat.le_refl n) h
    · exact ⟨n, bound, same⟩
    · obtain ⟨more, -⟩ := List.getElem?_eq_some_iff.mp get
      rw [plan.fresh n a get] at executed
      cases executed
      exact ⟨n + 1, more, within.set rfl (Nat.le_succ n) (Nat.le_refl _)⟩

/-- A run that has succeeded has left the whole script done. -/
theorem state_of_success (reach : Runs.Reachable (step exec resume) ⟨plan.states 0, []⟩ e)
    (success : [] ∈ e.running) : e.state = plan.states script.length := by
  obtain ⟨n, bound, within⟩ := reachable_within reach
  obtain ⟨m, low, nothing⟩ := within.running [] success
  have ended : script.length ≤ m := List.drop_eq_nil_iff.mp nothing.symm
  obtain rfl : n = script.length := by omega
  exact within.state

/-- From a statement that fails again no run goes on. -/
theorem no_success (within : plan.Within n k e) (bound : n ≤ script.length)
    (low : plan.base n ≤ k) (done : k < n) {a : α} (get : script[k]? = some a)
    (fails : exec (plan.states n) a = none) {t : Execution σ α}
    (reach : Runs.Reachable (step exec resume) e t) : [] ∉ t.running := by
  obtain ⟨as, run⟩ := reach
  have still : plan.Within n k t := by
    apply Runs.invariant run within
    intro u ev v within h
    obtain same | ⟨b, get', t, executed, -⟩ := step_within within bound low (Nat.le_of_lt done) h
    · exact same
    · rw [get] at get'
      cases get'
      rw [fails] at executed
      cases executed
  intro success
  obtain ⟨m, later, nothing⟩ := still.running [] success
  have ended : script.length ≤ m := List.drop_eq_nil_iff.mp nothing.symm
  omega

/-- A run that meets nothing that fails succeeds, left alone. -/
theorem run_alone {m : Nat} (bound : n ≤ script.length) (reached : m ≤ n)
    (repeats : ∀ j a, m ≤ j → j < n → script[j]? = some a →
      exec (plan.states n) a = some (plan.states n)) :
    ∃ t, Runs.Reachable (step exec resume) ⟨plan.states n, [script.drop m]⟩ t ∧ [] ∈ t.running := by
  generalize left : script.length - m = d
  induction d generalizing m n with
  | zero =>
    have ended : script.drop m = [] := List.drop_eq_nil_iff.mpr (by omega)
    exact ⟨_, ⟨[], rfl⟩, by simp [ended]⟩
  | succ d ih =>
    have more : m < script.length := by omega
    have get : script[m]? = some script[m] := List.getElem?_eq_getElem more
    have turn : script.drop m = script[m] :: script.drop (m + 1) := List.drop_eq_getElem_cons more
    have moves {n' : Nat} (executed : exec (plan.states n) script[m] = some (plan.states n')) :
        step exec resume ⟨plan.states n, [script.drop m]⟩ (.next 0) =
          some ⟨plan.states n', [script.drop (m + 1)]⟩ := by
      simp only [turn, step, List.getElem?_cons_zero, executed, List.set_cons_zero]
    by_cases before : m < n
    · have moved := moves (repeats m _ (Nat.le_refl m) before get)
      obtain ⟨t, ⟨as, run⟩, success⟩ := ih bound before
        (fun j a low high there => repeats j a (by omega) high there) (by omega)
      exact ⟨t, ⟨.next 0 :: as, by simp [moved, run]⟩, success⟩
    · obtain rfl : m = n := by omega
      have moved := moves (plan.fresh m _ get)
      obtain ⟨t, ⟨as, run⟩, success⟩ := ih (n := m + 1) more (Nat.le_refl _)
        (fun j a low high _ => by omega) (by omega)
      exact ⟨t, ⟨.next 0 :: as, by simp [moved, run]⟩, success⟩

/-- Where no run is going on, the script can still succeed exactly if nothing a new run meets
again fails. -/
theorem can_succeed_iff (within : plan.Within n n e) (bound : n ≤ script.length)
    (quiet : e.running = []) :
    (∃ t, Runs.Reachable (step exec resume) e t ∧ [] ∈ t.running) ↔ plan.Repeats n := by
  obtain ⟨state, running⟩ := e
  obtain rfl : state = plan.states n := within.state
  cases quiet
  constructor
  · rintro ⟨t, reach, success⟩ m a low done get
    obtain same | fails := plan.again n m a bound done get
    · exact same
    · have idle : plan.Within n m ⟨plan.states n, []⟩ := ⟨rfl, by simp⟩
      exact absurd success (no_success idle bound low done get fails reach)
  · intro repeats
    obtain ⟨t, ⟨as, run⟩, success⟩ := run_alone bound (plan.base_le n bound) repeats
    have started : step exec resume ⟨plan.states n, []⟩ .start =
        some ⟨plan.states n, [script.drop (plan.base n)]⟩ := by
      simp [step, plan.resumes n bound]
    exact ⟨t, ⟨.start :: as, by simp [started, run]⟩, success⟩

end Plan

end Script
