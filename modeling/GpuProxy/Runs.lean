import Mathlib.Data.List.Infix

/-!
# Runs of a partial step function

A system is a state type with a partial step function. The action carries
every choice a scheduler, a network or a user makes, so a list of actions
determines the run. A property of every interleaving is a property of every
list of actions that runs.
-/

namespace Runs

variable {σ α : Type} (step : σ → α → Option σ)

/-- The state after the actions, or `none` where one of them is not enabled. -/
def run : σ → List α → Option σ
  | s, [] => some s
  | s, a :: as => (step s a).bind fun t => run t as

/-- `P` holds of every step taken, in the state before it. -/
def Along (P : σ → α → Prop) (s : σ) (as : List α) : Prop :=
  ∀ pre a post t, as = pre ++ a :: post → run step s pre = some t → P t a

/-- Some step of the run was a `P`, in the state before it. -/
def Happened (P : σ → α → Prop) (s : σ) (as : List α) : Prop :=
  ∃ pre a post t, as = pre ++ a :: post ∧ run step s pre = some t ∧ P t a

/-- `Q` holds in every state the run passes through, its ends included. -/
def Always (Q : σ → Prop) (s : σ) (as : List α) : Prop :=
  ∀ pre t, pre <+: as → run step s pre = some t → Q t

def Reachable (s t : σ) : Prop := ∃ as, run step s as = some t

variable {step}

@[simp] theorem run_nil (s : σ) : run step s [] = some s := rfl

@[simp] theorem run_cons (s : σ) (a : α) (as : List α) :
    run step s (a :: as) = (step s a).bind fun t => run step t as := rfl

theorem run_append (s : σ) (as bs : List α) :
    run step s (as ++ bs) = (run step s as).bind fun t => run step t bs := by
  induction as generalizing s with
  | nil => rfl
  | cons a as ih =>
    simp only [List.cons_append, run_cons]
    cases step s a with
    | none => rfl
    | some t => exact ih t

theorem run_append_some {s u : σ} {as bs : List α} (h : run step s (as ++ bs) = some u) :
    ∃ t, run step s as = some t ∧ run step t bs = some u := by
  rw [run_append] at h
  exact Option.bind_eq_some_iff.mp h

theorem run_cons_some {s u : σ} {a : α} {as : List α} (h : run step s (a :: as) = some u) :
    ∃ t, step s a = some t ∧ run step t as = some u :=
  Option.bind_eq_some_iff.mp h

theorem run_snoc_some {s u : σ} {as : List α} {a : α} (h : run step s (as ++ [a]) = some u) :
    ∃ t, run step s as = some t ∧ step t a = some u := by
  obtain ⟨t, ht, hu⟩ := run_append_some h
  obtain ⟨v, hv, hn⟩ := run_cons_some hu
  cases hn
  exact ⟨t, ht, hv⟩

theorem run_snoc {s t u : σ} {as : List α} {a : α} (h : run step s as = some t)
    (hs : step t a = some u) : run step s (as ++ [a]) = some u := by
  simp [run_append, h, hs]

/-- A step in the middle of a run, with the states around it. -/
theorem run_split {s u : σ} {pre post : List α} {a : α}
    (h : run step s (pre ++ a :: post) = some u) :
    ∃ t v, run step s pre = some t ∧ step t a = some v ∧ run step v post = some u := by
  obtain ⟨t, ht, hu⟩ := run_append_some h
  obtain ⟨v, hv, hp⟩ := run_cons_some hu
  exact ⟨t, v, ht, hv, hp⟩

/-- The induction rule for facts that relate the state to the actions so far. -/
theorem invariant_trace {I : List α → σ → Prop} {s t : σ} {as : List α}
    (h : run step s as = some t) (start : I [] s)
    (keep : ∀ pre a u v, pre ++ [a] <+: as → run step s pre = some u → I pre u →
      step u a = some v → I (pre ++ [a]) v) : I as t := by
  induction as using List.reverseRecOn generalizing t with
  | nil => cases h; exact start
  | append_singleton as a ih =>
    obtain ⟨u, hu, hs⟩ := run_snoc_some h
    have before : I as u := ih hu fun pre b v w hp => keep pre b v w (hp.trans (List.prefix_append _ _))
    exact keep as a u t (List.prefix_refl _) hu before hs

/-- The same where of the actions only those of the run matter. -/
theorem invariant_listed {I : List α → σ → Prop} {s t : σ} {as : List α}
    (h : run step s as = some t) (start : I [] s)
    (keep : ∀ pre a u v, a ∈ as → run step s pre = some u → I pre u → step u a = some v →
      I (pre ++ [a]) v) : I as t := by
  apply invariant_trace h start
  intro pre a u v inside before holds moved
  have listed : a ∈ as := inside.subset (List.mem_append_right pre (List.mem_singleton_self a))
  exact keep pre a u v listed before holds moved

/-- What every step preserves holds after every run. -/
theorem invariant {I : σ → Prop} {s t : σ} {as : List α} (h : run step s as = some t)
    (start : I s) (keep : ∀ u a v, I u → step u a = some v → I v) : I t :=
  invariant_trace (I := fun _ => I) h start fun _ a u v _ _ hu hs => keep u a v hu hs

/-- The same where a step preserves `I` only under a condition the run meets. -/
theorem invariant_along {I : σ → Prop} {P : σ → α → Prop} {s t : σ} {as : List α}
    (h : run step s as = some t) (start : I s) (ok : Along step P s as)
    (keep : ∀ u a v, I u → P u a → step u a = some v → I v) : I t := by
  apply invariant_trace (I := fun _ => I) h start
  intro pre a u v hp hu hi hs
  obtain ⟨post, rfl⟩ := hp
  exact keep u a v hi (ok pre a post u (by simp) hu) hs

theorem happened_nil (P : σ → α → Prop) (s : σ) : ¬ Happened step P s [] := by
  rintro ⟨pre, a, post, t, he, -⟩
  simp at he

theorem happened_snoc {P : σ → α → Prop} {s t : σ} {as : List α} {a : α}
    (h : run step s as = some t) :
    Happened step P s (as ++ [a]) ↔ Happened step P s as ∨ P t a := by
  constructor
  · rintro ⟨pre, b, post, u, he, hu, hp⟩
    rcases List.eq_nil_or_concat' post with rfl | ⟨post, c, rfl⟩
    · obtain ⟨rfl, hb⟩ := List.append_inj' he rfl
      cases hb
      rw [h] at hu
      cases hu
      exact Or.inr hp
    · rw [← List.cons_append, ← List.append_assoc] at he
      obtain ⟨rfl, -⟩ := List.append_inj' he rfl
      exact Or.inl ⟨pre, b, post, u, rfl, hu, hp⟩
  · rintro (⟨pre, b, post, u, rfl, hu, hp⟩ | hp)
    · exact ⟨pre, b, post ++ [a], u, by simp, hu, hp⟩
    · exact ⟨as, a, [], t, rfl, h, hp⟩

theorem Along.restrict {P : σ → α → Prop} {s : σ} {as bs : List α} (h : Along step P s bs)
    (hp : as <+: bs) : Along step P s as := by
  obtain ⟨tail, rfl⟩ := hp
  intro pre a post t he ht
  exact h pre a (post ++ tail) t (by simp [he]) ht

theorem Along.drop {P : σ → α → Prop} {s t : σ} {as bs : List α}
    (h : Along step P s (as ++ bs)) (ht : run step s as = some t) : Along step P t bs := by
  intro pre a post u he hu
  apply h (as ++ pre) a post u (by simp [he])
  simp [run_append, ht, hu]

theorem Always.along {Q : σ → Prop} {s : σ} {as : List α} (h : Always step Q s as) :
    Along step (fun t _ => Q t) s as := by
  rintro pre a post t rfl ht
  exact h pre t (List.prefix_append _ _) ht

theorem Always.last {Q : σ → Prop} {s t : σ} {as : List α} (h : Always step Q s as)
    (ht : run step s as = some t) : Q t :=
  h as t (List.prefix_refl _) ht

/-- An invariant of the steps of a run holds in every state it passes through. -/
theorem always_of_along {I : σ → Prop} {P : σ → α → Prop} {s : σ} {as : List α}
    (start : I s) (ok : Along step P s as)
    (keep : ∀ u a v, I u → P u a → step u a = some v → I v) : Always step I s as := by
  intro pre t hp ht
  exact invariant_along ht start (ok.restrict hp) keep

theorem along_congr {P Q : σ → α → Prop} {s : σ} {as : List α} (h : ∀ s a, P s a ↔ Q s a) :
    Along step P s as ↔ Along step Q s as := by
  simp only [Along, h]

theorem along_nil (P : σ → α → Prop) (s : σ) : Along step P s [] := by
  intro pre a post t he
  simp at he

theorem along_cons {P : σ → α → Prop} {s : σ} {a : α} {as : List α} :
    Along step P s (a :: as) ↔ P s a ∧ ∀ t, step s a = some t → Along step P t as := by
  constructor
  · intro h
    refine ⟨h [] a as s rfl rfl, fun t ht => ?_⟩
    exact h.drop (by simp [ht] : run step s [a] = some t)
  · rintro ⟨first, rest⟩ pre b post u he hu
    cases pre with
    | nil =>
      cases he
      cases hu
      exact first
    | cons c pre =>
      cases he
      obtain ⟨t, ht, hu⟩ := run_cons_some hu
      exact rest t ht pre b post u rfl hu

/-- A condition on the actions alone. -/
theorem along_of_mem {P : σ → α → Prop} {s : σ} {as : List α} (h : ∀ a ∈ as, ∀ t, P t a) :
    Along step P s as := by
  intro pre a post t he _
  exact h a (by simp [he]) t

theorem along_snoc {P : σ → α → Prop} {s t : σ} {as : List α} {a : α} (along : Along step P s as)
    (h : run step s as = some t) (last : P t a) : Along step P s (as ++ [a]) := by
  intro pre b post u he hu
  rcases List.eq_nil_or_concat' post with rfl | ⟨post, c, rfl⟩
  · obtain ⟨rfl, same⟩ := List.append_inj' he rfl
    cases same
    rw [h] at hu
    cases hu
    exact last
  · rw [← List.cons_append, ← List.append_assoc] at he
    obtain ⟨rfl, -⟩ := List.append_inj' he rfl
    exact along pre b post u rfl hu

/-- `Along` for a concrete run, computed. -/
def checkAlong (step : σ → α → Option σ) (check : σ → α → Bool) : σ → List α → Bool
  | _, [] => true
  | s, a :: as =>
    check s a &&
      match step s a with
      | some t => checkAlong step check t as
      | none => true

theorem along_of_check {P : σ → α → Prop} {check : σ → α → Bool}
    (sound : ∀ s a, check s a = true → P s a) {s : σ} {as : List α}
    (h : checkAlong step check s as = true) : Along step P s as := by
  induction as generalizing s with
  | nil => exact along_nil P s
  | cons a as ih =>
    obtain ⟨first, rest⟩ := Bool.and_eq_true_iff.mp h
    refine along_cons.mpr ⟨sound s a first, fun t ht => ih ?_⟩
    rwa [ht] at rest

/-- Where a step from a state in `I` keeps `Q` exactly under `P`, a run keeps it exactly
where all its steps are under `P`. -/
theorem always_iff_along_of {I : σ → Prop} {P : σ → α → Prop} {Q : σ → Prop} {s t : σ} {as : List α}
    (h : run step s as = some t) (holds : I s) (keep : ∀ u a v, I u → step u a = some v → I v)
    (start : Q s) (exact : ∀ u a v, I u → Q u → step u a = some v → (Q v ↔ P u a)) :
    Always step Q s as ↔ Along step P s as := by
  constructor
  · rintro always pre a post u rfl hu
    obtain ⟨u', v, hu', hv, -⟩ := run_split h
    rw [hu] at hu'
    cases hu'
    have hi : I u := invariant hu holds keep
    apply (exact u a v hi (always pre u (List.prefix_append _ _) hu) hv).mp
    exact always (pre ++ [a]) v (by simp) (run_snoc hu hv)
  · intro along pre t hp ht
    refine (invariant_along (I := fun u => I u ∧ Q u) ht ⟨holds, start⟩ (along.restrict hp) ?_).2
    intro u a v hu hp hs
    exact ⟨keep u a v hu.1 hs, (exact u a v hu.1 hu.2 hs).mpr hp⟩

/-- The same where every state will do. -/
theorem always_iff_along {P : σ → α → Prop} {Q : σ → Prop} {s t : σ} {as : List α}
    (h : run step s as = some t) (start : Q s)
    (exact : ∀ u a v, Q u → step u a = some v → (Q v ↔ P u a)) :
    Always step Q s as ↔ Along step P s as :=
  always_iff_along_of (I := fun _ => True) h trivial (fun _ _ _ _ _ => trivial) start
    fun u a v _ => exact u a v

section Collect

variable {β : Type}

/-- What the steps of a run contribute, in order. -/
def collect (step : σ → α → Option σ) (f : σ → α → List β) : σ → List α → List β
  | _, [] => []
  | s, a :: as =>
    f s a ++
      match step s a with
      | some t => collect step f t as
      | none => []

theorem collect_cons {f : σ → α → List β} {s t : σ} {a : α} (as : List α) (h : step s a = some t) :
    collect step f s (a :: as) = f s a ++ collect step f t as := by
  simp only [collect, h]

theorem collect_stuck {f : σ → α → List β} {s : σ} {a : α} (as : List α) (h : step s a = none) :
    collect step f s (a :: as) = f s a := by
  simp only [collect, h, List.append_nil]

theorem collect_snoc {f : σ → α → List β} {s t : σ} {as : List α} (a : α)
    (h : run step s as = some t) : collect step f s (as ++ [a]) = collect step f s as ++ f t a := by
  induction as generalizing s with
  | nil =>
    cases h
    simp only [List.nil_append, collect]
    cases step t a <;> simp
  | cons b as ih =>
    obtain ⟨u, hu, ht⟩ := run_cons_some h
    simp only [List.cons_append, collect, hu, ih ht, List.append_assoc]

/-- Where each step under `P` from a state in `I` is a run of another system, so is a whole
run of such steps. -/
theorem run_collect_along {τ : Type} {step' : τ → β → Option τ} (view : σ → τ) {f : σ → α → List β}
    {I : σ → Prop} {P : σ → α → Prop} (keep : ∀ s a t, I s → P s a → step s a = some t → I t)
    (each : ∀ s a t, I s → P s a → step s a = some t → run step' (view s) (f s a) = some (view t))
    {s t : σ} {as : List α} (h : run step s as = some t) (start : I s) (ok : Along step P s as) :
    run step' (view s) (collect step f s as) = some (view t) := by
  induction as generalizing s with
  | nil =>
    cases h
    rfl
  | cons a as ih =>
    obtain ⟨u, hu, ht⟩ := run_cons_some h
    obtain ⟨first, rest⟩ := along_cons.mp ok
    rw [collect_cons as hu, run_append, each s a u start first hu]
    exact ih ht (keep s a u start first hu) (rest u hu)

/-- The same where every step will do. -/
theorem run_collect {τ : Type} {step' : τ → β → Option τ} (view : σ → τ) {f : σ → α → List β}
    (each : ∀ s a t, step s a = some t → run step' (view s) (f s a) = some (view t))
    {s t : σ} {as : List α} (h : run step s as = some t) :
    run step' (view s) (collect step f s as) = some (view t) :=
  run_collect_along view (I := fun _ => True) (P := fun _ _ => True) (fun _ _ _ _ _ _ => trivial)
    (fun s a t _ _ => each s a t) h trivial (along_of_mem fun _ _ _ => trivial)

/-- A run is carried out by one of another system, if each step is carried out by steps of it. -/
theorem exists_run_along {τ : Type} {step' : τ → β → Option τ} (view : τ → σ) {I : τ → Prop}
    {P : σ → α → Prop}
    (each : ∀ u a t, I u → P (view u) a → step (view u) a = some t →
      ∃ bs v, run step' u bs = some v ∧ view v = t ∧ I v)
    {u : τ} {t : σ} {as : List α} (h : run step (view u) as = some t) (start : I u)
    (ok : Along step P (view u) as) : ∃ bs v, run step' u bs = some v ∧ view v = t ∧ I v := by
  induction as generalizing u with
  | nil =>
    cases h
    exact ⟨[], u, rfl, rfl, start⟩
  | cons a as ih =>
    obtain ⟨s, first, rest⟩ := run_cons_some h
    obtain ⟨here, later⟩ := along_cons.mp ok
    obtain ⟨bs, v, ran, rfl, held⟩ := each u a s start here first
    obtain ⟨bs', w, ran', last, held'⟩ := ih rest held (later _ first)
    exact ⟨bs ++ bs', w, by rw [run_append, ran]; exact ran', last, held'⟩

/-- What every step contributes under a condition on the state and the actions still to come. -/
theorem forall_mem_collect {f : σ → α → List β} {B : σ → List α → Prop} {P : β → Prop}
    (keep : ∀ s a as t, B s (a :: as) → step s a = some t → B t as)
    (each : ∀ s a as, B s (a :: as) → ∀ b ∈ f s a, P b) {s : σ} {as : List α} (start : B s as) :
    ∀ b ∈ collect step f s as, P b := by
  induction as generalizing s with
  | nil => nofun
  | cons a as ih =>
    cases hs : step s a with
    | none =>
      rw [collect_stuck as hs]
      exact each s a as start
    | some t =>
      rw [collect_cons as hs, List.forall_mem_append]
      exact ⟨each s a as start, ih (keep s a as t start hs)⟩

/-- The contributions of a run are in order where each one is a bound, kept by the steps after
it, for all that comes later. -/
theorem collect_pairwise {f : σ → α → List β} {I : σ → List α → Prop} {B : β → σ → List α → Prop}
    {R : β → β → Prop} (keep : ∀ s a as t, I s (a :: as) → step s a = some t → I t as)
    (one : ∀ s a as, I s (a :: as) → (f s a).Pairwise R)
    (bound : ∀ s a as t, I s (a :: as) → step s a = some t → ∀ b ∈ f s a, B b t as)
    (keepBound : ∀ b s a as t, I s (a :: as) → B b s (a :: as) → step s a = some t → B b t as)
    (above : ∀ b s a as, I s (a :: as) → B b s (a :: as) → ∀ c ∈ f s a, R b c)
    {s : σ} {as : List α} (start : I s as) : (collect step f s as).Pairwise R := by
  induction as generalizing s with
  | nil => exact List.Pairwise.nil
  | cons a as ih =>
    cases hs : step s a with
    | none =>
      rw [collect_stuck as hs]
      exact one s a as start
    | some t =>
      rw [collect_cons as hs, List.pairwise_append]
      have after := keep s a as t start hs
      refine ⟨one s a as start, ih after, ?_⟩
      intro b hb
      have bounded : I t as ∧ B b t as := ⟨after, bound s a as t start hs b hb⟩
      refine forall_mem_collect (B := fun u cs => I u cs ∧ B b u cs) (P := R b) ?_ ?_ bounded
      · intro u c cs v holds hv
        exact ⟨keep u c cs v holds.1 hv, keepBound b u c cs v holds.1 holds.2 hv⟩
      · intro u c cs holds
        exact above b u c cs holds.1 holds.2

end Collect

section Simulation

variable {τ β : Type} {step' : τ → β → Option τ} {f : σ → τ} {g : α → β} {I : σ → Prop}

/-- `f` and `g` map every step from a state in `I` to a step of the other system. -/
def Simulates (step : σ → α → Option σ) (step' : τ → β → Option τ) (f : σ → τ) (g : α → β)
    (I : σ → Prop) : Prop :=
  ∀ s a t, I s → step s a = some t → step' (f s) (g a) = some (f t) ∧ I t

theorem Simulates.run (sim : Simulates step step' f g I) {s t : σ} {as : List α} (hi : I s)
    (h : run step s as = some t) : run step' (f s) (as.map g) = some (f t) ∧ I t := by
  induction as generalizing s with
  | nil =>
    cases h
    exact ⟨rfl, hi⟩
  | cons a as ih =>
    obtain ⟨u, hu, ht⟩ := run_cons_some h
    obtain ⟨hs, hi'⟩ := sim s a u hi hu
    obtain ⟨hr, hit⟩ := ih hi' ht
    exact ⟨by simp [hs, hr], hit⟩

/-- A condition on the steps of the image is one on the steps of the run. -/
theorem Simulates.along (sim : Simulates step step' f g I) {P : τ → β → Prop} {s t : σ}
    {as : List α} (hi : I s) (h : Runs.run step s as = some t) :
    Along step (fun s a => P (f s) (g a)) s as ↔ Along step' P (f s) (as.map g) := by
  induction as generalizing s with
  | nil => exact iff_of_true (along_nil _ _) (along_nil _ _)
  | cons a as ih =>
    obtain ⟨u, hu, ht⟩ := run_cons_some h
    obtain ⟨hs, hi'⟩ := sim s a u hi hu
    simp only [List.map_cons, along_cons, hu, hs, Option.some.injEq, forall_eq', ih hi' ht]

end Simulation

section Outcomes

variable {τ β : Type} {f : σ → α → β × σ} {g : τ → α → β × τ}

/-- What a machine that answers every call answers to a list of them. -/
def outcomes (f : σ → α → β × σ) : σ → List α → List β
  | _, [] => []
  | s, a :: as => (f s a).1 :: outcomes f (f s a).2 as

/-- Two machines give the same answers exactly where they agree on every call, if
agreeing on one keeps them related. -/
theorem outcomes_eq_iff {R : σ → τ → Prop} {P : α → Prop} {agrees : τ → α → Prop}
    (call : ∀ s t a, R s t → P a → ((f s a).1 = (g t a).1 ↔ agrees t a) ∧
      (agrees t a → R (f s a).2 (g t a).2))
    {s : σ} {t : τ} {as : List α} (related : R s t) (all : ∀ a ∈ as, P a) :
    outcomes f s as = outcomes g t as ↔ Along (fun t a => some (g t a).2) agrees t as := by
  induction as generalizing s t with
  | nil => exact iff_of_true rfl (along_nil _ _)
  | cons a as ih =>
    obtain ⟨same, next⟩ := call s t a related (all a List.mem_cons_self)
    simp only [outcomes, List.cons.injEq, along_cons, same, Option.some.injEq, forall_eq']
    apply and_congr_right
    intro agreed
    apply ih (next agreed)
    intro b hb
    exact all b (List.mem_cons_of_mem a hb)

end Outcomes

/-- Where every step under `P` lowers a measure, a run of such steps is no longer than what
the measure has come down by. -/
theorem length_le_of_lowers {μ : σ → Nat} {I : σ → Prop} {P : α → Prop} {s t : σ} {as : List α}
    (h : run step s as = some t) (holds : I s) (only : ∀ a ∈ as, P a)
    (lowers : ∀ u a v, I u → P a → step u a = some v → I v ∧ μ v < μ u) :
    as.length + μ t ≤ μ s := by
  induction as generalizing s with
  | nil =>
    cases h
    simp
  | cons a as ih =>
    obtain ⟨u, hu, ht⟩ := run_cons_some h
    obtain ⟨holds', less⟩ := lowers s a u holds (only a List.mem_cons_self) hu
    have rest := ih ht holds' fun b hb => only b (List.mem_cons_of_mem a hb)
    simp only [List.length_cons]
    omega

/-- A run of steps under `P` leads from the one state to the other. -/
def Leads (step : σ → α → Option σ) (P : σ → α → Prop) (s t : σ) : Prop :=
  ∃ as, run step s as = some t ∧ Along step P s as

section Leads

variable {P : σ → α → Prop} {s t u : σ} {a : α}

theorem Leads.refl (s : σ) : Leads step P s s := ⟨[], rfl, along_nil P s⟩

theorem Leads.snoc (h : Leads step P s t) (ok : P t a) (hs : step t a = some u) :
    Leads step P s u := by
  obtain ⟨as, ht, along⟩ := h
  exact ⟨as ++ [a], run_snoc ht hs, along_snoc along ht ok⟩

theorem Leads.mono {Q : σ → α → Prop} (h : Leads step P s t) (weaker : ∀ u a, P u a → Q u a) :
    Leads step Q s t := by
  obtain ⟨as, ht, along⟩ := h
  exact ⟨as, ht, fun pre a post u he hu => weaker u a (along pre a post u he hu)⟩

theorem Leads.trans (h : Leads step P s t) (h' : Leads step P t u) : Leads step P s u := by
  obtain ⟨bs, hu, along⟩ := h'
  induction bs generalizing t with
  | nil =>
    cases hu
    exact h
  | cons b bs ih =>
    obtain ⟨v, hv, rest⟩ := run_cons_some hu
    obtain ⟨ok, after⟩ := along_cons.mp along
    exact ih (h.snoc ok hv) rest (after v hv)

end Leads

theorem reachable_refl (s : σ) : Reachable step s s := ⟨[], rfl⟩

theorem Reachable.next {s t u : σ} {a : α} (h : Reachable step s t) (hs : step t a = some u) :
    Reachable step s u := by
  obtain ⟨as, ht⟩ := h
  exact ⟨as ++ [a], run_snoc ht hs⟩

end Runs
