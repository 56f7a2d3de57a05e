import Mathlib.Data.List.Basic

/-! Runs of a system that takes one labelled step after another, for total
steps under a guard and for partial steps, each with its invariant rule.
Nothing in this file names an application. -/

namespace Ccfolio.Transitions

section Total

variable {σ α : Type} (step : σ → α → σ) (ok : σ → α → Prop)

/-- Every step of the run meets the guard in the state it is taken from. -/
def Guarded : σ → List α → Prop
  | _, [] => True
  | s, a :: as => ok s a ∧ Guarded (step s a) as

theorem guarded_append (s : σ) (as bs : List α) :
    Guarded step ok s (as ++ bs) ↔
      Guarded step ok s as ∧ Guarded step ok (as.foldl step s) bs := by
  induction as generalizing s with
  | nil => simp [Guarded]
  | cons a as ih => simp [Guarded, ih, and_assoc]

theorem guarded_iff (s : σ) (as : List α) :
    Guarded step ok s as ↔
      ∀ before a after, as = before ++ a :: after → ok (before.foldl step s) a := by
  constructor
  · rintro h before a after rfl
    rw [guarded_append] at h
    exact h.2.1
  · intro h
    induction as generalizing s with
    | nil => trivial
    | cons a as ih =>
      refine ⟨h [] a as rfl, ih (step s a) fun before b after e => ?_⟩
      exact h (a :: before) b after (by rw [e]; rfl)

theorem guarded_of_invariant {ok' : σ → α → Prop} {I : σ → Prop}
    (keep : ∀ s a, I s → ok s a → I (step s a)) (gives : ∀ s a, I s → ok s a → ok' s a)
    {s : σ} {as : List α} (start : I s) (h : Guarded step ok s as) : Guarded step ok' s as := by
  induction as generalizing s with
  | nil => trivial
  | cons a as ih => exact ⟨gives s a start h.1, ih (keep s a start h.1) h.2⟩

theorem guarded_and {P : α → Prop} {s : σ} {as : List α} (each : ∀ a ∈ as, P a)
    (h : Guarded step ok s as) : Guarded step (fun s a => ok s a ∧ P a) s as := by
  induction as generalizing s with
  | nil => trivial
  | cons a as ih =>
    exact ⟨⟨h.1, each a (List.mem_cons_self ..)⟩,
      ih (fun b mem => each b (List.mem_cons_of_mem _ mem)) h.2⟩

theorem guarded_invariant {I : σ → Prop} (keep : ∀ s a, I s → ok s a → I (step s a))
    (s : σ) (as : List α) (start : I s) (h : Guarded step ok s as) : I (as.foldl step s) := by
  induction as generalizing s with
  | nil => exact start
  | cons a as ih => exact ih _ (keep s a start h.1) h.2

theorem foldl_invariant {I : σ → Prop} (keep : ∀ s a, I s → I (step s a))
    (s : σ) (as : List α) (start : I s) : I (as.foldl step s) := by
  induction as generalizing s with
  | nil => exact start
  | cons a as ih => exact ih _ (keep s a start)

section Refinement

variable {τ β : Type} {step} {ok} {step' : τ → β → τ} {ok' : τ → β → Prop} {R : σ → τ → Prop}
  {f : α → β}

theorem foldl_refines (sim : ∀ s t a, R s t → R (step s a) (step' t (f a))) {s : σ} {t : τ}
    (start : R s t) (as : List α) : R (as.foldl step s) ((as.map f).foldl step' t) := by
  induction as generalizing s t with
  | nil => exact start
  | cons a as ih => exact ih (sim s t a start)

theorem guarded_refines (sim : ∀ s t a, R s t → R (step s a) (step' t (f a)))
    (agree : ∀ s t a, R s t → (ok s a ↔ ok' t (f a))) {s : σ} {t : τ} (start : R s t)
    (as : List α) : Guarded step ok s as ↔ Guarded step' ok' t (as.map f) := by
  induction as generalizing s t with
  | nil => exact Iff.rfl
  | cons a as ih => exact and_congr (agree s t a start) (ih (sim s t a start))

end Refinement

section Simulation

variable {τ : Type} (R : σ → τ → Prop) (abstract : σ → α → τ → τ → Prop)

/-- An abstract run, step for step, that stays related to the concrete one. -/
def Followed : σ → τ → List α → Prop
  | s, t, [] => R s t
  | s, t, a :: as => R s t ∧ ∃ t', abstract s a t t' ∧ Followed (step s a) t' as

variable {step R abstract}

theorem followed_of_simulation {P : α → Prop}
    (sim : ∀ s t a, R s t → P a → ∃ t', abstract s a t t' ∧ R (step s a) t') {s : σ} {t : τ}
    (start : R s t) {as : List α} (h : ∀ a ∈ as, P a) : Followed step R abstract s t as := by
  induction as generalizing s t with
  | nil => exact start
  | cons a as ih =>
    obtain ⟨t', taken, related⟩ := sim s t a start (h a (List.mem_cons_self ..))
    exact ⟨start, t', taken, ih related fun b mem => h b (List.mem_cons_of_mem _ mem)⟩

end Simulation

end Total

section Partial

variable {σ α : Type} (step : σ → α → Option σ)

def drive (s : σ) (as : List α) : Option σ := as.foldlM step s

def Reachable (start s : σ) : Prop := ∃ as, drive step start as = some s

theorem drive_cons (s : σ) (a : α) (as : List α) :
    drive step s (a :: as) = (step s a).bind fun s' => drive step s' as := rfl

theorem drive_invariant {I : σ → Prop} (keep : ∀ s a s', I s → step s a = some s' → I s')
    {s s' : σ} {as : List α} (start : I s) (h : drive step s as = some s') : I s' := by
  induction as generalizing s with
  | nil => cases h; exact start
  | cons a as ih =>
    rw [drive_cons, Option.bind_eq_some_iff] at h
    obtain ⟨middle, first, rest⟩ := h
    exact ih (keep s a middle start first) rest

theorem drive_append (s : σ) (as bs : List α) :
    drive step s (as ++ bs) = (drive step s as).bind fun s' => drive step s' bs :=
  List.foldlM_append ..

variable {step} in
theorem reachable_step {start s s' : σ} {a : α} (h : Reachable step start s)
    (next : step s a = some s') : Reachable step start s' := by
  obtain ⟨as, run⟩ := h
  refine ⟨as ++ [a], ?_⟩
  rw [drive_append, run, Option.bind_some, drive_cons, next]
  rfl

def Cleared (ok : σ → α → Prop) : σ → List α → Prop
  | _, [] => True
  | s, a :: as => ok s a ∧ ∀ s', step s a = some s' → Cleared ok s' as

variable {ok : σ → α → Prop}

theorem cleared_cons {s s' : σ} {a : α} {as : List α} (next : step s a = some s') :
    Cleared step ok s (a :: as) ↔ ok s a ∧ Cleared step ok s' as := by
  simp [Cleared, next]

theorem cleared_stuck {s : σ} {a : α} {as : List α} (stuck : step s a = none) :
    Cleared step ok s (a :: as) ↔ ok s a := by
  simp [Cleared, stuck]

instance decidableCleared [∀ s a, Decidable (ok s a)] :
    (s : σ) → (as : List α) → Decidable (Cleared step ok s as)
  | _, [] => .isTrue trivial
  | s, a :: as =>
    match next : step s a with
    | some s' =>
      have := decidableCleared s' as
      decidable_of_iff _ (cleared_cons step next).symm
    | none => decidable_of_iff _ (cleared_stuck step next).symm

theorem cleared_early {s : σ} {as before : List α} (h : Cleared step ok s as)
    (early : before <+: as) : Cleared step ok s before := by
  obtain ⟨after, rfl⟩ := early
  induction before generalizing s with
  | nil => trivial
  | cons a before ih => exact ⟨h.1, fun s' next => ih (h.2 s' next)⟩

theorem cleared_of_forall {s : σ} {as : List α} (each : ∀ a ∈ as, ∀ s, ok s a) :
    Cleared step ok s as := by
  induction as generalizing s with
  | nil => trivial
  | cons a as ih =>
    exact ⟨each a (List.mem_cons_self ..) s,
      fun _ _ => ih fun b mem => each b (List.mem_cons_of_mem _ mem)⟩

theorem cleared_append {s : σ} {as bs : List α} (h : Cleared step ok s as)
    (later : ∀ s', drive step s as = some s' → Cleared step ok s' bs) :
    Cleared step ok s (as ++ bs) := by
  induction as generalizing s with
  | nil => exact later s rfl
  | cons a as ih =>
    refine ⟨h.1, fun s' next => ih (h.2 s' next) fun t run => later t ?_⟩
    rw [drive_cons, next]
    exact run

theorem cleared_and {ok' : σ → α → Prop} {s : σ} {as : List α} (h : Cleared step ok s as)
    (h' : Cleared step ok' s as) : Cleared step (fun s a => ok s a ∧ ok' s a) s as := by
  induction as generalizing s with
  | nil => trivial
  | cons a as ih => exact ⟨⟨h.1, h'.1⟩, fun s' next => ih (h.2 s' next) (h'.2 s' next)⟩

theorem exists_of_not_cleared {s : σ} {as : List α} (h : ¬ Cleared step ok s as) :
    ∃ before a after middle, as = before ++ a :: after ∧ drive step s before = some middle ∧
      Cleared step ok s before ∧ ¬ ok middle a := by
  induction as generalizing s with
  | nil => exact absurd trivial h
  | cons a as ih =>
    by_cases now : ok s a
    · obtain ⟨s', next, later⟩ : ∃ s', step s a = some s' ∧ ¬ Cleared step ok s' as := by
        simpa [Cleared, now] using h
      obtain ⟨before, b, after, middle, rfl, run, clear, broken⟩ := ih later
      refine ⟨a :: before, b, after, middle, rfl, ?_, ⟨now, fun t again => ?_⟩, broken⟩
      · rw [drive_cons, next]
        exact run
      · rw [next] at again
        cases again
        exact clear
    · exact ⟨[], a, as, s, rfl, rfl, trivial, now⟩

theorem cleared_invariant {I : σ → Prop}
    (keep : ∀ s a s', I s → ok s a → step s a = some s' → I s') {s s' : σ} {as : List α}
    (start : I s) (clear : Cleared step ok s as) (h : drive step s as = some s') : I s' := by
  induction as generalizing s with
  | nil => cases h; exact start
  | cons a as ih =>
    rw [drive_cons, Option.bind_eq_some_iff] at h
    obtain ⟨middle, first, rest⟩ := h
    exact ih (keep s a middle start clear.1 first) (clear.2 middle first) rest

theorem reachable_invariant {I : σ → Prop} (keep : ∀ s a s', I s → step s a = some s' → I s')
    {start s : σ} (init : I start) (h : Reachable step start s) : I s := by
  obtain ⟨as, run⟩ := h
  exact drive_invariant step keep init run

end Partial

end Ccfolio.Transitions
