import Ccfolio.Pools

/-! Handlers over a world of their own that reply as others do, up to whole
pools of programs, and code whose calls are actions of a state monad. Nothing in
this file names an application. -/

namespace Ccfolio.Simulations

open Programs Pools

section Worlds

variable {C : Type} {R : C → Type} {α ι E E' σ σ' : Type}

/-- The one handler replies as the other does on a world that is related, and
keeps the worlds related. -/
def Refines (J : σ' → σ → Prop) (h' : Handler R σ') (h : Handler R σ) : Prop :=
  ∀ c s' s, J s' s → (h' c s').1 = (h c s).1 ∧ J (h' c s').2 (h c s).2

variable {J : σ' → σ → Prop} {h' : Handler R σ'} {h : Handler R σ}
  (silent : C → Bool)

theorem settle_refines (refines : Refines J h' h) (p : Program R α) {s' : σ'} {s : σ}
    (rel : J s' s) :
    (settle silent h' p s').1 = (settle silent h p s).1 ∧
      J (settle silent h' p s').2 (settle silent h p s).2 := by
  induction p generalizing s' s with
  | ret a => exact ⟨rfl, rel⟩
  | call c next ih =>
    obtain ⟨reply, rel'⟩ := refines c s' s rel
    simp only [settle, reply]
    split_ifs
    · exact ih _ rel'
    · exact ⟨rfl, rel⟩

theorem advance_refines (refines : Refines J h' h) (p : Program R α) {s' : σ'} {s : σ}
    (rel : J s' s) :
    (advance silent h' p s').1 = (advance silent h p s).1 ∧
      J (advance silent h' p s').2 (advance silent h p s).2 := by
  cases p with
  | ret a => exact ⟨rfl, rel⟩
  | call c next =>
    obtain ⟨reply, rel'⟩ := refines c s' s rel
    simp only [advance, reply]
    exact settle_refines silent refines _ rel'

structure Alike (J : σ' → σ → Prop) (p' : Pool ι R α σ') (p : Pool ι R α σ) : Prop where
  threads : p'.threads = p.threads
  world : J p'.world p.world

variable [DecidableEq ι] {k' : ι → E' → Handler R σ'} {k : ι → E → Handler R σ} (f : E' → E)

theorem turn_alike (refines : ∀ i e, Refines J (k' i e) (k i (f e))) {p' : Pool ι R α σ'}
    {p : Pool ι R α σ} (alike : Alike J p' p) (who : ι × E') :
    Alike J (turn silent k' p' who) (turn silent k p (who.1, f who.2)) := by
  rcases p' with ⟨w', threads⟩
  rcases p with ⟨w, _⟩
  obtain ⟨rfl, world⟩ := alike
  obtain ⟨same, rel⟩ := advance_refines silent (refines who.1 who.2) (threads who.1) world
  exact ⟨congrArg (Function.update threads who.1) same, rel⟩

/-- Every run of the one pool is a run of the other. -/
theorem runPool_alike (refines : ∀ i e, Refines J (k' i e) (k i (f e))) {p' : Pool ι R α σ'}
    {p : Pool ι R α σ} (alike : Alike J p' p) (schedule : List (ι × E')) :
    Alike J (runPool silent k' p' schedule)
      (runPool silent k p (schedule.map fun who => (who.1, f who.2))) := by
  induction schedule generalizing p' p with
  | nil => exact alike
  | cons who schedule ih => exact ih (turn_alike silent f refines alike who)

end Worlds

section Actions

variable {C : Type} {R : C → Type} {ε α β σ : Type} {h : Handler R σ} {s : σ}

variable {y : ExceptT ε (StateM σ) α} {a : α} {e : ε} {s' : σ}

theorem action_bind_ok (g : α → ExceptT ε (StateM σ) β) (ran : y.run.run s = (.ok a, s')) :
    (y >>= g).run.run s = (g a).run.run s' := by
  simp only [ExceptT.run_bind, StateT.run_bind, ran]
  rfl

theorem action_bind_error (g : α → ExceptT ε (StateM σ) β) (ran : y.run.run s = (.error e, s')) :
    (y >>= g).run.run s = (.error e, s') := by
  simp only [ExceptT.run_bind, StateT.run_bind, ran]
  rfl

theorem action_tryCatch_ok (g : ε → ExceptT ε (StateM σ) α) (ran : y.run.run s = (.ok a, s')) :
    (tryCatch y g).run.run s = (.ok a, s') := by
  simp only [ExceptT.run_tryCatch, StateT.run_bind, ran]
  rfl

theorem action_tryCatch_error (g : ε → ExceptT ε (StateM σ) α)
    (ran : y.run.run s = (.error e, s')) : (tryCatch y g).run.run s = (g e).run.run s' := by
  simp only [ExceptT.run_tryCatch, StateT.run_bind, ran]
  rfl

/-- On this world the code comes to what the action comes to. -/
def Does (h : Handler R σ) (x : Code R Unit ε α) (y : ExceptT ε (StateM σ) α) (s : σ) : Prop :=
  run h x () s = ((y.run.run s).1, (), (y.run.run s).2)

theorem Does.congr {x : Code R Unit ε α} {y y' : ExceptT ε (StateM σ) α} (does : Does h x y s)
    (same : y.run.run s = y'.run.run s) : Does h x y' s := by
  unfold Does
  rw [← same]
  exact does

theorem does_pure (a : α) : Does h (pure a : Code R Unit ε α) (pure a) s := rfl

theorem does_throw (e : ε) : Does h (throw e : Code R Unit ε α) (throw e) s := rfl

theorem does_bind {x : Code R Unit ε α} {f : α → Code R Unit ε β}
    {g : α → ExceptT ε (StateM σ) β} (first : Does h x y s)
    (rest : ∀ a s', y.run.run s = (.ok a, s') → Does h (f a) (g a) s') :
    Does h (x >>= f) (y >>= g) s := by
  unfold Does
  rw [run_bind, first]
  rcases ran : y.run.run s with ⟨e | a, s'⟩
  · rw [action_bind_error g ran]
    rfl
  · rw [action_bind_ok g ran]
    exact rest a s' ran

theorem does_tryCatch {x : Code R Unit ε α} {f : ε → Code R Unit ε α}
    {g : ε → ExceptT ε (StateM σ) α} (first : Does h x y s)
    (rest : ∀ e s', y.run.run s = (.error e, s') → Does h (f e) (g e) s') :
    Does h (tryCatch x f) (tryCatch y g) s := by
  unfold Does
  rw [run_tryCatch, first]
  rcases ran : y.run.run s with ⟨e | a, s'⟩
  · rw [action_tryCatch_error g ran]
    exact rest e s' ran
  · rw [action_tryCatch_ok g ran]
    rfl

end Actions

end Ccfolio.Simulations
