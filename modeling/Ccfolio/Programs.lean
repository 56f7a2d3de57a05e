import Mathlib.Logic.Function.Basic

/-! Programs that call out. A program returns a value, or makes one call and
goes on with the reply; what a call does to the world is left to a handler.
`Code` adds a local state that survives exceptions, and exceptions, with the
transformers of the library. Nothing in this file names an application. -/

namespace Ccfolio.Programs

inductive Program {C : Type} (R : C → Type) (α : Type) where
  | ret (a : α)
  | call (c : C) (next : R c → Program R α)

namespace Program

variable {C : Type} {R : C → Type} {α β σ : Type}

def bind : Program R α → (α → Program R β) → Program R β
  | .ret a, f => f a
  | .call c next, f => .call c fun r => (next r).bind f

instance : Monad (Program R) where
  pure := .ret
  bind := .bind

@[simp] theorem call_bind (c : C) (next : R c → Program R α) (f : α → Program R β) :
    (call c next).bind f = .call c fun r => (next r).bind f := rfl

end Program

/-- What one call replies and what it does to the world. -/
abbrev Handler {C : Type} (R : C → Type) (σ : Type) := (c : C) → σ → R c × σ

section Exec

variable {C : Type} {R : C → Type} {α β σ : Type} (h : Handler R σ)

def exec : Program R α → σ → α × σ
  | .ret a, s => (a, s)
  | .call c next, s => exec (next (h c s).1) (h c s).2

theorem exec_bind (p : Program R α) (f : α → Program R β) (s : σ) :
    exec h (p.bind f) s = exec h (f (exec h p s).1) (exec h p s).2 := by
  induction p generalizing s with
  | ret a => rfl
  | call c next ih => exact ih _ _

theorem exec_map {σ' : Type} {h' : Handler R σ'} (f : σ → σ')
    (same : ∀ c s, h' c (f s) = ((h c s).1, f (h c s).2)) (p : Program R α) (s : σ) :
    exec h' p (f s) = ((exec h p s).1, f (exec h p s).2) := by
  induction p generalizing s with
  | ret a => rfl
  | call c next ih =>
    rw [exec, same]
    exact ih _ _

end Exec

/-- Exceptions over a local state over calls: a thrown exception keeps the
local state as it was at the throw. -/
abbrev Code {C : Type} (R : C → Type) (τ ε : Type) := ExceptT ε (StateT τ (Program R))

section Run

variable {C : Type} {R : C → Type} {τ ε α β σ : Type}

def perform (c : C) : Code R τ ε (R c) :=
  ExceptT.lift (StateT.lift (.call c .ret))

theorem tree_bind (x : Code R τ ε α) (f : α → Code R τ ε β) (t : τ) :
    (x >>= f).run.run t = (x.run.run t).bind fun r => match r with
      | (.ok a, t') => (f a).run.run t'
      | (.error e, t') => .ret (.error e, t') := by
  refine congrArg (Program.bind _) (funext fun r => ?_)
  rcases r with ⟨r | r, t'⟩ <;> rfl

theorem tree_tryCatch (x : Code R τ ε α) (f : ε → Code R τ ε α) (t : τ) :
    (tryCatch x f : Code R τ ε α).run.run t = (x.run.run t).bind fun r => match r with
      | (.ok a, t') => .ret (.ok a, t')
      | (.error e, t') => (f e).run.run t' := by
  refine congrArg (Program.bind _) (funext fun r => ?_)
  rcases r with ⟨r | r, t'⟩ <;> rfl

abbrev Outcome (ε α τ σ : Type) := Except ε α × τ × σ

def andThen (o : Outcome ε α τ σ) (f : α → τ → σ → Outcome ε β τ σ) : Outcome ε β τ σ :=
  match o with
  | (.ok a, t, s) => f a t s
  | (.error e, t, s) => (.error e, t, s)

def orCatch (o : Outcome ε α τ σ) (f : ε → τ → σ → Outcome ε α τ σ) : Outcome ε α τ σ :=
  match o with
  | (.ok a, t, s) => (.ok a, t, s)
  | (.error e, t, s) => f e t s

@[simp] theorem andThen_ok (a : α) (t : τ) (s : σ) (f : α → τ → σ → Outcome ε β τ σ) :
    andThen (.ok a, t, s) f = f a t s := rfl

@[simp] theorem andThen_error (e : ε) (t : τ) (s : σ) (f : α → τ → σ → Outcome ε β τ σ) :
    andThen (.error e, t, s) f = (.error e, t, s) := rfl

@[simp] theorem orCatch_ok (a : α) (t : τ) (s : σ) (f : ε → τ → σ → Outcome ε α τ σ) :
    orCatch (.ok a, t, s) f = (.ok a, t, s) := rfl

@[simp] theorem orCatch_error (e : ε) (t : τ) (s : σ) (f : ε → τ → σ → Outcome ε α τ σ) :
    orCatch (.error e, t, s) f = f e t s := rfl

variable (h : Handler R σ)

def run (x : Code R τ ε α) (t : τ) (s : σ) : Outcome ε α τ σ :=
  let out := exec h (x.run.run t) s
  (out.1.1, out.1.2, out.2)

@[simp] theorem run_pure (a : α) (t : τ) (s : σ) :
    run h (pure a : Code R τ ε α) t s = (.ok a, t, s) := rfl

@[simp] theorem run_throw (e : ε) (t : τ) (s : σ) :
    run h (throw e : Code R τ ε α) t s = (.error e, t, s) := rfl

@[simp] theorem run_perform (c : C) (t : τ) (s : σ) :
    run h (perform c : Code R τ ε (R c)) t s = (.ok (h c s).1, t, (h c s).2) := rfl

@[simp] theorem run_modify (f : τ → τ) (t : τ) (s : σ) :
    run h (modify f : Code R τ ε PUnit) t s = (.ok ⟨⟩, f t, s) := rfl

@[simp] theorem run_get (t : τ) (s : σ) : run h (get : Code R τ ε τ) t s = (.ok t, t, s) := rfl

@[simp] theorem run_ofExcept (x : Except ε α) (t : τ) (s : σ) :
    run h (MonadExcept.ofExcept x : Code R τ ε α) t s = (x, t, s) := by
  cases x <;> rfl

@[simp] theorem run_bind (x : Code R τ ε α) (f : α → Code R τ ε β) (t : τ) (s : σ) :
    run h (x >>= f) t s = andThen (run h x t s) fun a => run h (f a) := by
  simp only [run, tree_bind, exec_bind]
  rcases exec h (x.run.run t) s with ⟨⟨r | r, t'⟩, s'⟩ <;> rfl

@[simp] theorem run_tryCatch (x : Code R τ ε α) (f : ε → Code R τ ε α) (t : τ) (s : σ) :
    run h (tryCatch x f) t s = orCatch (run h x t s) fun e => run h (f e) := by
  simp only [run, tree_tryCatch, exec_bind]
  rcases exec h (x.run.run t) s with ⟨⟨r | r, t'⟩, s'⟩ <;> rfl

theorem run_map {σ' : Type} {h' : Handler R σ'} (f : σ → σ')
    (same : ∀ c s, h' c (f s) = ((h c s).1, f (h c s).2)) (x : Code R τ ε α) (t : τ) (s : σ) :
    run h' x t (f s) = ((run h x t s).1, (run h x t s).2.1, f (run h x t s).2.2) := by
  simp only [run, exec_map h f same]

end Run

end Ccfolio.Programs
