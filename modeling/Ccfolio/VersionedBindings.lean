import Ccfolio.Programs
import Mathlib.Tactic.SplitIfs

/-! Views of a source that are kept and made again only when the version of the
source is another, and code that keeps them in a local state of its own while
it answers as code without one. Nothing in this file names an application. -/

namespace Ccfolio.VersionedBindings

open Programs

section Views

variable {β : Type}

/-- A view, how often it has been made, and the version of the source it was
last made of. -/
structure Cached (β : Type) where
  value : β
  version : Nat
  source : Nat

namespace Cached

def stale (version : Nat) (c : Cached β) : Bool := version ≠ c.source || c.version = 0

def refresh (version : Nat) (view : β) (c : Cached β) : Cached β :=
  if c.stale version then ⟨view, c.version + 1, version⟩ else c

/-- A view made of this version of the source is the view of it as it is. -/
def Sound (version : Nat) (view : β) (c : Cached β) : Prop :=
  c.version ≠ 0 → c.source ≤ version ∧ (c.source = version → c.value = view)

variable {version version' : Nat} {view view' : β} {c : Cached β}

theorem sound_unmade (unmade : c.version = 0) : c.Sound version view :=
  fun made => absurd unmade made

theorem Sound.changed (h : c.Sound version view) (later : version < version') :
    c.Sound version' view' := by
  intro made
  obtain ⟨le, -⟩ := h made
  exact ⟨by omega, fun same => absurd same (by omega)⟩

structure Current (version : Nat) (view : β) (c : Cached β) : Prop where
  made : c.version ≠ 0
  source : c.source = version
  value : c.value = view

theorem Current.sound (h : c.Current version view) : c.Sound version view :=
  fun _ => ⟨Nat.le_of_eq h.source, fun _ => h.value⟩

theorem refresh_current (h : c.Sound version view) :
    (c.refresh version view).Current version view := by
  unfold refresh
  split_ifs with again
  · exact ⟨Nat.succ_ne_zero _, rfl, rfl⟩
  · simp only [stale, Bool.or_eq_true, decide_eq_true_eq, not_or, not_not] at again
    have same : c.source = version := again.1.symm
    exact ⟨again.2, same, (h again.2).2 same⟩

theorem Current.touched (h : c.Current version view) :
    ({ c with version := c.version + 1 } : Cached β).Current version view :=
  ⟨Nat.succ_ne_zero _, h.source, h.value⟩

end Cached

end Views

section Hidden

variable {C : Type} {R : C → Type} {τ ε α β : Type} {I : τ → Prop}

/-- Under an invariant of its local state the one code makes the calls of the
other, which has none, and comes to the same result. -/
def Hides (I : τ → Prop) (x : Code R τ ε α) (y : Code R Unit ε α) : Prop :=
  ∀ (σ : Type) (h : Handler R σ) (t : τ) (s : σ), I t →
    ∃ t', I t' ∧ run h x t s = ((run h y () s).1, t', (run h y () s).2.2)

theorem hides_pure (a : α) : Hides I (pure a : Code R τ ε α) (pure a) :=
  fun _ _ t _ inv => ⟨t, inv, rfl⟩

theorem hides_throw (e : ε) : Hides I (throw e : Code R τ ε α) (throw e) :=
  fun _ _ t _ inv => ⟨t, inv, rfl⟩

theorem hides_perform (c : C) : Hides I (perform c : Code R τ ε (R c)) (perform c) :=
  fun _ _ t _ inv => ⟨t, inv, rfl⟩

theorem hides_ofExcept (x : Except ε α) :
    Hides I (MonadExcept.ofExcept x : Code R τ ε α) (MonadExcept.ofExcept x) := by
  intro σ h t s inv
  exact ⟨t, inv, by rw [run_ofExcept, run_ofExcept]⟩

theorem hides_bind {x : Code R τ ε α} {y : Code R Unit ε α} {f : α → Code R τ ε β}
    {g : α → Code R Unit ε β} (first : Hides I x y) (rest : ∀ a, Hides I (f a) (g a)) :
    Hides I (x >>= f) (y >>= g) := by
  intro σ h t s inv
  obtain ⟨t', inv', same⟩ := first σ h t s inv
  rw [run_bind, run_bind, same]
  rcases run h y () s with ⟨e | a, u, s'⟩
  · exact ⟨t', inv', rfl⟩
  · exact rest a σ h t' s' inv'

theorem hides_tryCatch {x : Code R τ ε α} {y : Code R Unit ε α} {f : ε → Code R τ ε α}
    {g : ε → Code R Unit ε α} (first : Hides I x y) (rest : ∀ e, Hides I (f e) (g e)) :
    Hides I (tryCatch x f) (tryCatch y g) := by
  intro σ h t s inv
  obtain ⟨t', inv', same⟩ := first σ h t s inv
  rw [run_tryCatch, run_tryCatch, same]
  rcases run h y () s with ⟨e | a, u, s'⟩
  · exact rest e σ h t' s' inv'
  · exact ⟨t', inv', rfl⟩

end Hidden

end Ccfolio.VersionedBindings
