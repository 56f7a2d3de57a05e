import Mathlib.Logic.Function.Basic

/-! A mutex and the threads inside the sections it guards. The holder is the
one thread inside; a step of a thread keeps the mutex as it is, takes it on the
way in or lets go of it on the way out. Nothing in this file names an
application. -/

namespace Ccfolio.Mutexes

variable {T : Type}

/-- The holder, if there is one, is the one thread inside. -/
def Exclusive (mutex : Option T) (inside : T → Bool) : Prop :=
  ∀ t, mutex = some t ↔ inside t = true

/-- What a step of `t` may do to the mutex, from where it stands to where it
stands after. -/
inductive Passes (t : T) : Option T → Bool → Option T → Bool → Prop
  | keep (mutex : Option T) (b : Bool) : Passes t mutex b mutex b
  | take (b : Bool) : Passes t none b (some t) true
  | free (mutex : Option T) : Passes t mutex true none false

variable {mutex mutex' : Option T} {inside : T → Bool} {t t' : T}

theorem Exclusive.alone (h : Exclusive mutex inside) (mine : inside t = true) (other : t' ≠ t) :
    inside t' = false := by
  have holder := (h t).mpr mine
  by_contra also
  have theirs := (h t').mpr (by simpa using also)
  exact other (Option.some.inj (theirs.symm.trans holder))

theorem Exclusive.unlocked (h : Exclusive mutex inside) (outside : ∀ t, inside t = false) :
    mutex = none := by
  cases holder : mutex with
  | none => rfl
  | some t =>
    have inner := (h t).mp holder
    rw [outside t] at inner
    cases inner

theorem Exclusive.pass [DecidableEq T] (h : Exclusive mutex inside) {b : Bool}
    (pass : Passes t mutex (inside t) mutex' b) :
    Exclusive mutex' (Function.update inside t b) := by
  intro s
  generalize was : inside t = before at pass
  cases pass with
  | keep =>
    rw [← was, Function.update_eq_self]
    exact h s
  | take =>
    by_cases self : s = t
    · simp [self]
    · have outside : inside s = false := by
        by_contra also
        cases (h s).mpr (by simpa using also)
      simp [Function.update_of_ne self, outside, Ne.symm self]
  | free =>
    by_cases self : s = t
    · simp [self]
    · simp [Function.update_of_ne self, h.alone was self]

end Ccfolio.Mutexes
