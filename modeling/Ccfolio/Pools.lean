import Ccfolio.Traces
import Ccfolio.Transitions

/-! Any number of programs over one shared world, in any interleaving. A turn
of a thread is its next call together with the calls after it that no other
thread can tell apart (`silent`): what happens between two turns is what the
other threads may see. Nothing in this file names an application. -/

namespace Ccfolio.Pools

open Programs Traces Transitions

variable {C : Type} {R : C → Type} {ι E α σ : Type}

structure Pool (ι : Type) {C : Type} (R : C → Type) (α σ : Type) where
  world : σ
  threads : ι → Program R α

section Turn

variable (silent : C → Bool) (h : Handler R σ)

/-- Make the silent calls at the head of a program. -/
def settle : Program R α → σ → Program R α × σ
  | .ret a, s => (.ret a, s)
  | .call c next, s =>
      if silent c then settle (next (h c s).1) (h c s).2 else (.call c next, s)

def advance : Program R α → σ → Program R α × σ
  | .ret a, s => (.ret a, s)
  | .call c next, s => settle silent h (next (h c s).1) (h c s).2

end Turn

section Pool

variable [DecidableEq ι] (silent : C → Bool) (h : ι → E → Handler R σ)

/-- One turn of thread `who.1`, with the surroundings `who.2`. -/
def turn (p : Pool ι R α σ) (who : ι × E) : Pool ι R α σ :=
  let next := advance silent (h who.1 who.2) (p.threads who.1) p.world
  ⟨next.2, Function.update p.threads who.1 next.1⟩

def runPool (p : Pool ι R α σ) (schedule : List (ι × E)) : Pool ι R α σ :=
  schedule.foldl (turn silent h) p

@[simp] theorem turn_world (p : Pool ι R α σ) (who : ι × E) :
    (turn silent h p who).world =
      (advance silent (h who.1 who.2) (p.threads who.1) p.world).2 := rfl

@[simp] theorem turn_threads_self (p : Pool ι R α σ) (who : ι × E) :
    (turn silent h p who).threads who.1 =
      (advance silent (h who.1 who.2) (p.threads who.1) p.world).1 :=
  Function.update_self ..

theorem turn_threads_of_ne (p : Pool ι R α σ) (who : ι × E) {i : ι} (other : i ≠ who.1) :
    (turn silent h p who).threads i = p.threads i :=
  Function.update_of_ne other ..

theorem runPool_update {p : Pool ι R α σ} {schedule : List (ι × E)} {i : ι} (q : Program R α)
    (idle : ∀ who ∈ schedule, who.1 ≠ i) :
    runPool silent h ⟨p.world, Function.update p.threads i q⟩ schedule =
      ⟨(runPool silent h p schedule).world,
        Function.update (runPool silent h p schedule).threads i q⟩ := by
  induction schedule generalizing p with
  | nil => rfl
  | cons who schedule ih =>
    have other : who.1 ≠ i := idle who (List.mem_cons_self ..)
    have first : turn silent h ⟨p.world, Function.update p.threads i q⟩ who =
        ⟨(turn silent h p who).world, Function.update (turn silent h p who).threads i q⟩ := by
      simp only [turn, Function.update_of_ne other, Function.update_comm other]
    simp only [runPool, List.foldl_cons, first]
    exact ih fun w mem => idle w (List.mem_cons_of_mem _ mem)

end Pool

section Invariant

variable {silent : C → Bool} {I : σ → Prop}

theorem settle_invariant {h : Handler R σ} (keep : ∀ c s, I s → I (h c s).2) (p : Program R α)
    {s : σ} (start : I s) : I (settle silent h p s).2 := by
  induction p generalizing s with
  | ret a => exact start
  | call c next ih =>
    rw [settle]
    split_ifs
    · exact ih _ (keep c s start)
    · exact start

theorem advance_invariant {h : Handler R σ} (keep : ∀ c s, I s → I (h c s).2) (p : Program R α)
    {s : σ} (start : I s) : I (advance silent h p s).2 := by
  cases p with
  | ret a => exact start
  | call c next => exact settle_invariant keep _ (keep c s start)

variable [DecidableEq ι] {h : ι → E → Handler R σ}

theorem runPool_invariant (keep : ∀ i e c s, I s → I (h i e c s).2) {p : Pool ι R α σ}
    (start : I p.world) (schedule : List (ι × E)) : I (runPool silent h p schedule).world :=
  foldl_invariant (turn silent h) (I := fun p => I p.world)
    (fun p who holds => advance_invariant (keep who.1 who.2) (p.threads who.1) holds) p schedule
    start

end Invariant

end Ccfolio.Pools
