import Ccfolio.Transitions
import Mathlib.Algebra.Order.BigOperators.Group.Finset
import Mathlib.Data.Fintype.Card

/-! Steps that come to an end: a rank that each of them lowers, and what holds
where none is left. The rank of many threads is a sum, of which a step of one
thread changes the others little. Nothing in this file names an application. -/

namespace Ccfolio.Draining

open Transitions

section Runs

variable {σ α : Type} (step : σ → α → Option σ)

/-- Steps of one kind come to an end, in whatever order they are taken, and
where no more can be taken `P` holds. -/
structure Drains (go : α → Prop) (s : σ) (P : σ → Prop) : Prop where
  bounded : ∃ n, ∀ as s', (∀ a ∈ as, go a) → drive step s as = some s' → as.length ≤ n
  ends : ∀ as s', (∀ a ∈ as, go a) → drive step s as = some s' →
    (∀ a, go a → step s' a = none) → P s'

variable {step} {go : α → Prop} {I : σ → Prop} {r : σ → Nat}

theorem drive_rank (keep : ∀ s a s', I s → go a → step s a = some s' → I s' ∧ r s' < r s)
    {s s' : σ} {as : List α} (start : I s) (each : ∀ a ∈ as, go a)
    (run : drive step s as = some s') : I s' ∧ as.length + r s' ≤ r s := by
  induction as generalizing s with
  | nil =>
    cases run
    exact ⟨start, by simp⟩
  | cons a as ih =>
    rw [drive_cons, Option.bind_eq_some_iff] at run
    obtain ⟨middle, first, rest⟩ := run
    obtain ⟨holds, less⟩ := keep s a middle start (each a (List.mem_cons_self ..)) first
    obtain ⟨last, bound⟩ := ih holds (fun b mem => each b (List.mem_cons_of_mem _ mem)) rest
    refine ⟨last, ?_⟩
    rw [List.length_cons]
    omega

theorem drains_of_rank
    (keep : ∀ s a s', I s → go a → step s a = some s' → I s' ∧ r s' < r s)
    {P : σ → Prop} (stuck : ∀ s, I s → (∀ a, go a → step s a = none) → P s) {s : σ}
    (start : I s) : Drains step go s P where
  bounded := ⟨r s, fun as s' each run => by
    have bound := (drive_rank keep start each run).2
    omega⟩
  ends _ s' each run idle := stuck s' (drive_rank keep start each run).1 idle

end Runs

section Sums

variable {T : Type} [DecidableEq T] [Fintype T] {f g : T → Nat} {t : T}

theorem sum_moved {d : Nat} (others : ∀ s, s ≠ t → g s ≤ f s + d) :
    ∑ s, g s + f t + d ≤ ∑ s, f s + g t + d * Fintype.card T := by
  have apart : ∑ s ∈ Finset.univ.erase t, g s ≤ ∑ s ∈ Finset.univ.erase t, (f s + d) :=
    Finset.sum_le_sum fun s mem => others s (Finset.ne_of_mem_erase mem)
  rw [Finset.sum_add_distrib, Finset.sum_const, Finset.card_erase_of_mem (Finset.mem_univ t),
    Finset.card_univ, Nat.nsmul_eq_mul] at apart
  have all : (Fintype.card T - 1) * d + d = d * Fintype.card T := by
    obtain ⟨n, card⟩ := Nat.exists_eq_succ_of_ne_zero (Fintype.card_pos_iff.mpr ⟨t⟩).ne'
    rw [card, Nat.succ_sub_one, Nat.mul_succ, Nat.mul_comm]
  rw [← Finset.add_sum_erase _ f (Finset.mem_univ t),
    ← Finset.add_sum_erase _ g (Finset.mem_univ t)]
  omega

theorem sum_kept (others : ∀ s, s ≠ t → g s ≤ f s) : ∑ s, g s + f t ≤ ∑ s, f s + g t := by
  have bound := sum_moved (d := 0) (f := f) (g := g) others
  omega

end Sums

end Ccfolio.Draining
