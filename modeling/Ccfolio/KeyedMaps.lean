import Mathlib.Data.Set.Function
import Mathlib.Logic.Function.Basic

/-! A partial map that is written to, one key after another, and the same map
kept under encoded keys. Nothing in this file names an application. -/

namespace Ccfolio.KeyedMaps

variable {κ ε ν : Type} [DecidableEq κ] [DecidableEq ε]

/-- The map after the writes, each over what its key held before. -/
def writeAll (m : κ → Option ν) (writes : List (κ × ν)) : κ → Option ν :=
  writes.foldl (fun m w => Function.update m w.1 (some w.2)) m

def lastWrite (k : κ) : List (κ × ν) → Option ν
  | [] => none
  | w :: later => (lastWrite k later).or (if w.1 = k then some w.2 else none)

theorem lastWrite_eq_none_iff (k : κ) (writes : List (κ × ν)) :
    lastWrite k writes = none ↔ ∀ w ∈ writes, w.1 ≠ k := by
  induction writes with
  | nil => simp [lastWrite]
  | cons w later ih =>
    rw [lastWrite, Option.or_eq_none_iff, ih, List.forall_mem_cons, ite_eq_right_iff]
    simp [and_comm]

theorem exists_of_lastWrite {k : κ} {v : ν} {writes : List (κ × ν)}
    (written : lastWrite k writes = some v) :
    ∃ before later, writes = before ++ (k, v) :: later ∧ ∀ w ∈ later, w.1 ≠ k := by
  induction writes with
  | nil => cases written
  | cons w rest ih =>
    rw [lastWrite] at written
    cases later : lastWrite k rest with
    | some u =>
      rw [later, Option.some_or] at written
      obtain ⟨before, after, split, none⟩ := ih (later.trans written)
      exact ⟨w :: before, after, by rw [split, List.cons_append], none⟩
    | none =>
      rw [later, Option.none_or] at written
      obtain ⟨same, value⟩ := Option.ite_none_right_eq_some.mp written
      have head : w = (k, v) := Prod.ext same (Option.some.inj value)
      exact ⟨[], rest, by rw [head, List.nil_append], (lastWrite_eq_none_iff k rest).mp later⟩

theorem writeAll_apply (m : κ → Option ν) (writes : List (κ × ν)) (k : κ) :
    writeAll m writes k = (lastWrite k writes).or (m k) := by
  induction writes generalizing m with
  | nil => simp [writeAll, lastWrite]
  | cons w later ih =>
    have rest := ih (Function.update m w.1 (some w.2))
    rw [writeAll, List.foldl_cons]
    refine rest.trans ?_
    rw [lastWrite, Option.or_assoc]
    by_cases same : w.1 = k
    · subst same
      simp
    · simp [same, Function.update_of_ne (Ne.symm same)]

/-- Under an encoding that tells the keys in use apart, each holds what was
written to it last. -/
theorem writeAll_encoded {encode : κ → ε} {used : Set κ} (apart : Set.InjOn encode used)
    {writes : List (κ × ν)} (inside : ∀ w ∈ writes, w.1 ∈ used) {k : κ} (asked : k ∈ used) :
    writeAll (fun _ => none) (writes.map fun w => (encode w.1, w.2)) (encode k) =
      lastWrite k writes := by
  rw [writeAll_apply, Option.or_none]
  induction writes with
  | nil => rfl
  | cons w later ih =>
    have same : encode w.1 = encode k ↔ w.1 = k :=
      apart.eq_iff (inside w (List.mem_cons_self ..)) asked
    rw [List.map_cons, lastWrite, lastWrite,
      ih fun w mem => inside w (List.mem_cons_of_mem _ mem)]
    simp [same]

end Ccfolio.KeyedMaps
