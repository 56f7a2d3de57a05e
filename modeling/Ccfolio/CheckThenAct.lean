import Ccfolio.Transitions
import Mathlib.Data.List.Nodup
import Mathlib.Logic.Function.Basic

/-! Calls that look for a key and, not having found it, add it in a second
step, any number of them in any interleaving. The keys stay distinct exactly
when no call looks for a key while another one stands between its two steps
for the same key. Nothing in this file names an application. -/

namespace Ccfolio.CheckThenAct

open Transitions

inductive Phase where
  | idle
  | checked
  | refused
  | done
  deriving DecidableEq, Repr

structure State (ι κ : Type) where
  keys : List κ
  phase : ι → Phase

section Phases

variable {ι κ : Type} [DecidableEq ι]

def State.goTo (s : State ι κ) (i : ι) (p : Phase) : State ι κ :=
  { s with phase := Function.update s.phase i p }

@[simp] theorem goTo_keys (s : State ι κ) (i : ι) (p : Phase) : (s.goTo i p).keys = s.keys := rfl

@[simp] theorem goTo_self (s : State ι κ) (i : ι) (p : Phase) : (s.goTo i p).phase i = p :=
  Function.update_self ..

@[simp] theorem goTo_of_ne (s : State ι κ) {i j : ι} (other : j ≠ i) (p : Phase) :
    (s.goTo i p).phase j = s.phase j := Function.update_of_ne other ..

def start (keys : List κ) : State ι κ := ⟨keys, fun _ => .idle⟩

/-- Call `i` does not look for a key that another call is about to add. -/
def Apart (name : ι → κ) (s : State ι κ) (i : ι) : Prop :=
  s.phase i = .idle → ∀ j, s.phase j = .checked → name j ≠ name i

variable {name : ι → κ} {s : State ι κ}

structure Inv (name : ι → κ) (s : State ι κ) : Prop where
  distinct : s.keys.Nodup
  free : ∀ i, s.phase i = .checked → name i ∉ s.keys
  alone : ∀ i j, s.phase i = .checked → s.phase j = .checked → name i = name j → i = j
  held : ∀ i, s.phase i = .done → name i ∈ s.keys
  once : ∀ i j, s.phase i = .done → s.phase j = .done → name i = name j → i = j

omit [DecidableEq ι] in
theorem inv_start {keys : List κ} (distinct : keys.Nodup) : Inv name (start keys) :=
  ⟨distinct, nofun, nofun, nofun, nofun⟩

theorem Inv.refuse (inv : Inv name s) (i : ι) : Inv name (s.goTo i .refused) := by
  have phase : ∀ {j p}, (s.goTo i .refused).phase j = p → p ≠ .refused → s.phase j = p := by
    intro j p at_p other
    by_cases same : j = i
    · subst same
      rw [goTo_self] at at_p
      exact absurd at_p.symm other
    · rwa [goTo_of_ne s same] at at_p
  exact ⟨inv.distinct, fun j h => inv.free j (phase h nofun),
    fun j k h h' => inv.alone j k (phase h nofun) (phase h' nofun),
    fun j h => inv.held j (phase h nofun),
    fun j k h h' => inv.once j k (phase h nofun) (phase h' nofun)⟩

theorem Inv.check (inv : Inv name s) {i : ι} (idle : s.phase i = .idle) (free : name i ∉ s.keys)
    (apart : Apart name s i) : Inv name (s.goTo i .checked) := by
  have others := apart idle
  refine ⟨inv.distinct, fun j h => ?_, fun j k h h' same => ?_, fun j h => ?_, fun j k h h' => ?_⟩
  · by_cases self : j = i
    · exact self ▸ free
    · exact inv.free j (by rwa [goTo_of_ne s self] at h)
  · by_cases left : j = i <;> by_cases right : k = i
    · rw [left, right]
    · rw [goTo_of_ne s right] at h'
      exact absurd (left ▸ same.symm) (others k h')
    · rw [goTo_of_ne s left] at h
      exact absurd (right ▸ same) (others j h)
    · rw [goTo_of_ne s left] at h
      rw [goTo_of_ne s right] at h'
      exact inv.alone j k h h' same
  · have self : j ≠ i := fun same => by rw [same, goTo_self] at h; cases h
    exact inv.held j (by rwa [goTo_of_ne s self] at h)
  · have left : j ≠ i := fun same => by rw [same, goTo_self] at h; cases h
    have right : k ≠ i := fun same => by rw [same, goTo_self] at h'; cases h'
    rw [goTo_of_ne s left] at h
    rw [goTo_of_ne s right] at h'
    exact inv.once j k h h'

theorem Inv.act (inv : Inv name s) {i : ι} (checked : s.phase i = .checked) :
    Inv name { s.goTo i .done with keys := s.keys ++ [name i] } := by
  have free := inv.free i checked
  have phase : ∀ {j}, (s.goTo i .done).phase j = .checked → j ≠ i ∧ s.phase j = .checked := by
    intro j h
    have self : j ≠ i := fun same => by rw [same, goTo_self] at h; cases h
    exact ⟨self, by rwa [goTo_of_ne s self] at h⟩
  refine ⟨?_, fun j h => ?_, fun j k h h' => ?_, fun j h => ?_, fun j k h h' same => ?_⟩
  · refine List.nodup_append.mpr ⟨inv.distinct, by simp, fun key old new mem same => ?_⟩
    exact free (List.mem_singleton.mp mem ▸ same ▸ old)
  · obtain ⟨self, before⟩ := phase h
    intro mem
    rcases List.mem_append.mp mem with old | new
    · exact inv.free j before old
    · exact self (inv.alone j i before checked (List.mem_singleton.mp new))
  · exact inv.alone j k (phase h).2 (phase h').2
  · by_cases self : j = i
    · simp [self]
    · exact List.mem_append_left _ (inv.held j (by rwa [goTo_of_ne s self] at h))
  · by_cases left : j = i <;> by_cases right : k = i
    · rw [left, right]
    · rw [goTo_of_ne s right] at h'
      exact absurd (inv.held k h') (by rw [← same, left]; exact free)
    · rw [goTo_of_ne s left] at h
      exact absurd (inv.held j h) (by rw [same, right]; exact free)
    · rw [goTo_of_ne s left] at h
      rw [goTo_of_ne s right] at h'
      exact inv.once j k h h' same

def owes (s : State ι κ) (i : ι) : Nat := if s.phase i = .checked then 1 else 0

theorem owes_goTo (s : State ι κ) (i k : ι) (p : Phase) :
    owes (s.goTo k p) i = if i = k then (if p = .checked then 1 else 0) else owes s i := by
  unfold owes
  by_cases self : i = k
  · simp [self]
  · simp [self]

end Phases

section Run

variable {ι κ : Type} [DecidableEq ι] [DecidableEq κ]

def step (name : ι → κ) (s : State ι κ) (i : ι) : State ι κ :=
  match s.phase i with
  | .idle => if name i ∈ s.keys then s.goTo i .refused else s.goTo i .checked
  | .checked => { s.goTo i .done with keys := s.keys ++ [name i] }
  | .refused | .done => s

variable {name : ι → κ} {s : State ι κ}

theorem step_cases (name : ι → κ) (s : State ι κ) (i : ι) :
    (s.phase i = .idle ∧ name i ∈ s.keys ∧ step name s i = s.goTo i .refused) ∨
    (s.phase i = .idle ∧ name i ∉ s.keys ∧ step name s i = s.goTo i .checked) ∨
    (s.phase i = .checked ∧
      step name s i = { s.goTo i .done with keys := s.keys ++ [name i] }) ∨
    ((s.phase i = .refused ∨ s.phase i = .done) ∧ step name s i = s) := by
  unfold step
  cases phase : s.phase i with
  | idle => by_cases known : name i ∈ s.keys <;> simp [known]
  | checked => simp
  | refused => simp
  | done => simp

theorem inv_step (inv : Inv name s) (i : ι) (apart : Apart name s i) :
    Inv name (step name s i) := by
  rcases step_cases name s i with ⟨-, -, eq⟩ | ⟨idle, free, eq⟩ | ⟨checked, eq⟩ | ⟨-, eq⟩
  · rw [eq]
    exact inv.refuse i
  · rw [eq]
    exact inv.check idle free apart
  · rw [eq]
    exact inv.act checked
  · rw [eq]
    exact inv

theorem guarded_inv {keys : List κ} (distinct : keys.Nodup) (schedule : List ι)
    (apart : Guarded (step name) (Apart name) (start keys) schedule) :
    Inv name (schedule.foldl (step name) (start keys)) :=
  guarded_invariant (step name) (Apart name) (fun _ i inv ok => inv_step inv i ok) _ _
    (inv_start distinct) apart

/-- Two calls have added, or will add, the same key. -/
def Clash (name : ι → κ) (i j : ι) (s : State ι κ) : Prop :=
  2 ≤ s.keys.count (name i) + owes s i + owes s j

theorem clash_step {i j : ι} (other : i ≠ j) (same : name i = name j) (clash : Clash name i j s)
    (k : ι) : Clash name i j (step name s k) := by
  unfold Clash at *
  rcases step_cases name s k with ⟨idle, -, eq⟩ | ⟨idle, -, eq⟩ | ⟨checked, eq⟩ | ⟨-, eq⟩
  · have none : owes s k = 0 := by simp [owes, idle]
    simp only [eq, owes_goTo, goTo_keys]
    by_cases left : i = k <;> by_cases right : j = k <;> simp_all
  · have none : owes s k = 0 := by simp [owes, idle]
    simp only [eq, owes_goTo, goTo_keys]
    by_cases left : i = k <;> by_cases right : j = k <;> simp_all <;> omega
  · have one : owes s k = 1 := by simp [owes, checked]
    have counted : (s.keys ++ [name k]).count (name i) =
        s.keys.count (name i) + if name k = name i then 1 else 0 := by
      simp [List.count_append, List.count_singleton]
    have owed : ∀ l, owes { s.goTo k .done with keys := s.keys ++ [name k] } l =
        if l = k then 0 else owes s l := fun l => owes_goTo s l k .done
    rw [eq]
    simp only [counted, owed]
    by_cases left : i = k <;> by_cases right : j = k
    · exact absurd (left.trans right.symm) other
    · subst left
      simp only [if_true, if_neg right]
      omega
    · subst right
      simp only [if_true, if_neg left, same]
      rw [same] at clash
      omega
    · simp only [if_neg left, if_neg right]
      omega
  · rwa [eq]

/-- A call that is not apart makes a clash, at once and for good. -/
theorem clash_of_not_apart {i : ι} (together : ¬ Apart name s i) :
    ∃ j, i ≠ j ∧ name i = name j ∧ Clash name i j (step name s i) := by
  unfold Apart at together
  push Not at together
  obtain ⟨idle, j, checked, same⟩ := together
  have other : i ≠ j := fun eq => by rw [eq, checked] at idle; cases idle
  have one : owes s j = 1 := by simp [owes, checked]
  refine ⟨j, other, same.symm, ?_⟩
  unfold Clash
  rcases step_cases name s i with ⟨-, known, eq⟩ | ⟨-, -, eq⟩ | ⟨bad, -⟩ | ⟨bad, -⟩
  · have counted := List.count_pos_iff.mpr known
    simp only [eq, owes_goTo, goTo_keys, if_neg other.symm, one]
    omega
  · simp only [eq, owes_goTo, goTo_keys, if_neg other.symm, one, if_true]
    omega
  · rw [idle] at bad
    cases bad
  · rcases bad with bad | bad <;> (rw [idle] at bad; cases bad)

theorem guarded_of_distinct {schedule : List ι}
    (settled : ∀ i, (schedule.foldl (step name) s).phase i ≠ .checked)
    (distinct : (schedule.foldl (step name) s).keys.Nodup) :
    Guarded (step name) (Apart name) s schedule := by
  rw [guarded_iff]
  rintro before i after rfl
  by_contra together
  obtain ⟨j, other, same, clash⟩ := clash_of_not_apart together
  have final := foldl_invariant (step name) (I := Clash name i j)
    (fun _ k h => clash_step other same h k) _ after clash
  rw [List.foldl_append, List.foldl_cons] at settled distinct
  have left := settled i
  have right := settled j
  have once := List.nodup_iff_count_le_one.mp distinct (name i)
  simp only [Clash, owes, if_neg left, if_neg right] at final
  omega

end Run

end Ccfolio.CheckThenAct
