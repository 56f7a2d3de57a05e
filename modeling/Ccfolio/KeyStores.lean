import Mathlib.Data.Set.Insert
import Mathlib.Logic.Function.Basic

/-! Entities under keys that a store hands out itself, none of them twice.
Nothing in this file names an application. -/

namespace Ccfolio.KeyStores

variable {K V : Type} [DecidableEq K]

/-- What is under each key, and the keys that have been handed out. -/
structure Store (K V : Type) where
  entities : K → Option V
  used : Set K
  known : ∀ k, entities k ≠ none → k ∈ used

inductive Event (K V : Type) where
  | look
  | add (k : K) (v : V)
  | put (k : K) (v : V)
  | remove (k : K)

namespace Store

variable (s : Store K V) (k : K) (v : V)

def write : Store K V where
  entities := Function.update s.entities k (some v)
  used := insert k s.used
  known i here := by
    by_cases same : i = k
    · exact same ▸ Set.mem_insert ..
    · rw [Function.update_of_ne same] at here
      exact Set.mem_insert_of_mem _ (s.known i here)

def remove : Store K V where
  entities := Function.update s.entities k none
  used := s.used
  known i here := by
    by_cases same : i = k
    · rw [same, Function.update_self] at here
      exact absurd rfl here
    · rw [Function.update_of_ne same] at here
      exact s.known i here

def after : Event K V → Store K V
  | .look => s
  | .add k v | .put k v => s.write k v
  | .remove k => s.remove k

/-- What is added gets a key of its own; what is changed is there. -/
def Allows : Event K V → Prop
  | .look => True
  | .add k _ => k ∉ s.used
  | .put k _ | .remove k => s.entities k ≠ none

/-- The key has been handed out, and there is nothing under it any more. -/
def Gone : Prop := k ∈ s.used ∧ s.entities k = none

variable {s k v} {e : Event K V}

theorem gone_remove (here : s.entities k ≠ none) : (s.remove k).Gone k :=
  ⟨s.known k here, Function.update_self ..⟩

theorem Gone.after (gone : s.Gone k) (allowed : s.Allows e) : (s.after e).Gone k := by
  obtain ⟨used, none⟩ := gone
  cases e with
  | look => exact ⟨used, none⟩
  | add i v =>
    have apart : k ≠ i := fun same => allowed (same ▸ used)
    exact ⟨Set.mem_insert_of_mem _ used, (Function.update_of_ne apart ..).trans none⟩
  | put i v =>
    have apart : k ≠ i := fun same => allowed (same ▸ none)
    exact ⟨Set.mem_insert_of_mem _ used, (Function.update_of_ne apart ..).trans none⟩
  | remove i =>
    have apart : k ≠ i := fun same => allowed (same ▸ none)
    exact ⟨used, (Function.update_of_ne apart ..).trans none⟩

theorem entities_after (here : s.entities k = some v) (allowed : s.Allows e)
    (apart : ∀ v', e ≠ .put k v' ∧ e ≠ .remove k) : (s.after e).entities k = some v := by
  cases e with
  | look => exact here
  | add i v' =>
    have other : k ≠ i := fun same => allowed (same ▸ s.known k (by simp [here]))
    exact (Function.update_of_ne other ..).trans here
  | put i v' =>
    have other : k ≠ i := fun same => (apart v').1 (by rw [same])
    exact (Function.update_of_ne other ..).trans here
  | remove i =>
    have other : k ≠ i := fun same => (apart v).2 (by rw [same])
    exact (Function.update_of_ne other ..).trans here

end Store

end Ccfolio.KeyStores
