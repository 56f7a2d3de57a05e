import Mathlib.Data.List.Pairwise
import Mathlib.Data.List.Nodup
import Mathlib.Logic.Function.Basic

/-! Calls on several threads that each take a snapshot of a set of members and
then visit it, posting to the members that are still there. Calls are numbered
as they begin. Nothing in this file names an application. -/

namespace Ccfolio.Broadcasts

/-- A record of one call: its snapshot, the members visited so far and whether
they were there, the calls that had returned when it began, and whether it has
returned itself. -/
structure Call (ι : Type) where
  members : List ι
  checked : List (ι × Bool)
  earlier : List Nat
  returned : Bool
  deriving DecidableEq, Repr

def Call.blank {ι : Type} : Call ι := ⟨[], [], [], false⟩

inductive Stage (ι : Type) where
  | waiting
  | visiting (rest : List ι)
  | telling (i : ι) (rest : List ι)
  deriving DecidableEq, Repr

structure State (T ι : Type) where
  begun : Nat
  calls : Nat → Call ι
  posts : ι → List Nat
  stage : T → Option (Nat × Stage ι)

section Steps

variable {T ι : Type} [DecidableEq T] [DecidableEq ι]

def State.put (s : State T ι) (t : T) (m : Nat) (c : Call ι) (p : Option (Nat × Stage ι)) :
    State T ι :=
  { s with calls := Function.update s.calls m c, stage := Function.update s.stage t p }

def State.post (s : State T ι) (i : ι) (m : Nat) : State T ι :=
  { s with posts := Function.update s.posts i (s.posts i ++ [m]) }

def finished (begun : Nat) (calls : Nat → Call ι) : List Nat :=
  (List.range begun).filter fun m => (calls m).returned

inductive Step (s : State T ι) (t : T) : State T ι → Prop
  | begin (outside : s.stage t = none) :
      Step s t ({ s with begun := s.begun + 1 }.put t s.begun
        { Call.blank with earlier := finished s.begun s.calls } (some (s.begun, .waiting)))
  | snapshot {m : Nat} {members : List ι} (at_stage : s.stage t = some (m, .waiting))
      (distinct : members.Nodup) :
      Step s t (s.put t m { s.calls m with members := members } (some (m, .visiting members)))
  | there {m : Nat} {i : ι} {rest : List ι}
      (at_stage : s.stage t = some (m, .visiting (i :: rest))) :
      Step s t (s.put t m { s.calls m with checked := (s.calls m).checked ++ [(i, true)] }
        (some (m, .telling i rest)))
  | gone {m : Nat} {i : ι} {rest : List ι}
      (at_stage : s.stage t = some (m, .visiting (i :: rest))) :
      Step s t (s.put t m { s.calls m with checked := (s.calls m).checked ++ [(i, false)] }
        (some (m, .visiting rest)))
  | post {m : Nat} {i : ι} {rest : List ι} (at_stage : s.stage t = some (m, .telling i rest)) :
      Step s t ((s.post i m).put t m (s.calls m) (some (m, .visiting rest)))
  | finish {m : Nat} (at_stage : s.stage t = some (m, .visiting [])) :
      Step s t (s.put t m { s.calls m with returned := true } none)

end Steps

/-- What has been visited and what is left make up the snapshot, and those that
were there have been told, but for the one whose turn it is. -/
def Fits {ι : Type} (c : Call ι) (told : ι → Prop) : Stage ι → Prop
  | .waiting => c.members = [] ∧ c.checked = []
  | .visiting rest =>
      c.members = c.checked.map Prod.fst ++ rest ∧ ∀ i, (i, true) ∈ c.checked → told i
  | .telling i rest =>
      c.members = c.checked.map Prod.fst ++ rest ∧ (i, true) ∈ c.checked ∧ ¬ told i ∧
        ∀ j, j ≠ i → (j, true) ∈ c.checked → told j

structure Inv {T ι : Type} (s : State T ι) : Prop where
  fresh : ∀ m, s.begun ≤ m → s.calls m = .blank
  current : ∀ t m p, s.stage t = some (m, p) → m < s.begun ∧ (s.calls m).returned = false
  one : ∀ t t' m p p', s.stage t = some (m, p) → s.stage t' = some (m, p') → t = t'
  fits : ∀ t m p, s.stage t = some (m, p) → Fits (s.calls m) (fun i => m ∈ s.posts i) p
  done : ∀ m, (s.calls m).returned = true →
    (s.calls m).checked.map Prod.fst = (s.calls m).members ∧
      ∀ i, (i, true) ∈ (s.calls m).checked → m ∈ s.posts i
  told : ∀ m i, m ∈ s.posts i → (i, true) ∈ (s.calls m).checked
  distinct : ∀ m, (s.calls m).members.Nodup
  within : ∀ m, (s.calls m).checked.map Prod.fst <+: (s.calls m).members
  once : ∀ i, (s.posts i).Nodup
  earlier : ∀ m m', m ∈ (s.calls m').earlier → m < m' ∧ (s.calls m).returned = true
  order : ∀ i, (s.posts i).Pairwise fun a b => b ∉ (s.calls a).earlier

variable {T ι : Type} {s s' : State T ι} {t : T} {m : Nat}

theorem Inv.mem_finished (inv : Inv s) : m ∈ finished s.begun s.calls ↔
    (s.calls m).returned = true := by
  refine List.mem_filter.trans ⟨And.right, fun returned => ⟨List.mem_range.mpr ?_, returned⟩⟩
  by_contra beyond
  rw [inv.fresh m (Nat.not_lt.mp beyond)] at returned
  cases returned

theorem Inv.unposted (inv : Inv s) (new : s.begun ≤ m) (i : ι) : m ∉ s.posts i := by
  intro mem
  have seen := inv.told m i mem
  rw [inv.fresh m new] at seen
  cases seen

variable [DecidableEq T]

theorem Inv.put (inv : Inv s) {c : Call ι} {q : Option (Nat × Stage ι)}
    (calls : s'.calls = Function.update s.calls m c)
    (stage : s'.stage = Function.update s.stage t q) (more : s.begun ≤ s'.begun)
    (numbered : m < s'.begun) (alone : ∀ t' p, t' ≠ t → s.stage t' ≠ some (m, p))
    (running : (s.calls m).returned = false)
    (earlier : ∀ k ∈ c.earlier, k < m ∧ (s.calls k).returned = true) (distinct : c.members.Nodup)
    (within : c.checked.map Prod.fst <+: c.members)
    (told : ∀ i, m ∈ s'.posts i → (i, true) ∈ c.checked)
    (others : ∀ k i, k ≠ m → (k ∈ s'.posts i ↔ k ∈ s.posts i)) (once : ∀ i, (s'.posts i).Nodup)
    (order : ∀ i, (s'.posts i).Pairwise fun a b => b ∉ (s'.calls a).earlier)
    (after : (∃ p, q = some (m, p) ∧ c.returned = false ∧ Fits c (fun i => m ∈ s'.posts i) p) ∨
      (q = none ∧ c.checked.map Prod.fst = c.members ∧
        ∀ i, (i, true) ∈ c.checked → m ∈ s'.posts i)) : Inv s' := by
  have at_m : s'.calls m = c := by rw [calls, Function.update_self]
  have elsewhere : ∀ k, k ≠ m → s'.calls k = s.calls k := fun k other => by
    rw [calls, Function.update_of_ne other]
  have each : ∀ P : Nat → Call ι → Prop, P m c → (∀ k, k ≠ m → P k (s.calls k)) →
      ∀ k, P k (s'.calls k) := fun P new old => by
    rw [calls]
    exact (Function.forall_update_iff s.calls P).mpr ⟨new, old⟩
  have staged : ∀ t' k p, s'.stage t' = some (k, p) →
      (t' = t ∧ q = some (k, p)) ∨ (t' ≠ t ∧ s.stage t' = some (k, p) ∧ k ≠ m) := by
    intro t' k p h
    rw [stage] at h
    by_cases same : t' = t
    · rw [same, Function.update_self] at h
      exact .inl ⟨same, h⟩
    · rw [Function.update_of_ne same] at h
      exact .inr ⟨same, h, fun own => alone t' p same (own ▸ h)⟩
  have own : ∀ {k p}, q = some (k, p) → k = m ∧ c.returned = false ∧
      Fits c (fun i => m ∈ s'.posts i) p := by
    intro k p h
    rcases after with ⟨p', at_q, open_c, fits⟩ | ⟨at_q, -⟩
    · rw [at_q] at h
      cases h
      exact ⟨rfl, open_c, fits⟩
    · rw [at_q] at h
      cases h
  have same_told : ∀ k, k ≠ m → (fun i => k ∈ s'.posts i) = fun i => k ∈ s.posts i := by
    intro k other
    funext i
    exact propext (others k i other)
  constructor
  case once => exact once
  case order => exact order
  case distinct => exact each (fun _ c => c.members.Nodup) distinct fun k _ => inv.distinct k
  case within =>
    exact each (fun _ c => c.checked.map Prod.fst <+: c.members) within fun k _ => inv.within k
  case told =>
    exact each (fun k c => ∀ i, k ∈ s'.posts i → (i, true) ∈ c.checked) told
      fun k other i mem => inv.told k i ((others k i other).mp mem)
  case fresh =>
    refine each (fun k c => s'.begun ≤ k → c = .blank) (fun new => ?_) fun k _ new => ?_
    · exact absurd numbered (Nat.not_lt.mpr new)
    · exact inv.fresh k (Nat.le_trans more new)
  case done =>
    refine each (fun k c => c.returned = true → c.checked.map Prod.fst = c.members ∧
      ∀ i, (i, true) ∈ c.checked → k ∈ s'.posts i) (fun returned => ?_) fun k other returned => ?_
    · rcases after with ⟨_, _, open_c, _⟩ | ⟨-, done⟩
      · rw [open_c] at returned
        cases returned
      · exact done
    · obtain ⟨all, posted⟩ := inv.done k returned
      exact ⟨all, fun i mem => (others k i other).mpr (posted i mem)⟩
  case earlier =>
    have returned : ∀ k' k, k ∈ (s'.calls k').earlier → k < k' ∧ (s.calls k).returned = true :=
      each (fun k' c => ∀ k, k ∈ c.earlier → k < k' ∧ (s.calls k).returned = true) earlier
        fun k' _ k => inv.earlier k k'
    intro k k' mem
    obtain ⟨below, done⟩ := returned k' k mem
    have other : k ≠ m := fun same => by
      rw [same, running] at done
      cases done
    rw [elsewhere k other]
    exact ⟨below, done⟩
  case current =>
    intro t' k p h
    rcases staged t' k p h with ⟨-, at_q⟩ | ⟨-, at_stage, other⟩
    · obtain ⟨rfl, open_c, -⟩ := own at_q
      rw [at_m]
      exact ⟨numbered, open_c⟩
    · obtain ⟨below, open_k⟩ := inv.current t' k p at_stage
      rw [elsewhere k other]
      exact ⟨Nat.lt_of_lt_of_le below more, open_k⟩
  case one =>
    intro t₁ t₂ k p p' h h'
    rcases staged t₁ k p h with ⟨first, at_q⟩ | ⟨-, at_first, other⟩ <;>
      rcases staged t₂ k p' h' with ⟨second, at_q'⟩ | ⟨-, at_second, other'⟩
    · exact first.trans second.symm
    · exact absurd (own at_q).1 other'
    · exact absurd (own at_q').1 other
    · exact inv.one t₁ t₂ k p p' at_first at_second
  case fits =>
    intro t' k p h
    rcases staged t' k p h with ⟨-, at_q⟩ | ⟨-, at_stage, other⟩
    · obtain ⟨rfl, -, fits⟩ := own at_q
      rw [at_m]
      exact fits
    · rw [elsewhere k other, same_told k other]
      exact inv.fits t' k p at_stage

theorem Inv.begin (inv : Inv s) :
    Inv ({ s with begun := s.begun + 1 }.put t s.begun
      { Call.blank with earlier := finished s.begun s.calls } (some (s.begun, .waiting))) := by
  refine inv.put rfl rfl (Nat.le_succ _) (Nat.lt_succ_self _) (fun t' p _ h => ?_) ?_
    (fun k mem => ?_) List.nodup_nil List.prefix_rfl (fun i mem => ?_)
    (fun _ _ _ => Iff.rfl) inv.once (fun i => ?_) (.inl ⟨.waiting, rfl, rfl, rfl, rfl⟩)
  · exact absurd (inv.current t' _ p h).1 (Nat.lt_irrefl _)
  · rw [inv.fresh _ (Nat.le_refl _)]
    rfl
  · obtain ⟨below, returned⟩ := List.mem_filter.mp mem
    exact ⟨List.mem_range.mp below, returned⟩
  · exact absurd mem (inv.unposted (Nat.le_refl _) i)
  · refine (inv.order i).imp_of_mem fun {a b} mem _ before => ?_
    have other : a ≠ s.begun := fun same => inv.unposted (Nat.le_refl _) i (same ▸ mem)
    simpa only [State.put, Function.update_of_ne other] using before

theorem Inv.carry (inv : Inv s) {p : Stage ι} {c : Call ι} {q : Option (Nat × Stage ι)}
    (at_stage : s.stage t = some (m, p)) (calls : s'.calls = Function.update s.calls m c)
    (stage : s'.stage = Function.update s.stage t q) (begun : s'.begun = s.begun)
    (kept : c.earlier = (s.calls m).earlier) (distinct : c.members.Nodup)
    (within : c.checked.map Prod.fst <+: c.members)
    (told : ∀ i, m ∈ s'.posts i → (i, true) ∈ c.checked)
    (others : ∀ k i, k ≠ m → (k ∈ s'.posts i ↔ k ∈ s.posts i)) (once : ∀ i, (s'.posts i).Nodup)
    (order : ∀ i, (s'.posts i).Pairwise fun a b => b ∉ (s.calls a).earlier)
    (after : (∃ p, q = some (m, p) ∧ c.returned = false ∧ Fits c (fun i => m ∈ s'.posts i) p) ∨
      (q = none ∧ c.checked.map Prod.fst = c.members ∧
        ∀ i, (i, true) ∈ c.checked → m ∈ s'.posts i)) : Inv s' := by
  obtain ⟨below, running⟩ := inv.current t m p at_stage
  have same : ∀ a, (s'.calls a).earlier = (s.calls a).earlier := by
    intro a
    rw [calls]
    by_cases own : a = m
    · rw [own, Function.update_self, kept]
    · rw [Function.update_of_ne own]
  refine inv.put calls stage (Nat.le_of_eq begun.symm) (begun ▸ below)
    (fun t' p' other h => other (inv.one t' t m p' p h at_stage)) running
    (fun k mem => inv.earlier k m (kept ▸ mem)) distinct within told others once
    (fun i => ?_) after
  simpa only [same] using order i

theorem Inv.snapshot (inv : Inv s) {members : List ι} (at_stage : s.stage t = some (m, .waiting))
    (distinct : members.Nodup) :
    Inv (s.put t m { s.calls m with members := members } (some (m, .visiting members))) := by
  obtain ⟨-, checked⟩ := inv.fits t m _ at_stage
  refine inv.carry at_stage rfl rfl rfl rfl distinct ?_ (inv.told m) (fun _ _ _ => Iff.rfl)
    inv.once inv.order (.inl ⟨_, rfl, (inv.current t m _ at_stage).2, ?_, ?_⟩)
  · simp [checked]
  · simp [checked]
  · simp [checked]

omit [DecidableEq T] in
theorem Inv.unvisited (inv : Inv s) {i : ι} {rest : List ι}
    (at_stage : s.stage t = some (m, .visiting (i :: rest))) (b : Bool) :
    (i, b) ∉ (s.calls m).checked := by
  intro mem
  have distinct := inv.distinct m
  rw [(inv.fits t m _ at_stage).1, List.nodup_append] at distinct
  exact distinct.2.2 i (List.mem_map_of_mem mem) i (List.mem_cons_self ..) rfl

theorem Inv.there (inv : Inv s) {i : ι} {rest : List ι}
    (at_stage : s.stage t = some (m, .visiting (i :: rest))) :
    Inv (s.put t m { s.calls m with checked := (s.calls m).checked ++ [(i, true)] }
      (some (m, .telling i rest))) := by
  obtain ⟨members, posted⟩ := inv.fits t m _ at_stage
  refine inv.carry at_stage rfl rfl rfl rfl (inv.distinct m) ?_ (fun j mem => ?_)
    (fun _ _ _ => Iff.rfl) inv.once inv.order
    (.inl ⟨_, rfl, (inv.current t m _ at_stage).2, ?_, ?_, fun mem => ?_, fun j other mem => ?_⟩)
  · simp [members]
  · exact List.mem_append_left _ (inv.told m j mem)
  · simp [members]
  · simp
  · exact inv.unvisited at_stage true (inv.told m i mem)
  · exact posted j (by simpa [other] using mem)

theorem Inv.gone (inv : Inv s) {i : ι} {rest : List ι}
    (at_stage : s.stage t = some (m, .visiting (i :: rest))) :
    Inv (s.put t m { s.calls m with checked := (s.calls m).checked ++ [(i, false)] }
      (some (m, .visiting rest))) := by
  obtain ⟨members, posted⟩ := inv.fits t m _ at_stage
  refine inv.carry at_stage rfl rfl rfl rfl (inv.distinct m) ?_ (fun j mem => ?_)
    (fun _ _ _ => Iff.rfl) inv.once inv.order
    (.inl ⟨_, rfl, (inv.current t m _ at_stage).2, ?_, fun j mem => ?_⟩)
  · simp [members]
  · exact List.mem_append_left _ (inv.told m j mem)
  · simp [members]
  · exact posted j (by simpa using mem)

theorem Inv.finish (inv : Inv s) (at_stage : s.stage t = some (m, .visiting [])) :
    Inv (s.put t m { s.calls m with returned := true } none) := by
  obtain ⟨members, posted⟩ := inv.fits t m _ at_stage
  refine inv.carry at_stage rfl rfl rfl rfl (inv.distinct m) (inv.within m) (inv.told m)
    (fun _ _ _ => Iff.rfl) inv.once inv.order (.inr ⟨rfl, ?_, posted⟩)
  rw [members, List.append_nil]

variable [DecidableEq ι]

theorem Inv.post (inv : Inv s) {i : ι} {rest : List ι}
    (at_stage : s.stage t = some (m, .telling i rest)) :
    Inv ((s.post i m).put t m (s.calls m) (some (m, .visiting rest))) := by
  obtain ⟨members, mine, untold, posted⟩ := inv.fits t m _ at_stage
  obtain ⟨-, running⟩ := inv.current t m _ at_stage
  have at_i : (s.post i m).posts i = s.posts i ++ [m] := Function.update_self ..
  have elsewhere : ∀ j, j ≠ i → (s.post i m).posts j = s.posts j :=
    fun j other => Function.update_of_ne other ..
  refine inv.carry at_stage rfl rfl rfl rfl (inv.distinct m) (inv.within m) (fun j mem => ?_)
    (fun k j other => ?_) (fun j => ?_) (fun j => ?_)
    (.inl ⟨_, rfl, running, members, fun j mem => ?_⟩)
  · change m ∈ (s.post i m).posts j at mem
    by_cases same : j = i
    · exact same ▸ mine
    · rw [elsewhere j same] at mem
      exact inv.told m j mem
  · change k ∈ (s.post i m).posts j ↔ _
    by_cases same : j = i
    · rw [same, at_i]
      simp [other]
    · rw [elsewhere j same]
  · change ((s.post i m).posts j).Nodup
    by_cases same : j = i
    · rw [same, at_i]
      exact List.concat_eq_append ▸ (inv.once i).concat untold
    · rw [elsewhere j same]
      exact inv.once j
  · change ((s.post i m).posts j).Pairwise _
    by_cases same : j = i
    · rw [same, at_i, List.pairwise_append]
      refine ⟨inv.order i, List.pairwise_singleton .., fun a _ b last before => ?_⟩
      rw [List.mem_singleton.mp last] at before
      obtain ⟨-, returned⟩ := inv.earlier m a before
      rw [running] at returned
      cases returned
    · rw [elsewhere j same]
      exact inv.order j
  · change m ∈ (s.post i m).posts j
    by_cases same : j = i
    · rw [same, at_i]
      exact List.mem_append_right _ (List.mem_singleton_self m)
    · rw [elsewhere j same]
      exact posted j same mem

theorem inv_step (inv : Inv s) (step : Step s t s') : Inv s' := by
  cases step with
  | begin => exact inv.begin
  | snapshot at_stage distinct => exact inv.snapshot at_stage distinct
  | there at_stage => exact inv.there at_stage
  | gone at_stage => exact inv.gone at_stage
  | post at_stage => exact inv.post at_stage
  | finish at_stage => exact inv.finish at_stage

section Order

variable {α : Type} {a b : α} {l : List α}

theorem pair_sublist (ha : a ∈ l) (hb : b ∈ l) (different : a ≠ b) :
    [a, b].Sublist l ∨ [b, a].Sublist l := by
  induction l with
  | nil => cases ha
  | cons c l ih =>
    rcases List.mem_cons.mp ha with rfl | ha
    · exact .inl ((List.singleton_sublist.mpr
        ((List.mem_cons.mp hb).resolve_left (Ne.symm different))).cons_cons _)
    · rcases List.mem_cons.mp hb with same | hb
      · exact .inr (same ▸ (List.singleton_sublist.mpr ha).cons_cons b)
      · exact (ih ha hb).imp (.cons c) (.cons c)

end Order

omit [DecidableEq T] [DecidableEq ι] in
theorem Inv.first (inv : Inv s) {m' : Nat} {i : ι} {front : List Nat}
    (before : m ∈ (s.calls m').earlier) (mem : m ∈ s.posts i) (front_of : front <+: s.posts i)
    (started : m' ∈ front) : [m, m'].Sublist front := by
  have never : ∀ {l : List Nat}, l <+: s.posts i → ¬ [m', m].Sublist l := fun sub backwards =>
    List.pairwise_iff_forall_sublist.mp (inv.order i) (backwards.trans sub.sublist) before
  have different : m ≠ m' := Nat.ne_of_lt (inv.earlier m m' before).1
  obtain ⟨back, whole⟩ := front_of
  have mem_front : m ∈ front := by
    rw [← whole] at mem
    refine (List.mem_append.mp mem).resolve_right fun late => never (l := front ++ back) ?_ ?_
    · exact ⟨[], by rw [whole, List.append_nil]⟩
    · exact (List.singleton_sublist.mpr started).append (List.singleton_sublist.mpr late)
  exact (pair_sublist mem_front started different).resolve_right (never ⟨back, whole⟩)

omit [DecidableEq T] in
theorem Inv.count (inv : Inv s) (returned : (s.calls m).returned = true) (i : ι) :
    (s.posts i).count m = if (i, true) ∈ (s.calls m).checked then 1 else 0 := by
  split_ifs with there
  · exact List.count_eq_one_of_mem (inv.once i) ((inv.done m returned).2 i there)
  · exact List.count_eq_zero.mpr fun mem => there (inv.told m i mem)

end Ccfolio.Broadcasts
