import Mathlib.Data.List.Nodup
import Mathlib.Logic.Function.Basic

/-! Objects that live at addresses, which are used again once they are free,
and a registry of addresses that objects join and leave. An object leaves
before it is freed, so the registry names objects that are still there. Nothing
in this file names an application. -/

namespace Ccfolio.Registries

inductive Life where
  | unborn
  | live
  | dying
  | left
  | freed
  deriving DecidableEq, Repr

/-- The object's memory is allocated. -/
def Life.placed : Life → Bool
  | .live | .dying | .left => true
  | .unborn | .freed => false

/-- The object has not been through `leave`. -/
def Life.stays : Life → Bool
  | .live | .dying => true
  | .unborn | .left | .freed => false

theorem Life.placed_of_stays {l : Life} (h : l.stays = true) : l.placed = true := by
  cases l with
  | live | dying => rfl
  | unborn | left | freed => cases h

structure Heap (ι A : Type) where
  addr : ι → Option A
  life : ι → Life
  joined : ι → Bool
  memory : A → Option ι
  registry : List A

variable {ι A : Type} [DecidableEq ι] [DecidableEq A]

namespace Heap

def empty : Heap ι A := ⟨fun _ => none, fun _ => .unborn, fun _ => false, fun _ => none, []⟩

def setLife (h : Heap ι A) (i : ι) (l : Life) : Heap ι A :=
  { h with life := Function.update h.life i l }

def create (h : Heap ι A) (i : ι) (a : A) : Heap ι A :=
  { h.setLife i .live with
    addr := Function.update h.addr i (some a)
    joined := Function.update h.joined i false
    memory := Function.update h.memory a (some i) }

def join (h : Heap ι A) (i : ι) : Heap ι A :=
  { h with
    joined := Function.update h.joined i true
    registry := (h.addr i).elim h.registry fun a => h.registry.insert a }

def die (h : Heap ι A) (i : ι) : Heap ι A := h.setLife i .dying

def leave (h : Heap ι A) (i : ι) : Heap ι A :=
  { h.setLife i .left with
    registry := (h.addr i).elim h.registry fun a => h.registry.erase a }

def free (h : Heap ι A) (i : ι) : Heap ι A :=
  { h.setLife i .freed with
    memory := (h.addr i).elim h.memory fun a => Function.update h.memory a none }

section Fields

variable (h : Heap ι A) (i j : ι) (a : A)

@[simp] theorem create_life : (h.create i a).life j = if j = i then .live else h.life j :=
  Function.update_apply ..

@[simp] theorem create_addr : (h.create i a).addr j = if j = i then some a else h.addr j :=
  Function.update_apply ..

@[simp] theorem create_joined : (h.create i a).joined j = if j = i then false else h.joined j :=
  Function.update_apply ..

@[simp] theorem join_joined : (h.join i).joined j = if j = i then true else h.joined j :=
  Function.update_apply ..

omit [DecidableEq A] in
@[simp] theorem die_life : (h.die i).life j = if j = i then .dying else h.life j :=
  Function.update_apply ..

@[simp] theorem leave_life : (h.leave i).life j = if j = i then .left else h.life j :=
  Function.update_apply ..

@[simp] theorem free_life : (h.free i).life j = if j = i then .freed else h.life j :=
  Function.update_apply ..

end Fields

end Heap

/-- Memory and addresses agree, and the registry is exactly the addresses of
the objects that have joined and have not left. -/
structure Inv (h : Heap ι A) : Prop where
  placed : ∀ a i, h.memory a = some i ↔ h.addr i = some a ∧ (h.life i).placed = true
  distinct : h.registry.Nodup
  exact : ∀ a, a ∈ h.registry ↔
    ∃ i, h.joined i = true ∧ (h.life i).stays = true ∧ h.addr i = some a

variable {h : Heap ι A} {i : ι} {a : A}

omit [DecidableEq ι] [DecidableEq A] in
theorem inv_empty : Inv (Heap.empty : Heap ι A) :=
  ⟨fun _ _ => ⟨nofun, nofun⟩, List.nodup_nil, fun _ => ⟨nofun, nofun⟩⟩

omit [DecidableEq ι] [DecidableEq A] in
theorem Inv.unique (inv : Inv h) {j : ι} (at_i : h.addr i = some a) (at_j : h.addr j = some a)
    (here : (h.life i).placed = true) (there : (h.life j).placed = true) : i = j := by
  have first := (inv.placed a i).mpr ⟨at_i, here⟩
  have second := (inv.placed a j).mpr ⟨at_j, there⟩
  exact Option.some.inj (first.symm.trans second)

omit [DecidableEq ι] [DecidableEq A] in
theorem Inv.memory_of_mem (inv : Inv h) (mem : a ∈ h.registry) :
    ∃ i, h.memory a = some i ∧ (h.life i).stays = true ∧ h.addr i = some a := by
  obtain ⟨i, -, stays, at_i⟩ := (inv.exact a).mp mem
  exact ⟨i, (inv.placed a i).mpr ⟨at_i, Life.placed_of_stays stays⟩, stays, at_i⟩

omit [DecidableEq ι] [DecidableEq A] in
theorem Inv.memory_nodup (inv : Inv h) {as : List A} (distinct : as.Nodup) :
    (as.filterMap h.memory).Nodup :=
  distinct.filterMap fun a b i at_a at_b => by
    have first := ((inv.placed a i).mp at_a).1
    have second := ((inv.placed b i).mp at_b).1
    exact Option.some.inj (first.symm.trans second)

omit [DecidableEq ι] [DecidableEq A] in
/-- What is in the registry at the address of an object that never joined
would be another object at that address. -/
theorem Inv.not_mem_of_stranger (inv : Inv h) (stays : (h.life i).stays = true)
    (stranger : h.joined i = false) (at_i : h.addr i = some a) : a ∉ h.registry := by
  intro mem
  obtain ⟨j, joined, stays_j, at_j⟩ := (inv.exact a).mp mem
  have same := inv.unique at_i at_j (Life.placed_of_stays stays) (Life.placed_of_stays stays_j)
  rw [← same, stranger] at joined
  cases joined

theorem inv_create (inv : Inv h) (unborn : h.life i = .unborn) (free : h.memory a = none) :
    Inv (h.create i a) := by
  refine ⟨fun b j => ?_, inv.distinct, fun b => (inv.exact b).trans (exists_congr fun j => ?_)⟩
  · rw [Heap.create_addr, Heap.create_life]
    change Function.update h.memory a (some i) b = some j ↔ _
    have old := inv.placed b j
    by_cases same : j = i <;> by_cases at_a : b = a
    · simp [same, at_a, Life.placed]
    · rw [same, unborn] at old
      simp [same, at_a, Ne.symm at_a, old, Life.placed]
    · rw [at_a, free] at old
      simpa [same, at_a, Ne.symm same] using old
    · simpa [same, at_a] using old
  · rw [Heap.create_joined, Heap.create_life, Heap.create_addr]
    by_cases same : j = i
    · simp [same, unborn, Life.stays]
    · simp [same]

theorem inv_join (inv : Inv h) (live : h.life i = .live) : Inv (h.join i) := by
  have stays : (h.life i).stays = true := by rw [live]; rfl
  have members : ∀ {a}, (∃ j, (h.join i).joined j = true ∧ (h.life j).stays = true ∧
      h.addr j = some a) ↔ h.addr i = some a ∨ a ∈ h.registry := by
    intro a
    rw [inv.exact]
    simp only [Heap.join_joined]
    constructor
    · rintro ⟨j, in_j, stays_j, at_j⟩
      by_cases same : j = i
      · exact .inl (same ▸ at_j)
      · exact .inr ⟨j, by rwa [if_neg same] at in_j, stays_j, at_j⟩
    · rintro (at_i | ⟨j, in_j, stays_j, at_j⟩)
      · exact ⟨i, if_pos rfl, stays, at_i⟩
      · exact ⟨j, by simp [in_j], stays_j, at_j⟩
  refine ⟨inv.placed, ?_, fun a => Iff.trans ?_ members.symm⟩
  · cases at_i : h.addr i with
    | none => simpa [Heap.join, at_i] using inv.distinct
    | some a => simpa [Heap.join, at_i] using List.Nodup.insert (a := a) inv.distinct
  · cases at_i : h.addr i with
    | none => simp [Heap.join, at_i]
    | some b => simp [Heap.join, at_i, eq_comm]

omit [DecidableEq A] in
theorem inv_die (inv : Inv h) (live : h.life i = .live) : Inv (h.die i) := by
  have lives : ∀ j, ((h.die i).life j).placed = (h.life j).placed ∧
      ((h.die i).life j).stays = (h.life j).stays := by
    intro j
    rw [Heap.die_life]
    by_cases same : j = i
    · simp [same, live, Life.placed, Life.stays]
    · simp [same]
  refine ⟨fun a j => ?_, inv.distinct, fun a => (inv.exact a).trans (exists_congr fun j => ?_)⟩
  · rw [(lives j).1]
    exact inv.placed a j
  · rw [(lives j).2]
    rfl

theorem inv_leave (inv : Inv h) (dying : h.life i = .dying) : Inv (h.leave i) := by
  have here : (h.life i).placed = true := by rw [dying]; rfl
  have members : ∀ {a}, (∃ j, h.joined j = true ∧ ((h.leave i).life j).stays = true ∧
      h.addr j = some a) ↔ a ∈ h.registry ∧ h.addr i ≠ some a := by
    intro a
    rw [inv.exact]
    simp only [Heap.leave_life]
    constructor
    · rintro ⟨j, in_j, stays_j, at_j⟩
      have other : j ≠ i := by
        rintro rfl
        simp [Life.stays] at stays_j
      rw [if_neg other] at stays_j
      refine ⟨⟨j, in_j, stays_j, at_j⟩, fun at_i => other ?_⟩
      exact inv.unique at_j at_i (Life.placed_of_stays stays_j) here
    · rintro ⟨⟨j, in_j, stays_j, at_j⟩, elsewhere⟩
      have other : j ≠ i := fun same => elsewhere (same ▸ at_j)
      exact ⟨j, in_j, by rwa [if_neg other], at_j⟩
  refine ⟨fun a j => ?_, ?_, fun a => Iff.trans ?_ members.symm⟩
  · have placed : ((h.leave i).life j).placed = (h.life j).placed := by
      rw [Heap.leave_life]
      by_cases same : j = i
      · simp [same, dying, Life.placed]
      · simp [same]
    rw [placed]
    exact inv.placed a j
  · cases at_i : h.addr i with
    | none => simpa [Heap.leave, at_i] using inv.distinct
    | some a => simpa [Heap.leave, at_i] using inv.distinct.erase a
  · cases at_i : h.addr i with
    | none => simp [Heap.leave, at_i, Heap.setLife]
    | some b =>
      simp [Heap.leave, at_i, Heap.setLife, inv.distinct.mem_erase_iff, and_comm, eq_comm]

theorem free_memory (inv : Inv h) (left : h.life i = .left) {j : ι} :
    (h.free i).memory a = some j ↔ h.memory a = some j ∧ j ≠ i := by
  have here : (h.life i).placed = true := by rw [left]; rfl
  cases at_i : h.addr i with
  | none =>
    have nowhere : h.memory a = some j → j ≠ i := fun mem same => by
      have placed := (inv.placed a j).mp mem
      rw [same, at_i] at placed
      cases placed.1
    simpa [Heap.free, Heap.setLife, at_i] using nowhere
  | some b =>
    have memory : (h.free i).memory = Function.update h.memory b none := by
      simp [Heap.free, Heap.setLife, at_i]
    rw [memory]
    by_cases at_b : a = b
    · have old := (inv.placed b i).mpr ⟨at_i, here⟩
      simp [at_b, old, eq_comm]
    · have elsewhere : h.memory a = some j → j ≠ i := fun mem same => by
        have placed := (inv.placed a j).mp mem
        rw [same, at_i] at placed
        exact at_b (Option.some.inj placed.1).symm
      simpa [at_b] using elsewhere

theorem create_memory_of_mem (inv : Inv h) {b : A} (free : h.memory b = none)
    (mem : a ∈ h.registry) : (h.create i b).memory a = h.memory a := by
  obtain ⟨j, there, -, -⟩ := inv.memory_of_mem mem
  have elsewhere : a ≠ b := by
    rintro rfl
    rw [free] at there
    cases there
  exact Function.update_of_ne elsewhere ..

theorem free_memory_of_mem (inv : Inv h) (left : h.life i = .left) (mem : a ∈ h.registry) :
    (h.free i).memory a = h.memory a := by
  obtain ⟨j, there, stays, -⟩ := inv.memory_of_mem mem
  have other : j ≠ i := by
    rintro rfl
    rw [left] at stays
    cases stays
  rw [there]
  exact (free_memory inv left).mpr ⟨there, other⟩

theorem inv_free (inv : Inv h) (left : h.life i = .left) : Inv (h.free i) := by
  refine ⟨fun a j => ?_, inv.distinct, fun a => (inv.exact a).trans (exists_congr fun j => ?_)⟩
  · rw [free_memory inv left, inv.placed, Heap.free_life]
    by_cases same : j = i
    · simp [same, Life.placed]
    · simp [same, Heap.free, Heap.setLife]
  · rw [Heap.free_life]
    by_cases same : j = i
    · simp [same, left, Life.stays]
    · simp [same, Heap.free, Heap.setLife]

end Ccfolio.Registries
