import Ccfolio.Mutexes
import Ccfolio.SharedState

/-! What `sessions_`, the reference counts and `mutex_` have to do with each
other in every reachable state. -/

namespace Ccfolio.SessionLifetimes

open Mutexes Registries Transitions SharedState

variable {T A : Type} {i : SessionId}

def critical : Pc A → Bool
  | .joinInsert _ | .joinUnlock _ | .snapshot .. | .leaveErase .. | .leaveUnlock .. => true
  | _ => false

def heldAfter : After → List SessionId
  | .idle => []
  | .deliver caller _ _ => caller.toList

def held : Pc A → List SessionId
  | .idle => []
  | .making i | .handler i | .joinLock i | .joinInsert i | .joinUnlock i | .joined i => [i]
  | .sendLock caller _ | .snapshot caller .. | .deliver caller .. => caller.toList
  | .holding caller _ i _ | .posted caller _ i _ => i :: caller.toList
  | .leaveLock _ after | .leaveErase _ after | .leaveUnlock _ after | .free _ after =>
      heldAfter after

/-- The session whose destructor a thread is running, and how far it is. -/
def doomed : Pc A → Option (SessionId × Life)
  | .leaveLock i _ | .leaveErase i _ => some (i, .dying)
  | .leaveUnlock i _ | .free i _ => some (i, .left)
  | _ => none

/-- The addresses a thread has still to read in the loop over `sessions_`. -/
def scan : Pc A → List A
  | .snapshot _ _ todo _ => todo
  | _ => []

structure Inv [DecidableEq T] (w : World T A) : Prop where
  heap : Registries.Inv w.heap
  mutex : ∀ t, w.mutex = some t ↔ critical (w.pc t) = true
  holders : ∀ t i, (w.object i).holders.count t = (held (w.pc t)).count i
  alive : ∀ i, 0 < (w.object i).useCount → w.heap.life i = .live
  doomed : ∀ t i l, doomed (w.pc t) = some (i, l) → w.heap.life i = l
  sole : ∀ t t' i l l', SessionLifetimes.doomed (w.pc t) = some (i, l) →
    SessionLifetimes.doomed (w.pc t') = some (i, l') → t = t'
  scan : ∀ t, scan (w.pc t) ⊆ w.heap.registry

section Points

@[simp] theorem critical_returnTo (caller : Option SessionId) :
    critical (returnTo caller : Pc A) = false := by cases caller <;> rfl

@[simp] theorem held_returnTo (caller : Option SessionId) :
    held (returnTo caller : Pc A) = caller.toList := by cases caller <;> rfl

@[simp] theorem doomed_returnTo (caller : Option SessionId) :
    doomed (returnTo caller : Pc A) = none := by cases caller <;> rfl

@[simp] theorem scan_returnTo (caller : Option SessionId) :
    scan (returnTo caller : Pc A) = [] := by cases caller <;> rfl

@[simp] theorem critical_after (after : After) : critical (after.pc : Pc A) = false := by
  cases after <;> rfl

@[simp] theorem held_after (after : After) : held (after.pc : Pc A) = heldAfter after := by
  cases after <;> rfl

@[simp] theorem doomed_after (after : After) : doomed (after.pc : Pc A) = none := by
  cases after <;> rfl

@[simp] theorem scan_after (after : After) : scan (after.pc : Pc A) = [] := by
  cases after <;> rfl

@[simp] theorem critical_entry (c : Completion) : critical (c.entry i : Pc A) = false := by
  rcases c with (_ | _) | _ | _ | _ <;> rfl

@[simp] theorem held_entry (c : Completion) : held (c.entry i : Pc A) = [i] := by
  rcases c with (_ | _) | _ | _ | _ <;> rfl

@[simp] theorem doomed_entry (c : Completion) : doomed (c.entry i : Pc A) = none := by
  rcases c with (_ | _) | _ | _ | _ <;> rfl

@[simp] theorem scan_entry (c : Completion) : scan (c.entry i : Pc A) = [] := by
  rcases c with (_ | _) | _ | _ | _ <;> rfl

theorem last_cases {p : Pc A} {after : After} (h : p.last = some (i, after)) :
    critical p = false ∧ held p = i :: heldAfter after ∧ doomed p = none ∧ scan p = [] := by
  cases p <;> cases h <;> exact ⟨rfl, rfl, rfl, rfl⟩

theorem ended_of_doomed {p : Pc A} {l : Life} (h : doomed p = some (i, l)) :
    l = .dying ∨ l = .left := by
  cases p <;> cases h
  · exact .inl rfl
  · exact .inl rfl
  · exact .inr rfl
  · exact .inr rfl

theorem scan_of_not_critical {p : Pc A} (h : critical p = false) : scan p = [] := by
  cases p with
  | snapshot => cases h
  | _ => rfl

theorem take_some {o o' : Object T} {c : Completion} (h : o.take c = some o') :
    0 < o.useCount ∧ o'.holders = o.holders := by
  unfold Object.take at h
  split at h
  case h_1 | h_2 =>
    split_ifs at h with pending
    cases h
    exact ⟨by simp only [Object.useCount, pending, Bool.toNat_true]; omega, rfl⟩
  case h_3 =>
    obtain ⟨s, next, rfl⟩ := Option.map_eq_some_iff.mp h
    refine ⟨?_, rfl⟩
    cases posted : o.writer.posted with
    | nil => simp [WebSocketSession.step, posted] at next
    | cons m rest => simp only [Object.useCount, posted, List.length_cons]; omega
  case h_4 =>
    obtain ⟨s, next, rfl⟩ := Option.map_eq_some_iff.mp h
    refine ⟨?_, rfl⟩
    cases outstanding : o.writer.outstanding with
    | nil => simp [WebSocketSession.step, outstanding] at next
    | cons m rest => simp only [Object.useCount, outstanding, List.length_cons]; omega

end Points

variable [DecidableEq T] {w w' : World T A} {t t' : T}

theorem Inv.live_of_held (inv : Inv w) (h : i ∈ held (w.pc t)) : w.heap.life i = .live := by
  refine inv.alive i ?_
  have counted : 0 < (w.object i).holders.count t := by
    rw [inv.holders]
    exact List.count_pos_iff.mpr h
  have fits := List.count_le_length (a := t) (l := (w.object i).holders)
  simp only [Object.useCount]
  omega

/-- What a step of `t` to `p` owes: the mutex is kept, taken or let go of. -/
def Locks (w w' : World T A) (t : T) (p : Pc A) : Prop :=
  (w'.mutex = w.mutex ∧ critical p = critical (w.pc t)) ∨
  (w.mutex = none ∧ w'.mutex = some t ∧ critical p = true) ∨
  (critical (w.pc t) = true ∧ w'.mutex = none ∧ critical p = false)

variable {p q : Pc A}

omit [DecidableEq T] in
theorem Locks.keep (at_pc : w.pc t = q) (mutex : w'.mutex = w.mutex)
    (same : critical p = critical q) : Locks w w' t p :=
  .inl ⟨mutex, at_pc ▸ same⟩

omit [DecidableEq T] in
theorem Locks.free (at_pc : w.pc t = q) (inside : critical q = true) (mutex : w'.mutex = none)
    (outside : critical p = false) : Locks w w' t p :=
  .inr (.inr ⟨at_pc ▸ inside, mutex, outside⟩)

theorem Inv.mutex_move (inv : Inv w) (pc : w'.pc = Function.update w.pc t p)
    (lock : Locks w w' t p) (s : T) : w'.mutex = some s ↔ critical (w'.pc s) = true := by
  have passes : Passes t w.mutex (critical (w.pc t)) w'.mutex (critical p) := by
    rcases lock with ⟨kept, point⟩ | ⟨was, taken, point⟩ | ⟨was, released, point⟩
    · rw [kept, point]
      exact .keep ..
    · rw [was, taken, point]
      exact .take _
    · rw [was, released, point]
      exact .free _
  rw [pc, Function.apply_update fun _ => critical]
  exact Exclusive.pass inv.mutex passes s

theorem Inv.alone (inv : Inv w) (inside : critical (w.pc t) = true) (other : t' ≠ t) :
    critical (w.pc t') = false := by
  have exclusive : Exclusive w.mutex fun s => critical (w.pc s) := inv.mutex
  exact exclusive.alone inside other

theorem Inv.move (inv : Inv w) (pc : w'.pc = Function.update w.pc t p)
    (heap : Registries.Inv w'.heap) (lock : Locks w w' t p)
    (holders : ∀ s i, (w'.object i).holders.count s =
      if s = t then (held p).count i else (w.object i).holders.count s)
    (alive : ∀ i, 0 < (w'.object i).useCount → w'.heap.life i = .live)
    (mine : ∀ i l, SessionLifetimes.doomed p = some (i, l) →
      w'.heap.life i = l ∧ ∀ s l', s ≠ t → SessionLifetimes.doomed (w.pc s) ≠ some (i, l'))
    (others : ∀ s i l, s ≠ t → SessionLifetimes.doomed (w.pc s) = some (i, l) →
      w'.heap.life i = l)
    (reads : SessionLifetimes.scan p ⊆ w'.heap.registry)
    (still : w'.heap.registry = w.heap.registry ∨ critical (w.pc t) = true) : Inv w' := by
  refine ⟨heap, inv.mutex_move pc lock, fun s i => ?_, alive, fun s i l => ?_,
    fun s s' i l l' => ?_, fun s => ?_⟩
  · rw [holders, pc]
    by_cases same : s = t
    · subst same
      rw [if_pos rfl, Function.update_self]
    · rw [if_neg same, Function.update_of_ne same, inv.holders]
  · rw [pc]
    by_cases same : s = t
    · subst same
      rw [Function.update_self]
      exact fun h => (mine i l h).1
    · rw [Function.update_of_ne same]
      exact others s i l same
  · rw [pc]
    by_cases same : s = t <;> by_cases same' : s' = t
    · exact fun _ _ => same.trans same'.symm
    · subst same
      rw [Function.update_self, Function.update_of_ne same']
      exact fun h h' => absurd h' ((mine i l h).2 s' l' same')
    · subst same'
      rw [Function.update_self, Function.update_of_ne same]
      exact fun h h' => absurd h ((mine i l' h').2 s l same)
    · rw [Function.update_of_ne same, Function.update_of_ne same']
      exact inv.sole s s' i l l'
  · rw [pc]
    by_cases same : s = t
    · subst same
      rw [Function.update_self]
      exact reads
    · rw [Function.update_of_ne same]
      rcases still with still | inside
      · rw [still]
        exact inv.scan s
      · rw [scan_of_not_critical (inv.alone inside same)]
        exact List.nil_subset _

theorem Inv.stay (inv : Inv w) (at_pc : w.pc t = q) (pc : w'.pc = Function.update w.pc t p)
    (heap : Registries.Inv w'.heap) (life : w'.heap.life = w.heap.life)
    (object : w'.object = w.object) (lock : Locks w w' t p) (same_held : held p = held q)
    (same_doomed : SessionLifetimes.doomed p = SessionLifetimes.doomed q)
    (reads : SessionLifetimes.scan p ⊆ w'.heap.registry)
    (still : w'.heap.registry = w.heap.registry ∨ critical q = true) : Inv w' := by
  subst at_pc
  refine inv.move pc heap lock (fun s i => ?_) (fun i => ?_) (fun i l h => ?_)
    (fun s i l _ h => ?_) reads still
  · rw [object]
    split_ifs with same
    · rw [same, same_held, inv.holders]
    · rfl
  · rw [object, life]
    exact inv.alive i
  · rw [same_doomed] at h
    rw [life]
    exact ⟨inv.doomed t i l h, fun s l' other h' => other (inv.sole s t i l' l h' h)⟩
  · rw [life]
    exact inv.doomed s i l h

theorem Inv.edit (inv : Inv w) {i : SessionId} {o : Object T}
    (pc : w'.pc = Function.update w.pc t p) (heap : w'.heap = w.heap)
    (object : w'.object = Function.update w.object i o)
    (mutex : w'.mutex = w.mutex) (outside : critical p = critical (w.pc t))
    (holders : ∀ s, o.holders.count s =
      if s = t then (held p).count i else (w.object i).holders.count s)
    (rest : ∀ j, j ≠ i → (held p).count j = (held (w.pc t)).count j)
    (live : 0 < o.useCount → w.heap.life i = .live)
    (no_doom : SessionLifetimes.doomed p = none) (no_scan : SessionLifetimes.scan p = []) :
    Inv w' := by
  refine inv.move pc (heap ▸ inv.heap) (.inl ⟨mutex, outside⟩) (fun s j => ?_) (fun j => ?_)
    (fun j l h => ?_) (fun s j l _ h => ?_) (by simp [no_scan]) (.inl (by rw [heap]))
  · rw [object]
    by_cases same : j = i
    · subst same
      rw [Function.update_self]
      exact holders s
    · rw [Function.update_of_ne same]
      split_ifs with self
      · rw [self, rest j same, inv.holders]
      · rfl
  · rw [object, heap]
    by_cases same : j = i
    · subst same
      rw [Function.update_self]
      exact live
    · rw [Function.update_of_ne same]
      exact inv.alive j
  · rw [no_doom] at h
    cases h
  · rw [heap]
    exact inv.doomed s j l h

theorem Inv.stage (inv : Inv w) {i : SessionId} {l : Life} (at_pc : w.pc t = q)
    (pc : w'.pc = Function.update w.pc t p) (heap : Registries.Inv w'.heap)
    (object : w'.object = w.object) (mutex : w'.mutex = w.mutex)
    (outside : critical p = critical q) (same_held : held p = held q)
    (life : ∀ j, w'.heap.life j = if j = i then l else w.heap.life j)
    (was : SessionLifetimes.doomed q = some (i, w.heap.life i)) (unused : w.heap.life i ≠ .live)
    (doom : ∀ j l', SessionLifetimes.doomed p = some (j, l') → j = i ∧ l' = l)
    (no_scan : SessionLifetimes.scan p = [])
    (still : w'.heap.registry = w.heap.registry ∨ critical q = true) : Inv w' := by
  subst at_pc
  have alone : ∀ s l', s ≠ t → SessionLifetimes.doomed (w.pc s) ≠ some (i, l') :=
    fun s l' other h => other (inv.sole s t i _ _ h was)
  refine inv.move pc heap (.inl ⟨mutex, outside⟩) (fun s j => ?_) (fun j => ?_)
    (fun j l' h => ?_) (fun s j l' other h => ?_) (by simp [no_scan]) still
  · rw [object]
    split_ifs with same
    · rw [same, same_held, inv.holders]
    · rfl
  · rw [object, life]
    split_ifs with same
    · exact fun used => absurd (same ▸ inv.alive j used) unused
    · exact inv.alive j
  · obtain ⟨rfl, rfl⟩ := doom j l' h
    exact ⟨by rw [life, if_pos rfl], alone⟩
  · have elsewhere : j ≠ i := fun same => alone s l' other (same ▸ h)
    rw [life, if_neg elsewhere]
    exact inv.doomed s j l' h

theorem Inv.not_doomed (inv : Inv w) (early : w.heap.life i = .live ∨ w.heap.life i = .unborn)
    (t : T) (l : Life) : SessionLifetimes.doomed (w.pc t) ≠ some (i, l) := by
  intro h
  have life := inv.doomed t i l h
  rcases ended_of_doomed h with rfl | rfl <;> rcases early with early | early <;>
    rw [early] at life <;> cases life

theorem Inv.create (inv : Inv w) {a : A} [DecidableEq A] (at_pc : w.pc t = .idle)
    (unborn : w.heap.life i = .unborn) (unused : w.heap.memory a = none) :
    Inv (({ w with heap := w.heap.create i a }.edit i (.fresh t)).goto t (.making i)) := by
  have strange : ∀ s, (w.object i).holders.count s = 0 := by
    intro s
    rw [inv.holders, List.count_eq_zero]
    intro mem
    have live := inv.live_of_held mem
    rw [unborn] at live
    cases live
  refine inv.move rfl (inv_create inv.heap unborn unused) (.inl ⟨rfl, by rw [at_pc]; rfl⟩)
    (fun s j => ?_) (fun j => ?_) (fun j l h => nomatch h) (fun s j l other h => ?_)
    (List.nil_subset _) (.inl rfl)
  · change (Function.update w.object i (.fresh t) j).holders.count s = _
    by_cases same : j = i
    · subst same
      rw [Function.update_self, strange]
      by_cases self : s = t
      · simp [self, Object.fresh, held]
      · simp [self, Ne.symm self, Object.fresh]
    · rw [Function.update_of_ne same]
      split_ifs with self
      · rw [self, inv.holders, at_pc]
        simp [held, Ne.symm same]
      · rfl
  · change 0 < (Function.update w.object i (.fresh t) j).useCount → (w.heap.create i a).life j = _
    rw [Heap.create_life]
    split_ifs with same
    · exact fun _ => rfl
    · rw [Function.update_of_ne same]
      exact inv.alive j
  · change (w.heap.create i a).life j = l
    have elsewhere : j ≠ i := fun same => inv.not_doomed (.inr unborn) s l (same ▸ h)
    rw [Heap.create_life, if_neg elsewhere]
    exact inv.doomed s j l h

theorem Inv.acquire (inv : Inv w) {o : Object T} (at_pc : w.pc t = q)
    (pc : w'.pc = Function.update w.pc t p) (heap : w'.heap = w.heap)
    (object : w'.object = Function.update w.object i o) (mutex : w'.mutex = w.mutex)
    (used : 0 < (w.object i).useCount) (holders : o.holders = t :: (w.object i).holders)
    (outside : critical p = critical q) (more : held p = i :: held q)
    (no_doom : SessionLifetimes.doomed p = none) (no_scan : SessionLifetimes.scan p = []) :
    Inv w' := by
  subst at_pc
  refine inv.edit pc heap object mutex outside (fun s => ?_) (fun j other => ?_)
    (fun _ => inv.alive i used) no_doom no_scan
  · rw [holders]
    by_cases self : s = t
    · simp [self, more, inv.holders]
    · simp [self, Ne.symm self]
  · simp [more, Ne.symm other]

theorem Inv.touch (inv : Inv w) {o : Object T} (at_pc : w.pc t = q)
    (pc : w'.pc = Function.update w.pc t p) (heap : w'.heap = w.heap)
    (object : w'.object = Function.update w.object i o) (mutex : w'.mutex = w.mutex)
    (mine : i ∈ held q) (holders : o.holders = (w.object i).holders)
    (outside : critical p = critical q) (same : held p = held q)
    (no_doom : SessionLifetimes.doomed p = none) (no_scan : SessionLifetimes.scan p = []) :
    Inv w' := by
  subst at_pc
  refine inv.edit pc heap object mutex outside (fun s => ?_) (fun j _ => by rw [same])
    (fun _ => inv.live_of_held mine) no_doom no_scan
  rw [holders]
  split_ifs with self
  · rw [self, same, inv.holders]
  · rfl

theorem Inv.release (inv : Inv w) {busy : Bool} {after : After}
    (at_pc : (w.pc t).last = some (i, after)) : Inv (w.release t i busy after) := by
  obtain ⟨outside, holds, -, -⟩ := last_cases at_pc
  have mine : i ∈ held (w.pc t) := by simp [holds]
  have live := inv.live_of_held mine
  have counts : ∀ s, ((w.object i).holders.erase t).count s =
      if s = t then (heldAfter after).count i else (w.object i).holders.count s := by
    intro s
    split_ifs with self
    · simp [self, inv.holders, holds]
    · simp [self]
  have rest : ∀ j, j ≠ i → (heldAfter after).count j = (held (w.pc t)).count j :=
    fun j other => by simp [holds, Ne.symm other]
  simp only [World.release]
  split_ifs with last
  · refine inv.move rfl (inv_die inv.heap live) (.inl ⟨rfl, by rw [outside]; rfl⟩)
      (fun s j => ?_) (fun j => ?_) (fun j l h => ?_) (fun s j l other h => ?_)
      (List.nil_subset _) (.inl rfl)
    · change (Function.update w.object i _ j).holders.count s = _
      by_cases same : j = i
      · subst same
        rw [Function.update_self]
        exact counts s
      · rw [Function.update_of_ne same]
        split_ifs with self
        · rw [self, inv.holders]
          exact (rest j same).symm
        · rfl
    · change 0 < (Function.update w.object i _ j).useCount → (w.heap.die i).life j = _
      by_cases same : j = i
      · subst same
        rw [Function.update_self, last]
        exact fun none => absurd none (Nat.lt_irrefl 0)
      · rw [Function.update_of_ne same, Heap.die_life, if_neg same]
        exact inv.alive j
    · cases h
      exact ⟨by simp [World.goto], fun s l' _ => inv.not_doomed (.inl live) s l'⟩
    · change (w.heap.die i).life j = l
      have elsewhere : j ≠ i := fun same => inv.not_doomed (.inl live) s l (same ▸ h)
      rw [Heap.die_life, if_neg elsewhere]
      exact inv.doomed s j l h
  · refine inv.edit rfl rfl rfl rfl (by rw [critical_after, outside]) (fun s => ?_)
      (fun j other => ?_) (fun _ => live) (doomed_after after) (scan_after after)
    · rw [held_after]
      exact counts s
    · rw [held_after]
      exact rest j other

variable [DecidableEq A]

omit [DecidableEq A] in
theorem inv_start : Inv (start : World T A) :=
  ⟨inv_empty, fun _ => ⟨nofun, nofun⟩, fun _ _ => rfl, fun _ h => absurd h (Nat.lt_irrefl 0),
    nofun, nofun, fun _ => List.nil_subset _⟩

theorem inv_moves (inv : Inv w) (move : Moves w t w') : Inv w' := by
  cases move with
  | create at_pc unborn unused => exact inv.create at_pc unborn unused
  | run at_pc strand taken =>
    obtain ⟨used, holders⟩ := take_some taken
    exact inv.acquire at_pc rfl rfl rfl rfl used (by rw [holders]) (critical_entry _)
      (held_entry _) (doomed_entry _) (scan_entry _)
  | call caller at_pc =>
    exact inv.stay at_pc rfl inv.heap rfl rfl (.keep at_pc rfl (critical_returnTo caller).symm)
      (held_returnTo caller).symm (doomed_returnTo caller).symm (List.nil_subset _) (.inl rfl)
  | release at_pc => exact inv.release at_pc
  | joinLock at_pc free | leaveLock at_pc free =>
    exact inv.stay at_pc rfl inv.heap rfl rfl (.inr (.inl ⟨free, rfl, rfl⟩)) rfl rfl
      (List.nil_subset _) (.inl rfl)
  | joinInsert at_pc =>
    have live := inv.live_of_held (t := t) (by rw [at_pc]; exact List.mem_singleton_self _)
    exact inv.stay at_pc rfl (inv_join inv.heap live) rfl rfl (.keep at_pc rfl rfl) rfl rfl
      (List.nil_subset _) (.inr rfl)
  | joinUnlock at_pc | leaveUnlock at_pc =>
    exact inv.stay at_pc rfl inv.heap rfl rfl (.free at_pc rfl rfl rfl) rfl rfl
      (List.nil_subset _) (.inl rfl)
  | joined at_pc =>
    exact inv.touch at_pc rfl rfl rfl rfl (List.mem_singleton_self _) rfl rfl rfl rfl rfl
  | sendLock at_pc free all =>
    exact inv.stay at_pc rfl inv.heap rfl rfl (.inr (.inl ⟨free, rfl, rfl⟩)) rfl rfl all.subset
      (.inl rfl)
  | snapshot at_pc there =>
    have reads := inv.scan t
    rw [at_pc] at reads
    exact inv.stay at_pc rfl inv.heap rfl rfl (.keep at_pc rfl rfl) rfl rfl
      (fun a mem => reads (List.mem_cons_of_mem _ mem)) (.inl rfl)
  | sendUnlock at_pc =>
    exact inv.stay at_pc rfl inv.heap rfl rfl (.free at_pc rfl rfl rfl) rfl rfl
      (List.nil_subset _) (.inl rfl)
  | locked at_pc alive =>
    exact inv.acquire at_pc rfl rfl rfl rfl alive rfl rfl rfl rfl rfl
  | expired at_pc =>
    exact inv.stay at_pc rfl inv.heap rfl rfl (.keep at_pc rfl rfl) rfl rfl (List.nil_subset _)
      (.inl rfl)
  | returned at_pc =>
    refine inv.stay at_pc rfl inv.heap rfl rfl (.keep at_pc rfl (critical_returnTo _))
      (held_returnTo _) (doomed_returnTo _) ?_ (.inl rfl)
    rw [scan_returnTo]
    exact List.nil_subset _
  | post at_pc =>
    exact inv.touch at_pc rfl rfl rfl rfl (List.mem_cons_self ..) rfl rfl rfl rfl rfl
  | @leaveErase i after at_pc =>
    have dying := inv.doomed t i .dying (by rw [at_pc]; rfl)
    refine inv.stage at_pc rfl (inv_leave inv.heap dying) rfl rfl rfl rfl
      (fun j => Heap.leave_life ..) (by rw [dying]; rfl) (by rw [dying]; exact Life.noConfusion)
      (fun j l h => ?_) rfl (.inr rfl)
    cases h
    exact ⟨rfl, rfl⟩
  | @free i after at_pc =>
    have left := inv.doomed t i .left (by rw [at_pc]; rfl)
    refine inv.stage at_pc rfl (inv_free inv.heap left) rfl rfl (critical_after after)
      (held_after after) (fun j => Heap.free_life ..) (by rw [left]; rfl)
      (by rw [left]; exact Life.noConfusion) (fun j l h => ?_) (scan_after after) (.inl rfl)
    rw [doomed_after] at h
    cases h

theorem reachable_inv (h : Reachable step start w) : Inv w :=
  reachable_invariant step (fun _ _ _ inv next => inv_moves inv (step_moves next)) inv_start h

structure Safe (w : World T A) : Prop where
  /-- `sessions_` is the addresses of those that have joined and not left. -/
  exact : w.mutex = none → w.heap.registry.Nodup ∧ ∀ a, a ∈ w.heap.registry ↔
    ∃ i, w.heap.joined i = true ∧ (w.heap.life i).stays = true ∧ w.heap.addr i = some a
  /-- The pointer that `send` reads next is that of a session in memory. -/
  reads : ∀ t caller m p todo v, w.pc t = .snapshot caller m (p :: todo) v →
    ∃ i, w.heap.memory p = some i ∧ w.heap.addr i = some p ∧ (w.heap.life i).placed = true
  stranger : ∀ t i after order w', w.pc t = .leaveErase i after → w.heap.joined i = false →
    step w (t, .go order) = some w' → w'.heap.registry = w.heap.registry
  unlocked : ∀ t i after, w.pc t = .leaveLock i after → w.mutex ≠ some t

theorem Inv.leave_stranger (inv : Inv w) {after : After} (at_pc : w.pc t = .leaveErase i after)
    (stranger : w.heap.joined i = false) : (w.heap.leave i).registry = w.heap.registry := by
  have dying := inv.doomed t i .dying (by rw [at_pc]; rfl)
  cases at_i : w.heap.addr i with
  | none => simp [Heap.leave, Heap.setLife, at_i]
  | some a =>
    have absent := inv.heap.not_mem_of_stranger (by rw [dying]; rfl) stranger at_i
    simp [Heap.leave, Heap.setLife, at_i, List.erase_of_not_mem absent]

/-- While `mutex_` is free `sessions_` has exactly the sessions that have joined and not left, and
`send` reads no pointer to memory that is freed. -/
theorem sessions_never_dangle {T A : Type} [DecidableEq T] [DecidableEq A] {w : World T A}
    (h : Reachable step start w) : Safe w := by
  have inv := reachable_inv h
  refine ⟨fun _ => ⟨inv.heap.distinct, inv.heap.exact⟩, fun t caller m p todo v at_pc => ?_,
    fun t i after order w' at_pc stranger next => ?_, fun t i after at_pc locked => ?_⟩
  · have mem : p ∈ w.heap.registry := inv.scan t (by rw [at_pc]; exact List.mem_cons_self ..)
    obtain ⟨i, there, stays, at_i⟩ := inv.heap.memory_of_mem mem
    exact ⟨i, there, at_i, Life.placed_of_stays stays⟩
  · simp only [step, go, at_pc, Option.some.injEq] at next
    subst next
    exact inv.leave_stranger at_pc stranger
  · have inside := (inv.mutex t).mp locked
    rw [at_pc] at inside
    cases inside

/-- Session 0 joins at address 7 and ends, session 1 takes its place, and thread
1 is about to read it. -/
def reuse : List (Nat × Action Nat) :=
  [(0, .create 0 7), (0, .go []), (0, .run 0 (.accept true)), (0, .go []), (0, .go []),
    (0, .go []), (0, .go []), (0, .go []), (0, .run 0 (.read false)), (0, .go []), (0, .go []),
    (0, .go []), (0, .go []), (0, .go []),
    (0, .create 1 7), (0, .go []), (0, .run 1 (.accept true)), (0, .go []), (0, .go []),
    (0, .go []), (0, .go []), (1, .call), (1, .go [7])]

def reused : World Nat Nat := (drive step start reuse).getD start

theorem sessions_never_dangle_reused :
    reused.pc 1 = .snapshot none 0 [7] [] ∧ reused.heap.life 0 = .freed ∧
      reused.heap.memory 7 = some 1 ∧ Safe reused :=
  ⟨rfl, rfl, rfl, sessions_never_dangle ⟨reuse, rfl⟩⟩

end Ccfolio.SessionLifetimes
