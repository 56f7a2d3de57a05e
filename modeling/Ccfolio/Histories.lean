import Ccfolio.Pools

/-! A pool of programs with a history: every call that any thread makes is
entered with its reply, its surroundings and the world it found. What a thread
has done is its part of the history. Nothing in this file names an
application. -/

namespace Ccfolio.Histories

open Programs Traces Pools Transitions

structure Entry (ι E σ : Type) {C : Type} (R : C → Type) where
  who : ι
  scene : E
  event : Event R
  before : σ

variable {C : Type} {R : C → Type} {ι E α σ : Type}

def record (h : ι → E → Handler R σ) (i : ι) (e : E) : Handler R (σ × List (Entry ι E σ R)) :=
  fun c s =>
    let out := h i e c s.1
    (out.1, out.2, s.2 ++ [⟨i, e, ⟨c, out.1⟩, s.1⟩])

def own [DecidableEq ι] (i : ι) (log : List (Entry ι E σ R)) : List (Entry ι E σ R) :=
  log.filter (·.who = i)

/-- The thread has stopped, or its next call is one that others may see. -/
def Settled (silent : C → Bool) : Program R α → Prop
  | .ret _ => True
  | .call c _ => silent c = false

variable (silent : C → Bool) (h : ι → E → Handler R σ)

/-- Entries made in one turn of thread `i` in the surroundings `e`. -/
def Turn (i : ι) (e : E) (new : List (Entry ι E σ R)) : Prop :=
  ∀ x ∈ new, x.who = i ∧ x.scene = e ∧ x.event.2 = (h i e x.event.1 x.before).1

section Turns

variable {h} {i : ι} {e : E}

theorem turn_cons {c : C} {s : σ} {new : List (Entry ι E σ R)} (rest : Turn h i e new) :
    Turn h i e (⟨i, e, ⟨c, (h i e c s).1⟩, s⟩ :: new) := by
  intro x mem
  rcases List.mem_cons.mp mem with rfl | mem
  · exact ⟨rfl, rfl, rfl⟩
  · exact rest x mem

variable (h i e)

theorem settle_record (p : Program R α) (s : σ) (log : List (Entry ι E σ R)) :
    ∃ q s' new, settle silent (record h i e) p (s, log) = (q, s', log ++ new) ∧
      Follows p (new.map (·.event)) q ∧ Turn h i e new ∧ Settled silent q := by
  induction p generalizing s log with
  | ret a => exact ⟨.ret a, s, [], by simp [settle], .nil _, nofun, trivial⟩
  | call c next ih =>
    cases quiet : silent c with
    | false => exact ⟨.call c next, s, [], by simp [settle, quiet], .nil _, nofun, quiet⟩
    | true =>
      obtain ⟨q, s', new, made, follows, turn, settled⟩ := ih (h i e c s).1 (h i e c s).2
        (log ++ [⟨i, e, ⟨c, (h i e c s).1⟩, s⟩])
      refine ⟨q, s', ⟨i, e, ⟨c, (h i e c s).1⟩, s⟩ :: new, ?_, .cons c next _ _ q follows,
        turn_cons turn, settled⟩
      simp only [settle, quiet, if_true, record]
      rw [made, List.append_assoc, List.singleton_append]

theorem advance_record (p : Program R α) (s : σ) (log : List (Entry ι E σ R)) :
    ∃ q s' new, advance silent (record h i e) p (s, log) = (q, s', log ++ new) ∧
      Follows p (new.map (·.event)) q ∧ Turn h i e new ∧ Settled silent q ∧
      (Settled silent p → ∀ x ∈ new.head?, silent x.event.1 = false) := by
  cases p with
  | ret a => exact ⟨.ret a, s, [], by simp [advance], .nil _, nofun, trivial, fun _ => nofun⟩
  | call c next =>
    obtain ⟨q, s', new, made, follows, turn, settled⟩ := settle_record silent h i e
      (next (h i e c s).1) (h i e c s).2 (log ++ [⟨i, e, ⟨c, (h i e c s).1⟩, s⟩])
    refine ⟨q, s', ⟨i, e, ⟨c, (h i e c s).1⟩, s⟩ :: new, ?_, .cons c next _ _ q follows,
      turn_cons turn, settled, fun settled x first => ?_⟩
    · simp only [advance, record]
      rw [made, List.append_assoc, List.singleton_append]
    · cases first
      exact settled

theorem settle_unrecorded (p : Program R α) (w : σ × List (Entry ι E σ R)) :
    (settle silent (record h i e) p w).1 = (settle silent (h i e) p w.1).1 ∧
      (settle silent (record h i e) p w).2.1 = (settle silent (h i e) p w.1).2 := by
  induction p generalizing w with
  | ret a => exact ⟨rfl, rfl⟩
  | call c next ih =>
    simp only [settle]
    split_ifs
    · exact ih _ _
    · exact ⟨rfl, rfl⟩

theorem advance_unrecorded (p : Program R α) (w : σ × List (Entry ι E σ R)) :
    (advance silent (record h i e) p w).1 = (advance silent (h i e) p w.1).1 ∧
      (advance silent (record h i e) p w).2.1 = (advance silent (h i e) p w.1).2 := by
  cases p with
  | ret a => exact ⟨rfl, rfl⟩
  | call c next => exact settle_unrecorded silent h i e _ _

end Turns

variable [DecidableEq ι]

section Own

variable {h} {i j : ι} {e : E} {log new : List (Entry ι E σ R)}

theorem own_append : own i (log ++ new) = own i log ++ own i new := List.filter_append ..

theorem own_turn (turn : Turn h i e new) : own i new = new :=
  List.filter_eq_self.mpr fun x mem => decide_eq_true (turn x mem).1

theorem own_turn_of_ne (turn : Turn h i e new) (other : j ≠ i) : own j new = [] :=
  List.filter_eq_nil_iff.mpr fun x mem => by
    simpa [(turn x mem).1] using Ne.symm other

theorem own_snoc {pre : List (Entry ι E σ R)} {y : Entry ι E σ R} (mine : own i log = pre ++ [y]) :
    ∃ before after, log = before ++ y :: after ∧ y.who = i ∧ own i before = pre ∧
      own i after = [] := by
  obtain ⟨first, last, rfl, first_eq, last_eq⟩ := List.filter_eq_append_iff.mp mine
  obtain ⟨mid, after, rfl, quiet, who, after_eq⟩ := List.filter_eq_cons_iff.mp last_eq
  refine ⟨first ++ mid, after, by simp, of_decide_eq_true who, ?_, after_eq⟩
  rw [own_append, show own i first = pre from first_eq,
    show own i mid = [] from List.filter_eq_nil_iff.mpr quiet, List.append_nil]

end Own

theorem split_append {β : Type} {old new first last : List β} {x : β}
    (eq : old ++ new = first ++ x :: last) :
    (∃ mid, first = old ++ mid ∧ new = mid ++ x :: last) ∨ ∃ mid, old = first ++ x :: mid := by
  rcases List.append_eq_append_iff.mp eq with ⟨mid, first_eq, new_eq⟩ | ⟨mid, old_eq, tail⟩
  · exact .inl ⟨mid, first_eq, new_eq⟩
  · cases mid with
    | nil => exact .inl ⟨[], by simp [old_eq], tail.symm⟩
    | cons z mid =>
      obtain ⟨rfl, -⟩ := List.cons.inj tail
      exact .inr ⟨mid, old_eq⟩

structure Kept (start : ι → Program R α) (p : Pool ι R α (σ × List (Entry ι E σ R))) : Prop where
  follows : ∀ i, Follows (start i) ((own i p.world.2).map (·.event)) (p.threads i)
  faithful : ∀ x ∈ p.world.2, x.event.2 = (h x.who x.scene x.event.1 x.before).1
  settled : ∀ i, own i p.world.2 = [] ∨ Settled silent (p.threads i)
  /-- A silent call comes right after another call of its thread, in the same
  surroundings, unless it is the first. -/
  adjacent : ∀ first x last, p.world.2 = first ++ x :: last → silent x.event.1 = true →
    own x.who first = [] ∨ ∃ first' y, first = first' ++ [y] ∧ y.who = x.who ∧ y.scene = x.scene

variable {silent h} {start : ι → Program R α} {p : Pool ι R α (σ × List (Entry ι E σ R))}

theorem kept_start (s : σ) : Kept silent h start ⟨(s, []), start⟩ :=
  ⟨fun _ => .nil _, nofun, fun _ => .inl rfl, fun first x last eq => by simp at eq⟩

theorem Kept.step (kept : Kept silent h start p) (who : ι × E) :
    Kept silent h start (Pools.turn silent (record h) p who) := by
  obtain ⟨i, e⟩ := who
  obtain ⟨q, s, new, made, follows, turned, settled, head⟩ :=
    advance_record silent h i e (p.threads i) p.world.1 p.world.2
  have world : (Pools.turn silent (record h) p (i, e)).world = (s, p.world.2 ++ new) := by
    rw [turn_world, made]
  have mine : (Pools.turn silent (record h) p (i, e)).threads i = q := by
    rw [turn_threads_self silent (record h) p (i, e), made]
  have others : ∀ {j}, j ≠ i → (Pools.turn silent (record h) p (i, e)).threads j = p.threads j :=
    fun other => turn_threads_of_ne silent (record h) p (i, e) other
  refine ⟨fun j => ?_, fun x mem => ?_, fun j => ?_, fun first x last eq quiet => ?_⟩
  · rw [world, own_append, List.map_append]
    by_cases self : j = i
    · rw [self, mine, own_turn turned]
      exact (kept.follows i).trans follows
    · rw [others self, own_turn_of_ne turned self, List.map_nil, List.append_nil]
      exact kept.follows j
  · rw [world] at mem
    rcases List.mem_append.mp mem with old | mem
    · exact kept.faithful x old
    · obtain ⟨rfl, rfl, reply⟩ := turned x mem
      exact reply
  · rw [world, own_append]
    by_cases self : j = i
    · rw [self, mine]
      exact .inr settled
    · rw [others self, own_turn_of_ne turned self, List.append_nil]
      exact kept.settled j
  · rw [world] at eq
    rcases split_append eq with ⟨mid, rfl, new_eq⟩ | ⟨mid, log_eq⟩
    · have mem : x ∈ new := new_eq ▸ List.mem_append_right _ (List.mem_cons_self ..)
      obtain ⟨rfl, at_e, -⟩ := turned x mem
      rcases List.eq_nil_or_concat mid with rfl | ⟨mid, y, rfl⟩
      · refine .inl ?_
        rw [List.append_nil]
        refine (kept.settled x.who).resolve_right fun outside => ?_
        have loud := head outside x (by rw [new_eq]; rfl)
        rw [quiet] at loud
        cases loud
      · have mem_y : y ∈ new := by
          rw [new_eq]
          simp
        obtain ⟨who_y, at_y, -⟩ := turned y mem_y
        exact .inr ⟨p.world.2 ++ mid, y, by simp, who_y, at_y.trans at_e.symm⟩
    · exact kept.adjacent first x mid log_eq quiet

theorem kept_run (s : σ) (schedule : List (ι × E)) :
    Kept silent h start (runPool silent (record h) ⟨(s, []), start⟩ schedule) :=
  foldl_invariant (Pools.turn silent (record h)) (fun _ who kept => kept.step who) _ schedule
    (kept_start s)

theorem run_ordered {r : E → E → Prop} (refl : ∀ e, r e e) {schedule : List (ι × E)}
    (ordered : schedule.Pairwise fun a b => r a.2 b.2)
    {p : Pool ι R α (σ × List (Entry ι E σ R))}
    (before : p.world.2.Pairwise fun x y => r x.scene y.scene)
    (apart : ∀ x ∈ p.world.2, ∀ w ∈ schedule, r x.scene w.2) :
    (runPool silent (record h) p schedule).world.2.Pairwise fun x y => r x.scene y.scene := by
  induction schedule generalizing p with
  | nil => exact before
  | cons who schedule ih =>
    obtain ⟨i, e⟩ := who
    obtain ⟨first, rest⟩ := List.pairwise_cons.mp ordered
    obtain ⟨q, s, new, made, -, turned, -⟩ :=
      advance_record silent h i e (p.threads i) p.world.1 p.world.2
    have log : (Pools.turn silent (record h) p (i, e)).world.2 = p.world.2 ++ new := by
      rw [turn_world, made]
    refine ih rest ?_ fun x mem w later => ?_
    · rw [log, List.pairwise_append]
      refine ⟨before, List.pairwise_of_forall_mem_list fun x mem_x y mem_y => ?_,
        fun x mem_x y mem_y => ?_⟩
      · rw [(turned x mem_x).2.1, (turned y mem_y).2.1]
        exact refl e
      · rw [(turned y mem_y).2.1]
        exact apart x mem_x (i, e) (List.mem_cons_self ..)
    · rw [log] at mem
      rcases List.mem_append.mp mem with old | mem
      · exact apart x old w (List.mem_cons_of_mem _ later)
      · rw [(turned x mem).2.1]
        exact first w later

section Worlds

omit [DecidableEq ι]

variable (h)

/-- Each entry was made in the world that the one before it left. -/
def Linked : σ → List (Entry ι E σ R) → σ → Prop
  | s, [], s' => s = s'
  | s, x :: log, s' => x.before = s ∧ Linked (h x.who x.scene x.event.1 x.before).2 log s'

variable {h} {s s' s'' : σ} {log log' : List (Entry ι E σ R)}

theorem linked_append :
    Linked h s (log ++ log') s'' ↔ ∃ s', Linked h s log s' ∧ Linked h s' log' s'' := by
  induction log generalizing s with
  | nil => exact ⟨fun rest => ⟨s, rfl, rest⟩, fun ⟨s', eq, rest⟩ => eq ▸ rest⟩
  | cons x log ih =>
    simp only [List.cons_append, Linked, ih]
    exact ⟨fun ⟨first, s', mid, rest⟩ => ⟨s', ⟨first, mid⟩, rest⟩,
      fun ⟨s', ⟨first, mid⟩, rest⟩ => ⟨first, s', mid, rest⟩⟩

theorem Linked.related {r : σ → σ → Prop} (refl : ∀ s, r s s)
    (trans : ∀ s s' s'', r s s' → r s' s'' → r s s'') (keep : ∀ i e c s, r s (h i e c s).2)
    (linked : Linked h s log s') : r s s' := by
  induction log generalizing s with
  | nil => exact linked ▸ refl s
  | cons x log ih =>
    obtain ⟨rfl, rest⟩ := linked
    exact trans _ _ _ (keep x.who x.scene x.event.1 x.before) (ih rest)

theorem Linked.pairwise {r : σ → σ → Prop} (refl : ∀ s, r s s)
    (trans : ∀ s s' s'', r s s' → r s' s'' → r s s'') (keep : ∀ i e c s, r s (h i e c s).2)
    (linked : Linked h s log s') :
    log.Pairwise fun x y => r (h x.who x.scene x.event.1 x.before).2 y.before := by
  induction log generalizing s with
  | nil => exact List.Pairwise.nil
  | cons x log ih =>
    obtain ⟨rfl, rest⟩ := linked
    refine List.pairwise_cons.mpr ⟨fun y mem => ?_, ih rest⟩
    obtain ⟨first, last, rfl⟩ := List.append_of_mem mem
    obtain ⟨mid, upto, rfl, -⟩ := linked_append.mp rest
    exact upto.related refl trans keep

theorem scenes_run [DecidableEq ι] (schedule : List (ι × E))
    (p : Pool ι R α (σ × List (Entry ι E σ R))) :
    ∀ x ∈ (runPool silent (record h) p schedule).world.2,
      x ∈ p.world.2 ∨ (x.who, x.scene) ∈ schedule := by
  induction schedule generalizing p with
  | nil => exact fun x mem => .inl mem
  | cons who schedule ih =>
    obtain ⟨i, e⟩ := who
    obtain ⟨q, s, new, made, -, turned, -⟩ :=
      advance_record silent h i e (p.threads i) p.world.1 p.world.2
    intro x mem
    rcases ih (Pools.turn silent (record h) p (i, e)) x mem with old | later
    · rw [turn_world, made] at old
      rcases List.mem_append.mp old with old | now
      · exact .inl old
      · obtain ⟨rfl, rfl, -⟩ := turned x now
        exact .inr (List.mem_cons_self ..)
    · exact .inr (List.mem_cons_of_mem _ later)

theorem history_grows [DecidableEq ι] (p : Pool ι R α (σ × List (Entry ι E σ R)))
    (before after : List (ι × E)) :
    (runPool silent (record h) p before).world.2 <+:
      (runPool silent (record h) p (before ++ after)).world.2 := by
  unfold runPool
  rw [List.foldl_append]
  exact runPool_invariant (I := fun w : σ × List (Entry ι E σ R) => _ <+: w.2)
    (fun _ _ _ _ grown => grown.trans (List.prefix_append ..)) List.prefix_rfl after

theorem linked_run [DecidableEq ι] (s : σ) (schedule : List (ι × E)) :
    Linked h s (runPool silent (record h) ⟨(s, []), start⟩ schedule).world.2
      (runPool silent (record h) ⟨(s, []), start⟩ schedule).world.1 := by
  refine runPool_invariant (I := fun w : σ × List (Entry ι E σ R) => Linked h s w.2 w.1)
    (fun i e c w linked => ?_) (p := ⟨(s, []), start⟩) rfl schedule
  exact linked_append.mpr ⟨w.1, linked, rfl, rfl⟩

end Worlds

end Ccfolio.Histories
