import Ccfolio.Delivery
import Ccfolio.Draining

/-! `mutex_` never locks a thread out for good: the threads that are in `join`,
`leave` or `send`, or in a handler, come to the end of it, in whatever order
they take their steps, and then every call of `send` has returned. -/

namespace Ccfolio.SendProgress

open Broadcasts Registries SessionLifetimes SharedState Delivery Transitions Draining

variable {T A : Type}

def Going (a : T × Action A) : Prop := ∃ order, a.2 = .go order

/-- What is left of a delivery: a session takes a lock, a post and a release,
and the release may run a destructor. -/
def afterEffort : After → Nat
  | .idle => 0
  | .deliver _ _ v => 6 + 7 * v.length

/-- How many steps a thread has still to take, with `size` addresses in
`sessions_`. Those that wait to take a snapshot are charged to the joins. -/
def pcEffort (threads size : Nat) : Pc A → Nat
  | .idle => 0
  | .making _ | .handler _ => 5
  | .joined _ => 6
  | .joinUnlock _ => 7
  | .joinInsert _ => 8 + 8 * threads
  | .joinLock _ => 9 + 8 * threads
  | .sendLock _ _ => 8 + 8 * size
  | .snapshot _ _ todo v => 7 + 8 * todo.length + 7 * v.length
  | .deliver _ _ v => 6 + 7 * v.length
  | .posted _ _ _ v => 11 + 7 * v.length
  | .holding _ _ _ v => 12 + 7 * v.length
  | .free _ after => 1 + afterEffort after
  | .leaveUnlock _ after => 2 + afterEffort after
  | .leaveErase _ after => 3 + afterEffort after
  | .leaveLock _ after => 4 + afterEffort after

@[simp] theorem effort_after (threads size : Nat) (after : After) :
    pcEffort threads size (after.pc : Pc A) = afterEffort after := by cases after <;> rfl

theorem effort_returnTo (threads size : Nat) (caller : Option SessionId) :
    pcEffort threads size (returnTo caller : Pc A) ≤ 5 := by
  cases caller with
  | none => exact Nat.zero_le _
  | some i => exact Nat.le_refl 5

theorem effort_grown {threads size size' d : Nat} (grown : size' ≤ size + d) (p : Pc A) :
    pcEffort threads size' p ≤ pcEffort threads size p + 8 * d := by
  cases p with
  | sendLock => simp only [pcEffort]; omega
  | _ => simp only [pcEffort]; omega

section Effort

variable [DecidableEq T] [Fintype T]

def effort (w : World T A) : Nat :=
  ∑ t, pcEffort (Fintype.card T) w.heap.registry.length (w.pc t)

variable {w w' : World T A} {t : T} {p : Pc A}

theorem effort_goto {d : Nat} (pc : w'.pc = Function.update w.pc t p)
    (grown : w'.heap.registry.length ≤ w.heap.registry.length + d) :
    effort w' + pcEffort (Fintype.card T) w.heap.registry.length (w.pc t) + 8 * d ≤
      effort w + pcEffort (Fintype.card T) w'.heap.registry.length p +
        8 * d * Fintype.card T := by
  have moved := sum_moved (t := t) (d := 8 * d)
    (f := fun s => pcEffort (Fintype.card T) w.heap.registry.length (w.pc s))
    (g := fun s => pcEffort (Fintype.card T) w'.heap.registry.length (w'.pc s))
    fun s other => by
      rw [pc, Function.update_of_ne other]
      exact effort_grown grown _
  simp only [pc, Function.update_self] at moved
  unfold effort
  rw [pc]
  exact moved

theorem effort_less {q : Pc A} (at_pc : w.pc t = q) (pc : w'.pc = Function.update w.pc t p)
    (kept : w'.heap.registry.length ≤ w.heap.registry.length)
    (less : pcEffort (Fintype.card T) w'.heap.registry.length p <
      pcEffort (Fintype.card T) w.heap.registry.length q) : effort w' < effort w := by
  have bound := effort_goto (d := 0) pc kept
  rw [at_pc] at bound
  omega

variable [DecidableEq A]

omit [DecidableEq T] [Fintype T] in
theorem length_join (h : Heap SessionId A) (i : SessionId) :
    (h.join i).registry.length ≤ h.registry.length + 1 := by
  unfold Heap.join
  cases h.addr i with
  | none => simp
  | some a =>
    simp only [Option.elim, List.length_insert]
    split_ifs <;> omega

omit [DecidableEq T] [Fintype T] in
theorem length_leave (h : Heap SessionId A) (i : SessionId) :
    (h.leave i).registry.length ≤ h.registry.length := by
  unfold Heap.leave
  cases h.addr i with
  | none => exact Nat.le_refl _
  | some a => exact List.length_erase_le

omit [DecidableEq A] in
theorem effort_release {q : Pc A} (at_pc : w.pc t = q) {i : SessionId} {busy : Bool}
    {after : After} (less : 4 + afterEffort after <
      pcEffort (Fintype.card T) w.heap.registry.length q) :
    effort (w.release t i busy after) < effort w := by
  simp only [World.release]
  split_ifs with last
  · exact effort_less (p := .leaveLock i after) at_pc rfl (Nat.le_refl _) less
  · refine effort_less (p := after.pc) at_pc rfl (Nat.le_refl _) ?_
    rw [effort_after]
    omega

theorem effort_go {order : List A} (next : go w t order = some w') : effort w' < effort w := by
  unfold go at next
  cases at_pc : w.pc t with
  | idle => simp [at_pc] at next
  | making i | handler i | posted caller m i v =>
    simp only [at_pc, Option.some.injEq] at next
    rw [← next]
    exact effort_release at_pc (by simp only [pcEffort, afterEffort]; omega)
  | joinLock i | leaveLock i after =>
    simp only [at_pc] at next
    split_ifs at next
    cases next
    exact effort_less at_pc rfl (Nat.le_refl _) (by simp only [pcEffort]; omega)
  | joinInsert i =>
    simp only [at_pc] at next
    cases next
    have bound : effort ({ w with heap := w.heap.join i }.goto t (.joinUnlock i)) + _ + _ ≤
        effort w + _ + _ := effort_goto (d := 1) rfl (length_join w.heap i)
    rw [at_pc] at bound
    simp only [pcEffort] at bound
    omega
  | joinUnlock i | joined i | holding caller m i v | leaveUnlock i after =>
    simp only [at_pc] at next
    cases next
    exact effort_less at_pc rfl (Nat.le_refl _) (by simp only [pcEffort]; omega)
  | sendLock caller m =>
    simp only [at_pc] at next
    split_ifs at next with free
    cases next
    refine effort_less at_pc rfl (Nat.le_refl _) ?_
    simp only [pcEffort, free.2.length_eq, List.length_nil]
    omega
  | snapshot caller m todo v =>
    cases todo with
    | nil =>
      simp only [at_pc] at next
      cases next
      refine effort_less at_pc rfl (Nat.le_refl _) ?_
      simp only [pcEffort, List.length_nil]
      omega
    | cons p todo =>
      simp only [at_pc] at next
      split at next
      · cases next
        refine effort_less at_pc rfl (Nat.le_refl _) ?_
        simp only [pcEffort, List.length_append, List.length_cons, List.length_nil]
        omega
      · cases next
  | deliver caller m v =>
    cases v with
    | nil =>
      simp only [at_pc] at next
      cases next
      exact effort_less at_pc rfl (Nat.le_refl _)
        (Nat.lt_of_le_of_lt (effort_returnTo ..) (Nat.lt_succ_self 5))
    | cons i v =>
      simp only [at_pc] at next
      split_ifs at next
      · cases next
        refine effort_less at_pc rfl (Nat.le_refl _) ?_
        simp only [pcEffort, List.length_cons]
        omega
      · cases next
        refine effort_less at_pc rfl (Nat.le_refl _) ?_
        simp only [pcEffort, List.length_cons]
        omega
  | leaveErase i after =>
    simp only [at_pc] at next
    cases next
    exact effort_less at_pc rfl (length_leave w.heap i) (by simp only [pcEffort]; omega)
  | free i after =>
    simp only [at_pc] at next
    cases next
    refine effort_less at_pc rfl (Nat.le_refl _) ?_
    rw [effort_after]
    simp only [pcEffort]
    omega

end Effort

section Calls

variable {ι : Type} [DecidableEq T] [DecidableEq ι] {s s' : State T ι} {t : T}

/-- A call that has begun has returned, or a thread is in it. -/
def Carried (s : State T ι) : Prop :=
  ∀ m < s.begun, (s.calls m).returned = true ∨ ∃ t p, s.stage t = some (m, p)

omit [DecidableEq ι] in
theorem Carried.put (h : Carried s) {m : Nat} {c : Call ι} {q : Option (Nat × Broadcasts.Stage ι)}
    (begun : s'.begun = s.begun) (calls : s'.calls = Function.update s.calls m c)
    (stage : s'.stage = Function.update s.stage t q)
    (mine : ∀ k p, s.stage t = some (k, p) → k = m)
    (on : c.returned = true ∨ ∃ p, q = some (m, p)) : Carried s' := by
  intro k below
  rw [begun] at below
  by_cases same : k = m
  · rw [same, calls, stage, Function.update_self]
    exact on.imp_right fun ⟨p, at_q⟩ => ⟨t, p, by rw [Function.update_self]; exact at_q⟩
  · rw [calls, Function.update_of_ne same]
    refine (h k below).imp_right fun ⟨u, p, at_stage⟩ => ⟨u, p, ?_⟩
    have other : u ≠ t := fun eq => same (mine k p (eq ▸ at_stage))
    rw [stage, Function.update_of_ne other]
    exact at_stage

theorem carried_step (h : Carried s) (step : Broadcasts.Step s t s') : Carried s' := by
  have mine : ∀ {m p}, s.stage t = some (m, p) → ∀ k p', s.stage t = some (k, p') → k = m :=
    fun at_m k p' at_k => by
      rw [at_m] at at_k
      cases at_k
      rfl
  cases step with
  | begin outside =>
    intro k below
    change k < s.begun + 1 at below
    change (Function.update s.calls s.begun _ k).returned = true ∨
      ∃ u p, Function.update s.stage t _ u = some (k, p)
    by_cases new : k = s.begun
    · exact .inr ⟨t, .waiting, by rw [Function.update_self, new]⟩
    · rw [Function.update_of_ne new]
      refine (h k (by omega)).imp_right fun ⟨u, p, at_stage⟩ => ⟨u, p, ?_⟩
      have other : u ≠ t := fun eq => by
        rw [eq, outside] at at_stage
        cases at_stage
      rw [Function.update_of_ne other]
      exact at_stage
  | snapshot at_stage | there at_stage | gone at_stage =>
    exact h.put rfl rfl rfl (mine at_stage) (.inr ⟨_, rfl⟩)
  | post at_stage => exact h.put rfl rfl rfl (mine at_stage) (.inr ⟨_, rfl⟩)
  | finish at_stage => exact h.put rfl rfl rfl (mine at_stage) (.inl rfl)

theorem begun_step (step : Broadcasts.Step s t s') : s.begun ≤ s'.begun := by
  cases step with
  | begin => exact Nat.le_succ _
  | _ => exact Nat.le_refl _

end Calls

section Rest

variable [DecidableEq T] [DecidableEq A] {w w' : World T A} {t : T}

structure Sound (w : World T A) : Prop where
  inv : SessionLifetimes.Inv w
  wired : Wired w
  calls : Broadcasts.Inv (view w)
  carried : Carried (view w)

theorem sound_step (h : Sound w) {a : T × Action A} (next : step w a = some w') : Sound w' := by
  have move := step_moves next
  have wired := moves_wired h.inv h.wired move
  rcases moves_view h.inv h.wired move with same | taken
  · exact ⟨inv_moves h.inv move, wired, same ▸ h.calls, same ▸ h.carried⟩
  · exact ⟨inv_moves h.inv move, wired, Broadcasts.inv_step h.calls taken,
      carried_step h.carried taken⟩

theorem sound_reached (reached : Reachable step start w) : Sound w :=
  reachable_invariant step (fun _ _ _ h next => sound_step h next)
    ⟨SessionLifetimes.inv_start, wired_start, view_start, nofun⟩ reached

theorem go_inside (inv : SessionLifetimes.Inv w)
    (inside : critical (w.pc t) = true) (order : List A) : ∃ w', go w t order = some w' := by
  unfold go
  cases at_pc : w.pc t with
  | joinInsert | joinUnlock | leaveErase | leaveUnlock => exact ⟨_, rfl⟩
  | snapshot caller m todo v =>
    cases todo with
    | nil => exact ⟨_, rfl⟩
    | cons p todo =>
      have reads := inv.scan t
      rw [at_pc] at reads
      obtain ⟨i, there, -⟩ := inv.heap.memory_of_mem (reads (List.mem_cons_self ..))
      exact ⟨w.goto t (.snapshot caller m todo (v ++ [i])), by simp only [there]⟩
  | _ =>
    rw [at_pc] at inside
    cases inside

theorem go_free (free : w.mutex = none) (inv : SessionLifetimes.Inv w) (busy : w.pc t ≠ .idle) :
    ∃ w', go w t w.heap.registry = some w' := by
  by_cases inside : critical (w.pc t) = true
  · exact go_inside inv inside _
  · unfold go
    cases at_pc : w.pc t with
    | idle => exact absurd at_pc busy
    | joinLock | leaveLock => exact ⟨_, if_pos free⟩
    | sendLock => exact ⟨_, if_pos ⟨free, .refl _⟩⟩
    | deliver caller m v =>
      cases v with
      | nil => exact ⟨_, rfl⟩
      | cons i v =>
        simp only
        split_ifs <;> exact ⟨_, rfl⟩
    | snapshot | joinInsert | joinUnlock | leaveErase | leaveUnlock =>
      rw [at_pc] at inside
      exact absurd rfl inside
    | _ => exact ⟨_, rfl⟩

theorem step_go (order : List A) : step w (t, .go order) = go w t order := by
  unfold step
  cases w.pc t <;> rfl

theorem idle_of_stuck (inv : SessionLifetimes.Inv w) (stuck : ∀ a, Going a → step w a = none) :
    w.mutex = none ∧ ∀ t, w.pc t = .idle := by
  have none : ∀ t order, go w t order = none := fun t order => by
    rw [← step_go]
    exact stuck (t, .go order) ⟨order, rfl⟩
  have free : w.mutex = .none := by
    by_contra taken
    obtain ⟨t, holder⟩ := Option.ne_none_iff_exists'.mp taken
    obtain ⟨w', next⟩ := go_inside inv ((inv.mutex t).mp holder) []
    rw [none] at next
    cases next
  refine ⟨free, fun t => ?_⟩
  by_contra busy
  obtain ⟨w', next⟩ := go_free free inv busy
  rw [none] at next
  cases next

theorem begun_le {a : T × Action A} (h : Sound w) (next : step w a = some w') :
    w.begun ≤ w'.begun := by
  rcases moves_view h.inv h.wired (step_moves next) with same | taken
  · exact Nat.le_of_eq (congrArg State.begun same).symm
  · exact begun_step taken

end Rest

/-- `mutex_` does not deadlock: every call of `send` returns, with each of its members that was
alive told once. -/
theorem sends_return {T A : Type} [DecidableEq T] [Fintype T] [DecidableEq A] {w : World T A}
    (reached : Reachable step start w) :
    Drains step Going w fun w' => w'.mutex = none ∧ (∀ t, w'.pc t = .idle) ∧
      ∀ m < w.begun, (w'.calls m).returned = true ∧
        (w'.calls m).checked.map Prod.fst = (w'.calls m).members ∧
        ∀ i, (w'.object i).writer.sent.count m =
          if (i, true) ∈ (w'.calls m).checked then 1 else 0 := by
  refine drains_of_rank (I := fun w' => Sound w' ∧ w.begun ≤ w'.begun) (r := effort)
    (fun w₁ a w₂ ⟨sound, more⟩ going next => ?_) (fun w' ⟨sound, more⟩ stuck => ?_)
    ⟨sound_reached reached, Nat.le_refl _⟩
  · refine ⟨⟨sound_step sound next, more.trans (begun_le sound next)⟩, ?_⟩
    obtain ⟨t, action⟩ := a
    obtain ⟨order, rfl⟩ := going
    rw [step_go] at next
    exact effort_go next
  · obtain ⟨free, idle⟩ := idle_of_stuck sound.inv stuck
    refine ⟨free, idle, fun m below => ?_⟩
    have returned : (w'.calls m).returned = true := by
      refine (sound.carried m (Nat.lt_of_lt_of_le below more)).resolve_right ?_
      rintro ⟨t, p, at_stage⟩
      simp [view, idle t, stage] at at_stage
    exact ⟨returned, (sound.calls.done m returned).1, sound.calls.count returned⟩

/-- The first call holds the mutex, the second waits for it. -/
def contended : List (Bool × Action Nat) :=
  [(false, .create 0 7), (false, .go []), (false, .run 0 (.accept true)), (false, .go []),
    (false, .go []), (false, .go []), (false, .go []), (false, .go []),
    (false, .call), (true, .call), (false, .go [7])]

def amidContended : World Bool Nat := (drive step start contended).getD start

theorem sends_return_contended :
    amidContended.mutex = some false ∧ amidContended.pc true = .sendLock none 1 ∧
      Drains step Going amidContended fun w' => w'.mutex = none ∧ (∀ t, w'.pc t = .idle) ∧
        ∀ m < 2, (w'.calls m).returned = true ∧
          (w'.calls m).checked.map Prod.fst = (w'.calls m).members ∧
          ∀ i, (w'.object i).writer.sent.count m =
            if (i, true) ∈ (w'.calls m).checked then 1 else 0 :=
  ⟨rfl, rfl, sends_return ⟨contended, rfl⟩⟩

section Strand

variable {α : Type}

def Delivering : WebSocketSession.Event α → Prop
  | .runPosted | .written true => True
  | _ => False

def backlog (s : WebSocketSession.Session α) : Nat := 2 * s.posted.length + s.queue.length

open WebSocketSession in
theorem backlog_step {s s' : Session α} (stage : Stage s) (whole : s.failed = false)
    {e : Event α} (delivering : Delivering e) (next : WebSocketSession.step s e = some s') :
    s'.failed = false ∧ backlog s' < backlog s := by
  cases stage with
  | broken => cases whole
  | idle posted sent completed order =>
    cases e with
    | send => exact delivering.elim
    | written => cases next
    | runPosted =>
      cases posted with
      | nil => cases next
      | cons m rest =>
        cases next
        refine ⟨rfl, ?_⟩
        change 2 * rest.length + 1 < 2 * (rest.length + 1) + 0
        omega
  | writing m rest posted sent completed order =>
    cases e with
    | send => exact delivering.elim
    | runPosted =>
      cases posted with
      | nil => cases next
      | cons m' later =>
        simp only [WebSocketSession.step, onSend_queued, Option.some.injEq] at next
        subst next
        refine ⟨rfl, ?_⟩
        simp only [backlog, List.length_cons, List.length_append, List.length_nil]
        omega
    | written ok =>
      cases ok with
      | false => exact delivering.elim
      | true =>
        cases rest with
        | nil =>
          cases next
          exact ⟨rfl, Nat.lt_succ_self _⟩
        | cons m' rest =>
          cases next
          exact ⟨rfl, Nat.lt_succ_self _⟩

end Strand

open WebSocketSession in
/-- Every message passed to `send` is written, unless a write fails. -/
theorem messages_written {α : Type} {s : Session α}
    (reached : Reachable WebSocketSession.step Session.start s) (whole : s.failed = false) :
    Drains WebSocketSession.step Delivering s fun s' =>
      s'.completed = s.sent ∧ s'.queue = [] ∧ s'.outstanding = [] ∧ s'.posted = [] := by
  refine drains_of_rank (I := fun s' => Stage s' ∧ s'.failed = false ∧ s'.sent = s.sent)
    (r := backlog) (fun s₁ e s₂ ⟨stage, whole, same⟩ delivering next => ?_)
    (fun s' ⟨stage, whole, same⟩ stuck => ?_) ⟨stage_reachable reached, whole, rfl⟩
  · obtain ⟨still, less⟩ := backlog_step stage whole delivering next
    have sent : s₂.sent = s₁.sent := sent_step next fun m eq => by
      rw [eq] at delivering
      exact delivering.elim
    exact ⟨⟨stage_step stage next, still, sent.trans same⟩, less⟩
  · rw [← same]
    cases stage with
    | broken => cases whole
    | idle posted sent completed order =>
      cases posted with
      | nil => exact ⟨by simpa using order, rfl, rfl, rfl⟩
      | cons m rest => cases stuck .runPosted trivial
    | writing m rest posted sent completed order => cases stuck (.written true) trivial

open WebSocketSession in
theorem messages_written_three :
    Drains WebSocketSession.step Delivering (⟨[3], [1, 2], [1], [1, 2, 3], [1], [], false⟩ : Session Nat)
      fun s' => s'.completed = [1, 2, 3] ∧ s'.queue = [] ∧ s'.outstanding = [] ∧ s'.posted = [] :=
  messages_written ⟨[.send 1, .send 2, .send 3, .runPosted, .runPosted], by decide⟩ rfl

end Ccfolio.SendProgress
