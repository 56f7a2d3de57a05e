import Ccfolio.Draining
import Ccfolio.LogShutdown

/-! No entry is left in the queue: the worker does not fall asleep over one, and
the steps of the callers under way and of the worker come to an end with
everything written. -/

namespace Ccfolio.LogProgress

open Transitions Draining Mutexes LogWorker LogOrder LogShutdown

variable {ι β : Type}

def tells : Caller β → Bool
  | .unlock | .notify => true
  | _ => false

/-- While the worker sleeps, an entry in the queue has a caller who will wake it. -/
structure Tended (s : Service ι β) : Prop where
  sleep : s.worker = .sleep → s.messageQueue = []
  asleep : s.worker = .asleep → s.messageQueue ≠ [] → ∃ i, tells (s.caller i) = true

def Work : Turn ι β → Prop
  | .caller _ | .worker => True
  | _ => False

def callerEffort : Caller β → Nat
  | .idle => 0
  | .lock _ => 17
  | .push _ => 16
  | .unlock => 5
  | .notify => 4

/-- How many steps the worker may still take with nothing queued; what is queued
takes it once more around its loop. -/
def workerEffort (filled : Bool) : Worker β → Nat
  | .testQueue | .returned => 0
  | .asleep => if filled then 6 else 0
  | .sleep => if filled then 7 else 1
  | .predicate => if filled then 8 else 2
  | .lock | .woken => if filled then 9 else 3
  | .testRunning => if filled then 10 else 4
  | .release => if filled then 11 else 5
  | .drain => 6
  | .relock => 7
  | .write _ => 8
  | .unlock _ => 9

def effort [Fintype ι] (s : Service ι β) : Nat :=
  ∑ i, callerEffort (s.caller i) + workerEffort (!s.messageQueue.isEmpty) s.worker +
    4 * s.messageQueue.length

section Points

variable {s : Service ι β} {p p' : Worker β}

theorem hear_sleep : p.hear = .sleep ↔ p = .sleep := by cases p <;> simp [Worker.hear]

theorem hear_asleep : p.hear ≠ .asleep := by cases p <;> simp [Worker.hear]

theorem empty_of_sleep (turns : Turns s p .sleep) : s.messageQueue = [] := by
  cases turns with
  | wait _ empty => exact empty

theorem effort_hear (filled : Bool) : workerEffort filled p.hear ≤ workerEffort filled p + 3 := by
  cases p <;> cases filled <;> simp [Worker.hear, workerEffort]

theorem effort_filled (filled : Bool) : workerEffort true p ≤ workerEffort filled p + 6 := by
  cases p <;> cases filled <;> simp [workerEffort]

theorem effort_turns (turns : Turns s p p') (up : s.running = true) (early : leaving p = false) :
    workerEffort (!s.messageQueue.isEmpty) p' < workerEffort (!s.messageQueue.isEmpty) p := by
  cases turns with
  | more => cases s.messageQueue <;> simp [workerEffort]
  | last down => simp [up] at down
  | again | leave => cases early
  | ready due =>
    have filled : s.messageQueue ≠ [] := due.resolve_left (by simp [up])
    cases queue : s.messageQueue with
    | nil => exact absurd queue filled
    | cons => simp [workerEffort]
  | wait _ empty => simp [workerEffort, empty]
  | drained empty => simp [workerEffort, empty]

theorem effort_takes (takes : Takes p p') (filled : Bool) :
    workerEffort filled p' < workerEffort filled p := by
  cases takes <;> cases filled <;> simp [workerEffort]

theorem effort_leaves (leaves : Leaves p p') (filled : Bool) :
    workerEffort filled p' < workerEffort filled p := by
  cases leaves <;> cases filled <;> simp [workerEffort]

end Points

section Tended

theorem tended_start (logFile : Bool) : Tended (start logFile : Service ι β) := ⟨nofun, nofun⟩

variable [DecidableEq ι] {s s' : Service ι β} {a : Turn ι β}

theorem Tended.caller (h : Tended s) {i : ι} {c : Caller β} (worker : s'.worker = s.worker)
    (queue : s'.messageQueue = s.messageQueue) (caller : s'.caller = Function.update s.caller i c)
    (kept : tells (s.caller i) = true → tells c = true) : Tended s' := by
  refine ⟨fun sleeps => ?_, fun sleeps filled => ?_⟩
  · rw [queue]
    exact h.sleep (worker ▸ sleeps)
  · obtain ⟨j, told⟩ := h.asleep (worker ▸ sleeps) (queue ▸ filled)
    refine ⟨j, ?_⟩
    rw [caller]
    by_cases self : j = i
    · rw [self] at told ⊢
      rw [Function.update_self]
      exact kept told
    · rw [Function.update_of_ne self]
      exact told

theorem tended_step (locked : Locked s) (h : Tended s) (next : step s a = some s') :
    Tended s' := by
  cases step_moves next with
  | call point | lock point | unlock point =>
    exact h.caller rfl rfl rfl fun told => by first | rfl | (rw [point] at told; cases told)
  | @push i e point =>
    refine ⟨fun sleeps => ?_, fun _ _ => ⟨i, ?_⟩⟩
    · -- the caller is inside the mutex, so the worker is not
      have mine : inside s (.caller i) = true := by rw [inside, point]; rfl
      have outside : inside s .worker = false := locked.alone mine (by simp)
      change s.worker = .sleep at sleeps
      rw [inside, sleeps] at outside
      cases outside
    · change tells (Function.update s.caller i .unlock i) = true
      rw [Function.update_self]
      rfl
  | notify => exact ⟨fun sleeps => h.sleep (hear_sleep.mp sleeps), fun sleeps => absurd sleeps
      hear_asleep⟩
  | @turn p turns =>
    refine ⟨fun (sleeps : p = .sleep) => ?_, fun (sleeps : p = .asleep) => ?_⟩
    · rw [sleeps] at turns
      exact (empty_of_sleep turns : s.messageQueue = [])
    · exact absurd sleeps (not_asleep_of_turns turns)
  | take takes => exact ⟨fun sleeps => absurd sleeps (awake_of_takes takes).1,
      fun sleeps => absurd sleeps (awake_of_takes takes).2⟩
  | @leave p leaves =>
    obtain ⟨first, later⟩ := sleep_of_leaves leaves
    exact ⟨fun sleeps => absurd sleeps first,
      fun sleeps filled => absurd (h.sleep (later sleeps)) filled⟩
  | pop | write | wake =>
    refine ⟨fun sleeps => ?_, fun sleeps => ?_⟩
    · cases sleeps
    · cases sleeps
  | stop | join | close => exact ⟨h.sleep, h.asleep⟩
  | tell => exact ⟨fun sleeps => h.sleep (hear_sleep.mp sleeps), fun sleeps => absurd sleeps
      hear_asleep⟩

end Tended

section Effort

variable [DecidableEq ι] [Fintype ι] {s s' : Service ι β} {a : Turn ι β}

/-- The service before its destruction, with the callers and the worker in
their places. -/
structure Working (s : Service ι β) : Prop where
  outside : s.destructor = .outside
  inv : LogOrder.Inv s
  locked : Locked s
  tended : Tended s

omit [DecidableEq ι] [Fintype ι] in
theorem Working.up (h : Working s) : s.running = true ∧ leaving s.worker = false := by
  have up : s.running = true := by
    by_contra down
    exact h.inv.stopping.stopped.mp (by simpa using down) h.outside
  refine ⟨up, ?_⟩
  by_contra late
  have down := h.inv.stopping.leaving (by simpa using late)
  rw [up] at down
  cases down

omit [Fintype ι] in
theorem working_step (h : Working s) (work : Work a) (next : step s a = some s') :
    Working s' := by
  refine ⟨?_, inv_step h.inv next, locked_step h.locked next, tended_step h.locked h.tended next⟩
  have outside := h.outside
  cases step_moves next <;> first | exact outside | exact work.elim

theorem sum_caller (f : ι → Caller β) (i : ι) (c : Caller β) :
    ∑ j, callerEffort (Function.update f i c j) + callerEffort (f i) ≤
      ∑ j, callerEffort (f j) + callerEffort c := by
  have moved := sum_kept (f := fun j => callerEffort (f j))
    (g := fun j => callerEffort (Function.update f i c j)) (t := i) fun j other => by
      rw [Function.update_of_ne other]
  rw [Function.update_self] at moved
  exact moved

theorem effort_step (h : Working s) (work : Work a) (next : step s a = some s') :
    effort s' < effort s := by
  obtain ⟨up, early⟩ := h.up
  unfold effort
  cases step_moves next with
  | call | wake | stop | tell | join | close => exact work.elim
  | @lock i e point =>
    have sum := sum_caller s.caller i (.push e)
    rw [point] at sum
    change _ + 17 ≤ _ + 16 at sum
    simp only [Service.setCaller]
    omega
  | @unlock i point =>
    have sum := sum_caller s.caller i .notify
    rw [point] at sum
    change _ + 5 ≤ _ + 4 at sum
    simp only [Service.setCaller]
    omega
  | @push i e point =>
    have sum := sum_caller s.caller i .unlock
    rw [point] at sum
    change _ + 16 ≤ _ + 5 at sum
    have more := effort_filled (p := s.worker) (!s.messageQueue.isEmpty)
    have filled : (!(s.messageQueue ++ [e]).isEmpty) = true := by simp
    simp only [Service.setCaller, filled, List.length_append, List.length_singleton]
    omega
  | @notify i point =>
    have sum := sum_caller s.caller i .idle
    rw [point] at sum
    change _ + 4 ≤ _ + 0 at sum
    have more := effort_hear (p := s.worker) (!s.messageQueue.isEmpty)
    simp only [Service.setCaller, Service.notifyOne]
    omega
  | turn turns =>
    have less := effort_turns turns up early
    simp only
    omega
  | take takes =>
    have less := effort_takes takes (!s.messageQueue.isEmpty)
    simp only
    omega
  | leave leaves =>
    have less := effort_leaves leaves (!s.messageQueue.isEmpty)
    simp only
    omega
  | pop point filled =>
    simp [point, filled, workerEffort]
    omega
  | write point =>
    simp [point, workerEffort]

end Effort

section Rest

variable [DecidableEq ι] {s s' : Service ι β} {a : Turn ι β} {i : ι}

theorem stuck_caller (stuck : callerStep s i = none) :
    s.caller i = .idle ∨ s.queueMutex ≠ none ∧ callerInside (s.caller i) = false := by
  unfold callerStep at stuck
  cases point : s.caller i with
  | idle => exact .inl rfl
  | lock e =>
    refine .inr ⟨fun free => ?_, rfl⟩
    simp [point, free] at stuck
  | push | unlock | notify => simp [point] at stuck

omit [DecidableEq ι] in
theorem stuck_worker (stuck : workerStep s = none) :
    s.worker = .asleep ∨ s.worker = .returned ∨
      s.queueMutex ≠ none ∧ workerInside s.worker = false := by
  unfold workerStep at stuck
  cases point : s.worker with
  | asleep => exact .inl rfl
  | returned => exact .inr (.inl rfl)
  | lock | woken | relock =>
    refine .inr (.inr ⟨fun free => ?_, rfl⟩)
    simp [point, free] at stuck
  | drain => cases queue : s.messageQueue <;> simp [point, queue] at stuck
  | _ => simp [point] at stuck

theorem rest_of_stuck (h : Working s) (stuck : ∀ a, Work a → step s a = none) :
    s.worker = .asleep ∧ s.messageQueue = [] ∧ ∀ i, s.caller i = .idle := by
  have caller : ∀ i, callerStep s i = none := fun i => stuck (.caller i) trivial
  have worker : workerStep s = none := stuck .worker trivial
  have free : s.queueMutex = none := by
    refine h.locked.unlocked fun holder => ?_
    cases holder with
    | worker =>
      rcases stuck_worker worker with point | point | ⟨-, outside⟩
      · simp [inside, point, workerInside]
      · simp [inside, point, workerInside]
      · exact outside
    | caller i =>
      rcases stuck_caller (caller i) with point | ⟨-, outside⟩
      · simp [inside, point, callerInside]
      · exact outside
  have idle : ∀ i, s.caller i = .idle := fun i =>
    (stuck_caller (caller i)).resolve_right fun waits => waits.1 free
  have asleep : s.worker = .asleep := by
    rcases stuck_worker worker with point | point | ⟨taken, -⟩
    · exact point
    · have early := h.up.2
      rw [point] at early
      cases early
    · exact absurd free taken
  refine ⟨asleep, ?_, idle⟩
  by_contra filled
  obtain ⟨i, told⟩ := h.tended.asleep asleep filled
  rw [idle i] at told
  cases told

def Logged (s : Service ι β) (e : β) : Prop :=
  e ∈ s.pushed ∨ ∃ i, s.caller i = .lock e ∨ s.caller i = .push e

theorem logged_caller {e : β} (h : Logged s e) {c : Caller β}
    (caller : s'.caller = Function.update s.caller i c) (pushed : s.pushed <+: s'.pushed)
    (kept : s.caller i = .lock e ∨ s.caller i = .push e → c = .push e ∨ e ∈ s'.pushed) :
    Logged s' e := by
  rcases h with mem | ⟨j, point⟩
  · exact .inl (pushed.subset mem)
  · by_cases self : j = i
    · rw [self] at point
      refine (kept point).elim (fun now => .inr ⟨i, .inr ?_⟩) .inl
      rw [caller, Function.update_self]
      exact now
    · refine .inr ⟨j, ?_⟩
      rw [caller, Function.update_of_ne self]
      exact point

theorem logged_step {e : β} (h : Logged s e) (next : step s a = some s') : Logged s' e := by
  cases step_moves next with
  | call point | unlock point | notify point =>
    refine logged_caller h rfl (List.prefix_refl _) fun standing => ?_
    rw [point] at standing
    simp at standing
  | lock point =>
    refine logged_caller h rfl (List.prefix_refl _) fun standing => ?_
    rw [point] at standing
    exact .inl (by simpa using standing)
  | push point =>
    refine logged_caller h rfl (List.prefix_append ..) fun standing => ?_
    rw [point] at standing
    exact .inr (List.mem_append_right _ (by simpa [eq_comm] using standing))
  | _ => exact h

end Rest

/-- While the file is open no entry is left behind: callers and worker come to rest with everything
written. -/
theorem entries_drained {ι β : Type} [DecidableEq ι] [Fintype ι] {actions : List (Turn ι β)}
    {s : Service ι β} (run : drive step (start true) actions = some s)
    (outside : s.destructor = .outside) :
    Drains step Work s fun s' => s'.written = s'.pushed ∧ s'.worker = .asleep ∧
      (∀ i, s'.caller i = .idle) ∧ ∀ e, Logged s e → e ∈ s'.written := by
  have reached : LogOrder.Inv s ∧ Locked s ∧ Tended s :=
    drive_invariant step (I := fun s => LogOrder.Inv s ∧ Locked s ∧ Tended s)
      (fun _ _ _ ⟨inv, locked, tended⟩ next =>
        ⟨inv_step inv next, locked_step locked next, tended_step locked tended next⟩)
      ⟨inv_start, locked_start true, tended_start true⟩ run
  obtain ⟨inv, locked, tended⟩ := reached
  refine drains_of_rank (I := fun s' => Working s' ∧ ∀ e, Logged s e → Logged s' e) (r := effort)
    (fun t a t' ⟨working, logged⟩ work next => ⟨⟨working_step working work next,
      fun e mem => logged_step (logged e mem) next⟩, effort_step working work next⟩)
    (fun t ⟨working, logged⟩ stuck => ?_) ⟨⟨outside, inv, locked, tended⟩, fun _ mem => mem⟩
  obtain ⟨asleep, empty, idle⟩ := rest_of_stuck working stuck
  have order : t.written = t.pushed := by
    simpa [asleep, empty, held] using working.inv.order
  refine ⟨order, asleep, idle, fun e mem => ?_⟩
  rcases logged e mem with pushed | ⟨i, point⟩
  · rw [order]
    exact pushed
  · rw [idle i] at point
    simp at point

def twoCallers : List (Turn Bool Nat) :=
  [.worker, .worker, .worker, .worker, .log false 1, .log true 2, .caller false, .caller false,
    .caller false]

def amidTwoCallers : Service Bool Nat := (drive step (start true) twoCallers).getD (start true)

theorem entries_drained_two :
    amidTwoCallers.worker = .asleep ∧ amidTwoCallers.messageQueue = [1] ∧
      Drains step Work amidTwoCallers fun s' => s'.written = s'.pushed ∧ s'.worker = .asleep ∧
        (∀ i, s'.caller i = .idle) ∧ ∀ e, Logged amidTwoCallers e → e ∈ s'.written :=
  ⟨rfl, rfl, entries_drained (show drive step (start true) twoCallers = _ from rfl) rfl⟩

end Ccfolio.LogProgress
