import Ccfolio.LogWorker
import Mathlib.Data.Fintype.Basic

/-! The order of the log file: what is written, what the worker holds and what
is queued are together what was pushed, at every point of the worker, the
shutdown included. -/

namespace Ccfolio.LogOrder

open Transitions LogWorker

variable {ι β : Type}

/-- The entry the worker has popped and not yet written. -/
def held : Worker β → List β
  | .unlock msg | .write msg => [msg]
  | _ => []

def leaving : Worker β → Bool
  | .testQueue | .returned => true
  | _ => false

section Points

variable {s : Service ι β} {p p' : Worker β}

@[simp] theorem held_hear (p : Worker β) : held p.hear = held p := by cases p <;> rfl

@[simp] theorem leaving_hear (p : Worker β) : leaving p.hear = leaving p := by cases p <;> rfl

@[simp] theorem hear_returned : p.hear = .returned ↔ p = .returned := by
  cases p <;> simp [Worker.hear]

theorem held_turns (h : Turns s p p') : held p = [] ∧ held p' = [] := by
  cases h <;> exact ⟨rfl, rfl⟩

theorem held_takes (h : Takes p p') : held p = [] ∧ held p' = [] := by
  cases h <;> exact ⟨rfl, rfl⟩

theorem held_leaves (h : Leaves p p') : held p' = held p := by cases h <;> rfl

theorem leaving_turns (h : Turns s p p') (late : leaving p' = true) :
    s.running = false ∨ leaving p = true := by
  cases h with
  | last down => exact .inl down
  | leave => exact .inr rfl
  | _ => cases late

theorem leaving_takes (h : Takes p p') : leaving p' = false := by cases h <;> rfl

theorem leaving_leaves (h : Leaves p p') : leaving p' = false := by cases h <;> rfl

theorem not_returned_of_turns (h : Turns s p p') : p ≠ .returned := by cases h <;> nofun

theorem not_returned_of_takes (h : Takes p p') : p ≠ .returned := by cases h <;> nofun

theorem not_returned_of_leaves (h : Leaves p p') : p ≠ .returned := by cases h <;> nofun

theorem empty_of_turns (h : Turns s p .returned) : s.messageQueue = [] := by
  cases h with
  | leave empty => exact empty

end Points

/-- How far the destructor is, and what that says of the worker. -/
structure Stopping (s : Service ι β) : Prop where
  stopped : s.running = false ↔ s.destructor ≠ .outside
  leaving : leaving s.worker = true → s.running = false
  joined : s.destructor = .close ∨ s.destructor = .done → s.worker = .returned

theorem stopping_start (logFile : Bool) : Stopping (start logFile : Service ι β) :=
  ⟨by simp [start], nofun, by simp [start]⟩

variable {s s' : Service ι β} {a : Turn ι β}

theorem Stopping.work (h : Stopping s) {p : Worker β} (worker : s'.worker = p)
    (running : s'.running = s.running) (destructor : s'.destructor = s.destructor)
    (started : s.worker ≠ .returned)
    (late : LogOrder.leaving p = true → s.running = false ∨ LogOrder.leaving s.worker = true) :
    Stopping s' := by
  refine ⟨?_, ?_, ?_⟩
  · rw [running, destructor]
    exact h.stopped
  · rw [worker, running]
    exact fun ends => (late ends).elim id h.leaving
  · rw [destructor]
    exact fun ended => absurd (h.joined ended) started

theorem Stopping.down (h : Stopping s) {d : Destructor} (point : s.destructor = d)
    (begun : d ≠ .outside) : s.running = false := h.stopped.mpr (point ▸ begun)

variable [DecidableEq ι]

theorem stopping_step (h : Stopping s) (next : step s a = some s') : Stopping s' := by
  cases step_moves next with
  | call | lock | push | unlock => exact ⟨h.stopped, h.leaving, h.joined⟩
  | notify =>
    refine ⟨h.stopped, ?_, ?_⟩
    · simpa [Service.setCaller, Service.notifyOne] using h.leaving
    · simpa [Service.setCaller, Service.notifyOne] using h.joined
  | turn turns => exact h.work rfl rfl rfl (not_returned_of_turns turns) (leaving_turns turns)
  | take takes =>
    refine h.work rfl rfl rfl (not_returned_of_takes takes) fun late => ?_
    rw [leaving_takes takes] at late
    cases late
  | leave leaves =>
    refine h.work rfl rfl rfl (not_returned_of_leaves leaves) fun late => ?_
    rw [leaving_leaves leaves] at late
    cases late
  | pop point | write point | wake point =>
    exact h.work rfl rfl rfl (by rw [point]; nofun) nofun
  | stop => exact ⟨by simp, fun _ => rfl, nofun⟩
  | tell point =>
    have down := h.down point nofun
    exact ⟨by simp [Service.notifyOne, down], fun _ => down, nofun⟩
  | join point returned =>
    have down := h.down point nofun
    exact ⟨by simp [down], fun _ => down, fun _ => returned⟩
  | close point =>
    have down := h.down point nofun
    exact ⟨by simp [down], fun _ => down, fun _ => h.joined (.inl point)⟩

/-- The file stays open while the worker runs, and nothing is lost, repeated or
moved. -/
structure Inv (s : Service ι β) : Prop where
  stopping : Stopping s
  opened : s.logFile = false → s.destructor = .done
  order : s.written ++ held s.worker ++ s.messageQueue = s.pushed

omit [DecidableEq ι] in
theorem inv_start : Inv (start true : Service ι β) := ⟨stopping_start true, nofun, rfl⟩

theorem inv_step (inv : Inv s) (next : step s a = some s') : Inv s' := by
  have stopping := stopping_step inv.stopping next
  have order := inv.order
  cases step_moves next with
  | call | lock | unlock => exact ⟨stopping, inv.opened, inv.order⟩
  | push =>
    refine ⟨stopping, inv.opened, ?_⟩
    simp [Service.setCaller, ← order]
  | notify =>
    refine ⟨stopping, inv.opened, ?_⟩
    simpa [Service.setCaller, Service.notifyOne] using order
  | turn turns =>
    obtain ⟨before, after⟩ := held_turns turns
    refine ⟨stopping, inv.opened, ?_⟩
    rw [after, ← before]
    exact order
  | take takes =>
    obtain ⟨before, after⟩ := held_takes takes
    refine ⟨stopping, inv.opened, ?_⟩
    rw [after, ← before]
    exact order
  | leave leaves =>
    refine ⟨stopping, inv.opened, ?_⟩
    rw [held_leaves leaves]
    exact order
  | pop point filled =>
    rw [point, filled] at order
    exact ⟨stopping, inv.opened, by simpa [held] using order⟩
  | write point =>
    have file : s.logFile = true := by
      by_contra closed
      have ended := inv.stopping.joined (.inr (inv.opened (by simpa using closed)))
      rw [point] at ended
      cases ended
    rw [point] at order
    exact ⟨stopping, inv.opened, by simpa [held, file] using order⟩
  | wake point =>
    rw [point] at order
    exact ⟨stopping, inv.opened, order⟩
  | stop point | join point =>
    refine ⟨stopping, fun closed => ?_, order⟩
    rw [inv.opened closed] at point
    cases point
  | tell point =>
    refine ⟨stopping, fun closed => ?_, by simpa [Service.notifyOne] using order⟩
    rw [inv.opened closed] at point
    cases point
  | close => exact ⟨stopping, fun _ => rfl, order⟩

/-- No call of `log` is in progress when destruction begins, and none begins
after. -/
def Undisturbed (s : Service ι β) : Turn ι β → Prop
  | .log _ _ => s.destructor = .outside
  | .destroy => s.destructor = .outside → ∀ i, s.caller i = .idle
  | _ => True

instance [Fintype ι] [DecidableEq β] (s : Service ι β) :
    (a : Turn ι β) → Decidable (Undisturbed s a)
  | .log _ _ => inferInstanceAs (Decidable (s.destructor = .outside))
  | .destroy => inferInstanceAs (Decidable (s.destructor = .outside → ∀ i, s.caller i = .idle))
  | .caller _ | .worker | .wake => inferInstanceAs (Decidable True)

/-- Once destruction has begun no caller stands anywhere, and nothing is queued
behind the worker's back. -/
structure Calm (s : Service ι β) : Prop where
  stopping : Stopping s
  callers : s.destructor ≠ .outside → ∀ i, s.caller i = .idle
  drained : s.worker = .returned → s.messageQueue = []

omit [DecidableEq ι] in
theorem calm_start (logFile : Bool) : Calm (start logFile : Service ι β) :=
  ⟨stopping_start logFile, fun begun => absurd rfl begun, nofun⟩

theorem calm_step (calm : Calm s) (ok : Undisturbed s a) (next : step s a = some s') : Calm s' := by
  have stopping := stopping_step calm.stopping next
  have busy : ∀ {i : ι}, s.caller i ≠ .idle → s.destructor = .outside := fun standing => by
    by_contra begun
    exact standing (calm.callers begun _)
  have early : s.destructor = .outside → s.worker ≠ .returned := fun outside returned => by
    have down := calm.stopping.leaving (by rw [returned]; rfl)
    exact calm.stopping.stopped.mp down outside
  cases step_moves next with
  | call point => exact ⟨stopping, fun begun => absurd ok begun, calm.drained⟩
  | lock point | unlock point =>
    have outside := busy (by rw [point]; nofun)
    exact ⟨stopping, fun begun => absurd outside begun, calm.drained⟩
  | push point =>
    have outside := busy (by rw [point]; nofun)
    exact ⟨stopping, fun begun => absurd outside begun,
      fun returned => absurd returned (early outside)⟩
  | notify point =>
    have outside := busy (by rw [point]; nofun)
    refine ⟨stopping, fun begun => absurd outside begun, fun returned => ?_⟩
    exact absurd (hear_returned.mp returned) (early outside)
  | @turn p turns =>
    refine ⟨stopping, calm.callers, fun (returned : p = .returned) => ?_⟩
    rw [returned] at turns
    exact (empty_of_turns turns : s.messageQueue = [])
  | @take p takes =>
    refine ⟨stopping, calm.callers, fun (returned : p = .returned) => ?_⟩
    rw [returned] at takes
    cases leaving_takes takes
  | @leave p leaves =>
    refine ⟨stopping, calm.callers, fun (returned : p = .returned) => ?_⟩
    rw [returned] at leaves
    cases leaving_leaves leaves
  | pop | write | wake => exact ⟨stopping, calm.callers, nofun⟩
  | stop point => exact ⟨stopping, fun _ => ok point, calm.drained⟩
  | tell point =>
    exact ⟨stopping, fun _ => calm.callers (by rw [point]; nofun),
      fun returned => calm.drained (hear_returned.mp returned)⟩
  | join point | close point =>
    exact ⟨stopping, fun _ => calm.callers (by rw [point]; nofun), calm.drained⟩

/-- Entries are written in the order they were pushed, and all of them by the time an undisturbed
worker has returned. -/
theorem entries_in_order {ι β : Type} [DecidableEq ι] {actions : List (Turn ι β)}
    {s : Service ι β} (run : drive step (start true) actions = some s) :
    s.written ++ held s.worker ++ s.messageQueue = s.pushed ∧
    (Cleared step Undisturbed (start true) actions → s.worker = .returned →
      s.written = s.pushed) := by
  have inv : Inv s := drive_invariant step (fun _ _ _ inv next => inv_step inv next) inv_start run
  refine ⟨inv.order, fun undisturbed returned => ?_⟩
  have calm : Calm s := cleared_invariant step
    (fun _ _ _ calm ok next => calm_step calm ok next) (calm_start true) undisturbed run
  have order := inv.order
  rw [returned, calm.drained returned] at order
  simpa [held] using order

def twoEntries : List (Turn Bool Nat) :=
  [.log false 1, .worker, .caller false, .caller false, .caller false, .worker, .worker, .worker,
    .worker, .log true 2, .caller true, .caller true, .caller true, .worker, .caller true,
    .caller false, .destroy, .worker, .worker, .worker, .worker, .worker, .destroy, .worker,
    .worker, .worker, .worker, .destroy, .destroy]

def afterTwoEntries : Service Bool Nat := (drive step (start true) twoEntries).getD (start true)

theorem entries_in_order_two :
    afterTwoEntries.pushed = [1, 2] ∧ afterTwoEntries.written = afterTwoEntries.pushed := by
  have run : drive step (start true) twoEntries = some afterTwoEntries := rfl
  exact ⟨rfl, (entries_in_order run).2 (by decide) rfl⟩

end Ccfolio.LogOrder
