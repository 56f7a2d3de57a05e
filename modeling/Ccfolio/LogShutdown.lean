import Ccfolio.LogOrder
import Ccfolio.Mutexes

/-! Whether the worker hears the destructor. The flag is stored and the
notification sent without `queueMutex`, so both can fall between the predicate
of the wait and the sleep. -/

namespace Ccfolio.LogShutdown

open Transitions Mutexes LogWorker LogOrder

variable {ι β : Type}

def workerInside : Worker β → Bool
  | .predicate | .sleep | .drain | .unlock _ | .release => true
  | _ => false

def callerInside : Caller β → Bool
  | .push _ | .unlock => true
  | _ => false

def inside (s : Service ι β) : Holder ι → Bool
  | .worker => workerInside s.worker
  | .caller i => callerInside (s.caller i)

/-- The worker sleeps, the destructor waits for it, and nobody is left to wake
it. -/
structure Missed (s : Service ι β) : Prop where
  asleep : s.worker = .asleep
  down : s.running = false
  waiting : s.destructor = .join
  silent : ∀ i, s.caller i = .idle

/-- The destructor does not notify a worker that has found nothing to do and
is not yet asleep. -/
def Heard (s : Service ι β) : Turn ι β → Prop
  | .destroy => s.destructor = .notify → s.worker ≠ .sleep
  | _ => True

section Points

variable {s : Service ι β} {p p' : Worker β}

@[simp] theorem workerInside_hear (p : Worker β) : workerInside p.hear = workerInside p := by
  cases p <;> rfl

theorem inside_turns (h : Turns s p p') : workerInside p' = workerInside p := by
  cases h <;> rfl

theorem inside_takes (h : Takes p p') : workerInside p' = true := by cases h <;> rfl

theorem inside_leaves (h : Leaves p p') : workerInside p = true ∧ workerInside p' = false := by
  cases h <;> exact ⟨rfl, rfl⟩

theorem sleep_of_turns (h : Turns s p .sleep) : s.running = true := by
  cases h with
  | wait up => exact up

theorem not_asleep_of_turns (h : Turns s p p') : p' ≠ .asleep := by cases h <;> nofun

theorem awake_of_takes (h : Takes p p') : p' ≠ .sleep ∧ p' ≠ .asleep := by
  cases h <;> exact ⟨nofun, nofun⟩

theorem sleep_of_leaves (h : Leaves p p') : p' ≠ .sleep ∧ (p' = .asleep → p = .sleep) := by
  cases h with
  | sleep => exact ⟨nofun, fun _ => rfl⟩
  | unlock | release => exact ⟨nofun, nofun⟩

theorem hear_awake (not : p ≠ .sleep) : p.hear ≠ .sleep ∧ p.hear ≠ .asleep := by
  cases p <;> simp_all [Worker.hear]

end Points

variable {s s' : Service ι β}

def Locked (s : Service ι β) : Prop := Exclusive s.queueMutex (inside s)

theorem locked_start (logFile : Bool) : Locked (start logFile : Service ι β) := by
  intro h
  cases h <;> simp [start, inside, workerInside, callerInside]

variable [DecidableEq ι]

theorem Locked.worker (h : Locked s) (caller : s'.caller = s.caller)
    (pass : Passes (.worker : Holder ι) s.queueMutex (workerInside s.worker) s'.queueMutex
      (workerInside s'.worker)) : Locked s' := by
  have moved : inside s' = Function.update (inside s) .worker (workerInside s'.worker) := by
    funext h
    cases h <;> simp [inside, caller]
  rw [Locked, moved]
  exact Exclusive.pass h pass

theorem Locked.caller (h : Locked s) {i : ι} {c : Caller β}
    (worker : workerInside s'.worker = workerInside s.worker)
    (caller : s'.caller = Function.update s.caller i c)
    (pass : Passes (.caller i : Holder ι) s.queueMutex (callerInside (s.caller i)) s'.queueMutex
      (callerInside c)) : Locked s' := by
  have moved : inside s' = Function.update (inside s) (.caller i) (callerInside c) := by
    funext h
    cases h with
    | worker => simp [inside, worker]
    | caller j => by_cases same : j = i <;> simp [inside, caller, same]
  rw [Locked, moved]
  exact Exclusive.pass h pass

variable {a : Turn ι β}

theorem locked_step (h : Locked s) (next : step s a = some s') : Locked s' := by
  cases step_moves next with
  | call point => exact h.caller rfl rfl (by rw [point]; exact .keep ..)
  | lock point free => exact h.caller rfl rfl (by rw [point, free]; exact .take _)
  | push point => exact h.caller rfl rfl (by rw [point]; exact .keep ..)
  | unlock point => exact h.caller rfl rfl (by rw [point]; exact .free _)
  | notify point =>
    exact h.caller (workerInside_hear _) rfl (by rw [point]; exact .keep ..)
  | turn turns => exact h.worker rfl (by rw [← inside_turns turns]; exact .keep ..)
  | take takes free => exact h.worker rfl (by rw [free, inside_takes takes]; exact .take _)
  | leave leaves =>
    obtain ⟨before, after⟩ := inside_leaves leaves
    exact h.worker rfl (by rw [before, after]; exact .free _)
  | pop point | write point | wake point =>
    exact h.worker rfl (by rw [point]; exact .keep ..)
  | stop | join | close => exact h.worker rfl (.keep ..)
  | tell =>
    refine h.worker rfl ?_
    simp only [Service.notifyOne, workerInside_hear]
    exact .keep ..

/-- Past its notification the destructor waits for a worker that is awake. -/
structure Awake (s : Service ι β) : Prop where
  calm : Calm s
  awake : s.destructor ≠ .outside → s.destructor ≠ .notify →
    s.worker ≠ .sleep ∧ s.worker ≠ .asleep

theorem awake_step (h : Awake s) (ok : Undisturbed s a ∧ Heard s a)
    (next : step s a = some s') : Awake s' := by
  refine ⟨calm_step h.calm ok.1 next, ?_⟩
  have awake := h.awake
  cases step_moves next with
  | call | lock | push | unlock => exact awake
  | notify =>
    intro begun told
    exact hear_awake (awake begun told).1
  | @turn p turns =>
    intro begun told
    refine ⟨fun (sleeps : p = .sleep) => ?_, not_asleep_of_turns turns⟩
    rw [sleeps] at turns
    have up : s.running = true := sleep_of_turns turns
    rw [h.calm.stopping.stopped.mpr begun] at up
    cases up
  | take takes => exact fun _ _ => awake_of_takes takes
  | leave leaves =>
    intro begun told
    obtain ⟨first, later⟩ := sleep_of_leaves leaves
    exact ⟨first, fun asleep => (awake begun told).1 (later asleep)⟩
  | pop | write | wake => exact fun _ _ => ⟨nofun, nofun⟩
  | stop => exact fun _ told => absurd rfl told
  | tell point => exact fun _ _ => hear_awake (ok.2 point)
  | join point | close point =>
    exact fun _ _ => awake (by rw [point]; nofun) (by rw [point]; nofun)

omit [DecidableEq ι] in
theorem awake_start (logFile : Bool) : Awake (start logFile : Service ι β) :=
  ⟨calm_start logFile, fun begun => absurd rfl begun⟩

theorem awake_run {logFile : Bool} {actions : List (Turn ι β)}
    (undisturbed : Cleared step Undisturbed (start logFile) actions)
    (heard : Cleared step Heard (start logFile) actions)
    (run : drive step (start logFile) actions = some s) : Awake s ∧ Locked s := by
  constructor
  · exact cleared_invariant step (fun _ _ _ h ok next => awake_step h ok next)
      (awake_start logFile) (cleared_and step undisturbed heard) run
  · exact drive_invariant step (fun _ _ _ h next => locked_step h next) (locked_start logFile) run

theorem worker_proceeds {logFile : Bool} {actions : List (Turn ι β)}
    (undisturbed : Cleared step Undisturbed (start logFile) actions)
    (heard : Cleared step Heard (start logFile) actions)
    (run : drive step (start logFile) actions = some s) (waiting : s.destructor = .join) :
    s.worker = .returned ∨ ∃ s', workerStep s = some s' := by
  obtain ⟨awake, locked⟩ := awake_run undisturbed heard run
  have up := awake.awake (by rw [waiting]; nofun) (by rw [waiting]; nofun)
  have callers := awake.calm.callers (by rw [waiting]; nofun)
  have free : workerInside s.worker = false → s.queueMutex = none := fun outside => by
    refine locked.unlocked fun h => ?_
    cases h with
    | worker => exact outside
    | caller i => simp [inside, callers i, callerInside]
  unfold workerStep
  cases point : s.worker with
  | lock | woken | relock => exact .inr ⟨_, if_pos (free (by rw [point]; rfl))⟩
  | asleep => exact absurd point up.2
  | returned => exact .inl rfl
  | drain =>
    refine .inr ?_
    cases s.messageQueue <;> exact ⟨_, rfl⟩
  | _ => exact .inr ⟨_, rfl⟩

/-- The notification falls between the predicate and the sleep: the worker's
next step is its last. -/
theorem missed_of_unheard (calm : Calm s) (unheard : ¬ Heard s a)
    (next : step s a = some s') : ∃ s'', step s' .worker = some s'' ∧ Missed s'' := by
  cases a with
  | destroy =>
    simp only [Heard, Classical.not_imp, not_not] at unheard
    obtain ⟨point, sleeps⟩ := unheard
    have told : s' = { s.notifyOne with destructor := .join } := by
      simpa [step, destructorStep, point] using next.symm
    have stopping : s.destructor ≠ .outside := by
      rw [point]
      decide
    have down := calm.stopping.down point (by decide)
    have callers := calm.callers stopping
    subst told
    refine ⟨_, by simp [step, workerStep, Service.notifyOne, sleeps, Worker.hear]; rfl, ?_⟩
    exact ⟨rfl, down, rfl, callers⟩
  | _ => exact absurd trivial unheard

/-- The destructor hangs only on a notification that falls between the predicate of the worker and
its sleep. -/
theorem shutdown_heard_iff {ι β : Type} [DecidableEq ι] {logFile : Bool}
    {actions : List (Turn ι β)} {s : Service ι β}
    (run : drive step (start logFile) actions = some s)
    (undisturbed : Cleared step Undisturbed (start logFile) actions) :
    (∀ before more s', before <+: actions → (∀ a ∈ more, a = .worker) →
      drive step (start logFile) (before ++ more) = some s' → ¬ Missed s') ↔
    Cleared step Heard (start logFile) actions := by
  constructor
  · intro safe
    by_contra unheard
    obtain ⟨before, a, after, middle, rfl, reached, -, bad⟩ := exists_of_not_cleared step unheard
    have calm : Calm middle := cleared_invariant step
      (fun _ _ _ calm ok next => calm_step calm ok next) (calm_start logFile)
      (cleared_early step undisturbed (List.prefix_append ..)) reached
    obtain ⟨s', next⟩ : ∃ s', step middle a = some s' := by
      rw [drive_append, reached, Option.bind_some, drive_cons, Option.bind_eq_some_iff] at run
      exact ⟨run.choose, run.choose_spec.1⟩
    obtain ⟨s'', slept, missed⟩ := missed_of_unheard calm bad next
    refine safe (before ++ [a]) [.worker] s'' ⟨after, by simp⟩ (by simp) ?_ missed
    rw [List.append_assoc, drive_append, reached, Option.bind_some]
    simp [next, slept, drive]
  · intro heard before more s' early work reached missed
    have extend : ∀ {ok : Service ι β → Turn ι β → Prop}, (∀ s, ok s .worker) →
        Cleared step ok (start logFile) actions →
        Cleared step ok (start logFile) (before ++ more) := fun any clear =>
      cleared_append step (cleared_early step clear early) fun _ _ =>
        cleared_of_forall step fun a mem s => by rw [work a mem]; exact any s
    have moves := worker_proceeds (extend (fun _ => trivial) undisturbed)
      (extend (fun _ => trivial) heard) reached missed.waiting
    rw [missed.asleep] at moves
    rcases moves with returned | ⟨s'', next⟩
    · cases returned
    · simp [workerStep, missed.asleep] at next

def heardStop : List (Turn Unit Nat) :=
  [.worker, .worker, .worker, .worker, .destroy, .destroy]

theorem shutdown_heard_asleep :
    (∀ before more s', before <+: heardStop → (∀ a ∈ more, a = .worker) →
      drive step (start true) (before ++ more) = some s' → ¬ Missed s') ↔
    Cleared step Heard (start true) heardStop :=
  shutdown_heard_iff rfl (by decide)

/-- The worker has found nothing to do and goes to sleep after the destructor
has notified. -/
def unheardStop : List (Turn Unit Nat) :=
  [.worker, .worker, .worker, .destroy, .destroy, .worker]

theorem shutdown_missed :
    Cleared step Undisturbed (start true) unheardStop ∧
    ∃ s, drive step (start true) unheardStop = some s ∧ Missed s ∧
      workerStep s = none ∧ destructorStep s = none :=
  ⟨by decide, _, rfl, ⟨rfl, rfl, rfl, fun _ => rfl⟩, rfl, rfl⟩

end Ccfolio.LogShutdown
