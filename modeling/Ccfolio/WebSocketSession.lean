import Ccfolio.Transitions

/-! The write side of `WebSocketSession`: `send` posts `on_send` to the
session's strand, `on_send` and `on_write` start the writes. A message stands
for the shared string that was passed to `send`. -/

namespace Ccfolio.WebSocketSession

open Transitions

variable {α : Type}

/-- The handlers posted and not yet run, `queue_`, and the buffers of the
writes outstanding; then, as a record of the run, the messages passed to
`send`, the buffers of the writes started and of those completed, and whether a
write has completed with an error. -/
structure Session (α : Type) where
  posted : List α
  queue : List α
  outstanding : List α
  sent : List α
  started : List α
  completed : List α
  failed : Bool
  deriving DecidableEq, Repr

namespace Session

def start : Session α := ⟨[], [], [], [], [], [], false⟩

def send (m : α) (s : Session α) : Session α :=
  { s with posted := s.posted ++ [m], sent := s.sent ++ [m] }

/-- `ws_.async_write(net::buffer(*queue_.front()), ..)`. -/
def asyncWrite (s : Session α) : Session α :=
  match s.queue with
  | [] => s
  | m :: _ => { s with outstanding := s.outstanding ++ [m], started := s.started ++ [m] }

def onSend (m : α) (s : Session α) : Session α :=
  let s := { s with queue := s.queue ++ [m] }
  if s.queue.length > 1 then s else s.asyncWrite

def onWrite (ok : Bool) (s : Session α) : Session α :=
  if !ok then { s with failed := true }
  else
    let s := { s with queue := s.queue.tail }
    if !s.queue.isEmpty then s.asyncWrite else s

end Session

inductive Event (α : Type) where
  | send (m : α)
  | runPosted
  | written (ok : Bool)
  deriving DecidableEq, Repr

open Session

/-- Posted handlers run in the order they were posted in; a completion takes
the write off and runs its handler. -/
def step (s : Session α) : Event α → Option (Session α)
  | .send m => some (s.send m)
  | .runPosted =>
    match s.posted with
    | [] => none
    | m :: rest => some ({ s with posted := rest }.onSend m)
  | .written ok =>
    match s.outstanding with
    | [] => none
    | m :: rest =>
      some ({ s with
        outstanding := rest
        completed := if ok then s.completed ++ [m] else s.completed }.onWrite ok)

/-- Nothing is queued, the first message queued is being written, or its write
has failed and it stays where it is. -/
inductive Stage : Session α → Prop
  | idle (posted sent completed : List α) :
      completed ++ posted = sent →
      Stage ⟨posted, [], [], sent, completed, completed, false⟩
  | writing (m : α) (rest posted sent completed : List α) :
      completed ++ m :: rest ++ posted = sent →
      Stage ⟨posted, m :: rest, [m], sent, completed ++ [m], completed, false⟩
  | broken (m : α) (rest posted sent completed : List α) :
      completed ++ m :: rest ++ posted = sent →
      Stage ⟨posted, m :: rest, [], sent, completed ++ [m], completed, true⟩

theorem stage_send {s : Session α} (stage : Stage s) (m : α) : Stage (s.send m) := by
  cases stage with
  | idle posted sent completed order =>
    exact .idle _ _ _ (by rw [← order]; simp)
  | writing m rest posted sent completed order =>
    exact .writing _ _ _ _ _ (by rw [← order]; simp)
  | broken m rest posted sent completed order =>
    exact .broken _ _ _ _ _ (by rw [← order]; simp)

theorem onSend_queued (m m' : α) (rest posted outstanding sent started completed : List α)
    (failed : Bool) :
    onSend m' ⟨posted, m :: rest, outstanding, sent, started, completed, failed⟩ =
      ⟨posted, m :: (rest ++ [m']), outstanding, sent, started, completed, failed⟩ := by
  have longer : (m :: rest ++ [m']).length > 1 := by simp
  simp only [onSend, if_pos longer]
  rfl

theorem stage_runPosted {s s' : Session α} (stage : Stage s)
    (next : step s .runPosted = some s') : Stage s' := by
  cases stage with
  | idle posted sent completed order =>
    cases posted with
    | nil => cases next
    | cons m rest =>
      cases next
      exact .writing m [] rest sent completed (by rw [← order]; simp)
  | writing m rest posted sent completed order =>
    cases posted with
    | nil => cases next
    | cons m' later =>
      simp only [step, onSend_queued, Option.some.injEq] at next
      subst next
      exact .writing m (rest ++ [m']) later sent completed (by rw [← order]; simp)
  | broken m rest posted sent completed order =>
    cases posted with
    | nil => cases next
    | cons m' later =>
      simp only [step, onSend_queued, Option.some.injEq] at next
      subst next
      exact .broken m (rest ++ [m']) later sent completed (by rw [← order]; simp)

theorem stage_written {s s' : Session α} (stage : Stage s) {ok : Bool}
    (next : step s (.written ok) = some s') : Stage s' := by
  cases stage with
  | idle | broken => cases next
  | writing m rest posted sent completed order =>
    cases ok with
    | false =>
      cases next
      exact .broken m rest posted sent completed order
    | true =>
      cases rest with
      | nil =>
        cases next
        exact .idle posted sent (completed ++ [m]) (by rw [← order])
      | cons m' rest =>
        cases next
        exact .writing m' rest posted sent (completed ++ [m]) (by rw [← order]; simp)

theorem stage_step {s s' : Session α} (stage : Stage s) {e : Event α}
    (next : step s e = some s') : Stage s' := by
  cases e with
  | send m =>
    cases next
    exact stage_send stage m
  | runPosted => exact stage_runPosted stage next
  | written ok => exact stage_written stage next

theorem asyncWrite_sent (s : Session α) : s.asyncWrite.sent = s.sent := by
  unfold asyncWrite
  split <;> rfl

theorem sent_step {s s' : Session α} {e : Event α} (next : step s e = some s')
    (other : ∀ m, e ≠ .send m) : s'.sent = s.sent := by
  cases e with
  | send m => exact absurd rfl (other m)
  | runPosted =>
    simp only [step] at next
    split at next
    · cases next
    · cases next
      simp only [onSend]
      split_ifs <;> simp [asyncWrite_sent]
  | written ok =>
    simp only [step] at next
    split at next
    · cases next
    · cases next
      simp only [onWrite]
      split_ifs <;> simp [asyncWrite_sent]

theorem started_prefix {s : Session α} (stage : Stage s) : s.started <+: s.sent := by
  cases stage with
  | idle posted sent completed order => exact ⟨posted, order⟩
  | writing m rest posted sent completed order | broken m rest posted sent completed order =>
    exact ⟨rest ++ posted, by simpa using order⟩

theorem stage_reachable {s : Session α} (h : Reachable step start s) : Stage s :=
  reachable_invariant step (fun _ _ _ stage next => stage_step stage next)
    (.idle [] [] [] rfl) h

theorem broken_step {s s' : Session α} (stage : Stage s) (failed : s.failed = true)
    {e : Event α} (next : step s e = some s') : s'.failed = true ∧ s'.started = s.started := by
  cases stage with
  | idle | writing => cases failed
  | broken m rest posted sent completed order =>
    cases e with
    | send => cases next; exact ⟨rfl, rfl⟩
    | written => cases next
    | runPosted =>
      cases posted with
      | nil => cases next
      | cons m' later =>
        simp only [step, onSend_queued, Option.some.injEq] at next
        subst next
        exact ⟨rfl, rfl⟩

theorem broken_drive {s s' : Session α} (stage : Stage s) (failed : s.failed = true)
    {events : List (Event α)} (h : drive step s events = some s') : s'.started = s.started := by
  have kept := drive_invariant step (I := fun s' => Stage s' ∧ s'.failed = true ∧
    s'.started = s.started) (fun a e b ⟨at_a, failed_a, same⟩ next => by
      obtain ⟨failed_b, same_b⟩ := broken_step at_a failed_a next
      exact ⟨stage_step at_a next, failed_b, same_b.trans same⟩) ⟨stage, failed, rfl⟩ h
  exact kept.2.2

/-- One write at most is outstanding, that of the front of the queue; messages are neither lost nor
reordered, and a failed write is the last. -/
theorem single_writer {α : Type} {s : Session α} (h : Reachable step start s) :
    s.outstanding.length ≤ 1 ∧
    (s.failed = false → (s.outstanding ≠ [] ↔ s.queue ≠ [])) ∧
    (∀ m ∈ s.outstanding, s.queue.head? = some m) ∧
    s.completed ++ s.queue ++ s.posted = s.sent ∧
    (s.failed = true → ∀ events s', drive step s events = some s' → s'.started = s.started) := by
  have stage := stage_reachable h
  refine ⟨?_, ?_, ?_, ?_, fun failed events s' run => broken_drive stage failed run⟩
  · cases stage <;> simp
  · cases stage <;> simp
  · cases stage <;> simp
  · cases stage with
    | idle posted sent completed order => simpa using order
    | writing m rest posted sent completed order => exact order
    | broken m rest posted sent completed order => exact order

def brokenSession : Session Nat := ⟨[], [2, 3], [], [1, 2, 3], [1, 2], [1], true⟩

theorem single_writer_broken :
    brokenSession.outstanding.length ≤ 1 ∧
    (brokenSession.failed = false → (brokenSession.outstanding ≠ [] ↔ brokenSession.queue ≠ [])) ∧
    (∀ m ∈ brokenSession.outstanding, brokenSession.queue.head? = some m) ∧
    brokenSession.completed ++ brokenSession.queue ++ brokenSession.posted = brokenSession.sent ∧
    (brokenSession.failed = true → ∀ events s', drive step brokenSession events = some s' →
      s'.started = brokenSession.started) :=
  single_writer ⟨[.send 1, .send 2, .runPosted, .runPosted, .written true, .written false,
    .send 3, .runPosted], by decide⟩

end Ccfolio.WebSocketSession
