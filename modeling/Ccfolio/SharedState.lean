import Ccfolio.Broadcasts
import Ccfolio.Registries
import Ccfolio.WebSocketSession

/-! `SharedState` and the sessions that join and leave it: `join`, `leave`,
`send`, `on_accept` and the destructor of `WebSocketSession`, one step at a
time, on any threads. What keeps a session alive is counted: its handlers that
are pending and the pointers that threads hold. A session stands for its control
block, so that a weak pointer is its name; its memory is at an address, which is
used again. -/

namespace Ccfolio.SharedState

open Registries Transitions

open Broadcasts (Call)

/-- A session, by the order of creation or any other naming. -/
abbrev SessionId := Nat

/-- The shared string that one call of `send` makes. -/
abbrev Broadcast := Nat

/-- What is pending on one session, and who holds it. -/
structure Object (T : Type) where
  /-- `on_accept` is pending. -/
  accepting : Bool
  /-- `on_read` is pending. -/
  reading : Bool
  /-- A handler is running on the session's strand. -/
  busy : Bool
  writer : WebSocketSession.Session Broadcast
  holders : List T

/-- Where a thread goes on once a destructor has run. -/
inductive After where
  | idle
  | deliver (caller : Option SessionId) (m : Broadcast) (v : List SessionId)
  deriving DecidableEq, Repr

/-- Where a thread stands. `caller` is the session whose handler calls `send`,
if one does. -/
inductive Pc (A : Type) where
  | idle
  | making (i : SessionId)
  | handler (i : SessionId)
  | joinLock (i : SessionId)
  | joinInsert (i : SessionId)
  | joinUnlock (i : SessionId)
  | joined (i : SessionId)
  | sendLock (caller : Option SessionId) (m : Broadcast)
  | snapshot (caller : Option SessionId) (m : Broadcast) (todo : List A) (v : List SessionId)
  | deliver (caller : Option SessionId) (m : Broadcast) (v : List SessionId)
  | holding (caller : Option SessionId) (m : Broadcast) (i : SessionId) (v : List SessionId)
  | posted (caller : Option SessionId) (m : Broadcast) (i : SessionId) (v : List SessionId)
  | leaveLock (i : SessionId) (after : After)
  | leaveErase (i : SessionId) (after : After)
  | leaveUnlock (i : SessionId) (after : After)
  | free (i : SessionId) (after : After)
  deriving DecidableEq, Repr

/-- `calls` is a record of each call of `send`: the sessions in `sessions_` when
it took the mutex, and the weak pointers it has locked since. -/
structure World (T A : Type) where
  heap : Heap SessionId A
  object : SessionId → Object T
  mutex : Option T
  pc : T → Pc A
  begun : Nat
  calls : Broadcast → Call SessionId

inductive Completion where
  | accept (ok : Bool)
  | read (ok : Bool)
  | onSend
  | onWrite (ok : Bool)
  deriving DecidableEq, Repr

inductive Action (A : Type) where
  | create (i : SessionId) (a : A)
  | run (i : SessionId) (c : Completion)
  | call
  /-- The thread takes its next step; `order` is the order in which a loop over
  `sessions_` meets its elements. -/
  | go (order : List A)

variable {T A : Type} [DecidableEq T] [DecidableEq A]

def Object.useCount (o : Object T) : Nat :=
  o.accepting.toNat + o.reading.toNat + o.writer.posted.length + o.writer.outstanding.length +
    o.holders.length

def Object.fresh (t : T) : Object T := ⟨true, false, false, .start, [t]⟩

/-- A pending handler is taken up; `on_read` starts the next read unless it
failed, `on_send` and `on_write` are those of the session's write side. -/
def Object.take (o : Object T) : Completion → Option (Object T)
  | .accept _ => if o.accepting then some { o with accepting := false } else none
  | .read ok => if o.reading then some { o with reading := ok } else none
  | .onSend => (WebSocketSession.step o.writer .runPosted).map fun s => { o with writer := s }
  | .onWrite ok =>
      (WebSocketSession.step o.writer (.written ok)).map fun s => { o with writer := s }

/-- `on_accept` without an error calls `join`. -/
def Completion.entry (i : SessionId) : Completion → Pc A
  | .accept true => .joinLock i
  | _ => .handler i

def After.pc : After → Pc A
  | .idle => .idle
  | .deliver caller m v => .deliver caller m v

def returnTo : Option SessionId → Pc A
  | none => .idle
  | some i => .handler i

namespace World

variable (w : World T A)

def goto (t : T) (p : Pc A) : World T A := { w with pc := Function.update w.pc t p }

def edit (i : SessionId) (o : Object T) : World T A :=
  { w with object := Function.update w.object i o }

def setCall (m : Broadcast) (c : Call SessionId) : World T A :=
  { w with calls := Function.update w.calls m c }

/-- A thread lets go of a session; the last one to do so runs its destructor,
which begins with `leave`. -/
def release (t : T) (i : SessionId) (busy : Bool) (after : After) : World T A :=
  let o := { w.object i with busy := busy, holders := (w.object i).holders.erase t }
  if o.useCount = 0 then ({ w.edit i o with heap := w.heap.die i }).goto t (.leaveLock i after)
  else (w.edit i o).goto t after.pc

def begin (t : T) (caller : Option SessionId) : World T A :=
  ({ w with begun := w.begun + 1 }.setCall w.begun
    { Call.blank with earlier := Broadcasts.finished w.begun w.calls }).goto t
      (.sendLock caller w.begun)

end World

def start : World T A :=
  ⟨.empty, fun _ => ⟨false, false, false, .start, []⟩, none, fun _ => .idle, 0,
    fun _ => .blank⟩

def go (w : World T A) (t : T) (order : List A) : Option (World T A) :=
  match w.pc t with
  | .idle => none
  | .making i => some (w.release t i (w.object i).busy .idle)
  | .handler i => some (w.release t i false .idle)
  | .joinLock i =>
      if w.mutex = none then some ({ w with mutex := some t }.goto t (.joinInsert i)) else none
  | .joinInsert i => some ({ w with heap := w.heap.join i }.goto t (.joinUnlock i))
  | .joinUnlock i => some ({ w with mutex := none }.goto t (.joined i))
  | .joined i => some ((w.edit i { w.object i with reading := true }).goto t (.handler i))
  | .sendLock caller m =>
      if w.mutex = none ∧ order.Perm w.heap.registry then
        some (({ w with mutex := some t }.setCall m
          { w.calls m with members := order.filterMap w.heap.memory }).goto t
            (.snapshot caller m order []))
      else none
  | .snapshot caller m (p :: todo) v =>
      -- `p->weak_from_this()` reads the session at `p`
      match w.heap.memory p with
      | some i => some (w.goto t (.snapshot caller m todo (v ++ [i])))
      | none => none
  | .snapshot caller m [] v =>
      some ({ w with mutex := none }.goto t (.deliver caller m v))
  | .deliver caller m (i :: v) =>
      if 0 < (w.object i).useCount then
        some (((w.edit i { w.object i with holders := t :: (w.object i).holders }).setCall m
          { w.calls m with checked := (w.calls m).checked ++ [(i, true)] }).goto t
            (.holding caller m i v))
      else
        some ((w.setCall m
          { w.calls m with checked := (w.calls m).checked ++ [(i, false)] }).goto t
            (.deliver caller m v))
  | .deliver caller m [] =>
      some ((w.setCall m { w.calls m with returned := true }).goto t (returnTo caller))
  | .holding caller m i v =>
      some ((w.edit i { w.object i with writer := (w.object i).writer.send m }).goto t
        (.posted caller m i v))
  | .posted caller m i v => some (w.release t i (w.object i).busy (.deliver caller m v))
  | .leaveLock i after =>
      if w.mutex = none then some ({ w with mutex := some t }.goto t (.leaveErase i after))
      else none
  | .leaveErase i after => some ({ w with heap := w.heap.leave i }.goto t (.leaveUnlock i after))
  | .leaveUnlock i after => some ({ w with mutex := none }.goto t (.free i after))
  | .free i after => some ({ w with heap := w.heap.free i }.goto t after.pc)

/-- One step of thread `a.1`. Handlers of one session do not overlap. -/
def step (w : World T A) (a : T × Action A) : Option (World T A) :=
  match w.pc a.1, a.2 with
  | .idle, .create i p =>
      if w.heap.life i = .unborn ∧ w.heap.memory p = none then
        some (({ w with heap := w.heap.create i p }.edit i (.fresh a.1)).goto a.1 (.making i))
      else none
  | .idle, .run i c =>
      if (w.object i).busy then none
      else ((w.object i).take c).map fun o =>
        (w.edit i { o with busy := true, holders := a.1 :: o.holders }).goto a.1 (c.entry i)
  | .idle, .call => some (w.begin a.1 none)
  | .handler i, .call => some (w.begin a.1 (some i))
  | _, .go order => go w a.1 order
  | _, _ => none

def Pc.last : Pc A → Option (SessionId × After)
  | .making i | .handler i => some (i, .idle)
  | .posted caller m i v => some (i, .deliver caller m v)
  | _ => none

/-- What a step of thread `t` can do, with what it has found. -/
inductive Moves (w : World T A) (t : T) : World T A → Prop
  | create {i : SessionId} {p : A} (at_pc : w.pc t = .idle) (unborn : w.heap.life i = .unborn)
      (unused : w.heap.memory p = none) :
      Moves w t (({ w with heap := w.heap.create i p }.edit i (.fresh t)).goto t (.making i))
  | run {i : SessionId} {c : Completion} {o : Object T} (at_pc : w.pc t = .idle)
      (strand : (w.object i).busy = false) (taken : (w.object i).take c = some o) :
      Moves w t ((w.edit i { o with busy := true, holders := t :: o.holders }).goto t (c.entry i))
  | call (caller : Option SessionId) (at_pc : w.pc t = returnTo caller) :
      Moves w t (w.begin t caller)
  | release {i : SessionId} {busy : Bool} {after : After}
      (at_pc : (w.pc t).last = some (i, after)) :
      Moves w t (w.release t i busy after)
  | joinLock {i : SessionId} (at_pc : w.pc t = .joinLock i) (free : w.mutex = none) :
      Moves w t ({ w with mutex := some t }.goto t (.joinInsert i))
  | joinInsert {i : SessionId} (at_pc : w.pc t = .joinInsert i) :
      Moves w t ({ w with heap := w.heap.join i }.goto t (.joinUnlock i))
  | joinUnlock {i : SessionId} (at_pc : w.pc t = .joinUnlock i) :
      Moves w t ({ w with mutex := none }.goto t (.joined i))
  | joined {i : SessionId} (at_pc : w.pc t = .joined i) :
      Moves w t ((w.edit i { w.object i with reading := true }).goto t (.handler i))
  | sendLock {caller : Option SessionId} {m : Broadcast} {order : List A}
      (at_pc : w.pc t = .sendLock caller m) (free : w.mutex = none)
      (all : order.Perm w.heap.registry) :
      Moves w t (({ w with mutex := some t }.setCall m
        { w.calls m with members := order.filterMap w.heap.memory }).goto t
          (.snapshot caller m order []))
  | snapshot {caller : Option SessionId} {m : Broadcast} {p : A} {todo : List A}
      {v : List SessionId} {i : SessionId} (at_pc : w.pc t = .snapshot caller m (p :: todo) v)
      (there : w.heap.memory p = some i) :
      Moves w t (w.goto t (.snapshot caller m todo (v ++ [i])))
  | sendUnlock {caller : Option SessionId} {m : Broadcast} {v : List SessionId}
      (at_pc : w.pc t = .snapshot caller m [] v) :
      Moves w t ({ w with mutex := none }.goto t (.deliver caller m v))
  | locked {caller : Option SessionId} {m : Broadcast} {i : SessionId} {v : List SessionId}
      (at_pc : w.pc t = .deliver caller m (i :: v)) (alive : 0 < (w.object i).useCount) :
      Moves w t (((w.edit i { w.object i with holders := t :: (w.object i).holders }).setCall m
        { w.calls m with checked := (w.calls m).checked ++ [(i, true)] }).goto t
          (.holding caller m i v))
  | expired {caller : Option SessionId} {m : Broadcast} {i : SessionId} {v : List SessionId}
      (at_pc : w.pc t = .deliver caller m (i :: v)) (gone : (w.object i).useCount = 0) :
      Moves w t ((w.setCall m
        { w.calls m with checked := (w.calls m).checked ++ [(i, false)] }).goto t
          (.deliver caller m v))
  | returned {caller : Option SessionId} {m : Broadcast} (at_pc : w.pc t = .deliver caller m []) :
      Moves w t ((w.setCall m { w.calls m with returned := true }).goto t (returnTo caller))
  | post {caller : Option SessionId} {m : Broadcast} {i : SessionId} {v : List SessionId}
      (at_pc : w.pc t = .holding caller m i v) :
      Moves w t ((w.edit i { w.object i with writer := (w.object i).writer.send m }).goto t
        (.posted caller m i v))
  | leaveLock {i : SessionId} {after : After} (at_pc : w.pc t = .leaveLock i after)
      (free : w.mutex = none) :
      Moves w t ({ w with mutex := some t }.goto t (.leaveErase i after))
  | leaveErase {i : SessionId} {after : After} (at_pc : w.pc t = .leaveErase i after) :
      Moves w t ({ w with heap := w.heap.leave i }.goto t (.leaveUnlock i after))
  | leaveUnlock {i : SessionId} {after : After} (at_pc : w.pc t = .leaveUnlock i after) :
      Moves w t ({ w with mutex := none }.goto t (.free i after))
  | free {i : SessionId} {after : After} (at_pc : w.pc t = .free i after) :
      Moves w t ({ w with heap := w.heap.free i }.goto t after.pc)

theorem go_moves {w w' : World T A} {t : T} {order : List A} (next : go w t order = some w') :
    Moves w t w' := by
  unfold go at next
  split at next
  case h_1 => cases next
  case h_2 i at_pc | h_3 i at_pc =>
    cases next
    exact .release (by rw [at_pc]; rfl)
  case h_4 i at_pc =>
    split_ifs at next with free
    cases next
    exact .joinLock at_pc free
  case h_5 i at_pc => cases next; exact .joinInsert at_pc
  case h_6 i at_pc => cases next; exact .joinUnlock at_pc
  case h_7 i at_pc => cases next; exact .joined at_pc
  case h_8 caller m at_pc =>
    split_ifs at next with free
    cases next
    exact .sendLock at_pc free.1 free.2
  case h_9 caller m p todo v at_pc =>
    split at next
    · cases next
      exact .snapshot at_pc ‹_›
    · cases next
  case h_10 caller m v at_pc => cases next; exact .sendUnlock at_pc
  case h_11 caller m i v at_pc =>
    split_ifs at next with alive
    · cases next
      exact .locked at_pc alive
    · cases next
      exact .expired at_pc (Nat.eq_zero_of_not_pos alive)
  case h_12 caller m at_pc => cases next; exact .returned at_pc
  case h_13 caller m i v at_pc => cases next; exact .post at_pc
  case h_14 caller m i v at_pc =>
    cases next
    exact .release (by rw [at_pc]; rfl)
  case h_15 i after at_pc =>
    split_ifs at next with free
    cases next
    exact .leaveLock at_pc free
  case h_16 i after at_pc => cases next; exact .leaveErase at_pc
  case h_17 i after at_pc => cases next; exact .leaveUnlock at_pc
  case h_18 i after at_pc => cases next; exact .free at_pc

theorem step_moves {w w' : World T A} {a : T × Action A} (next : step w a = some w') :
    Moves w a.1 w' := by
  obtain ⟨t, a⟩ := a
  unfold step at next
  split at next
  case h_1 i p at_pc _ =>
    split_ifs at next with unborn
    cases next
    exact .create at_pc unborn.1 unborn.2
  case h_2 i c at_pc _ =>
    split_ifs at next with busy
    simp only [Option.map_eq_some_iff] at next
    obtain ⟨o, taken, rfl⟩ := next
    exact .run at_pc (by simpa using busy) taken
  case h_3 at_pc _ =>
    cases next
    exact .call none at_pc
  case h_4 i at_pc _ =>
    cases next
    exact .call (some i) at_pc
  case h_5 => exact go_moves next
  case h_6 => cases next

theorem step_call {w w' : World T A} {t : T} (next : step w (t, .call) = some w') :
    ∃ caller, w' = w.begin t caller := by
  cases at_pc : w.pc t with
  | idle =>
    simp only [step, at_pc, Option.some.injEq] at next
    exact ⟨none, next.symm⟩
  | handler i =>
    simp only [step, at_pc, Option.some.injEq] at next
    exact ⟨some i, next.symm⟩
  | _ => simp [step, at_pc] at next

end Ccfolio.SharedState
