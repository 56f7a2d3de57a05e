import Ccfolio.Transitions
import Mathlib.Logic.Function.Basic

/-! The threads of `LogService`: callers of `log` from the push on, the worker in
`processMessages` and the destructor, one step at a time, on any number of
threads. An entry stands for the text `log` has dumped. A wait may also end by
itself. -/

namespace Ccfolio.LogWorker

open Transitions

inductive Caller (β : Type) where
  | idle
  | lock (logEntry : β)
  | push (logEntry : β)
  | unlock
  | notify
  deriving DecidableEq, Repr

inductive Worker (β : Type) where
  /-- `while (running` -/
  | testRunning
  /-- `|| !messageQueue.empty())` -/
  | testQueue
  | lock
  /-- The predicate of the wait is evaluated next. -/
  | predicate
  /-- It was false: the mutex is released, and the thread asleep, in one step. -/
  | sleep
  | asleep
  /-- The wait is over; it returns with the mutex. -/
  | woken
  /-- `while (!messageQueue.empty())`, and the pop. -/
  | drain
  | unlock (msg : β)
  | write (msg : β)
  | relock
  | release
  | returned
  deriving DecidableEq, Repr

/-- Only a thread already asleep hears a notification. -/
def Worker.hear {β : Type} : Worker β → Worker β
  | .asleep => .woken
  | p => p

inductive Destructor where
  | outside
  | notify
  | join
  | close
  | done
  deriving DecidableEq, Repr

inductive Holder (ι : Type) where
  | worker
  | caller (i : ι)
  deriving DecidableEq, Repr

/-- The fields of the service and the threads; then, as a record of the run, the
entries pushed and those in the log file. -/
structure Service (ι β : Type) where
  running : Bool
  messageQueue : List β
  queueMutex : Option (Holder ι)
  /-- `logFile.is_open()`. -/
  logFile : Bool
  worker : Worker β
  caller : ι → Caller β
  destructor : Destructor
  pushed : List β
  written : List β

inductive Turn (ι β : Type) where
  | log (i : ι) (logEntry : β)
  | caller (i : ι)
  | worker
  /-- A wait ends without a notification. -/
  | wake
  | destroy
  deriving DecidableEq, Repr

variable {ι β : Type} [DecidableEq ι]

/-- What the constructor leaves; the file may have failed to open. -/
def start (logFile : Bool) : Service ι β :=
  ⟨true, [], none, logFile, .testRunning, fun _ => .idle, .outside, [], []⟩

namespace Service

variable (s : Service ι β)

def setCaller (i : ι) (c : Caller β) : Service ι β :=
  { s with caller := Function.update s.caller i c }

def notifyOne : Service ι β := { s with worker := s.worker.hear }

end Service

def callerStep (s : Service ι β) (i : ι) : Option (Service ι β) :=
  match s.caller i with
  | .idle => none
  | .lock logEntry =>
      if s.queueMutex = none then
        some ({ s with queueMutex := some (.caller i) }.setCaller i (.push logEntry))
      else none
  | .push logEntry =>
      some ({ s with
        messageQueue := s.messageQueue ++ [logEntry]
        pushed := s.pushed ++ [logEntry] }.setCaller i .unlock)
  | .unlock => some ({ s with queueMutex := none }.setCaller i .notify)
  | .notify => some (s.notifyOne.setCaller i .idle)

def workerStep (s : Service ι β) : Option (Service ι β) :=
  match s.worker with
  | .testRunning => some { s with worker := if s.running then .lock else .testQueue }
  | .testQueue => some { s with worker := if s.messageQueue.isEmpty then .returned else .lock }
  | .lock =>
      if s.queueMutex = none then
        some { s with queueMutex := some .worker, worker := .predicate }
      else none
  | .predicate =>
      some { s with worker := if !s.running || !s.messageQueue.isEmpty then .drain else .sleep }
  | .sleep => some { s with queueMutex := none, worker := .asleep }
  | .asleep => none
  | .woken =>
      if s.queueMutex = none then
        some { s with queueMutex := some .worker, worker := .predicate }
      else none
  | .drain =>
    match s.messageQueue with
    | [] => some { s with worker := .release }
    | msg :: rest => some { s with messageQueue := rest, worker := .unlock msg }
  | .unlock msg => some { s with queueMutex := none, worker := .write msg }
  | .write msg =>
      some { s with
        written := if s.logFile then s.written ++ [msg] else s.written
        worker := .relock }
  | .relock =>
      if s.queueMutex = none then some { s with queueMutex := some .worker, worker := .drain }
      else none
  | .release => some { s with queueMutex := none, worker := .testRunning }
  | .returned => none

/-- The next step of the destructor; `join` waits for the worker. -/
def destructorStep (s : Service ι β) : Option (Service ι β) :=
  match s.destructor with
  | .outside => some { s with running := false, destructor := .notify }
  | .notify => some { s.notifyOne with destructor := .join }
  | .join =>
    match s.worker with
    | .returned => some { s with destructor := .close }
    | _ => none
  | .close => some { s with logFile := false, destructor := .done }
  | .done => none

def step (s : Service ι β) : Turn ι β → Option (Service ι β)
  | .log i logEntry =>
    match s.caller i with
    | .idle => some (s.setCaller i (.lock logEntry))
    | _ => none
  | .caller i => callerStep s i
  | .worker => workerStep s
  | .wake =>
    match s.worker with
    | .asleep => some { s with worker := .woken }
    | _ => none
  | .destroy => destructorStep s

/-- Where a test takes the worker. -/
inductive Turns (s : Service ι β) : Worker β → Worker β → Prop
  | more (up : s.running = true) : Turns s .testRunning .lock
  | last (down : s.running = false) : Turns s .testRunning .testQueue
  | again (filled : s.messageQueue ≠ []) : Turns s .testQueue .lock
  | leave (empty : s.messageQueue = []) : Turns s .testQueue .returned
  | ready (due : s.running = false ∨ s.messageQueue ≠ []) : Turns s .predicate .drain
  | wait (up : s.running = true) (empty : s.messageQueue = []) : Turns s .predicate .sleep
  | drained (empty : s.messageQueue = []) : Turns s .drain .release

/-- Where the worker waits for the mutex, and where it goes on with it. -/
inductive Takes : Worker β → Worker β → Prop
  | lock : Takes .lock .predicate
  | woken : Takes .woken .predicate
  | relock : Takes .relock .drain

/-- Where the worker lets go of the mutex. -/
inductive Leaves : Worker β → Worker β → Prop
  | sleep : Leaves .sleep .asleep
  | unlock (msg : β) : Leaves (.unlock msg) (.write msg)
  | release : Leaves .release .testRunning

/-- What a step can do, with what it has found. -/
inductive Moves (s : Service ι β) : Turn ι β → Service ι β → Prop
  | call {i : ι} {e : β} (point : s.caller i = .idle) :
      Moves s (.log i e) (s.setCaller i (.lock e))
  | lock {i : ι} {e : β} (point : s.caller i = .lock e) (free : s.queueMutex = none) :
      Moves s (.caller i) ({ s with queueMutex := some (.caller i) }.setCaller i (.push e))
  | push {i : ι} {e : β} (point : s.caller i = .push e) :
      Moves s (.caller i) ({ s with
        messageQueue := s.messageQueue ++ [e]
        pushed := s.pushed ++ [e] }.setCaller i .unlock)
  | unlock {i : ι} (point : s.caller i = .unlock) :
      Moves s (.caller i) ({ s with queueMutex := none }.setCaller i .notify)
  | notify {i : ι} (point : s.caller i = .notify) :
      Moves s (.caller i) (s.notifyOne.setCaller i .idle)
  | turn {p : Worker β} (turns : Turns s s.worker p) : Moves s .worker { s with worker := p }
  | take {p : Worker β} (takes : Takes s.worker p) (free : s.queueMutex = none) :
      Moves s .worker { s with queueMutex := some .worker, worker := p }
  | leave {p : Worker β} (leaves : Leaves s.worker p) :
      Moves s .worker { s with queueMutex := none, worker := p }
  | pop {msg : β} {rest : List β} (point : s.worker = .drain)
      (filled : s.messageQueue = msg :: rest) :
      Moves s .worker { s with messageQueue := rest, worker := .unlock msg }
  | write {msg : β} (point : s.worker = .write msg) :
      Moves s .worker { s with
        written := if s.logFile then s.written ++ [msg] else s.written
        worker := .relock }
  | wake (point : s.worker = .asleep) : Moves s .wake { s with worker := .woken }
  | stop (point : s.destructor = .outside) :
      Moves s .destroy { s with running := false, destructor := .notify }
  | tell (point : s.destructor = .notify) :
      Moves s .destroy { s.notifyOne with destructor := .join }
  | join (point : s.destructor = .join) (returned : s.worker = .returned) :
      Moves s .destroy { s with destructor := .close }
  | close (point : s.destructor = .close) :
      Moves s .destroy { s with logFile := false, destructor := .done }

theorem callerStep_moves {s s' : Service ι β} {i : ι} (next : callerStep s i = some s') :
    Moves s (.caller i) s' := by
  unfold callerStep at next
  split at next
  case h_1 => cases next
  case h_2 e point =>
    split_ifs at next with free
    cases next
    exact .lock point free
  case h_3 e point => cases next; exact .push point
  case h_4 point => cases next; exact .unlock point
  case h_5 point => cases next; exact .notify point

theorem workerStep_moves {s s' : Service ι β} (next : workerStep s = some s') :
    Moves s .worker s' := by
  unfold workerStep at next
  split at next
  case h_1 point =>
    cases next
    refine .turn (point ▸ ?_)
    cases up : s.running with
    | true => exact .more up
    | false => exact .last up
  case h_2 point =>
    cases next
    refine .turn (point ▸ ?_)
    cases queue : s.messageQueue with
    | nil => exact .leave queue
    | cons e rest => exact .again (by simp [queue])
  case h_3 point | h_7 point | h_11 point =>
    split_ifs at next with free
    cases next
    exact .take (point ▸ by constructor) free
  case h_4 point =>
    cases next
    refine .turn (point ▸ ?_)
    cases up : s.running with
    | false => exact .ready (.inl up)
    | true =>
      cases queue : s.messageQueue with
      | nil => exact .wait up queue
      | cons e rest => exact .ready (.inr (by simp [queue]))
  case h_5 point | h_9 point | h_12 point =>
    cases next
    exact .leave (point ▸ by constructor)
  case h_6 | h_13 => cases next
  case h_8 point =>
    split at next
    next empty =>
      cases next
      exact .turn (point ▸ .drained empty)
    next filled =>
      cases next
      exact .pop point filled
  case h_10 point => cases next; exact .write point

theorem destructorStep_moves {s s' : Service ι β} (next : destructorStep s = some s') :
    Moves s .destroy s' := by
  unfold destructorStep at next
  split at next
  case h_1 point => cases next; exact .stop point
  case h_2 point => cases next; exact .tell point
  case h_3 point =>
    split at next
    next returned =>
      cases next
      exact .join point returned
    · cases next
  case h_4 point => cases next; exact .close point
  case h_5 => cases next

theorem step_moves {s s' : Service ι β} {a : Turn ι β} (next : step s a = some s') :
    Moves s a s' := by
  cases a with
  | log i e =>
    simp only [step] at next
    split at next
    next point =>
      cases next
      exact .call point
    · cases next
  | caller i => exact callerStep_moves next
  | worker => exact workerStep_moves next
  | wake =>
    simp only [step] at next
    split at next
    next point =>
      cases next
      exact .wake point
    · cases next
  | destroy => exact destructorStep_moves next

end Ccfolio.LogWorker
