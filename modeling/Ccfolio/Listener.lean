import Ccfolio.LogService
import Ccfolio.Transitions

/-! `Listener`: its constructor, `run()` and the completions of the accepts it
starts. Nothing but a completion starts the next accept. -/

namespace Ccfolio.Listener

open Utf8 StdText Odb Programs Transitions Calls LogService

/-- The message of any other error is the system's, in ASCII. -/
inductive ErrorCode where
  | operationAborted
  | other (message : Text)
  deriving DecidableEq

structure Serving where
  socket : Nat
  starts : Nat
  deriving DecidableEq, Repr

def Serving.run (x : Serving) : Serving := { x with starts := x.starts + 1 }

/-- Whether the acceptor listens and the accepts outstanding on it; then, as a
record of the run, the sockets accepted and the sessions made. -/
structure State where
  listening : Bool
  outstanding : Nat
  accepted : List Nat
  sessions : List Serving
  deriving DecidableEq, Repr

namespace State

def unopened : State := ⟨false, 0, [], []⟩

def asyncAccept (s : State) : State := { s with outstanding := s.outstanding + 1 }

/-- `make_shared<HttpSession>(socket, ..)->run()`. -/
def serve (socket : Nat) (s : State) : State :=
  { s with sessions := s.sessions ++ [Serving.run ⟨socket, 0⟩] }

def run (s : State) : State := s.asyncAccept

end State

inductive Completion where
  | accepted (socket : Nat)
  | failed (ec : ErrorCode)
  deriving DecidableEq

def Completion.socket : Completion → Option Nat
  | .accepted socket => some socket
  | .failed _ => none

structure Setup where
  opened : Option ErrorCode
  setOption : Option ErrorCode
  bound : Option ErrorCode
  listened : Option ErrorCode

def Setup.succeeded : Setup := ⟨none, none, none, none⟩

section Callbacks

variable {τ : Type} (dep : Deployment)

def failSite : Site := ⟨"listener.cc", 54, "fail", by decide⟩

def fail (ec : ErrorCode) (what : String) : App τ Unit :=
  match ec with
  | .operationAborted => pure ()
  | .other message => log dep .ERROR (lit what ++ lit ": " ++ message.val) failSite

def construct (setup : Setup) : App State Unit :=
  match setup.opened, setup.setOption, setup.bound, setup.listened with
  | some ec, _, _, _ => fail dep ec "open"
  | none, some ec, _, _ => fail dep ec "set_option"
  | none, none, some ec, _ => fail dep ec "bind"
  | none, none, none, some ec => fail dep ec "listen"
  | none, none, none, none => modify fun s => { s with listening := true }

def onAccept (c : Completion) : App State Unit :=
  match c with
  -- the early return: the accept below both branches is not started again
  | .failed ec => fail dep ec "accept"
  | .accepted socket => do
      modify (·.serve socket)
      modify (·.asyncAccept)

/-- The state `run()` leaves after the constructor. -/
def started (env : Surroundings) (setup : Setup) : State :=
  (run (handle env) (do
    construct dep setup
    modify State.run) .unopened .empty).2.1

/-- An outstanding accept completes and its callback runs; one that throws ends
the process. -/
def step (s : State) (c : Completion × Surroundings) : Option State :=
  if s.outstanding = 0 then none
  else
    match run (handle c.2) (onAccept dep c.1)
      { s with
        outstanding := s.outstanding - 1
        accepted := s.accepted ++ c.1.socket.toList } .empty with
    | (.ok _, s', _) => some s'
    | (.error _, _, _) => none

end Callbacks

/-- One accept is outstanding, and every socket accepted is that of one session,
which was started once. -/
structure Accepting (s : State) : Prop where
  single : s.outstanding = 1
  served : s.sessions.map (·.socket) = s.accepted
  once : ∀ x ∈ s.sessions, x.starts = 1

variable {dep : Deployment} {s : State} {env : Surroundings}

theorem run_fail {τ : Type} (ec : ErrorCode) {what : String} (plain : isUtf8 (lit what) = true)
    (t : τ) (d : Database) :
    run (handle env) (fail dep ec what : App τ Unit) t d = (.ok (), t, d) := by
  cases ec with
  | operationAborted => rfl
  | other message =>
    have utf8 : isUtf8 (lit what ++ lit ": " ++ message.val) = true :=
      isUtf8_append (isUtf8_append plain (by decide)) message.property
    rw [fail, run_log, logThen_utf8 dep env .ERROR failSite utf8]

theorem step_accepted (accepting : Accepting s) (socket : Nat) :
    step dep s (.accepted socket, env) =
      some ⟨s.listening, 1, s.accepted ++ [socket], s.sessions ++ [⟨socket, 1⟩]⟩ := by
  rw [step, if_neg (by rw [accepting.single]; exact Nat.one_ne_zero), accepting.single]
  rfl

theorem step_failed (accepting : Accepting s) (ec : ErrorCode) :
    step dep s (.failed ec, env) = some { s with outstanding := 0 } := by
  rw [step, if_neg (by rw [accepting.single]; exact Nat.one_ne_zero), accepting.single]
  simp only [onAccept, run_fail ec (by decide : isUtf8 (lit "accept") = true), Completion.socket,
    Option.toList_none, List.append_nil, Nat.sub_self]

theorem step_keeps {c : Completion × Surroundings} {s' : State} (accepting : Accepting s)
    (good : c.1.socket.isSome = true) (taken : step dep s c = some s') : Accepting s' := by
  obtain ⟨socket | ec, env⟩ := c
  · rw [step_accepted accepting] at taken
    cases taken
    refine ⟨rfl, ?_, fun x mem => ?_⟩
    · simp [accepting.served]
    · rcases List.mem_append.mp mem with old | new
      · exact accepting.once x old
      · rw [List.mem_singleton.mp new]
  · cases good

theorem accepting_started (dep : Deployment) (env : Surroundings) :
    Accepting (started dep env .succeeded) := ⟨rfl, rfl, nofun⟩

theorem accepted_of_cleared {cs : List (Completion × Surroundings)} (accepting : Accepting s)
    (clear : Cleared (step dep) (fun _ c => c.1.socket.isSome = true) s cs) :
    ∀ c ∈ cs, c.1.socket.isSome = true := by
  induction cs generalizing s with
  | nil => exact nofun
  | cons c cs ih =>
    obtain ⟨good, rest⟩ := clear
    obtain ⟨s', taken⟩ : ∃ s', step dep s c = some s' := by
      obtain ⟨socket | ec, env⟩ := c
      · exact ⟨_, step_accepted accepting socket⟩
      · exact ⟨_, step_failed accepting ec⟩
    exact List.forall_mem_cons.mpr ⟨good, ih (step_keeps accepting good taken) (rest s' taken)⟩

/-- The listener goes on accepting exactly as long as no accept fails. -/
theorem keeps_accepting_iff (dep : Deployment) (env : Surroundings)
    (cs : List (Completion × Surroundings)) :
    (∀ before s, before <+: cs → drive (step dep) (started dep env .succeeded) before = some s →
      Accepting s) ↔ ∀ c ∈ cs, c.1.socket.isSome = true := by
  have start := accepting_started dep env
  have keep : ∀ s (c : Completion × Surroundings) s', Accepting s → c.1.socket.isSome = true →
      step dep s c = some s' → Accepting s' := fun _ _ _ now good taken => step_keeps now good taken
  constructor
  · intro always
    by_contra failed
    obtain ⟨before, c, after, middle, rfl, run, clear, bad⟩ :=
      exists_of_not_cleared (step dep) (mt (accepted_of_cleared start) failed)
    obtain ⟨socket | ec, env'⟩ := c
    · exact bad rfl
    · have last : drive (step dep) (started dep env .succeeded) (before ++ [(.failed ec, env')]) =
          some { middle with outstanding := 0 } := by
        rw [drive_append, run, Option.bind_some, drive_cons,
          step_failed (cleared_invariant (step dep) keep start clear run)]
        rfl
      have early : before ++ [(.failed ec, env')] <+: before ++ (.failed ec, env') :: after := by
        simp
      cases (always _ _ early last).single
  · intro good before s early run
    refine cleared_invariant (step dep) keep start ?_ run
    exact cleared_of_forall _ fun c mem _ => good c (early.subset mem)

theorem accepts_no_more : ¬ ∀ before s,
    before <+: [(Completion.failed (.other ⟨lit "Too many open files", by decide⟩),
      Surroundings.calm)] →
    drive (step .refusing) (started .refusing .calm .succeeded) before = some s → Accepting s := by
  intro always
  cases (always _ _ (List.prefix_refl _) rfl).single

end Ccfolio.Listener
