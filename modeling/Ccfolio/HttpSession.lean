import Ccfolio.Controllers
import Ccfolio.Framing

/-! `handle_request` and the callbacks of `HttpSession`: what each completion
of an asynchronous operation on the stream starts next. Timeouts and the body
limit reach the session as read errors. A handler that throws ends the
process, so such a completion has no next state. -/

namespace Ccfolio.HttpSession

open Utf8 StdText Odb Programs Transitions Framing Calls LogService Http Controllers

def handleRequest (router : Router) (req : HttpRequest) : App HttpResponse Unit := do
  modify fun res => { res with version := req.version }
  modify fun res => { res with keepAlive := req.keepAlive }
  if !(← router.handleRequest req) then
    respond .notFound "text/plain" (.ok (lit "Not Found"))

theorem run_handleRequest (router : Router) (env : Surroundings) (d : Database)
    (req : HttpRequest) :
    run (handle env) (handleRequest router req) .default d =
      andThen (run (handle env) (router.handleRequest req) (.initial req) d) fun routed res d =>
        (.ok (),
          if routed then res else res.filled .notFound "text/plain" (lit "Not Found"), d) := by
  unfold handleRequest
  simp only [run_bind, run_modify, andThen_ok]
  change andThen (run (handle env) (router.handleRequest req) (.initial req) d) _ = _
  rcases run (handle env) (router.handleRequest req) (.initial req) d with ⟨e | routed, res, d'⟩
  · rfl
  · cases routed <;> rfl

structure Exchange where
  request : HttpRequest
  response : HttpResponse
  deriving DecidableEq, Repr

inductive Operation where
  | read
  | write (x : Exchange)
  deriving DecidableEq, Repr

/-- The operations outstanding on the stream; then, as a record of the run, the
parsers used, the requests read, the exchanges whose response is written, the
bytes sent, and the upgrade requests whose socket went to a WebSocket. -/
structure Session where
  pending : List Operation
  parsers : Nat
  received : List HttpRequest
  written : List Exchange
  wire : List (Octet HttpResponse UInt8)
  handed : List HttpRequest
  /-- The sending side is shut down. -/
  shut : Bool
  /-- A write has completed with an error. -/
  broken : Bool

def header (res : HttpResponse) : HttpResponse := { res with body := [] }

def message (x : Exchange) : Message HttpResponse UInt8 :=
  ⟨header x.response, x.response.body, x.request.method = lit "HEAD"⟩

namespace Session

def asyncRead (s : Session) : Session := { s with pending := s.pending ++ [.read] }

def asyncWrite (x : Exchange) (s : Session) : Session :=
  { s with pending := s.pending ++ [.write x] }

def complete (o : Operation) (s : Session) : Session := { s with pending := s.pending.erase o }

def shutdown (s : Session) : Session := { s with shut := true }

def doRead (s : Session) : Session := { s with parsers := s.parsers + 1 }.asyncRead

def onWrite (close : Bool) (s : Session) : Session := if close then s.shutdown else s.doRead

/-- The session `run()` leaves. -/
def start : Session := Session.doRead ⟨[], 0, [], [], [], [], false, false⟩

end Session

/-- How an outstanding operation completes. A failed write has sent some part
of its message. -/
inductive Completion where
  | read (env : Surroundings) (d : Database) (req : HttpRequest)
  | endOfStream
  | readError
  | write (x : Exchange)
  | writeError (x : Exchange) (sent : Nat)

def Completion.operation : Completion → Operation
  | .read .. | .endOfStream | .readError => .read
  | .write x | .writeError x _ => .write x

section Step

variable (isUpgrade : HttpRequest → Bool) (router : Router)

def callback (s : Session) : Completion → Option Session
  | .read env d req =>
      if isUpgrade req then some { s with handed := s.handed ++ [req] }
      else
        match run (handle env) (handleRequest router req) .default d with
        | (.ok _, res, _) =>
            some ({ s with received := s.received ++ [req] }.asyncWrite ⟨req, res⟩)
        | (.error _, _, _) => none
  | .endOfStream => some s.shutdown
  | .readError => some s
  | .write x =>
      some ({ s with
        written := s.written ++ [x]
        wire := s.wire ++ emit (message x) }.onWrite x.response.needEof)
  | .writeError x sent =>
      some { s with wire := s.wire ++ (emit (message x)).take sent, broken := true }

def step (s : Session) (c : Completion) : Option Session :=
  if c.operation ∈ s.pending then callback isUpgrade router (s.complete c.operation) c else none

/-- The response is what the router's handlers made of the request. -/
def Made (x : Exchange) : Prop :=
  ∃ env d d', run (handle env) (handleRequest router x.request) .default d =
    (.ok (), x.response, d')

def waiting : List Operation → List HttpRequest
  | [] => []
  | .read :: rest => waiting rest
  | .write x :: rest => x.request :: waiting rest

structure Inv (s : Session) : Prop where
  single : s.pending.length ≤ 1
  live : s.pending ≠ [] →
    s.shut = false ∧ s.broken = false ∧ ∀ x ∈ s.written, x.response.needEof = false
  made : ∀ x, x ∈ s.written ∨ .write x ∈ s.pending → Made router x
  kept : ∀ x ∈ s.written.dropLast, x.response.needEof = false
  ended : ∀ x ∈ s.written, x.response.needEof = true → s.shut = true
  order : s.broken = false → s.received = s.written.map (·.request) ++ waiting s.pending
  sent : s.broken = false → s.wire = (s.written.map message).flatMap emit

theorem inv_start : Inv router .start where
  single := le_rfl
  live _ := ⟨rfl, rfl, nofun⟩
  made x h := by
    rcases h with h | h <;> simp [Session.start, Session.doRead, Session.asyncRead] at h
  kept := nofun
  ended := nofun
  order _ := rfl
  sent _ := rfl

variable {isUpgrade router} {s s' : Session}

theorem Inv.pending (inv : Inv router s) {o : Operation} (mem : o ∈ s.pending) :
    s.pending = [o] := by
  have single := inv.single
  match list : s.pending with
  | [] => simp [list] at mem
  | [p] => simpa [list, eq_comm] using mem
  | _ :: _ :: _ => simp [list] at single

theorem complete_pending {o : Operation} (only : s.pending = [o]) :
    (s.complete o).pending = [] := by
  simp [Session.complete, only]

theorem Inv.stop (inv : Inv router s) {o : Operation} (only : s.pending = [o])
    (idle : s'.pending = []) (written : s'.written = s.written)
    (order : s'.broken = false → s'.received = s.received ∧ waiting s.pending = [])
    (wire : s'.broken = false → s'.wire = s.wire) : Inv router s' := by
  obtain ⟨-, whole, clear⟩ := inv.live (by simp [only])
  refine ⟨by simp [idle], by simp [idle], ?_, ?_, ?_, ?_, ?_⟩
  · intro x h
    rw [written, idle] at h
    exact inv.made x (.inl (h.resolve_right nofun))
  · rw [written]
    exact inv.kept
  · rw [written]
    intro x mem closes
    rw [clear x mem] at closes
    cases closes
  · intro unbroken
    obtain ⟨received, none⟩ := order unbroken
    have before := inv.order whole
    rw [none] at before
    rw [received, written, idle, before]
    rfl
  · intro unbroken
    rw [wire unbroken, written]
    exact inv.sent whole

theorem Inv.answer (inv : Inv router s) (only : s.pending = [.read]) {x : Exchange}
    (made : Made router x) :
    Inv router ({ s.complete .read with received := s.received ++ [x.request] }.asyncWrite x) := by
  obtain ⟨opened, whole, clear⟩ := inv.live (by simp [only])
  have order := inv.order whole
  have pending : ((s.complete .read).asyncWrite x).pending = [.write x] := by
    simp [Session.asyncWrite, complete_pending only]
  refine ⟨pending ▸ le_rfl, fun _ => ⟨opened, whole, clear⟩, ?_, inv.kept, inv.ended, ?_,
    inv.sent⟩
  · rintro y (old | new)
    · exact inv.made y (.inl old)
    · have inside : Operation.write y ∈ ((s.complete .read).asyncWrite x).pending := new
      rw [pending] at inside
      obtain rfl : y = x := by simpa using inside
      exact made
  · intro _
    change s.received ++ [x.request] = s.written.map (·.request) ++
      waiting ((s.complete .read).asyncWrite x).pending
    rw [order, pending, only]
    simp [waiting]

theorem Inv.onWrite (inv : Inv router s) {x : Exchange} (only : s.pending = [.write x]) :
    Inv router ({ s.complete (.write x) with
      written := s.written ++ [x]
      wire := s.wire ++ emit (message x) }.onWrite x.response.needEof) := by
  obtain ⟨opened, whole, clear⟩ := inv.live (by simp [only])
  have idle := complete_pending only
  have made : ∀ y ∈ s.written ++ [x], Made router y := fun y h => by
    rcases List.mem_append.mp h with old | new
    · exact inv.made y (.inl old)
    · exact inv.made y (.inr (by rw [only, List.mem_singleton.mp new]; simp))
  have sent : s.wire ++ emit (message x) = ((s.written ++ [x]).map message).flatMap emit := by
    simp [inv.sent whole]
  have received : s.received = (s.written ++ [x]).map (·.request) := by
    rw [inv.order whole, only]
    simp [waiting]
  cases close : x.response.needEof with
  | true =>
    refine ⟨by simp [Session.onWrite, Session.shutdown, idle], fun busy => absurd idle busy, ?_,
      ?_, fun _ _ _ => rfl, ?_, fun _ => sent⟩
    · rintro y (old | new)
      · exact made y old
      · have inside : Operation.write y ∈ (s.complete (.write x)).pending := new
        rw [idle] at inside
        cases inside
    · exact fun y h => clear y (by simpa [Session.onWrite, Session.shutdown] using h)
    · intro _
      change s.received = (s.written ++ [x]).map (·.request) ++
        waiting (s.complete (.write x)).pending
      rw [idle, received]
      simp [waiting]
  | false =>
    have pending : ((s.complete (.write x)).onWrite false).pending = [.read] := by
      simp [Session.onWrite, Session.doRead, Session.asyncRead, idle]
    have never : ∀ y ∈ s.written ++ [x], y.response.needEof = false := fun y h => by
      rcases List.mem_append.mp h with old | new
      · exact clear y old
      · exact List.mem_singleton.mp new ▸ close
    refine ⟨pending ▸ le_rfl, fun _ => ⟨opened, whole, never⟩, ?_, ?_, ?_, ?_, fun _ => sent⟩
    · rintro y (old | new)
      · exact made y old
      · have inside : Operation.write y ∈ ((s.complete (.write x)).onWrite false).pending := new
        rw [pending] at inside
        simp at inside
    · exact fun y h => never y (List.mem_of_mem_dropLast h)
    · intro y h closes
      rw [never y h] at closes
      cases closes
    · intro _
      change s.received = (s.written ++ [x]).map (·.request) ++
        waiting ((s.complete (.write x)).onWrite false).pending
      rw [pending, received]
      simp [waiting]

theorem inv_step (inv : Inv router s) {c : Completion}
    (next : step isUpgrade router s c = some s') : Inv router s' := by
  unfold step at next
  split_ifs at next with mem
  have only := inv.pending mem
  have idle := complete_pending only
  cases c with
  | read env d req =>
    simp only [callback] at next
    split_ifs at next with upgrade
    · cases next
      exact inv.stop only idle rfl (fun _ => ⟨rfl, by rw [only]; rfl⟩) fun _ => rfl
    · split at next
      next res d' ran =>
        cases next
        exact inv.answer only (x := ⟨req, res⟩) ⟨env, d, d', ran⟩
      · cases next
  | endOfStream =>
    cases next
    exact inv.stop only idle rfl (fun _ => ⟨rfl, by rw [only]; rfl⟩) fun _ => rfl
  | readError =>
    cases next
    exact inv.stop only idle rfl (fun _ => ⟨rfl, by rw [only]; rfl⟩) fun _ => rfl
  | write x =>
    cases next
    exact inv.onWrite only
  | writeError x n =>
    cases next
    exact inv.stop only idle rfl nofun nofun

theorem reachable_inv (h : Reachable (step isUpgrade router) .start s) : Inv router s :=
  reachable_invariant _ (fun _ _ _ inv next => inv_step inv next) (inv_start router) h

end Step

end Ccfolio.HttpSession
