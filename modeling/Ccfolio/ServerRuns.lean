import Ccfolio.Listener
import Ccfolio.SessionProtocol
import Ccfolio.TableHistory

/-! The HTTP server as a whole: the listener, a session for each socket it has
accepted, and the worker threads, on which the handlers of different
connections interleave at every call that others can tell the place of. An
exception that leaves a handler ends the process; a signal stops the context,
and what is being handled then is still brought to its end. -/

namespace Ccfolio.ServerRuns

open Utf8 StdText Odb Programs Transitions Traces Pools Histories Calls LogService Http Controllers
  HttpSession UserService RequestScripts TokenProvenance SequentialAnswers TableHistory

abbrev Thread := Program Reply (Except Exception Unit × HttpResponse)

structure Handling where
  request : HttpRequest
  rest : Thread

structure Server where
  listener : Listener.State
  database : Database
  sessions : Nat → Option Session
  handling : Nat → Option Handling
  stopped : Bool

inductive Event where
  | accept (c : Listener.Completion) (env : Surroundings)
  /-- A request has been read that is no upgrade: its handler begins. -/
  | read (socket : Nat) (req : HttpRequest)
  /-- A turn of a handler. -/
  | turn (socket : Nat) (env : Surroundings)
  /-- Any other completion on a connection. -/
  | complete (socket : Nat) (c : Completion)
  | stop

section Step

variable (dep : Deployment) (isUpgrade : HttpRequest → Bool)

def start (env : Surroundings) (setup : Listener.Setup) (d : Database) : Server :=
  ⟨Listener.started dep env setup, d, fun _ => none, fun _ => none, false⟩

def Server.put (s : Server) (socket : Nat) (session : Session) (handling : Option Handling) :
    Server :=
  { s with
    sessions := Function.update s.sessions socket (some session)
    handling := Function.update s.handling socket handling }

def proceed (s : Server) (socket : Nat) (session : Session) (req : HttpRequest) :
    Thread → Option Server
  | .ret (.ok _, res) =>
      some (s.put socket
        ({ session with received := session.received ++ [req] }.asyncWrite ⟨req, res⟩) none)
  | .ret (.error _, _) => none
  | .call c next => some (s.put socket session (some ⟨req, .call c next⟩))

def plainRead : Completion → Bool
  | .read _ _ req => !isUpgrade req
  | _ => false

def step (s : Server) : Event → Option Server
  | .accept c env =>
      if s.stopped then none
      else
        match c.socket with
        | none => (Listener.step dep s.listener (c, env)).map fun l => { s with listener := l }
        | some socket =>
            if (s.sessions socket).isSome then none
            else (Listener.step dep s.listener (c, env)).map fun l =>
              { s.put socket .start none with listener := l }
  | .read socket req =>
      match s.sessions socket with
      | none => none
      | some session =>
          if s.stopped = false ∧ .read ∈ session.pending ∧ isUpgrade req = false then
            proceed s socket (session.complete .read) req (serving dep req)
          else none
  | .turn socket env =>
      match s.sessions socket, s.handling socket with
      | some session, some h =>
          let next := advance silent (handle env) h.rest s.database
          proceed { s with database := next.2 } socket session h.request next.1
      | _, _ => none
  | .complete socket c =>
      match s.sessions socket with
      | none => none
      | some session =>
          if s.stopped = false ∧ plainRead isUpgrade c = false then
            (HttpSession.step isUpgrade (httpRouter dep) session c).map fun session' =>
              s.put socket session' (s.handling socket)
          else none
  | .stop => some { s with stopped := true }

end Step

/-! The pool of the requests, as the server makes turns and begins requests. -/

section Served

variable {ι : Type} [DecidableEq ι] (dep : Deployment) (requests : ι → HttpRequest) (d : Database)
  (schedule : List (ι × Surroundings))

theorem served_turn (who : ι × Surroundings) :
    (served dep requests d (schedule ++ [who])).world.1 =
        (advance silent (handle who.2) ((served dep requests d schedule).threads who.1)
          (served dep requests d schedule).world.1).2 ∧
      (served dep requests d (schedule ++ [who])).threads =
        Function.update (served dep requests d schedule).threads who.1
          (advance silent (handle who.2) ((served dep requests d schedule).threads who.1)
            (served dep requests d schedule).world.1).1 := by
  have plain := advance_unrecorded silent (fun _ : ι => handle) who.1 who.2
    ((served dep requests d schedule).threads who.1) (served dep requests d schedule).world
  have last : served dep requests d (schedule ++ [who]) =
      turn silent (record fun _ => handle) (served dep requests d schedule) who := by
    simp [served, runPool]
  rw [last, ← plain.1, ← plain.2]
  exact ⟨rfl, rfl⟩

theorem served_update (i : ι) (req : HttpRequest) (idle : ∀ who ∈ schedule, who.1 ≠ i) :
    served dep (Function.update requests i req) d schedule =
      ⟨(served dep requests d schedule).world,
        Function.update (served dep requests d schedule).threads i (serving dep req)⟩ := by
  have threads : (fun j => serving dep (Function.update requests i req j)) =
      Function.update (fun j => serving dep (requests j)) i (serving dep req) := by
    funext j
    by_cases self : j = i
    · rw [self, Function.update_self, Function.update_self]
    · rw [Function.update_of_ne self, Function.update_of_ne self]
  unfold served
  rw [threads]
  exact runPool_update silent (record fun _ => handle)
    (p := ⟨(d, []), fun j => serving dep (requests j)⟩) (serving dep req) idle

theorem made_of_finished {i : ι} {u : Unit} {res : HttpResponse}
    (finished : (served dep requests d schedule).threads i = .ret (.ok u, res)) :
    ∃ env d' d'', run (handle env) (HttpSession.handleRequest (httpRouter dep) (requests i)) .default
      d' = (.ok (), res, d'') := by
  obtain ⟨scene, d', -, -, -, explained⟩ := exists_explanation dep requests d
    schedule i .calm
  obtain ⟨same, rfl⟩ := outcome_of_explains explained finished
  refine ⟨mix scene, d', (run (handle (mix scene))
    (HttpSession.handleRequest (httpRouter dep) (requests i)) .default d').2.2, ?_⟩
  revert same
  generalize run (handle (mix scene)) (HttpSession.handleRequest (httpRouter dep) (requests i))
    .default d' = o
  rcases o with ⟨e | v, t⟩
  · exact False.elim
  · exact fun _ => rfl

end Served

section Invariant

variable (dep : Deployment) (isUpgrade : HttpRequest → Bool) (d : Database)

/-- The connection is as a session alone would be, or as one that has read a
request and not yet got its response. -/
def Alone (session : Session) : Option Handling → Prop
  | none => Reachable (HttpSession.step isUpgrade (httpRouter dep)) .start session
  | some h => isUpgrade h.request = false ∧ ∃ before,
      Reachable (HttpSession.step isUpgrade (httpRouter dep)) .start before ∧
      .read ∈ before.pending ∧ session = before.complete .read

/-- The number a request has among those of its connection has come up. -/
def Begun (s : Server) (i : Nat × Nat) : Prop :=
  ∃ session, s.sessions i.1 = some session ∧
    (i.2 < session.received.length ∨ i.2 = session.received.length ∧ (s.handling i.1).isSome)

def answers (session : Session) : List Exchange :=
  session.written ++ SessionProtocol.writes session.pending

/-- The table and the handlers are those of a run of the requests alone. -/
structure Backed (requests : Nat × Nat → HttpRequest)
    (schedule : List ((Nat × Nat) × Surroundings)) (s : Server) : Prop where
  table : s.database = (served dep requests d schedule).world.1
  begun : ∀ w ∈ schedule, Begun s w.1
  received : ∀ socket session, s.sessions socket = some session →
    ∀ k req, session.received[k]? = some req → requests (socket, k) = req
  handling : ∀ socket session h, s.sessions socket = some session → s.handling socket = some h →
    requests (socket, session.received.length) = h.request ∧
      (served dep requests d schedule).threads (socket, session.received.length) = h.rest
  answered : ∀ socket session, s.sessions socket = some session →
    ∀ k x, (answers session)[k]? = some x → requests (socket, k) = x.request ∧
      (served dep requests d schedule).threads (socket, k) = .ret (.ok (), x.response)

structure Inv (s : Server) : Prop where
  alone : ∀ socket session, s.sessions socket = some session →
    Alone dep isUpgrade session (s.handling socket)
  opened : ∀ socket, (s.sessions socket).isSome = true ↔ socket ∈ s.listener.accepted
  backed : ∃ requests schedule, Backed dep d requests schedule s

end Invariant

section Put

variable {dep : Deployment} {isUpgrade : HttpRequest → Bool} {d : Database} {s : Server}
  {socket : Nat} {session : Session} {h : Option Handling}

@[simp] theorem put_sessions_self : (s.put socket session h).sessions socket = some session :=
  Function.update_self ..

@[simp] theorem put_handling_self : (s.put socket session h).handling socket = h :=
  Function.update_self ..

theorem put_put (session' : Session) (h' : Option Handling) :
    (s.put socket session h).put socket session' h' = s.put socket session' h' := by
  simp [Server.put]

theorem Begun.put {i : Nat × Nat} (begun : Begun s i) (d' : Database)
    (later : ∀ old, s.sessions socket = some old →
      old.received.length < session.received.length ∨
        old.received.length = session.received.length ∧
          ((s.handling socket).isSome = true → h.isSome = true)) :
    Begun ({ s with database := d' }.put socket session h) i := by
  obtain ⟨old, found, place⟩ := begun
  by_cases self : i.1 = socket
  · rw [self] at found place
    refine ⟨session, by simp [Server.put, self], ?_⟩
    have handling : ({ s with database := d' }.put socket session h).handling i.1 = h := by
      simp [Server.put, self]
    rw [handling]
    rcases later old found with longer | ⟨same, kept⟩
    · exact .inl (by rcases place with lt | ⟨eq, -⟩ <;> omega)
    · rcases place with lt | ⟨eq, busy⟩
      · exact .inl (by omega)
      · exact .inr ⟨by omega, kept busy⟩
  · exact ⟨old, by simpa [Server.put, self] using found, by simpa [Server.put, self] using place⟩

theorem Backed.put {requests requests' : Nat × Nat → HttpRequest}
    {schedule schedule' : List ((Nat × Nat) × Surroundings)}
    (backed : Backed dep d requests schedule s) {d' : Database}
    (table : d' = (served dep requests' d schedule').world.1)
    (later : ∀ old, s.sessions socket = some old →
      old.received.length < session.received.length ∨
        old.received.length = session.received.length ∧
          ((s.handling socket).isSome = true → h.isSome = true))
    (begun : ∀ w ∈ schedule', w ∈ schedule ∨ Begun s w.1)
    (others : ∀ other k, other ≠ socket → requests' (other, k) = requests (other, k) ∧
      (served dep requests' d schedule').threads (other, k) =
        (served dep requests d schedule).threads (other, k))
    (answered : ∀ k x, (answers session)[k]? = some x → requests' (socket, k) = x.request ∧
      (served dep requests' d schedule').threads (socket, k) = .ret (.ok (), x.response))
    (received : ∀ k req, session.received[k]? = some req → requests' (socket, k) = req)
    (handling : ∀ now, h = some now → requests' (socket, session.received.length) = now.request ∧
      (served dep requests' d schedule').threads (socket, session.received.length) = now.rest) :
    Backed dep d requests' schedule' ({ s with database := d' }.put socket session h) where
  table := table
  begun w mem := ((begun w mem).elim (backed.begun w) id).put d' later
  received other old found k req read := by
    by_cases self : other = socket
    · rw [self] at found ⊢
      obtain rfl : session = old := by simpa [Server.put] using found
      exact received k req read
    · rw [(others other k self).1]
      exact backed.received other old (by simpa [Server.put, self] using found) k req read
  handling other old now found busy := by
    by_cases self : other = socket
    · rw [self] at found busy ⊢
      obtain rfl : session = old := by simpa [Server.put] using found
      exact handling now (by simpa [Server.put] using busy)
    · obtain ⟨request, thread⟩ := others other old.received.length self
      rw [request, thread]
      exact backed.handling other old now (by simpa [Server.put, self] using found)
        (by simpa [Server.put, self] using busy)
  answered other old found k x written := by
    by_cases self : other = socket
    · rw [self] at found ⊢
      obtain rfl : session = old := by simpa [Server.put] using found
      exact answered k x written
    · rw [(others other k self).1, (others other k self).2]
      exact backed.answered other old (by simpa [Server.put, self] using found) k x written

theorem Inv.put (inv : Inv dep isUpgrade d s) (d' : Database) {l : Listener.State}
    (opened : ∀ other, other ∈ l.accepted ↔ other ∈ s.listener.accepted ∨ other = socket)
    (alone : Alone dep isUpgrade session h)
    (backed : ∃ requests schedule,
      Backed dep d requests schedule ({ s with database := d' }.put socket session h)) :
    Inv dep isUpgrade d ({ s with listener := l, database := d' }.put socket session h) where
  alone other old found := by
    by_cases self : other = socket
    · rw [self] at found ⊢
      obtain rfl : session = old := by simpa [Server.put] using found
      simpa [Server.put] using alone
    · have before := inv.alone other old (by simpa [Server.put, self] using found)
      simpa [Server.put, self] using before
  opened other := by
    change _ ↔ other ∈ l.accepted
    rw [opened other, ← inv.opened other]
    by_cases self : other = socket
    · simp [Server.put, self]
    · simp [Server.put, self]
  backed := by
    obtain ⟨requests, schedule, b⟩ := backed
    exact ⟨requests, schedule, b.table, b.begun, b.received, b.handling, b.answered⟩

theorem Inv.go (inv : Inv dep isUpgrade d s) (d' : Database) {old : Session}
    (found : s.sessions socket = some old) (alone : Alone dep isUpgrade session h)
    (backed : ∃ requests schedule,
      Backed dep d requests schedule ({ s with database := d' }.put socket session h)) :
    Inv dep isUpgrade d ({ s with database := d' }.put socket session h) :=
  inv.put d' (l := s.listener) (fun other => by
    have member := (inv.opened socket).mp (by rw [found]; rfl)
    exact ⟨.inl, fun h => h.elim id fun eq => eq ▸ member⟩) alone backed

theorem Alone.idle {now : Handling} (alone : Alone dep isUpgrade session (some now)) :
    session.pending = [] := by
  obtain ⟨-, before, reached, mem, rfl⟩ := alone
  exact complete_pending ((reachable_inv reached).pending mem)

theorem Alone.free (alone : Alone dep isUpgrade session h) {o : Operation}
    (mem : o ∈ session.pending) : h = none := by
  cases h with
  | none => rfl
  | some now =>
    rw [alone.idle] at mem
    cases mem

theorem answers_idle (idle : session.pending = []) : answers session = session.written := by
  simp [answers, idle, SessionProtocol.writes]

theorem answers_asyncRead (idle : session.pending = []) :
    answers session.asyncRead = session.written := by
  simp [answers, Session.asyncRead, idle, SessionProtocol.writes]

theorem answers_asyncWrite {x : Exchange} (idle : session.pending = []) :
    answers (session.asyncWrite x) = session.written ++ [x] := by
  simp [answers, Session.asyncWrite, idle, SessionProtocol.writes]

theorem answers_reading
    (reached : Reachable (HttpSession.step isUpgrade (httpRouter dep)) .start session)
    (mem : .read ∈ session.pending) :
    answers session = session.written ∧ answers (session.complete .read) = session.written ∧
      session.received.length = session.written.length := by
  have inv := reachable_inv reached
  have only := inv.pending mem
  have order := inv.order (inv.live (by simp [only])).2.1
  refine ⟨?_, answers_idle (complete_pending only), ?_⟩
  · simp [answers, only, SessionProtocol.writes]
  · rw [order, only]
    simp [waiting]

end Put

section Steps

variable {dep : Deployment} {isUpgrade : HttpRequest → Bool} {d : Database} {s s' : Server}
  {socket : Nat} {session : Session} {req : HttpRequest} {env : Surroundings}

theorem Backed.idle {requests : Nat × Nat → HttpRequest}
    {schedule : List ((Nat × Nat) × Surroundings)} (backed : Backed dep d requests schedule s)
    (found : s.sessions socket = some session) (free : s.handling socket = none) :
    ∀ w ∈ schedule, w.1 ≠ (socket, session.received.length) := by
  intro w mem eq
  obtain ⟨old, found', place⟩ := backed.begun w mem
  rw [eq] at found' place
  obtain rfl : session = old := Option.some.inj (found.symm.trans found')
  simp [free] at place

theorem inv_read (inv : Inv dep isUpgrade d s) (found : s.sessions socket = some session)
    (mem : .read ∈ session.pending) (plain : isUpgrade req = false) :
    Inv dep isUpgrade d
      (s.put socket (session.complete .read) (some ⟨req, serving dep req⟩)) := by
  have alone := inv.alone socket session found
  have free := alone.free mem
  rw [free] at alone
  obtain ⟨requests, schedule, backed⟩ := inv.backed
  have idle := backed.idle found free
  obtain ⟨before, now, length⟩ := answers_reading alone mem
  have pool := served_update dep requests d schedule (socket, session.received.length) req idle
  refine inv.go s.database found ⟨plain, session, alone, mem, rfl⟩
    ⟨Function.update requests (socket, session.received.length) req, schedule,
      backed.put ?_ ?_ (fun _ => .inl) ?_ ?_ ?_ ?_⟩
  · rw [pool]
    exact backed.table
  · intro old found'
    obtain rfl : session = old := Option.some.inj (found.symm.trans found')
    exact .inr ⟨rfl, fun _ => rfl⟩
  · intro other k apart
    have ne : (other, k) ≠ (socket, session.received.length) :=
      fun eq => apart (congrArg Prod.fst eq)
    rw [pool]
    exact ⟨Function.update_of_ne ne .., Function.update_of_ne ne ..⟩
  · intro k x written
    rw [now] at written
    have lt : k < session.written.length := (List.getElem?_eq_some_iff.mp written).1
    have ne : (socket, k) ≠ (socket, session.received.length) :=
      fun eq => Nat.ne_of_lt (length ▸ lt) (congrArg Prod.snd eq)
    rw [pool, Function.update_of_ne ne]
    change requests (socket, k) = _ ∧ Function.update _ _ _ _ = _
    rw [Function.update_of_ne ne]
    exact backed.answered socket session found k x (before ▸ written)
  · intro k old read
    have lt : k < session.received.length := (List.getElem?_eq_some_iff.mp read).1
    rw [Function.update_of_ne (fun eq => Nat.ne_of_lt lt (congrArg Prod.snd eq))]
    exact backed.received socket session found k old read
  · rintro now ⟨⟩
    rw [pool]
    exact ⟨Function.update_self .., Function.update_self ..⟩

theorem inv_turn (inv : Inv dep isUpgrade d s) (found : s.sessions socket = some session)
    {now : Handling} (busy : s.handling socket = some now) :
    Inv dep isUpgrade d
      ({ s with database := (advance silent (handle env) now.rest s.database).2 }.put socket session
        (some ⟨now.request, (advance silent (handle env) now.rest s.database).1⟩)) := by
  have alone := inv.alone socket session found
  rw [busy] at alone
  obtain ⟨requests, schedule, backed⟩ := inv.backed
  obtain ⟨request, thread⟩ := backed.handling socket session now found busy
  obtain ⟨table, threads⟩ :=
    served_turn dep requests d schedule ((socket, session.received.length), env)
  rw [thread, ← backed.table] at table threads
  refine inv.go _ found alone
    ⟨requests, schedule ++ [((socket, session.received.length), env)],
      backed.put table.symm ?_ ?_ ?_ ?_ (backed.received socket session found) ?_⟩
  · intro old found'
    obtain rfl : session = old := Option.some.inj (found.symm.trans found')
    exact .inr ⟨rfl, fun _ => rfl⟩
  · intro w mem
    refine (List.mem_append.mp mem).imp_right fun last => ?_
    rw [List.mem_singleton.mp last]
    exact ⟨session, found, .inr ⟨rfl, by rw [busy]; rfl⟩⟩
  · intro other k apart
    rw [threads]
    exact ⟨rfl, Function.update_of_ne (fun eq => apart (congrArg Prod.fst eq)) ..⟩
  · intro k x written
    have before := backed.answered socket session found k x written
    obtain ⟨-, reading, reached, mem, rfl⟩ := alone
    obtain ⟨-, same, length⟩ := answers_reading reached mem
    rw [same] at written
    have lt : k < reading.written.length := (List.getElem?_eq_some_iff.mp written).1
    rw [threads, Function.update_of_ne]
    · exact before
    · exact fun eq => Nat.ne_of_lt (length ▸ lt) (congrArg Prod.snd eq)
  · rintro now' ⟨⟩
    rw [threads]
    exact ⟨request, Function.update_self ..⟩

theorem inv_answer (inv : Inv dep isUpgrade d s) (found : s.sessions socket = some session)
    {now : Handling} (busy : s.handling socket = some now) {u : Unit} {res : HttpResponse}
    (returned : now.rest = .ret (.ok u, res)) :
    Inv dep isUpgrade d (s.put socket
      ({ session with received := session.received ++ [now.request] }.asyncWrite
        ⟨now.request, res⟩) none) := by
  have alone := inv.alone socket session found
  rw [busy] at alone
  obtain ⟨plain, before, reached, mem, rfl⟩ := alone
  obtain ⟨requests, schedule, backed⟩ := inv.backed
  obtain ⟨request, thread⟩ := backed.handling socket _ now found busy
  obtain ⟨env, d', d'', made⟩ := made_of_finished dep requests d schedule (thread.trans returned)
  rw [request] at made
  have next : HttpSession.step isUpgrade (httpRouter dep) before (.read env d' now.request) =
      some ({ before.complete .read with
        received := (before.complete .read).received ++ [now.request] }.asyncWrite
          ⟨now.request, res⟩) := by
    simp [HttpSession.step, Completion.operation, mem, callback, plain, made]
  refine inv.go s.database found (reachable_step reached next)
    ⟨requests, schedule, backed.put backed.table ?_ (fun _ => .inl) (fun _ _ _ => ⟨rfl, rfl⟩) ?_
      ?_ fun next none => ?_⟩
  · intro old found'
    obtain rfl := Option.some.inj (found.symm.trans found')
    refine .inl ?_
    change _ < ((before.complete .read).received ++ [now.request]).length
    simp
  · intro k x written
    obtain ⟨-, same, length⟩ := answers_reading reached mem
    have after : answers ({ before.complete .read with
        received := (before.complete .read).received ++ [now.request] }.asyncWrite
          ⟨now.request, res⟩) = before.written ++ [⟨now.request, res⟩] :=
      answers_asyncWrite (complete_pending ((reachable_inv reached).pending mem))
    rw [after, List.getElem?_append] at written
    split_ifs at written with early
    · exact backed.answered socket _ found k x (same ▸ written)
    · obtain ⟨k, rfl⟩ : ∃ j, k = before.written.length + j :=
        Nat.exists_eq_add_of_le (Nat.le_of_not_lt early)
      cases k with
      | zero =>
        obtain rfl : ⟨now.request, res⟩ = x := by simpa using written
        rw [Nat.add_zero, ← length]
        exact ⟨request, thread.trans returned⟩
      | succ k => simp at written
  · intro k old read
    change ((before.complete .read).received ++ [now.request])[k]? = some old at read
    rw [List.getElem?_append] at read
    split_ifs at read with early
    · exact backed.received socket _ found k old read
    · obtain ⟨k, rfl⟩ : ∃ j, k = (before.complete .read).received.length + j :=
        Nat.exists_eq_add_of_le (Nat.le_of_not_lt early)
      cases k with
      | zero =>
        rw [Nat.add_zero]
        exact request.trans (by simpa using read)
      | succ k => simp at read
  · cases none

theorem inv_proceed {t : Thread}
    (inv : Inv dep isUpgrade d (s.put socket session (some ⟨req, t⟩)))
    (next : proceed s socket session req t = some s') : Inv dep isUpgrade d s' := by
  cases t with
  | call c rest =>
    cases next
    exact inv
  | ret out =>
    obtain ⟨e | u, res⟩ := out
    · cases next
    · cases next
      have answered := inv_answer inv put_sessions_self put_handling_self rfl
      rw [put_put] at answered
      exact answered

theorem received_of_other {c : Completion} {session' : Session}
    (other : plainRead isUpgrade c = false)
    (next : HttpSession.step isUpgrade (httpRouter dep) session c = some session') :
    session'.received = session.received := by
  unfold HttpSession.step at next
  split_ifs at next
  cases c with
  | read env d req =>
    have upgrade : isUpgrade req = true := by simpa [plainRead] using other
    rw [callback, if_pos upgrade] at next
    cases next
    rfl
  | endOfStream | readError | writeError =>
    cases next
    rfl
  | write x =>
    cases next
    unfold Session.onWrite
    split_ifs <;> rfl

theorem answers_of_other {c : Completion} {session' : Session}
    (only : session.pending = [c.operation]) (other : plainRead isUpgrade c = false)
    (next : HttpSession.step isUpgrade (httpRouter dep) session c = some session') :
    answers session' <+: answers session := by
  have idle := complete_pending only
  unfold HttpSession.step at next
  rw [if_pos (by simp [only])] at next
  have ended : ∀ last : Session, last.pending = [] → last.written = session.written →
      answers last <+: answers session := fun last empty same => by
    rw [answers_idle empty, same]
    exact List.prefix_append ..
  cases c with
  | read env d req =>
    have upgrade : isUpgrade req = true := by simpa [plainRead] using other
    rw [callback, if_pos upgrade] at next
    cases next
    exact ended _ idle rfl
  | endOfStream | readError | writeError =>
    cases next
    exact ended _ idle rfl
  | write x =>
    cases next
    have before : answers session = session.written ++ [x] := by
      rw [answers, only]
      rfl
    rw [before, Session.onWrite]
    split_ifs
    · rw [answers_idle (by exact idle)]
      exact List.prefix_refl _
    · rw [Session.doRead, answers_asyncRead (by exact idle)]
      exact List.prefix_refl _

theorem inv_complete (inv : Inv dep isUpgrade d s) (found : s.sessions socket = some session)
    {c : Completion} (other : plainRead isUpgrade c = false) {session' : Session}
    (next : HttpSession.step isUpgrade (httpRouter dep) session c = some session') :
    Inv dep isUpgrade d (s.put socket session' (s.handling socket)) := by
  have alone := inv.alone socket session found
  have outstanding : c.operation ∈ session.pending := by
    unfold HttpSession.step at next
    split_ifs at next with mem
    exact mem
  have free := alone.free outstanding
  rw [free] at alone ⊢
  obtain ⟨requests, schedule, backed⟩ := inv.backed
  have received := received_of_other other next
  refine inv.go s.database found (reachable_step alone next)
    ⟨requests, schedule, backed.put backed.table ?_ (fun _ => .inl) (fun _ _ _ => ⟨rfl, rfl⟩) ?_
      ?_ nofun⟩
  · intro old found'
    obtain rfl : session = old := Option.some.inj (found.symm.trans found')
    exact .inr ⟨by rw [received], fun busy => by rw [free] at busy; exact busy⟩
  · intro k x written
    have early := answers_of_other ((reachable_inv alone).pending outstanding) other next
    refine backed.answered socket session found k x ?_
    obtain ⟨more, eq⟩ := early
    rw [← eq, List.getElem?_append_left (List.getElem?_eq_some_iff.mp written).1]
    exact written
  · rw [received]
    exact backed.received socket session found

theorem accepted_of_step {l l' : Listener.State} {c : Listener.Completion}
    (next : Listener.step dep l (c, env) = some l') :
    l'.accepted = l.accepted ++ c.socket.toList := by
  unfold Listener.step at next
  split_ifs at next
  cases c with
  | accepted socket =>
    cases next
    rfl
  | failed ec =>
    simp only [Listener.onAccept,
      Listener.run_fail ec (by decide : isUtf8 (lit "accept") = true)] at next
    cases next
    rfl

theorem inv_accept (inv : Inv dep isUpgrade d s) {c : Listener.Completion}
    (next : step dep isUpgrade s (.accept c env) = some s') : Inv dep isUpgrade d s' := by
  simp only [step] at next
  split_ifs at next
  cases made : c.socket with
  | none =>
    rw [made] at next
    obtain ⟨l, listened, rfl⟩ := Option.map_eq_some_iff.mp next
    have accepted := accepted_of_step listened
    rw [made, Option.toList_none, List.append_nil] at accepted
    obtain ⟨requests, schedule, b⟩ := inv.backed
    exact ⟨inv.alone, fun other => accepted ▸ inv.opened other,
      requests, schedule, b.table, b.begun, b.received, b.handling, b.answered⟩
  | some socket =>
    simp only [made] at next
    split_ifs at next with fresh
    obtain ⟨l, listened, rfl⟩ := Option.map_eq_some_iff.mp next
    have accepted := accepted_of_step listened
    rw [made] at accepted
    have unused : s.sessions socket = none := by simpa using fresh
    obtain ⟨requests, schedule, backed⟩ := inv.backed
    refine inv.put s.database (l := l) (fun other => by simp [accepted])
      ⟨[], rfl⟩ ⟨requests, schedule, backed.put backed.table ?_ (fun _ => .inl)
        (fun _ _ _ => ⟨rfl, rfl⟩) nofun nofun nofun⟩
    intro old found
    rw [unused] at found
    cases found

theorem inv_step (inv : Inv dep isUpgrade d s) {e : Event}
    (next : step dep isUpgrade s e = some s') : Inv dep isUpgrade d s' := by
  cases e with
  | accept c env => exact inv_accept inv next
  | read socket req =>
    simp only [step] at next
    split at next
    · cases next
    next session found =>
      split_ifs at next with may
      exact inv_proceed (inv_read inv found may.2.1 may.2.2) next
  | turn socket env =>
    simp only [step] at next
    split at next
    next session now found busy =>
      refine inv_proceed ?_ next
      exact inv_turn inv found busy
    · cases next
  | complete socket c =>
    simp only [step] at next
    split at next
    · cases next
    next session found =>
      split_ifs at next with may
      obtain ⟨session', stepped, rfl⟩ := Option.map_eq_some_iff.mp next
      exact inv_complete inv found may.2 stepped
  | stop =>
    cases next
    obtain ⟨requests, schedule, b⟩ := inv.backed
    exact ⟨inv.alone, inv.opened, requests, schedule, b.table, b.begun, b.received, b.handling,
      b.answered⟩

theorem accepted_started (dep : Deployment) (env : Surroundings) (setup : Listener.Setup) :
    (Listener.started dep env setup).accepted = [] := by
  unfold Listener.started Listener.construct
  split
  next ec _ =>
    simp only [run_bind, Listener.run_fail ec (by decide : isUtf8 (lit "open") = true)]
    rfl
  next ec _ _ =>
    simp only [run_bind, Listener.run_fail ec (by decide : isUtf8 (lit "set_option") = true)]
    rfl
  next ec _ _ _ =>
    simp only [run_bind, Listener.run_fail ec (by decide : isUtf8 (lit "bind") = true)]
    rfl
  next ec _ _ _ _ =>
    simp only [run_bind, Listener.run_fail ec (by decide : isUtf8 (lit "listen") = true)]
    rfl
  next => rfl

theorem inv_start (dep : Deployment) (isUpgrade : HttpRequest → Bool) (env : Surroundings)
    (setup : Listener.Setup) (d : Database) :
    Inv dep isUpgrade d (start dep env setup d) where
  alone := nofun
  opened socket := by
    change _ ↔ socket ∈ (Listener.started dep env setup).accepted
    rw [accepted_started]
    simp [start]
  backed := ⟨fun _ => ⟨[], [], 11, false, [], []⟩, [], rfl, nofun, nofun, nofun, nofun⟩

theorem inv_reached {setup : Listener.Setup}
    (reached : Reachable (step dep isUpgrade) (start dep env setup d) s) :
    Inv dep isUpgrade d s :=
  reachable_invariant _ (fun _ _ _ inv next => inv_step inv next)
    (inv_start dep isUpgrade env setup d) reached

end Steps

section Rows

variable {ι : Type} [DecidableEq ι] {dep : Deployment} {requests : ι → HttpRequest} {d : Database}
  {schedule : List (ι × Surroundings)}

def storedBy (x : Entry ι Surroundings Database Reply) : Option (ι × User) :=
  (storedRow x).map (x.who, ·)

omit [DecidableEq ι] in
theorem mem_storedBy {log : Log ι} {i : ι} {row : User} :
    (i, row) ∈ log.filterMap storedBy ↔ ∃ x ∈ log, x.who = i ∧ storedRow x = some row := by
  simp [storedBy, List.mem_filterMap]
  grind

omit [DecidableEq ι] in
theorem rows_storedBy (log : Log ι) :
    (log.filterMap storedBy).map Prod.snd = log.filterMap storedRow := by
  rw [List.map_filterMap]
  refine List.filterMap_congr fun x _ => ?_
  cases stored : storedRow x <;> simp [storedBy, stored]

theorem count_storedBy (i : ι) (log : Log ι) :
    ((log.filterMap storedBy).map Prod.fst).count i = ((own i log).filterMap storedRow).length := by
  induction log with
  | nil => rfl
  | cons x log ih =>
    by_cases mine : x.who = i
    · have here : own i (x :: log) = x :: own i log := by simp [own, mine]
      cases stored : storedRow x with
      | none => simpa [storedBy, stored, here] using ih
      | some row => simpa [storedBy, stored, here, mine] using ih
    · have there : own i (x :: log) = own i log := by simp [own, mine]
      cases stored : storedRow x with
      | none => simpa [storedBy, stored, there] using ih
      | some row => simpa [storedBy, stored, there, List.count_cons, mine] using ih

theorem storedBy_nodup :
    (((history dep requests d schedule).filterMap storedBy).map Prod.fst).Nodup := by
  refine List.nodup_iff_count_le_one.mpr fun i => ?_
  rw [count_storedBy]
  exact stored_once i

end Rows

/-- The request that connection `i.1` has read as its `i.2`-th. -/
def RequestAt (s : Server) (i : Nat × Nat) (req : HttpRequest) : Prop :=
  ∃ session, s.sessions i.1 = some session ∧
    (session.received[i.2]? = some req ∨ i.2 = session.received.length ∧
      ∃ now, s.handling i.1 = some now ∧ now.request = req)

theorem Backed.requestAt {dep : Deployment} {d : Database} {s : Server}
    {requests : Nat × Nat → HttpRequest} {schedule : List ((Nat × Nat) × Surroundings)}
    (backed : Backed dep d requests schedule s) {i : Nat × Nat} (begun : Begun s i) :
    RequestAt s i (requests i) := by
  obtain ⟨socket, k⟩ := i
  obtain ⟨session, found, place⟩ := begun
  refine ⟨session, found, place.imp (fun lt => ?_) fun ⟨eq, busy⟩ => ⟨eq, ?_⟩⟩
  · have read := List.getElem?_eq_getElem lt
    rw [backed.received socket session found k _ read]
    exact read
  · obtain ⟨now, busy⟩ := Option.isSome_iff_exists.mp busy
    refine ⟨now, busy, ?_⟩
    simp only at eq
    rw [eq]
    exact (backed.handling socket session now found busy).1.symm

def annEvents : List Event :=
  [.accept (.accepted 0) .calm, .accept (.accepted 1) .calm, .read 0 (annRequests 0)] ++
    List.replicate 6 (.turn 0 .calm) ++
    [.complete 0 (.write ⟨annRequests 0, annGreeted⟩), .read 1 (annRequests 1), .turn 1 later,
      .stop]

def annStart : Server := start CredentialMap.reading .calm .succeeded .empty

def annServer : Server :=
  (drive (step CredentialMap.reading fun _ => false) annStart annEvents).getD annStart

set_option maxRecDepth 4000 in
theorem annReached :
    Reachable (step CredentialMap.reading fun _ => false) annStart annServer :=
  ⟨annEvents, rfl⟩

/-- Every reachable state of the server is made of sessions as they are alone and of one run of the
requests read. -/
theorem server_runs (dep : Deployment) (isUpgrade : HttpRequest → Bool) (env : Surroundings)
    (setup : Listener.Setup) (d : Database) (s : Server)
    (reached : Reachable (step dep isUpgrade) (start dep env setup d) s) :
    (∃ requests schedule, Backed dep d requests schedule s) ∧
      ∀ socket, (socket ∈ s.listener.accepted ↔ (s.sessions socket).isSome = true) ∧
        ∀ session, s.sessions socket = some session →
          Alone dep isUpgrade session (s.handling socket) := by
  have inv := inv_reached reached
  exact ⟨inv.backed, fun socket => ⟨(inv.opened socket).symm, inv.alone socket⟩⟩

set_option maxRecDepth 4000 in
theorem server_runs_ann : annServer.listener.accepted = [0, 1] ∧
    annServer.database.rows.map (·.username) = [lit "ann"] ∧
    (∃ requests schedule, Backed CredentialMap.reading .empty requests schedule annServer) ∧
    ∀ socket session, annServer.sessions socket = some session →
      Alone CredentialMap.reading (fun _ => false) session (annServer.handling socket) := by
  obtain ⟨backed, alone⟩ := server_runs CredentialMap.reading (fun _ => false) .calm .succeeded
    .empty annServer annReached
  exact ⟨rfl, rfl, backed, fun socket => (alone socket).2⟩

/-- Each new row belongs to one registration read on a connection, and each acknowledged one has
its row. -/
theorem table_of_connections (dep : Deployment) (isUpgrade : HttpRequest → Bool)
    (env : Surroundings) (setup : Listener.Setup) (d : Database) (s : Server)
    (reached : Reachable (step dep isUpgrade) (start dep env setup d) s) :
    ∃ stored : List ((Nat × Nat) × User),
      s.database.rows = d.rows ++ stored.map Prod.snd ∧
      (stored.map Prod.fst).Nodup ∧
      (stored.map Prod.snd).Pairwise (fun a b => a.id < b.id) ∧
      (∀ i row, (i, row) ∈ stored → i.1 ∈ s.listener.accepted ∧ ∃ req password,
        RequestAt s i req ∧ posts "/user/create" req ∧
          credentials dep req.body = .ok (row.username, password)) ∧
      ∀ socket session k x, s.sessions socket = some session → session.written[k]? = some x →
        posts "/user/create" x.request → Acknowledges x.response →
          ∃ row password, ((socket, k), row) ∈ stored ∧
            credentials dep x.request.body = .ok (row.username, password) := by
  have inv := inv_reached reached
  obtain ⟨requests, schedule, backed⟩ := inv.backed
  have registered : ∀ x ∈ history dep requests d schedule, ∀ row, storedRow x = some row →
      posts "/user/create" (requests x.who) ∧
        ∃ password, credentials dep (requests x.who).body = .ok (row.username, password) :=
    fun x mem row stored => by
      obtain ⟨first, last, eq⟩ := List.append_of_mem mem
      have known := registered eq stored
      obtain ⟨password, -, -, asked, -⟩ := known.made
      exact ⟨known.route, password, asked⟩
  refine ⟨(history dep requests d schedule).filterMap storedBy, ?_, storedBy_nodup, ?_, ?_, ?_⟩
  · rw [backed.table, rows_history, rows_storedBy]
  · rw [rows_storedBy]
    exact ids_increase.1
  · intro i row mem
    obtain ⟨x, inside, rfl, stored⟩ := mem_storedBy.mp mem
    obtain ⟨route, password, asked⟩ := registered x inside row stored
    have turned := (scenes_run schedule _ x inside).resolve_left List.not_mem_nil
    have begun := backed.begun _ turned
    have ⟨session, found, _⟩ := begun
    exact ⟨(inv.opened _).mp (by rw [found]; rfl), _, password, backed.requestAt begun, route,
      asked⟩
  · intro socket session k x found written route acknowledged
    have answer : (answers session)[k]? = some x := by
      rw [answers, List.getElem?_append_left (List.getElem?_eq_some_iff.mp written).1]
      exact written
    obtain ⟨request, thread⟩ := backed.answered socket session found k x answer
    rw [← request] at route ⊢
    obtain ⟨y, inside, who, row, stored⟩ := stored_of_acknowledged route thread acknowledged
    obtain ⟨-, password, asked⟩ := registered y inside row stored
    rw [who] at asked
    exact ⟨row, password, mem_storedBy.mpr ⟨y, inside, who, stored⟩, asked⟩

set_option maxRecDepth 4000 in
theorem table_of_connections_ann : ∃ row password,
    row ∈ annServer.database.rows ∧
      credentials CredentialMap.reading (annRequests 0).body = .ok (row.username, password) := by
  obtain ⟨stored, rows, -, -, -, kept⟩ := table_of_connections CredentialMap.reading
    (fun _ => false) .calm .succeeded .empty annServer annReached
  obtain ⟨row, password, mem, asked⟩ := kept 0 _ 0 ⟨annRequests 0, annGreeted⟩ rfl rfl ⟨rfl, rfl⟩
    ⟨rfl, rfl⟩
  refine ⟨row, password, ?_, asked⟩
  rw [rows]
  exact List.mem_append_right _ (List.mem_map_of_mem mem)

end Ccfolio.ServerRuns
