import Ccfolio.HttpSession

/-! The operations `HttpSession` starts on its stream, in their order: one at a
time, a write for each request read, and none after the session has ended. -/

namespace Ccfolio.SessionProtocol

open Utf8 Transitions Calls Odb Http HttpSession

structure Record where
  session : Session
  started : List Operation

def writes : List Operation → List Exchange
  | [] => []
  | .read :: rest => writes rest
  | .write x :: rest => x :: writes rest

theorem writes_append (first last : List Operation) :
    writes (first ++ last) = writes first ++ writes last := by
  induction first with
  | nil => rfl
  | cons o first ih => cases o <;> simp [writes, ih]

variable (isUpgrade : HttpRequest → Bool) (router : Router)

/-- A callback starts what is outstanding after it and was not before. -/
def next (r : Record) (c : Completion) : Option Record :=
  (step isUpgrade router r.session c).map fun s =>
    ⟨s, r.started ++ s.pending.diff (r.session.complete c.operation).pending⟩

def opened : Record := ⟨.start, Session.start.pending⟩

/-- After these the session is over: an upgrade, the end of the stream, an
error, a response that ends with the stream. -/
def ends : Completion → Bool
  | .read _ _ req => isUpgrade req
  | .endOfStream | .readError | .writeError _ _ => true
  | .write x => x.response.needEof

structure Orderly (r : Record) : Prop where
  single : r.session.pending.length ≤ 1
  answered : (writes r.started).map (·.request) = r.session.received
  computed : ∀ x ∈ writes r.started, Made router x
  complete : .read ∈ r.session.pending → r.session.written = writes r.started
  fresh : r.session.parsers = r.started.count .read
  ended : ∀ c r', next isUpgrade router r c = some r' → ends isUpgrade c = true →
    ∀ cs r'', drive (next isUpgrade router) r' cs = some r'' → r''.started = r.started
  handed : ∀ env d req r', isUpgrade req = true →
    next isUpgrade router r (.read env d req) = some r' → r'.session.handed = [req]
  once : r.session.handed.length ≤ 1

structure Inv (r : Record) : Prop where
  base : HttpSession.Inv router r.session
  answered : (writes r.started).map (·.request) = r.session.received
  computed : ∀ x ∈ writes r.started, Made router x
  complete : r.session.pending ≠ [] →
    r.session.written ++ writes r.session.pending = writes r.started
  fresh : r.session.parsers = r.started.count .read
  kept : r.session.pending ≠ [] → r.session.handed = []
  once : r.session.handed.length ≤ 1

theorem inv_opened : Inv router opened where
  base := inv_start router
  answered := rfl
  computed := nofun
  complete _ := rfl
  fresh := rfl
  kept _ := rfl
  once := Nat.zero_le _

variable {isUpgrade router} {r r' : Record} {c : Completion}

theorem next_some (inv : Inv router r) (h : next isUpgrade router r c = some r') :
    r.session.pending = [c.operation] ∧ HttpSession.Inv router r'.session ∧
      callback isUpgrade router (r.session.complete c.operation) c = some r'.session ∧
      r'.started = r.started ++ r'.session.pending := by
  obtain ⟨s, stepped, rfl⟩ := Option.map_eq_some_iff.mp h
  have base := inv_step inv.base stepped
  unfold step at stepped
  split_ifs at stepped with mem
  have only := inv.base.pending mem
  exact ⟨only, base, stepped, by rw [complete_pending only, List.diff_nil]⟩

theorem drive_idle (idle : r.session.pending = []) {cs : List Completion} {r'' : Record}
    (run : drive (next isUpgrade router) r cs = some r'') : r'' = r := by
  cases cs with
  | nil =>
    cases run
    rfl
  | cons c cs => simp [drive_cons, next, step, idle] at run

theorem Inv.stop (inv : Inv router r) (base : HttpSession.Inv router r'.session)
    (idle : r'.session.pending = []) (started : r'.started = r.started ++ r'.session.pending)
    (received : r'.session.received = r.session.received)
    (parsers : r'.session.parsers = r.session.parsers)
    (once : r'.session.handed.length ≤ 1) : Inv router r' := by
  rw [idle, List.append_nil] at started
  refine ⟨base, ?_, ?_, fun busy => absurd idle busy, ?_, fun busy => absurd idle busy, once⟩
  · rw [started, received]
    exact inv.answered
  · rw [started]
    exact inv.computed
  · rw [started, parsers]
    exact inv.fresh

theorem Inv.answer (inv : Inv router r) (base : HttpSession.Inv router r'.session)
    (only : r.session.pending = [.read]) {x : Exchange} (made : Made router x)
    (pending : r'.session.pending = [.write x])
    (started : r'.started = r.started ++ r'.session.pending)
    (received : r'.session.received = r.session.received ++ [x.request])
    (written : r'.session.written = r.session.written)
    (parsers : r'.session.parsers = r.session.parsers)
    (handed : r'.session.handed = r.session.handed) : Inv router r' := by
  have busy : r.session.pending ≠ [] := by simp [only]
  have complete := inv.complete busy
  rw [only] at complete
  have now : writes r'.started = writes r.started ++ [x] := by
    rw [started, pending, writes_append]
    rfl
  refine ⟨base, ?_, ?_, fun _ => ?_, ?_, fun _ => handed ▸ inv.kept busy, handed ▸ inv.once⟩
  · rw [now, received, ← inv.answered]
    simp
  · rw [now]
    simpa [or_imp, forall_and] using ⟨inv.computed, made⟩
  · rw [now, pending, written, ← complete]
    simp [writes]
  · rw [started, pending, parsers, inv.fresh]
    simp

theorem Inv.again (inv : Inv router r) (base : HttpSession.Inv router r'.session) {x : Exchange}
    (only : r.session.pending = [.write x]) (pending : r'.session.pending = [.read])
    (started : r'.started = r.started ++ r'.session.pending)
    (received : r'.session.received = r.session.received)
    (written : r'.session.written = r.session.written ++ [x])
    (parsers : r'.session.parsers = r.session.parsers + 1)
    (handed : r'.session.handed = r.session.handed) : Inv router r' := by
  have busy : r.session.pending ≠ [] := by simp [only]
  have complete := inv.complete busy
  rw [only] at complete
  have now : writes r'.started = writes r.started := by
    rw [started, pending, writes_append]
    simp [writes]
  refine ⟨base, ?_, ?_, fun _ => ?_, ?_, fun _ => handed ▸ inv.kept busy, handed ▸ inv.once⟩
  · rw [now, received]
    exact inv.answered
  · rw [now]
    exact inv.computed
  · rw [now, pending, written, ← complete]
    simp [writes]
  · rw [started, pending, parsers, inv.fresh]
    simp

theorem inv_next (inv : Inv router r) (h : next isUpgrade router r c = some r') :
    Inv router r' := by
  obtain ⟨only, base, called, started⟩ := next_some inv h
  have idle := complete_pending only
  have busy : r.session.pending ≠ [] := by simp [only]
  obtain ⟨session, ops⟩ := r'
  cases c with
  | read env d req =>
    simp only [callback] at called
    split_ifs at called with upgrade
    · cases called
      refine inv.stop base idle started rfl rfl ?_
      simp [Session.complete, inv.kept busy]
    · split at called
      next res d' ran =>
        cases called
        exact inv.answer (x := ⟨req, res⟩) base only ⟨env, d, d', ran⟩
          (by simp [Session.asyncWrite, idle]) started rfl rfl rfl rfl
      · cases called
  | endOfStream | readError =>
    cases called
    exact inv.stop base idle started rfl rfl inv.once
  | write x =>
    cases close : x.response.needEof with
    | true =>
      simp only [callback, close, Session.onWrite, if_true, Option.some.injEq] at called
      cases called
      exact inv.stop base idle started rfl rfl inv.once
    | false =>
      simp only [callback, close, Session.onWrite, Bool.false_eq_true, if_false,
        Option.some.injEq] at called
      cases called
      exact inv.again base only (by simp [Session.doRead, Session.asyncRead, idle]) started rfl
        rfl rfl rfl
  | writeError x n =>
    cases called
    exact inv.stop base idle started rfl rfl inv.once

theorem ended_idle (inv : Inv router r) (h : next isUpgrade router r c = some r')
    (ended : ends isUpgrade c = true) : r'.session.pending = [] ∧ r'.started = r.started := by
  obtain ⟨only, -, called, started⟩ := next_some inv h
  have idle := complete_pending only
  suffices empty : r'.session.pending = [] from ⟨empty, by rw [started, empty, List.append_nil]⟩
  cases c with
  | read env d req =>
    simp only [ends] at ended
    simp only [callback, ended, if_true, Option.some.injEq] at called
    rw [← called]
    exact idle
  | endOfStream | readError | writeError =>
    simp only [callback, Option.some.injEq] at called
    rw [← called]
    exact idle
  | write x =>
    simp only [ends] at ended
    simp only [callback, ended, Option.some.injEq] at called
    rw [← called]
    exact idle

/-- One operation at a time, responses in the order of the requests, and nothing once it has
ended. -/
theorem session_protocol {isUpgrade : HttpRequest → Bool} {router : Router} {r : Record}
    (reached : Reachable (next isUpgrade router) opened r) : Orderly isUpgrade router r := by
  have inv : Inv router r := reachable_invariant _ (fun _ _ _ inv h => inv_next inv h)
    (inv_opened router) reached
  refine ⟨inv.base.single, inv.answered, inv.computed, fun reading => ?_, inv.fresh,
    fun c r' h ended cs r'' run => ?_, fun env d req r' upgrade h => ?_, inv.once⟩
  · have only := inv.base.pending reading
    rw [← inv.complete (by simp [only]), only]
    simp [writes]
  · obtain ⟨idle, started⟩ := ended_idle inv h ended
    rw [drive_idle idle run, started]
  · obtain ⟨only, -, called, -⟩ := next_some inv h
    simp only [callback, upgrade, if_true, Option.some.injEq] at called
    rw [← called]
    simp [Session.complete, inv.kept (by simp [only])]

def getRequest (target : String) : HttpRequest := ⟨lit "GET", lit target, 11, true, [], []⟩

def isChat (req : HttpRequest) : Bool := req.target = lit "/chat"

def answeredThenUpgraded : List Completion :=
  [.read .calm .empty (getRequest "/"),
    .write ⟨getRequest "/", (HttpResponse.initial (getRequest "/")).filled .notFound "text/plain"
      (lit "Not Found")⟩,
    .read .calm .empty (getRequest "/chat")]

def upgraded : Record :=
  (drive (next isChat .empty) opened answeredThenUpgraded).getD opened

theorem session_protocol_upgraded :
    upgraded.session.handed = [getRequest "/chat"] ∧ upgraded.started.length = 3 ∧
      Orderly isChat .empty upgraded :=
  ⟨by decide, by decide, session_protocol ⟨answeredThenUpgraded, rfl⟩⟩

end Ccfolio.SessionProtocol
