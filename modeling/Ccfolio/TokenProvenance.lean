import Ccfolio.CredentialMap
import Ccfolio.Histories
import Ccfolio.HttpSession
import Ccfolio.Minting

/-! Any number of requests at once, each call of each of them in a history.
A turn takes place at one time, that of its surroundings: a call together with
the work between it and the next call that other requests may see, so that a
wrapped handler is entered at the time its token was verified. -/

namespace Ccfolio.TokenProvenance

open Utf8 StdText Odb Programs Traces Pools Histories Calls LogService Http PasswordHelper JwtHelper
  UserService Controllers Minting CredentialMap

variable {ι : Type} [DecidableEq ι]

abbrev Log (ι : Type) := List (Entry ι Surroundings Database Reply)

section Requests

variable (dep : Deployment) (requests : ι → HttpRequest)

def serving (req : HttpRequest) : Program Reply (Except Exception Unit × HttpResponse) :=
  (HttpSession.handleRequest (httpRouter dep) req).run.run .default

def history (d : Database) (schedule : List (ι × Surroundings)) : Log ι :=
  (runPool silent (record fun _ => handle) ⟨(d, []), fun i => serving dep (requests i)⟩
    schedule).world.2

theorem kept_history (d : Database) (schedule : List (ι × Surroundings)) :
    Kept silent (fun _ => handle) (fun i => serving dep (requests i))
      (runPool silent (record fun _ => handle) ⟨(d, []), fun i => serving dep (requests i)⟩
        schedule) :=
  kept_run d schedule

end Requests

/-- Key, claims and token of a signature made. -/
def signed : Event Reply → Option (Bytes × Claims × Bytes)
  | ⟨.sign secretKey claims, .ok token⟩ => some (secretKey, claims, token.val)
  | _ => none

/-- Key, issuer and token of a verification passed. -/
def verified : Event Reply → Option (Bytes × Bytes × Bytes)
  | ⟨.verify secretKey issuer token, .ok _⟩ => some (secretKey, issuer, token)
  | _ => none

/-- What is assumed of the token library, in the calls of a run. -/
structure Trusted (dep : Deployment) (decode : Bytes → Option Claims) (log : Log ι) : Prop where
  /-- A token carries the claims it was signed with. -/
  carries : ∀ x ∈ log, ∀ key claims token, signed x.event = some (key, claims, token) →
    decode token = some claims
  /-- A string verifies under the secret key only if it was returned by `sign` with
  that key. -/
  unforged : ∀ first x last issuer token, log = first ++ x :: last →
    verified x.event = some (dep.secretKey, issuer, token) →
    ∃ y ∈ first, ∃ claims, signed y.event = some (dep.secretKey, claims, token)
  /-- No token verifies once the time is past its `exp`. -/
  expires : ∀ x ∈ log, ∀ key issuer token claims, verified x.event = some (key, issuer, token) →
    decode token = some claims → x.scene.now ≤ claims.expiresAt * second

/-- What a request has just done, with the table it found: inserted a row, or
matched the given password with a stored row. -/
inductive Occasion (dep : Deployment) (req : HttpRequest) : Bytes → Log ι → Prop
  | inserted (earlier : Log ι) (x : Entry ι Surroundings Database Reply) (user stored : User)
      (route : posts "/user/create" req)
      (call : x.event = ⟨.transaction (.persist user), .ok stored⟩)
      (named : stored.username = user.username)
      (table : (handle x.scene x.event.1 x.before).2.rows = x.before.rows ++ [stored]) :
      Occasion dep req user.username (earlier ++ [x])
  | verified (earlier : Log ι) (x y : Entry ι Surroundings Database Reply)
      (password salt : Bytes) (row : User) (raw : Fin 32 → UInt8)
      (route : posts "/user/login" req)
      (asked : credentials dep req.body = .ok (row.username, password))
      (call : x.event = ⟨.transaction (.selectByUsername row.username), .ok (some row)⟩)
      (stored : row ∈ x.before.rows)
      (decoded : Utility.fromHexString row.salt = .ok salt)
      (digest : y.event = ⟨.argon2iHashRaw ⟨2, 1 <<< 16, 1⟩ password salt 32, some raw⟩)
      (matched : Utility.toHexString (List.ofFn raw) = row.passwordHash) :
      Occasion dep req row.username (earlier ++ [x, y])

/-- `y` is where `CreateJWTToken` gets the token it returns, after reading the
clock, for a username there was an occasion to. -/
def Mints (dep : Deployment) (req : HttpRequest) (before : Log ι)
    (y : Entry ι Surroundings Database Reply) (token : Bytes) : Prop :=
  ∃ earlier clock username, before = earlier ++ [clock] ∧
    clock.event = ⟨.systemClock, clock.scene.now⟩ ∧
    signed y.event = some (dep.secretKey, mintClaims dep username clock.scene.now, token) ∧
    Occasion dep req username earlier

/-- The wrapped handler is entered at `x` on a token minted in time. -/
def Fresh (dep : Deployment) (requests : ι → HttpRequest) (first : Log ι)
    (x : Entry ι Surroundings Database Reply) : Prop :=
  posts "/test" (requests x.who) ∧ ∃ token issued y rest,
    (requests x.who).find "Authorization" = some (lit "Bearer " ++ token) ∧
    first = issued ++ y :: rest ∧ Mints dep (requests y.who) (own y.who issued) y token ∧
    y.scene.now ≤ x.scene.now ∧ x.scene.now ≤ y.scene.now + lifetime

section Run

variable {dep : Deployment} {requests : ι → HttpRequest} {d : Database}
  {schedule : List (ι × Surroundings)}

theorem obeys_handleRequest (req : HttpRequest) (res : HttpResponse) :
    obeys dep req (HttpSession.handleRequest (httpRouter dep) req) res [] fun _ _ _ => True := by
  refine meets_bind.mpr (meets_modify.mpr (meets_bind.mpr (meets_modify.mpr ?_)))
  refine meets_bind.mpr (meets_mono (fun out t' tr' _ => ?_) obeys_httpRouter)
  rcases out with e | _ | _
  · trivial
  · exact quiet_respond _ _ _ _ _
  · trivial

theorem allowed {first last : Log ι} {x : Entry ι Surroundings Database Reply}
    (eq : history dep requests d schedule = first ++ x :: last) :
    Allowed dep (requests x.who) ((own x.who first).map (·.event)) x.event := by
  have follows := (kept_history dep requests d schedule).follows x.who
  change Follows _ ((own x.who (history dep requests d schedule)).map (·.event)) _ at follows
  have mine : own x.who (x :: last) = x :: own x.who last := by simp [own]
  rw [eq, own_append, mine, List.map_append, List.map_cons] at follows
  obtain ⟨each, -⟩ := wp_sound _ _ follows (obeys_handleRequest (requests x.who) .default)
    fun _ _ => trivial
  exact each _ _ _ rfl

theorem ordered_history (timely : schedule.Pairwise fun a b => a.2.now ≤ b.2.now) :
    (history dep requests d schedule).Pairwise fun a b => a.scene.now ≤ b.scene.now :=
  run_ordered (r := fun a b : Surroundings => a.now ≤ b.now) (fun e => Nat.le_refl e.now) timely
    List.Pairwise.nil (fun _ mem => absurd mem List.not_mem_nil)

omit [DecidableEq ι] in
theorem occasion_of_cause {req : HttpRequest} {username : Bytes} {log : Log ι}
    (faithful : ∀ x ∈ log, x.event.2 = (handle x.scene x.event.1 x.before).1)
    (cause : Cause dep req username (log.map (·.event))) : Occasion dep req username log := by
  generalize eq : log.map (·.event) = tr at cause
  cases cause with
  | inserted earlier user stored route =>
    obtain ⟨log, tail, rfl, -, eq⟩ := List.map_eq_append_iff.mp eq
    obtain ⟨x, rfl, call⟩ := List.map_eq_singleton_iff.mp eq
    have reply := faithful x (by simp)
    have ran : (runTx (x.scene.faults (.persist user)) (.persist user) x.before).1 =
        .ok stored := by
      rw [call] at reply
      exact reply.symm
    have whole := runTx_persist_ok ran
    rw [whole] at ran
    refine .inserted log x user stored route call ?_ ?_
    · exact (congrArg User.username (Except.ok.inj ran)).symm
    · rw [call]
      change (runTx (x.scene.faults (.persist user)) (.persist user) x.before).2.rows = _
      rw [whole, ← Except.ok.inj ran]
      rfl
  | verified earlier username password salt row raw route asked decoded matched =>
    obtain ⟨log, tail, rfl, -, eq⟩ := List.map_eq_append_iff.mp eq
    obtain ⟨x, tail, rfl, call, eq⟩ := List.map_eq_cons_iff.mp eq
    obtain ⟨y, rfl, digest⟩ := List.map_eq_singleton_iff.mp eq
    have reply := faithful x (by simp)
    have ran : (runTx (x.scene.faults (.selectByUsername username)) (.selectByUsername username)
        x.before).1 = .ok (some row) := by
      rw [call] at reply
      exact reply.symm
    obtain ⟨stored, rfl⟩ := runTx_select_some ran
    exact .verified log x y password salt row raw route asked call stored decoded digest matched

theorem signed_some {e : Event Reply} {key token : Bytes} {claims : Claims}
    (h : signed e = some (key, claims, token)) : e.1 = .sign key claims := by
  unfold signed at h
  split at h
  · cases h
    rfl
  · cases h

theorem mints_of_signed {first last : Log ι} {y : Entry ι Surroundings Database Reply}
    {key token : Bytes} {claims : Claims}
    (eq : history dep requests d schedule = first ++ y :: last)
    (made : signed y.event = some (key, claims, token)) :
    ∃ clock ∈ first, (∃ username, claims = mintClaims dep username clock.scene.now) ∧
      Mints dep (requests y.who) (own y.who first) y token := by
  have faithful : ∀ x ∈ own y.who first,
      x.event.2 = (handle x.scene x.event.1 x.before).1 := by
    intro x mem
    refine (kept_history dep requests d schedule).faithful x ?_
    change x ∈ history dep requests d schedule
    rw [eq]
    exact List.mem_append_left _ (List.mem_of_mem_filter mem)
  have law := allowed eq
  rw [Allowed, signed_some made] at law
  obtain ⟨rfl, earlier, now, username, before, rfl, cause⟩ := law
  obtain ⟨log, tail, split, rfl, rest⟩ := List.map_eq_append_iff.mp before
  obtain ⟨clock, rfl, call⟩ := List.map_eq_singleton_iff.mp rest
  have mem : clock ∈ own y.who first := by
    rw [split]
    simp
  have time : now = clock.scene.now := by
    have reply := faithful clock mem
    rw [call] at reply
    exact reply
  subst time
  refine ⟨clock, List.mem_of_mem_filter mem, ⟨username, rfl⟩,
    log, clock, username, split, call, made, occasion_of_cause (fun x mem => ?_) cause⟩
  exact faithful x (by rw [split]; exact List.mem_append_left _ mem)

end Run

/-- The wrapped handler is entered on a token minted for its user at most three minutes before. An
entry is no call of the code: `.granted` takes the turn, and so the time, of the verification
that let the request through. -/
theorem granted_fresh {ι : Type} [DecidableEq ι] (dep : Deployment) (requests : ι → HttpRequest)
    (d : Database) (schedule : List (ι × Surroundings)) (decode : Bytes → Option Claims)
    (timely : schedule.Pairwise fun a b => a.2.now ≤ b.2.now)
    (trusted : Trusted dep decode (history dep requests d schedule)) :
    ∀ first x last, history dep requests d schedule = first ++ x :: last →
      x.event.1 = .granted → Fresh dep requests first x := by
  intro first x last eq entered
  have law := allowed eq
  rw [Allowed, entered] at law
  obtain ⟨route, earlier, token, before, carried⟩ := law
  -- the verification stands right before, in the same turn
  obtain ⟨first, y, rfl, who, scene⟩ : ∃ first' y, first = first' ++ [y] ∧ y.who = x.who ∧
      y.scene = x.scene := by
    refine ((kept_history dep requests d schedule).adjacent first x last eq
      (by rw [entered]; rfl)).resolve_left fun none => ?_
    rw [none] at before
    simp at before
  have passed : verified y.event = some (dep.secretKey, dep.projectName, token) := by
    have mine : own x.who (first ++ [y]) = own x.who first ++ [y] := by
      rw [own_append]
      simp [own, who]
    rw [mine, List.map_append, List.map_singleton] at before
    have last_event := (List.append_inj' before rfl).2
    rw [List.cons.inj last_event |>.1]
    rfl
  have whole : history dep requests d schedule = first ++ y :: x :: last := by simp [eq]
  obtain ⟨z, mem, claims, made⟩ := trusted.unforged first y (x :: last) _ token whole passed
  obtain ⟨issued, rest, rfl⟩ := List.append_of_mem mem
  have at_z : history dep requests d schedule = issued ++ z :: (rest ++ y :: x :: last) := by
    simp [whole]
  obtain ⟨clock, mem_clock, ⟨username, rfl⟩, mints⟩ := mints_of_signed at_z made
  have decoded := trusted.carries z (by simp [at_z]) _ _ _ made
  have in_time := trusted.expires y (by simp [whole]) _ _ _ _ passed decoded
  have ordered : (history dep requests d schedule).Pairwise fun a b =>
      a.scene.now ≤ b.scene.now := ordered_history timely
  rw [at_z, List.pairwise_append, List.pairwise_cons] at ordered
  obtain ⟨-, ⟨after, -⟩, across⟩ := ordered
  have clock_first : clock.scene.now ≤ z.scene.now := across clock mem_clock z (by simp)
  have minted_first : z.scene.now ≤ x.scene.now := after x (by simp)
  refine ⟨route, token, issued, z, rest ++ [y], carried, by simp, mints, minted_first, ?_⟩
  rw [← scene]
  exact (in_time.trans (expiresAt_le dep username _)).trans (Nat.add_le_add_right clock_first _)

/-- Request 0 registers `ann`, and the others greet her with her token. -/
def annRequests : Nat → HttpRequest
  | 0 => ⟨lit "POST", lit "/user/create", 11, true, [], annText "first"⟩
  | _ => ⟨lit "POST", lit "/test", 11, true,
      [(lit "Authorization", lit "Bearer aGVhZGVy.cGF5bG9hZA.c2ln")], annText "first"⟩

def later : Surroundings := { Surroundings.calm with now := 179 * second }

def annSchedule : List (Nat × Surroundings) :=
  List.replicate 6 (0, Surroundings.calm) ++ [(1, later)]

def annToken : Bytes := lit "aGVhZGVy.cGF5bG9hZA.c2ln"

def annDecode (token : Bytes) : Option Claims :=
  if token = annToken then some (mintClaims reading (lit "ann") 0) else none

def annMinting : List (Nat × Option (Bytes × Claims × Bytes) × Option (Bytes × Bytes × Bytes)) :=
  List.replicate 5 (0, none, none) ++
    [(0, some (lit "secret", mintClaims reading (lit "ann") 0, annToken), none)]

set_option maxRecDepth 4000 in
theorem annHistory : (history reading annRequests .empty annSchedule).map
    (fun x => (x.scene.now, signed x.event, verified x.event)) =
    annMinting ++ [(179 * second, none, some (lit "secret", lit "ccfolio", annToken)),
      (179 * second, none, none)] := by
  rfl

theorem annTrusted :
    Trusted reading annDecode (history reading annRequests .empty annSchedule) := by
  have entries : ∀ x ∈ history reading annRequests .empty annSchedule,
      (x.scene.now, signed x.event, verified x.event) ∈ _ :=
    fun x mem => annHistory ▸ List.mem_map_of_mem mem
  refine ⟨fun x mem key claims token made => ?_, fun first x last issuer token eq passed => ?_,
    fun x mem key issuer token claims passed decoded => ?_⟩
  · have entry := entries x mem
    simp [annMinting, made] at entry
    obtain ⟨-, ⟨-, rfl, rfl⟩, -⟩ := entry
    rfl
  · have split := annHistory
    rw [eq, List.map_append, List.map_cons] at split
    rcases split_append (show annMinting ++ _ = _ from split.symm) with
      ⟨mid, front, -⟩ | ⟨mid, front⟩
    · have made : (0, some (lit "secret", mintClaims reading (lit "ann") 0, annToken), none) ∈
          first.map fun x => (x.scene.now, signed x.event, verified x.event) := by
        rw [front]
        simp [annMinting]
      obtain ⟨y, mem, same⟩ := List.mem_map.mp made
      simp only [Prod.mk.injEq] at same
      have entry := entries x (by rw [eq]; simp)
      simp [annMinting, passed] at entry
      obtain ⟨-, -, -, -, rfl⟩ := entry
      exact ⟨y, mem, _, same.2.1⟩
    · have entry : (x.scene.now, signed x.event, verified x.event) ∈ annMinting := by
        rw [front]
        simp
      simp [annMinting, passed] at entry
  · have entry := entries x mem
    simp [annMinting, passed] at entry
    obtain ⟨now, -, -, -, rfl⟩ := entry
    rw [now]
    cases decoded
    decide

set_option maxRecDepth 4000 in
theorem annEntered : ((history reading annRequests .empty annSchedule).getLast?.map (·.event.1)) =
    some .granted := by
  rfl

theorem granted_fresh_ann : ∃ first x,
    history reading annRequests .empty annSchedule = first ++ [x] ∧ x.event.1 = .granted ∧
      Fresh reading annRequests first x := by
  have last := annEntered
  rcases List.eq_nil_or_concat' (history reading annRequests .empty annSchedule) with
    none | ⟨first, x, split⟩
  · rw [none] at last
    cases last
  · rw [split] at last
    have entered : x.event.1 = .granted := by simpa using last
    have timely : annSchedule.Pairwise fun a b => a.2.now ≤ b.2.now := by
      simp [annSchedule, List.replicate, later, Surroundings.calm]
    exact ⟨first, x, split, entered, granted_fresh reading annRequests .empty annSchedule annDecode
      timely annTrusted first x [] split entered⟩

end Ccfolio.TokenProvenance
