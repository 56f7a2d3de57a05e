import Ccfolio.Controllers
import Ccfolio.CredentialMap

/-! Whether a login that fails tells more than that it failed: two tables that
differ in the row of one username, the same login on both. -/

namespace Ccfolio.LoginSecrecy

open Utf8 StdText Odb Programs Calls LogService Repositories PasswordHelper JwtHelper UserService
  Controllers CredentialMap

/-- At most one row for the username, its salt the hex of sixteen bytes. -/
structure Single (u : Bytes) (d : Database) : Prop where
  one : (d.withUsername u).length ≤ 1
  salted : ∀ row ∈ d.withUsername u, ∃ salt, salt.length = 16 ∧
    row.salt = Utility.toHexString salt

/-- The tables differ only in whether they have a row for the username, and in
its hash and salt. -/
structure Alike (u : Bytes) (d d' : Database) : Prop where
  others : d.rows.filter (·.username ≠ u) = d'.rows.filter (·.username ≠ u)
  single : Single u d
  single' : Single u d'

section Definitions

variable (dep : Deployment) (env : Surroundings) (d d' : Database) (body : Bytes)

def login : Except Exception (ResponseDto UserDto) :=
  (run (handle env.faultless) (userLogin dep body) () d).1

/-- If the login fails on both tables it fails with one message, and the route
answers alike. -/
structure Hides : Prop where
  same : Fails (login dep env d body) → Fails (login dep env d' body) →
    ∃ message, login dep env d body = .ok (.failure message) ∧
      login dep env d' body = .ok (.failure message)
  shown : Fails (login dep env d body) → Fails (login dep env d' body) →
    ∀ req res, req.body = body →
      (run (handle env.faultless) (handleUserLogin dep req) res d).2.1 =
        (run (handle env.faultless) (handleUserLogin dep req) res d').2.1

inductive Reason where
  | noRow
  | wrongPassword
  | trouble
  | unlogged
  deriving DecidableEq, Repr

def Reason.message (u : Bytes) : Reason → Bytes
  | .noRow => userNotFound u
  | .wrongPassword => lit "Wrong username or password!"
  | .trouble => UserService.tryAgainLater
  | .unlogged => invalidJson

/-- There is no row; or there is one, and Argon2 fails under its salt, its hash
is another, or the password is right and signing throws. -/
inductive TurnedAway (u password : Bytes) : Reason → Prop
  | noRow (missing : u ∉ d.usernames) : TurnedAway u password .noRow
  | undigested (row : User) (salt : List UInt8) (mem : row ∈ d.withUsername u)
      (salted : row.salt = Utility.toHexString salt)
      (failed : env.argon2i ⟨2, 1 <<< 16, 1⟩ password salt 32 = none) :
      TurnedAway u password .trouble
  | wrongPassword (row : User) (salt : List UInt8) (raw : Fin 32 → UInt8)
      (mem : row ∈ d.withUsername u) (salted : row.salt = Utility.toHexString salt)
      (digest : env.argon2i ⟨2, 1 <<< 16, 1⟩ password salt 32 = some raw)
      (other : Utility.toHexString (List.ofFn raw) ≠ row.passwordHash) :
      TurnedAway u password .wrongPassword
  | unsigned (row : User) (salt : List UInt8) (raw : Fin 32 → UInt8) (e : Exception)
      (mem : row ∈ d.withUsername u) (salted : row.salt = Utility.toHexString salt)
      (digest : env.argon2i ⟨2, 1 <<< 16, 1⟩ password salt 32 = some raw)
      (right : Utility.toHexString (List.ofFn raw) = row.passwordHash)
      (thrown : env.sign dep.secretKey (mintClaims dep u env.now) = .error e) :
      TurnedAway u password (if isUtf8 e.what then .trouble else .unlogged)

end Definitions

theorem Reason.message_injective (u : Bytes) : Function.Injective (Reason.message u) := by
  have start : ∀ r : Reason, (r.message u).head? = match r with
      | .noRow => some 70
      | .wrongPassword => some 87
      | .trouble => some 83
      | .unlogged => some 73 := by
    intro r
    cases r <;> rfl
  intro a b same
  have heads := congrArg List.head? same
  rw [start, start] at heads
  cases a <;> cases b <;> first | rfl | exact absurd heads (by decide)

section Login

variable {dep : Deployment} {env : Surroundings} {d : Database} {body u password : Bytes}

theorem login_eq (asked : credentials dep body = .ok (u, password)) :
    login dep env d body = caught dep env.faultless loginJsonSite loginStdSite
      (found dep env.faultless password (lookupOutcome dep env.faultless d u)) := by
  rw [login, run_userLogin, loginOutcome, loginTry, asked]

theorem login_missing (asked : credentials dep body = .ok (u, password))
    (missing : u ∉ d.usernames) :
    login dep env d body = .ok (.failure (userNotFound u)) := by
  have reply := lookup_missing env.faultless_clean missing
  have readable := userNotFound_utf8 (credentials_utf8 dep asked).1
  have looked : lookupOutcome dep env.faultless d u = .ok (.failureResult (userNotFound u)) := by
    rw [lookupOutcome, reply]
    rfl
  rw [login_eq asked, looked, found, logThen_utf8 dep _ .INFO loginInfoSite readable]
  rfl

theorem login_row (asked : credentials dep body = .ok (u, password)) (single : Single u d)
    {row : User} (mem : row ∈ d.withUsername u) :
    login dep env d body = caught dep env.faultless loginJsonSite loginStdSite
      (checked dep env.faultless password row) := by
  obtain ⟨other, only⟩ := List.length_eq_one_iff.mp
    (Nat.le_antisymm single.one (List.length_pos_of_mem mem))
  obtain rfl : row = other := by simpa [only] using mem
  have reply := runTx_select_clean (env.faults (.selectByUsername u)).order u d
  rw [only, RowOrder.arrange_singleton] at reply
  have looked : lookupOutcome dep env.faultless d u = .ok (.successResult (some row)) := by
    simp [lookupOutcome, Surroundings.faultless, reply, logged, Except.map, report]
  rw [login_eq asked, looked, found]

theorem login_turnedAway (asked : credentials dep body = .ok (u, password))
    (single : Single u d) {reason : Reason} (away : TurnedAway dep env d u password reason) :
    login dep env d body = .ok (.failure (reason.message u)) := by
  have named : ∀ {row : User}, row ∈ d.withUsername u → row.username = u := fun mem =>
    (Database.mem_withUsername.mp mem).2
  cases away with
  | noRow missing => exact login_missing asked missing
  | undigested row salt mem salted failed =>
    have verified := verifyOutcome_undigested dep env.faultless row.passwordHash failed
    rw [login_row asked single mem, checked, salted, verified]
    exact logThen_utf8 dep _ .ERROR loginStdSite verifyUserFailed_utf8 _
  | wrongPassword row salt raw mem salted digest other =>
    have verified := verifyOutcome_digested dep env.faultless row.passwordHash digest
    have readable := wrongPassword_utf8 (credentials_utf8 dep asked).1
    rw [login_row asked single mem, checked, salted, verified, decide_eq_false other, named mem]
    simp only [logThen_utf8 dep _ .INFO wrongPasswordSite readable]
    rfl
  | unsigned row salt raw e mem salted digest right thrown =>
    have verified := verifyOutcome_digested dep env.faultless row.passwordHash digest
    have made : tokenOutcome dep env.faultless u =
        logThen dep env.faultless .ERROR e.what JwtHelper.createSite (.error createFailed) := by
      change logged dep env.faultless JwtHelper.createSite _
        ((env.sign dep.secretKey (mintClaims dep u env.now)).map Subtype.val) = _
      rw [thrown]
      rfl
    rw [login_row asked single mem, checked, salted, verified, decide_eq_true right, named mem]
    simp only [made, logThen]
    split_ifs
    · exact logThen_utf8 dep _ .ERROR loginStdSite createFailed_utf8 _
    · exact logThen_utf8 dep _ .ERROR loginJsonSite (dep.json.invalidUtf8 _).property _

theorem turnedAway_of_fails (asked : credentials dep body = .ok (u, password))
    (single : Single u d) (fails : Fails (login dep env d body)) :
    ∃ reason, TurnedAway dep env d u password reason := by
  by_cases known : u ∈ d.usernames
  · obtain ⟨row, inside, named⟩ := List.mem_map.mp known
    have mem := Database.mem_withUsername.mpr ⟨inside, named⟩
    obtain ⟨salt, -, salted⟩ := single.salted row mem
    cases digest : env.argon2i ⟨2, 1 <<< 16, 1⟩ password salt 32 with
    | none => exact ⟨_, .undigested row salt mem salted digest⟩
    | some raw =>
      by_cases right : Utility.toHexString (List.ofFn raw) = row.passwordHash
      · cases signed : env.sign dep.secretKey (mintClaims dep u env.now) with
        | error e => exact ⟨_, .unsigned row salt raw e mem salted digest right signed⟩
        | ok token =>
          have verified := verifyOutcome_digested dep env.faultless row.passwordHash digest
          have made : tokenOutcome dep env.faultless u = .ok token.val :=
            (tokenOutcome_ok dep env.faultless).mpr ⟨token, signed, rfl⟩
          rw [login_row asked single mem, checked, salted, verified, decide_eq_true right,
            named] at fails
          simp only [made] at fails
          cases fails _ rfl
      · exact ⟨_, .wrongPassword row salt raw mem salted digest right⟩
  · exact ⟨_, .noRow known⟩

/-- A failed login tells nothing of the username as long as it is turned away for the same reason
with and without it. -/
theorem login_hides_iff (dep : Deployment) (env : Surroundings) (d d' : Database)
    (u password body : Bytes) (alike : Alike u d d')
    (asked : credentials dep body = .ok (u, password)) :
    Hides dep env d d' body ↔
      ∀ reason reason', TurnedAway dep env d u password reason →
        TurnedAway dep env d' u password reason' → reason = reason' := by
  have answers : ∀ {reason}, TurnedAway dep env d u password reason →
      login dep env d body = .ok (.failure (reason.message u)) :=
    login_turnedAway asked alike.single
  have answers' : ∀ {reason}, TurnedAway dep env d' u password reason →
      login dep env d' body = .ok (.failure (reason.message u)) :=
    login_turnedAway asked alike.single'
  constructor
  · intro hides reason reason' away away'
    have failed : ∀ {x message}, x = .ok (.failure message) → Fails x := by
      rintro x message rfl response same
      cases same
      rfl
    obtain ⟨message, told, told'⟩ := hides.same (failed (answers away)) (failed (answers' away'))
    have texts := (answers away).symm.trans (told.trans (told'.symm.trans (answers' away')))
    refine Reason.message_injective u ?_
    injection texts with texts
    injection texts with _ _ texts
    injection texts with texts
  · intro alone
    have same : Fails (login dep env d body) → Fails (login dep env d' body) →
        ∃ message, login dep env d body = .ok (.failure message) ∧
          login dep env d' body = .ok (.failure message) := by
      intro fails fails'
      obtain ⟨reason, away⟩ := turnedAway_of_fails asked alike.single fails
      obtain ⟨reason', away'⟩ := turnedAway_of_fails asked alike.single' fails'
      obtain rfl := alone reason reason' away away'
      exact ⟨reason.message u, answers away, answers' away'⟩
    refine ⟨same, fun fails fails' req res sent => ?_⟩
    obtain ⟨message, told, told'⟩ := same fails fails'
    rw [login, run_userLogin] at told told'
    simp only at told told'
    simp only [run_handleUserLogin, sent, told, told']

end Login

def annRow : User :=
  ⟨1, lit "ann", lit "00", Utility.toHexString (List.replicate 16 7)⟩

def withAnn : Database := Database.empty.insert annRow

theorem withUsername_ann : withAnn.withUsername (lit "ann") = [annRow] := by decide

theorem alike_ann : Alike (lit "ann") .empty withAnn where
  others := by decide
  single := ⟨Nat.zero_le 1, nofun⟩
  single' := by
    refine ⟨?_, fun row mem => ⟨List.replicate 16 7, rfl, ?_⟩⟩
    · rw [withUsername_ann]
      exact le_rfl
    · rw [withUsername_ann] at mem
      rw [List.mem_singleton.mp mem]
      rfl

theorem asked_ann : credentials reading (annText "second") = .ok (lit "ann", lit "second") := by
  decide

theorem login_hides_ann :
    Hides reading .calm .empty withAnn (annText "second") ↔
      ∀ reason reason', TurnedAway reading .calm .empty (lit "ann") (lit "second") reason →
        TurnedAway reading .calm withAnn (lit "ann") (lit "second") reason' → reason = reason' :=
  login_hides_iff reading .calm .empty withAnn (lit "ann") (lit "second") (annText "second")
    alike_ann asked_ann

theorem login_reveals :
    Alike (lit "ann") .empty withAnn ∧
      credentials reading (annText "second") = .ok (lit "ann", lit "second") ∧
      ¬ Hides reading .calm .empty withAnn (annText "second") := by
  refine ⟨alike_ann, asked_ann, fun hides => ?_⟩
  have mem : annRow ∈ withAnn.withUsername (lit "ann") :=
    withUsername_ann ▸ List.mem_singleton_self annRow
  have told := login_turnedAway asked_ann alike_ann.single
    (.noRow List.not_mem_nil : TurnedAway reading .calm .empty (lit "ann") (lit "second") .noRow)
  have told' := login_turnedAway asked_ann alike_ann.single'
    (.wrongPassword annRow (List.replicate 16 7) _ mem rfl rfl (by decide) :
      TurnedAway reading .calm withAnn (lit "ann") (lit "second") .wrongPassword)
  obtain ⟨message, same, same'⟩ := hides.same
    (fun _ eq => by cases told.symm.trans eq; rfl)
    (fun _ eq => by cases told'.symm.trans eq; rfl)
  have texts := Except.ok.inj ((told.symm.trans same).trans (same'.symm.trans told'))
  injection texts with _ _ texts
  injection texts with texts
  cases Reason.message_injective (lit "ann") texts

end Ccfolio.LoginSecrecy
