import Ccfolio.Controllers

/-! What the dispatcher lets out: whether `Router::handleRequest` returns, and
whether the status of the user routes says what the service did. Both hold but
for a body whose refusal quotes bytes that are not UTF-8, which `LOG` cannot
write. -/

namespace Ccfolio.Dispatch

open Utf8 StdText JsonValue Odb Programs Calls LogService PasswordHelper JwtHelper Http
  UserService Controllers

/-- The router returns for every request but those whose handler cannot log what it caught. -/
theorem dispatch_returns_iff (dep : Deployment) (env : Surroundings) (d : Database)
    (req : HttpRequest) (res : HttpResponse) :
    (∃ routed, (run (handle env) ((httpRouter dep).handleRequest req) res d).1 = .ok routed) ↔
      ¬ escapes dep env req := by
  obtain ⟨out, res', d', ran, -, returns⟩ := run_httpRouter_cases dep env res d req
  rw [ran, ← returns]
  cases out with
  | ok routed => exact iff_of_true ⟨routed, rfl⟩ rfl
  | error e => exact iff_of_false nofun nofun

def garbledRequest (path : String) : HttpRequest :=
  ⟨lit "POST", lit path, 11, true,
    [(lit "Authorization", lit "Bearer aGVhZGVy.cGF5bG9hZA.c2ln")], [0xff]⟩

theorem dispatch_throws :
    ¬ ∃ routed, (run (handle .calm) ((httpRouter .refusing).handleRequest (garbledRequest "/test"))
      (.initial (garbledRequest "/test")) .empty).1 = .ok routed := by
  obtain ⟨out, res', d', ran, -, returns⟩ := run_httpRouter_cases .refusing .calm
    (.initial (garbledRequest "/test")) .empty (garbledRequest "/test")
  have bad : escapes .refusing .calm (garbledRequest "/test") :=
    ⟨⟨rfl, rfl⟩, by decide, by decide⟩
  rw [ran]
  rintro ⟨routed, rfl⟩
  exact returns.mp rfl bad

def reports (dep : Deployment) (res : HttpResponse) (b : Bool) : Prop :=
  res.contentType = some (lit "application/json") ∧
    ∃ j, res.body = dep.json.text (-1) j ∧ j.member "isSuccess" = some (.boolean b)

/-- The status and the body tell whether the operation succeeded. -/
def TellsTruth (dep : Deployment) (succeeded : Prop) (res : HttpResponse) : Prop :=
  (succeeded → res.result = .ok ∧ reports dep res true) ∧
    (¬ succeeded → res.result = .badRequest ∧ reports dep res false)

def leaves (env : Surroundings) (d : Database) (handler : Handler) (req : HttpRequest) :
    HttpResponse × Database :=
  (run (handle env) (handler req) (.initial req) d).2

/-- A row was inserted and a token made for it. -/
def Registers (dep : Deployment) (env : Surroundings) (before after : Database) : Prop :=
  ∃ row token, after.rows = before.rows ++ [row] ∧
    env.sign dep.secretKey (mintClaims dep row.username env.now) = .ok token

/-- The password of the body verified against the row found, and a token was
made. -/
def LogsIn (dep : Deployment) (env : Surroundings) (d : Database) (request : Bytes) : Prop :=
  ∃ username password row token, credentials dep request = .ok (username, password) ∧
    (runTx (env.faults (.selectByUsername username)) (.selectByUsername username) d).1 =
      .ok (some row) ∧
    (run (handle env) (verifyUserPassword dep row.passwordHash row.salt password) () d).1 =
      .ok true ∧
    env.sign dep.secretKey (mintClaims dep row.username env.now) = .ok token

section Status

variable (dep : Deployment) (env : Surroundings) (d : Database)

theorem registers_iff (request : Bytes) :
    Registers dep env d (registerOutcome dep env d request).2 ↔
      ∃ user token, enters dep env d request = some user ∧
        tokenOutcome dep env user.username = .ok token := by
  rw [Registers, registerOutcome_rows]
  cases enters dep env d request with
  | none =>
    refine iff_of_false ?_ nofun
    rintro ⟨row, token, same, -⟩
    have longer := congrArg List.length same
    simp at longer
  | some user =>
    simp only [Database.insert_rows, List.append_cancel_left_eq, Option.some.injEq, tokenOutcome_ok]
    constructor
    · rintro ⟨row, token, same, signed⟩
      obtain rfl := List.singleton_inj.mp same
      exact ⟨user, token.val, rfl, token, signed, rfl⟩
    · rintro ⟨_, _, rfl, token, signed, -⟩
      exact ⟨_, token, rfl, signed⟩

theorem logsIn_iff (request : Bytes) :
    LogsIn dep env d request ↔
      ∃ user token, admits dep env d request = some user ∧
        tokenOutcome dep env user.username = .ok token := by
  unfold LogsIn admits
  constructor
  · rintro ⟨username, password, row, token, asked, replied, verified, signed⟩
    rw [run_verifyUserPassword] at verified
    refine ⟨row, token.val, ?_, (tokenOutcome_ok dep env).mpr ⟨token, signed, rfl⟩⟩
    simp only at verified
    simp only [asked, replied, verified]
  · rintro ⟨user, token, admitted, made⟩
    obtain ⟨text, signed, rfl⟩ := (tokenOutcome_ok dep env).mp made
    split at admitted
    · cases admitted
    next username password asked =>
      split at admitted
      next row replied =>
        split at admitted
        next verified =>
          cases admitted
          refine ⟨username, password, user, text, asked, replied, ?_, signed⟩
          rw [run_verifyUserPassword, verified]
        · cases admitted
      · cases admitted

theorem reports_answer (res : HttpResponse) (response : ResponseDto UserDto) :
    reports dep (answered dep res (.ok response)) response.isSuccess :=
  ⟨rfl, response.toJson, rfl, response.member_isSuccess⟩

theorem tellsTruth_answered {garbled : Bool} {grant : Option User}
    {x : Except Exception (ResponseDto UserDto)} (settled : settles dep env garbled grant x)
    (req : HttpRequest) :
    TellsTruth dep (∃ user token, grant = some user ∧
        tokenOutcome dep env user.username = .ok token) (answered dep (.initial req) x) ↔
      garbled = false := by
  rcases settled with ⟨user, token, granted, made, rfl, -, plain⟩ | ⟨refused, bad⟩
  · refine iff_of_true ⟨fun _ => ⟨rfl, reports_answer dep _ _⟩, fun no => ?_⟩ plain
    exact absurd ⟨user, token, granted, made⟩ no
  · have no : ¬ ∃ user token, grant = some user ∧ tokenOutcome dep env user.username = .ok token :=
      fun ⟨user, token, granted, made⟩ => refused user token granted made
    cases x with
    | ok response =>
      obtain ⟨plain, message, rfl, -⟩ := bad
      exact iff_of_true ⟨fun yes => absurd yes no, fun _ => ⟨rfl, reports_answer dep _ _⟩⟩ plain
    | error e =>
      refine iff_of_false (fun tells => ?_) (by simp [bad.1])
      have status : (answered dep (.initial req) (.error e)).result = .badRequest := (tells.2 no).1
      cases status

end Status

/-- On both user routes the status is that of the outcome, unless the refusal of the body cannot
be logged: the response then stays as it began, with status 200. -/
theorem status_tells_truth_iff (dep : Deployment) (env : Surroundings) (d : Database)
    (req : HttpRequest) :
    (TellsTruth dep (Registers dep env d (leaves env d (handleCreateUser dep) req).2)
        (leaves env d (handleCreateUser dep) req).1 ↔
      dep.json.quotesInvalid req.body = false) ∧
    (TellsTruth dep (LogsIn dep env d req.body) (leaves env d (handleUserLogin dep) req).1 ↔
      dep.json.quotesInvalid req.body = false) := by
  simp only [leaves, run_handleCreateUser, run_handleUserLogin, registers_iff, logsIn_iff]
  exact ⟨tellsTruth_answered dep env (registerOutcome_settles dep env d req.body) req,
    tellsTruth_answered dep env (loginOutcome_settles dep env d req.body) req⟩

theorem status_lies :
    let left := leaves .calm .empty (handleCreateUser .refusing) (garbledRequest "/user/create")
    left.1 = HttpResponse.default ∧
      ¬ TellsTruth .refusing (Registers .refusing .calm .empty left.2) left.1 := by
  have bad : Deployment.refusing.json.quotesInvalid (garbledRequest "/user/create").body = true :=
    by decide
  have settled := registerOutcome_settles .refusing .calm .empty
    (garbledRequest "/user/create").body
  rw [bad] at settled
  simp only [leaves, run_handleCreateUser, registers_iff,
    tellsTruth_answered .refusing .calm settled, reduceCtorEq, not_false_iff, and_true]
  rcases settled with ⟨_, _, _, _, _, _, plain⟩ | ⟨-, refusal⟩
  · cases plain
  · cases out : (registerOutcome .refusing .calm .empty (garbledRequest "/user/create").body).1 with
    | ok response =>
      rw [out] at refusal
      cases refusal.1
    | error e => rfl

end Ccfolio.Dispatch
