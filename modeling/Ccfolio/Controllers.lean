import Ccfolio.UserService

/-! `AuthenticationMiddleware`, `UserController`, `TestController` and the
router the program builds from them. -/

namespace Ccfolio.Controllers

open Utf8 StdText JsonValue Odb Programs Calls LogService Http JwtHelper
  UserService

section App

variable (dep : Deployment)

def withAuthentication (func : Handler) : Handler := fun req => do
  if !(← JwtHelper.validateToken dep req) then
    respond .unauthorized "application/json" (.ok (lit "Invalid or missing token"))
  else
    call .granted
    func req

/-- Both user routes answer alike: the service's response as JSON, with status
200 or 400. -/
def answer (service : Bytes → App HttpResponse (ResponseDto UserDto)) (site : Site) : Handler :=
  fun req => do
    try
      let result ← service req.body
      let jsonResponse := result.toJson
      if result.isSuccess then
        respond .ok "application/json" (dep.json.dump (-1) jsonResponse)
      else
        respond .badRequest "application/json" (dep.json.dump (-1) jsonResponse)
    catch e =>
      log dep .ERROR e.what site

def handleCreateUser : Handler :=
  answer dep (createUser dep) ⟨"UserController.h", 66, "handleCreateUser", by decide⟩

def handleUserLogin : Handler :=
  answer dep (userLogin dep) ⟨"UserController.h", 99, "handleUserLogin", by decide⟩

def helloSite : Site := ⟨"TestController.h", 60, "handleHelloWorld", by decide⟩

def hello (username : Bytes) : Json :=
  .ofFields [("message", .string (lit "Hello " ++ username))]

def handleHelloWorld : Handler := fun req => do
  try
    let jsonPayload ← MonadExcept.ofExcept (dep.json.parseBody req.body)
    let username ← member jsonPayload "username"
    respond .ok "application/json" (dep.json.dump (-1) (hello username))
  catch e =>
    log dep .ERROR e.what helloSite

/-- The routes `main` registers, in its order. -/
def httpRouter : Router :=
  ((Router.empty.addRoute (lit "POST") (lit "/user/create") (handleCreateUser dep)).addRoute
    (lit "POST") (lit "/user/login") (handleUserLogin dep)).addRoute
    (lit "POST") (lit "/test") (withAuthentication dep (handleHelloWorld dep))

end App

section Run

variable (dep : Deployment) (env : Surroundings) (res : HttpResponse) (d : Database)

theorem run_withAuthentication (func : Handler) (req : HttpRequest) :
    run (handle env) (withAuthentication dep func req) res d =
      if accepted dep env req then run (handle env) (func req) res d
      else (.ok (),
        res.filled .unauthorized "application/json" (lit "Invalid or missing token"), d) := by
  unfold withAuthentication
  rw [run_bind]
  rcases run_validateToken dep env d req res with
    ⟨good, validated⟩ | ⟨bad, validated | ⟨reason, validated⟩⟩
  · rw [validated, good]
    rfl
  · rw [validated, bad]
    rfl
  · rw [validated, bad]
    rfl

/-- The response made of what a service returned; an exception leaves the
response as it was. -/
def answered (x : Except Exception (ResponseDto UserDto)) : HttpResponse :=
  match x with
  | .ok response =>
      res.filled (if response.isSuccess then .ok else .badRequest) "application/json"
        (dep.json.text (-1) response.toJson)
  | .error _ => res

theorem run_answer {service : Bytes → App HttpResponse (ResponseDto UserDto)} {req : HttpRequest}
    {x : Except Exception (ResponseDto UserDto)} {d' : Database} {garbled : Bool}
    {grant : Option User} (h : run (handle env) (service req.body) res d = (x, res, d'))
    (settled : settles dep env garbled grant x) (site : Site) :
    run (handle env) (answer dep service site req) res d = (.ok (), answered dep res x, d') := by
  have dumped : ∀ {response : ResponseDto UserDto}, x = .ok response →
      dep.json.dump (-1) response.toJson = .ok (dep.json.text (-1) response.toJson) := by
    intro response eq
    refine dep.json.dump_ok ?_
    rcases settled with ⟨user, token, -, made, rfl, utf8, -⟩ | ⟨-, bad⟩
    · cases eq
      obtain ⟨text, -, rfl⟩ := (tokenOutcome_ok dep env).mp made
      exact ResponseDto.wellEncoded_success utf8 text.property
    · rw [eq] at bad
      obtain ⟨-, message, rfl, plain⟩ := bad
      exact ResponseDto.wellEncoded_failure plain
  unfold answer
  rw [run_tryCatch, run_bind, h]
  cases x with
  | ok response =>
    simp only [andThen_ok, dumped rfl, answered]
    cases response.isSuccess <;> rfl
  | error e =>
    have utf8 : isUtf8 e.what = true := by
      rcases settled with ⟨_, _, _, _, eq, _⟩ | ⟨-, bad⟩
      · cases eq
      · exact bad.2
    simp only [andThen_error, orCatch_error, run_log, logThen_utf8 dep env .ERROR site utf8]
    rfl

theorem run_handleCreateUser (req : HttpRequest) :
    run (handle env) (handleCreateUser dep req) res d =
      (.ok (), answered dep res (registerOutcome dep env d req.body).1,
        (registerOutcome dep env d req.body).2) :=
  run_answer dep env res d (run_createUser dep env res d req.body)
    (registerOutcome_settles dep env d req.body) _

theorem run_handleUserLogin (req : HttpRequest) :
    run (handle env) (handleUserLogin dep req) res d =
      (.ok (), answered dep res (loginOutcome dep env d req.body), d) :=
  run_answer dep env res d (run_userLogin dep env res d req.body)
    (loginOutcome_settles dep env d req.body) _

def greeted (body : Bytes) : Except Exception Bytes :=
  (dep.json.parseBody body).bind fun jsonPayload => textMember jsonPayload "username"

theorem greeted_ok {body username : Bytes} (h : greeted dep body = .ok username) :
    isUtf8 username = true ∧ dep.json.quotesInvalid body = false := by
  obtain ⟨jsonPayload, parsed, read⟩ := bind_eq_ok.mp h
  obtain ⟨encoded, plain⟩ := dep.json.parseBody_ok parsed
  exact ⟨textMember_utf8 encoded read, plain⟩

theorem greeted_error {body : Bytes} {e : Exception} (h : greeted dep body = .error e) :
    isUtf8 e.what = !dep.json.quotesInvalid body := by
  rcases bind_eq_error.mp h with thrown | ⟨jsonPayload, parsed, thrown⟩
  · exact (dep.json.parseBody_error thrown).2
  · rw [(dep.json.parseBody_ok parsed).2]
    exact textMember_error thrown

theorem hello_wellEncoded {username : Bytes} (utf8 : isUtf8 username = true) :
    (hello username).wellEncoded = true := by
  rw [hello, Json.wellEncoded_ofFields (by simp only [List.map]; decide)
    (by simp only [List.all]; decide)]
  simpa [Json.wellEncoded] using isUtf8_append (a := lit "Hello ") (by decide) utf8

theorem run_handleHelloWorld (req : HttpRequest) :
    run (handle env) (handleHelloWorld dep req) res d =
      match greeted dep req.body with
      | .ok username =>
          (.ok (), res.filled .ok "application/json" (dep.json.text (-1) (hello username)), d)
      | .error e => (logThen dep env .ERROR e.what helloSite (.ok ()), res, d) := by
  have body : run (handle env) (do
      let jsonPayload ← MonadExcept.ofExcept (dep.json.parseBody req.body)
      let username ← UserService.member jsonPayload "username"
      respond .ok "application/json" (dep.json.dump (-1) (hello username)) : App _ Unit) res d =
      andThen (greeted dep req.body, res, d) fun username => run (handle env)
        (respond .ok "application/json" (dep.json.dump (-1) (hello username))) := by
    rw [run_bind, run_ofExcept, greeted]
    cases dep.json.parseBody req.body with
    | error e => rfl
    | ok jsonPayload =>
      rw [andThen_ok, run_bind, run_member]
      rfl
  unfold handleHelloWorld
  rw [run_tryCatch, body]
  cases named : greeted dep req.body with
  | error e => simp
  | ok username =>
    rw [andThen_ok, dep.json.dump_ok (hello_wellEncoded (greeted_ok dep named).1), run_respond_ok]
    rfl

end Run

/-! The three routes, and what a request leaves on each. -/

section Routes

variable (dep : Deployment) (env : Surroundings) (res : HttpResponse) (d : Database)

def posts (path : String) (req : HttpRequest) : Prop :=
  req.method = lit "POST" ∧ req.target = lit path

instance (path : String) (req : HttpRequest) : Decidable (posts path req) :=
  inferInstanceAs (Decidable (_ ∧ _))

theorem httpRouter_routes (req : HttpRequest) :
    (httpRouter dep).routes (Router.key req.method req.target) =
      if posts "/test" req then some (withAuthentication dep (handleHelloWorld dep))
      else if posts "/user/login" req then some (handleUserLogin dep)
      else if posts "/user/create" req then some (handleCreateUser dep)
      else none := by
  simp only [httpRouter, Router.addRoute, Router.empty, Function.update_apply, posts,
    Router.key_eq_iff (lit "POST") (lit "/test") (by decide),
    Router.key_eq_iff (lit "POST") (lit "/user/login") (by decide),
    Router.key_eq_iff (lit "POST") (lit "/user/create") (by decide)]
  rfl

/-- A request whose handler cannot log what it caught: the greeting's, let in
with a body whose refusal quotes bytes that are not UTF-8. -/
def escapes (req : HttpRequest) : Prop :=
  posts "/test" req ∧ accepted dep env req = true ∧ dep.json.quotesInvalid req.body = true

theorem answers_answered (x : Except Exception (ResponseDto UserDto)) :
    res.Answers (answered dep res x) := by
  cases x with
  | ok response => exact .inr ⟨_, _, _, rfl⟩
  | error e => exact .inl rfl

theorem handleHelloWorld_cases (req : HttpRequest) :
    ∃ out res', run (handle env) (handleHelloWorld dep req) res d = (out, res', d) ∧
      res.Answers res' ∧ out.isOk = !dep.json.quotesInvalid req.body := by
  rw [run_handleHelloWorld]
  cases named : greeted dep req.body with
  | ok username =>
    refine ⟨_, _, rfl, .inr ⟨_, _, _, rfl⟩, ?_⟩
    rw [(greeted_ok dep named).2]
    rfl
  | error e =>
    refine ⟨_, _, rfl, .inl rfl, ?_⟩
    rw [← greeted_error dep named, logThen]
    cases isUtf8 e.what <;> rfl

theorem run_httpRouter_cases (req : HttpRequest) :
    ∃ out res' d', run (handle env) ((httpRouter dep).handleRequest req) res d = (out, res', d') ∧
      res.Answers res' ∧ (out.isOk = true ↔ ¬ escapes dep env req) := by
  have routes := httpRouter_routes dep req
  by_cases test : posts "/test" req
  · rw [if_pos test] at routes
    rw [run_handleRequest_some env res d routes, run_withAuthentication]
    by_cases good : accepted dep env req = true
    · obtain ⟨out, res', ran, fills, escaped⟩ := handleHelloWorld_cases dep env res d req
      rw [if_pos good, ran]
      cases out with
      | ok =>
        refine ⟨_, _, _, rfl, fills, iff_of_true rfl fun bad => ?_⟩
        rw [bad.2.2] at escaped
        cases escaped
      | error e =>
        refine ⟨_, _, _, rfl, fills, iff_of_false nofun fun bad => bad ⟨test, good, ?_⟩⟩
        simpa [Except.isOk, Except.toBool] using escaped.symm
    · rw [if_neg good]
      exact ⟨_, _, _, rfl, .inr ⟨_, _, _, rfl⟩, iff_of_true rfl fun bad => good bad.2.1⟩
  · have quiet : ¬ escapes dep env req := fun bad => test bad.1
    rw [if_neg test] at routes
    split_ifs at routes
    · rw [run_handleRequest_some env res d routes, run_handleUserLogin]
      exact ⟨_, _, _, rfl, answers_answered dep res _, iff_of_true rfl quiet⟩
    · rw [run_handleRequest_some env res d routes, run_handleCreateUser]
      exact ⟨_, _, _, rfl, answers_answered dep res _, iff_of_true rfl quiet⟩
    · rw [run_handleRequest_none env res d routes]
      exact ⟨_, _, _, rfl, .inl rfl, iff_of_true rfl quiet⟩

theorem run_httpRouter_unrouted {req : HttpRequest} (other : req.method ≠ lit "POST") :
    run (handle env) ((httpRouter dep).handleRequest req) res d = (.ok false, res, d) := by
  refine run_handleRequest_none env res d ?_
  rw [httpRouter_routes, if_neg fun h => other h.1, if_neg fun h => other h.1,
    if_neg fun h => other h.1]

end Routes

end Ccfolio.Controllers
