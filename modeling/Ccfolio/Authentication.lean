import Ccfolio.HttpSession
import Ccfolio.CredentialMap
import Ccfolio.Traces

/-! The authentication wrapper: when it calls the handler inside, and how it
answers when it does not; and the greeting behind it, end to end. -/

namespace Ccfolio.Authentication

open Utf8 StdText JsonValue Odb Programs Traces Calls LogService Http JwtHelper UserService
  CredentialMap Controllers HttpSession

section Wrapper

variable (dep : Deployment) (env : Surroundings) (d : Database) (req : HttpRequest)

/-- The request has an `Authorization` field of the bearer scheme whose token
`VerifyToken` accepts. -/
def Admitted : Prop :=
  ∃ token, req.find "Authorization" = some (lit "Bearer " ++ token) ∧
    (run (handle env) (verifyToken dep token : App Unit Bool) () d).1 = .ok true

variable {dep env d req}

theorem admitted_iff :
    Admitted dep env d req ↔
      ∃ token, req.find "Authorization" = some (lit "Bearer " ++ token) ∧
        env.verify dep.secretKey dep.projectName token = .ok () := by
  refine exists_congr fun token => and_congr_right fun _ => ?_
  rw [run_verifyToken, verifyTokenOutcome_true]
  cases env.verify dep.secretKey dep.projectName token <;> simp [Except.isOk, Except.toBool]

theorem accepted_iff : accepted dep env req = true ↔ Admitted dep env d req := by
  rw [admitted_iff, accepted]
  cases found : req.find "Authorization" with
  | none => simp
  | some value =>
    have verified : ∀ token, (env.verify dep.secretKey dep.projectName token).isOk = true ↔
        env.verify dep.secretKey dep.projectName token = .ok () := by
      intro token
      cases env.verify dep.secretKey dep.projectName token <;> simp [Except.isOk, Except.toBool]
    simp only [Bool.and_eq_true, verified, Option.some.injEq]
    constructor
    · rintro ⟨scheme, good⟩
      exact ⟨value.drop 7, bearer_drop scheme, good⟩
    · rintro ⟨token, rfl, good⟩
      exact ⟨List.isPrefixOf_iff_prefix.mpr (List.prefix_append _ _), good⟩

/-! Nothing before the wrapper's own call enters the handler. -/

section Avoids

variable {τ : Type}

theorem avoids_log (level : LogLevel) (message : Bytes) (site : Site) :
    Avoids (handle env) .granted (log dep level message site : App τ Unit) := by
  unfold log
  split_ifs
  · exact avoids_pure ()
  · exact avoids_bind (avoids_perform nofun) fun _ =>
      avoids_bind (avoids_ofExcept _) fun _ => avoids_perform nofun

theorem avoids_respond (status : Status) (contentType : String) (body : Except Exception Bytes) :
    Avoids (handle env) .granted (respond status contentType body) :=
  avoids_bind (avoids_modify _) fun _ => avoids_bind (avoids_modify _) fun _ =>
    avoids_bind (avoids_ofExcept _) fun _ => avoids_bind (avoids_modify _) fun _ =>
      avoids_modify _

theorem avoids_verifyToken (token : Bytes) :
    Avoids (handle env) .granted (verifyToken dep token : App τ Bool) := by
  refine avoids_tryCatch ?_ fun _ => avoids_bind (avoids_log _ _ _) fun _ => avoids_pure _
  exact avoids_bind (avoids_perform nofun) fun _ =>
    avoids_bind (avoids_ofExcept _) fun _ => avoids_pure _

theorem avoids_validateToken : Avoids (handle env) .granted (validateToken dep req) := by
  have reject : ∀ reason, Avoids (handle env) .granted (do
      respond .unauthorized "application/json" (.ok reason)
      pure false) :=
    fun reason => avoids_bind (avoids_respond _ _ _) fun _ => avoids_pure _
  refine avoids_tryCatch ?_ fun _ => avoids_bind (avoids_log _ _ _) fun _ => avoids_pure _
  cases req.find "Authorization" with
  | none => exact reject _
  | some value =>
    simp only
    split_ifs
    · exact reject _
    · refine avoids_bind (avoids_verifyToken _) fun good => ?_
      cases good with
      | false => exact reject _
      | true => exact avoids_pure _

end Avoids

theorem made_validateToken {token : Bytes} (res : HttpResponse)
    (found : req.find "Authorization" = some (lit "Bearer " ++ token))
    (good : env.verify dep.secretKey dep.projectName token = .ok ()) :
    made (handle env) (validateToken dep req) res d =
      [.verify dep.secretKey dep.projectName token] := by
  have scheme : bearer (lit "Bearer " ++ token) = true :=
    List.isPrefixOf_iff_prefix.mpr (List.prefix_append _ _)
  have rest : (lit "Bearer " ++ token).drop 7 = token := rfl
  simp only [validateToken, verifyToken, found, scheme, rest, Bool.not_true, Bool.false_eq_true,
    if_false, made_tryCatch, made_bind, made_perform, made_ofExcept, made_pure, run_tryCatch,
    run_bind, run_perform, run_ofExcept, run_pure, handle, good, andThen_ok, orCatch_ok]
  rfl

/-- The wrapped handler is called exactly for the requests admitted, as if it had not been wrapped;
any other request is answered with a rejection. -/
theorem authentication_exact (dep : Deployment) (env : Surroundings) (d : Database)
    (req : HttpRequest) (func : Http.Handler) (res : HttpResponse) :
    (Admitted dep env d req →
      run (handle env) (withAuthentication dep func req) res d =
          run (handle env) (func req) res d ∧
        ∃ token, made (handle env) (withAuthentication dep func req) res d =
          .verify dep.secretKey dep.projectName token :: .granted ::
            made (handle env) (func req) res d) ∧
    (¬ Admitted dep env d req →
      .granted ∉ made (handle env) (withAuthentication dep func req) res d ∧
        ∃ res', run (handle env) (withAuthentication dep func req) res d = (.ok (), res', d) ∧
          res'.result = .unauthorized ∧ res'.contentType = some (lit "application/json") ∧
          res'.contentLength = some res'.body.length) := by
  have validated := run_validateToken dep env d req res
  rw [run_withAuthentication, ← accepted_iff (d := d)]
  constructor
  · intro good
    obtain ⟨token, found, verified⟩ := admitted_iff.mp (accepted_iff (d := d).mp good)
    have passed : run (handle env) (validateToken dep req) res d = (.ok true, res, d) := by
      rcases validated with ⟨-, passed⟩ | ⟨bad, -⟩
      · exact passed
      · rw [good] at bad
        cases bad
    refine ⟨if_pos good, token, ?_⟩
    rw [withAuthentication, made_bind, made_validateToken res found verified, passed]
    rfl
  · intro bad
    refine ⟨?_, _, if_neg bad, rfl, rfl, rfl⟩
    have answered : ∃ res', run (handle env) (validateToken dep req) res d =
        (.ok false, res', d) := by
      rcases validated with ⟨good, -⟩ | ⟨-, same | ⟨reason, filled⟩⟩
      · exact absurd good bad
      · exact ⟨res, same⟩
      · exact ⟨_, filled⟩
    obtain ⟨res', rejected⟩ := answered
    rw [withAuthentication, made_bind, List.mem_append, not_or, rejected]
    exact ⟨avoids_validateToken res d, avoids_respond _ _ _ res' d⟩

end Wrapper

section Greeting

variable (dep : Deployment) (env : Surroundings) (d : Database) (req : HttpRequest)

/-- The body is a JSON object that has the username as a string. -/
def Names (body username : Bytes) : Prop :=
  ∃ j, dep.json.parse body = .ok j ∧ j.member "username" = some (.string username)

def Replies (P : HttpResponse → Prop) : Prop :=
  ∃ res d', run (handle env) (handleRequest (httpRouter dep) req) .default d = (.ok (), res, d') ∧
    P res

structure Serves : Prop where
  rejected : ¬ Admitted dep env d req → Replies dep env d req fun res => res.result = .unauthorized
  greeted : Admitted dep env d req → ∀ username, Names dep req.body username →
    Replies dep env d req fun res =>
      res.result = .ok ∧ res.contentType = some (lit "application/json") ∧
        ∃ j, res.body = dep.json.text (-1) j ∧
          j.member "message" = some (.string (lit "Hello " ++ username))
  refused : Admitted dep env d req → (∀ username, ¬ Names dep req.body username) →
    Replies dep env d req fun res => res.result ≠ .ok

variable {dep env d req}

theorem greeted_iff {body username : Bytes} :
    Controllers.greeted dep body = .ok username ↔ Names dep body username := by
  unfold Controllers.greeted Names JsonLib.parseBody
  cases dep.json.parse body with
  | error e => simp [Except.bind]
  | ok j => simpa [Except.bind] using textMember_ok

def greetingOutcome (dep : Deployment) (env : Surroundings) (req : HttpRequest) :
    Except Exception Unit × HttpResponse :=
  if accepted dep env req then
    match Controllers.greeted dep req.body with
    | .ok username => (.ok (),
        (HttpResponse.initial req).filled .ok "application/json"
          (dep.json.text (-1) (hello username)))
    | .error e => (logThen dep env .ERROR e.what helloSite (.ok ()), .initial req)
  else
    (.ok (), (HttpResponse.initial req).filled .unauthorized "application/json"
      (lit "Invalid or missing token"))

theorem run_greeting (route : posts "/test" req) :
    run (handle env) (handleRequest (httpRouter dep) req) .default d =
      ((greetingOutcome dep env req).1, (greetingOutcome dep env req).2, d) := by
  have routes := (httpRouter_routes dep req).trans (if_pos route)
  rw [HttpSession.run_handleRequest, run_handleRequest_some env _ d routes, run_withAuthentication,
    greetingOutcome]
  split_ifs
  · rw [run_handleHelloWorld]
    cases Controllers.greeted dep req.body with
    | ok username => rfl
    | error e =>
      simp only
      cases logThen dep env .ERROR e.what helloSite (.ok ()) <;> rfl
  · rfl

theorem replies_iff (route : posts "/test" req) {P : HttpResponse → Prop} :
    Replies dep env d req P ↔
      (greetingOutcome dep env req).1 = .ok () ∧ P (greetingOutcome dep env req).2 := by
  simp only [Replies, run_greeting route, Prod.mk.injEq]
  constructor
  · rintro ⟨res, d', ⟨returned, rfl, -⟩, holds⟩
    exact ⟨returned, holds⟩
  · rintro ⟨returned, holds⟩
    exact ⟨_, d, ⟨returned, rfl, rfl⟩, holds⟩

theorem not_replies_nameless (route : posts "/test" req) (good : Admitted dep env d req)
    (nameless : ∀ username, ¬ Names dep req.body username) :
    ¬ Replies dep env d req fun res => res.result ≠ .ok := by
  rw [replies_iff route, greetingOutcome, if_pos (accepted_iff.mpr good)]
  cases named : Controllers.greeted dep req.body with
  | ok username => exact absurd (greeted_iff.mp named) (nameless username)
  | error e => exact fun bad => bad.2 rfl

/-- The route answers as it says for every request but those let in with a body that names
nobody. -/
theorem greeting_served_iff (dep : Deployment) (env : Surroundings) (d : Database)
    (req : HttpRequest) (route : posts "/test" req) :
    Serves dep env d req ↔
      ¬ Admitted dep env d req ∨ ∃ username, Names dep req.body username := by
  constructor
  · intro serves
    by_contra unserved
    obtain ⟨good, nameless⟩ := not_or.mp unserved
    have admitted := not_not.mp good
    exact not_replies_nameless route admitted (not_exists.mp nameless)
      (serves.refused admitted (not_exists.mp nameless))
  · intro served
    refine ⟨fun bad => ?_, fun good username named => ?_, fun good nameless => ?_⟩
    · rw [replies_iff route, greetingOutcome, if_neg (mt accepted_iff.mp bad)]
      exact ⟨rfl, rfl⟩
    · rw [replies_iff route, greetingOutcome, if_pos (accepted_iff.mpr good),
        greeted_iff.mpr named]
      exact ⟨rfl, rfl, rfl, hello username, rfl, Json.member_ofFields_head nofun⟩
    · rcases served with bad | ⟨username, named⟩
      · exact absurd good bad
      · exact absurd named (nameless username)

def bracketRequest : HttpRequest :=
  ⟨lit "POST", lit "/test", 11, true,
    [(lit "Authorization", lit "Bearer aGVhZGVy.cGF5bG9hZA.c2ln")], lit "["⟩

theorem greeting_served_bracket :
    Serves .refusing .calm .empty bracketRequest ↔
      ¬ Admitted .refusing .calm .empty bracketRequest ∨
        ∃ username, Names .refusing bracketRequest.body username :=
  greeting_served_iff .refusing .calm .empty bracketRequest ⟨rfl, rfl⟩

theorem greeting_unserved : ¬ Serves .refusing .calm .empty bracketRequest := by
  have good : Admitted .refusing .calm .empty bracketRequest :=
    accepted_iff.mp (by decide)
  have nameless : ∀ username, ¬ Names .refusing bracketRequest.body username :=
    fun username ⟨j, parsed, _⟩ => nomatch parsed
  exact fun serves => not_replies_nameless ⟨rfl, rfl⟩ good nameless (serves.refused good nameless)

end Greeting

end Ccfolio.Authentication
