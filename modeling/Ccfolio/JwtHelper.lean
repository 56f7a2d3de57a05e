import Ccfolio.Http
import Ccfolio.LogService

/-! `JWTHelper`: minting a token for three minutes, and checking the token of
an `Authorization` field. -/

namespace Ccfolio.JwtHelper

open Utf8 StdText Odb Programs Calls LogService Http

/-- A second in nanoseconds. -/
def second : Nat := 1000000000

def lifetime : Nat := 3 * 60 * second

/-- The claims of a token minted at `now` (in nanoseconds); dates are stored in
whole seconds. -/
def mintClaims (dep : Deployment) (username : Bytes) (now : Nat) : Claims where
  type := lit "JWS"
  issuer := dep.projectName
  issuedAt := now / second
  expiresAt := (now + lifetime) / second
  username := username

theorem expiresAt_le (dep : Deployment) (username : Bytes) (now : Nat) :
    (mintClaims dep username now).expiresAt * second ≤ now + lifetime :=
  Nat.div_mul_le_self _ _

def createSite : Site := ⟨"JWTHelper.cc", 41, "CreateJWTToken", by decide⟩

def verifySite : Site := ⟨"JWTHelper.cc", 64, "VerifyToken", by decide⟩

def validateSite : Site := ⟨"JWTHelper.cc", 114, "ValidateToken", by decide⟩

def createFailed : Exception := runtimeError "Error while trying to create JWT token"

theorem createFailed_utf8 : isUtf8 createFailed.what = true := by decide

section App

variable {τ : Type} (dep : Deployment)

def createJWTToken (username : Bytes) : App τ Bytes := do
  try
    let now ← call .systemClock
    let token ← MonadExcept.ofExcept (← call (.sign dep.secretKey (mintClaims dep username now)))
    pure token.val
  catch e =>
    log dep .ERROR e.what createSite
    throw createFailed

def verifyToken (token : Bytes) : App τ Bool := do
  try
    MonadExcept.ofExcept (← call (.verify dep.secretKey dep.projectName token))
    pure true
  catch e =>
    log dep .ERROR (lit "Error while trying to verify token. Error: " ++ e.what) verifySite
    pure false

/-- `token.find("Bearer ") == 0`. -/
def bearer (value : Bytes) : Bool := (lit "Bearer ").isPrefixOf value

theorem bearer_drop {value : Bytes} (h : bearer value = true) :
    value = lit "Bearer " ++ value.drop 7 := by
  obtain ⟨token, rfl⟩ := List.isPrefixOf_iff_prefix.mp h
  rfl

def validateToken (req : HttpRequest) : App HttpResponse Bool := do
  try
    match req.find "Authorization" with
    | none =>
      respond .unauthorized "application/json" (.ok (lit "Authorization header is missing"))
      pure false
    | some value =>
      if !bearer value then
        respond .unauthorized "application/json" (.ok (lit "Invalid token format"))
        pure false
      else
        let token := value.drop 7
        if !(← verifyToken dep token) then
          respond .unauthorized "application/json" (.ok (lit "Invalid or expired token"))
          pure false
        else
          pure true
  catch e =>
    log dep .ERROR (lit "Error while trying to validate token. Error: " ++ e.what) validateSite
    pure false

end App

section Run

variable {τ : Type} (dep : Deployment) (env : Surroundings) (t : τ) (d : Database)

def tokenOutcome (username : Bytes) : Except Exception Bytes :=
  logged dep env createSite (.error createFailed)
    ((env.sign dep.secretKey (mintClaims dep username env.now)).map Subtype.val)

theorem run_createJWTToken (username : Bytes) :
    run (handle env) (createJWTToken dep username) t d = (tokenOutcome dep env username, t, d) := by
  refine run_catch_throw dep env createSite ?_ createFailed
  simp only [run_bind, run_perform, run_ofExcept, handle, andThen_ok]
  cases env.sign dep.secretKey (mintClaims dep username env.now) <;> rfl

theorem tokenOutcome_ok {username token : Bytes} :
    tokenOutcome dep env username = .ok token ↔
      ∃ text, env.sign dep.secretKey (mintClaims dep username env.now) = .ok text ∧
        text.val = token := by
  constructor
  · intro h
    rcases logged_ok dep env createSite h with signed | thrown
    · cases reply : env.sign dep.secretKey (mintClaims dep username env.now) with
      | error e => rw [reply] at signed; cases signed
      | ok text => rw [reply] at signed; cases signed; exact ⟨text, rfl, rfl⟩
    · cases thrown
  · rintro ⟨text, signed, rfl⟩
    simp [tokenOutcome, signed, logged, Except.map]

theorem tokenOutcome_error {username : Bytes} {e : Exception}
    (h : tokenOutcome dep env username = .error e) : isUtf8 e.what = true := by
  refine logged_error dep env createSite (fun thrown eq => ?_) h
  cases eq
  exact createFailed_utf8

def verifyTokenOutcome (token : Bytes) : Except Exception Bool :=
  match env.verify dep.secretKey dep.projectName token with
  | .ok _ => .ok true
  | .error e => logThen dep env .ERROR
      (lit "Error while trying to verify token. Error: " ++ e.what) verifySite (.ok false)

theorem run_verifyToken (token : Bytes) :
    run (handle env) (verifyToken dep token) t d = (verifyTokenOutcome dep env token, t, d) := by
  simp only [verifyToken, verifyTokenOutcome, run_tryCatch, run_bind, run_perform, run_ofExcept,
    handle, andThen_ok]
  cases env.verify dep.secretKey dep.projectName token with
  | ok => rfl
  | error e => simp

theorem verifyTokenOutcome_error {token : Bytes} {e : Exception}
    (h : verifyTokenOutcome dep env token = .error e) : isUtf8 e.what = true := by
  unfold verifyTokenOutcome at h
  split at h
  · cases h
  · rcases logThen_error dep env .ERROR verifySite h with none | utf8
    · cases none
    · exact utf8

def accepted (req : HttpRequest) : Bool :=
  match req.find "Authorization" with
  | none => false
  | some value =>
      bearer value && (env.verify dep.secretKey dep.projectName (value.drop 7)).isOk

theorem verifyTokenOutcome_true (token : Bytes) :
    verifyTokenOutcome dep env token = .ok true ↔
      (env.verify dep.secretKey dep.projectName token).isOk = true := by
  unfold verifyTokenOutcome
  cases env.verify dep.secretKey dep.projectName token with
  | ok => simp [Except.isOk, Except.toBool]
  | error e =>
    have refused : logThen dep env .ERROR
        (lit "Error while trying to verify token. Error: " ++ e.what) verifySite (.ok false) ≠
          .ok true :=
      fun h => by cases logThen_ok dep env .ERROR verifySite h
    simpa [Except.isOk, Except.toBool] using refused

theorem run_validateToken (req : HttpRequest) (res : HttpResponse) :
    (accepted dep env req = true ∧
      run (handle env) (validateToken dep req) res d = (.ok true, res, d)) ∨
    (accepted dep env req = false ∧
      (run (handle env) (validateToken dep req) res d = (.ok false, res, d) ∨
        ∃ reason, run (handle env) (validateToken dep req) res d =
          (.ok false, res.filled .unauthorized "application/json" reason, d))) := by
  unfold validateToken accepted
  cases req.find "Authorization" with
  | none => exact .inr ⟨rfl, .inr ⟨_, rfl⟩⟩
  | some value =>
    simp only
    cases scheme : bearer value with
    | false => exact .inr ⟨rfl, .inr ⟨_, rfl⟩⟩
    | true =>
      have verified := verifyTokenOutcome_true dep env (value.drop 7)
      simp only [Bool.not_true, Bool.false_eq_true, if_false, Bool.true_and, run_tryCatch,
        run_bind, run_verifyToken]
      cases out : verifyTokenOutcome dep env (value.drop 7) with
      | ok good =>
        rw [out] at verified
        cases good with
        | false => exact .inr ⟨by simpa using verified, .inr ⟨_, rfl⟩⟩
        | true => exact .inl ⟨verified.mp rfl, rfl⟩
      | error e =>
        have plain := verifyTokenOutcome_error dep env out
        have text : isUtf8 (lit "Error while trying to validate token. Error: " ++ e.what) = true :=
          isUtf8_append (by decide) plain
        rw [out] at verified
        refine .inr ⟨by simpa using verified, .inl ?_⟩
        simp only [andThen_error, orCatch_error, run_bind, run_log, logThen_utf8 _ _ _ _ text]
        rfl

end Run

end Ccfolio.JwtHelper
