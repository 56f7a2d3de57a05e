import Ccfolio.JwtHelper
import Ccfolio.PasswordHelper
import Ccfolio.Repositories

/-! `ResponseDto`, `UserDto` and `UserService`. -/

namespace Ccfolio.UserService

open Utf8 StdText JsonValue Odb Programs Calls LogService Repositories PasswordHelper JwtHelper

structure UserDto where
  username : Bytes
  token : Bytes
  deriving DecidableEq, Repr

def UserDto.toJson (dto : UserDto) : Json :=
  .ofFields [("username", .string dto.username), ("token", .string dto.token)]

structure ResponseDto (T : Type) where
  isSuccess : Bool
  result : Option T
  errorMessage : Option Bytes
  deriving DecidableEq, Repr

namespace ResponseDto

variable {T : Type}

def success (data : T) : ResponseDto T := ⟨true, some data, none⟩

def failure (message : Bytes) : ResponseDto T := ⟨false, none, some message⟩

def toJson (response : ResponseDto UserDto) : Json :=
  .ofFields ([("isSuccess", .boolean response.isSuccess)] ++
    (response.result.map fun data => ("result", data.toJson)).toList ++
    (response.errorMessage.map fun message => ("errorMessage", .string message)).toList)

theorem toJson_success (data : UserDto) :
    (success data).toJson = .ofFields [("isSuccess", .boolean true), ("result", data.toJson)] := rfl

theorem toJson_failure (message : Bytes) :
    (failure message : ResponseDto UserDto).toJson =
      .ofFields [("isSuccess", .boolean false), ("errorMessage", .string message)] := rfl

theorem wellEncoded_success {data : UserDto} (utf8 : isUtf8 data.username = true)
    (plain : isUtf8 data.token = true) : (success data).toJson.wellEncoded = true := by
  have inner : data.toJson.wellEncoded = true := by
    rw [UserDto.toJson, Json.wellEncoded_ofFields (by simp only [List.map]; decide)
      (by simp only [List.all]; decide)]
    simp [Json.wellEncoded, utf8, plain]
  rw [toJson_success, Json.wellEncoded_ofFields (by simp only [List.map]; decide)
    (by simp only [List.all]; decide)]
  simp [Json.wellEncoded, inner]

theorem wellEncoded_failure {message : Bytes} (utf8 : isUtf8 message = true) :
    (failure message : ResponseDto UserDto).toJson.wellEncoded = true := by
  rw [toJson_failure, Json.wellEncoded_ofFields (by simp only [List.map]; decide)
    (by simp only [List.all]; decide)]
  simp [Json.wellEncoded, utf8]

theorem member_isSuccess (response : ResponseDto UserDto) :
    response.toJson.member "isSuccess" = some (.boolean response.isSuccess) := by
  refine Json.member_ofFields_head fun f mem => ?_
  rcases List.mem_append.mp mem with mem | mem
  · obtain ⟨data, -, rfl⟩ := by simpa using mem
    simp only
    decide
  · obtain ⟨data, -, rfl⟩ := by simpa using mem
    simp only
    decide

end ResponseDto

def Fails (x : Except Exception (ResponseDto UserDto)) : Prop :=
  ∀ response, x = .ok response → response.isSuccess = false

section App

variable {τ : Type} (dep : Deployment)

/-- `jsonPayload[name]` converted to `std::string`. -/
def member (jsonPayload : Json) (name : String) : App τ Bytes := do
  MonadExcept.ofExcept (← MonadExcept.ofExcept (Json.index name jsonPayload)).toStdString

def invalidJson : Bytes := lit "Invalid JSON format"

def tryAgainLater : Bytes := lit "Something happened, please try again later"

def createInfoSite : Site := ⟨"UserService.h", 71, "CreateUser", by decide⟩

def createJsonSite : Site := ⟨"UserService.h", 77, "CreateUser", by decide⟩

def createStdSite : Site := ⟨"UserService.h", 82, "CreateUser", by decide⟩

def loginInfoSite : Site := ⟨"UserService.h", 104, "UserLogin", by decide⟩

def wrongPasswordSite : Site := ⟨"UserService.h", 113, "UserLogin", by decide⟩

def loginJsonSite : Site := ⟨"UserService.h", 124, "UserLogin", by decide⟩

def loginStdSite : Site := ⟨"UserService.h", 129, "UserLogin", by decide⟩

def createUser (request : Bytes) : App τ (ResponseDto UserDto) := do
  try
    let jsonPayload ← MonadExcept.ofExcept (dep.json.parseBody request)
    let username ← member jsonPayload "username"
    let password ← member jsonPayload "password"
    let (hashedPassword, salt) ← PasswordHelper.hashPasswordWithArgon2 dep password
    let saltStr := Utility.toHexString salt
    let creationResult ← Repositories.createUser dep ⟨0, username, hashedPassword, saltStr⟩
    if creationResult.isSuccess then
      let token ← JwtHelper.createJWTToken dep username
      pure (.success ⟨username, token⟩)
    else
      let errorMessage ← MonadExcept.ofExcept creationResult.getErrorMessage
      log dep .INFO errorMessage createInfoSite
      pure (.failure errorMessage)
  catch e =>
    match e.kind with
    | .json =>
      log dep .ERROR e.what createJsonSite
      pure (.failure invalidJson)
    | _ =>
      log dep .ERROR e.what createStdSite
      pure (.failure tryAgainLater)

def userLogin (request : Bytes) : App τ (ResponseDto UserDto) := do
  try
    let jsonPayload ← MonadExcept.ofExcept (dep.json.parseBody request)
    let username ← member jsonPayload "username"
    let password ← member jsonPayload "password"
    let userResult ← getUserByUsername dep username
    let found ←
      if userResult.isSuccess then MonadExcept.ofExcept userResult.getResult else pure none
    match found with
    | none =>
      let errorMessage ← MonadExcept.ofExcept userResult.getErrorMessage
      log dep .INFO errorMessage loginInfoSite
      pure (.failure errorMessage)
    | some user =>
      let isLoginSuccess ←
        PasswordHelper.verifyUserPassword dep user.passwordHash user.salt password
      if !isLoginSuccess then
        log dep .INFO
          (lit "Wrong username or password for user with username: " ++ user.username)
          wrongPasswordSite
        pure (.failure (lit "Wrong username or password!"))
      else
        let token ← JwtHelper.createJWTToken dep user.username
        pure (.success ⟨user.username, token⟩)
  catch e =>
    match e.kind with
    | .json =>
      log dep .ERROR e.what loginJsonSite
      pure (.failure invalidJson)
    | _ =>
      log dep .ERROR e.what loginStdSite
      pure (.failure tryAgainLater)

end App

section Run

variable {τ : Type} (dep : Deployment) (env : Surroundings) (t : τ) (d : Database)

def textMember (jsonPayload : Json) (name : String) : Except Exception Bytes :=
  (Json.index name jsonPayload).bind Json.toStdString

/-- What a body asks for, or why it cannot be read. -/
def credentials (request : Bytes) : Except Exception (Bytes × Bytes) := do
  let jsonPayload ← dep.json.parseBody request
  let username ← textMember jsonPayload "username"
  let password ← textMember jsonPayload "password"
  pure (username, password)

/-- The two handlers at the end of either operation. -/
def caught (jsonSite stdSite : Site) (x : Except Exception (ResponseDto UserDto)) :
    Except Exception (ResponseDto UserDto) :=
  match x with
  | .ok response => .ok response
  | .error e =>
    match e.kind with
    | .json => logThen dep env .ERROR e.what jsonSite (.ok (.failure invalidJson))
    | _ => logThen dep env .ERROR e.what stdSite (.ok (.failure tryAgainLater))

def registered (username : Bytes) (creation : Except Exception (OperationResult User)) :
    Except Exception (ResponseDto UserDto) :=
  match creation with
  | .error e => .error e
  | .ok (.successResult _) =>
      (tokenOutcome dep env username).map fun token => .success ⟨username, token⟩
  | .ok (.failureResult message) =>
      logThen dep env .INFO message createInfoSite (.ok (.failure message))

def newUser (username hashedPassword : Bytes) (salt : List UInt8) : User :=
  ⟨0, username, hashedPassword, Utility.toHexString salt⟩

def registerTry (request : Bytes) : Except Exception (ResponseDto UserDto) × Database :=
  match credentials dep request with
  | .error e => (.error e, d)
  | .ok (username, password) =>
    match hashOutcome dep env password with
    | .error e => (.error e, d)
    | .ok (hashedPassword, salt) =>
      let creation := createUserOutcome dep env d (newUser username hashedPassword salt)
      (registered dep env username creation.1, creation.2)

def registerOutcome (request : Bytes) : Except Exception (ResponseDto UserDto) × Database :=
  (caught dep env createJsonSite createStdSite (registerTry dep env d request).1,
    (registerTry dep env d request).2)

def checked (password : Bytes) (user : User) : Except Exception (ResponseDto UserDto) :=
  match verifyOutcome dep env user.passwordHash user.salt password with
  | .error e => .error e
  | .ok true =>
      (tokenOutcome dep env user.username).map fun token => .success ⟨user.username, token⟩
  | .ok false =>
      logThen dep env .INFO
        (lit "Wrong username or password for user with username: " ++ user.username)
        wrongPasswordSite (.ok (.failure (lit "Wrong username or password!")))

def found (password : Bytes) (lookup : Except Exception (OperationResult (Option User))) :
    Except Exception (ResponseDto UserDto) :=
  match lookup with
  | .error e => .error e
  | .ok (.failureResult message) =>
      logThen dep env .INFO message loginInfoSite (.ok (.failure message))
  | .ok (.successResult none) =>
      .error (logicError "Attempted to access error message of a successful operation.")
  | .ok (.successResult (some user)) => checked dep env password user

def loginTry (request : Bytes) : Except Exception (ResponseDto UserDto) :=
  match credentials dep request with
  | .error e => .error e
  | .ok (username, password) => found dep env password (lookupOutcome dep env d username)

def loginOutcome (request : Bytes) : Except Exception (ResponseDto UserDto) :=
  caught dep env loginJsonSite loginStdSite (loginTry dep env d request)

theorem run_member (jsonPayload : Json) (name : String) :
    run (handle env) (member jsonPayload name : App τ Bytes) t d =
      (textMember jsonPayload name, t, d) := by
  simp only [member, textMember, run_bind, run_ofExcept]
  cases Json.index name jsonPayload with
  | error e => rfl
  | ok value => rw [andThen_ok, run_ofExcept]; rfl

theorem run_caught {x : App τ (ResponseDto UserDto)} {t' : τ} {d' : Database}
    (out : Except Exception (ResponseDto UserDto))
    (h : run (handle env) x t d = (out, t', d')) (jsonSite stdSite : Site) :
    run (handle env) (tryCatch x fun e => match e.kind with
      | .json => do
        log dep .ERROR e.what jsonSite
        pure (.failure invalidJson)
      | _ => do
        log dep .ERROR e.what stdSite
        pure (.failure tryAgainLater)) t d = (caught dep env jsonSite stdSite out, t', d') := by
  rw [run_tryCatch, h]
  cases out with
  | ok response => rfl
  | error e => rcases e with ⟨_ | _ | _, what⟩ <;> simp [caught]

theorem run_credentials {α : Type} (request : Bytes) (next : Bytes → Bytes → App τ α) :
    run (handle env) (do
      let jsonPayload ← MonadExcept.ofExcept (dep.json.parseBody request)
      let username ← member jsonPayload "username"
      let password ← member jsonPayload "password"
      next username password) t d =
      andThen (credentials dep request, t, d) fun asked =>
        run (handle env) (next asked.1 asked.2) := by
  rw [run_bind, run_ofExcept, credentials]
  cases dep.json.parseBody request with
  | error e => rfl
  | ok jsonPayload =>
    rw [andThen_ok, run_bind, run_member]
    change _ = andThen ((textMember jsonPayload "username").bind fun username =>
      (textMember jsonPayload "password").bind fun password => .ok (username, password), t, d) _
    cases textMember jsonPayload "username" with
    | error e => rfl
    | ok username =>
      rw [andThen_ok, run_bind, run_member]
      cases textMember jsonPayload "password" <;> rfl

theorem run_createUser (request : Bytes) :
    run (handle env) (createUser dep request) t d =
      ((registerOutcome dep env d request).1, t, (registerOutcome dep env d request).2) := by
  unfold createUser
  refine run_caught dep env t d (registerTry dep env d request).1 ?_ createJsonSite
    createStdSite
  rw [run_credentials, registerOutcome, registerTry]
  rcases credentials dep request with e | ⟨username, password⟩
  · rfl
  · simp only [andThen_ok, run_bind, run_hashPasswordWithArgon2]
    rcases hashOutcome dep env password with e | ⟨hashedPassword, salt⟩
    · rfl
    · simp only [andThen_ok, run_bind, Repositories.run_createUser, newUser]
      generalize createUserOutcome dep env d _ = creation
      rcases creation with ⟨e | stored | message, d'⟩
      · rfl
      · simp only [andThen_ok, OperationResult.isSuccess, if_true, run_bind,
          run_createJWTToken, registered]
        cases tokenOutcome dep env username <;> rfl
      · simp [OperationResult.isSuccess, OperationResult.getErrorMessage, registered]

theorem run_userLogin (request : Bytes) :
    run (handle env) (userLogin dep request) t d = (loginOutcome dep env d request, t, d) := by
  unfold userLogin
  refine run_caught dep env t d (loginTry dep env d request) ?_ loginJsonSite loginStdSite
  rw [run_credentials, loginTry]
  rcases credentials dep request with e | ⟨username, password⟩
  · rfl
  · simp only [andThen_ok, run_bind, run_getUserByUsername]
    rcases lookupOutcome dep env d username with e | (_ | user) | message
    · rfl
    · rfl
    · simp only [andThen_ok, OperationResult.isSuccess, if_true, OperationResult.getResult,
        run_ofExcept, run_bind, run_verifyUserPassword, found, checked]
      rcases verifyOutcome dep env user.passwordHash user.salt password with e | _ | _
      · rfl
      · simp
      · simp only [andThen_ok, Bool.not_true, Bool.false_eq_true, if_false, run_bind,
          run_createJWTToken]
        cases tokenOutcome dep env user.username <;> rfl
    · simp [OperationResult.isSuccess, OperationResult.getErrorMessage, found]

end Run

/-! What a request leaves behind: who is entered or admitted, the row stored,
the answer, and that every text in it is UTF-8. -/

section Cases

variable (dep : Deployment) (env : Surroundings) (d : Database)

theorem textMember_utf8 {jsonPayload : Json} {name : String} {value : Bytes}
    (encoded : jsonPayload.wellEncoded = true) (h : textMember jsonPayload name = .ok value) :
    isUtf8 value = true := by
  obtain ⟨j, found, converted⟩ := bind_eq_ok.mp h
  have text := Json.index_object found encoded
  rw [Json.toStdString_eq_ok converted, Json.wellEncoded] at text
  exact text

theorem textMember_error {jsonPayload : Json} {name : String} {e : Exception}
    (h : textMember jsonPayload name = .error e) : isUtf8 e.what = true := by
  rcases bind_eq_error.mp h with thrown | ⟨j, -, thrown⟩
  · exact (Json.index_error thrown).2
  · exact (Json.toStdString_error thrown).2

theorem credentials_ok {request username password : Bytes}
    (h : credentials dep request = .ok (username, password)) :
    ∃ jsonPayload, dep.json.parseBody request = .ok jsonPayload ∧
      textMember jsonPayload "username" = .ok username ∧
      textMember jsonPayload "password" = .ok password := by
  obtain ⟨jsonPayload, parsed, members⟩ := bind_eq_ok.mp h
  obtain ⟨u, first, rest⟩ := bind_eq_ok.mp members
  obtain ⟨p, second, pair⟩ := bind_eq_ok.mp rest
  obtain ⟨rfl, rfl⟩ := Prod.mk.inj (Except.ok.inj pair)
  exact ⟨jsonPayload, parsed, first, second⟩

theorem credentials_utf8 {request username password : Bytes}
    (h : credentials dep request = .ok (username, password)) :
    isUtf8 username = true ∧ dep.json.quotesInvalid request = false := by
  obtain ⟨jsonPayload, parsed, first, -⟩ := credentials_ok dep h
  obtain ⟨encoded, plain⟩ := dep.json.parseBody_ok parsed
  exact ⟨textMember_utf8 encoded first, plain⟩

theorem credentials_error {request : Bytes} {e : Exception}
    (h : credentials dep request = .error e) :
    isUtf8 e.what = !dep.json.quotesInvalid request := by
  rcases bind_eq_error.mp h with thrown | ⟨jsonPayload, parsed, members⟩
  · exact (dep.json.parseBody_error thrown).2
  · rw [(dep.json.parseBody_ok parsed).2]
    rcases bind_eq_error.mp members with thrown | ⟨username, -, rest⟩
    · exact textMember_error thrown
    · rcases bind_eq_error.mp rest with thrown | ⟨password, -, done⟩
      · exact textMember_error thrown
      · cases done

/-- The row a registration stores, if it stores one. -/
def enters (request : Bytes) : Option User :=
  match credentials dep request with
  | .error _ => none
  | .ok (username, password) =>
    match hashOutcome dep env password with
    | .error _ => none
    | .ok (hashedPassword, salt) =>
      let user := newUser username hashedPassword salt
      if stores dep env d user then some user else none

theorem enters_iff {request : Bytes} {user : User} :
    enters dep env d request = some user ↔
      ∃ username password hashedPassword salt,
        credentials dep request = .ok (username, password) ∧
        hashOutcome dep env password = .ok (hashedPassword, salt) ∧
        stores dep env d (newUser username hashedPassword salt) = true ∧
        newUser username hashedPassword salt = user := by
  constructor
  · intro h
    unfold enters at h
    split at h
    · cases h
    next username password asked =>
      split at h
      · cases h
      next hashedPassword salt hashed =>
        simp only [Option.ite_none_right_eq_some, Option.some.injEq] at h
        exact ⟨username, password, hashedPassword, salt, asked, hashed, h⟩
  · rintro ⟨username, password, hashedPassword, salt, asked, hashed, stored, rfl⟩
    simp only [enters, asked, hashed, stored, if_true]

/-- The row a login is let in by, if it is. -/
def admits (request : Bytes) : Option User :=
  match credentials dep request with
  | .error _ => none
  | .ok (username, password) =>
    match (runTx (env.faults (.selectByUsername username)) (.selectByUsername username) d).1 with
    | .ok (some user) =>
      match verifyOutcome dep env user.passwordHash user.salt password with
      | .ok true => some user
      | _ => none
    | _ => none

def minted (username : Bytes) : Except Exception (ResponseDto UserDto) :=
  (tokenOutcome dep env username).map fun token => .success ⟨username, token⟩

/-- A result that is no success; `garbled` says whether the body's refusal
quotes bytes that are not UTF-8. -/
def troubled (garbled : Bool) : Except Exception (ResponseDto UserDto) → Prop
  | .ok response => garbled = false ∧ ∃ message, response = .failure message ∧ isUtf8 message = true
  | .error e => isUtf8 e.what = !garbled

def failed (garbled : Bool) : Except Exception (ResponseDto UserDto) → Prop
  | .ok response => garbled = false ∧ ∃ message, response = .failure message ∧ isUtf8 message = true
  | .error e => garbled = true ∧ isUtf8 e.what = true

theorem caught_failed {garbled : Bool} {x : Except Exception (ResponseDto UserDto)}
    (h : troubled garbled x) (jsonSite stdSite : Site) :
    failed garbled (caught dep env jsonSite stdSite x) := by
  cases x with
  | ok response => exact h
  | error e =>
    have behind : ∀ {site : Site} {message : Bytes}, isUtf8 message = true →
        failed garbled (logThen dep env .ERROR e.what site (.ok (.failure message))) := by
      intro site message plain
      unfold logThen
      split
      next utf8 => exact ⟨by simpa [utf8] using h.symm, message, rfl, plain⟩
      next bad => exact ⟨by simpa [bad] using h.symm, (dep.json.invalidUtf8 _).property⟩
    unfold caught
    simp only
    split
    · exact behind (by decide)
    · exact behind (by decide)

theorem minted_cases (username : Bytes) (jsonSite stdSite : Site) :
    (∃ token, tokenOutcome dep env username = .ok token ∧
      caught dep env jsonSite stdSite (minted dep env username) =
        .ok (.success ⟨username, token⟩)) ∨
    ((∀ token, tokenOutcome dep env username ≠ .ok token) ∧
      failed false (caught dep env jsonSite stdSite (minted dep env username))) := by
  unfold minted
  cases made : tokenOutcome dep env username with
  | ok token => exact .inl ⟨token, rfl, rfl⟩
  | error e =>
    refine .inr ⟨nofun, caught_failed dep env ?_ jsonSite stdSite⟩
    exact tokenOutcome_error dep env made

theorem wrongPassword_utf8 {username : Bytes} (utf8 : isUtf8 username = true) :
    isUtf8 (lit "Wrong username or password for user with username: " ++ username) = true :=
  isUtf8_append (by decide) utf8

theorem registerTry_some {request : Bytes} {user : User}
    (h : enters dep env d request = some user) :
    registerTry dep env d request = (minted dep env user.username, d.insert user) ∧
      isUtf8 user.username = true ∧ dep.json.quotesInvalid request = false := by
  obtain ⟨username, password, hashedPassword, salt, asked, hashed, stored, rfl⟩ :=
    (enters_iff dep env d).mp h
  refine ⟨?_, credentials_utf8 dep asked⟩
  simp only [registerTry, asked, hashed, createUserOutcome_stores dep env d stored, registered]
  rfl

theorem registerTry_none {request : Bytes} (h : enters dep env d request = none) :
    (registerTry dep env d request).2.rows = d.rows ∧
      troubled (dep.json.quotesInvalid request) (registerTry dep env d request).1 := by
  unfold enters at h
  unfold registerTry
  cases asked : credentials dep request with
  | error e => exact ⟨rfl, credentials_error dep asked⟩
  | ok pair =>
    obtain ⟨username, password⟩ := pair
    obtain ⟨utf8, plain⟩ := credentials_utf8 dep asked
    rw [plain]
    cases hashed : hashOutcome dep env password with
    | error e =>
      simp only [hashed]
      exact ⟨trivial, hashOutcome_error dep env hashed⟩
    | ok made =>
      obtain ⟨hashedPassword, salt⟩ := made
      simp only [asked, hashed, ite_eq_right_iff, reduceCtorEq, imp_false, Bool.not_eq_true] at h
      obtain ⟨unchanged, refusal⟩ := createUserOutcome_refused dep env d h
      simp only [hashed]
      refine ⟨unchanged, ?_⟩
      revert refusal
      rcases (createUserOutcome dep env d (newUser username hashedPassword salt)).1 with
        e | stored | message
      · exact id
      · exact False.elim
      · intro readable
        rw [registered, logThen_utf8 dep env .INFO createInfoSite (readable utf8)]
        exact ⟨rfl, message, rfl, readable utf8⟩

theorem loginTry_some {request : Bytes} {user : User} (h : admits dep env d request = some user) :
    loginTry dep env d request = minted dep env user.username ∧
      isUtf8 user.username = true ∧ dep.json.quotesInvalid request = false := by
  unfold admits at h
  unfold loginTry
  cases asked : credentials dep request with
  | error e => rw [asked] at h; cases h
  | ok pair =>
    obtain ⟨username, password⟩ := pair
    obtain ⟨utf8, plain⟩ := credentials_utf8 dep asked
    simp only [asked] at h
    split at h
    next row replied =>
      split at h
      next verified =>
        cases h
        obtain ⟨-, rfl⟩ := runTx_select_some replied
        refine ⟨?_, utf8, plain⟩
        simp only [lookupOutcome, replied, Except.map, logged, report, found, checked, verified]
        rfl
      · cases h
    · cases h

theorem loginTry_none {request : Bytes} (h : admits dep env d request = none) :
    troubled (dep.json.quotesInvalid request) (loginTry dep env d request) := by
  unfold admits at h
  unfold loginTry
  cases asked : credentials dep request with
  | error e => exact credentials_error dep asked
  | ok pair =>
    obtain ⟨username, password⟩ := pair
    obtain ⟨utf8, plain⟩ := credentials_utf8 dep asked
    rw [plain]
    change troubled false (found dep env password (lookupOutcome dep env d username))
    rcases lookupOutcome_cases dep env d username with ⟨row, -, rfl, replied, looked⟩ | missing
    · simp only [asked, replied] at h
      rw [looked, found, checked]
      rcases verified : verifyOutcome dep env row.passwordHash row.salt password with e | _ | _
      · exact verifyOutcome_error dep env verified
      · simp only [logThen_utf8 dep env .INFO wrongPasswordSite (wrongPassword_utf8 utf8)]
        exact ⟨rfl, _, rfl, by decide⟩
      · rw [verified] at h
        cases h
    · revert missing
      rcases lookupOutcome dep env d username with e | (_ | row) | message
      · exact id
      · exact False.elim
      · exact False.elim
      · intro readable
        rw [found, logThen_utf8 dep env .INFO loginInfoSite (readable utf8)]
        exact ⟨rfl, message, rfl, readable utf8⟩

/-- What a service leaves: a token for the granted row's username, or no
success. -/
def settles (garbled : Bool) (grant : Option User) (x : Except Exception (ResponseDto UserDto)) :
    Prop :=
  (∃ user token, grant = some user ∧ tokenOutcome dep env user.username = .ok token ∧
    x = .ok (.success ⟨user.username, token⟩) ∧ isUtf8 user.username = true ∧ garbled = false) ∨
  ((∀ user token, grant = some user → tokenOutcome dep env user.username ≠ .ok token) ∧
    failed garbled x)

theorem minted_settles {garbled : Bool} {user : User} (jsonSite stdSite : Site)
    (utf8 : isUtf8 user.username = true) (plain : garbled = false) :
    settles dep env garbled (some user)
      (caught dep env jsonSite stdSite (minted dep env user.username)) := by
  subst plain
  rcases minted_cases dep env user.username jsonSite stdSite with ⟨token, made, answer⟩ | ⟨no, bad⟩
  · exact .inl ⟨user, token, rfl, made, answer, utf8, rfl⟩
  · exact .inr ⟨fun user' token same => by cases same; exact no token, bad⟩

theorem registerOutcome_settles (request : Bytes) :
    settles dep env (dep.json.quotesInvalid request) (enters dep env d request)
      (registerOutcome dep env d request).1 := by
  cases entered : enters dep env d request with
  | some user =>
    obtain ⟨tried, utf8, plain⟩ := registerTry_some dep env d entered
    rw [registerOutcome, tried]
    exact minted_settles dep env createJsonSite createStdSite utf8 plain
  | none =>
    exact .inr ⟨nofun, caught_failed dep env (registerTry_none dep env d entered).2
      createJsonSite createStdSite⟩

theorem registerOutcome_rows (request : Bytes) :
    (registerOutcome dep env d request).2.rows =
      match enters dep env d request with
      | some user => (d.insert user).rows
      | none => d.rows := by
  cases entered : enters dep env d request with
  | some user => rw [registerOutcome, (registerTry_some dep env d entered).1]
  | none => exact (registerTry_none dep env d entered).1

theorem loginOutcome_settles (request : Bytes) :
    settles dep env (dep.json.quotesInvalid request) (admits dep env d request)
      (loginOutcome dep env d request) := by
  cases admitted : admits dep env d request with
  | some user =>
    obtain ⟨tried, utf8, plain⟩ := loginTry_some dep env d admitted
    rw [loginOutcome, tried]
    exact minted_settles dep env loginJsonSite loginStdSite utf8 plain
  | none =>
    exact .inr ⟨nofun, caught_failed dep env (loginTry_none dep env d admitted)
      loginJsonSite loginStdSite⟩

end Cases

end Ccfolio.UserService
