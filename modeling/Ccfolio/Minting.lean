import Ccfolio.Controllers

/-! When a request may mint a token or enter the wrapped handler: what has to
stand right before either call in the calls of the same request, whatever the
replies are. -/

namespace Ccfolio.Minting

open Utf8 StdText JsonValue Odb Programs Traces Calls LogService Http Repositories PasswordHelper
  JwtHelper UserService Controllers

abbrev Trace := List (Event Reply)

/-- What a request has just done when it has a token made for a username:
inserted a row, or matched the given password with a row. -/
inductive Cause (dep : Deployment) (req : HttpRequest) : Bytes → Trace → Prop
  | inserted (earlier : Trace) (user stored : User) (route : posts "/user/create" req) :
      Cause dep req user.username
        (earlier ++ [⟨.transaction (.persist user), .ok stored⟩])
  | verified (earlier : Trace) (username password salt : Bytes) (row : User)
      (raw : Fin 32 → UInt8) (route : posts "/user/login" req)
      (asked : credentials dep req.body = .ok (username, password))
      (decoded : Utility.fromHexString row.salt = .ok salt)
      (matched : Utility.toHexString (List.ofFn raw) = row.passwordHash) :
      Cause dep req row.username
        (earlier ++ [⟨.transaction (.selectByUsername username), .ok (some row)⟩,
          ⟨.argon2iHashRaw ⟨2, 1 <<< 16, 1⟩ password salt 32, some raw⟩])

def Allowed (dep : Deployment) (req : HttpRequest) (tr : Trace) (e : Event Reply) : Prop :=
  match e.1 with
  | .sign secretKey claims => secretKey = dep.secretKey ∧ ∃ earlier now username,
      tr = earlier ++ [⟨.systemClock, now⟩] ∧ claims = mintClaims dep username now ∧
        Cause dep req username earlier
  | .granted => posts "/test" req ∧ ∃ earlier token,
      tr = earlier ++ [⟨.verify dep.secretKey dep.projectName token, .ok ()⟩] ∧
        req.find "Authorization" = some (lit "Bearer " ++ token)
  | _ => True

section Quiet

variable {τ α β : Type} (dep : Deployment) (req : HttpRequest)

abbrev obeys (x : App τ α) (t : τ) (tr : Trace) (Q : Except Exception α → τ → Trace → Prop) :
    Prop :=
  meets (fun _ => True) (Allowed dep req) x t tr Q

def Quiet (x : App τ α) : Prop := ∀ t tr, obeys dep req x t tr fun _ _ _ => True

variable {dep req} {x : App τ α} {t : τ} {tr : Trace}

theorem Quiet.obeys (quiet : Quiet dep req x) {Q : Except Exception α → τ → Trace → Prop}
    (any : ∀ out t' tr', Q out t' tr') : obeys dep req x t tr Q :=
  meets_mono (fun out t' tr' _ => any out t' tr') (quiet t tr)

theorem quiet_pure (a : α) : Quiet dep req (pure a : App τ α) := fun _ _ => trivial

theorem quiet_throw (e : Exception) : Quiet dep req (throw e : App τ α) := fun _ _ => trivial

theorem quiet_modify (f : τ → τ) : Quiet dep req (modify f : App τ PUnit) := fun _ _ => trivial

theorem quiet_ofExcept (out : Except Exception α) :
    Quiet dep req (MonadExcept.ofExcept out : App τ α) := fun _ _ => meets_ofExcept.mpr trivial

theorem quiet_call {c : Call} (free : ∀ tr r, Allowed dep req tr ⟨c, r⟩) :
    Quiet dep req (call c : App τ (Reply c)) :=
  fun _ tr => meets_perform.mpr fun r _ => ⟨free tr r, trivial⟩

theorem quiet_bind {f : α → App τ β} (first : Quiet dep req x) (rest : ∀ a, Quiet dep req (f a)) :
    Quiet dep req (x >>= f) := by
  refine fun t tr => meets_bind.mpr (first.obeys fun out t' tr' => ?_)
  cases out with
  | ok a => exact rest a t' tr'
  | error e => trivial

theorem quiet_tryCatch {f : Exception → App τ α} (first : Quiet dep req x)
    (rest : ∀ e, Quiet dep req (f e)) : Quiet dep req (tryCatch x f) := by
  refine fun t tr => meets_tryCatch.mpr (first.obeys fun out t' tr' => ?_)
  cases out with
  | ok a => trivial
  | error e => exact rest e t' tr'

end Quiet

section Functions

variable {τ α : Type} {dep : Deployment} {req : HttpRequest} {t : τ} {tr : Trace}

theorem quiet_log (level : LogLevel) (message : Bytes) (site : Site) :
    Quiet dep req (log dep level message site : App τ Unit) := by
  unfold log
  split_ifs
  · exact quiet_pure ()
  · exact quiet_bind (quiet_call fun _ _ => trivial) fun _ =>
      quiet_bind (quiet_ofExcept _) fun _ => quiet_call fun _ _ => trivial

theorem quiet_logThen {x : App τ α} (level : LogLevel) (message : Bytes) (site : Site)
    (rest : Quiet dep req x) :
    Quiet dep req (do
      log dep level message site
      x) :=
  quiet_bind (quiet_log level message site) fun _ => rest

theorem obeys_logThen_pure {level : LogLevel} {message : Bytes} {site : Site} {a : α}
    {Q : Except Exception α → τ → Trace → Prop} (value : ∀ t' tr', Q (.ok a) t' tr')
    (thrown : ∀ e t' tr', Q (.error e) t' tr') :
    obeys dep req (do
      log dep level message site
      pure a) t tr Q := by
  refine meets_bind.mpr ((quiet_log level message site).obeys fun out t' tr' => ?_)
  cases out with
  | ok => exact value t' tr'
  | error e => exact thrown e t' tr'

theorem obeys_logThen_throw {level : LogLevel} {message : Bytes} {site : Site} {e : Exception}
    {Q : Except Exception α → τ → Trace → Prop} (thrown : ∀ e t' tr', Q (.error e) t' tr') :
    obeys dep req (do
      log dep level message site
      throw e) t tr Q := by
  refine meets_bind.mpr ((quiet_log level message site).obeys fun out t' tr' => ?_)
  cases out with
  | ok => exact thrown e t' tr'
  | error e => exact thrown e t' tr'

theorem quiet_member (jsonPayload : Json) (name : String) :
    Quiet dep req (member jsonPayload name : App τ Bytes) :=
  quiet_bind (quiet_ofExcept _) fun _ => quiet_ofExcept _

theorem quiet_respond (status : Status) (contentType : String) (body : Except Exception Bytes) :
    Quiet dep req (respond status contentType body) :=
  quiet_bind (quiet_modify _) fun _ => quiet_bind (quiet_modify _) fun _ =>
    quiet_bind (quiet_ofExcept _) fun _ => quiet_bind (quiet_modify _) fun _ => quiet_modify _

theorem quiet_generateRandomSalt (length : Nat) :
    Quiet dep req (generateRandomSalt dep length : App τ (List UInt8)) :=
  quiet_tryCatch
    (quiet_bind (quiet_call fun _ _ => trivial) fun _ =>
      quiet_bind (quiet_ofExcept _) fun _ => quiet_pure _)
    fun _ => quiet_logThen _ _ _ (quiet_throw _)

theorem quiet_hashPasswordWithArgon2 (password : Bytes) :
    Quiet dep req (hashPasswordWithArgon2 dep password : App τ (Bytes × List UInt8)) := by
  refine quiet_tryCatch ?_ fun _ => quiet_logThen _ _ _ (quiet_throw _)
  refine quiet_bind (quiet_generateRandomSalt 16) fun salt => ?_
  refine quiet_bind (quiet_call fun _ _ => trivial) fun hashRaw => ?_
  cases hashRaw with
  | none => exact quiet_throw _
  | some hashRaw => exact quiet_pure _

theorem quiet_handleHelloWorld : Quiet dep req (handleHelloWorld dep req) :=
  quiet_tryCatch
    (quiet_bind (quiet_ofExcept _) fun _ => quiet_bind (quiet_member _ _) fun _ =>
      quiet_respond _ _ _)
    fun _ => quiet_log _ _ _

theorem obeys_getUserByUsername (username : Bytes) :
    obeys dep req (getUserByUsername dep username : App τ _) t tr fun out _ tr' =>
      ∀ row, out = .ok (.successResult (some row)) →
        tr' = tr ++ [⟨.transaction (.selectByUsername username), .ok (some row)⟩] := by
  refine meets_tryCatch.mpr (meets_bind.mpr (meets_perform.mpr fun r _ => ⟨trivial, ?_⟩))
  refine meets_bind.mpr (meets_ofExcept.mpr ?_)
  rcases r with e | _ | row
  · exact obeys_logThen_pure (fun _ _ => nofun) (fun _ _ _ => nofun)
  · rintro row ⟨⟩
  · rintro row ⟨⟩
    rfl

theorem obeys_create (user : User) :
    obeys dep req (create dep user : App τ _) t tr fun out _ tr' =>
      ∀ b, out = .ok (.successResult b) →
        ∃ stored, tr' = tr ++ [⟨.transaction (.persist user), .ok stored⟩] := by
  refine meets_tryCatch.mpr (meets_bind.mpr (meets_perform.mpr fun r _ => ⟨trivial, ?_⟩))
  refine meets_bind.mpr (meets_ofExcept.mpr ?_)
  rcases r with e | stored
  · exact obeys_logThen_pure (fun _ _ => nofun) (fun _ _ _ => nofun)
  · exact fun _ _ => ⟨stored, rfl⟩

theorem obeys_createUser (user : User) :
    obeys dep req (Repositories.createUser dep user : App τ _) t tr fun out _ tr' =>
      ∀ u, out = .ok (.successResult u) →
        ∃ earlier stored, tr' = earlier ++ [⟨.transaction (.persist user), .ok stored⟩] := by
  refine meets_tryCatch.mpr (meets_mono (Q := fun out _ tr' => ∀ u, out = .ok (.successResult u) →
    ∃ earlier stored, tr' = earlier ++ [⟨.transaction (.persist user), .ok stored⟩])
    (fun out t' tr' done => ?_) (meets_bind.mpr ?_))
  · rcases out with ⟨_ | _ | _, what⟩ | _
    · exact meets_throw.mpr nofun
    · exact obeys_logThen_pure (fun _ _ => nofun) (fun _ _ _ => nofun)
    · exact meets_throw.mpr nofun
    · exact done
  · refine meets_mono (fun out t' tr' _ => ?_) (obeys_getUserByUsername user.username)
    rcases out with e | _ | message
    · exact nofun
    · exact meets_pure.mpr nofun
    · refine meets_bind.mpr (meets_mono (fun out t' tr'' created => ?_) (obeys_create user))
      rcases out with e | stored | message
      · exact nofun
      · obtain ⟨stored, last⟩ := created _ rfl
        exact fun _ _ => ⟨tr', stored, last⟩
      · exact meets_pure.mpr nofun

theorem obeys_verifyPasswordWithArgon2 (password hashHex : Bytes) (salt : List UInt8) :
    obeys dep req (verifyPasswordWithArgon2 dep password hashHex salt : App τ Bool) t tr
      fun out _ tr' => out = .ok true → ∃ raw, Utility.toHexString (List.ofFn raw) = hashHex ∧
        tr' = tr ++ [⟨.argon2iHashRaw ⟨2, 1 <<< 16, 1⟩ password salt 32, some raw⟩] := by
  refine meets_tryCatch.mpr (meets_bind.mpr (meets_perform.mpr fun r _ => ⟨trivial, ?_⟩))
  cases r with
  | none => exact meets_throw.mpr (obeys_logThen_throw fun _ _ _ => nofun)
  | some raw =>
    refine meets_pure.mpr fun same => ⟨raw, ?_, rfl⟩
    exact of_decide_eq_true (Except.ok.inj same)

theorem obeys_verifyUserPassword (passwordHash saltInHex password : Bytes) :
    obeys dep req (verifyUserPassword dep passwordHash saltInHex password : App τ Bool) t tr
      fun out _ tr' => out = .ok true → ∃ salt raw, Utility.fromHexString saltInHex = .ok salt ∧
        Utility.toHexString (List.ofFn raw) = passwordHash ∧
        tr' = tr ++ [⟨.argon2iHashRaw ⟨2, 1 <<< 16, 1⟩ password salt 32, some raw⟩] := by
  refine meets_tryCatch.mpr (meets_bind.mpr (meets_ofExcept.mpr ?_))
  cases Utility.fromHexString saltInHex with
  | error e => exact obeys_logThen_throw (fun _ _ _ => nofun)
  | ok salt =>
    refine meets_mono (fun out t' tr' verified => ?_)
      (obeys_verifyPasswordWithArgon2 password passwordHash salt)
    cases out with
    | error e => exact obeys_logThen_throw (fun _ _ _ => nofun)
    | ok good =>
      intro eq
      obtain ⟨raw, same, last⟩ := verified eq
      exact ⟨salt, raw, rfl, same, last⟩

theorem obeys_createJWTToken {username : Bytes} (cause : Cause dep req username tr) :
    obeys dep req (createJWTToken dep username : App τ Bytes) t tr fun _ _ _ => True := by
  refine meets_tryCatch.mpr (meets_bind.mpr (meets_perform.mpr fun now _ => ⟨trivial, ?_⟩))
  refine meets_bind.mpr (meets_perform.mpr fun r _ =>
    ⟨⟨rfl, tr, now, username, rfl, rfl, cause⟩, ?_⟩)
  refine meets_bind.mpr (meets_ofExcept.mpr ?_)
  cases r with
  | ok token => trivial
  | error e => exact quiet_logThen _ _ _ (quiet_throw _) _ _

theorem obeys_caught {x : App τ (ResponseDto UserDto)} (jsonSite stdSite : Site)
    (h : obeys dep req x t tr fun _ _ _ => True) :
    obeys dep req (tryCatch x fun e => match e.kind with
      | .json => do
        log dep .ERROR e.what jsonSite
        pure (.failure invalidJson)
      | _ => do
        log dep .ERROR e.what stdSite
        pure (.failure UserService.tryAgainLater)) t tr fun _ _ _ => True := by
  refine meets_tryCatch.mpr (meets_mono (fun out t' tr' _ => ?_) h)
  rcases out with ⟨_ | _ | _, what⟩ | _
  · exact quiet_logThen _ _ _ (quiet_pure _) _ _
  · exact quiet_logThen _ _ _ (quiet_pure _) _ _
  · exact quiet_logThen _ _ _ (quiet_pure _) _ _
  · trivial

section Credentials

variable {law : Event Reply → Prop} {P : Trace → Event Reply → Prop}
  {Q : Except Exception α → τ → Trace → Prop}

theorem meets_member {jsonPayload : Json} {name : String}
    {Q : Except Exception Bytes → τ → Trace → Prop} :
    meets law P (member jsonPayload name : App τ Bytes) t tr Q ↔
      Q (textMember jsonPayload name) t tr := by
  refine meets_bind.trans (meets_ofExcept.trans ?_)
  rw [textMember]
  cases Json.index name jsonPayload with
  | error e => rfl
  | ok value => exact meets_ofExcept

theorem meets_credentials {next : Bytes → Bytes → App τ α}
    (rest : ∀ username password, credentials dep req.body = .ok (username, password) →
      meets law P (next username password) t tr Q) (thrown : ∀ e, Q (.error e) t tr) :
    meets law P (do
      let jsonPayload ← MonadExcept.ofExcept (dep.json.parseBody req.body)
      let username ← member jsonPayload "username"
      let password ← member jsonPayload "password"
      next username password) t tr Q := by
  refine meets_bind.mpr (meets_ofExcept.mpr ?_)
  cases parsed : dep.json.parseBody req.body with
  | error e => exact thrown e
  | ok jsonPayload =>
    refine meets_bind.mpr (meets_member.mpr ?_)
    cases first : textMember jsonPayload "username" with
    | error e => exact thrown e
    | ok username =>
      refine meets_bind.mpr (meets_member.mpr ?_)
      cases second : textMember jsonPayload "password" with
      | error e => exact thrown e
      | ok password =>
        refine rest username password ?_
        rw [credentials, parsed]
        change (textMember jsonPayload "username").bind _ = _
        rw [first]
        change (textMember jsonPayload "password").bind _ = _
        rw [second]
        rfl

end Credentials

theorem obeys_service_createUser (route : posts "/user/create" req) :
    obeys dep req (UserService.createUser dep req.body : App τ _) t tr fun _ _ _ => True := by
  unfold UserService.createUser
  refine obeys_caught _ _ (meets_credentials (fun username password _ => ?_) fun _ => trivial)
  refine meets_bind.mpr ((quiet_hashPasswordWithArgon2 password).obeys fun out t' tr' => ?_)
  rcases out with e | ⟨hashedPassword, salt⟩
  · trivial
  · refine meets_bind.mpr (meets_mono (fun out t' tr'' created => ?_) (obeys_createUser _))
    rcases out with e | user | message
    · trivial
    · obtain ⟨earlier, stored, rfl⟩ := created _ rfl
      have cause : Cause dep req username _ := .inserted earlier
        ⟨0, username, hashedPassword, Utility.toHexString salt⟩ stored route
      refine meets_bind.mpr (meets_mono (fun out _ _ _ => ?_) (obeys_createJWTToken cause))
      cases out <;> trivial
    · exact quiet_bind (quiet_ofExcept _) (fun _ => quiet_logThen _ _ _ (quiet_pure _)) _ _

theorem obeys_service_userLogin (route : posts "/user/login" req) :
    obeys dep req (UserService.userLogin dep req.body : App τ _) t tr fun _ _ _ => True := by
  unfold UserService.userLogin
  refine obeys_caught _ _ (meets_credentials (fun username password asked => ?_) fun _ => trivial)
  refine meets_bind.mpr (meets_mono (fun out t' tr' looked => ?_)
    (obeys_getUserByUsername username))
  have refused : ∀ {userResult : OperationResult (Option User)} {t'' tr''},
      obeys dep req (do
        let errorMessage ← MonadExcept.ofExcept userResult.getErrorMessage
        log dep .INFO errorMessage loginInfoSite
        pure (.failure errorMessage) : App τ (ResponseDto UserDto)) t'' tr'' fun _ _ _ => True :=
    fun {_} _ _ => quiet_bind (quiet_ofExcept _) (fun _ => quiet_logThen _ _ _ (quiet_pure _)) _ _
  rcases out with e | (_ | row) | message
  · trivial
  · exact refused
  · rw [looked row rfl]
    refine meets_bind.mpr (meets_ofExcept.mpr ?_)
    refine meets_bind.mpr (meets_mono (fun out t'' tr'' verified => ?_)
      (obeys_verifyUserPassword row.passwordHash row.salt password))
    rcases out with e | _ | _
    · trivial
    · exact quiet_logThen _ _ _ (quiet_pure _) _ _
    · obtain ⟨salt, raw, decoded, matched, last⟩ := verified rfl
      have cause : Cause dep req row.username _ :=
        .verified tr username password salt row raw route asked decoded matched
      rw [last, List.append_assoc]
      refine meets_bind.mpr (meets_mono (fun out _ _ _ => ?_) (obeys_createJWTToken cause))
      cases out <;> trivial
  · exact refused

end Functions

section Routes

variable {dep : Deployment} {req : HttpRequest} {res : HttpResponse} {tr : Trace}

theorem obeys_answer {service : Bytes → App HttpResponse (ResponseDto UserDto)} (site : Site)
    (h : obeys dep req (service req.body) res tr fun _ _ _ => True) :
    obeys dep req (answer dep service site req) res tr fun _ _ _ => True := by
  refine meets_tryCatch.mpr (meets_bind.mpr (meets_mono (fun out t' tr' _ => ?_) h))
  cases out with
  | error e => exact quiet_log _ _ _ _ _
  | ok result =>
    have quiet : Quiet dep req (if result.isSuccess then
        respond .ok "application/json" (dep.json.dump (-1) result.toJson)
      else respond .badRequest "application/json" (dep.json.dump (-1) result.toJson)) := by
      split_ifs
      · exact quiet_respond _ _ _
      · exact quiet_respond _ _ _
    refine quiet.obeys fun out t' tr' => ?_
    cases out with
    | error e => exact quiet_log _ _ _ _ _
    | ok => trivial

theorem obeys_verifyToken (token : Bytes) :
    obeys dep req (verifyToken dep token : App HttpResponse Bool) res tr fun out _ tr' =>
      out = .ok true → tr' = tr ++ [⟨.verify dep.secretKey dep.projectName token, .ok ()⟩] := by
  refine meets_tryCatch.mpr (meets_bind.mpr (meets_perform.mpr fun r _ => ⟨trivial, ?_⟩))
  refine meets_bind.mpr (meets_ofExcept.mpr ?_)
  cases r with
  | error e => exact obeys_logThen_pure (fun _ _ => nofun) (fun _ _ _ => nofun)
  | ok => exact meets_pure.mpr fun _ => rfl

theorem obeys_reject {status : Status} {contentType : String} {body : Except Exception Bytes}
    {Q : Except Exception Bool → HttpResponse → Trace → Prop}
    (value : ∀ t' tr', Q (.ok false) t' tr') (thrown : ∀ e t' tr', Q (.error e) t' tr') :
    obeys dep req (do
      respond status contentType body
      pure false) res tr Q := by
  refine meets_bind.mpr ((quiet_respond status contentType body).obeys fun out t' tr' => ?_)
  cases out with
  | ok => exact value t' tr'
  | error e => exact thrown e t' tr'

theorem obeys_validateToken :
    obeys dep req (validateToken dep req) res tr fun out _ tr' => out = .ok true →
      ∃ token, tr' = tr ++ [⟨.verify dep.secretKey dep.projectName token, .ok ()⟩] ∧
        req.find "Authorization" = some (lit "Bearer " ++ token) := by
  refine meets_tryCatch.mpr ?_
  cases found : req.find "Authorization" with
  | none => exact obeys_reject (fun _ _ => nofun) fun _ _ _ =>
      obeys_logThen_pure (fun _ _ => nofun) (fun _ _ _ => nofun)
  | some value =>
    simp only
    cases scheme : bearer value with
    | false => exact obeys_reject (fun _ _ => nofun) fun _ _ _ =>
        obeys_logThen_pure (fun _ _ => nofun) (fun _ _ _ => nofun)
    | true =>
      refine meets_bind.mpr (meets_mono (fun out t' tr' verified => ?_)
        (obeys_verifyToken (value.drop 7)))
      rcases out with e | _ | _
      · exact obeys_logThen_pure (fun _ _ => nofun) (fun _ _ _ => nofun)
      · exact obeys_reject (fun _ _ => nofun) fun _ _ _ =>
          obeys_logThen_pure (fun _ _ => nofun) (fun _ _ _ => nofun)
      · exact fun _ => ⟨value.drop 7, verified rfl, congrArg some (bearer_drop scheme)⟩

theorem obeys_withAuthentication {func : Http.Handler} (route : posts "/test" req)
    (quiet : Quiet dep req (func req)) :
    obeys dep req (withAuthentication dep func req) res [] fun _ _ _ => True := by
  refine meets_bind.mpr (meets_mono (fun out t' tr' valid => ?_) obeys_validateToken)
  rcases out with e | _ | _
  · trivial
  · exact quiet_respond _ _ _ _ _
  · obtain ⟨token, last, carried⟩ := valid rfl
    refine meets_bind.mpr (meets_perform.mpr fun _ _ => ⟨⟨route, [], token, last, carried⟩, ?_⟩)
    exact quiet _ _

theorem obeys_httpRouter :
    obeys dep req ((httpRouter dep).handleRequest req) res [] fun _ _ _ => True := by
  have found : ∀ {handler}, (httpRouter dep).routes (Router.key req.method req.target) =
      some handler → (obeys dep req (handler req) res [] fun _ _ _ => True) →
      obeys dep req ((httpRouter dep).handleRequest req) res [] fun _ _ _ => True := by
    intro handler at_key h
    simp only [Router.handleRequest, at_key]
    refine meets_bind.mpr (meets_mono (fun out _ _ _ => ?_) h)
    cases out <;> trivial
  have routes := httpRouter_routes dep req
  split_ifs at routes with test login create
  · exact found routes (obeys_withAuthentication test quiet_handleHelloWorld)
  · exact found routes (obeys_answer _ (obeys_service_userLogin login))
  · exact found routes (obeys_answer _ (obeys_service_createUser create))
  · simp only [Router.handleRequest, routes]
    exact quiet_pure _ _ _

end Routes

end Ccfolio.Minting
