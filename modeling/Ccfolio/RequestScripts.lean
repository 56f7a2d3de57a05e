import Ccfolio.HttpSession
import Ccfolio.Scripts

/-! The calls of each function of the sources, in their order: a request makes
each kind of call at most once, log entries apart, and the time it reads for a
log entry makes no difference to what it returns. -/

namespace Ccfolio.RequestScripts

open Utf8 StdText JsonValue Odb Programs Traces Scripts Calls LogService Http Repositories
  PasswordHelper JwtHelper UserService Controllers

inductive Kind where
  | persist
  | load
  | update
  | erase
  | selectAll
  | selectByUsername
  | randomBytes
  | argon2iHashRaw
  | systemClock
  | localTime
  | sign
  | verify
  | push
  | granted
  deriving DecidableEq, Repr

def txKind : Tx → Kind
  | .persist _ => .persist
  | .load _ => .load
  | .update _ => .update
  | .erase _ => .erase
  | .selectAll => .selectAll
  | .selectByUsername _ => .selectByUsername

def kindOf : Call → Kind
  | .transaction t => txKind t
  | .randomBytes _ => .randomBytes
  | .argon2iHashRaw .. => .argon2iHashRaw
  | .systemClock => .systemClock
  | .localTime => .localTime
  | .sign .. => .sign
  | .verify .. => .verify
  | .push _ => .push
  | .granted => .granted

theorem silent_answered (c : Call) (quiet : silent c = true) : Nonempty (Reply c) := by
  cases c with
  | localTime => exact ⟨Surroundings.calm.localTime⟩
  | push | granted => exact ⟨()⟩
  | _ => cases quiet

/-- Exceptions that no handler of the sources tells apart: a log call refused a
message, and the refusal may quote the time. -/
def Like (e e' : Exception) : Prop :=
  e = e' ∨ e.kind = e'.kind ∧ isUtf8 e.what = true ∧ isUtf8 e'.what = true

theorem Like.kind {e e' : Exception} (like : Like e e') : e.kind = e'.kind := by
  rcases like with rfl | ⟨kind, -⟩
  · rfl
  · exact kind

theorem Like.utf8 {e e' : Exception} (like : Like e e') : isUtf8 e.what = isUtf8 e'.what := by
  rcases like with rfl | ⟨-, utf8, utf8'⟩
  · rfl
  · rw [utf8, utf8']

/-- Whether code may change the local state, which is the response. -/
inductive Frame where
  | still
  | free
  deriving DecidableEq, Repr

def Frame.allows {τ : Type} (frame : Frame) (t t' : τ) : Prop := frame = .still → t' = t

theorem Frame.allows_refl {τ : Type} (frame : Frame) (t : τ) : frame.allows t t := fun _ => rfl

theorem Frame.allows.trans {τ : Type} {frame : Frame} {t t' t'' : τ} (first : frame.allows t t')
    (rest : frame.allows t' t'') : frame.allows t t'' :=
  fun still => (rest still).trans (first still)

section Outcomes

variable {τ α β : Type}

def SameResult : Except Exception α → Except Exception α → Prop
  | .ok a, .ok a' => a = a'
  | .error e, .error e' => Like e e'
  | _, _ => False

def SameOutcome (frame : Frame) (t : τ) (o o' : Except Exception α × τ) : Prop :=
  SameResult o.1 o'.1 ∧ o.2 = o'.2 ∧ frame.allows t o.2

/-- The two run the same script, whatever the replies, to the same outcome. -/
def Keep (frame : Frame) (script : List Kind) (x y : App τ α) : Prop :=
  ∀ t, Alike silent kindOf (SameOutcome frame t) script (x.run.run t) (y.run.run t)

variable {frame : Frame} {script script' : List Kind} {x y : App τ α}

theorem Keep.widen (h : Keep frame script x y) (wider : script.Sublist script') :
    Keep frame script' x y :=
  fun t => (h t).widen wider

theorem keep_pure (a : α) : Keep frame [] (pure a : App τ α) (pure a) :=
  fun t => .ret ⟨rfl, rfl, frame.allows_refl t⟩

theorem keep_throw {e e' : Exception} (like : Like e e') :
    Keep frame [] (throw e : App τ α) (throw e') :=
  fun t => .ret ⟨like, rfl, frame.allows_refl t⟩

theorem keep_modify (f : τ → τ) : Keep .free [] (modify f : App τ PUnit) (modify f) :=
  fun _ => .ret ⟨rfl, rfl, nofun⟩

theorem keep_ofExcept (out : Except Exception α) :
    Keep frame [] (MonadExcept.ofExcept out : App τ α) (MonadExcept.ofExcept out) := by
  cases out with
  | ok a => exact keep_pure a
  | error e => exact keep_throw (.inl rfl)

theorem keep_call {c : Call} (loud : silent c = false) :
    Keep frame [kindOf c] (call c : App τ (Reply c)) (call c) :=
  fun t => .both loud (List.Sublist.refl _) fun _ => .ret ⟨rfl, rfl, frame.allows_refl t⟩

theorem SameOutcome.after {t s : τ} (first : frame.allows t s)
    (h : Alike silent kindOf (SameOutcome frame s) script (x.run.run s) (y.run.run s)) :
    Alike silent kindOf (SameOutcome frame t) script (x.run.run s) (y.run.run s) :=
  h.mono fun _ _ ⟨result, state, rest⟩ => ⟨result, state, first.trans rest⟩

theorem keep_bind {l r : List Kind} {f g : α → App τ β} (first : Keep frame l x y)
    (rest : ∀ a, Keep frame r (f a) (g a)) : Keep frame (l ++ r) (x >>= f) (y >>= g) := by
  intro t
  rw [tree_bind, tree_bind]
  refine (first t).bind fun o o' same => ?_
  rcases o with ⟨e | a, s⟩ <;> rcases o' with ⟨e' | a', s'⟩ <;>
    obtain ⟨result, rfl, framed⟩ : SameResult _ _ ∧ s = s' ∧ frame.allows t s := same
  · exact .ret ⟨result, rfl, framed⟩
  · exact result.elim
  · exact result.elim
  · obtain rfl : a = a' := result
    exact SameOutcome.after framed (rest a s)

theorem keep_tryCatch {f g : Exception → App τ α} (first : Keep frame script x y)
    (rest : ∀ e e', Like e e' → Keep frame script' (f e) (g e')) :
    Keep frame (script ++ script') (tryCatch x f) (tryCatch y g) := by
  intro t
  rw [tree_tryCatch, tree_tryCatch]
  refine (first t).bind fun o o' same => ?_
  rcases o with ⟨e | a, s⟩ <;> rcases o' with ⟨e' | a', s'⟩ <;>
    obtain ⟨result, rfl, framed⟩ : SameResult _ _ ∧ s = s' ∧ frame.allows t s := same
  · exact SameOutcome.after framed (rest e e' result s)
  · exact result.elim
  · exact result.elim
  · exact .ret ⟨result, rfl, framed⟩

theorem keep_then {f g : α → App τ β} (first : Keep frame script x y)
    (rest : ∀ a, Keep frame [] (f a) (g a)) : Keep frame script (x >>= f) (y >>= g) :=
  (keep_bind first rest).widen (by rw [List.append_nil])

theorem keep_catch {f g : Exception → App τ α} (first : Keep frame script x y)
    (rest : ∀ e e', Like e e' → Keep frame [] (f e) (g e')) :
    Keep frame script (tryCatch x f) (tryCatch y g) :=
  (keep_tryCatch first rest).widen (by rw [List.append_nil])

end Outcomes

section Functions

variable {τ α : Type} {frame : Frame} (dep : Deployment)

theorem keep_log (level : LogLevel) {message message' : Bytes}
    (alike : isUtf8 message = isUtf8 message') (site : Site) :
    Keep frame [] (log dep level message site : App τ Unit) (log dep level message' site) := by
  have enabled : ¬ level.rank < currentLevel.rank := Nat.not_lt_zero _
  intro t
  simp only [log, if_neg enabled]
  refine .left rfl fun (time : Text) => .right rfl fun (time' : Text) => ?_
  change Alike silent kindOf (SameOutcome frame t) []
    ((MonadExcept.ofExcept (dep.json.dump 4 (logJson time.val message level site)) >>= fun
      logEntry => call (.push logEntry) : App τ Unit).run.run t)
    ((MonadExcept.ofExcept (dep.json.dump 4 (logJson time'.val message' level site)) >>= fun
      logEntry => call (.push logEntry) : App τ Unit).run.run t)
  have encoded := logJson_wellEncoded time.val message level site
  have encoded' := logJson_wellEncoded time'.val message' level site
  rw [time.property, Bool.true_and] at encoded
  rw [time'.property, Bool.true_and, ← alike] at encoded'
  cases utf8 : isUtf8 message with
  | true =>
    rw [dep.json.dump_ok (encoded.trans utf8), dep.json.dump_ok (encoded'.trans utf8)]
    exact .left rfl fun _ => .right rfl fun _ => .ret ⟨rfl, rfl, frame.allows_refl t⟩
  | false =>
    rw [dep.json.dump_error (encoded.trans utf8), dep.json.dump_error (encoded'.trans utf8)]
    exact .ret ⟨.inr ⟨rfl, (dep.json.invalidUtf8 _).property, (dep.json.invalidUtf8 _).property⟩,
      rfl, frame.allows_refl t⟩

theorem keep_logged {x : App τ α} {e e' : Exception} (like : Like e e') (site : Site)
    (rest : Keep frame [] x x) :
    Keep frame [] (do
      log dep .ERROR e.what site
      x) (do
      log dep .ERROR e'.what site
      x) :=
  keep_then (keep_log dep .ERROR like.utf8 site) fun _ => rest

theorem keep_respond (status : Status) (contentType : String) (body : Except Exception Bytes) :
    Keep .free [] (respond status contentType body) (respond status contentType body) :=
  keep_then (keep_modify _) fun _ => keep_then (keep_modify _) fun _ =>
    keep_then (keep_ofExcept _) fun _ => keep_then (keep_modify _) fun _ => keep_modify _

theorem keep_generateRandomSalt (length : Nat) :
    Keep frame [.randomBytes] (generateRandomSalt dep length : App τ (List UInt8))
      (generateRandomSalt dep length) :=
  keep_catch
    (keep_then (keep_call (c := .randomBytes length) rfl) fun _ =>
      keep_then (keep_ofExcept _) fun _ => keep_pure _)
    fun _ _ like => keep_logged dep like saltSite (keep_throw (.inl rfl))

theorem keep_hashPasswordWithArgon2 (password : Bytes) :
    Keep frame [.randomBytes, .argon2iHashRaw]
      (hashPasswordWithArgon2 dep password : App τ (Bytes × List UInt8))
      (hashPasswordWithArgon2 dep password) := by
  refine keep_catch (keep_bind (keep_generateRandomSalt dep 16) fun salt => keep_then
    (keep_call (c := .argon2iHashRaw ⟨2, 1 <<< 16, 1⟩ password salt 32) rfl) fun hashRaw => ?_)
    fun _ _ like => keep_logged dep like hashSite (keep_throw (.inl rfl))
  cases hashRaw with
  | none => exact keep_throw (.inl rfl)
  | some hashRaw => exact keep_pure _

theorem keep_verifyPasswordWithArgon2 (password hashHex : Bytes) (salt : List UInt8) :
    Keep frame [.argon2iHashRaw] (verifyPasswordWithArgon2 dep password hashHex salt : App τ Bool)
      (verifyPasswordWithArgon2 dep password hashHex salt) := by
  refine keep_catch (keep_then
    (keep_call (c := .argon2iHashRaw ⟨2, 1 <<< 16, 1⟩ password salt 32) rfl) fun hashRaw => ?_)
    fun _ _ like => keep_logged dep like verifyHashSite (keep_throw (.inl rfl))
  cases hashRaw with
  | none => exact keep_throw (.inl rfl)
  | some hashRaw => exact keep_pure _

theorem keep_verifyUserPassword (passwordHash saltInHex password : Bytes) :
    Keep frame [.argon2iHashRaw]
      (verifyUserPassword dep passwordHash saltInHex password : App τ Bool)
      (verifyUserPassword dep passwordHash saltInHex password) :=
  keep_catch
    (keep_bind (keep_ofExcept _) fun salt => keep_verifyPasswordWithArgon2 dep password _ salt)
    fun _ _ like => keep_logged dep like verifyUserSite (keep_throw (.inl rfl))

theorem keep_getUserByUsername (username : Bytes) :
    Keep frame [.selectByUsername] (getUserByUsername dep username : App τ _)
      (getUserByUsername dep username) := by
  refine keep_catch (keep_then (keep_call (c := .transaction (.selectByUsername username)) rfl)
    fun _ => keep_then (keep_ofExcept _) fun found => ?_)
    fun _ _ like => keep_logged dep like lookupSite (keep_pure _)
  cases found with
  | none => exact keep_pure _
  | some user => exact keep_pure _

theorem keep_create (entity : User) :
    Keep frame [.persist] (create dep entity : App τ (OperationResult Bool)) (create dep entity) :=
  keep_catch
    (keep_then (keep_call (c := .transaction (.persist entity)) rfl) fun _ =>
      keep_then (keep_ofExcept _) fun _ => keep_pure _)
    fun _ _ like => keep_logged dep like Repositories.createSite (keep_pure _)

theorem keep_repository_createUser (user : User) :
    Keep frame [.selectByUsername, .persist] (Repositories.createUser dep user : App τ _)
      (Repositories.createUser dep user) := by
  refine keep_catch (keep_bind (keep_getUserByUsername dep user.username) fun userExist => ?_)
    fun e e' like => ?_
  · split_ifs
    · exact (keep_pure _).widen (List.nil_sublist _)
    · refine keep_then (keep_create dep user) fun userCreated => ?_
      split_ifs
      · exact keep_pure _
      · exact keep_pure _
  · rw [← like.kind]
    split
    · exact keep_logged dep like createUserSite (keep_pure _)
    · exact keep_throw like

theorem keep_createJWTToken (username : Bytes) :
    Keep frame [.systemClock, .sign] (createJWTToken dep username : App τ Bytes)
      (createJWTToken dep username) :=
  keep_catch
    (keep_bind (keep_call (c := .systemClock) rfl) fun now =>
      keep_then (keep_call (c := .sign dep.secretKey (mintClaims dep username now)) rfl) fun _ =>
        keep_then (keep_ofExcept _) fun _ => keep_pure _)
    fun _ _ like => keep_logged dep like JwtHelper.createSite (keep_throw (.inl rfl))

theorem keep_member (jsonPayload : Json) (name : String) :
    Keep frame [] (member jsonPayload name : App τ Bytes) (member jsonPayload name) :=
  keep_then (keep_ofExcept _) fun _ => keep_ofExcept _

theorem keep_service {script : List Kind} {request : Bytes} (jsonSite stdSite : Site)
    {next : Bytes → Bytes → App τ (ResponseDto UserDto)}
    (rest : ∀ username password,
      Keep frame script (next username password) (next username password)) :
    Keep frame script
      (tryCatch (do
        let jsonPayload ← MonadExcept.ofExcept (dep.json.parseBody request)
        let username ← member jsonPayload "username"
        let password ← member jsonPayload "password"
        next username password) fun e => match e.kind with
        | .json => do
          log dep .ERROR e.what jsonSite
          pure (.failure invalidJson)
        | _ => do
          log dep .ERROR e.what stdSite
          pure (.failure UserService.tryAgainLater))
      (tryCatch (do
        let jsonPayload ← MonadExcept.ofExcept (dep.json.parseBody request)
        let username ← member jsonPayload "username"
        let password ← member jsonPayload "password"
        next username password) fun e => match e.kind with
        | .json => do
          log dep .ERROR e.what jsonSite
          pure (.failure invalidJson)
        | _ => do
          log dep .ERROR e.what stdSite
          pure (.failure UserService.tryAgainLater)) := by
  refine keep_catch (keep_bind (keep_ofExcept _) fun jsonPayload =>
    keep_bind (keep_member jsonPayload "username") fun username =>
      keep_bind (keep_member jsonPayload "password") fun password => rest username password)
    fun e e' like => ?_
  rw [← like.kind]
  split
  · exact keep_logged dep like jsonSite (keep_pure _)
  · exact keep_logged dep like stdSite (keep_pure _)

theorem keep_failed {message : Except Exception Bytes} (site : Site) :
    Keep frame []
      (do
        let errorMessage ← MonadExcept.ofExcept message
        log dep .INFO errorMessage site
        pure (.failure errorMessage) : App τ (ResponseDto UserDto))
      (do
        let errorMessage ← MonadExcept.ofExcept message
        log dep .INFO errorMessage site
        pure (.failure errorMessage)) :=
  keep_then (keep_ofExcept _) fun _ =>
    keep_then (keep_log dep .INFO rfl site) fun _ => keep_pure _

def createScript : List Kind :=
  [.randomBytes, .argon2iHashRaw, .selectByUsername, .persist, .systemClock, .sign]

def loginScript : List Kind := [.selectByUsername, .argon2iHashRaw, .systemClock, .sign]

theorem keep_service_createUser (request : Bytes) :
    Keep frame createScript (UserService.createUser dep request : App τ _)
      (UserService.createUser dep request) := by
  refine keep_service dep createJsonSite createStdSite fun username password =>
    keep_bind (r := [.selectByUsername, .persist, .systemClock, .sign])
      (keep_hashPasswordWithArgon2 dep password) fun made => ?_
  refine keep_bind (r := [.systemClock, .sign]) (keep_repository_createUser dep _)
    fun creationResult => ?_
  split_ifs
  · exact keep_then (keep_createJWTToken dep username) fun _ => keep_pure _
  · exact (keep_failed dep createInfoSite).widen (List.nil_sublist _)

theorem keep_service_userLogin (request : Bytes) :
    Keep frame loginScript (UserService.userLogin dep request : App τ _)
      (UserService.userLogin dep request) := by
  refine keep_service dep loginJsonSite loginStdSite fun username password =>
    keep_bind (r := [.argon2iHashRaw, .systemClock, .sign])
      (keep_getUserByUsername dep username) fun userResult => ?_
  rcases userResult with found | message
  · simp only [OperationResult.isSuccess, if_true, OperationResult.getResult]
    refine keep_bind (l := []) (keep_ofExcept _) fun found => ?_
    cases found with
    | none => exact (keep_failed dep loginInfoSite).widen (List.nil_sublist _)
    | some user =>
      refine keep_bind (r := [.systemClock, .sign])
        (keep_verifyUserPassword dep user.passwordHash user.salt password) fun good => ?_
      split_ifs
      · exact (keep_then (keep_log dep .INFO rfl wrongPasswordSite) fun _ => keep_pure _).widen
          (List.nil_sublist _)
      · exact keep_then (keep_createJWTToken dep user.username) fun _ => keep_pure _
  · exact (keep_failed dep loginInfoSite).widen (List.nil_sublist _)

theorem keep_answer {script : List Kind}
    {service : Bytes → App HttpResponse (ResponseDto UserDto)} {req : HttpRequest}
    (h : Keep .free script (service req.body) (service req.body)) (site : Site) :
    Keep .free script (answer dep service site req) (answer dep service site req) := by
  refine keep_catch (keep_then h fun result => ?_) fun _ _ like =>
    keep_log dep .ERROR like.utf8 site
  split_ifs
  · exact keep_respond _ _ _
  · exact keep_respond _ _ _

theorem keep_handleHelloWorld (req : HttpRequest) :
    Keep .free [] (handleHelloWorld dep req) (handleHelloWorld dep req) :=
  keep_catch
    (keep_then (keep_ofExcept _) fun jsonPayload =>
      keep_then (keep_member jsonPayload "username") fun _ => keep_respond _ _ _)
    fun _ _ like => keep_log dep .ERROR like.utf8 helloSite

theorem utf8_quoting {e e' : Exception} (like : Like e e') {text : String}
    (plain : isUtf8 (lit text) = true) :
    isUtf8 (lit text ++ e.what) = isUtf8 (lit text ++ e'.what) := by
  rw [isUtf8_append_left plain, isUtf8_append_left plain, like.utf8]

theorem keep_verifyToken (token : Bytes) :
    Keep frame [.verify] (verifyToken dep token : App τ Bool) (verifyToken dep token) :=
  keep_catch
    (keep_then (keep_call (c := .verify dep.secretKey dep.projectName token) rfl) fun _ =>
      keep_then (keep_ofExcept _) fun _ => keep_pure _)
    fun _ _ like => keep_then (keep_log dep .ERROR (utf8_quoting like (by decide)) verifySite)
      fun _ => keep_pure _

theorem keep_reject (status : Status) (contentType : String) (body : Except Exception Bytes) :
    Keep .free [] (do
      respond status contentType body
      pure false) (do
      respond status contentType body
      pure false) :=
  keep_then (keep_respond status contentType body) fun _ => keep_pure _

theorem keep_validateToken (req : HttpRequest) :
    Keep .free [.verify] (validateToken dep req) (validateToken dep req) := by
  refine keep_catch ?_ fun _ _ like => keep_then
    (keep_log dep .ERROR (utf8_quoting like (by decide)) validateSite) fun _ => keep_pure _
  cases req.find "Authorization" with
  | none => exact (keep_reject _ _ _).widen (List.nil_sublist _)
  | some value =>
    simp only
    split_ifs
    · exact (keep_reject _ _ _).widen (List.nil_sublist _)
    · refine keep_then (keep_verifyToken dep (value.drop 7)) fun good => ?_
      split_ifs
      · exact keep_reject _ _ _
      · exact keep_pure _

theorem keep_granted : Keep frame [] (call .granted : App τ (Reply .granted)) (call .granted) :=
  fun t => .left rfl fun _ => .right rfl fun _ => .ret ⟨rfl, rfl, frame.allows_refl t⟩

theorem keep_withAuthentication {func : Http.Handler} {req : HttpRequest}
    (h : Keep .free [] (func req) (func req)) :
    Keep .free [.verify] (withAuthentication dep func req) (withAuthentication dep func req) := by
  refine keep_then (keep_validateToken dep req) fun valid => ?_
  split_ifs
  · exact keep_respond _ _ _
  · exact keep_bind keep_granted fun _ => h

/-- What a request may call, by its route. -/
def script (req : HttpRequest) : List Kind :=
  if posts "/test" req then [.verify]
  else if posts "/user/login" req then loginScript
  else if posts "/user/create" req then createScript
  else []

theorem keep_httpRouter (req : HttpRequest) :
    Keep .free (script req) ((httpRouter dep).handleRequest req)
      ((httpRouter dep).handleRequest req) := by
  have routes := httpRouter_routes dep req
  unfold script
  split_ifs at routes ⊢
  · simp only [Router.handleRequest, routes]
    exact keep_then (keep_withAuthentication dep (keep_handleHelloWorld dep req)) fun _ =>
      keep_pure _
  · simp only [Router.handleRequest, routes]
    exact keep_then (keep_answer dep (keep_service_userLogin dep req.body) _) fun _ => keep_pure _
  · simp only [Router.handleRequest, routes]
    exact keep_then (keep_answer dep (keep_service_createUser dep req.body) _) fun _ => keep_pure _
  · simp only [Router.handleRequest, routes]
    exact keep_pure false

theorem keep_handleRequest (req : HttpRequest) :
    Keep .free (script req) (HttpSession.handleRequest (httpRouter dep) req)
      (HttpSession.handleRequest (httpRouter dep) req) := by
  refine keep_bind (l := []) (keep_modify _) fun _ =>
    keep_bind (l := []) (keep_modify _) fun _ =>
      keep_then (keep_httpRouter dep req) fun routed => ?_
  split_ifs
  · exact keep_respond _ _ _
  · exact keep_pure _

end Functions

end Ccfolio.RequestScripts
