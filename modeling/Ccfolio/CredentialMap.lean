import Ccfolio.UserService

/-! Registration and login, one request after another, beside a map from
usernames to credentials in which the first writer wins. The map is what the
two operations are for; the table of hex strings is how they keep it. -/

namespace Ccfolio.CredentialMap

open Utf8 StdText JsonValue Odb Programs Transitions Calls LogService Repositories PasswordHelper
  JwtHelper UserService

inductive Request where
  | createUser (body : Bytes)
  | userLogin (body : Bytes)
  deriving DecidableEq, Repr

def Request.body : Request → Bytes
  | .createUser body | .userLogin body => body

def serve (dep : Deployment) (d : Database) (r : Request × Surroundings) :
    Except Exception (ResponseDto UserDto) × Database :=
  match r.1 with
  | .createUser body =>
      let out := run (handle r.2) (UserService.createUser dep body) () d
      (out.1, out.2.2)
  | .userLogin body =>
      let out := run (handle r.2) (userLogin dep body) () d
      (out.1, out.2.2)

def next (dep : Deployment) (d : Database) (r : Request × Surroundings) : Database :=
  (serve dep d r).2

theorem serve_createUser (dep : Deployment) (d : Database) (body : Bytes) (env : Surroundings) :
    serve dep d (.createUser body, env) = registerOutcome dep env d body := by
  simp only [serve, UserService.run_createUser]

theorem serve_userLogin (dep : Deployment) (d : Database) (body : Bytes) (env : Surroundings) :
    serve dep d (.userLogin body, env) = (loginOutcome dep env d body, d) := by
  simp only [serve, run_userLogin]

/-! The reference. A salt is any sixteen bytes; `A` is the digest of a password
under a salt. -/

section Reference

abbrev Digest := Bytes → List UInt8 → List UInt8

abbrev Credentials := Bytes → Option (List UInt8 × List UInt8)

inductive Ask where
  | register (username password : Bytes)
  | login (username password : Bytes)
  | malformed
  deriving DecidableEq, Repr

inductive Answer where
  | granted (username : Bytes)
  | denied
  deriving DecidableEq, Repr

inductive Reference (A : Digest) : Credentials → Ask → Answer → Credentials → Prop
  | malformed (M : Credentials) : Reference A M .malformed .denied M
  | register (M : Credentials) (u p : Bytes) (s : List UInt8) :
      M u = none → s.length = 16 →
      Reference A M (.register u p) (.granted u) (Function.update M u (some (s, A p s)))
  | taken (M : Credentials) (u p : Bytes) :
      M u ≠ none → Reference A M (.register u p) .denied M
  | login (M : Credentials) (u q : Bytes) (s : List UInt8) (h : List UInt8) :
      M u = some (s, h) → A q s = h → Reference A M (.login u q) (.granted u) M
  | refused (M : Credentials) (u q : Bytes) :
      (∀ s h, M u = some (s, h) → A q s ≠ h) → Reference A M (.login u q) .denied M

end Reference

section Request

variable (dep : Deployment)

def stringMembers (j : Json) : Option (Bytes × Bytes) :=
  match j.member "username", j.member "password" with
  | some (.string username), some (.string password) => some (username, password)
  | _, _ => none

/-- What a request asks of the reference. -/
def ask (r : Request) : Ask :=
  match dep.json.parse r.body with
  | .error _ => .malformed
  | .ok j =>
    match stringMembers j, r with
    | none, _ => .malformed
    | some (username, password), .createUser _ => .register username password
    | some (username, password), .userLogin _ => .login username password

/-- How a response shows an answer: a success has the username and a token for
it. -/
def Shows (env : Surroundings) (x : Except Exception (ResponseDto UserDto)) : Answer → Prop
  | .granted username => ∃ claims token, claims.username = username ∧
      env.sign dep.secretKey claims = .ok token ∧ x = .ok (.success ⟨username, token.val⟩)
  | .denied => ∃ message, x = .ok (.failure message)

variable {dep}

theorem textMember_ok {j : Json} {name : String} {value : Bytes} :
    textMember j name = .ok value ↔ j.member name = some (.string value) := by
  have converted : ∀ v : Json, v.toStdString = .ok value ↔ v = .string value := fun v =>
    ⟨Json.toStdString_eq_ok, by rintro rfl; rfl⟩
  cases j with
  | object fields =>
    simp only [textMember, Json.index, Json.member, Except.bind, converted]
    cases Json.field (lit name) fields with
    | none => simp
    | some v => simp
  | null => simp [textMember, Json.index, Json.member, Except.bind, Json.toStdString]
  | boolean | integer | float | string | array =>
    simp [textMember, Json.index, Json.member, Except.bind]

theorem credentials_of_parse {body : Bytes} {j : Json} (parsed : dep.json.parse body = .ok j) :
    (∃ username password, stringMembers j = some (username, password) ∧
      credentials dep body = .ok (username, password)) ∨
    (stringMembers j = none ∧ ∃ e, credentials dep body = .error e) := by
  have whole : dep.json.parseBody body = .ok j := by simp [JsonLib.parseBody, parsed]
  have steps : credentials dep body = (textMember j "username").bind fun username =>
      (textMember j "password").bind fun password => .ok (username, password) := by
    simp only [credentials, whole]
    rfl
  have absent : ∀ {name : String} {e : Exception}, textMember j name = .error e →
      ∀ v, j.member name ≠ some (.string v) := fun thrown v found => by
    rw [textMember_ok.mpr found] at thrown
    cases thrown
  rw [steps]
  cases first : textMember j "username" with
  | error e =>
    refine .inr ⟨?_, e, rfl⟩
    have missing := absent first
    unfold stringMembers
    split
    next u p found _ => exact absurd found (missing u)
    · rfl
  | ok username =>
    cases second : textMember j "password" with
    | error e =>
      refine .inr ⟨?_, e, rfl⟩
      have missing := absent second
      unfold stringMembers
      split
      next u p _ found => exact absurd found (missing p)
      · rfl
    | ok password =>
      refine .inl ⟨username, password, ?_, rfl⟩
      simp [stringMembers, textMember_ok.mp first, textMember_ok.mp second]

end Request

section Simulation

variable (dep : Deployment) (A : Digest)

/-- No fault: the digest is the same function throughout and succeeds under
every salt of sixteen bytes, there are random bytes, and signing succeeds. -/
structure Undisturbed (env : Surroundings) : Prop where
  faultless : ∀ t, env.faults t = .none (env.faults t).order
  salted : ∃ salt, env.randomBytes 16 = .ok salt
  digests : ∀ password salt, salt.length = 16 →
    ∃ raw, env.argon2i ⟨2, 1 <<< 16, 1⟩ password salt 32 = some raw ∧
      List.ofFn raw = A password salt
  signs : ∀ claims, ∃ token, env.sign dep.secretKey claims = .ok token

/-- The table holds the map, in hex, one row for a username. -/
structure Represents (d : Database) (M : Credentials) : Prop where
  distinct : d.usernames.Nodup
  stored : ∀ row ∈ d.rows, ∃ s h, s.length = 16 ∧ M row.username = some (s, h) ∧
    row.salt = Utility.toHexString s ∧ row.passwordHash = Utility.toHexString h
  absent : ∀ u, u ∉ d.usernames → M u = none

variable {dep A} {env : Surroundings} {d : Database} {M : Credentials}

theorem Represents.none_iff (r : Represents d M) {u : Bytes} : M u = none ↔ u ∉ d.usernames := by
  refine ⟨fun missing mem => ?_, r.absent u⟩
  obtain ⟨row, inside, rfl⟩ := List.mem_map.mp mem
  obtain ⟨s, h, -, stored, -⟩ := r.stored row inside
  rw [missing] at stored
  cases stored

theorem Represents.insert (r : Represents d M) {u : Bytes} (new : M u = none) {s : List UInt8}
    (salt : s.length = 16) (h : List UInt8) :
    Represents (d.insert (newUser u (Utility.toHexString h) s))
      (Function.update M u (some (s, h))) := by
  have fresh := r.none_iff.mp new
  refine ⟨?_, ?_, ?_⟩
  · rw [Database.usernames_insert]
    refine List.nodup_append.mpr ⟨r.distinct, by simp, fun v old w mem same => fresh ?_⟩
    rwa [same, List.mem_singleton.mp mem] at old
  · intro row mem
    rcases List.mem_append.mp mem with old | added
    · have other : row.username ≠ u := fun same => fresh (same ▸ List.mem_map_of_mem old)
      rw [Function.update_of_ne other]
      exact r.stored row old
    · rw [List.mem_singleton.mp added]
      exact ⟨s, h, salt, Function.update_self .., rfl, rfl⟩
  · intro v missing
    rw [Database.usernames_insert, List.mem_append, not_or] at missing
    rw [Function.update_of_ne fun same => missing.2 (by simp [newUser, same])]
    exact r.absent v missing.1

theorem argon2_undisturbed (quiet : Undisturbed dep A env) (password : Bytes) {s : List UInt8}
    (sixteen : s.length = 16) : argon2 env password s = .ok (A password s) :=
  (argon2_eq_ok env).mpr (quiet.digests password s sixteen)

theorem hashOutcome_undisturbed (env : Surroundings) (quiet : Undisturbed dep A env)
    (password : Bytes) :
    ∃ s, s.length = 16 ∧
      hashOutcome dep env password = .ok (Utility.toHexString (A password s), s) := by
  obtain ⟨salt, drawn⟩ := quiet.salted
  have sixteen : (List.ofFn salt).length = 16 := List.length_ofFn
  have salted : saltOutcome dep env 16 = .ok (List.ofFn salt) := by
    rw [saltOutcome, drawn]
    rfl
  refine ⟨List.ofFn salt, sixteen, ?_⟩
  rw [hashOutcome, salted]
  simp only [bind, Except.bind, argon2_undisturbed quiet password sixteen]
  rfl

theorem verifyOutcome_undisturbed (env : Surroundings) (quiet : Undisturbed dep A env)
    (password : Bytes) {s : List UInt8} (sixteen : s.length = 16) (h : List UInt8) :
    verifyOutcome dep env (Utility.toHexString h) (Utility.toHexString s) password =
      .ok (decide (A password s = h)) := by
  obtain ⟨raw, replied, digest⟩ := quiet.digests password s sixteen
  rw [verifyOutcome_digested dep env _ replied, digest,
    decide_eq_decide.mpr Utility.toHexString_injective.eq_iff]

def answerTo : Option User → Answer
  | some user => .granted user.username
  | none => .denied

theorem shows_of_settles (quiet : Undisturbed dep A env) {grant : Option User}
    {x : Except Exception (ResponseDto UserDto)} (settled : settles dep env false grant x) :
    Shows dep env x (answerTo grant) := by
  rcases settled with ⟨user, token, rfl, made, rfl, -⟩ | ⟨refused, bad⟩
  · obtain ⟨text, signed, rfl⟩ := (tokenOutcome_ok dep env).mp made
    exact ⟨mintClaims dep user.username env.now, text, rfl, signed, rfl⟩
  · cases grant with
    | some user =>
      obtain ⟨text, signed⟩ := quiet.signs (mintClaims dep user.username env.now)
      exact absurd ((tokenOutcome_ok dep env).mpr ⟨text, signed, rfl⟩) (refused user _ rfl)
    | none =>
      cases x with
      | ok response =>
        obtain ⟨-, message, rfl, -⟩ := bad
        exact ⟨message, rfl⟩
      | error e => cases bad.1

theorem Represents.of_rows {d' : Database} (r : Represents d M) (same : d'.rows = d.rows) :
    Represents d' M := by
  have names : d'.usernames = d.usernames := congrArg (List.map _) same
  exact ⟨names ▸ r.distinct, same ▸ r.stored, names ▸ r.absent⟩

theorem createUser_simulates (quiet : Undisturbed dep A env) (r : Represents d M) {body : Bytes}
    {j : Json} (parsed : dep.json.parse body = .ok j) :
    ∃ answer M', Reference A M (ask dep (.createUser body)) answer M' ∧
      Shows dep env (registerOutcome dep env d body).1 answer ∧
      Represents (registerOutcome dep env d body).2 M' := by
  have settled := registerOutcome_settles dep env d body
  have table := registerOutcome_rows dep env d body
  rw [JsonLib.quotesInvalid, parsed] at settled
  simp only at settled
  have shown := shows_of_settles quiet settled
  rcases credentials_of_parse parsed with ⟨u, p, members, asked⟩ | ⟨members, e, asked⟩
  · obtain ⟨s, sixteen, hashed⟩ := hashOutcome_undisturbed env quiet p
    have ask_eq : ask dep (.createUser body) = .register u p := by
      simp [ask, Request.body, parsed, members]
    have entered : enters dep env d body =
        if u ∈ d.usernames then none
        else some (newUser u (Utility.toHexString (A p s)) s) := by
      simp only [enters, asked, hashed, stores_clean dep quiet.faultless, newUser]
      by_cases known : u ∈ d.usernames <;> simp [known]
    rw [ask_eq]
    by_cases known : u ∈ d.usernames
    · rw [entered, if_pos known] at shown table
      have present : M u ≠ none := fun missing => r.none_iff.mp missing known
      exact ⟨.denied, M, .taken M u p present, shown, r.of_rows table⟩
    · rw [entered, if_neg known] at shown table
      have missing := r.none_iff.mpr known
      exact ⟨.granted u, _, .register M u p s missing sixteen, shown,
        (r.insert missing sixteen (A p s)).of_rows table⟩
  · have entered : enters dep env d body = none := by simp [enters, asked]
    have ask_eq : ask dep (.createUser body) = .malformed := by
      simp [ask, Request.body, parsed, members]
    rw [entered] at shown table
    rw [ask_eq]
    exact ⟨.denied, M, .malformed M, shown, r.of_rows table⟩

theorem userLogin_simulates (quiet : Undisturbed dep A env) (r : Represents d M) {body : Bytes}
    {j : Json} (parsed : dep.json.parse body = .ok j) :
    ∃ answer, Reference A M (ask dep (.userLogin body)) answer M ∧
      Shows dep env (loginOutcome dep env d body) answer := by
  have settled := loginOutcome_settles dep env d body
  rw [JsonLib.quotesInvalid, parsed] at settled
  simp only at settled
  have shown := shows_of_settles quiet settled
  rcases credentials_of_parse parsed with ⟨u, q, members, asked⟩ | ⟨members, e, asked⟩
  · have ask_eq : ask dep (.userLogin body) = .login u q := by
      simp [ask, Request.body, parsed, members]
    rw [ask_eq]
    by_cases known : u ∈ d.usernames
    · obtain ⟨row, mem, rfl, found⟩ := lookup_found quiet.faultless known
      obtain ⟨s, h, sixteen, stored, salt, hash⟩ := r.stored row mem
      have verified := verifyOutcome_undisturbed env quiet q sixteen h
      have admitted : admits dep env d body = if A q s = h then some row else none := by
        simp only [admits, asked, found, salt, hash, verified]
        by_cases same : A q s = h <;> simp [same]
      by_cases same : A q s = h
      · rw [admitted, if_pos same] at shown
        exact ⟨.granted row.username, .login M _ q s h stored same, shown⟩
      · rw [admitted, if_neg same] at shown
        refine ⟨.denied, .refused M _ q fun s' h' stored' => ?_, shown⟩
        rw [stored] at stored'
        cases stored'
        exact same
    · have admitted : admits dep env d body = none := by
        simp [admits, asked, lookup_missing quiet.faultless known]
      rw [admitted] at shown
      refine ⟨.denied, .refused M u q fun s h stored => ?_, shown⟩
      rw [r.absent u known] at stored
      cases stored
  · have admitted : admits dep env d body = none := by simp [admits, asked]
    have ask_eq : ask dep (.userLogin body) = .malformed := by
      simp [ask, Request.body, parsed, members]
    rw [admitted] at shown
    rw [ask_eq]
    exact ⟨.denied, .malformed M, shown⟩

end Simulation

/-- What the reference may answer to a request, and how the response shows it. -/
def Step (dep : Deployment) (A : Digest) (d : Database) (r : Request × Surroundings)
    (M M' : Credentials) : Prop :=
  ∃ answer, Reference A M (ask dep r.1) answer M' ∧ Shows dep r.2 (serve dep d r).1 answer

theorem step_simulates {dep : Deployment} {A : Digest} {d : Database} {M : Credentials}
    {r : Request × Surroundings} (holds : Represents d M)
    (parses : ∃ j, dep.json.parse r.1.body = .ok j) (quiet : Undisturbed dep A r.2) :
    ∃ M', Step dep A d r M M' ∧ Represents (next dep d r) M' := by
  obtain ⟨request, env⟩ := r
  obtain ⟨j, parsed⟩ := parses
  cases request with
  | createUser body =>
    obtain ⟨answer, M', taken, shown, table⟩ := createUser_simulates quiet holds parsed
    exact ⟨M', ⟨answer, taken, by rwa [serve_createUser]⟩, by rwa [next, serve_createUser]⟩
  | userLogin body =>
    obtain ⟨answer, taken, shown⟩ := userLogin_simulates quiet holds parsed
    exact ⟨M, ⟨answer, taken, by rwa [serve_userLogin]⟩, by rwa [next, serve_userLogin]⟩

theorem represents_empty : Represents .empty fun _ => none :=
  ⟨List.nodup_nil, nofun, fun _ _ => rfl⟩

/-- Without faults the service answers as a map from usernames to credentials would. -/
theorem service_refines_credentials (dep : Deployment) (A : Digest)
    (requests : List (Request × Surroundings))
    (parse : ∀ r ∈ requests, ∃ j, dep.json.parse r.1.body = .ok j)
    (quiet : ∀ r ∈ requests, Undisturbed dep A r.2) :
    Followed (next dep) Represents (Step dep A) .empty (fun _ => none) requests := by
  have simulates : ∀ d M r, Represents d M →
      ((∃ j, dep.json.parse r.1.body = .ok j) ∧ Undisturbed dep A r.2) →
      ∃ M', Step dep A d r M M' ∧ Represents (next dep d r) M' :=
    fun _ _ _ holds each => step_simulates holds each.1 each.2
  exact followed_of_simulation simulates represents_empty fun r mem => ⟨parse r mem, quiet r mem⟩

def annText (password : String) : Bytes :=
  lit ("\x7b\"username\":\"ann\",\"password\":\"" ++ password ++ "\"\x7d")

def annValue (password : String) : Json :=
  .object [(lit "password", .string (lit password)), (lit "username", .string (lit "ann"))]

def reading : Deployment where
  json := .ofTable [(annText "first", annValue "first"), (annText "second", annValue "second")]
    (fun _ _ => lit "null") (by decide)
  secretKey := lit "secret"
  projectName := lit "ccfolio"

def calmDigest : Digest := fun password _ => List.ofFn fun i : Fin 32 => password.getD i 0

theorem undisturbed_calm (dep : Deployment) : Undisturbed dep calmDigest .calm where
  faultless _ := rfl
  salted := ⟨_, rfl⟩
  digests _ _ _ := ⟨_, rfl, rfl⟩
  signs _ := ⟨_, rfl⟩

theorem service_refines_credentials_ann :
    Followed (next reading) Represents (Step reading calmDigest) .empty (fun _ => none)
      [(.createUser (annText "first"), .calm), (.userLogin (annText "second"), .calm),
        (.createUser (annText "second"), .calm)] := by
  refine service_refines_credentials reading calmDigest _ ?_ ?_
  · simp only [List.forall_mem_cons]
    exact ⟨⟨annValue "first", rfl⟩, ⟨annValue "second", rfl⟩, ⟨annValue "second", rfl⟩, nofun⟩
  · simp only [List.forall_mem_cons]
    exact ⟨undisturbed_calm _, undisturbed_calm _, undisturbed_calm _, nofun⟩

end Ccfolio.CredentialMap
