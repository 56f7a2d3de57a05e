import Ccfolio.CredentialMap

/-! What a creation leaves when it fails and what it returns when it does not.
The token is made after the row has been committed, and the row gets its id in
a copy the repository does not return. -/

namespace Ccfolio.Registration

open Utf8 StdText Odb Programs Calls LogService Repositories PasswordHelper JwtHelper UserService
  CredentialMap

section Failure

variable (dep : Deployment) (d : Database) (body : Bytes) (env : Surroundings)

/-- A failed call leaves the table as it was; repeated without a fault, it is
not told that a username is taken which was free. -/
structure Harmless : Prop where
  unchanged : Fails (serve dep d (.createUser body, env)).1 →
    (next dep d (.createUser body, env)).rows = d.rows
  repeatable : Fails (serve dep d (.createUser body, env)).1 →
    ∀ u password (env' : Surroundings), credentials dep body = .ok (u, password) → u ∉ d.usernames →
      (serve dep (next dep d (.createUser body, env)) (.createUser body, env'.faultless)).1 ≠
        .ok (.failure (userExists u))

/-- The lookup finds no row or fails with a text that can be logged, the insert
commits, and signing throws. -/
def TokenLost : Prop :=
  ∃ u password hashedPassword salt e, credentials dep body = .ok (u, password) ∧
    hashOutcome dep env password = .ok (hashedPassword, salt) ∧
    ((runTx (env.faults (.selectByUsername u)) (.selectByUsername u) d).1 = .ok none ∨
      ∃ thrown, (runTx (env.faults (.selectByUsername u)) (.selectByUsername u) d).1 =
        .error thrown ∧ isUtf8 thrown.what = true) ∧
    (runTx (env.faults (.persist (newUser u hashedPassword salt)))
      (.persist (newUser u hashedPassword salt)) d).1.isOk = true ∧
    env.sign dep.secretKey (mintClaims dep u env.now) = .error e

end Failure

variable {dep : Deployment} {d : Database} {body : Bytes} {env : Surroundings}

theorem tokenLost_iff :
    TokenLost dep d body env ↔
      ∃ user, enters dep env d body = some user ∧
        ∃ e, env.sign dep.secretKey (mintClaims dep user.username env.now) = .error e := by
  constructor
  · rintro ⟨u, password, hashedPassword, salt, e, asked, hashed, missed, committed, unsigned⟩
    have stored : stores dep env d (newUser u hashedPassword salt) = true :=
      Bool.and_eq_true_iff.mpr ⟨(proceeds_iff dep env d).mpr missed, committed⟩
    exact ⟨_, (enters_iff dep env d).mpr
      ⟨u, password, hashedPassword, salt, asked, hashed, stored, rfl⟩, e, unsigned⟩
  · rintro ⟨user, entered, e, unsigned⟩
    obtain ⟨u, password, hashedPassword, salt, asked, hashed, stored, rfl⟩ :=
      (enters_iff dep env d).mp entered
    obtain ⟨goesOn, committed⟩ := Bool.and_eq_true_iff.mp stored
    have missed := (proceeds_iff dep env d).mp goesOn
    exact ⟨u, password, hashedPassword, salt, e, asked, hashed, missed, committed, unsigned⟩

theorem fails_iff_of_enters {user : User} (entered : enters dep env d body = some user) :
    Fails (registerOutcome dep env d body).1 ↔
      ∃ e, env.sign dep.secretKey (mintClaims dep user.username env.now) = .error e := by
  have settled := registerOutcome_settles dep env d body
  rw [entered] at settled
  cases reply : env.sign dep.secretKey (mintClaims dep user.username env.now) with
  | ok token =>
    refine iff_of_false (fun bad => ?_) nofun
    have made := (tokenOutcome_ok dep env).mpr ⟨token, reply, rfl⟩
    rcases settled with ⟨_, _, _, _, success, _⟩ | ⟨none, -⟩
    · cases bad _ success
    · exact none user _ rfl made
  | error e =>
    refine iff_of_true (fun response returned => ?_) ⟨e, rfl⟩
    rcases settled with ⟨_, token, same, made, -⟩ | ⟨-, bad⟩
    · cases same
      obtain ⟨text, signed, -⟩ := (tokenOutcome_ok dep env).mp made
      rw [reply] at signed
      cases signed
    · rw [returned] at bad
      obtain ⟨-, message, rfl, -⟩ := bad
      rfl

theorem caught_userExists {u : Bytes} {x : Except Exception (ResponseDto UserDto)}
    (h : caught dep env createJsonSite createStdSite x = .ok (.failure (userExists u))) :
    x = .ok (.failure (userExists u)) := by
  have other : ∀ {message : Bytes}, message.head? ≠ some 85 →
      (ResponseDto.failure message : ResponseDto UserDto) ≠ .failure (userExists u) := by
    intro message start same
    injection same with _ _ text
    injection text with text
    exact start (by rw [text]; rfl)
  cases x with
  | ok response => exact h
  | error e =>
    unfold caught at h
    simp only at h
    split at h
    · exact absurd (Except.ok.inj (logThen_ok dep env .ERROR _ h)) (other (by decide))
    · exact absurd (Except.ok.inj (logThen_ok dep env .ERROR _ h)) (other (by decide))

theorem registerOutcome_free {u password : Bytes}
    (clean : ∀ t, env.faults t = .none (env.faults t).order)
    (asked : credentials dep body = .ok (u, password)) (free : u ∉ d.usernames) :
    (registerOutcome dep env d body).1 ≠ .ok (.failure (userExists u)) := by
  intro refused
  have tried := caught_userExists refused
  cases hashed : hashOutcome dep env password with
  | error e => simp [registerTry, asked, hashed] at tried
  | ok made =>
    obtain ⟨hashedPassword, salt⟩ := made
    have stored : stores dep env d (newUser u hashedPassword salt) = true := by
      rw [stores_clean dep clean]
      exact decide_eq_true free
    have entered := (enters_iff dep env d).mpr
      ⟨u, password, hashedPassword, salt, asked, hashed, stored, rfl⟩
    rw [(registerTry_some dep env d entered).1, minted] at tried
    cases made : tokenOutcome dep env (newUser u hashedPassword salt).username with
    | error e => rw [made] at tried; cases tried
    | ok token => rw [made] at tried; cases tried

theorem not_harmless_of_tokenLost (lost : TokenLost dep d body env) :
    ¬ Harmless dep d body env := by
  intro harmless
  obtain ⟨user, entered, unsigned⟩ := tokenLost_iff.mp lost
  have same := harmless.unchanged
  rw [next, serve_createUser, registerOutcome_rows, entered] at same
  have grown := congrArg List.length (same ((fails_iff_of_enters entered).mpr unsigned))
  simp at grown

/-- A registration that fails has no effect, unless its row is committed and its token cannot be
signed. -/
theorem failure_harmless_iff (dep : Deployment) (d : Database) (body : Bytes)
    (env : Surroundings) : Harmless dep d body env ↔ ¬ TokenLost dep d body env := by
  have rows := registerOutcome_rows dep env d body
  constructor
  · exact fun harmless lost => not_harmless_of_tokenLost lost harmless
  · intro kept
    rw [tokenLost_iff] at kept
    have unchanged : Fails (registerOutcome dep env d body).1 →
        (registerOutcome dep env d body).2.rows = d.rows := by
      intro failed
      cases entered : enters dep env d body with
      | none => rw [rows, entered]
      | some user => exact absurd ⟨user, entered, (fails_iff_of_enters entered).mp failed⟩ kept
    constructor
    · rw [next, serve_createUser]
      exact unchanged
    · rw [next, serve_createUser]
      intro failed u password env' asked free
      rw [serve_createUser]
      refine registerOutcome_free env'.faultless_clean asked ?_
      rwa [Database.usernames, unchanged failed]

def signDown : Surroundings :=
  { Surroundings.calm with sign := fun _ _ => .error (runtimeError "failed to create hmac") }

theorem registration_half_done : ¬ Harmless reading .empty (annText "first") signDown :=
  not_harmless_of_tokenLost ⟨lit "ann", lit "first", _, _, _, by decide, rfl, .inl rfl, rfl, rfl⟩

section Stored

variable (dep : Deployment) (env env' : Surroundings) (d : Database) (user : User)

def ReturnsStored : Prop :=
  let created := run (handle env.faultless) (Repositories.createUser dep user) () d
  ∀ v, created.1 = .ok (.successResult v) →
    (run (handle env'.faultless) (getUserByUsername dep user.username) () created.2.2).1 =
      .ok (.successResult (some v))

theorem lookupOutcome_insert (free : user.username ∉ d.usernames) :
    lookupOutcome dep env'.faultless (d.insert user) user.username =
      .ok (.successResult (some { user with id := d.nextId })) := by
  have others : d.rows.filter (·.username = user.username) = [] :=
    Database.withUsername_eq_nil.mpr free
  have rows : (d.insert user).withUsername user.username = [{ user with id := d.nextId }] := by
    simp [Database.withUsername, others]
  have reply := runTx_select_clean (env'.faults (.selectByUsername user.username)).order
    user.username (d.insert user)
  rw [rows, RowOrder.arrange_singleton] at reply
  simp [lookupOutcome, Surroundings.faultless, reply, logged, Except.map, report]

/-- A creation returns its argument, which is the stored row only if nothing was stored or its id
happens to be the next one. -/
theorem returns_stored_iff :
    ReturnsStored dep env env' d user ↔ user.username ∈ d.usernames ∨ user.id = d.nextId := by
  have decided : stores dep env.faultless d user = decide (user.username ∉ d.usernames) :=
    stores_clean dep env.faultless_clean user
  simp only [ReturnsStored, Repositories.run_createUser, run_getUserByUsername]
  by_cases known : user.username ∈ d.usernames
  · refine iff_of_true (fun v created => ?_) (.inl known)
    have refusal := (createUserOutcome_refused dep env.faultless d
      (decided.trans (by simpa using known))).2
    rw [created] at refusal
    exact refusal.elim
  · rw [createUserOutcome_stores dep env.faultless d (decided.trans (by simpa using known))]
    simp only [lookupOutcome_insert dep env' d user known, known, false_or]
    constructor
    · intro returns
      have same := returns user rfl
      injection same with same
      injection same with same
      injection same with same
      exact (congrArg User.id same).symm
    · rintro same v created
      cases created
      rw [← same]

end Stored

theorem id_lost : ¬ ReturnsStored .refusing .calm .calm .empty ⟨0, lit "ann", [], []⟩ :=
  fun returns => nomatch returns _ rfl

end Ccfolio.Registration
