import Ccfolio.LogService

/-! `OperationResult`, `OdbRepository<User>` and `UserRepository`. -/

namespace Ccfolio.Repositories

open Utf8 StdText Odb Programs Calls LogService

inductive OperationResult (T : Type) where
  | successResult (result : T)
  | failureResult (errorMessage : Bytes)
  deriving DecidableEq, Repr

namespace OperationResult

variable {T : Type}

def isSuccess : OperationResult T → Bool
  | successResult _ => true
  | failureResult _ => false

def getResult : OperationResult T → Except Exception T
  | successResult result => .ok result
  | failureResult _ => .error (logicError "Attempted to access result of a failed operation.")

def getErrorMessage : OperationResult T → Except Exception Bytes
  | successResult _ =>
      .error (logicError "Attempted to access error message of a successful operation.")
  | failureResult errorMessage => .ok errorMessage

end OperationResult

section OdbRepository

variable {τ : Type} (dep : Deployment)

def createSite : Site := ⟨"OdbRepository.h", 60, "Create", by decide⟩

def trouble : Bytes := lit "Something happened, please try again later."

/-- The five operations of `OdbRepository` differ in their transaction, in what
they make of its result and in where they log; their handlers of
`odb::connection_lost` and of `std::exception` differ in the line only. -/
def operation {T : Type} (t : Tx) (result : t.Result → T) (site : Site) :
    App τ (OperationResult T) := do
  try
    let r ← MonadExcept.ofExcept (← call (.transaction t))
    pure (.successResult (result r))
  catch e =>
    log dep .ERROR e.what site
    pure (.failureResult trouble)

/-- The entity is passed by value: the id `persist` writes into it is lost. -/
def create (entity : User) : App τ (OperationResult Bool) :=
  operation dep (.persist entity) (fun _ => true) createSite

def read (id : Int) : App τ (OperationResult User) :=
  operation dep (.load id) (fun row => row) ⟨"OdbRepository.h", 87, "Read", by decide⟩

def update (entity : User) : App τ (OperationResult Bool) :=
  operation dep (.update entity) (fun _ => true) ⟨"OdbRepository.h", 114, "Update", by decide⟩

def delete (id : Int) : App τ (OperationResult Bool) :=
  operation dep (.erase id) (fun _ => true) ⟨"OdbRepository.h", 141, "Delete", by decide⟩

def readAll : App τ (OperationResult (List User)) :=
  operation dep .selectAll (fun rows => rows) ⟨"OdbRepository.h", 172, "ReadAll", by decide⟩

end OdbRepository

section UserRepository

variable {τ : Type} (dep : Deployment)

def tryAgainLater : Bytes := lit "Something happened, please try again later"

def userNotFound (username : Bytes) : Bytes :=
  lit "Failed to find user with username: " ++ username

def userExists (username : Bytes) : Bytes :=
  lit "User with username: " ++ username ++ lit " already exist."

def creationFailed (username : Bytes) : Bytes :=
  lit "Failed to create user with username: " ++ username

theorem tryAgainLater_utf8 : isUtf8 tryAgainLater = true := by decide

theorem userNotFound_utf8 {username : Bytes} (utf8 : isUtf8 username = true) :
    isUtf8 (userNotFound username) = true := isUtf8_append (by decide) utf8

def lookupSite : Site := ⟨"UserRepository.h", 98, "getUserByUsername", by decide⟩

def createUserSite : Site := ⟨"UserRepository.h", 67, "createUser", by decide⟩

def getUserByUsername (username : Bytes) : App τ (OperationResult (Option User)) := do
  try
    match ← MonadExcept.ofExcept (← call (.transaction (.selectByUsername username))) with
    | some user => pure (.successResult (some user))
    | none => pure (.failureResult (userNotFound username))
  catch e =>
    log dep .ERROR e.what lookupSite
    pure (.failureResult tryAgainLater)

def createUser (user : User) : App τ (OperationResult User) := do
  try
    let userExist ← getUserByUsername dep user.username
    if userExist.isSuccess then
      pure (.failureResult (userExists user.username))
    else
      let userCreated ← create dep user
      if !userCreated.isSuccess then
        pure (.failureResult (creationFailed user.username))
      else
        pure (.successResult user)
  catch e =>
    -- only `odb::exception` has a handler here
    match e.kind with
    | .odb =>
      log dep .ERROR e.what createUserSite
      pure (.failureResult tryAgainLater)
    | _ => throw e

end UserRepository

section Run

variable {τ : Type} (dep : Deployment) (env : Surroundings) (t : τ) (d : Database)

theorem run_operation {T : Type} (x : Tx) (result : x.Result → T) (site : Site) :
    run (handle env) (operation dep x result site) t d =
      (logged dep env site (.ok (.failureResult trouble))
        ((runTx (env.faults x) x d).1.map fun r => .successResult (result r)), t,
        (runTx (env.faults x) x d).2) := by
  have body : run (handle env) (do
      let r ← MonadExcept.ofExcept (← call (.transaction x))
      pure (.successResult (result r)) : App τ (OperationResult T)) t d =
      ((runTx (env.faults x) x d).1.map fun r => .successResult (result r), t,
        (runTx (env.faults x) x d).2) := by
    rw [run_bind, run_perform, andThen_ok, handle, run_bind, run_ofExcept]
    cases (runTx (env.faults x) x d).1 <;> rfl
  unfold operation
  exact run_catch_pure dep env site body (.failureResult trouble)

def createOutcome (entity : User) : Except Exception (OperationResult Bool) :=
  logged dep env createSite (.ok (.failureResult trouble))
    ((runTx (env.faults (.persist entity)) (.persist entity) d).1.map fun _ => .successResult true)

theorem run_create (entity : User) :
    run (handle env) (create dep entity) t d =
      (createOutcome dep env d entity, t,
        (runTx (env.faults (.persist entity)) (.persist entity) d).2) :=
  run_operation dep env t d (.persist entity) (fun _ => true) createSite

def report (username : Bytes) : Option User → OperationResult (Option User)
  | some user => .successResult (some user)
  | none => .failureResult (userNotFound username)

def lookupOutcome (username : Bytes) : Except Exception (OperationResult (Option User)) :=
  logged dep env lookupSite (.ok (.failureResult tryAgainLater))
    ((runTx (env.faults (.selectByUsername username)) (.selectByUsername username) d).1.map
      (report username))

theorem run_getUserByUsername (username : Bytes) :
    run (handle env) (getUserByUsername dep username) t d =
      (lookupOutcome dep env d username, t, d) := by
  have body : run (handle env) (do
      match ← MonadExcept.ofExcept (← call (.transaction (.selectByUsername username))) with
      | some user => pure (.successResult (some user))
      | none => pure (.failureResult (userNotFound username)) :
        App τ (OperationResult (Option User))) t d =
      ((runTx (env.faults (.selectByUsername username)) (.selectByUsername username) d).1.map
        (report username), t, d) := by
    rw [run_bind, run_perform, andThen_ok, handle, run_bind, run_ofExcept, runTx_select_database]
    rcases (runTx (env.faults (.selectByUsername username)) (.selectByUsername username) d).1 with
      e | row | row <;> rfl
  unfold getUserByUsername
  exact run_catch_pure dep env lookupSite body (.failureResult tryAgainLater)

/-- The check and, unless it found a row, the insert; then what the handler
makes of an exception. -/
def createUserTry (user : User) : Except Exception (OperationResult User) × Database :=
  match lookupOutcome dep env d user.username with
  | .error e => (.error e, d)
  | .ok (.successResult _) => (.ok (.failureResult (userExists user.username)), d)
  | .ok (.failureResult _) =>
      ((createOutcome dep env d user).map fun
        | .successResult _ => .successResult user
        | .failureResult _ => .failureResult (creationFailed user.username),
        (runTx (env.faults (.persist user)) (.persist user) d).2)

def createUserCatch (x : Except Exception (OperationResult User)) :
    Except Exception (OperationResult User) :=
  match x with
  | .ok r => .ok r
  | .error e =>
    match e.kind with
    | .odb => logThen dep env .ERROR e.what createUserSite (.ok (.failureResult tryAgainLater))
    | _ => .error e

def createUserOutcome (user : User) : Except Exception (OperationResult User) × Database :=
  (createUserCatch dep env (createUserTry dep env d user).1, (createUserTry dep env d user).2)

theorem run_createUser (user : User) :
    run (handle env) (createUser dep user) t d =
      ((createUserOutcome dep env d user).1, t, (createUserOutcome dep env d user).2) := by
  simp only [createUserOutcome]
  have body : run (handle env) (do
      let userExist ← getUserByUsername dep user.username
      if userExist.isSuccess then
        pure (.failureResult (userExists user.username))
      else
        let userCreated ← create dep user
        if !userCreated.isSuccess then
          pure (.failureResult (creationFailed user.username))
        else
          pure (.successResult user) : App τ (OperationResult User)) t d =
      ((createUserTry dep env d user).1, t, (createUserTry dep env d user).2) := by
    rw [run_bind, run_getUserByUsername, createUserTry]
    rcases lookupOutcome dep env d user.username with e | found | missing
    · rfl
    · rfl
    · simp only [andThen_ok, OperationResult.isSuccess, Bool.false_eq_true, if_false, run_bind,
        run_create]
      rcases createOutcome dep env d user with e | done | failed <;> rfl
  unfold createUser
  rw [run_tryCatch, body]
  rcases (createUserTry dep env d user).1 with e | r
  · rcases e with ⟨_ | _ | _, what⟩ <;> simp [createUserCatch]
  · rfl

end Run

/-! What a result tells: whether a row was stored, and that every text in it
is UTF-8 when the username is. -/

section Cases

variable (dep : Deployment) (env : Surroundings) (d : Database)

def refused {T : Type} (username : Bytes) : Except Exception (OperationResult T) → Prop
  | .error e => isUtf8 e.what = true
  | .ok (.failureResult message) => isUtf8 username = true → isUtf8 message = true
  | .ok (.successResult _) => False

theorem logged_refused {T : Type} (username message : Bytes) (site : Site) (e : Exception)
    (plain : isUtf8 message = true) :
    refused username
      (logged dep env site (.ok (.failureResult message)) (.error e) :
        Except Exception (OperationResult T)) := by
  cases out : logged dep env site (.ok (.failureResult message : OperationResult T)) (.error e) with
  | error thrown => exact logged_error dep env site (fun _ eq => by cases eq) out
  | ok r =>
    rcases logged_ok dep env site out with replied | fallback
    · cases replied
    · cases fallback
      exact fun _ => plain

theorem lookupOutcome_cases (username : Bytes) :
    (∃ row ∈ d.rows, row.username = username ∧
      (runTx (env.faults (.selectByUsername username)) (.selectByUsername username) d).1 =
        .ok (some row) ∧
      lookupOutcome dep env d username = .ok (.successResult (some row))) ∨
    refused username (lookupOutcome dep env d username) := by
  cases reply :
      (runTx (env.faults (.selectByUsername username)) (.selectByUsername username) d).1 with
  | error e =>
    refine .inr ?_
    rw [lookupOutcome, reply]
    exact logged_refused dep env username tryAgainLater lookupSite e tryAgainLater_utf8
  | ok found =>
    cases found with
    | some row =>
      obtain ⟨mem, named⟩ := runTx_select_some reply
      exact .inl ⟨row, mem, named, rfl, by rw [lookupOutcome, reply]; rfl⟩
    | none =>
      refine .inr ?_
      rw [lookupOutcome, reply]
      exact userNotFound_utf8

/-- The lookup came back without a row, and no exception came out of it. -/
def proceeds (username : Bytes) : Bool :=
  match lookupOutcome dep env d username with
  | .ok (.failureResult _) => true
  | _ => false

theorem proceeds_eq (username : Bytes) :
    proceeds dep env d username =
      match (runTx (env.faults (.selectByUsername username)) (.selectByUsername username) d).1 with
      | .ok found => found.isNone
      | .error e => isUtf8 e.what := by
  unfold proceeds lookupOutcome
  rcases (runTx (env.faults (.selectByUsername username)) (.selectByUsername username) d).1 with
    e | _ | row
  · simp only [Except.map, logged, logThen]
    by_cases utf8 : isUtf8 e.what = true <;> simp [utf8]
  · rfl
  · rfl

theorem proceeds_iff {username : Bytes} :
    proceeds dep env d username = true ↔
      (runTx (env.faults (.selectByUsername username)) (.selectByUsername username) d).1 =
        .ok none ∨
      ∃ e, (runTx (env.faults (.selectByUsername username)) (.selectByUsername username) d).1 =
        .error e ∧ isUtf8 e.what = true := by
  rw [proceeds_eq]
  rcases (runTx (env.faults (.selectByUsername username)) (.selectByUsername username) d).1 with
    e | _ | row
  · simp
  · simp
  · simp

def stores (user : User) : Bool :=
  proceeds dep env d user.username &&
    (runTx (env.faults (.persist user)) (.persist user) d).1.isOk

theorem createUserOutcome_stores {user : User} (h : stores dep env d user = true) :
    createUserOutcome dep env d user = (.ok (.successResult user), d.insert user) := by
  obtain ⟨goesOn, commits⟩ := Bool.and_eq_true_iff.mp h
  unfold proceeds at goesOn
  split at goesOn
  next message found =>
    cases inserted : (runTx (env.faults (.persist user)) (.persist user) d).1 with
    | error e => rw [inserted] at commits; cases commits
    | ok stored =>
      have whole := runTx_persist_ok inserted
      simp [createUserOutcome, createUserTry, found, createOutcome, whole, logged, Except.map,
        createUserCatch]
  · cases goesOn

theorem createUserOutcome_refused {user : User} (h : stores dep env d user = false) :
    (createUserOutcome dep env d user).2.rows = d.rows ∧
      refused user.username (createUserOutcome dep env d user).1 := by
  have caught : ∀ {x : Except Exception (OperationResult User)},
      refused user.username x → refused user.username (createUserCatch dep env x) := by
    rintro (e | r | message) bad
    · simp only [createUserCatch]
      split
      · rw [logThen_utf8 dep env .ERROR createUserSite bad]
        exact fun _ => tryAgainLater_utf8
      · exact bad
    · exact bad
    · exact bad
  suffices tried : (createUserTry dep env d user).2.rows = d.rows ∧
      refused user.username (createUserTry dep env d user).1 from ⟨tried.1, caught tried.2⟩
  unfold createUserTry
  rcases lookupOutcome_cases dep env d user.username with ⟨row, -, -, -, found⟩ | missing
  · rw [found]
    exact ⟨rfl, fun utf8 => isUtf8_append (isUtf8_append (by decide) utf8) (by decide)⟩
  · cases found : lookupOutcome dep env d user.username with
    | error e =>
      rw [found] at missing
      exact ⟨rfl, missing⟩
    | ok r =>
      cases r with
      | successResult _ => rw [found] at missing; exact missing.elim
      | failureResult message =>
        have fails : (runTx (env.faults (.persist user)) (.persist user) d).1.isOk = false := by
          simpa [stores, proceeds, found] using h
        cases inserted : (runTx (env.faults (.persist user)) (.persist user) d).1 with
        | ok stored => rw [inserted] at fails; cases fails
        | error e =>
          refine ⟨runTx_persist_error inserted, ?_⟩
          have created := logged_refused dep env (T := Bool) user.username trouble
            createSite e (by decide)
          simp only [createOutcome, inserted, Except.map]
          revert created
          rcases logged dep env createSite (.ok (.failureResult trouble : OperationResult Bool))
            (.error e) with thrown | done | failed
          · exact id
          · exact False.elim
          · exact fun _ utf8 => isUtf8_append (by decide) utf8

end Cases

/-! Without a fault of the database the table decides. -/

section Clean

variable (dep : Deployment) {env : Surroundings} {d : Database}
  (clean : ∀ t, env.faults t = .none (env.faults t).order)

include clean

theorem lookup_missing {u : Bytes} (missing : u ∉ d.usernames) :
    (runTx (env.faults (.selectByUsername u)) (.selectByUsername u) d).1 = .ok none := by
  rw [clean, runTx_select_clean, Database.withUsername_eq_nil.mpr missing, RowOrder.arrange_nil]
  rfl

theorem lookup_found {u : Bytes} (known : u ∈ d.usernames) :
    ∃ row ∈ d.rows, row.username = u ∧
      (runTx (env.faults (.selectByUsername u)) (.selectByUsername u) d).1 = .ok (some row) := by
  have some : (env.faults (.selectByUsername u)).order.arrange (d.withUsername u) ≠ [] := by
    rw [Ne, RowOrder.arrange_eq_nil, Database.withUsername_eq_nil]
    exact not_not_intro known
  obtain ⟨row, rows, found⟩ := List.exists_cons_of_ne_nil some
  have reply := runTx_select_clean (env.faults (.selectByUsername u)).order u d
  rw [← clean, found, List.head?_cons] at reply
  obtain ⟨mem, named⟩ := runTx_select_some reply
  exact ⟨row, mem, named, reply⟩

theorem stores_clean (user : User) :
    stores dep env d user = decide (user.username ∉ d.usernames) := by
  have inserted : (runTx (env.faults (.persist user)) (.persist user) d).1.isOk = true := by
    rw [clean, runTx_persist_clean]
    rfl
  rw [stores, inserted, Bool.and_true, proceeds_eq]
  by_cases known : user.username ∈ d.usernames
  · obtain ⟨row, -, -, found⟩ := lookup_found clean known
    simp [found, known]
  · simp [lookup_missing clean known, known]

end Clean

end Ccfolio.Repositories
