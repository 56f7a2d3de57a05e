import Ccfolio.Repositories
import Ccfolio.Transitions

/-! Calls of the repositories one after another on one thread, where a
transaction runs on whatever the call before it left open. -/

namespace Ccfolio.Transactions

open Utf8 StdText Odb Programs Transitions Calls LogService Repositories

def handleOn (env : Surroundings) : Handler Reply Connection
  | .transaction t, c =>
      let out := (transact (env.faults t) t).run.run c
      (out.1, out.2)
  | call, c => ((handle env call c.database).1, c)

inductive Operation where
  | create (entity : User)
  | read (id : Int)
  | update (entity : User)
  | delete (id : Int)
  | readAll
  | getUserByUsername (username : Bytes)
  | createUser (user : User)

namespace Operation

abbrev Result : Operation → Type
  | .create _ | .update _ | .delete _ => Bool
  | .read _ | .createUser _ => User
  | .readAll => List User
  | .getUserByUsername _ => Option User

def code (dep : Deployment) : (o : Operation) → App Unit (OperationResult o.Result)
  | .create entity => Repositories.create dep entity
  | .read id => Repositories.read dep id
  | .update entity => Repositories.update dep entity
  | .delete id => Repositories.delete dep id
  | .readAll => Repositories.readAll dep
  | .getUserByUsername username => Repositories.getUserByUsername dep username
  | .createUser user => Repositories.createUser dep user

def transaction : Operation → Tx
  | .create entity => .persist entity
  | .read id => .load id
  | .update entity => .update entity
  | .delete id => .erase id
  | .readAll => .selectAll
  | .getUserByUsername username => .selectByUsername username
  | .createUser user => .persist user

end Operation

section Thread

variable (dep : Deployment)

def invoke (c : Connection) (o : Operation × Surroundings) :
    Except Exception (OperationResult o.1.Result) × Connection :=
  let out := run (handleOn o.2) (o.1.code dep) () c
  (out.1, out.2.2)

def after (c : Connection) (o : Operation × Surroundings) : Connection := (invoke dep c o).2

/-- The exceptions a run makes transactions throw have texts that are UTF-8. -/
def Legible (env : Surroundings) : Prop :=
  ∀ t, ∀ e ∈ (env.faults t).raised, isUtf8 e.what = true

/-- A reported success comes with the effect on the rows, a reported failure
with none. -/
def Agrees {T : Type} (t : Tx) (d : Database) (rows : List User) (r : OperationResult T) : Prop :=
  (r.isSuccess = false → rows = d.rows) ∧ (r.isSuccess = true → t.Effect d.rows rows)

/-- The call returns, leaves no transaction open, and reports what it did. -/
def Atomic (c : Connection) (o : Operation × Surroundings) : Prop :=
  ∃ r, (invoke dep c o).1 = .ok r ∧ (after dep c o).current = none ∧
    Agrees o.1.transaction c.database (after dep c o).database.rows r

end Thread

variable {dep : Deployment} {env : Surroundings} {d : Database}

theorem handleOn_idle (env : Surroundings) (c : Call) (d : Database) :
    handleOn env c ⟨d, none⟩ = ((handle env c d).1, ⟨(handle env c d).2, none⟩) := by
  cases c with
  | transaction t => exact transact_idle (env.faults t) t d
  | _ => rfl

theorem invoke_idle (dep : Deployment) (d : Database) (o : Operation × Surroundings) :
    invoke dep ⟨d, none⟩ o = ((run (handle o.2) (o.1.code dep) () d).1,
      ⟨(run (handle o.2) (o.1.code dep) () d).2.2, none⟩) := by
  have ran := run_map (handle o.2) (fun d => Connection.mk d none) (handleOn_idle o.2)
    (o.1.code dep) () d
  simp only [invoke, ran]

theorem Agrees.of_success {T : Type} {t : Tx} {rows : List User} {x : T}
    (effect : t.Effect d.rows rows) : Agrees t d rows (.successResult x) :=
  ⟨nofun, fun _ => effect⟩

theorem Agrees.of_failure {T : Type} {t : Tx} {rows : List User} {message : Bytes}
    (same : rows = d.rows) : Agrees t d rows (.failureResult message : OperationResult T) :=
  ⟨fun _ => same, nofun⟩

theorem raised_utf8 (legible : Legible env) {t : Tx} {e : Exception}
    (thrown : (runTx (env.faults t) t d).1 = .error e) : isUtf8 e.what = true := by
  rcases (runTx_error thrown).2 with raised | rfl
  · exact legible t e raised
  · decide

theorem logged_agrees {T : Type} (dep : Deployment) (d : Database) (legible : Legible env) (t : Tx)
    (make : t.Result → OperationResult T) (message : Bytes) (site : Site)
    (quiet : ∀ v, (make v).isSuccess = false →
      (runTx (env.faults t) t d).2.rows = d.rows) :
    ∃ r, logged dep env site (.ok (.failureResult message))
        ((runTx (env.faults t) t d).1.map make) = .ok r ∧
      Agrees t d (runTx (env.faults t) t d).2.rows r := by
  cases ran : (runTx (env.faults t) t d).1 with
  | error e =>
    have readable := raised_utf8 legible ran
    refine ⟨.failureResult message, ?_, .of_failure (runTx_error ran).1⟩
    exact logThen_utf8 dep env .ERROR site readable _
  | ok v => exact ⟨make v, rfl, quiet v, fun _ => runTx_ok ran⟩

theorem lookupOutcome_agrees (dep : Deployment) (d : Database) (legible : Legible env)
    (username : Bytes) :
    ∃ r, lookupOutcome dep env d username = .ok r ∧
      Agrees (.selectByUsername username) d d.rows r := by
  obtain ⟨r, returned, agrees⟩ := logged_agrees dep d legible
    (.selectByUsername username) (report username) tryAgainLater lookupSite
    fun _ _ => by rw [runTx_select_database]
  rw [runTx_select_database] at agrees
  exact ⟨r, returned, agrees⟩

theorem createOutcome_agrees (dep : Deployment) (d : Database) (legible : Legible env)
    (entity : User) :
    ∃ r, createOutcome dep env d entity = .ok r ∧
      Agrees (.persist entity) d
        (runTx (env.faults (.persist entity)) (.persist entity) d).2.rows r :=
  logged_agrees dep d legible (.persist entity) (fun _ => .successResult true) trouble createSite
    nofun

theorem createUserOutcome_agrees (dep : Deployment) (d : Database) (legible : Legible env)
    (user : User) :
    ∃ r, (createUserOutcome dep env d user).1 = .ok r ∧
      Agrees (.persist user) d (createUserOutcome dep env d user).2.rows r := by
  cases stored : stores dep env d user with
  | true =>
    rw [createUserOutcome_stores dep env d stored]
    refine ⟨.successResult user, rfl, .of_success ?_⟩
    exact ⟨d.nextId, fun row mem => Int.ne_of_lt (d.fresh row mem), rfl⟩
  | false =>
    obtain ⟨unchanged, refusal⟩ := createUserOutcome_refused dep env d stored
    have returns : ∃ r, (createUserOutcome dep env d user).1 = .ok r := by
      obtain ⟨found, looked, -⟩ := lookupOutcome_agrees dep d legible user.username
      obtain ⟨made, created, -⟩ := createOutcome_agrees dep d legible user
      simp only [createUserOutcome, createUserTry, looked, created]
      cases found with
      | successResult row => exact ⟨_, rfl⟩
      | failureResult message => exact ⟨_, rfl⟩
    obtain ⟨r, returned⟩ := returns
    rw [returned] at refusal
    cases r with
    | successResult _ => exact refusal.elim
    | failureResult message => exact ⟨.failureResult message, returned, .of_failure unchanged⟩

theorem invoke_atomic (legible : Legible env) (o : Operation) :
    Atomic dep ⟨d, none⟩ (o, env) := by
  suffices agrees : ∃ r, (run (handle env) (o.code dep) () d).1 = .ok r ∧
      Agrees o.transaction d (run (handle env) (o.code dep) () d).2.2.rows r by
    obtain ⟨r, returned, agrees⟩ := agrees
    simp only [Atomic, after, invoke_idle]
    exact ⟨r, returned, trivial, agrees⟩
  cases o with
  | create entity =>
    simp only [Operation.code, run_create]
    exact createOutcome_agrees dep d legible entity
  | read | update | delete | readAll =>
    simp only [Operation.code, Repositories.read, Repositories.update, Repositories.delete,
      Repositories.readAll, run_operation]
    exact logged_agrees dep d legible _ _ _ _ nofun
  | getUserByUsername username =>
    simp only [Operation.code, run_getUserByUsername]
    exact lookupOutcome_agrees dep d legible username
  | createUser user =>
    simp only [Operation.code, run_createUser]
    exact createUserOutcome_agrees dep d legible user

/-- Every call of a sequence leaves no transaction open and reports what it did to the rows. -/
theorem repository_atomic (dep : Deployment) (d : Database)
    (calls : List (Operation × Surroundings)) (legible : ∀ o ∈ calls, Legible o.2) :
    Guarded (after dep) (Atomic dep) ⟨d, none⟩ calls := by
  have clear : Guarded (after dep) (fun _ o => Legible o.2) ⟨d, none⟩ calls :=
    (guarded_iff _ _ _ _).mpr fun before o rest eq =>
      legible o (eq ▸ List.mem_append_right _ (List.mem_cons_self ..))
  have atomic : ∀ (c : Connection) (o : Operation × Surroundings), c.current = none →
      Legible o.2 → Atomic dep c o := by
    rintro ⟨d, current⟩ ⟨o, env⟩ rfl readable
    exact invoke_atomic readable o
  refine guarded_of_invariant _ _ (I := fun c => c.current = none) (fun c o idle readable => ?_)
    atomic rfl clear
  obtain ⟨_, -, idle', -⟩ := atomic c o idle readable
  exact idle'

def commitDown : Surroundings :=
  { Surroundings.calm with
    faults := fun _ =>
      { Faults.none .asStored with atCommit := some ⟨.odb, lit "connection lost"⟩ } }

theorem legible_calm : Legible .calm := fun _ e mem => by cases mem

theorem legible_commitDown : Legible commitDown := fun _ e mem => by
  cases List.mem_singleton.mp mem
  decide

theorem repository_atomic_commit :
    Guarded (after .refusing) (Atomic .refusing) ⟨.empty, none⟩
      [(.createUser ⟨0, lit "ann", [], []⟩, commitDown),
        (.createUser ⟨0, lit "ann", [], []⟩, .calm),
        (.getUserByUsername (lit "ann"), commitDown), (.delete 2, .calm)] :=
  repository_atomic .refusing .empty _ (by
    simp only [List.forall_mem_cons]
    exact ⟨legible_commitDown, legible_calm, legible_commitDown, legible_calm, nofun⟩)

end Ccfolio.Transactions
