import Ccfolio.CheckThenAct
import Ccfolio.Repositories

/-! Any number of `createUser` calls at once, each a lookup transaction and,
when that found no row, an insert transaction of its own. The pool of them
refines the check-then-act system on the usernames of the table. -/

namespace Ccfolio.UsernameRace

open Utf8 StdText Odb Programs Pools Transitions Calls LogService Repositories CheckThenAct

abbrev Thread := Program Reply (Except Exception (OperationResult User) × Unit)

section Thread

variable (dep : Deployment) (user : User)

def registration : Thread := (createUser dep user).run.run ()

def insertion : Thread :=
  (tryCatch (do
    let userCreated ← create dep user
    if !userCreated.isSuccess then
      pure (.failureResult (creationFailed user.username))
    else
      pure (.successResult user)) fun e =>
    match e.kind with
    | .odb => do
      log dep .ERROR e.what createUserSite
      pure (.failureResult tryAgainLater)
    | _ => throw e : App Unit (OperationResult User)).run.run ()

def reported (result : OperationResult User) : Thread := .ret (.ok result, ())

def thread : Phase → Thread
  | .idle => registration dep user
  | .checked => insertion dep user
  | .refused => reported (.failureResult (userExists user.username))
  | .done => reported (.successResult user)

theorem registration_eq :
    ∃ next, registration dep user = .call (.transaction (.selectByUsername user.username)) next ∧
      next (.ok none) = insertion dep user ∧
      ∀ row, next (.ok (some row)) = reported (.failureResult (userExists user.username)) :=
  ⟨_, rfl, rfl, fun _ => rfl⟩

theorem insertion_eq :
    ∃ next, insertion dep user = .call (.transaction (.persist user)) next ∧
      ∀ stored, next (.ok stored) = reported (.successResult user) :=
  ⟨_, rfl, fun _ => rfl⟩

theorem thread_injective {p q : Phase} (h : thread dep user p = thread dep user q) : p = q := by
  obtain ⟨next, first, -, -⟩ := registration_eq dep user
  obtain ⟨next', second, -⟩ := insertion_eq dep user
  cases p <;> cases q <;> simp_all [thread, reported]

end Thread

section Pool

variable {ι : Type} [DecidableEq ι] (dep : Deployment) (users : ι → User)

abbrev Calls (ι : Type) := Pool ι Reply (Except Exception (OperationResult User) × Unit) Database

def begun (d : Database) : Calls ι := ⟨d, fun i => registration dep (users i)⟩

/-- One transaction of one call, without a fault. -/
def transactionStep (p : Calls ι) (who : ι × Surroundings) : Calls ι :=
  turn silent (fun _ env => handle env.faultless) p who

/-- A lookup is not made while another call for the same username stands
between its lookup and its insert. -/
def LooksApart (p : Calls ι) (who : ι × Surroundings) : Prop :=
  p.threads who.1 = registration dep (users who.1) →
    ∀ j, p.threads j = insertion dep (users j) → (users j).username ≠ (users who.1).username

/-- Usernames are distinct, and of the calls for one username at most one has
returned success. -/
def Unique (p : Calls ι) : Prop :=
  p.world.usernames.Nodup ∧
    ∀ i j, p.threads i = reported (.successResult (users i)) →
      p.threads j = reported (.successResult (users j)) →
      (users i).username = (users j).username → i = j

def Refines (p : Calls ι) (s : State ι Bytes) : Prop :=
  s.keys = p.world.usernames ∧ ∀ i, p.threads i = thread dep (users i) (s.phase i)

variable {dep users}

theorem advance_registration (dep : Deployment) (env : Surroundings) (user : User) (d : Database) :
    advance silent (handle env.faultless) (registration dep user) d =
      (thread dep user (if user.username ∈ d.usernames then .refused else .checked), d) := by
  obtain ⟨next, looks, missing, present⟩ := registration_eq dep user
  have reply := runTx_select_clean (env.faults (.selectByUsername user.username)).order
    user.username d
  rw [looks]
  change settle silent _ (next (runTx _ _ d).1) (runTx _ _ d).2 = _
  rw [runTx_select_database]
  change settle silent _ (next (runTx (.none _) _ d).1) d = _
  rw [reply]
  by_cases known : user.username ∈ d.usernames
  · have some : (env.faults (.selectByUsername user.username)).order.arrange
        (d.withUsername user.username) ≠ [] := by
      rw [Ne, RowOrder.arrange_eq_nil, Database.withUsername_eq_nil]
      exact not_not_intro known
    obtain ⟨row, rows, found⟩ := List.exists_cons_of_ne_nil some
    rw [found, List.head?_cons, present, if_pos known]
    rfl
  · have none : d.withUsername user.username = [] := Database.withUsername_eq_nil.mpr known
    obtain ⟨next', inserts, -⟩ := insertion_eq dep user
    rw [none, RowOrder.arrange_nil, List.head?_nil, missing, if_neg known, thread, inserts]
    rfl

theorem advance_insertion (dep : Deployment) (env : Surroundings) (user : User) (d : Database) :
    advance silent (handle env.faultless) (insertion dep user) d =
      (thread dep user .done, d.insert user) := by
  obtain ⟨next, inserts, stored⟩ := insertion_eq dep user
  rw [inserts]
  change settle silent _ (next (runTx (.none _) _ d).1) (runTx (.none _) _ d).2 = _
  rw [runTx_persist_clean, stored]
  rfl

theorem refines_step {p : Calls ι} {s : State ι Bytes} (refines : Refines dep users p s)
    (who : ι × Surroundings) :
    Refines dep users (transactionStep p who) (step (fun i => (users i).username) s who.1) := by
  obtain ⟨keys, threads⟩ := refines
  have at_i := threads who.1
  have others : ∀ (phase : Phase) (t : Thread), t = thread dep (users who.1) phase → ∀ j,
      Function.update p.threads who.1 t j =
        thread dep (users j) (Function.update s.phase who.1 phase j) := by
    rintro phase _ rfl j
    by_cases self : j = who.1
    · rw [self, Function.update_self, Function.update_self]
    · rw [Function.update_of_ne self, Function.update_of_ne self, threads j]
  unfold step
  cases phase : s.phase who.1 with
  | idle =>
    have moved := advance_registration dep who.2 (users who.1) p.world
    rw [phase, thread] at at_i
    rw [← at_i, ← keys] at moved
    simp only [transactionStep, turn, moved]
    split_ifs with known
    · exact ⟨keys, others .refused _ rfl⟩
    · exact ⟨keys, others .checked _ rfl⟩
  | checked =>
    have moved := advance_insertion dep who.2 (users who.1) p.world
    rw [phase, thread] at at_i
    rw [← at_i] at moved
    simp only [transactionStep, turn, moved]
    exact ⟨by simp [keys], others .done _ rfl⟩
  | refused =>
    rw [phase, thread] at at_i
    have same : transactionStep p who = p := by
      simp only [transactionStep, turn, at_i, reported, advance]
      rw [← reported, ← at_i, Function.update_eq_self]
    rw [same]
    exact ⟨keys, threads⟩
  | done =>
    rw [phase, thread] at at_i
    have same : transactionStep p who = p := by
      simp only [transactionStep, turn, at_i, reported, advance]
      rw [← reported, ← at_i, Function.update_eq_self]
    rw [same]
    exact ⟨keys, threads⟩

omit [DecidableEq ι] in
theorem refines_begun (d : Database) :
    Refines dep users (begun dep users d) (start d.usernames) := ⟨rfl, fun _ => rfl⟩

theorem refines_run (dep : Deployment) (users : ι → User) (d : Database)
    (schedule : List (ι × Surroundings)) :
    Refines dep users (schedule.foldl transactionStep (begun dep users d))
      ((schedule.map Prod.fst).foldl (step fun i => (users i).username) (start d.usernames)) :=
  foldl_refines (R := Refines dep users) (f := Prod.fst)
    (fun _ _ who refines => refines_step refines who) (refines_begun d) schedule

omit [DecidableEq ι] in
theorem looksApart_iff {p : Calls ι} {s : State ι Bytes} (refines : Refines dep users p s)
    (who : ι × Surroundings) :
    LooksApart dep users p who ↔ Apart (fun i => (users i).username) s who.1 := by
  have at_phase : ∀ {i phase}, p.threads i = thread dep (users i) phase ↔ s.phase i = phase := by
    intro i phase
    rw [refines.2 i]
    exact ⟨thread_injective dep (users i), congrArg _⟩
  unfold LooksApart Apart
  rw [← at_phase]
  refine imp_congr_right fun _ => forall_congr' fun j => ?_
  rw [← at_phase]
  rfl

theorem guarded_looksApart_iff (d : Database) (schedule : List (ι × Surroundings)) :
    Guarded transactionStep (LooksApart dep users) (begun dep users d) schedule ↔
      Guarded (step fun i => (users i).username) (Apart fun i => (users i).username)
        (start d.usernames) (schedule.map Prod.fst) :=
  guarded_refines (R := Refines dep users) (f := Prod.fst)
    (fun _ _ who refines => refines_step refines who)
    (fun _ _ who refines => looksApart_iff refines who) (refines_begun d) schedule

omit [DecidableEq ι] in
theorem unique_of_inv {p : Calls ι} {s : State ι Bytes} (refines : Refines dep users p s)
    (inv : Inv (fun i => (users i).username) s) : Unique users p := by
  have done : ∀ i, p.threads i = reported (.successResult (users i)) → s.phase i = .done :=
    fun i h => thread_injective dep (users i) ((refines.2 i).symm.trans h)
  exact ⟨refines.1 ▸ inv.distinct, fun i j h h' => inv.once i j (done i h) (done j h')⟩

end Pool

/-- Usernames stay unique as long as no lookup falls between the lookup and the insert of another
call, and only then. -/
theorem createUser_unique_iff_apart {ι : Type} [DecidableEq ι] (dep : Deployment)
    (users : ι → User) (d : Database) (distinct : d.usernames.Nodup)
    (schedule : List (ι × Surroundings)) :
    (Guarded transactionStep (LooksApart dep users) (begun dep users d) schedule →
      ∀ before, before <+: schedule →
        Unique users (before.foldl transactionStep (begun dep users d))) ∧
    ((∀ i, (schedule.foldl transactionStep (begun dep users d)).threads i ≠
        insertion dep (users i)) →
      Unique users (schedule.foldl transactionStep (begun dep users d)) →
      Guarded transactionStep (LooksApart dep users) (begun dep users d) schedule) := by
  constructor
  · rintro apart before ⟨after, rfl⟩
    have first := ((guarded_append ..).mp apart).1
    rw [guarded_looksApart_iff] at first
    exact unique_of_inv (refines_run dep users d before) (guarded_inv distinct _ first)
  · intro settled unique
    have refines := refines_run dep users d schedule
    rw [guarded_looksApart_iff]
    refine guarded_of_distinct (fun i checked => settled i ?_) (refines.1 ▸ unique.1)
    rw [refines.2 i, checked]
    rfl

def twins (_ : Bool) : User := ⟨0, lit "ann", lit "00", lit "00"⟩

def turns (calls : List Bool) : List (Bool × Surroundings) := calls.map fun i => (i, .calm)

theorem createUser_unique_in_turn :
    Unique twins ((turns [false, false, true, true]).foldl transactionStep
      (begun .refusing twins .empty)) := by
  refine (createUser_unique_iff_apart .refusing twins .empty List.nodup_nil
    (turns [false, false, true, true])).1 ?_ _ List.prefix_rfl
  rw [guarded_looksApart_iff]
  refine ⟨?_, ?_, ?_, ?_, trivial⟩ <;> (unfold Apart; decide)

theorem createUser_races :
    ¬ Unique twins ((turns [false, true, false, true]).foldl transactionStep
      (begun .refusing twins .empty)) := by
  intro unique
  have keys := (refines_run .refusing twins .empty
    (turns [false, true, false, true])).1
  have same : Database.usernames ((turns [false, true, false, true]).foldl transactionStep
      (begun .refusing twins .empty)).world = [lit "ann", lit "ann"] := keys.symm.trans (by rfl)
  have distinct := same ▸ unique.1
  simp at distinct

end Ccfolio.UsernameRace
