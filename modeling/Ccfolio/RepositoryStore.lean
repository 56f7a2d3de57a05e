import Ccfolio.KeyStores
import Ccfolio.PrimaryKeys
import Ccfolio.SequentialAnswers
import Ccfolio.Transactions

/-! The repositories as a store of users under ids that it hands out: what each
call reports is what the store says, and what a call that fails reports is said
without a change. -/

namespace Ccfolio.RepositoryStore

open Utf8 StdText Odb PrimaryKeys KeyStores Programs Calls LogService Repositories Transactions

abbrev Users := Store Int User

/-- Every id below the next one counts as handed out. -/
def storeOf (d : Database) : Users where
  entities := entities d
  used := {id | id < d.nextId}
  known id here := by
    cases found : entities d id with
    | none => exact absurd found here
    | some row =>
      obtain ⟨mem, rfl⟩ := entities_some found
      exact d.fresh row mem

/-- What a call reports, and the event in the store that it reports. -/
inductive Reports (s : Users) :
    (o : Operation) → Except Exception (OperationResult o.Result) → Event Int User → Prop
  | created (entity : User) (id : Int) :
      Reports s (.create entity) (.ok (.successResult true)) (.add id { entity with id := id })
  | registered (user : User) (id : Int) :
      Reports s (.createUser user) (.ok (.successResult user)) (.add id { user with id := id })
  | read (row : User) (here : s.entities row.id = some row) :
      Reports s (.read row.id) (.ok (.successResult row)) .look
  | updated (entity : User) :
      Reports s (.update entity) (.ok (.successResult true)) (.put entity.id entity)
  | deleted (id : Int) : Reports s (.delete id) (.ok (.successResult true)) (.remove id)
  | listed (rows : List User) (each : ∀ row, row ∈ rows ↔ s.entities row.id = some row)
      (once : rows.Nodup) : Reports s .readAll (.ok (.successResult rows)) .look
  | found (username : Bytes) (row : User) (here : s.entities row.id = some row)
      (named : row.username = username) :
      Reports s (.getUserByUsername username) (.ok (.successResult (some row))) .look
  | failed (o : Operation) (x : Except Exception (OperationResult o.Result))
      (bad : ∀ v, x ≠ .ok (.successResult v)) : Reports s o x .look

inductive Explains (dep : Deployment) :
    Connection → Users → List (Operation × Surroundings) → Users → Prop
  | nil (c : Connection) (s : Users) : Explains dep c s [] s
  | cons {c : Connection} {s s' : Users} {o : Operation × Surroundings} {e : Event Int User}
      {rest : List (Operation × Surroundings)} (allowed : s.Allows e)
      (reports : Reports s o.1 (invoke dep c o).1 e)
      (later : Explains dep (Transactions.after dep c o) (s.after e) rest s') :
      Explains dep c s (o :: rest) s'

/-- The table holds what the store says, and no transaction is open. -/
structure Backs (c : Connection) (s : Users) : Prop where
  idle : c.current = none
  keyed : Keyed c.database
  same : s.entities = entities c.database
  used : ∀ id ∈ s.used, id < c.database.nextId

section Effects

variable {d d' : Database} {s : Users}

theorem Backs.same_rows (backs : Backs ⟨d, none⟩ s) (rows : d'.rows = d.rows)
    (ids : d.nextId ≤ d'.nextId) : Backs ⟨d', none⟩ s := by
  refine ⟨rfl, ?_, ?_, fun id used => ?_⟩
  · rw [Keyed, rows]
    exact backs.keyed
  · change s.entities = entities d'
    rw [backs.same]
    unfold entities
    rw [rows]
  · exact Int.lt_of_lt_of_le (backs.used id used) ids

theorem Backs.insert (backs : Backs ⟨d, none⟩ s) (entity : User) :
    s.Allows (.add d.nextId { entity with id := d.nextId }) ∧
      Backs ⟨d.insert entity, none⟩ (s.after (.add d.nextId { entity with id := d.nextId })) := by
  refine ⟨fun used => absurd (backs.used _ used) (Int.lt_irrefl _), rfl, ?_, ?_, ?_⟩
  · exact effect_keyed (t := .persist entity)
      ⟨d.nextId, fun row mem => Int.ne_of_lt (d.fresh row mem), rfl⟩ backs.keyed
  · change Function.update s.entities _ _ = _
    rw [backs.same, entities_insert]
  · intro id used
    change id < d.nextId + 1
    rcases used with rfl | old
    · omega
    · have := backs.used id old
      change id < d.nextId at this
      omega

theorem Backs.here (backs : Backs ⟨d, none⟩ s) {id : Int} (here : ∃ row ∈ d.rows, row.id = id) :
    s.entities id ≠ none := by
  obtain ⟨row, mem, same⟩ := here
  rw [backs.same]
  exact fun none => entities_none.mp none row mem same

theorem Backs.replace (backs : Backs ⟨d, none⟩ s) {entity : User}
    (here : ∃ row ∈ d.rows, row.id = entity.id) :
    s.Allows (.put entity.id entity) ∧
      Backs ⟨d.replace entity, none⟩ (s.after (.put entity.id entity)) := by
  refine ⟨backs.here here, rfl, ?_, ?_, ?_⟩
  · exact effect_keyed (t := .update entity) ⟨here, rfl⟩ backs.keyed
  · change Function.update s.entities _ _ = _
    rw [backs.same, entities_replace here]
  · intro id used
    rcases used with rfl | old
    · obtain ⟨row, mem, same⟩ := here
      exact same ▸ d.fresh row mem
    · exact backs.used id old

theorem Backs.erase (backs : Backs ⟨d, none⟩ s) {id : Int} (here : ∃ row ∈ d.rows, row.id = id) :
    s.Allows (.remove id) ∧ Backs ⟨d.erase id, none⟩ (s.after (.remove id)) := by
  refine ⟨backs.here here, rfl, ?_, ?_, backs.used⟩
  · exact effect_keyed (t := .erase id) ⟨here, rfl⟩ backs.keyed
  · change Function.update s.entities _ _ = _
    rw [backs.same, entities_erase]

end Effects

section Steps

variable {dep : Deployment} {env : Surroundings} {d d' : Database} {s : Users} {o : Operation}
  {x : Except Exception (OperationResult o.Result)}

def Step (s : Users) (o : Operation) (x : Except Exception (OperationResult o.Result))
    (d' : Database) : Prop :=
  ∃ e, s.Allows e ∧ Reports s o x e ∧ Backs ⟨d', none⟩ (s.after e)

theorem step_failed (backs : Backs ⟨d, none⟩ s) (rows : d'.rows = d.rows)
    (ids : d.nextId ≤ d'.nextId) (bad : ∀ v, x ≠ .ok (.successResult v)) : Step s o x d' :=
  ⟨.look, trivial, .failed o x bad, backs.same_rows rows ids⟩

theorem step_look (backs : Backs ⟨d, none⟩ s) (reports : Reports s o x .look) : Step s o x d :=
  ⟨.look, trivial, reports, backs⟩

theorem step_changed {e : Event Int User} (changed : s.Allows e ∧ Backs ⟨d', none⟩ (s.after e))
    (reports : Reports s o x e) : Step s o x d' :=
  ⟨e, changed.1, reports, changed.2⟩

theorem step_thrown (backs : Backs ⟨d, none⟩ s) {t : Tx} {e : Exception}
    (thrown : (runTx (env.faults t) t d).1 = .error e) {message : Bytes} {site : Site}
    (same : x = logged dep env site (.ok (.failureResult message)) (.error e)) :
    Step s o x (runTx (env.faults t) t d).2 := by
  refine step_failed backs (runTx_error thrown).1 ?_ fun v eq => ?_
  · exact SequentialAnswers.nextId_le env (.transaction t) d
  · rcases logged_ok dep env site (same.symm.trans eq) with replied | fallback
    · cases replied
    · cases fallback

theorem runTx_load_ok {f : Faults} {id : Int} {row : User}
    (h : (runTx f (.load id) d).1 = .ok row) : entities d id = some row := by
  rw [runTx_load] at h
  unfold entities
  generalize List.find? _ d.rows = found at h ⊢
  rcases f with ⟨_ | b, _ | e, i, _ | c, k⟩ <;> cases found <;> cases h
  rfl

theorem reports_read (backs : Backs ⟨d, none⟩ s) {id : Int} {row : User}
    (here : entities d id = some row) : Reports s (.read id) (.ok (.successResult row)) .look := by
  obtain ⟨-, rfl⟩ := entities_some here
  exact .read row (backs.same ▸ here)

theorem runTx_selectAll_ok {f : Faults} {rows : List User}
    (h : (runTx f .selectAll d).1 = .ok rows) : rows = f.order.arrange d.rows := by
  rw [runTx_selectAll] at h
  rcases f with ⟨_ | b, _ | e, _ | i, _ | c, k⟩ <;> cases h
  rfl

theorem reports_selectAll (backs : Backs ⟨d, none⟩ s) (order : RowOrder) :
    Reports s .readAll (.ok (.successResult (order.arrange d.rows))) .look := by
  refine .listed _ (fun row => ?_) (order.nodup_arrange.mpr (List.Nodup.of_map _ backs.keyed))
  rw [order.mem_arrange, backs.same]
  exact backs.keyed.entities_iff.symm

theorem not_success {T : Type} {username : Bytes} {x : Except Exception (OperationResult T)}
    (refusal : refused username x) : ∀ v, x ≠ .ok (.successResult v) := by
  rintro v rfl
  exact refusal

theorem createUser_nextId (user : User) :
    d.nextId ≤ (createUserOutcome dep env d user).2.nextId := by
  simp only [createUserOutcome, createUserTry]
  split
  · exact Int.le_refl _
  · exact Int.le_refl _
  · exact SequentialAnswers.nextId_le env (.transaction (.persist user)) d

theorem step_code (backs : Backs ⟨d, none⟩ s) (o : Operation) :
    Step s o (run (handle env) (o.code dep) () d).1 (run (handle env) (o.code dep) () d).2.2 := by
  cases o with
  | create entity =>
    simp only [Operation.code, create, run_operation]
    cases ran : (runTx (env.faults (.persist entity)) (.persist entity) d).1 with
    | error e => exact step_thrown backs ran rfl
    | ok stored =>
      rw [runTx_persist_ok ran]
      exact step_changed (backs.insert entity) (.created entity d.nextId)
  | read id =>
    simp only [Operation.code, Repositories.read, run_operation]
    cases ran : (runTx (env.faults (.load id)) (.load id) d).1 with
    | error e => exact step_thrown backs ran rfl
    | ok row =>
      have same : (runTx (env.faults (.load id)) (.load id) d).2 = d := by rw [runTx_load]
      rw [same]
      exact step_look backs (reports_read backs (runTx_load_ok ran))
  | update entity =>
    simp only [Operation.code, Repositories.update, run_operation]
    cases ran : (runTx (env.faults (.update entity)) (.update entity) d).1 with
    | error e => exact step_thrown backs ran rfl
    | ok u =>
      rw [runTx_update] at ran ⊢
      obtain ⟨known, whole⟩ := altered_ok ran
      rw [whole]
      exact step_changed (backs.replace (by simpa using known)) (.updated entity)
  | delete id =>
    simp only [Operation.code, Repositories.delete, run_operation]
    cases ran : (runTx (env.faults (.erase id)) (.erase id) d).1 with
    | error e => exact step_thrown backs ran rfl
    | ok u =>
      rw [runTx_erase] at ran ⊢
      obtain ⟨known, whole⟩ := altered_ok ran
      rw [whole]
      exact step_changed (backs.erase (by simpa using known)) (.deleted id)
  | readAll =>
    simp only [Operation.code, Repositories.readAll, run_operation]
    cases ran : (runTx (env.faults .selectAll) .selectAll d).1 with
    | error e => exact step_thrown backs ran rfl
    | ok rows =>
      have same : (runTx (env.faults .selectAll) .selectAll d).2 = d := by rw [runTx_selectAll]
      rw [same, runTx_selectAll_ok ran]
      exact step_look backs (reports_selectAll backs _)
  | getUserByUsername username =>
    simp only [Operation.code, run_getUserByUsername]
    rcases lookupOutcome_cases dep env d username with ⟨row, mem, named, -, found⟩ | missing
    · rw [found]
      refine step_look backs (.found username row ?_ named)
      rw [backs.same]
      exact backs.keyed.entities_iff.mpr mem
    · exact step_failed backs rfl (Int.le_refl _) (not_success missing)
  | createUser user =>
    simp only [Operation.code, run_createUser]
    cases stored : stores dep env d user with
    | true =>
      rw [createUserOutcome_stores dep env d stored]
      exact step_changed (backs.insert user) (.registered user d.nextId)
    | false =>
      obtain ⟨unchanged, refusal⟩ := createUserOutcome_refused dep env d stored
      exact step_failed backs unchanged (createUser_nextId user) (not_success refusal)

end Steps

section Runs

variable {dep : Deployment} {c : Connection} {s : Users}

theorem Backs.invoke (backs : Backs c s) (o : Operation × Surroundings) :
    ∃ e, s.Allows e ∧ Reports s o.1 (invoke dep c o).1 e ∧
      Backs (Transactions.after dep c o) (s.after e) := by
  obtain ⟨d, current⟩ := c
  obtain rfl : current = none := backs.idle
  obtain ⟨e, allowed, reports, backs'⟩ := step_code backs o.1
  simp only [Transactions.after, invoke_idle]
  exact ⟨e, allowed, reports, backs'⟩

theorem Backs.explains (backs : Backs c s) (calls : List (Operation × Surroundings)) :
    ∃ s', Explains dep c s calls s' ∧ Backs (calls.foldl (Transactions.after dep) c) s' := by
  induction calls generalizing c s with
  | nil => exact ⟨s, .nil c s, backs⟩
  | cons o rest ih =>
    obtain ⟨e, allowed, reports, next⟩ := backs.invoke o
    obtain ⟨s', later, last⟩ := ih next
    exact ⟨s', .cons allowed reports later, last⟩

theorem backs_start {d : Database} (keyed : Keyed d) : Backs ⟨d, none⟩ (storeOf d) :=
  ⟨rfl, keyed, rfl, fun _ used => used⟩

def shown : (o : Operation) → o.Result → List User
  | .read _, row => [row]
  | .readAll, rows => rows
  | .getUserByUsername _, row => row.toList
  | .create _, _ | .update _, _ | .delete _, _ | .createUser _, _ => []

def target : Operation → Option Int
  | .read id | .delete id => some id
  | .update entity => some entity.id
  | .create _ | .readAll | .getUserByUsername _ | .createUser _ => none

section Reported

variable {o : Operation} {v : o.Result} {e : Event Int User} {id : Int}

theorem shown_here (reports : Reports s o (.ok (.successResult v)) e) :
    ∀ row ∈ shown o v, s.entities row.id = some row := by
  intro row mem
  cases o with
  | read id =>
    cases reports with
    | read _ here =>
      obtain rfl := List.mem_singleton.mp mem
      exact here
    | failed _ _ bad => exact absurd rfl (bad v)
  | readAll =>
    cases reports with
    | listed _ each once => exact (each row).mp mem
    | failed _ _ bad => exact absurd rfl (bad v)
  | getUserByUsername username =>
    cases reports with
    | found _ _ here named =>
      obtain rfl := List.mem_singleton.mp mem
      exact here
    | failed _ _ bad => exact absurd rfl (bad v)
  | create | update | delete | createUser => cases mem

theorem here_shown (reports : Reports s o (.ok (.successResult v)) e) {row : User}
    (named : row.id = id) (here : s.entities id = some row) (asked : o = .read id ∨ o = .readAll) :
    row ∈ shown o v := by
  rcases asked with rfl | rfl
  · cases reports with
    | read _ here' =>
      rw [here] at here'
      exact List.mem_singleton.mpr (Option.some.inj here')
    | failed _ _ bad => exact absurd rfl (bad v)
  · cases reports with
    | listed _ each once => exact (each row).mpr (named ▸ here)
    | failed _ _ bad => exact absurd rfl (bad v)

theorem target_here (reports : Reports s o (.ok (.successResult v)) e) (allowed : s.Allows e)
    (named : target o = some id) : s.entities id ≠ none := by
  cases o with
  | read i =>
    obtain rfl := Option.some.inj named
    cases reports with
    | read row here => exact here ▸ Option.some_ne_none row
    | failed _ _ bad => exact absurd rfl (bad v)
  | update entity =>
    obtain rfl := Option.some.inj named
    cases reports with
    | updated => exact allowed
    | failed _ _ bad => exact absurd rfl (bad v)
  | delete i =>
    obtain rfl := Option.some.inj named
    cases reports with
    | deleted => exact allowed
    | failed _ _ bad => exact absurd rfl (bad v)
  | create | readAll | getUserByUsername | createUser => cases named

theorem reports_delete {v : Bool}
    (reports : Reports s (.delete id) (.ok (.successResult v)) e) : e = .remove id := by
  cases reports with
  | deleted => rfl
  | failed _ _ bad => exact absurd rfl (bad v)

theorem reports_update {entity : User} {v : Bool}
    (reports : Reports s (.update entity) (.ok (.successResult v)) e) :
    e = .put entity.id entity := by
  cases reports with
  | updated => rfl
  | failed _ _ bad => exact absurd rfl (bad v)

theorem reports_apart {x : Except Exception (OperationResult o.Result)} (reports : Reports s o x e)
    (quiet : target o = some id → o = .read id ∨ ∀ v, x ≠ .ok (.successResult v)) (v' : User) :
    e ≠ .put id v' ∧ e ≠ .remove id := by
  cases reports with
  | updated entity =>
    refine ⟨fun same => ?_, nofun⟩
    cases same
    rcases quiet rfl with read | fails
    · cases read
    · exact fails true rfl
  | deleted i =>
    refine ⟨nofun, fun same => ?_⟩
    cases same
    rcases quiet rfl with read | fails
    · cases read
    · exact fails true rfl
  | created | registered | read | listed | found | failed => exact ⟨nofun, nofun⟩

end Reported

theorem gone_invoke {id : Int} (o : Operation × Surroundings)
    (gone : ∃ s, Backs c s ∧ s.Gone id) :
    ∃ s, Backs (Transactions.after dep c o) s ∧ s.Gone id := by
  obtain ⟨s, backs, gone⟩ := gone
  obtain ⟨e, allowed, -, next⟩ := backs.invoke o
  exact ⟨s.after e, next, gone.after allowed⟩

theorem gone_run {id : Int} (calls : List (Operation × Surroundings))
    (gone : ∃ s, Backs c s ∧ s.Gone id) :
    ∃ s, Backs (calls.foldl (Transactions.after dep) c) s ∧ s.Gone id :=
  Transitions.foldl_invariant (Transactions.after dep) (I := fun c => ∃ s, Backs c s ∧ s.Gone id)
    (fun _ => gone_invoke) c calls gone

def Quiet (dep : Deployment) (id : Int) (c : Connection) (o : Operation × Surroundings) : Prop :=
  target o.1 = some id → o.1 = .read id ∨ ∀ v, (invoke dep c o).1 ≠ .ok (.successResult v)

theorem kept_invoke {id : Int} {row : User} (o : Operation × Surroundings)
    (kept : ∃ s, Backs c s ∧ s.entities id = some row) (quiet : Quiet dep id c o) :
    ∃ s, Backs (Transactions.after dep c o) s ∧ s.entities id = some row := by
  obtain ⟨s, backs, here⟩ := kept
  obtain ⟨e, allowed, reports, next⟩ := backs.invoke o
  exact ⟨s.after e, next, Store.entities_after here allowed (reports_apart reports quiet)⟩

theorem kept_run {id : Int} {row : User} (calls : List (Operation × Surroundings))
    (kept : ∃ s, Backs c s ∧ s.entities id = some row)
    (quiet : Transitions.Guarded (Transactions.after dep) (Quiet dep id) c calls) :
    ∃ s, Backs (calls.foldl (Transactions.after dep) c) s ∧ s.entities id = some row :=
  Transitions.guarded_invariant (Transactions.after dep) (Quiet dep id)
    (I := fun c => ∃ s, Backs c s ∧ s.entities id = some row) (fun _ => kept_invoke) c calls
    kept quiet

def thread (dep : Deployment) (d : Database) (calls : List (Operation × Surroundings)) :
    Connection :=
  calls.foldl (Transactions.after dep) ⟨d, none⟩

variable {d : Database} {before mid : List (Operation × Surroundings)}

theorem thread_append :
    thread dep d (before ++ mid) = mid.foldl (Transactions.after dep) (thread dep d before) :=
  List.foldl_append ..

theorem backs_thread (dep : Deployment) (keyed : Keyed d)
    (calls : List (Operation × Surroundings)) : ∃ s, Backs (thread dep d calls) s := by
  obtain ⟨s, -, backs⟩ := (backs_start keyed).explains calls
  exact ⟨s, backs⟩

/-- The calls one after another report the events of one store, whose entities
are the table's in the end. -/
theorem repository_store (dep : Deployment) (keyed : Keyed d)
    (calls : List (Operation × Surroundings)) :
    ∃ s, Explains dep ⟨d, none⟩ (storeOf d) calls s ∧
      s.entities = entities (thread dep d calls).database := by
  obtain ⟨s, explains, backs⟩ := (backs_start keyed).explains calls
  exact ⟨s, explains, backs.same⟩

def ann (id : Int) : User := ⟨id, lit "ann", [], []⟩

def bea : User := ⟨1, lit "bea", [], []⟩

theorem keyed_empty : Keyed .empty := List.nodup_nil

theorem repository_store_ann :
    ∃ s, Explains .refusing ⟨.empty, none⟩ (storeOf .empty)
        [(.createUser (ann 0), .calm), (.update bea, .calm), (.delete 1, commitDown),
          (.readAll, .calm)] s ∧
      s.entities = entities (thread .refusing .empty [(.createUser (ann 0), .calm),
        (.update bea, .calm), (.delete 1, commitDown), (.readAll, .calm)]).database :=
  repository_store .refusing keyed_empty _

/-- An id that a call reported to be deleted is not found, changed, deleted or
listed again. -/
theorem deleted_stays (dep : Deployment) (keyed : Keyed d) {id : Int} {env : Surroundings}
    {done : Bool} (before mid : List (Operation × Surroundings))
    (deleted : (invoke dep (thread dep d before) (.delete id, env)).1 = .ok (.successResult done))
    (o : Operation × Surroundings) (v : o.1.Result)
    (reported : (invoke dep (thread dep d (before ++ (.delete id, env) :: mid)) o).1 =
      .ok (.successResult v)) :
    target o.1 ≠ some id ∧ ∀ row ∈ shown o.1 v, row.id ≠ id := by
  obtain ⟨s₀, backs₀⟩ := backs_thread dep keyed before
  obtain ⟨e₀, allowed₀, reports₀, next⟩ := backs₀.invoke (.delete id, env)
  rw [deleted] at reports₀
  obtain rfl := reports_delete reports₀
  obtain ⟨s, backs, gone⟩ := gone_run mid ⟨_, next, Store.gone_remove allowed₀⟩
  rw [thread_append, List.foldl_cons] at reported
  obtain ⟨e, allowed, reports, -⟩ := backs.invoke o
  rw [reported] at reports
  refine ⟨fun named => target_here reports allowed named gone.2, fun row mem same => ?_⟩
  have here := shown_here reports row mem
  rw [same, gone.2] at here
  cases here

theorem deleted_stays_ann :
    target .readAll ≠ some 1 ∧ ∀ row ∈ shown .readAll [ann 2], row.id ≠ 1 :=
  have deleted : (invoke .refusing (thread .refusing .empty [(.createUser (ann 0), .calm)])
      (.delete 1, .calm)).1 = (.ok (.successResult true) :
        Except Exception (OperationResult Bool)) := by
    decide +kernel
  have reported : (invoke .refusing (thread .refusing .empty [(.createUser (ann 0), .calm),
      (.delete 1, .calm), (.update bea, .calm), (.createUser (ann 0), .calm)])
      (.readAll, .calm)).1 = (.ok (.successResult [ann 2]) :
        Except Exception (OperationResult (List User))) := by
    decide +kernel
  deleted_stays .refusing keyed_empty [(.createUser (ann 0), .calm)]
    [(.update bea, .calm), (.createUser (ann 0), .calm)] deleted (.readAll, .calm) [ann 2] reported

/-- Until a call changes or deletes its id again, an entity that a call reported
to be updated is what the id is shown with. -/
theorem update_shown (dep : Deployment) (keyed : Keyed d) {entity : User} {env : Surroundings}
    {done : Bool} (before mid : List (Operation × Surroundings))
    (updated : (invoke dep (thread dep d before) (.update entity, env)).1 =
      .ok (.successResult done))
    (quiet : Transitions.Guarded (Transactions.after dep) (Quiet dep entity.id)
      (thread dep d (before ++ [(.update entity, env)])) mid)
    (o : Operation × Surroundings) (v : o.1.Result)
    (reported : (invoke dep (thread dep d (before ++ (.update entity, env) :: mid)) o).1 =
      .ok (.successResult v)) :
    (∀ row ∈ shown o.1 v, row.id = entity.id → row = entity) ∧
      (o.1 = .read entity.id ∨ o.1 = .readAll → entity ∈ shown o.1 v) := by
  obtain ⟨s₀, backs₀⟩ := backs_thread dep keyed before
  obtain ⟨e₀, -, reports₀, next⟩ := backs₀.invoke (.update entity, env)
  rw [updated] at reports₀
  obtain rfl := reports_update reports₀
  have written : (s₀.after (.put entity.id entity)).entities entity.id = some entity :=
    Function.update_self ..
  obtain ⟨s, backs, here⟩ := kept_run mid ⟨_, next, written⟩ (thread_append ▸ quiet)
  rw [thread_append, List.foldl_cons] at reported
  obtain ⟨e, -, reports, -⟩ := backs.invoke o
  rw [reported] at reports
  constructor
  · intro row mem same
    have shown := shown_here reports row mem
    rw [same, here] at shown
    exact (Option.some.inj shown).symm
  · exact here_shown reports rfl here

theorem update_shown_bea :
    (∀ row ∈ shown .readAll [bea, ann 2], row.id = 1 → row = bea) ∧
      (.readAll = Operation.read 1 ∨ Operation.readAll = .readAll →
        bea ∈ shown .readAll [bea, ann 2]) :=
  have updated : (invoke .refusing (thread .refusing .empty [(.createUser (ann 0), .calm)])
      (.update bea, .calm)).1 = (.ok (.successResult true) :
        Except Exception (OperationResult Bool)) := by
    decide +kernel
  have reported : (invoke .refusing (thread .refusing .empty [(.createUser (ann 0), .calm),
      (.update bea, .calm), (.createUser (ann 0), .calm), (.delete 1, commitDown)])
      (.readAll, .calm)).1 = (.ok (.successResult [bea, ann 2]) :
        Except Exception (OperationResult (List User))) := by
    decide +kernel
  have failed : ∀ v, (invoke .refusing (thread .refusing .empty [(.createUser (ann 0), .calm),
      (.update bea, .calm), (.createUser (ann 0), .calm)]) (.delete 1, commitDown)).1 ≠
        (.ok (.successResult v) : Except Exception (OperationResult Bool)) := by
    decide +kernel
  update_shown .refusing keyed_empty [(.createUser (ann 0), .calm)]
    [(.createUser (ann 0), .calm), (.delete 1, commitDown)] updated
    ⟨nofun, fun _ => .inr failed, trivial⟩ (.readAll, .calm) [bea, ann 2] reported

end Runs

end Ccfolio.RepositoryStore
