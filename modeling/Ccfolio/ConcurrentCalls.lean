import Ccfolio.RepositoryStore

/-! Calls of the repositories in any interleaving: each takes effect at one turn
of its own, once, and reports what the store says there. -/

namespace Ccfolio.ConcurrentCalls

open Utf8 StdText Odb PrimaryKeys KeyStores Programs Traces Pools Histories Transitions Calls
  LogService Repositories Transactions RepositoryStore Minting TokenProvenance

abbrev Change := KeyStores.Event Int User

/-- What a reply of the database did to the table that it came from. -/
def change (d : Database) : Traces.Event Reply → Change
  | ⟨.transaction (.persist entity), .ok _⟩ => .add d.nextId { entity with id := d.nextId }
  | ⟨.transaction (.update entity), .ok _⟩ => .put entity.id entity
  | ⟨.transaction (.erase id), .ok _⟩ => .remove id
  | _ => .look

def Idle (e : Traces.Event Reply) : Prop := ∀ d, change d e = .look

inductive From : (o : Operation) → o.Result → Traces.Event Reply → Prop
  | created (entity stored : User) :
      From (.create entity) true ⟨.transaction (.persist entity), .ok stored⟩
  | registered (user stored : User) :
      From (.createUser user) user ⟨.transaction (.persist user), .ok stored⟩
  | read (id : Int) (row : User) : From (.read id) row ⟨.transaction (.load id), .ok row⟩
  | updated (entity : User) : From (.update entity) true ⟨.transaction (.update entity), .ok ()⟩
  | deleted (id : Int) : From (.delete id) true ⟨.transaction (.erase id), .ok ()⟩
  | listed (rows : List User) : From .readAll rows ⟨.transaction .selectAll, .ok rows⟩
  | found (username : Bytes) (row : User) :
      From (.getUserByUsername username) (some row)
        ⟨.transaction (.selectByUsername username), .ok (some row)⟩

/-- A call that succeeds does so with its last reply, and did nothing before
that; one that fails did nothing at all. -/
inductive Tells (o : Operation) : Except Exception (OperationResult o.Result) → Trace → Prop
  | success (v : o.Result) (tr : Trace) (e : Traces.Event Reply) (source : From o v e)
      (idle : ∀ e' ∈ tr, Idle e') : Tells o (.ok (.successResult v)) (tr ++ [e])
  | failure (x : Except Exception (OperationResult o.Result)) (tr : Trace)
      (bad : ∀ v, x ≠ .ok (.successResult v)) (idle : ∀ e ∈ tr, Idle e) : Tells o x tr

/-- What changes the table is the transaction of the call, with nothing changed
before. -/
def Once (o : Operation) (tr : Trace) (e : Traces.Event Reply) : Prop :=
  Idle e ∨ e.1 = .transaction o.transaction ∧ ∀ e' ∈ tr, Idle e'

theorem idle_error (t : Tx) (e : Exception) : Idle ⟨.transaction t, .error e⟩ := fun _ => by
  cases t <;> rfl

theorem idle_select (username : Bytes) (r : Reply (.transaction (.selectByUsername username))) :
    Idle ⟨.transaction (.selectByUsername username), r⟩ := fun _ => rfl

theorem idle_snoc {tr : Trace} {e : Traces.Event Reply} (idle : ∀ e ∈ tr, Idle e) (now : Idle e) :
    ∀ e' ∈ tr ++ [e], Idle e' := by
  intro e' mem
  rcases List.mem_append.mp mem with old | new
  · exact idle e' old
  · rw [List.mem_singleton.mp new]
    exact now

section Functions

variable {τ T : Type} (dep : Deployment) {o : Operation} {t : τ} {tr : Trace}

abbrev does (o : Operation) (x : App τ T) (t : τ) (tr : Trace)
    (Q : Except Exception T → τ → Trace → Prop) : Prop :=
  meets (fun _ => True) (Once o) x t tr Q

theorem does_log (level : LogLevel) (message : Bytes) (site : Site)
    (idle : ∀ e ∈ tr, Idle e) :
    does o (log dep level message site : App τ Unit) t tr fun _ _ tr' => ∀ e ∈ tr', Idle e := by
  have enabled : ¬ level.rank < currentLevel.rank := Nat.not_lt_zero _
  simp only [log, if_neg enabled]
  refine meets_bind.mpr (meets_perform.mpr fun time _ => ⟨.inl fun _ => rfl, ?_⟩)
  have timed := idle_snoc idle (e := ⟨.localTime, time⟩) fun _ => rfl
  refine meets_bind.mpr (meets_ofExcept.mpr ?_)
  cases dep.json.dump 4 (logJson time message level site) with
  | ok entry =>
    exact meets_perform.mpr fun _ _ => ⟨.inl fun _ => rfl, idle_snoc timed fun _ => rfl⟩
  | error e => exact timed

theorem does_failure (message text : Bytes) (site : Site) (idle : ∀ e ∈ tr, Idle e) :
    does o (do
      log dep .ERROR text site
      pure (.failureResult message) : App τ (OperationResult T)) t tr
      fun out _ tr' => (∀ v, out ≠ .ok (.successResult v)) ∧ ∀ e ∈ tr', Idle e := by
  refine meets_bind.mpr (meets_mono (fun out t' tr' still => ?_)
    (does_log dep .ERROR text site idle))
  cases out with
  | ok => exact ⟨nofun, still⟩
  | error e => exact ⟨nofun, still⟩

def Outcome (tx : Tx) (result : tx.Result → T) (tr : Trace)
    (out : Except Exception (OperationResult T)) (tr' : Trace) : Prop :=
  (∃ r, out = .ok (.successResult (result r)) ∧ tr' = tr ++ [⟨.transaction tx, .ok r⟩]) ∨
    (∀ v, out ≠ .ok (.successResult v)) ∧ ∀ e ∈ tr', Idle e

theorem does_operation (tx : Tx) (result : tx.Result → T) (site : Site)
    (allowed : o.transaction = tx) (idle : ∀ e ∈ tr, Idle e) :
    does o (operation dep tx result site : App τ (OperationResult T)) t tr
      fun out _ tr' => Outcome tx result tr out tr' := by
  refine meets_tryCatch.mpr (meets_bind.mpr (meets_perform.mpr fun r _ =>
    ⟨.inr ⟨by rw [allowed], idle⟩, meets_bind.mpr (meets_ofExcept.mpr ?_)⟩))
  cases r with
  | ok r => exact .inl ⟨r, rfl, rfl⟩
  | error e =>
    exact meets_mono (fun _ _ _ failed => .inr failed)
      (does_failure dep _ _ site (idle_snoc idle (idle_error tx e)))

theorem does_getUserByUsername (username : Bytes) (idle : ∀ e ∈ tr, Idle e) :
    does o (getUserByUsername dep username : App τ _) t tr fun out _ tr' =>
      (∃ row, out = .ok (.successResult (some row)) ∧
        tr' = tr ++ [⟨.transaction (.selectByUsername username), .ok (some row)⟩]) ∨
      (∀ v, out ≠ .ok (.successResult v)) ∧ ∀ e ∈ tr', Idle e := by
  refine meets_tryCatch.mpr (meets_bind.mpr (meets_perform.mpr fun r _ =>
    ⟨.inl (idle_select username r), meets_bind.mpr (meets_ofExcept.mpr ?_)⟩))
  have still := idle_snoc idle (idle_select username r)
  cases r with
  | ok found =>
    cases found with
    | none => exact .inr ⟨nofun, still⟩
    | some row => exact .inl ⟨row, rfl, rfl⟩
  | error e => exact meets_mono (fun _ _ _ failed => .inr failed) (does_failure dep _ _ _ still)

theorem does_caught {user : User} (e : Exception) (idle : ∀ e ∈ tr, Idle e) :
    does (.createUser user) (match e.kind with
      | .odb => do
        log dep .ERROR e.what createUserSite
        pure (.failureResult Repositories.tryAgainLater)
      | _ => throw e : App τ (OperationResult User)) t tr
      fun out _ tr' => Tells (.createUser user) out tr' := by
  split
  · exact meets_mono (fun _ _ _ ⟨bad, still⟩ => .failure _ _ bad still)
      (does_failure dep _ _ _ idle)
  · exact .failure _ _ nofun idle

theorem does_createUser (user : User) (idle : ∀ e ∈ tr, Idle e) :
    does (.createUser user) (createUser dep user : App τ _) t tr
      fun out _ tr' => Tells (.createUser user) out tr' := by
  refine meets_tryCatch.mpr (meets_bind.mpr (meets_mono (fun out t' tr' looked => ?_)
    (does_getUserByUsername dep user.username idle)))
  have still : ∀ e ∈ tr', Idle e := by
    rcases looked with ⟨row, -, rfl⟩ | ⟨-, still⟩
    · exact idle_snoc idle (idle_select _ _)
    · exact still
  cases out with
  | error e => exact does_caught dep e still
  | ok userExist =>
    cases userExist with
    | successResult row => exact .failure _ _ nofun still
    | failureResult message =>
      refine meets_bind.mpr (meets_mono (fun out t'' tr'' created => ?_)
        (does_operation dep (.persist user) (fun _ => true) createSite rfl still))
      rcases created with ⟨stored, rfl, rfl⟩ | ⟨bad, still'⟩
      · exact Tells.success (o := .createUser user) user tr' _ (.registered user stored) still
      · cases out with
        | error e => exact does_caught dep e still'
        | ok userCreated =>
          cases userCreated with
          | successResult v => exact absurd rfl (bad v)
          | failureResult message => exact .failure _ _ nofun still'

theorem does_code (o : Operation) (idle : ∀ e ∈ tr, Idle e) :
    does o (o.code dep) () tr fun out _ tr' => Tells o out tr' := by
  have single : ∀ {tx : Tx} {result : tx.Result → o.Result} {out : Except Exception _}
      {tr' : Trace}, (∀ r, From o (result r) ⟨.transaction tx, .ok r⟩) →
      Outcome tx result tr out tr' → Tells o out tr' := by
    rintro tx result out tr' source (⟨r, rfl, rfl⟩ | ⟨bad, still⟩)
    · exact .success _ tr _ (source r) idle
    · exact .failure _ _ bad still
  cases o with
  | create entity =>
    exact meets_mono (fun _ _ _ => single (.created entity))
      (does_operation dep (.persist entity) (fun _ => true) createSite rfl idle)
  | read id =>
    exact meets_mono (fun _ _ _ => single (.read id))
      (does_operation dep (.load id) (fun row => row) _ rfl idle)
  | update entity =>
    exact meets_mono (fun _ _ _ => single fun _ => .updated entity)
      (does_operation dep (.update entity) (fun _ => true) _ rfl idle)
  | delete id =>
    exact meets_mono (fun _ _ _ => single fun _ => .deleted id)
      (does_operation dep (.erase id) (fun _ => true) _ rfl idle)
  | readAll =>
    exact meets_mono (fun _ _ _ => single .listed)
      (does_operation dep .selectAll (fun rows => rows) _ rfl idle)
  | getUserByUsername username =>
    refine meets_mono (fun out t' tr' looked => ?_) (does_getUserByUsername dep username idle)
    rcases looked with ⟨row, rfl, rfl⟩ | ⟨bad, still⟩
    · exact .success _ tr _ (.found username row) idle
    · exact .failure _ _ bad still
  | createUser user => exact does_createUser dep user idle

end Functions

section Replies

variable {env : Surroundings} {d : Database} {s : Users}

theorem backs_call (backs : Backs ⟨d, none⟩ s) (env : Surroundings) (c : Call) :
    s.Allows (change d ⟨c, (handle env c d).1⟩) ∧
      Backs ⟨(handle env c d).2, none⟩ (s.after (change d ⟨c, (handle env c d).1⟩)) := by
  cases c with
  | transaction t =>
    have ids := SequentialAnswers.nextId_le env (.transaction t) d
    change _ ≤ (runTx (env.faults t) t d).2.nextId at ids
    simp only [handle]
    cases ran : (runTx (env.faults t) t d).1 with
    | error e =>
      rw [idle_error t e d]
      exact ⟨trivial, backs.same_rows (runTx_error ran).1 ids⟩
    | ok r =>
      cases t with
      | persist entity =>
        rw [runTx_persist_ok ran]
        exact backs.insert entity
      | update entity =>
        rw [runTx_update] at ran ⊢
        obtain ⟨known, whole⟩ := altered_ok ran
        rw [whole]
        exact backs.replace (by simpa using known)
      | erase id =>
        rw [runTx_erase] at ran ⊢
        obtain ⟨known, whole⟩ := altered_ok ran
        rw [whole]
        exact backs.erase (by simpa using known)
      | load | selectAll | selectByUsername =>
        exact ⟨trivial, backs.same_rows (runTx_ok ran) ids⟩
  | _ => exact ⟨trivial, backs⟩

theorem From.reports (backs : Backs ⟨d, none⟩ s) {o : Operation} {v : o.Result} {c : Call}
    {r : Reply c} (source : From o v ⟨c, r⟩) (faithful : r = (handle env c d).1) :
    Reports s o (.ok (.successResult v)) (change d ⟨c, r⟩) := by
  cases source with
  | created entity => exact .created entity d.nextId
  | registered user => exact .registered user d.nextId
  | read id row => exact reports_read backs (runTx_load_ok faithful.symm)
  | updated entity => exact .updated entity
  | deleted id => exact .deleted id
  | listed rows =>
    rw [runTx_selectAll_ok faithful.symm]
    exact reports_selectAll backs _
  | found username row =>
    obtain ⟨mem, named⟩ := runTx_select_some faithful.symm
    exact .found username row (backs.same ▸ backs.keyed.entities_iff.mpr mem) named

end Replies

section Runs

variable {ι : Type} (dep : Deployment) (calls : ι → Operation) (d : Database)
  (schedule : List (ι × Surroundings))

abbrev Answer := (o : Operation) × Except Exception (OperationResult o.Result)

def program (o : Operation) : Program Reply Answer :=
  ((o.code dep).run.run ()).bind fun out => .ret ⟨o, out.1⟩

/-- The calls after a run, with the table and the history of what they called. -/
def concurrent [DecidableEq ι] : Pool ι Reply Answer (Database × Log ι) :=
  runPool silent (record fun _ => handle) ⟨(d, []), fun i => program dep (calls i)⟩ schedule

def changes (log : Log ι) : List Change := log.map fun y => change y.before y.event

variable {dep calls d} {s : Users}

theorem changes_append (before after : Log ι) :
    changes (before ++ after) = changes before ++ changes after := List.map_append ..

theorem gone_changes {id : Int} {log : Log ι}
    (guarded : Guarded Store.after Store.Allows s (changes log)) (gone : s.Gone id) :
    ((changes log).foldl Store.after s).Gone id :=
  guarded_invariant Store.after Store.Allows (I := fun s => s.Gone id)
    (fun _ _ gone allowed => gone.after allowed) s (changes log) gone guarded

theorem gone_removed {id : Int} {before after : Log ι}
    {z : Entry ι Surroundings Database Reply} (removed : change z.before z.event = .remove id)
    (guarded : Guarded Store.after Store.Allows s (changes (before ++ z :: after))) :
    ((changes (before ++ z :: after)).foldl Store.after s).Gone id := by
  have split : changes (before ++ z :: after) = changes before ++ .remove id :: changes after := by
    rw [changes_append, ← removed]
    rfl
  rw [split] at guarded ⊢
  obtain ⟨-, allowed, later⟩ := (guarded_append ..).mp guarded
  rw [List.foldl_append, List.foldl_cons]
  exact gone_changes later (Store.gone_remove allowed)

theorem backs_changes {log : Log ι} {d' : Database} (backs : Backs ⟨d, none⟩ s)
    (linked : Linked (fun _ => handle) d log d')
    (faithful : ∀ y ∈ log, y.event.2 = (handle y.scene y.event.1 y.before).1) :
    Guarded Store.after Store.Allows s (changes log) ∧
      Backs ⟨d', none⟩ ((changes log).foldl Store.after s) := by
  induction log generalizing d s with
  | nil =>
    obtain rfl : d = d' := linked
    exact ⟨trivial, backs⟩
  | cons y log ih =>
    obtain ⟨rfl, rest⟩ := linked
    have reply := faithful y (List.mem_cons_self ..)
    obtain ⟨allowed, next⟩ := backs_call backs y.scene y.event.1
    rw [← reply] at allowed next
    obtain ⟨guarded, last⟩ := ih next rest fun z mem => faithful z (List.mem_cons_of_mem _ mem)
    exact ⟨⟨allowed, guarded⟩, last⟩

theorem wp_program (o : Operation) :
    wp (fun _ => True) (Once o) (program dep o) [] fun ans tr =>
      ∃ x, ans = ⟨o, x⟩ ∧ Tells o x tr := by
  refine (wp_bind _ _ _ _ _ _).mpr (wp_mono _ _ (fun out tr' told => ?_)
    (does_code dep o (List.forall_mem_nil _)))
  exact ⟨out.1, rfl, told⟩

/-- A call of a run that came to `x` took effect at one entry of its own, which
the store explains, or at none. -/
inductive Lands (s : Users) (log : Log ι) (i : ι) (o : Operation) :
    Except Exception (OperationResult o.Result) → Prop
  | success (v : o.Result) (before : Log ι) (y : Entry ι Surroundings Database Reply)
      (after : Log ι) (point : log = before ++ y :: after) (own : y.who = i)
      (reports : Reports ((changes before).foldl Store.after s) o (.ok (.successResult v))
        (change y.before y.event))
      (elsewhere : ∀ z ∈ before ++ after, z.who = i → Idle z.event) :
      Lands s log i o (.ok (.successResult v))
  | failure (x : Except Exception (OperationResult o.Result))
      (bad : ∀ v, x ≠ .ok (.successResult v)) (nowhere : ∀ z ∈ log, z.who = i → Idle z.event) :
      Lands s log i o x

theorem Lands.entry {log : Log ι} {i : ι} {o : Operation} {v : o.Result}
    (landed : Lands s log i o (.ok (.successResult v))) :
    ∃ before y after, log = before ++ y :: after ∧ y.who = i ∧
      Reports ((changes before).foldl Store.after s) o (.ok (.successResult v))
        (change y.before y.event) := by
  cases landed with
  | success v before y after point who reports => exact ⟨before, y, after, point, who, reports⟩
  | failure x bad => exact absurd rfl (bad v)

variable [DecidableEq ι]

section Pool

variable (dep calls d)

theorem kept_concurrent :
    Kept silent (fun _ => handle) (fun i => program dep (calls i))
      (concurrent dep calls d schedule) := kept_run d schedule

theorem linked_concurrent :
    Linked (fun _ => handle) d (concurrent dep calls d schedule).world.2
      (concurrent dep calls d schedule).world.1 := linked_run d schedule

end Pool

variable {schedule}

theorem idle_of_own {log : Log ι} {i : ι} (idle : ∀ e ∈ (own i log).map (·.event), Idle e) :
    ∀ z ∈ log, z.who = i → Idle z.event := fun z mem who =>
  idle z.event (List.mem_map_of_mem (List.mem_filter.mpr ⟨mem, decide_eq_true who⟩))

theorem backs_entry (backs : Backs ⟨d, none⟩ s) {before after : Log ι}
    {y : Entry ι Surroundings Database Reply}
    (point : (concurrent dep calls d schedule).world.2 = before ++ y :: after) :
    Backs ⟨y.before, none⟩ ((changes before).foldl Store.after s) ∧
      y.event.2 = (handle y.scene y.event.1 y.before).1 := by
  have linked := linked_concurrent dep calls d schedule
  have faithful := (kept_concurrent dep calls d schedule).faithful
  rw [point] at linked faithful
  obtain ⟨_, first, rfl, -⟩ := linked_append.mp linked
  exact ⟨(backs_changes backs first fun z mem => faithful z (List.mem_append_left _ mem)).2,
    faithful y (List.mem_append_right _ (List.mem_cons_self ..))⟩

theorem lands (backs : Backs ⟨d, none⟩ s) {i : ι} {ans : Answer}
    (finished : (concurrent dep calls d schedule).threads i = .ret ans) :
    ∃ x, ans = ⟨calls i, x⟩ ∧
      Lands s (concurrent dep calls d schedule).world.2 i (calls i) x := by
  have path := (kept_concurrent dep calls d schedule).follows i
  rw [finished] at path
  obtain ⟨-, x, rfl, told⟩ := wp_sound _ _ path (wp_program (calls i)) fun _ _ => trivial
  refine ⟨x, rfl, ?_⟩
  rw [List.nil_append] at told
  generalize trace : (own i _).map _ = tr at told
  cases told with
  | failure x tr bad idle => exact .failure x bad (idle_of_own (trace ▸ idle))
  | success v tr e source idle =>
    obtain ⟨pre, last, mine, rfl, single⟩ := List.map_eq_append_iff.mp trace
    obtain ⟨y, rfl, rfl⟩ := List.map_eq_singleton_iff.mp single
    obtain ⟨before, after, point, who, first, rest⟩ := own_snoc mine
    obtain ⟨here, faithful⟩ := backs_entry backs point
    refine .success v before y after point who (source.reports here faithful) fun z mem mine => ?_
    rcases List.mem_append.mp mem with early | late
    · exact idle_of_own (first ▸ idle) z early mine
    · exact idle_of_own (by rw [rest]; exact List.forall_mem_nil _) z late mine

theorem once (before : Log ι) (y : Entry ι Surroundings Database Reply) (after : Log ι)
    (point : (concurrent dep calls d schedule).world.2 = before ++ y :: after) :
    Idle y.event ∨ y.event.1 = .transaction (calls y.who).transaction ∧
      ∀ z ∈ before, z.who = y.who → Idle z.event := by
  have path := (kept_concurrent dep calls d schedule).follows y.who
  obtain ⟨each, -⟩ := wp_sound _ _ path (wp_program (calls y.who)) fun _ _ => trivial
  have mine : own y.who (before ++ y :: after) = own y.who before ++ y :: own y.who after := by
    rw [own_append]
    simp [own]
  have now := each ((own y.who before).map (·.event)) y.event ((own y.who after).map (·.event))
    (by rw [point, mine, List.map_append, List.map_cons])
  rw [List.nil_append] at now
  exact now.imp_right fun changed => ⟨changed.1, idle_of_own changed.2⟩

/-- A run of calls is one of the store: what the entries did to the table, in
their order, the store allows, each call did it at one entry at most, and what
it came to is what the store says there. -/
structure Linearized (calls : ι → Operation) (s : Users)
    (p : Pool ι Reply Answer (Database × Log ι)) : Prop where
  allowed : Guarded Store.after Store.Allows s (changes p.world.2)
  table : ((changes p.world.2).foldl Store.after s).entities = entities p.world.1
  once : ∀ before y after, p.world.2 = before ++ y :: after →
    Idle y.event ∨ y.event.1 = .transaction (calls y.who).transaction ∧
      ∀ z ∈ before, z.who = y.who → Idle z.event
  lands : ∀ i ans, p.threads i = .ret ans →
    ∃ x, ans = ⟨calls i, x⟩ ∧ Lands s p.world.2 i (calls i) x

theorem store_run (dep : Deployment) (calls : ι → Operation) (keyed : Keyed d)
    (schedule : List (ι × Surroundings)) :
    Guarded Store.after Store.Allows (storeOf d)
        (changes (concurrent dep calls d schedule).world.2) ∧
      Backs ⟨(concurrent dep calls d schedule).world.1, none⟩
        ((changes (concurrent dep calls d schedule).world.2).foldl Store.after (storeOf d)) :=
  backs_changes (backs_start keyed) (linked_concurrent dep calls d schedule)
    (kept_concurrent dep calls d schedule).faithful

/-- Whatever the interleaving and the faults, calls on many threads are one run of the store. -/
theorem calls_linearize (dep : Deployment) (calls : ι → Operation) (keyed : Keyed d)
    (schedule : List (ι × Surroundings)) :
    Linearized calls (storeOf d) (concurrent dep calls d schedule) where
  allowed := (store_run dep calls keyed schedule).1
  table := (store_run dep calls keyed schedule).2.same
  once := once
  lands _ _ := lands (backs_start keyed)

def annCalls : Nat → Operation
  | 0 | 3 => .createUser (ann 0)
  | 1 => .delete 1
  | _ => .readAll

def untilDeleted : List (Nat × Surroundings) := [(0, .calm), (0, .calm), (1, .calm)]

def thenListed : List (Nat × Surroundings) := [(3, .calm), (3, .calm), (2, .calm)]

/-- Two creations cross: both lookups come before both inserts. -/
def annCrossing : List (Nat × Surroundings) := [(0, .calm), (3, .calm), (0, .calm), (3, .calm)]

theorem calls_linearize_ann : Linearized annCalls (storeOf .empty)
    (concurrent .refusing annCalls .empty (annCrossing ++ [(1, .calm), (2, .calm)])) :=
  calls_linearize .refusing annCalls keyed_empty _

theorem lands_ret (backs : Backs ⟨d, none⟩ s) {i : ι} {o : Operation}
    {x : Except Exception (OperationResult o.Result)}
    (finished : (concurrent dep calls d schedule).threads i = .ret ⟨o, x⟩) :
    Lands s (concurrent dep calls d schedule).world.2 i o x := by
  obtain ⟨x', same, landed⟩ := lands backs finished
  cases same
  exact landed

theorem unstarted {i : ι} (none : ∀ who ∈ schedule, who.1 ≠ i) :
    ∀ y ∈ (concurrent dep calls d schedule).world.2, y.who ≠ i := by
  intro y mem who
  rcases scenes_run schedule _ y mem with old | turn
  · cases old
  · exact none _ turn who

/-- A reported deletion is behind every call that starts after it: none of them
finds, changes, deletes or lists the id, however many others run. -/
theorem deleted_unseen (dep : Deployment) (calls : ι → Operation) (keyed : Keyed d) {i j : ι}
    {id : Int} {done : Bool} (before after : List (ι × Surroundings))
    (deleted : (concurrent dep calls d before).threads i =
      .ret ⟨.delete id, .ok (.successResult done)⟩)
    (later : ∀ who ∈ before, who.1 ≠ j) {o : Operation} {v : o.Result}
    (finished : (concurrent dep calls d (before ++ after)).threads j =
      .ret ⟨o, .ok (.successResult v)⟩) :
    target o ≠ some id ∧ ∀ row ∈ shown o v, row.id ≠ id := by
  have backs := backs_start keyed
  obtain ⟨first, z, mid, point, -, removes⟩ := (lands_ret backs deleted).entry
  obtain ⟨early, y, last, point', who, reports⟩ := (lands_ret backs finished).entry
  have removed := reports_delete removes
  obtain ⟨rest, grown⟩ :
      (concurrent dep calls d before).world.2 <+:
        (concurrent dep calls d (before ++ after)).world.2 :=
    history_grows ..
  have guarded := (store_run dep calls keyed (before ++ after)).1
  rw [point'] at guarded grown
  obtain ⟨tail, rfl⟩ : ∃ tail, early = first ++ z :: tail := by
    rcases split_append grown with ⟨tail, rfl, -⟩ | ⟨tail, found⟩
    · exact ⟨mid ++ tail, by rw [point]; simp⟩
    · exact absurd who (unstarted later y (found ▸ List.mem_append_right _ (List.mem_cons_self ..)))
  rw [changes_append] at guarded
  obtain ⟨upto, allowed, -⟩ := (guarded_append ..).mp guarded
  have gone := gone_removed removed upto
  refine ⟨fun named => target_here reports allowed named gone.2, fun row mem same => ?_⟩
  have here := shown_here reports row mem
  rw [same, gone.2] at here
  cases here

end Runs

set_option maxRecDepth 4000 in
theorem annDeleted : (concurrent .refusing annCalls .empty untilDeleted).threads 1 =
    .ret ⟨.delete 1, .ok (.successResult true)⟩ := by
  rfl

set_option maxRecDepth 4000 in
theorem annListed :
    (concurrent .refusing annCalls .empty (untilDeleted ++ thenListed)).threads 2 =
      .ret ⟨.readAll, .ok (.successResult [ann 2])⟩ := by
  rfl

theorem deleted_unseen_ann :
    target .readAll ≠ some 1 ∧ ∀ row ∈ shown .readAll [ann 2], row.id ≠ 1 :=
  have later : ∀ who ∈ untilDeleted, who.1 ≠ 2 := by simp [untilDeleted]
  deleted_unseen .refusing annCalls keyed_empty untilDeleted thenListed annDeleted later annListed

end Ccfolio.ConcurrentCalls
