import Ccfolio.BoundStatements
import Ccfolio.Calls
import Ccfolio.PrimaryKeys
import Ccfolio.Simulations

/-! What the statements do to the table at the server, and the transactions of
the generated code on a pool of connections, each with statements of its own:
they are the transactions that the rest is stated of. -/

namespace Ccfolio.PooledConnections

open Utf8 StdText Odb PrimaryKeys Programs Pools ObjectTraits BoundStatements Simulations Calls

section Server

variable (refused : Exception) (f : Faults)

/-- `INSERT .. VALUES (DEFAULT, $1, $2, $3) RETURNING id` -/
def insertUser : List Value → TxM (Option Int)
  | [.text username, .text passwordHash, .text salt] => do
      let stored ← Odb.persist f ⟨0, username, passwordHash, salt⟩
      pure (some stored.id)
  | _ => throw refused

/-- `SELECT .. WHERE id = $1` -/
def selectUser : List Value → TxM (Option User)
  | [.integer id] => do
      let w ← statement f
      pure (w.rows.find? (·.id = id))
  | _ => throw refused

/-- `UPDATE .. SET .. WHERE id = $4`, with the number of rows it was done to. -/
def updateUser : List Value → TxM Nat
  | [.text username, .text passwordHash, .text salt, .integer id] => do
      let w ← statement f
      modify fun c => { c with current := some (w.replace ⟨id, username, passwordHash, salt⟩) }
      pure (w.rows.countP (·.id = id))
  | _ => throw refused

/-- `DELETE .. WHERE id = $1`, with the number of rows it was done to. -/
def deleteUser : List Value → TxM Nat
  | [.integer id] => do
      let w ← statement f
      modify fun c => { c with current := some (w.erase id) }
      pure (w.rows.countP (·.id = id))
  | _ => throw refused

def selectUsers (username : Option Bytes) : TxM (List User) := do
  let w ← statement f
  raise f.atIterate
  match username with
  | none => pure (f.order.arrange w.rows)
  | some username => pure (f.order.arrange (w.withUsername username))

/-- Parameters that are not those of the statement are refused. -/
def server : Handler Command.Reply Connection
  | .begin, c => (Odb.begin f).run.run c
  | .commit, c => (Odb.commit f).run.run c
  | .close, c => ((), (destroy.run.run c).2)
  | .persist params, c => (insertUser refused f params).run.run c
  | .find params, c => (selectUser refused f params).run.run c
  | .update params, c => (updateUser refused f params).run.run c
  | .erase params, c => (deleteUser refused f params).run.run c
  | .query username, c => (selectUsers f username).run.run c

end Server

section Pool

variable (rt : Runtime) (refused : Exception)

structure Pooled where
  statements : Nat → Statements
  database : Database

/-- The replies where transactions are those of the generated code, on the
connection `k`. -/
def handlePooled (env : Surroundings) (k : Nat) : Handler Reply Pooled
  | .transaction t, w =>
      let out := run (server refused (env.faults t)) ((generated rt).transact t) (w.statements k)
        ⟨w.database, none⟩
      (out.1, ⟨Function.update w.statements k out.2.1, out.2.2.database⟩)
  | call, w => ((handle env call w.database).1, w)

end Pool

section Statements

variable {refused : Exception} {f : Faults} {d : Database} {c : Connection}

theorem commit_does : Does (server refused f) Operations.commit (Odb.commit f) c := by
  simp only [Does, Operations.commit, run_bind, run_perform, run_ofExcept, andThen_ok, server]

theorem persist_does (entity : User) :
    Does (server refused f) (plain.persist entity) (Odb.persist f entity) ⟨d, some d⟩ := by
  rcases f with ⟨b, _ | e, i, c, k⟩ <;> rfl

def altering (f : Faults) (w : Database) (known : Bool) : TxM Unit := do
  let _ ← statement f
  if known then modify fun c => { c with current := some w } else throw notPersistent

theorem altering_run {h : Handler Command.Reply Connection} {bad : Prop} [Decidable bad]
    {w : Database} {known : Bool} (counted : bad ↔ known = false) (absent : known = false → w = d) :
    run h (if bad then throw notPersistent else pure () : Dialogue Unit Unit) () ⟨d, some w⟩ =
      if known then (.ok (), (), ⟨d, some w⟩) else (.error notPersistent, (), ⟨d, some d⟩) := by
  cases known with
  | true =>
    rw [if_neg (mt counted.mp Bool.noConfusion)]
    rfl
  | false =>
    rw [if_pos (counted.mpr rfl), absent rfl]
    rfl

theorem absent_of_any {id : Int} (none : d.rows.any (·.id = id) = false) :
    ∀ row ∈ d.rows, row.id ≠ id := by
  simpa using none

theorem update_does (entity : User) :
    Does (server refused f) (plain.update entity)
      (altering f (d.replace entity) (d.rows.any (·.id = entity.id))) ⟨d, some d⟩ := by
  have counted : d.rows.countP (·.id = entity.id) = 0 ↔
      d.rows.any (·.id = entity.id) = false := by
    rw [List.countP_eq_zero, List.any_eq_false]
  have ran := altering_run (h := server refused f) counted
    fun none => replace_absent (absent_of_any none)
  rcases f with ⟨b, _ | e, i, c, k⟩
  · refine ran.trans ?_
    cases d.rows.any (·.id = entity.id) <;> rfl
  · rfl

theorem erase_does (keyed : Keyed d) (id : Int) :
    Does (server refused f) (plain.erase id)
      (altering f (d.erase id) (d.rows.any (·.id = id))) ⟨d, some d⟩ := by
  have counted : d.rows.countP (·.id = id) ≠ 1 ↔ d.rows.any (·.id = id) = false := by
    cases known : d.rows.any (·.id = id) with
    | true =>
      have present : ∃ row ∈ d.rows, row.id = id := by simpa using known
      simp [keyed.countP present]
    | false =>
      simp [countP_absent (absent_of_any known)]
  have ran := altering_run (h := server refused f) counted
    fun none => erase_absent (absent_of_any none)
  rcases f with ⟨b, _ | e, i, c, k⟩
  · refine ran.trans ?_
    cases d.rows.any (·.id = id) <;> rfl
  · rfl

def loading (f : Faults) (id : Int) : TxM User := do
  let w ← statement f
  match w.rows.find? (·.id = id) with
  | none => throw notPersistent
  | some row => pure row

theorem load_does (id : Int) :
    Does (server refused f) (plain.load id) (loading f id) ⟨d, some d⟩ := by
  have found (row : Option User) (h : Handler Command.Reply Connection) (c : Connection) :
      Does h (match row with
        | none => throw notPersistent
        | some row => pure row) (match row with
        | none => throw notPersistent
        | some row => pure row : TxM User) c := by
    cases row <;> rfl
  rcases f with ⟨b, _ | e, i, c, k⟩
  · exact found (d.rows.find? (·.id = id)) _ _
  · rfl

theorem selectAll_does : Does (server refused f) plain.selectAll (selectUsers f none) c := by
  simp only [Does, plain, run_bind, run_perform, run_ofExcept, andThen_ok, server]

theorem selectFirst_does (username : Bytes) :
    Does (server refused f) (plain.selectFirst username)
      (do
        let rows ← selectUsers f (some username)
        pure (rows.take 1)) c := by
  unfold Does
  simp only [plain, run_bind, run_perform, run_ofExcept, andThen_ok, server]
  rcases ran : (selectUsers f (some username)).run.run c with ⟨e | rows, c'⟩
  · rw [action_bind_error _ ran]
    rfl
  · rw [action_bind_ok _ ran]
    rfl

theorem altering_body (w : Database) (known : Bool) :
    (do
      altering f w known
      Odb.commit f : TxM Unit).run.run ⟨d, some d⟩ =
    (do
      let _ ← statement f
      if known then
        modify fun c => { c with current := some w }
        Odb.commit f
      else throw notPersistent : TxM Unit).run.run ⟨d, some d⟩ := by
  rcases f with ⟨b, _ | e, i, c, k⟩
  · cases known <;> rfl
  · rfl

theorem body_does (keyed : Keyed d) (t : Tx) :
    Does (server refused f) (plain.body t) (Odb.body f t) ⟨d, some d⟩ := by
  cases t with
  | persist entity =>
    exact does_bind (persist_does entity) fun _ _ _ => does_bind commit_does fun _ _ _ =>
      does_pure _
  | load id =>
    refine Does.congr (does_bind (load_does id) fun row _ _ => does_bind (y := Odb.commit f)
      (g := fun _ => pure row) commit_does fun _ _ _ => does_pure row) ?_
    rw [Odb.body, loading, bind_assoc]
    refine congrArg (fun y : TxM User => y.run.run _) (bind_congr fun w => ?_)
    cases w.rows.find? (·.id = id) with
    | none => rfl
    | some row => rfl
  | update entity =>
    refine Does.congr (does_bind (update_does entity) fun _ _ _ => commit_does) ?_
    refine (altering_body _ _).trans ?_
    rcases f with ⟨b, _ | e, i, c, k⟩ <;> rfl
  | erase id =>
    refine Does.congr (does_bind (erase_does keyed id) fun _ _ _ => commit_does) ?_
    refine (altering_body _ _).trans ?_
    rcases f with ⟨b, _ | e, i, c, k⟩ <;> rfl
  | selectAll =>
    refine Does.congr (does_bind selectAll_does fun rows _ _ => does_bind (y := Odb.commit f)
      (g := fun _ => pure rows) commit_does fun _ _ _ => does_pure rows) ?_
    rcases f with ⟨b, _ | e, _ | i, c, k⟩ <;> rfl
  | selectByUsername username =>
    refine Does.congr (does_bind (g := firstRow f) (selectFirst_does username)
      fun rows _ _ => ?_) ?_
    · cases rows with
      | nil => exact does_pure _
      | cons user rest => exact does_bind commit_does fun _ _ _ => does_pure _
    · rw [Odb.body, selectUsers, bind_assoc, bind_assoc]
      refine congrArg (fun y : TxM (Option User) => y.run.run _) (bind_congr fun w => ?_)
      rw [bind_assoc]
      refine bind_congr fun _ => ?_
      rw [pure_bind, pure_bind]
      cases f.order.arrange (w.withUsername username) with
      | nil => rfl
      | cons user rest => rfl

theorem close_does : Does (server refused f) Operations.close destroy c := rfl

theorem inScope_does {α : Type} {x : Dialogue Unit α} {y : TxM α}
    (inside : Does (server refused f) x y c) :
    Does (server refused f) (Operations.inScope x) (Odb.inScope y) c := by
  refine does_bind (does_tryCatch inside fun e _ _ => ?_) fun r _ _ => ?_
  · exact does_bind close_does fun _ _ _ => does_throw e
  · exact does_bind close_does fun _ _ _ => does_pure r

theorem transact_does (keyed : Keyed d) (t : Tx) :
    Does (server refused f) (plain.transact t) (Odb.transact f t) ⟨d, none⟩ := by
  have body : Does (server refused f) (plain.body t) (Odb.body f t) ⟨d, some d⟩ :=
    body_does keyed t
  have inside := inScope_does body
  rcases f with ⟨_ | e, s, i, c, k⟩
  · exact inside
  · rfl

end Statements

section Refinement

variable {rt : Runtime}

structure Backs (w : Pooled) (d : Database) : Prop where
  sound : ∀ k, Sound (w.statements k)
  keyed : Keyed d
  same : w.database = d

theorem handlePooled_refines (law : Lawful rt) (refused : Exception) (env : Surroundings)
    (k : Nat) : Refines Backs (handlePooled rt refused env k) (handle env) := by
  rintro c ⟨statements, database⟩ d ⟨sound, keyed, rfl⟩
  cases c with
  | transaction t =>
    obtain ⟨sts, sound', ran⟩ := transact_hides law t Connection (server refused (env.faults t))
      (statements k) ⟨database, none⟩ (sound k)
    rw [transact_does keyed t, transact_idle] at ran
    simp only [handlePooled, handle, ran]
    refine ⟨trivial, ?_, runTx_keyed _ t keyed, rfl⟩
    exact (Function.forall_update_iff statements fun _ s => Sound s).mpr
      ⟨sound', fun i _ => sound i⟩
  | _ => exact ⟨rfl, sound, keyed, rfl⟩

/-- Programs in any interleaving, every transaction on any connection of the
pool: over the generated code they do what they do over the table. -/
theorem pooled_runs (law : Lawful rt) (refused : Exception) (statements : Nat → Statements)
    (unbound : ∀ k, Unbound (statements k)) (d : Database) (keyed : Keyed d) {ι α : Type}
    [DecidableEq ι] (threads : ι → Program Reply α) (schedule : List (ι × Surroundings × Nat)) :
    let pooled := runPool silent (fun _ e => handlePooled rt refused e.1 e.2)
      ⟨⟨statements, d⟩, threads⟩ schedule
    let plain := runPool silent (fun _ env => handle env) ⟨d, threads⟩
      (schedule.map fun who => (who.1, who.2.1))
    pooled.threads = plain.threads ∧ pooled.world.database = plain.world := by
  intro pooled plain
  have start : Alike Backs (⟨⟨statements, d⟩, threads⟩ : Pool ι Reply α Pooled) ⟨d, threads⟩ :=
    ⟨rfl, fun k => (unbound k).sound, keyed, rfl⟩
  have alike := runPool_alike silent (k := fun _ env => handle env) Prod.fst
    (fun _ e => handlePooled_refines law refused e.1 e.2) start schedule
  exact ⟨alike.threads, alike.world.same⟩

/-- Two users stored through one connection; another one reads the second. -/
def crossing : Fin 3 → Program Reply (Except Exception User)
  | 0 => .call (.transaction (.persist ⟨0, lit "ann", lit "00", lit "11"⟩)) .ret
  | 1 => .call (.transaction (.persist ⟨0, lit "maximilian", lit "22", lit "33"⟩)) .ret
  | 2 => .call (.transaction (.load 2)) .ret

theorem pooled_runs_crossing :
    let pooled := runPool silent (fun _ e => handlePooled Moving.runtime notPersistent e.1 e.2)
      ⟨⟨fun _ => Moving.unbound, .empty⟩, crossing⟩
      [(0, Surroundings.calm, 0), (1, .calm, 0), (2, .calm, 1)]
    pooled.threads 2 = .ret (.ok ⟨2, lit "maximilian", lit "22", lit "33"⟩) ∧
      pooled.world.database.usernames = [lit "ann", lit "maximilian"] := by
  intro pooled
  obtain ⟨threads, table⟩ := pooled_runs Moving.lawful notPersistent (fun _ => Moving.unbound)
    (fun _ => Moving.unbound_unbound) .empty List.nodup_nil crossing
    [(0, Surroundings.calm, 0), (1, .calm, 0), (2, .calm, 1)]
  exact ⟨(congrFun threads 2).trans rfl, (congrArg Database.usernames table).trans rfl⟩

end Refinement

end Ccfolio.PooledConnections
