import Ccfolio.StdText
import Mathlib.Data.List.Infix
import Mathlib.Data.List.Nodup
import Mathlib.Order.Basic

/-! The `User` table and the transactions the repositories run on it. A
transaction works on a copy that commit installs and the destructor drops; the
SERIAL sequence is not rolled back. Where a transaction throws, and in which
order an unordered query returns its rows, is up to the surroundings
(`Faults`). The table has the constraints declared on class `User` only. -/

namespace Ccfolio.Odb

open Utf8 StdText

structure User where
  id : Int
  username : Bytes
  passwordHash : Bytes
  salt : Bytes
  deriving DecidableEq, Repr

/-- The rows and the next value of the `id` sequence, always a fresh one. -/
structure Database where
  rows : List User
  nextId : Int
  fresh : ∀ row ∈ rows, row.id < nextId

namespace Database

def empty : Database := ⟨[], 1, by simp⟩

/-- `nextval` is not undone by a rollback. -/
def burnId (d : Database) : Database :=
  ⟨d.rows, d.nextId + 1, fun row mem => by have := d.fresh row mem; omega⟩

def insert (d : Database) (entity : User) : Database :=
  ⟨d.rows ++ [{ entity with id := d.nextId }], d.nextId + 1, fun row mem => by
    rcases List.mem_append.mp mem with old | new
    · have := d.fresh row old
      omega
    · cases List.mem_singleton.mp new
      exact Int.lt_succ d.nextId⟩

/-- `SET` of every column but the id, `WHERE id = entity.id`. -/
def replace (d : Database) (entity : User) : Database :=
  ⟨d.rows.map fun row => if row.id = entity.id then entity else row, d.nextId, fun row mem => by
    obtain ⟨old, before, rfl⟩ := List.mem_map.mp mem
    have bound := d.fresh old before
    split_ifs with same
    · omega
    · exact bound⟩

def erase (d : Database) (id : Int) : Database :=
  ⟨d.rows.filter (·.id ≠ id), d.nextId, fun row mem => d.fresh row (List.mem_of_mem_filter mem)⟩

@[simp] theorem insert_rows (d : Database) (entity : User) :
    (d.insert entity).rows = d.rows ++ [{ entity with id := d.nextId }] := rfl

/-- The rows a query for a username returns, before any ordering. -/
def withUsername (d : Database) (username : Bytes) : List User :=
  d.rows.filter (·.username = username)

theorem mem_withUsername {d : Database} {username : Bytes} {row : User} :
    row ∈ d.withUsername username ↔ row ∈ d.rows ∧ row.username = username := by
  simp [withUsername]

def usernames (d : Database) : List Bytes := d.rows.map (·.username)

@[simp] theorem usernames_insert (d : Database) (entity : User) :
    (d.insert entity).usernames = d.usernames ++ [entity.username] := by
  simp [usernames]

theorem row_unique {d : Database} (distinct : d.usernames.Nodup) {row row' : User}
    (mem : row ∈ d.rows) (mem' : row' ∈ d.rows) (same : row.username = row'.username) :
    row = row' := List.inj_on_of_nodup_map distinct mem mem' same

theorem withUsername_eq_nil {d : Database} {username : Bytes} :
    d.withUsername username = [] ↔ username ∉ d.usernames := by
  simp [usernames, withUsername, List.filter_eq_nil_iff]

end Database

/-- The committed table and the working copy of the transaction current on
the thread, if there is one. -/
structure Connection where
  database : Database
  current : Option Database

/-- How the server arranges the rows of a query that asks for no order. -/
structure RowOrder where
  arrange : List User → List User
  perm : ∀ rows, (arrange rows).Perm rows

namespace RowOrder

def asStored : RowOrder := ⟨id, fun _ => .refl _⟩

variable (order : RowOrder) {rows : List User}

theorem mem_arrange {row : User} : row ∈ order.arrange rows ↔ row ∈ rows :=
  (order.perm rows).mem_iff

theorem arrange_eq_nil : order.arrange rows = [] ↔ rows = [] := by
  rw [← List.length_eq_zero_iff, (order.perm rows).length_eq, List.length_eq_zero_iff]

theorem arrange_nil : order.arrange [] = [] := order.arrange_eq_nil.mpr rfl

theorem arrange_singleton (row : User) : order.arrange [row] = [row] :=
  List.perm_singleton.mp (order.perm [row])

theorem nodup_arrange : (order.arrange rows).Nodup ↔ rows.Nodup :=
  (order.perm rows).nodup_iff

end RowOrder

/-- Where one transaction throws, and how the server arranges the rows of a result. -/
structure Faults where
  atBegin : Option Exception
  atStatement : Option Exception
  atIterate : Option Exception
  atCommit : Option Exception
  order : RowOrder

def Faults.none (order : RowOrder) : Faults := ⟨.none, .none, .none, .none, order⟩

/-- The bodies of the transactions of `OdbRepository` and `UserRepository`. -/
inductive Tx where
  | persist (entity : User)
  | load (id : Int)
  | update (entity : User)
  | erase (id : Int)
  | selectAll
  | selectByUsername (username : Bytes)
  deriving DecidableEq, Repr

abbrev Tx.Result : Tx → Type
  | .persist _ => User
  | .load _ => User
  | .update _ => Unit
  | .erase _ => Unit
  | .selectAll => List User
  | .selectByUsername _ => Option User

abbrev TxM := ExceptT Exception (StateM Connection)

def raise : Option Exception → TxM Unit
  | some e => throw e
  | none => pure ()

/-- `odb::transaction t(db->begin())`: refused while one is current. -/
def begin (f : Faults) : TxM Unit := do
  let c ← get
  if c.current.isSome then throw ⟨.odb, lit "transaction already in progress in this thread"⟩
  raise f.atBegin
  set { c with current := some c.database }

/-- The working copy; a statement outside a transaction throws. -/
def working : TxM Database := do
  match (← get).current with
  | some w => pure w
  | none => throw ⟨.odb, lit "operation can only be performed in transaction"⟩

/-- A commit that throws has applied nothing and ends the transaction. -/
def commit (f : Faults) : TxM Unit := do
  let w ← working
  modify fun c => { c with current := none }
  raise f.atCommit
  modify fun c => { c with database := w }

/-- The destructor of `odb::transaction`: rolls back what was not committed. -/
def destroy : TxM Unit := modify fun c => { c with current := none }

def statement (f : Faults) : TxM Database := do
  let w ← working
  raise f.atStatement
  pure w

/-- `INSERT .. VALUES (DEFAULT, ..) RETURNING id`; the id is written back into
the entity. -/
def persist (f : Faults) (entity : User) : TxM User := do
  let w ← statement f
  modify fun c => { database := c.database.burnId, current := some (w.insert entity) }
  pure { entity with id := w.nextId }

def notPersistent : Exception := ⟨.odb, lit "object not persistent"⟩

/-- The loop over a result that commits and returns inside its first turn; with
no row the transaction is left to its destructor. -/
def firstRow (f : Faults) : List User → TxM (Option User)
  | [] => pure none
  | user :: _ => do
      commit f
      pure (some user)

def body (f : Faults) : (t : Tx) → TxM t.Result
  | .persist entity => do
      let stored ← persist f entity
      commit f
      pure stored
  | .load id => do
      let w ← statement f
      match w.rows.find? (·.id = id) with
      | none => throw notPersistent
      | some row =>
        commit f
        pure row
  | .update entity => do
      let w ← statement f
      if w.rows.any (·.id = entity.id) then
        modify fun c => { c with current := some (w.replace entity) }
        commit f
      else throw notPersistent
  | .erase id => do
      let w ← statement f
      if w.rows.any (·.id = id) then
        modify fun c => { c with current := some (w.erase id) }
        commit f
      else throw notPersistent
  | .selectAll => do
      let w ← statement f
      raise f.atIterate
      commit f
      pure (f.order.arrange w.rows)
  | .selectByUsername username => do
      let w ← statement f
      raise f.atIterate
      firstRow f (f.order.arrange (w.withUsername username))

def inScope {α : Type} (x : TxM α) : TxM α := do
  let r ← tryCatch x fun e => do
    destroy
    throw e
  destroy
  pure r

def transact (f : Faults) (t : Tx) : TxM t.Result := do
  begin f
  inScope (body f t)

/-- A transaction on a thread that has none current. -/
def runTx (f : Faults) (t : Tx) (d : Database) : Except Exception t.Result × Database :=
  let out := (transact f t).run.run ⟨d, none⟩
  (out.1, out.2.database)

theorem runTx_persist (f : Faults) (entity : User) (d : Database) :
    runTx f (.persist entity) d =
      match f.atBegin, f.atStatement, f.atCommit with
      | some e, _, _ => (.error e, d)
      | none, some e, _ => (.error e, d)
      | none, none, some e => (.error e, d.burnId)
      | none, none, none => (.ok { entity with id := d.nextId }, d.insert entity) := by
  rcases f with ⟨b, s, i, c, k⟩
  rcases b with _ | b <;> rcases s with _ | s <;> rcases c with _ | c <;> rfl

theorem runTx_selectByUsername (f : Faults) (username : Bytes) (d : Database) :
    runTx f (.selectByUsername username) d =
      (match f.atBegin, f.atStatement, f.atIterate with
        | some e, _, _ => .error e
        | none, some e, _ => .error e
        | none, none, some e => .error e
        | none, none, none =>
          match f.order.arrange (d.withUsername username), f.atCommit with
          | [], _ => .ok none
          | _ :: _, some e => .error e
          | user :: _, none => .ok (some user), d) := by
  rcases f with ⟨b, s, i, c, k⟩
  rcases b with _ | b
  · rcases s with _ | s
    · rcases i with _ | i
      · let rest (rows : List User) : Except Exception (Option User) × Database :=
          let out := (inScope (firstRow ⟨none, none, none, c, k⟩ rows)).run.run ⟨d, some d⟩
          (out.1, out.2.database)
        change rest (k.arrange (d.withUsername username)) = _
        rcases k.arrange (d.withUsername username) with _ | ⟨u, us⟩
        · rfl
        · rcases c with _ | c <;> rfl
      · rfl
    · rfl
  · rfl

/-! What callers use of the two transactions. -/

@[simp] theorem runTx_select_database (f : Faults) (username : Bytes) (d : Database) :
    (runTx f (.selectByUsername username) d).2 = d := by
  rw [runTx_selectByUsername]

theorem runTx_select_some {f : Faults} {username : Bytes} {d : Database} {row : User}
    (h : (runTx f (.selectByUsername username) d).1 = .ok (some row)) :
    row ∈ d.rows ∧ row.username = username := by
  rw [runTx_selectByUsername] at h
  rw [← Database.mem_withUsername, ← f.order.mem_arrange]
  rcases f with ⟨b, s, i, c, k⟩
  simp only at h ⊢
  split at h <;> try cases h
  split at h <;> cases h
  next rows => simp [rows]

theorem runTx_select_none {f : Faults} {username : Bytes} {d : Database}
    (h : (runTx f (.selectByUsername username) d).1 = .ok none) :
    d.withUsername username = [] := by
  rw [runTx_selectByUsername] at h
  rcases f with ⟨b, s, i, c, k⟩
  simp only at h
  split at h <;> try cases h
  split at h <;> cases h
  next rows => exact k.arrange_eq_nil.mp rows

theorem runTx_select_clean (order : RowOrder) (username : Bytes) (d : Database) :
    (runTx (.none order) (.selectByUsername username) d).1 =
      .ok (order.arrange (d.withUsername username)).head? := by
  rw [runTx_selectByUsername]
  simp only [Faults.none]
  rcases order.arrange (d.withUsername username) with _ | ⟨u, us⟩ <;> rfl

theorem runTx_persist_clean (order : RowOrder) (entity : User) (d : Database) :
    runTx (.none order) (.persist entity) d =
      (.ok { entity with id := d.nextId }, d.insert entity) := by
  rw [runTx_persist]
  rfl

theorem runTx_persist_ok {f : Faults} {entity stored : User} {d : Database}
    (h : (runTx f (.persist entity) d).1 = .ok stored) :
    runTx f (.persist entity) d = (.ok { entity with id := d.nextId }, d.insert entity) := by
  rw [runTx_persist] at h ⊢
  split at h <;> cases h
  rfl

theorem runTx_persist_error {f : Faults} {entity : User} {d : Database} {e : Exception}
    (h : (runTx f (.persist entity) d).1 = .error e) :
    (runTx f (.persist entity) d).2.rows = d.rows := by
  rw [runTx_persist] at h ⊢
  split at h <;> cases h <;> rfl

/-! Every transaction alike: what it throws, what it does to the rows, and that
it is over when it returns. -/

theorem runTx_load (f : Faults) (id : Int) (d : Database) :
    runTx f (.load id) d =
      (match f.atBegin, f.atStatement, d.rows.find? (·.id = id), f.atCommit with
        | some e, _, _, _ => .error e
        | none, some e, _, _ => .error e
        | none, none, none, _ => .error notPersistent
        | none, none, some _, some e => .error e
        | none, none, some row, none => .ok row, d) := by
  rcases f with ⟨_ | b, _ | s, i, c, k⟩
  · let rest (found : Option User) : Except Exception User × Database :=
      let out := (inScope (match found with
        | none => throw notPersistent
        | some row => do
          commit ⟨none, none, i, c, k⟩
          pure row : TxM User)).run.run ⟨d, some d⟩
      (out.1, out.2.database)
    change rest (d.rows.find? (·.id = id)) = _
    generalize List.find? _ d.rows = found
    cases found with
    | none => rfl
    | some row => cases c <;> rfl
  · rfl
  · rfl
  · rfl

theorem run_alter (f : Faults) (known : Bool) (d w : Database) :
    (inScope (if known then do
        modify fun c => { c with current := some w }
        commit f
      else throw notPersistent : TxM Unit)).run.run ⟨d, some d⟩ =
      match known, f.atCommit with
      | false, _ => (.error notPersistent, ⟨d, none⟩)
      | true, some e => (.error e, ⟨d, none⟩)
      | true, none => (.ok (), ⟨w, none⟩) := by
  rcases f with ⟨b, s, i, _ | e, k⟩ <;> cases known <;> rfl

def altered (f : Faults) (d w : Database) (known : Bool) : Except Exception Unit × Database :=
  match f.atBegin, f.atStatement, known, f.atCommit with
  | some e, _, _, _ => (.error e, d)
  | none, some e, _, _ => (.error e, d)
  | none, none, false, _ => (.error notPersistent, d)
  | none, none, true, some e => (.error e, d)
  | none, none, true, none => (.ok (), w)

theorem runTx_update (f : Faults) (entity : User) (d : Database) :
    runTx f (.update entity) d =
      altered f d (d.replace entity) (d.rows.any (·.id = entity.id)) := by
  rcases f with ⟨_ | b, _ | s, i, c, k⟩
  · have ran := run_alter ⟨none, none, i, c, k⟩ (d.rows.any (·.id = entity.id)) d
      (d.replace entity)
    refine (congrArg (fun out => (out.1, out.2.database)) ran).trans ?_
    cases d.rows.any (·.id = entity.id) <;> cases c <;> rfl
  · rfl
  · rfl
  · rfl

theorem runTx_erase (f : Faults) (id : Int) (d : Database) :
    runTx f (.erase id) d = altered f d (d.erase id) (d.rows.any (·.id = id)) := by
  rcases f with ⟨_ | b, _ | s, i, c, k⟩
  · have ran := run_alter ⟨none, none, i, c, k⟩ (d.rows.any (·.id = id)) d (d.erase id)
    refine (congrArg (fun out => (out.1, out.2.database)) ran).trans ?_
    cases d.rows.any (·.id = id) <;> cases c <;> rfl
  · rfl
  · rfl
  · rfl

theorem runTx_selectAll (f : Faults) (d : Database) :
    runTx f .selectAll d =
      (match f.atBegin, f.atStatement, f.atIterate, f.atCommit with
        | some e, _, _, _ => .error e
        | none, some e, _, _ => .error e
        | none, none, some e, _ => .error e
        | none, none, none, some e => .error e
        | none, none, none, none => .ok (f.order.arrange d.rows), d) := by
  rcases f with ⟨_ | b, _ | s, _ | i, _ | c, k⟩ <;> rfl

def Faults.raised (f : Faults) : List Exception :=
  f.atBegin.toList ++ f.atStatement.toList ++ f.atIterate.toList ++ f.atCommit.toList

/-- What a transaction that commits does to the rows. -/
def Tx.Effect : Tx → List User → List User → Prop
  | .persist entity, before, after =>
      ∃ id, (∀ row ∈ before, row.id ≠ id) ∧ after = before ++ [{ entity with id := id }]
  | .update entity, before, after =>
      (∃ row ∈ before, row.id = entity.id) ∧
        after = before.map fun row => if row.id = entity.id then entity else row
  | .erase id, before, after =>
      (∃ row ∈ before, row.id = id) ∧ after = before.filter (·.id ≠ id)
  | .load _, before, after | .selectAll, before, after | .selectByUsername _, before, after =>
      after = before

theorem altered_error {f : Faults} {d w : Database} {known : Bool} {e : Exception}
    (h : (altered f d w known).1 = .error e) :
    (altered f d w known).2 = d ∧ (e ∈ f.raised ∨ e = notPersistent) := by
  rcases f with ⟨_ | b, _ | s, i, _ | c, k⟩ <;> cases known <;> cases h <;>
    simp [altered, Faults.raised]

theorem altered_ok {f : Faults} {d w : Database} {known : Bool} {u : Unit}
    (h : (altered f d w known).1 = .ok u) : known = true ∧ (altered f d w known).2 = w := by
  rcases f with ⟨_ | b, _ | s, i, _ | c, k⟩ <;> cases known <;> cases h
  exact ⟨rfl, rfl⟩

theorem runTx_error {f : Faults} {t : Tx} {d : Database} {e : Exception}
    (h : (runTx f t d).1 = .error e) :
    (runTx f t d).2.rows = d.rows ∧ (e ∈ f.raised ∨ e = notPersistent) := by
  cases t with
  | persist entity =>
    refine ⟨runTx_persist_error h, ?_⟩
    rw [runTx_persist] at h
    rcases f with ⟨_ | b, _ | s, i, _ | c, k⟩ <;> cases h <;> simp [Faults.raised]
  | load id =>
    rw [runTx_load] at h ⊢
    refine ⟨rfl, ?_⟩
    generalize List.find? _ d.rows = found at h
    rcases f with ⟨_ | b, _ | s, i, _ | c, k⟩ <;> cases found <;> cases h <;>
      simp [Faults.raised]
  | update entity =>
    rw [runTx_update] at h ⊢
    exact ⟨congrArg _ (altered_error h).1, (altered_error h).2⟩
  | erase id =>
    rw [runTx_erase] at h ⊢
    exact ⟨congrArg _ (altered_error h).1, (altered_error h).2⟩
  | selectAll =>
    rw [runTx_selectAll] at h ⊢
    refine ⟨rfl, ?_⟩
    rcases f with ⟨_ | b, _ | s, _ | i, _ | c, k⟩ <;> cases h <;> simp [Faults.raised]
  | selectByUsername username =>
    refine ⟨by rw [runTx_select_database], ?_⟩
    rw [runTx_selectByUsername] at h
    generalize f.order.arrange _ = rows at h
    rcases f with ⟨_ | b, _ | s, _ | i, _ | c, k⟩ <;> cases rows <;> cases h <;>
      simp [Faults.raised]

theorem runTx_ok {f : Faults} {t : Tx} {d : Database} {r : t.Result}
    (h : (runTx f t d).1 = .ok r) : t.Effect d.rows (runTx f t d).2.rows := by
  cases t with
  | persist entity =>
    rw [runTx_persist_ok h]
    exact ⟨d.nextId, fun row mem => Int.ne_of_lt (d.fresh row mem), rfl⟩
  | load | selectAll =>
    simp [Tx.Effect, runTx_load, runTx_selectAll]
  | update entity =>
    rw [runTx_update] at h ⊢
    obtain ⟨known, whole⟩ := altered_ok h
    rw [whole]
    exact ⟨by simpa using known, rfl⟩
  | erase id =>
    rw [runTx_erase] at h ⊢
    obtain ⟨known, whole⟩ := altered_ok h
    rw [whole]
    exact ⟨by simpa using known, rfl⟩
  | selectByUsername username => simp [Tx.Effect]

theorem inScope_idle {α : Type} (x : TxM α) (c : Connection) :
    ((inScope x).run.run c).2.current = none := by
  let rest (out : Except Exception α × Connection) : Except Exception α × Connection :=
    (inScope (ExceptT.mk fun _ => out)).run.run c
  change (rest (x.run.run c)).2.current = none
  rcases x.run.run c with ⟨e | a, c'⟩ <;> rfl

theorem transact_idle (f : Faults) (t : Tx) (d : Database) :
    (transact f t).run.run ⟨d, none⟩ = ((runTx f t d).1, ⟨(runTx f t d).2, none⟩) := by
  have closed : ((transact f t).run.run ⟨d, none⟩).2.current = none := by
    rcases f with ⟨_ | b, s, i, c, k⟩
    · exact inScope_idle (body ⟨none, s, i, c, k⟩ t) ⟨d, some d⟩
    · rfl
  exact Prod.ext rfl (congrArg (Connection.mk _) closed)

end Ccfolio.Odb
