import Ccfolio.Odb

/-! The primary key of the `User` table: ids are distinct, so the table is a map
from ids to rows, and every transaction changes it at one id at most. -/

namespace Ccfolio.PrimaryKeys

open Utf8 Odb

variable {d : Database}

/-- `PRIMARY KEY` -/
def Keyed (d : Database) : Prop := (d.rows.map (·.id)).Nodup

theorem replace_absent {entity : User} (absent : ∀ row ∈ d.rows, row.id ≠ entity.id) :
    d.replace entity = d := by
  have same : d.rows.map (fun row => if row.id = entity.id then entity else row) = d.rows := by
    conv_rhs => rw [← List.map_id d.rows]
    exact List.map_congr_left fun row mem => if_neg (absent row mem)
  rcases d with ⟨rows, nextId, fresh⟩
  simp only [Database.replace, Database.mk.injEq, and_true]
  exact same

theorem erase_absent {id : Int} (absent : ∀ row ∈ d.rows, row.id ≠ id) : d.erase id = d := by
  have same : d.rows.filter (·.id ≠ id) = d.rows :=
    List.filter_eq_self.mpr fun row mem => decide_eq_true (absent row mem)
  rcases d with ⟨rows, nextId, fresh⟩
  simp only [Database.erase, Database.mk.injEq, and_true]
  exact same

theorem Keyed.countP (keyed : Keyed d) {id : Int} (present : ∃ row ∈ d.rows, row.id = id) :
    d.rows.countP (·.id = id) = 1 := by
  obtain ⟨row, mem, rfl⟩ := present
  have one := List.count_eq_one_of_mem keyed (List.mem_map_of_mem mem)
  rw [List.count_eq_countP, List.countP_map] at one
  exact one

theorem countP_absent {id : Int} (absent : ∀ row ∈ d.rows, row.id ≠ id) :
    d.rows.countP (·.id = id) = 0 :=
  List.countP_eq_zero.mpr fun row mem => by simpa using absent row mem

theorem effect_keyed {t : Tx} {before after : List User} (effect : t.Effect before after)
    (keyed : (before.map (·.id)).Nodup) : (after.map (·.id)).Nodup := by
  cases t with
  | persist entity =>
    obtain ⟨id, fresh, rfl⟩ := effect
    simp only [List.map_append, List.map_cons, List.map_nil]
    refine List.nodup_append.mpr ⟨keyed, List.nodup_singleton _, ?_⟩
    intro a old b new
    obtain ⟨row, mem, rfl⟩ := List.mem_map.mp old
    rw [List.mem_singleton.mp new]
    exact fresh row mem
  | update entity =>
    obtain ⟨-, rfl⟩ := effect
    rw [List.map_map]
    refine (List.map_congr_left fun row _ => ?_ : _ = before.map (·.id)) ▸ keyed
    simp only [Function.comp]
    split_ifs with same
    · exact same.symm
    · rfl
  | erase id =>
    obtain ⟨-, rfl⟩ := effect
    exact keyed.sublist (List.filter_sublist.map _)
  | load | selectAll | selectByUsername => exact effect ▸ keyed

theorem runTx_keyed (f : Faults) (t : Tx) (keyed : Keyed d) : Keyed (runTx f t d).2 := by
  cases out : (runTx f t d).1 with
  | error e =>
    rw [Keyed, (runTx_error out).1]
    exact keyed
  | ok r => exact effect_keyed (runTx_ok out) keyed

def entities (d : Database) (id : Int) : Option User := d.rows.find? (·.id = id)

theorem entities_some {id : Int} {row : User} (here : entities d id = some row) :
    row ∈ d.rows ∧ row.id = id :=
  ⟨List.mem_of_find?_eq_some here, by simpa using List.find?_some here⟩

theorem entities_none {id : Int} : entities d id = none ↔ ∀ row ∈ d.rows, row.id ≠ id := by
  simp [entities, List.find?_eq_none]

theorem Keyed.entities_iff (keyed : Keyed d) {row : User} :
    entities d row.id = some row ↔ row ∈ d.rows := by
  refine ⟨fun here => (entities_some here).1, fun mem => ?_⟩
  cases here : entities d row.id with
  | none => exact absurd rfl (entities_none.mp here row mem)
  | some other =>
    obtain ⟨mem', same⟩ := entities_some here
    exact congrArg some (List.inj_on_of_nodup_map keyed mem' mem same)

theorem entities_insert (d : Database) (entity : User) :
    entities (d.insert entity) =
      Function.update (entities d) d.nextId (some { entity with id := d.nextId }) := by
  have fresh : entities d d.nextId = none :=
    entities_none.mpr fun row mem => Int.ne_of_lt (d.fresh row mem)
  funext id
  have split : entities (d.insert entity) id = (entities d id).or
      (([{ entity with id := d.nextId }] : List User).find? (·.id = id)) := by
    simp only [entities, Database.insert_rows, List.find?_append]
  rw [split]
  by_cases same : id = d.nextId
  · rw [same, fresh, Function.update_self]
    simp
  · rw [Function.update_of_ne same]
    simp [Ne.symm same]

theorem entities_replace {entity : User} (here : ∃ row ∈ d.rows, row.id = entity.id) :
    entities (d.replace entity) = Function.update (entities d) entity.id (some entity) := by
  let alter := fun row : User => if row.id = entity.id then entity else row
  have kept : ∀ row, (alter row).id = row.id := by
    intro row
    simp only [alter]
    split_ifs with same
    · exact same.symm
    · rfl
  funext id
  have mapped : entities (d.replace entity) id = (entities d id).map alter := by
    change (d.rows.map alter).find? _ = _
    rw [List.find?_map]
    simp only [Function.comp_def, kept]
    rfl
  rw [mapped]
  cases found : entities d id with
  | none =>
    have other : id ≠ entity.id := by
      rintro rfl
      obtain ⟨row, mem, same⟩ := here
      exact entities_none.mp found row mem same
    rw [Function.update_of_ne other, found]
    rfl
  | some row =>
    obtain ⟨-, rfl⟩ := entities_some found
    simp only [Option.map_some, alter]
    split_ifs with same
    · rw [same, Function.update_self]
    · rw [Function.update_of_ne same, found]

theorem entities_erase (d : Database) (id : Int) :
    entities (d.erase id) = Function.update (entities d) id none := by
  funext i
  by_cases same : i = id
  · rw [same, Function.update_self]
    exact entities_none.mpr fun row mem => by simpa using List.of_mem_filter mem
  · rw [Function.update_of_ne same]
    change (d.rows.filter (·.id ≠ id)).find? (·.id = i) = d.rows.find? (·.id = i)
    rw [List.find?_filter]
    congr 1
    funext row
    by_cases here : row.id = i
    · simp [here, same]
    · simp [here]

end Ccfolio.PrimaryKeys
