import Ccfolio.RequestScripts
import Ccfolio.TokenProvenance

/-! Requests in any interleaving, each answered as it would be on its own: the
response is the one a single run of the handler makes, on the table that one of
its transactions found and in surroundings put together from its turns. -/

namespace Ccfolio.SequentialAnswers

open Utf8 StdText Odb Programs Traces Scripts Pools Histories Calls LogService Http Controllers
  RequestScripts TokenProvenance

/-- For each kind of call, the surroundings it was made in. -/
def mix (scene : Kind → Surroundings) : Surroundings where
  faults t := (scene (txKind t)).faults t
  randomBytes := (scene .randomBytes).randomBytes
  argon2i := (scene .argon2iHashRaw).argon2i
  now := (scene .systemClock).now
  localTime := (scene .localTime).localTime
  sign := (scene .sign).sign
  verify := (scene .verify).verify

theorem handle_mix (scene : Kind → Surroundings) (c : Call) (d : Database) :
    handle (mix scene) c d = handle (scene (kindOf c)) c d := by
  cases c <;> rfl

namespace Kind

/-- The call is no transaction: its reply does not depend on the table. -/
def free : Kind → Bool
  | .persist | .load | .update | .erase | .selectAll | .selectByUsername => false
  | _ => true

def Before (k k' : Kind) : Prop := k ≠ .persist ∨ free k' = true

instance (k k' : Kind) : Decidable (Before k k') := inferInstanceAs (Decidable (_ ∨ _))

end Kind

section Script

variable (req : HttpRequest)

theorem script_nodup : (script req).Nodup := by
  unfold script
  split_ifs <;> decide

theorem script_before : (script req).Pairwise Kind.Before := by
  unfold script
  split_ifs <;> decide

theorem script_known : ∀ k ∈ script req, k = .selectByUsername ∨ k = .persist ∨ Kind.free k := by
  unfold script
  split_ifs <;> decide

end Script

section Tables

variable (env : Surroundings)

theorem free_eq_false {c : Call} : Kind.free (kindOf c) = false ↔ ∃ t, c = .transaction t := by
  cases c with
  | transaction t => cases t <;> exact ⟨fun _ => ⟨_, rfl⟩, fun _ => rfl⟩
  | _ => exact ⟨nofun, nofun⟩

theorem reply_free {c : Call} (free : Kind.free (kindOf c) = true) (d d' : Database) :
    (handle env c d').1 = (handle env c d).1 := by
  cases c with
  | transaction t => cases t <;> cases free
  | _ => rfl

theorem handle_free {c : Call} (free : Kind.free (kindOf c) = true) (d : Database) :
    (handle env c d).2 = d := by
  cases c with
  | transaction t => cases t <;> cases free
  | _ => rfl

theorem reply_of_known {c : Call} {d d' : Database}
    (known : kindOf c = .selectByUsername ∨ kindOf c = .persist ∨ Kind.free (kindOf c) = true)
    (rows : kindOf c = .selectByUsername → d'.rows = d.rows)
    (nextId : kindOf c = .persist → d'.nextId = d.nextId) :
    (handle env c d').1 = (handle env c d).1 := by
  rcases known with look | insert | free
  · cases c with
    | transaction t =>
      cases t with
      | selectByUsername username =>
        change (runTx _ _ d').1 = (runTx _ _ d).1
        rw [runTx_selectByUsername, runTx_selectByUsername, Database.withUsername, rows look]
        rfl
      | _ => cases look
    | _ => cases look
  · cases c with
    | transaction t =>
      cases t with
      | persist entity =>
        change (runTx _ _ d').1 = (runTx _ _ d).1
        rw [runTx_persist, runTx_persist, nextId insert]
        rcases env.faults (.persist entity) with ⟨_ | b, _ | s, i, _ | c, k⟩ <;> rfl
      | _ => cases insert
    | _ => cases insert
  · exact reply_free env free d d'

theorem database_of_known {c : Call} (d : Database)
    (known : kindOf c = .selectByUsername ∨ kindOf c = .persist ∨ Kind.free (kindOf c) = true)
    (reads : kindOf c ≠ .persist) : (handle env c d).2 = d := by
  rcases known with look | insert | free
  · cases c with
    | transaction t =>
      cases t with
      | selectByUsername username => exact runTx_select_database ..
      | _ => cases look
    | _ => cases look
  · exact absurd insert reads
  · exact handle_free env free d

theorem altered_nextId {f : Faults} {d w : Database} {known : Bool} (same : w.nextId = d.nextId) :
    (altered f d w known).2.nextId = d.nextId := by
  unfold altered
  split
  · rfl
  · rfl
  · rfl
  · rfl
  · exact same

theorem nextId_le (c : Call) (d : Database) : d.nextId ≤ (handle env c d).2.nextId := by
  cases c with
  | transaction t =>
    change d.nextId ≤ (runTx (env.faults t) t d).2.nextId
    have one : d.nextId ≤ d.nextId + 1 := by omega
    cases t with
    | persist entity =>
      rw [runTx_persist]
      split
      · exact Int.le_refl d.nextId
      · exact Int.le_refl d.nextId
      · exact one
      · exact one
    | load id => exact Int.le_of_eq (by rw [runTx_load])
    | update entity =>
      rw [runTx_update]
      exact Int.le_of_eq (altered_nextId (d := d) (w := d.replace entity) rfl).symm
    | erase id =>
      rw [runTx_erase]
      exact Int.le_of_eq (altered_nextId (d := d) (w := d.erase id) rfl).symm
    | selectAll => exact Int.le_of_eq (by rw [runTx_selectAll])
    | selectByUsername username => exact Int.le_of_eq (by rw [runTx_select_database])
  | _ => exact Int.le_refl d.nextId

end Tables

section Run

variable {ι : Type} [DecidableEq ι] (dep : Deployment) (requests : ι → HttpRequest) (d : Database)
  (schedule : List (ι × Surroundings))

def served : Pool ι Reply (Except Exception Unit × HttpResponse) (Database × Log ι) :=
  runPool silent (record fun _ => handle) ⟨(d, []), fun i => serving dep (requests i)⟩ schedule

/-- The calls of a request that others can tell the place of. -/
def loud (i : ι) (log : Log ι) : Log ι := (own i log).filter fun x => !silent x.event.1

theorem mem_loud {i : ι} {log : Log ι} {x : Entry ι Surroundings Database Reply} :
    x ∈ loud i log ↔ x ∈ log ∧ x.who = i ∧ silent x.event.1 = false := by
  simp [loud, own, and_assoc, and_comm]

/-- Others can tell the place of a transaction. -/
theorem loud_of_bound {i : ι} {log : Log ι} {x : Entry ι Surroundings Database Reply}
    (inside : x ∈ log) (who : x.who = i) (bound : Kind.free (kindOf x.event.1) = false) :
    x ∈ loud i log := by
  obtain ⟨t, call⟩ := free_eq_false.mp bound
  exact mem_loud.mpr ⟨inside, who, by rw [call]; rfl⟩

theorem kinds_own (i : ι) (log : Log ι) :
    kinds silent kindOf ((own i log).map (·.event)) =
      (loud i log).map fun x => kindOf x.event.1 := by
  simp [kinds, loud, List.filter_map, Function.comp_def]

theorem kinds_history (i : ι) :
    ((loud i (history dep requests d schedule)).map fun x => kindOf x.event.1).Sublist
      (script (requests i)) := by
  rw [← kinds_own]
  exact kinds_sublist silent_answered (keep_handleRequest dep (requests i) .default)
    ((kept_history dep requests d schedule).follows i)

variable {dep requests d schedule}

theorem ids_ordered (i : ι) :
    (loud i (history dep requests d schedule)).Pairwise fun x y =>
      x.before.nextId ≤ y.before.nextId := by
  have linked : Linked (fun _ : ι => handle) d (history dep requests d schedule) _ :=
    linked_run d schedule
  have ordered := linked.pairwise (r := fun d d' : Database => d.nextId ≤ d'.nextId)
    (fun _ => Int.le_refl _) (fun _ _ _ => Int.le_trans) fun _ env c d => nextId_le env c d
  refine (ordered.sublist (List.filter_sublist.trans List.filter_sublist)).imp fun {x y} le => ?_
  exact Int.le_trans (nextId_le x.scene x.event.1 x.before) le

omit [DecidableEq ι] in
/-- One table that gives a lookup its rows and an insert its id: the initial one
is needed only where there is neither. -/
theorem exists_table {log : Log ι}
    (distinct : (log.map fun x => kindOf x.event.1).Nodup)
    (apart : (log.map fun x => kindOf x.event.1).Pairwise Kind.Before)
    (ordered : log.Pairwise fun x y => x.before.nextId ≤ y.before.nextId) (d : Database) :
    ∃ d' : Database,
      ((∃ x ∈ log, (kindOf x.event.1 = .selectByUsername ∨ kindOf x.event.1 = .persist) ∧
          d'.rows = x.before.rows) ∨
        (∀ x ∈ log, kindOf x.event.1 ≠ .selectByUsername ∧ kindOf x.event.1 ≠ .persist) ∧
          d'.rows = d.rows) ∧
      ∀ x ∈ log, (kindOf x.event.1 = .selectByUsername → d'.rows = x.before.rows) ∧
        (kindOf x.event.1 = .persist → d'.nextId = x.before.nextId) := by
  have single : ∀ x ∈ log, ∀ y ∈ log, kindOf y.event.1 = kindOf x.event.1 → y = x :=
    fun x mem y mem' => List.inj_on_of_nodup_map distinct mem' mem
  by_cases look : ∃ x ∈ log, kindOf x.event.1 = .selectByUsername
  · obtain ⟨x, mem, looks⟩ := look
    by_cases insert : ∃ y ∈ log, kindOf y.event.1 = .persist
    · obtain ⟨y, mem', inserts⟩ := insert
      have later : x.before.nextId ≤ y.before.nextId := by
        obtain ⟨first, last, rfl⟩ := List.append_of_mem mem'
        rw [List.pairwise_append] at ordered
        rcases List.mem_append.mp mem with first | here
        · exact ordered.2.2 x first y (List.mem_cons_self ..)
        · rcases List.mem_cons.mp here with rfl | last
          · exact Int.le_refl _
          · -- an insert is not followed by a lookup
            rw [List.map_append, List.map_cons, List.pairwise_append, List.pairwise_cons] at apart
            have before := apart.2.1.1 _ (List.mem_map_of_mem last)
            rw [looks, inserts] at before
            rcases before with bad | bad
            · exact absurd rfl bad
            · cases bad
      refine ⟨⟨x.before.rows, y.before.nextId, fun row inside => ?_⟩,
        .inl ⟨x, mem, .inl looks, rfl⟩, fun z within => ⟨fun looks' => ?_, fun inserts' => ?_⟩⟩
      · exact Int.lt_of_lt_of_le (x.before.fresh row inside) later
      · rw [single x mem z within (looks'.trans looks.symm)]
      · rw [single y mem' z within (inserts'.trans inserts.symm)]
    · refine ⟨x.before, .inl ⟨x, mem, .inl looks, rfl⟩, fun z within =>
        ⟨fun looks' => ?_, fun inserts => ?_⟩⟩
      · rw [single x mem z within (looks'.trans looks.symm)]
      · exact absurd ⟨z, within, inserts⟩ insert
  · by_cases insert : ∃ y ∈ log, kindOf y.event.1 = .persist
    · obtain ⟨y, mem, inserts⟩ := insert
      refine ⟨y.before, .inl ⟨y, mem, .inr inserts, rfl⟩, fun z within =>
        ⟨fun looks => ?_, fun inserts' => ?_⟩⟩
      · exact absurd ⟨z, within, looks⟩ look
      · rw [single y mem z within (inserts'.trans inserts.symm)]
    · have neither : ∀ z ∈ log,
          kindOf z.event.1 ≠ .selectByUsername ∧ kindOf z.event.1 ≠ .persist := fun z within =>
        ⟨fun looks => look ⟨z, within, looks⟩, fun inserts => insert ⟨z, within, inserts⟩⟩
      exact ⟨d, .inr ⟨neither, rfl⟩, fun z within =>
        ⟨fun looks => absurd looks (neither z within).1,
          fun inserts => absurd inserts (neither z within).2⟩⟩

theorem explains_history (i : ι) {scene : Kind → Surroundings} {d' : Database}
    (agrees : ∀ x ∈ loud i (history dep requests d schedule),
      scene (kindOf x.event.1) = x.scene)
    (table : ∀ x ∈ loud i (history dep requests d schedule),
      (kindOf x.event.1 = .selectByUsername → d'.rows = x.before.rows) ∧
        (kindOf x.event.1 = .persist → d'.nextId = x.before.nextId)) :
    Explains silent (handle (mix scene)) d'
      ((own i (history dep requests d schedule)).map (·.event)) := by
  have kept := kept_history dep requests d schedule
  have kinds := kinds_history dep requests d schedule i
  have known : ∀ x ∈ loud i (history dep requests d schedule),
      kindOf x.event.1 = .selectByUsername ∨ kindOf x.event.1 = .persist ∨
        Kind.free (kindOf x.event.1) = true :=
    fun x mem => script_known (requests i) _ (kinds.subset (List.mem_map_of_mem mem))
  have filtered : ((own i (history dep requests d schedule)).map (·.event)).filter
      (fun e => !silent e.1) = (loud i (history dep requests d schedule)).map (·.event) := by
    simp [loud, List.filter_map, Function.comp_def]
  refine explains_of_replies (fun e mem shown => ?_) ?_
  · obtain ⟨x, inside, rfl⟩ := List.mem_map.mp mem
    have heard : x ∈ loud i (history dep requests d schedule) :=
      List.mem_filter.mpr ⟨inside, by simp [shown]⟩
    rw [handle_mix, agrees x heard, kept.faithful x (List.mem_of_mem_filter inside)]
    exact reply_of_known x.scene (known x heard) (table x heard).1 (table x heard).2
  · rw [filtered, List.pairwise_map]
    have before := (script_before (requests i)).sublist kinds
    rw [List.pairwise_map] at before
    refine before.imp_of_mem fun {x y} mem _ apart => ?_
    rcases apart with reads | free
    · exact .inl (database_of_known (mix scene) d' (known x mem) reads)
    · exact .inr fun d'' => reply_free (mix scene) free d' d''

/-- The table that request `i` found: with the rows that one of its transactions
met, the lookup if there is one, and the next id that its insert met. The initial
rows are for a request that made no transaction. -/
structure Found (dep : Deployment) (requests : ι → HttpRequest) (d : Database)
    (schedule : List (ι × Surroundings)) (i : ι) (d' : Database) : Prop where
  origin : (∃ x ∈ history dep requests d schedule, x.who = i ∧
      (∃ t, x.event.1 = .transaction t) ∧ d'.rows = x.before.rows) ∨
    (∀ x ∈ history dep requests d schedule, x.who = i → ∀ t, x.event.1 ≠ .transaction t) ∧
      d'.rows = d.rows
  rows : ∀ x ∈ history dep requests d schedule, x.who = i →
    kindOf x.event.1 = .selectByUsername → d'.rows = x.before.rows
  nextId : ∀ x ∈ history dep requests d schedule, x.who = i →
    kindOf x.event.1 = .persist → d'.nextId = x.before.nextId

theorem found_of_loud {i : ι} {d' : Database}
    (origin : (∃ x ∈ loud i (history dep requests d schedule),
        (kindOf x.event.1 = .selectByUsername ∨ kindOf x.event.1 = .persist) ∧
          d'.rows = x.before.rows) ∨
      (∀ x ∈ loud i (history dep requests d schedule),
        kindOf x.event.1 ≠ .selectByUsername ∧ kindOf x.event.1 ≠ .persist) ∧ d'.rows = d.rows)
    (table : ∀ x ∈ loud i (history dep requests d schedule),
      (kindOf x.event.1 = .selectByUsername → d'.rows = x.before.rows) ∧
        (kindOf x.event.1 = .persist → d'.nextId = x.before.nextId)) :
    Found dep requests d schedule i d' := by
  refine ⟨?_, fun x inside who looks => (table x (loud_of_bound inside who (by rw [looks]; rfl))).1
    looks, fun x inside who inserts =>
      (table x (loud_of_bound inside who (by rw [inserts]; rfl))).2 inserts⟩
  rcases origin with ⟨x, mem, kind, eq⟩ | ⟨neither, eq⟩
  · obtain ⟨inside, who, -⟩ := mem_loud.mp mem
    refine .inl ⟨x, inside, who, free_eq_false.mp ?_, eq⟩
    rcases kind with looks | inserts
    · rw [looks]
      rfl
    · rw [inserts]
      rfl
  · refine .inr ⟨fun x inside who t call => ?_, eq⟩
    have bound : Kind.free (kindOf x.event.1) = false := free_eq_false.mpr ⟨t, call⟩
    have mem := loud_of_bound inside who bound
    have kinds := kinds_history dep requests d schedule i
    -- a request looks up and inserts, and makes no other transaction
    rcases script_known (requests i) _ (kinds.subset (List.mem_map_of_mem mem)) with
      looks | inserts | free
    · exact (neither x mem).1 looks
    · exact (neither x mem).2 inserts
    · rw [bound] at free
      cases free

theorem exists_explanation (dep : Deployment) (requests : ι → HttpRequest) (d : Database)
    (schedule : List (ι × Surroundings)) (i : ι) (other : Surroundings) :
    ∃ (scene : Kind → Surroundings) (d' : Database),
      (∀ k, scene k = other ∨ (i, scene k) ∈ schedule) ∧
      (∀ x ∈ history dep requests d schedule, x.who = i → silent x.event.1 = false →
        scene (kindOf x.event.1) = x.scene) ∧
      Found dep requests d schedule i d' ∧
      Explains silent (handle (mix scene)) d'
        ((own i (history dep requests d schedule)).map (·.event)) := by
  have kinds := kinds_history dep requests d schedule i
  have distinct := (script_nodup (requests i)).sublist kinds
  have apart := (script_before (requests i)).sublist kinds
  obtain ⟨d', origin, table⟩ := exists_table distinct apart (ids_ordered i) d
  obtain ⟨scene, agrees, taken⟩ := exists_assignment
    (fun x : Entry ι Surroundings Database Reply => kindOf x.event.1) (·.scene) other distinct
  refine ⟨scene, d', fun k => ?_, fun x inside who shown => agrees x (mem_loud.mpr
    ⟨inside, who, shown⟩), found_of_loud origin table, explains_history i agrees table⟩
  refine (taken k).imp_right fun from_turn => ?_
  obtain ⟨x, mem, eq⟩ := from_turn
  obtain ⟨inside, rfl, -⟩ := mem_loud.mp mem
  rw [eq]
  exact (scenes_run schedule _ x inside).resolve_left List.not_mem_nil

theorem outcome_of_explains {i : ι} {scene : Kind → Surroundings} {d' : Database}
    (explained : Explains silent (handle (mix scene)) d'
      ((own i (history dep requests d schedule)).map (·.event)))
    {out : Except Exception Unit} {res : HttpResponse}
    (finished : (served dep requests d schedule).threads i = .ret (out, res)) :
    SameResult out (run (handle (mix scene))
        (HttpSession.handleRequest (httpRouter dep) (requests i)) .default d').1 ∧
      res = (run (handle (mix scene))
        (HttpSession.handleRequest (httpRouter dep) (requests i)) .default d').2.1 := by
  have path := (kept_history dep requests d schedule).follows i
  change Follows _ _ ((served dep requests d schedule).threads i) at path
  rw [finished] at path
  obtain ⟨same, state, -⟩ := exec_of_explains (h := handle (mix scene))
    (fun c d quiet => by cases c <;> first | rfl | cases quiet)
    (keep_handleRequest dep (requests i) .default) path explained
  exact ⟨same, state⟩

end Run

/-- A request in any interleaving is answered as it would be alone, on a table that it found. -/
theorem answered_alone {ι : Type} [DecidableEq ι] (dep : Deployment) (requests : ι → HttpRequest)
    (d : Database) (schedule : List (ι × Surroundings)) (other : Surroundings) (i : ι)
    (out : Except Exception Unit) (res : HttpResponse)
    (finished : (served dep requests d schedule).threads i = .ret (out, res)) :
    ∃ (scene : Kind → Surroundings) (d' : Database),
      (∀ k, scene k = other ∨ (i, scene k) ∈ schedule) ∧
      (∀ x ∈ history dep requests d schedule, x.who = i → silent x.event.1 = false →
        scene (kindOf x.event.1) = x.scene) ∧
      Found dep requests d schedule i d' ∧
      SameResult out (run (handle (mix scene))
        (HttpSession.handleRequest (httpRouter dep) (requests i)) .default d').1 ∧
      res = (run (handle (mix scene))
        (HttpSession.handleRequest (httpRouter dep) (requests i)) .default d').2.1 := by
  obtain ⟨scene, d', taken, agrees, found, explained⟩ :=
    exists_explanation dep requests d schedule i other
  exact ⟨scene, d', taken, agrees, found, outcome_of_explains explained finished⟩

def annGreeted : HttpResponse :=
  ⟨11, true, .ok, some (lit "application/json"), some 4, false, lit "null"⟩

/-- Two registrations of `ann`, turn by turn: neither lookup finds the other's row. -/
def annRivals (i : Nat) : HttpRequest :=
  ⟨lit "POST", lit "/user/create", 11, true, [],
    CredentialMap.annText (if i = 0 then "first" else "second")⟩

def annTurns : List (Nat × Surroundings) := (List.range 12).map fun n => (n % 2, .calm)

set_option maxRecDepth 4000 in
theorem annCrossed : (served CredentialMap.reading annRivals .empty annTurns).threads 1 =
    .ret (.ok (), annGreeted) := by
  rfl

theorem answered_alone_ann :
    ∃ (scene : Kind → Surroundings) (d' : Database),
      (∀ k, scene k = .calm ∨ (1, scene k) ∈ annTurns) ∧
      (∀ x ∈ history CredentialMap.reading annRivals .empty annTurns, x.who = 1 →
        silent x.event.1 = false → scene (kindOf x.event.1) = x.scene) ∧
      Found CredentialMap.reading annRivals .empty annTurns 1 d' ∧
      SameResult (.ok ()) (run (handle (mix scene)) (HttpSession.handleRequest
        (httpRouter CredentialMap.reading) (annRivals 1)) .default d').1 ∧
      annGreeted = (run (handle (mix scene)) (HttpSession.handleRequest
        (httpRouter CredentialMap.reading) (annRivals 1)) .default d').2.1 :=
  answered_alone CredentialMap.reading annRivals .empty annTurns .calm 1 _ _ annCrossed

end Ccfolio.SequentialAnswers
