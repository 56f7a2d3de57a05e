import Ccfolio.SequentialAnswers

/-! The table under any interleaving of requests: it is what its history says,
row by row, and every row was put there by a registration, from the body of its
own request. -/

namespace Ccfolio.TableHistory

open Utf8 StdText JsonValue Odb Programs Traces Scripts Pools Histories Calls LogService Http
  Repositories PasswordHelper JwtHelper UserService Controllers Minting RequestScripts
  TokenProvenance SequentialAnswers

/-- What a registration has drawn and digested when it inserts a row. -/
def Registering (dep : Deployment) (req : HttpRequest) (tr : Trace) (user : User) : Prop :=
  posts "/user/create" req ∧
    ∃ (password : Bytes) (salt : Fin 16 → UInt8) (raw : Fin 32 → UInt8),
      credentials dep req.body = .ok (user.username, password) ∧
      ⟨.randomBytes 16, .ok salt⟩ ∈ tr ∧
      ⟨.argon2iHashRaw ⟨2, 1 <<< 16, 1⟩ password (List.ofFn salt) 32, some raw⟩ ∈ tr ∧
      user = newUser user.username (Utility.toHexString (List.ofFn raw)) (List.ofFn salt)

/-- What a change of the table requires of the calls before it. -/
def Justified (dep : Deployment) (req : HttpRequest) (tr : Trace) (e : Event Reply) : Prop :=
  match e.1 with
  | .transaction (.persist user) => Registering dep req tr user
  | .transaction (.update _) | .transaction (.erase _) => False
  | _ => True

def Stored (tr : Trace) : Prop :=
  ∃ user stored, ⟨.transaction (.persist user), .ok stored⟩ ∈ tr

theorem Stored.later {tr tr' : Trace} (h : Stored tr) (longer : tr <+: tr') : Stored tr' := by
  obtain ⟨user, stored, mem⟩ := h
  exact ⟨user, stored, longer.subset mem⟩

theorem length_filterMap_le_one {X K B : Type} {key : X → K} {f : X → Option B} {k : K}
    {l : List X} (distinct : (l.map key).Nodup) (only : ∀ x b, f x = some b → key x = k) :
    (l.filterMap f).length ≤ 1 := by
  induction l with
  | nil => simp
  | cons x l ih =>
    rw [List.map_cons, List.nodup_cons] at distinct
    cases found : f x with
    | none =>
      rw [List.filterMap_cons_none found]
      exact ih distinct.2
    | some b =>
      have none : l.filterMap f = [] := by
        refine List.filterMap_eq_nil_iff.mpr fun y mem => ?_
        cases found' : f y with
        | none => rfl
        | some b' =>
          have same := (only y b' found').trans (only x b found).symm
          exact absurd (same ▸ List.mem_map_of_mem mem) distinct.1
      rw [List.filterMap_cons_some found, none]
      simp

section Functions

variable {τ α : Type} {dep : Deployment} {req : HttpRequest} {t : τ} {tr : Trace}

abbrev justifies (dep : Deployment) (req : HttpRequest) (x : App τ α) (t : τ) (tr : Trace)
    (Q : Except Exception α → τ → Trace → Prop) : Prop :=
  meets (fun _ => True) (Justified dep req) x t tr Q

theorem justifies_of_keep (frame : Frame) {script : List Kind} {x : App τ α}
    (h : Keep frame script x x) (reads : ∀ k ∈ script, k ≠ .persist ∧ k ≠ .update ∧ k ≠ .erase)
    {Q : Except Exception α → τ → Trace → Prop}
    (any : ∀ out t' tr', frame.allows t t' → tr <+: tr' → Q out t' tr') :
    justifies dep req x t tr Q := by
  have each : ∀ (tr : Trace) (e : Event Reply), silent e.1 = true ∨ kindOf e.1 ∈ script →
      Justified dep req tr e := by
    rintro tr ⟨c, r⟩ listed
    cases c with
    | transaction t =>
      have known := reads _ (listed.resolve_left Bool.false_ne_true)
      cases t with
      | persist => exact absurd rfl known.1
      | update => exact absurd rfl known.2.1
      | erase => exact absurd rfl known.2.2
      | _ => trivial
    | _ => trivial
  have whole : justifies dep req x t tr fun _ t' _ => frame.allows t t' :=
    wp_mono _ _ (fun _ _ ⟨_, same⟩ => same.2.2) ((h t).wp silent_answered each tr)
  exact meets_mono (fun out t' tr' done => any out t' tr' done.1 done.2) (meets_extends whole)

theorem justifies_logThen {level : LogLevel} {message : Bytes} {site : Site} {x : App τ α}
    {Q : Except Exception α → τ → Trace → Prop} (rest : ∀ tr', justifies dep req x t tr' Q)
    (thrown : ∀ e tr', Q (.error e) t tr') :
    justifies dep req (do
      log dep level message site
      x) t tr Q := by
  refine meets_bind.mpr (justifies_of_keep .still (keep_log dep level rfl site) nofun
    fun out t' tr' still _ => ?_)
  rw [still rfl]
  cases out with
  | ok => exact rest tr'
  | error e => exact thrown e tr'

theorem justifies_generateRandomSalt (length : Nat) :
    justifies dep req (generateRandomSalt dep length : App τ _) t tr fun out _ tr' =>
      ∀ salt, out = .ok salt → ∃ s : Fin length → UInt8, salt = List.ofFn s ∧
        ⟨.randomBytes length, .ok s⟩ ∈ tr' := by
  refine meets_tryCatch.mpr (meets_bind.mpr (meets_perform.mpr fun r _ => ⟨trivial, ?_⟩))
  refine meets_bind.mpr (meets_ofExcept.mpr ?_)
  cases r with
  | ok s =>
    refine meets_pure.mpr fun salt eq => ⟨s, (Except.ok.inj eq).symm, ?_⟩
    exact List.mem_append_right _ (List.mem_singleton_self _)
  | error e =>
    refine justifies_logThen (fun _ => meets_throw.mpr ?_) fun e _ => ?_
    · rintro salt ⟨⟩
    · rintro salt ⟨⟩

def Digested (password : Bytes) (tr : Trace) (hashedPassword : Bytes) (salt : List UInt8) : Prop :=
  ∃ (s : Fin 16 → UInt8) (raw : Fin 32 → UInt8), salt = List.ofFn s ∧
    hashedPassword = Utility.toHexString (List.ofFn raw) ∧ ⟨.randomBytes 16, .ok s⟩ ∈ tr ∧
    ⟨.argon2iHashRaw ⟨2, 1 <<< 16, 1⟩ password (List.ofFn s) 32, some raw⟩ ∈ tr

theorem Digested.later {password hashedPassword : Bytes} {salt : List UInt8} {tr' : Trace}
    (h : Digested password tr hashedPassword salt) (longer : tr <+: tr') :
    Digested password tr' hashedPassword salt := by
  obtain ⟨s, raw, salted, hashed, drawn, digest⟩ := h
  exact ⟨s, raw, salted, hashed, longer.subset drawn, longer.subset digest⟩

theorem justifies_hashPasswordWithArgon2 (password : Bytes) :
    justifies dep req (hashPasswordWithArgon2 dep password : App τ _) t tr fun out _ tr' =>
      ∀ hashedPassword salt, out = .ok (hashedPassword, salt) →
        Digested password tr' hashedPassword salt := by
  refine meets_tryCatch.mpr (meets_bind.mpr (meets_mono (fun out t' tr' drawn => ?_)
    (justifies_generateRandomSalt 16)))
  cases out with
  | error e => exact justifies_logThen (fun _ => meets_throw.mpr nofun) fun _ _ => nofun
  | ok salt =>
    obtain ⟨s, rfl, mem⟩ := drawn salt rfl
    refine meets_bind.mpr (meets_perform.mpr fun r _ => ⟨trivial, ?_⟩)
    cases r with
    | none =>
      refine meets_throw.mpr ?_
      exact justifies_logThen (fun _ => meets_throw.mpr nofun) fun _ _ => nofun
    | some raw =>
      refine meets_pure.mpr fun hashedPassword salt eq => ?_
      obtain ⟨rfl, rfl⟩ := Prod.mk.inj (Except.ok.inj eq)
      exact ⟨s, raw, rfl, rfl, List.mem_append_left _ mem,
        List.mem_append_right _ (List.mem_singleton_self _)⟩

theorem justifies_create {user : User} (allowed : Registering dep req tr user) :
    justifies dep req (create dep user : App τ _) t tr fun out _ tr' =>
      ∀ b, out = .ok (.successResult b) → Stored tr' := by
  refine meets_tryCatch.mpr (meets_bind.mpr (meets_perform.mpr fun r _ => ⟨allowed, ?_⟩))
  refine meets_bind.mpr (meets_ofExcept.mpr ?_)
  cases r with
  | ok stored => exact meets_pure.mpr fun _ _ => ⟨user, stored, by simp⟩
  | error e => exact justifies_logThen (fun _ => meets_pure.mpr nofun) fun _ _ => nofun

theorem justifies_createUser {user : User}
    (allowed : ∀ tr', tr <+: tr' → Registering dep req tr' user) :
    justifies dep req (Repositories.createUser dep user : App τ _) t tr fun out _ tr' =>
      ∀ u, out = .ok (.successResult u) → Stored tr' := by
  refine meets_tryCatch.mpr (meets_mono (Q := fun out _ tr' =>
    ∀ u, out = .ok (.successResult u) → Stored tr') (fun out t' tr' done => ?_) (meets_bind.mpr ?_))
  · cases out with
    | ok r => exact done
    | error e =>
      simp only
      split
      · exact justifies_logThen (fun _ => meets_pure.mpr nofun) fun _ _ => nofun
      · exact meets_throw.mpr nofun
  · refine justifies_of_keep .free (keep_getUserByUsername dep user.username)
      (by decide) fun out t' tr' _ longer => ?_
    rcases out with e | found | message
    · exact nofun
    · exact meets_pure.mpr nofun
    · refine meets_bind.mpr (meets_mono (fun out _ _ created => ?_)
        (justifies_create (allowed tr' longer)))
      rcases out with e | b | message
      · exact nofun
      · exact meets_pure.mpr fun _ _ => created b rfl
      · exact meets_pure.mpr nofun

theorem justifies_service_createUser (route : posts "/user/create" req) :
    justifies dep req (UserService.createUser dep req.body : App τ _) t tr fun out _ tr' =>
      ∀ response, out = .ok response → response.isSuccess = true → Stored tr' := by
  unfold UserService.createUser
  refine meets_tryCatch.mpr (meets_mono (Q := fun out _ tr' =>
    ∀ response, out = .ok response → response.isSuccess = true → Stored tr')
    (fun out t' tr' done => ?_) (meets_credentials
      (fun username password asked => ?_) fun e => ?_))
  · cases out with
    | ok response => exact done
    | error e =>
      have caught : ∀ (site : Site) (message : Bytes), justifies dep req (do
          log dep .ERROR e.what site
          pure (.failure message) : App τ (ResponseDto UserDto)) t' tr' fun out _ tr' =>
            ∀ response, out = .ok response → response.isSuccess = true → Stored tr' := by
        refine fun site message => justifies_logThen (fun _ => meets_pure.mpr ?_) fun e _ => ?_
        · rintro response ⟨⟩ ⟨⟩
        · rintro response ⟨⟩
      simp only
      split
      · exact caught createJsonSite invalidJson
      · exact caught createStdSite UserService.tryAgainLater
  · refine meets_bind.mpr (meets_mono (fun out t' tr' made => ?_)
      (justifies_hashPasswordWithArgon2 password))
    rcases out with e | ⟨hashedPassword, salt⟩
    · rintro response ⟨⟩
    · have digested := made hashedPassword salt rfl
      refine meets_bind.mpr (meets_mono (fun out t' tr' stored => ?_)
        (justifies_createUser fun tr' longer => ?_))
      · rcases out with e | user | message
        · rintro response ⟨⟩
        · have done := stored user rfl
          refine meets_bind.mpr (justifies_of_keep .free
            (keep_createJWTToken dep username) (by decide)
            fun out t' tr'' _ longer => ?_)
          cases out with
          | error e => rintro response ⟨⟩
          | ok token => exact meets_pure.mpr fun _ _ _ => done.later longer
        · refine meets_bind.mpr (meets_ofExcept.mpr ?_)
          refine justifies_logThen (fun _ => meets_pure.mpr ?_) fun e _ => ?_
          · rintro response ⟨⟩ ⟨⟩
          · rintro response ⟨⟩
      · obtain ⟨s, raw, salted, hashed, drawn, digest⟩ := digested.later longer
        rw [salted, hashed]
        exact ⟨route, password, s, raw, asked, drawn, digest, rfl⟩
  · rintro response ⟨⟩

end Functions

section Routes

variable {dep : Deployment} {req : HttpRequest} {res : HttpResponse} {tr : Trace}

/-- A response with status 200 and a content type: the default one has none. -/
def Acknowledges (res : HttpResponse) : Prop := res.result = .ok ∧ res.contentType.isSome = true

theorem justifies_respond {status : Status} {contentType : String} {body : Except Exception Bytes}
    {Q : Except Exception Unit → HttpResponse → Trace → Prop}
    (any : ∀ out res', res'.result = status → Q out res' tr) :
    justifies dep req (respond status contentType body) res tr Q := by
  refine meets_bind.mpr (meets_modify.mpr (meets_bind.mpr (meets_modify.mpr ?_)))
  refine meets_bind.mpr (meets_ofExcept.mpr ?_)
  cases body with
  | error e => exact any _ _ rfl
  | ok text => exact meets_bind.mpr (meets_modify.mpr (meets_modify.mpr (any _ _ rfl)))

theorem justifies_handleCreateUser (route : posts "/user/create" req)
    (untyped : res.contentType = none) :
    justifies dep req (handleCreateUser dep req) res tr fun _ res' tr' =>
      Acknowledges res' → Stored tr' := by
  have still : meets (fun _ => True) (fun _ _ => True)
      (UserService.createUser dep req.body : App HttpResponse _) res tr
      fun _ res' _ => res' = res :=
    wp_mono _ _ (fun _ _ ⟨_, same⟩ => same.2.2 rfl)
      ((keep_service_createUser dep req.body : Keep .still createScript _ _) res |>.wp
        silent_answered (fun _ _ _ => trivial) tr)
  have logged : ∀ (e : Exception) (res' : HttpResponse) (tr' : Trace) (site : Site),
      (Acknowledges res' → Stored tr') →
      justifies dep req (log dep .ERROR e.what site : App HttpResponse Unit) res' tr'
        fun _ res'' tr'' => Acknowledges res'' → Stored tr'' :=
    fun e res' tr' site before => justifies_of_keep .still (keep_log dep .ERROR rfl site)
      nofun fun _ res'' _ unchanged longer shown => by
        rw [unchanged rfl] at shown
        exact (before shown).later longer
  refine meets_tryCatch.mpr (meets_bind.mpr (meets_mono (fun out res' tr' done => ?_)
    (meets_and (justifies_service_createUser route) still)))
  obtain ⟨stored, rfl⟩ := done
  cases out with
  | error e =>
    refine logged e res' tr' _ fun shown => ?_
    rw [Acknowledges, untyped] at shown
    cases shown.2
  | ok response =>
    cases success : response.isSuccess with
    | true =>
      simp only [success, if_true]
      refine justifies_respond fun out res'' _ => ?_
      have done := stored response rfl success
      cases out with
      | ok => exact fun _ => done
      | error e => exact logged e res'' tr' _ fun _ => done
    | false =>
      simp only [success, Bool.false_eq_true, if_false]
      refine justifies_respond fun out res'' status => ?_
      have denied : ¬ Acknowledges res'' := fun shown => by
        rw [Acknowledges, status] at shown
        cases shown.1
      cases out with
      | ok => exact fun shown => absurd shown denied
      | error e => exact logged e res'' tr' _ fun shown => absurd shown denied

theorem justifies_handleRequest (req : HttpRequest) :
    justifies dep req (HttpSession.handleRequest (httpRouter dep) req) .default []
      fun _ res' tr' => posts "/user/create" req → Acknowledges res' → Stored tr' := by
  by_cases route : posts "/user/create" req
  · have routes := httpRouter_routes dep req
    have target : req.target = lit "/user/create" := route.2
    rw [if_neg fun other => ?_, if_neg fun other => ?_, if_pos route] at routes
    · refine meets_bind.mpr (meets_modify.mpr (meets_bind.mpr (meets_modify.mpr ?_)))
      simp only [Router.handleRequest, routes]
      refine meets_bind.mpr (meets_bind.mpr (meets_mono (fun out res' tr' done => ?_)
        (justifies_handleCreateUser route rfl)))
      cases out with
      | ok => exact fun _ => done
      | error e => exact fun _ => done
    · exact absurd (target.symm.trans other.2) (by decide)
    · exact absurd (target.symm.trans other.2) (by decide)
  · refine justifies_of_keep .free (keep_handleRequest dep req) ?_ fun _ _ _ _ _ create =>
      absurd create route
    unfold script
    rw [if_neg route]
    split_ifs <;> decide

end Routes

section Run

variable {ι : Type} [DecidableEq ι] {dep : Deployment} {requests : ι → HttpRequest} {d : Database}
  {schedule : List (ι × Surroundings)}

def inserted : Event Reply → Option User
  | ⟨.transaction (.persist _), .ok stored⟩ => some stored
  | _ => none

def storedRow (x : Entry ι Surroundings Database Reply) : Option User := inserted x.event

theorem inserted_some {e : Event Reply} {row : User} (h : inserted e = some row) :
    ∃ user, e = ⟨.transaction (.persist user), .ok row⟩ := by
  unfold inserted at h
  split at h
  next user stored =>
    cases h
    exact ⟨user, rfl⟩
  · cases h

theorem justified {first last : Log ι} {x : Entry ι Surroundings Database Reply}
    (eq : history dep requests d schedule = first ++ x :: last) :
    Justified dep (requests x.who) ((own x.who first).map (·.event)) x.event := by
  have follows := (kept_history dep requests d schedule).follows x.who
  change Follows _ ((own x.who (history dep requests d schedule)).map (·.event)) _ at follows
  have mine : own x.who (x :: last) = x :: own x.who last := by simp [own]
  rw [eq, own_append, mine, List.map_append, List.map_cons] at follows
  obtain ⟨each, -⟩ := wp_sound _ _ follows (justifies_handleRequest (requests x.who))
    fun _ _ => trivial
  exact each _ _ _ rfl

omit [DecidableEq ι] in
theorem rows_of_justified {x : Entry ι Surroundings Database Reply} {tr : Trace} {req : HttpRequest}
    (faithful : x.event.2 = (handle x.scene x.event.1 x.before).1)
    (justified : Justified dep req tr x.event) :
    (handle x.scene x.event.1 x.before).2.rows = x.before.rows ++ (storedRow x).toList := by
  obtain ⟨who, scene, ⟨c, r⟩, before⟩ := x
  simp only at faithful
  subst faithful
  cases c with
  | transaction t =>
    cases t with
    | persist user =>
      change (runTx (scene.faults _) (.persist user) before).2.rows = _ ++ (inserted
        ⟨.transaction (.persist user), (runTx (scene.faults _) (.persist user) before).1⟩).toList
      cases reply : (runTx (scene.faults (.persist user)) (.persist user) before).1 with
      | ok stored =>
        have whole := runTx_persist_ok reply
        rw [whole] at reply ⊢
        cases reply
        rfl
      | error e => exact (runTx_persist_error reply).trans (List.append_nil _).symm
    | load id =>
      change (runTx _ _ _).2.rows = _ ++ []
      rw [runTx_load, List.append_nil]
    | update => exact justified.elim
    | erase => exact justified.elim
    | selectAll =>
      change (runTx _ _ _).2.rows = _ ++ []
      rw [runTx_selectAll, List.append_nil]
    | selectByUsername username =>
      change (runTx _ _ _).2.rows = _ ++ []
      rw [runTx_select_database, List.append_nil]
  | _ => exact (List.append_nil _).symm

omit [DecidableEq ι] in
theorem rows_of_linked {log : Log ι} {d d' : Database}
    (linked : Linked (fun _ : ι => handle) d log d')
    (faithful : ∀ x ∈ log, x.event.2 = (handle x.scene x.event.1 x.before).1)
    (justified : ∀ x ∈ log, ∃ tr, Justified dep (requests x.who) tr x.event) :
    d'.rows = d.rows ++ log.filterMap storedRow := by
  induction log generalizing d with
  | nil =>
    obtain rfl : d = d' := linked
    simp
  | cons x log ih =>
    obtain ⟨rfl, rest⟩ := linked
    obtain ⟨tr, allowed⟩ := justified x (List.mem_cons_self ..)
    rw [ih rest (fun y mem => faithful y (List.mem_cons_of_mem _ mem))
      (fun y mem => justified y (List.mem_cons_of_mem _ mem)),
      rows_of_justified (faithful x (List.mem_cons_self ..)) allowed, List.append_assoc]
    congr 1
    cases stored : storedRow x <;> simp [stored]

/-- What is known of a row stored at `x`: its request, its salt and its hash. -/
structure Registered (dep : Deployment) (requests : ι → HttpRequest) (first : Log ι)
    (x : Entry ι Surroundings Database Reply) (row : User) : Prop where
  route : posts "/user/create" (requests x.who)
  identified : row.id = x.before.nextId
  made : ∃ (password : Bytes) (salt : Fin 16 → UInt8) (raw : Fin 32 → UInt8),
    credentials dep (requests x.who).body = .ok (row.username, password) ∧
    row.salt = Utility.toHexString (List.ofFn salt) ∧
    row.passwordHash = Utility.toHexString (List.ofFn raw) ∧
    (∃ y ∈ own x.who first, y.event = ⟨.randomBytes 16, .ok salt⟩) ∧
    ∃ z ∈ own x.who first,
      z.event = ⟨.argon2iHashRaw ⟨2, 1 <<< 16, 1⟩ password (List.ofFn salt) 32, some raw⟩

omit [DecidableEq ι] in
theorem stored_of_faithful {x : Entry ι Surroundings Database Reply} {user row : User}
    (faithful : x.event.2 = (handle x.scene x.event.1 x.before).1)
    (call : x.event = ⟨.transaction (.persist user), .ok row⟩) :
    row = { user with id := x.before.nextId } ∧
      (handle x.scene x.event.1 x.before).2.nextId = x.before.nextId + 1 := by
  rw [call] at faithful ⊢
  have whole := runTx_persist_ok (f := x.scene.faults (.persist user)) faithful.symm
  change _ = (runTx (x.scene.faults (.persist user)) (.persist user) x.before).1 at faithful
  change _ ∧ (runTx (x.scene.faults (.persist user)) (.persist user) x.before).2.nextId = _
  rw [whole] at faithful ⊢
  exact ⟨Except.ok.inj faithful, rfl⟩

theorem registered {first last : Log ι} {x : Entry ι Surroundings Database Reply} {row : User}
    (eq : history dep requests d schedule = first ++ x :: last) (stored : storedRow x = some row) :
    Registered dep requests first x row := by
  obtain ⟨user, call⟩ := inserted_some stored
  have mem : x ∈ history dep requests d schedule := by simp [eq]
  obtain ⟨same, -⟩ := stored_of_faithful
    ((kept_history dep requests d schedule).faithful x mem) call
  have law := justified eq
  rw [Justified, call] at law
  obtain ⟨route, password, salt, raw, asked, drawn, digest, made⟩ := law
  obtain ⟨y, mem_y, event_y⟩ := List.mem_map.mp drawn
  obtain ⟨z, mem_z, event_z⟩ := List.mem_map.mp digest
  have salted : user.salt = Utility.toHexString (List.ofFn salt) := by rw [made, newUser]
  have hashed : user.passwordHash = Utility.toHexString (List.ofFn raw) := by rw [made, newUser]
  rw [same]
  exact ⟨route, rfl, password, salt, raw, asked, salted, hashed, ⟨y, mem_y, event_y⟩, z, mem_z,
    event_z⟩

theorem rows_history :
    (served dep requests d schedule).world.1.rows =
      d.rows ++ (history dep requests d schedule).filterMap storedRow := by
  have each : ∀ x ∈ history dep requests d schedule,
      ∃ tr, Justified dep (requests x.who) tr x.event := fun x mem => by
    obtain ⟨first, last, eq⟩ := List.append_of_mem mem
    exact ⟨_, justified eq⟩
  exact rows_of_linked (linked_run d schedule) (kept_history dep requests d schedule).faithful each

theorem ids_increase :
    ((history dep requests d schedule).filterMap storedRow).Pairwise (fun a b => a.id < b.id) ∧
      ∀ row ∈ (history dep requests d schedule).filterMap storedRow, d.nextId ≤ row.id := by
  have linked : Linked (fun _ : ι => handle) d (history dep requests d schedule) _ :=
    linked_run d schedule
  have faithful := (kept_history dep requests d schedule).faithful
  have keep : ∀ (i : ι) env c (d : Database), d.nextId ≤ (handle env c d).2.nextId :=
    fun _ env c d => nextId_le env c d
  have ordered := linked.pairwise (r := fun d d' => d.nextId ≤ d'.nextId)
    (fun _ => Int.le_refl _) (fun _ _ _ => Int.le_trans) keep
  constructor
  · rw [List.pairwise_filterMap]
    refine ordered.imp_of_mem fun {x y} mem mem' le a stored b stored' => ?_
    obtain ⟨user, call⟩ := inserted_some stored
    obtain ⟨user', call'⟩ := inserted_some stored'
    obtain ⟨rfl, next⟩ := stored_of_faithful (faithful x mem) call
    obtain ⟨rfl, -⟩ := stored_of_faithful (faithful y mem') call'
    rw [next] at le
    exact Int.lt_of_add_one_le le
  · intro row mem
    obtain ⟨x, inside, stored⟩ := List.mem_filterMap.mp mem
    obtain ⟨user, call⟩ := inserted_some stored
    obtain ⟨rfl, -⟩ := stored_of_faithful (faithful x inside) call
    obtain ⟨first, last, eq⟩ := List.append_of_mem inside
    rw [eq] at linked
    obtain ⟨_, upto, rfl, -⟩ := linked_append.mp linked
    exact upto.related (r := fun d d' => d.nextId ≤ d'.nextId) (fun _ => Int.le_refl _)
      (fun _ _ _ => Int.le_trans) keep

theorem stored_once (i : ι) :
    ((own i (history dep requests d schedule)).filterMap storedRow).length ≤ 1 := by
  have distinct := (script_nodup (requests i)).sublist
    (kinds_history dep requests d schedule i)
  have heard : (own i (history dep requests d schedule)).filterMap storedRow =
      (loud i (history dep requests d schedule)).filterMap storedRow := by
    rw [loud, List.filterMap_filter]
    refine List.filterMap_congr fun x _ => ?_
    cases quiet : silent x.event.1 with
    | false => rfl
    | true =>
      cases stored : storedRow x with
      | none => rfl
      | some row =>
        obtain ⟨user, call⟩ := inserted_some stored
        rw [call] at quiet
        cases quiet
  rw [heard]
  refine length_filterMap_le_one (k := Kind.persist) distinct fun x row stored => ?_
  obtain ⟨user, call⟩ := inserted_some stored
  rw [call]
  rfl

theorem stored_of_acknowledged {i : ι} {out : Except Exception Unit} {res : HttpResponse}
    (route : posts "/user/create" (requests i))
    (finished : (served dep requests d schedule).threads i = .ret (out, res))
    (acknowledged : Acknowledges res) :
    ∃ x ∈ history dep requests d schedule, x.who = i ∧ ∃ row, storedRow x = some row := by
  have path := (kept_history dep requests d schedule).follows i
  change Follows _ _ ((served dep requests d schedule).threads i) at path
  rw [finished] at path
  obtain ⟨-, ended⟩ := wp_sound _ _ path (justifies_handleRequest (requests i)) fun _ _ => trivial
  obtain ⟨user, row, mem⟩ := ended route acknowledged
  obtain ⟨x, inside, call⟩ := List.mem_map.mp mem
  obtain ⟨within, here⟩ := List.mem_filter.mp inside
  exact ⟨x, within, of_decide_eq_true here, row, by rw [storedRow, call]; rfl⟩

end Run

/-- The table is the initial one and what the registrations have inserted, each for its own
request. -/
theorem table_is_history {ι : Type} [DecidableEq ι] (dep : Deployment) (requests : ι → HttpRequest)
    (d : Database) (schedule : List (ι × Surroundings)) :
    (served dep requests d schedule).world.1.rows =
        d.rows ++ (history dep requests d schedule).filterMap storedRow ∧
      (∀ first x last row, history dep requests d schedule = first ++ x :: last →
        storedRow x = some row → Registered dep requests first x row) ∧
      ((history dep requests d schedule).filterMap storedRow).Pairwise (fun a b => a.id < b.id) ∧
      (∀ row ∈ (history dep requests d schedule).filterMap storedRow, d.nextId ≤ row.id) ∧
      ∀ i, ((own i (history dep requests d schedule)).filterMap storedRow).length ≤ 1 :=
  ⟨rows_history, fun _ _ _ _ eq stored => registered eq stored, ids_increase.1, ids_increase.2,
    stored_once⟩

/-- A registration that has been acknowledged has stored its row for good. -/
theorem acknowledged_stays {ι : Type} [DecidableEq ι] (dep : Deployment)
    (requests : ι → HttpRequest) (d : Database) (before : List (ι × Surroundings)) (i : ι)
    (out : Except Exception Unit) (res : HttpResponse) (route : posts "/user/create" (requests i))
    (finished : (served dep requests d before).threads i = .ret (out, res))
    (acknowledged : Acknowledges res) :
    ∃ first x last row, history dep requests d before = first ++ x :: last ∧ x.who = i ∧
      storedRow x = some row ∧ Registered dep requests first x row ∧
      ∀ after, row ∈ (served dep requests d (before ++ after)).world.1.rows := by
  obtain ⟨x, within, who, row, stored⟩ := stored_of_acknowledged route finished acknowledged
  obtain ⟨first, last, eq⟩ := List.append_of_mem within
  refine ⟨first, x, last, row, eq, who, stored, registered eq stored, fun after => ?_⟩
  rw [rows_history]
  refine List.mem_append_right _ (List.mem_filterMap.mpr ⟨x, ?_, stored⟩)
  exact (history_grows _ before after).subset within

theorem acknowledged_stays_ann : ∃ first x last row,
    history CredentialMap.reading annRivals .empty annTurns = first ++ x :: last ∧ x.who = 1 ∧
      storedRow x = some row ∧ Registered CredentialMap.reading annRivals first x row ∧
      ∀ after, row ∈ (served CredentialMap.reading annRivals .empty
        (annTurns ++ after)).world.1.rows :=
  acknowledged_stays CredentialMap.reading annRivals .empty annTurns 1 (.ok ()) annGreeted
    ⟨rfl, rfl⟩ annCrossed ⟨rfl, rfl⟩

end Ccfolio.TableHistory
