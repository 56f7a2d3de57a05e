import Ccfolio.CredentialMap

/-! Whether a registered username can be taken over when transactions fail. The
repository reports a lookup that failed as it reports one that found nothing,
so a failed check lets a second row in. -/

namespace Ccfolio.Takeover

open Utf8 StdText JsonValue Odb Programs Transitions Calls LogService Repositories PasswordHelper
  JwtHelper UserService CredentialMap

variable (dep : Deployment) (A : Digest)

/-- Transactions may fail anywhere; the digest, where there is one, is the same
function throughout, and signing succeeds. -/
structure Steady (env : Surroundings) : Prop where
  agrees : ∀ password salt raw,
    env.argon2i ⟨2, 1 <<< 16, 1⟩ password salt 32 = some raw → List.ofFn raw = A password salt
  signs : ∀ claims, ∃ token, env.sign dep.secretKey claims = .ok token

/-- The digest of the password under the salt of the row is the row's hash. -/
def Opens (password : Bytes) (row : User) : Prop :=
  ∃ salt, Utility.fromHexString row.salt = .ok salt ∧
    Utility.toHexString (A password salt) = row.passwordHash

/-- A success for a registered username was had with the password of its first
row, and no registration of it succeeds. -/
def NoTakeover (d : Database) (r : Request × Surroundings) : Prop :=
  (∀ u token, (serve dep d r).1 = .ok (.success ⟨u, token⟩) →
    ∀ first, (d.withUsername u).head? = some first →
      ∃ password, credentials dep r.1.body = .ok (u, password) ∧ Opens A password first) ∧
  (∀ body u password, r.1 = .createUser body → credentials dep body = .ok (u, password) →
    u ∈ d.usernames → ∀ data, (serve dep d r).1 ≠ .ok (.success data))

/-- A registration of a username already in the table, whose lookup fails with
an exception that can be logged while its insert commits. -/
def FailedCheck (d : Database) (r : Request × Surroundings) : Prop :=
  ∃ body u password hashedPassword salt e, r.1 = .createUser body ∧
    credentials dep body = .ok (u, password) ∧ u ∈ d.usernames ∧
    hashOutcome dep r.2 password = .ok (hashedPassword, salt) ∧
    (runTx (r.2.faults (.selectByUsername u)) (.selectByUsername u) d).1 = .error e ∧
    isUtf8 e.what = true ∧
    (runTx (r.2.faults (.persist (newUser u hashedPassword salt)))
      (.persist (newUser u hashedPassword salt)) d).1.isOk = true

variable {dep A} {env : Surroundings} {d : Database}

theorem proceeds_known {u : Bytes} (known : u ∈ d.usernames) :
    proceeds dep env d u = true ↔
      ∃ e, (runTx (env.faults (.selectByUsername u)) (.selectByUsername u) d).1 = .error e ∧
        isUtf8 e.what = true := by
  rw [proceeds_iff]
  refine or_iff_right fun missed => ?_
  exact Database.withUsername_eq_nil.mp (runTx_select_none missed) known

theorem failedCheck_iff {body : Bytes} :
    FailedCheck dep d (.createUser body, env) ↔
      ∃ user, enters dep env d body = some user ∧ user.username ∈ d.usernames := by
  constructor
  · rintro ⟨_, u, password, hashedPassword, salt, e, same, asked, known, hashed, thrown, utf8,
      committed⟩
    cases same
    have goesOn : proceeds dep env d u = true := (proceeds_known known).mpr ⟨e, thrown, utf8⟩
    exact ⟨newUser u hashedPassword salt,
      (enters_iff dep env d).mpr ⟨u, password, hashedPassword, salt, asked, hashed,
        Bool.and_eq_true_iff.mpr ⟨goesOn, committed⟩, rfl⟩, known⟩
  · rintro ⟨user, entered, known⟩
    obtain ⟨u, password, hashedPassword, salt, asked, hashed, stored, rfl⟩ :=
      (enters_iff dep env d).mp entered
    obtain ⟨goesOn, committed⟩ := Bool.and_eq_true_iff.mp stored
    obtain ⟨e, thrown, utf8⟩ := (proceeds_known known).mp goesOn
    exact ⟨body, u, password, hashedPassword, salt, e, rfl, asked, known, hashed, thrown, utf8,
      committed⟩

theorem rows_of_enters (body : Bytes) :
    (next dep d (.createUser body, env)).usernames =
      d.usernames ++ ((enters dep env d body).map (·.username)).toList := by
  have table := registerOutcome_rows dep env d body
  rw [next, serve_createUser]
  unfold Database.usernames
  rw [table]
  cases enters dep env d body <;> simp

theorem distinct_next (distinct : d.usernames.Nodup) (r : Request × Surroundings)
    (ok : ¬ FailedCheck dep d r) : (next dep d r).usernames.Nodup := by
  obtain ⟨request, env⟩ := r
  cases request with
  | userLogin body =>
    rw [next, serve_userLogin]
    exact distinct
  | createUser body =>
    rw [failedCheck_iff] at ok
    rw [rows_of_enters]
    cases entered : enters dep env d body with
    | none => simpa using distinct
    | some user =>
      refine List.nodup_append.mpr ⟨distinct, by simp, fun u old w new same => ?_⟩
      have named : w = user.username := by simpa using new
      exact ok ⟨user, entered, named ▸ same ▸ old⟩

theorem admits_opens (steady : Steady dep A env) {body : Bytes} {user : User}
    (admitted : admits dep env d body = some user) :
    user ∈ d.rows ∧ ∃ password, credentials dep body = .ok (user.username, password) ∧
      Opens A password user := by
  unfold admits at admitted
  split at admitted
  · cases admitted
  next u password asked =>
    split at admitted
    next row found =>
      split at admitted
      next verified =>
        cases admitted
        obtain ⟨mem, rfl⟩ := runTx_select_some found
        refine ⟨mem, password, asked, ?_⟩
        obtain ⟨salt, raw, decoded, digest, same⟩ := verifyOutcome_true dep env verified
        rw [steady.agrees _ _ _ digest] at same
        exact ⟨salt, decoded, same⟩
      · cases admitted
    · cases admitted

theorem granted_of_success {garbled : Bool} {grant : Option User}
    {x : Except Exception (ResponseDto UserDto)} (settled : settles dep env garbled grant x)
    {data : UserDto} (success : x = .ok (.success data)) :
    ∃ user, grant = some user ∧ user.username = data.username := by
  rcases settled with ⟨user, token, granted, -, rfl, -⟩ | ⟨-, bad⟩
  · cases success
    exact ⟨user, granted, rfl⟩
  · rw [success] at bad
    obtain ⟨-, message, failure, -⟩ := bad
    cases failure

theorem username_of_enters {body u password : Bytes} {user : User}
    (asked : credentials dep body = .ok (u, password))
    (entered : enters dep env d body = some user) : user.username = u := by
  obtain ⟨u', password', -, -, asked', -, -, rfl⟩ := (enters_iff dep env d).mp entered
  rw [asked] at asked'
  cases asked'
  rfl

theorem noTakeover_of_checked {r : Request × Surroundings} (steady : Steady dep A r.2)
    (distinct : d.usernames.Nodup) (ok : ¬ FailedCheck dep d r) : NoTakeover dep A d r := by
  obtain ⟨request, env⟩ := r
  cases request with
  | createUser body =>
    rw [failedCheck_iff] at ok
    have entered : ∀ {data}, (serve dep d (.createUser body, env)).1 = .ok (.success data) →
        ∃ user, enters dep env d body = some user ∧ user.username = data.username := by
      intro data success
      rw [serve_createUser] at success
      exact granted_of_success (registerOutcome_settles dep env d body) success
    refine ⟨fun u token success first old => ?_,
      fun _ u password same asked known data success => ?_⟩
    · obtain ⟨user, enter, named⟩ := entered success
      have known := Database.mem_withUsername.mp (List.mem_of_head? old)
      have mem : first.username ∈ d.usernames := List.mem_map_of_mem known.1
      exact absurd ⟨user, enter, by rwa [named, ← known.2]⟩ ok
    · cases same
      obtain ⟨user, enter, -⟩ := entered success
      exact ok ⟨user, enter, username_of_enters asked enter ▸ known⟩
  | userLogin body =>
    refine ⟨fun u token success first old => ?_, nofun⟩
    rw [serve_userLogin] at success
    obtain ⟨user, admitted, rfl⟩ :=
      granted_of_success (loginOutcome_settles dep env d body) success
    obtain ⟨mem, password, asked, opens⟩ := admits_opens steady admitted
    obtain ⟨mem', named⟩ := Database.mem_withUsername.mp (List.mem_of_head? old)
    obtain rfl := Database.row_unique distinct mem' mem named
    exact ⟨password, asked, opens⟩

theorem checked_of_noTakeover {r : Request × Surroundings} (steady : Steady dep A r.2)
    (safe : NoTakeover dep A d r) : ¬ FailedCheck dep d r := by
  obtain ⟨request, env⟩ := r
  intro failed
  obtain ⟨body, u, password, -, -, -, same, asked, known, -⟩ := id failed
  cases same
  obtain ⟨user, entered, -⟩ := failedCheck_iff.mp failed
  have settled := registerOutcome_settles dep env d body
  rw [entered] at settled
  rcases settled with ⟨user', token, granted, -, success, -⟩ | ⟨refused, -⟩
  · refine safe.2 body u password rfl asked known ⟨user'.username, token⟩ ?_
    rw [serve_createUser]
    exact success
  · obtain ⟨token, signed⟩ := steady.signs (mintClaims dep user.username env.now)
    exact refused user token.val rfl ((tokenOutcome_ok dep env).mpr ⟨token, signed, rfl⟩)

/-- A registered username is taken over exactly through a registration whose check failed. -/
theorem no_takeover_iff (dep : Deployment) (A : Digest) (requests : List (Request × Surroundings))
    (steady : ∀ r ∈ requests, Steady dep A r.2) :
    Guarded (next dep) (NoTakeover dep A) .empty requests ↔
      Guarded (next dep) (fun d r => ¬ FailedCheck dep d r) .empty requests := by
  constructor
  · intro safe
    exact guarded_of_invariant _ _ (I := fun _ => True) (fun _ _ _ _ => trivial)
      (fun _ _ _ ok => checked_of_noTakeover ok.2 ok.1) trivial (guarded_and _ _ steady safe)
  · intro checked
    exact guarded_of_invariant _ _ (I := fun d => d.usernames.Nodup)
      (fun _ r distinct ok => distinct_next distinct r ok.1)
      (fun _ _ distinct ok => noTakeover_of_checked ok.2 distinct ok.1) List.nodup_nil
      (guarded_and _ _ steady checked)

def lookupDown : Surroundings :=
  { Surroundings.calm with
    faults := fun t => match t with
      | .selectByUsername _ =>
          { Faults.none .asStored with atBegin := some ⟨.odb, lit "connection lost"⟩ }
      | _ => .none .asStored }

theorem steady_calm (dep : Deployment) : Steady dep calmDigest .calm where
  agrees _ _ raw same := by
    cases same
    rfl
  signs _ := ⟨_, rfl⟩

theorem steady_lookupDown (dep : Deployment) : Steady dep calmDigest lookupDown where
  agrees _ _ raw same := by
    cases same
    rfl
  signs _ := ⟨_, rfl⟩

theorem no_takeover_ann :
    Guarded (next reading) (NoTakeover reading calmDigest) .empty
        [(.createUser (annText "first"), .calm), (.userLogin (annText "second"), lookupDown)] ↔
      Guarded (next reading) (fun d r => ¬ FailedCheck reading d r) .empty
        [(.createUser (annText "first"), .calm), (.userLogin (annText "second"), lookupDown)] :=
  no_takeover_iff reading calmDigest _ (by
    simp only [List.forall_mem_cons]
    exact ⟨steady_calm _, steady_lookupDown _, nofun⟩)

theorem takeover :
    ¬ Guarded (next reading) (NoTakeover reading calmDigest) .empty
      [(.createUser (annText "first"), .calm), (.createUser (annText "second"), lookupDown)] := by
  rintro ⟨-, ⟨-, refused⟩, -⟩
  refine refused (annText "second") (lit "ann") (lit "second") rfl ?_ ?_
    ⟨lit "ann", lit "aGVhZGVy.cGF5bG9hZA.c2ln"⟩ ?_
  · decide
  · decide
  · decide

end Ccfolio.Takeover
