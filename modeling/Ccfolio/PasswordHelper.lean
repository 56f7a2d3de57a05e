import Ccfolio.LogService
import Ccfolio.Utility

/-! `PasswordHelper`: salting, hashing and verifying with Argon2. The two
hashing paths are written out twice, as in the sources, each with its own copy
of the cost parameters and of the hex encoder. -/

namespace Ccfolio.PasswordHelper

open Utf8 StdText Odb Programs Calls LogService

def saltSite : Site := ⟨"PasswordHelper.cc", 41, "GenerateRandomSalt", by decide⟩

def hashSite : Site := ⟨"PasswordHelper.cc", 88, "HashPasswordWithArgon2", by decide⟩

def verifyUserSite : Site := ⟨"PasswordHelper.cc", 112, "VerifyUserPassword", by decide⟩

def verifyHashSite : Site := ⟨"PasswordHelper.cc", 161, "VerifyPasswordWithArgon2", by decide⟩

def saltFailed : Exception := runtimeError "Error while trying to generate random salt"

def argon2Failed : Exception := runtimeError "Hashing failed with Argon2"

def hashFailed : Exception := runtimeError "Error while trying to hash password with Argon2"

def verifyUserFailed : Exception := runtimeError "Error while trying to verify user password"

def verifyHashFailed : Exception :=
  runtimeError "Error while trying to verify password with Argon2"

theorem verifyUserFailed_utf8 : isUtf8 verifyUserFailed.what = true := by decide

/-- The stream both hashing functions compare or return the text of: all three
manipulators before each byte. -/
def hexStream (bytes : List UInt8) : OStream :=
  bytes.foldl (fun hexStream byte => ((hexStream.hex.setfill 48).setw 2).insert byte.toNat)
    OStream.empty

theorem hexStream_acc (bytes : List UInt8) (s : OStream) :
    (bytes.foldl (fun s byte => ((s.hex.setfill 48).setw 2).insert byte.toNat) s).text =
      s.text ++ Utility.toHexString bytes := by
  induction bytes generalizing s with
  | nil => simp [Utility.toHexString]
  | cons b bytes ih =>
    rw [List.foldl_cons, OStream.insert_hex rfl rfl, ih, Utility.toHexString_cons, insertHex_byte,
      List.append_assoc]
    rfl

theorem hexStream_text (bytes : List UInt8) : (hexStream bytes).text = Utility.toHexString bytes :=
  hexStream_acc bytes OStream.empty

section App

variable {τ : Type} (dep : Deployment)

/-- The generator is seeded from `random_device`; any bytes may come out. -/
def generateRandomSalt (length : Nat) : App τ (List UInt8) := do
  try
    let salt ← MonadExcept.ofExcept (← call (.randomBytes length))
    pure (List.ofFn salt)
  catch e =>
    log dep .ERROR e.what saltSite
    throw saltFailed

def hashPasswordWithArgon2 (password : Bytes) : App τ (Bytes × List UInt8) := do
  try
    let salt ← generateRandomSalt dep 16
    let tCost := 2
    let mCost := 1 <<< 16
    let parallelism := 1
    match ← call (.argon2iHashRaw ⟨tCost, mCost, parallelism⟩ password salt 32) with
    | none => throw argon2Failed
    | some hashRaw =>
      let hexStream := (List.ofFn hashRaw).foldl (fun hexStream byte =>
        hexStream ++ insertHex 2 byte.toNat) []
      pure (hexStream, salt)
  catch e =>
    log dep .ERROR e.what hashSite
    throw hashFailed

def verifyPasswordWithArgon2 (password hashHex : Bytes) (salt : List UInt8) : App τ Bool := do
  try
    let tCost := 2
    let mCost := 1 <<< 16
    let parallelism := 1
    match ← call (.argon2iHashRaw ⟨tCost, mCost, parallelism⟩ password salt 32) with
    | none => throw argon2Failed
    | some hashRaw =>
      let hexStream := (List.ofFn hashRaw).foldl (fun hexStream byte =>
        hexStream ++ insertHex 2 byte.toNat) []
      pure (decide (hexStream = hashHex))
  catch e =>
    log dep .ERROR e.what verifyHashSite
    throw verifyHashFailed

def verifyUserPassword (passwordHash saltInHex password : Bytes) : App τ Bool := do
  try
    let salt ← MonadExcept.ofExcept (Utility.fromHexString saltInHex)
    verifyPasswordWithArgon2 dep password passwordHash salt
  catch e =>
    log dep .ERROR e.what verifyUserSite
    throw verifyUserFailed

end App

/-! What each function returns or throws, from the surroundings alone. -/

section Run

variable {τ : Type} (dep : Deployment) (env : Surroundings) (t : τ) (d : Database)

def saltOutcome (length : Nat) : Except Exception (List UInt8) :=
  logged dep env saltSite (.error saltFailed) ((env.randomBytes length).map List.ofFn)

def argon2 (password salt : Bytes) : Except Exception (List UInt8) :=
  match env.argon2i ⟨2, 1 <<< 16, 1⟩ password salt 32 with
  | none => .error argon2Failed
  | some hashRaw => .ok (List.ofFn hashRaw)

theorem argon2_eq_ok {password salt bytes : Bytes} : argon2 env password salt = .ok bytes ↔
    ∃ raw, env.argon2i ⟨2, 1 <<< 16, 1⟩ password salt 32 = some raw ∧ List.ofFn raw = bytes := by
  rw [argon2]
  cases env.argon2i ⟨2, 1 <<< 16, 1⟩ password salt 32 <;> simp

def hashOutcome (password : Bytes) : Except Exception (Bytes × List UInt8) :=
  logged dep env hashSite (.error hashFailed) do
    let salt ← saltOutcome dep env 16
    let hashRaw ← argon2 env password salt
    pure (Utility.toHexString hashRaw, salt)

def verifyHashOutcome (password hashHex : Bytes) (salt : List UInt8) : Except Exception Bool :=
  logged dep env verifyHashSite (.error verifyHashFailed) do
    let hashRaw ← argon2 env password salt
    pure (decide (Utility.toHexString hashRaw = hashHex))

def verifyOutcome (passwordHash saltInHex password : Bytes) : Except Exception Bool :=
  logged dep env verifyUserSite (.error verifyUserFailed) do
    let salt ← Utility.fromHexString saltInHex
    verifyHashOutcome dep env password passwordHash salt

theorem run_generateRandomSalt (length : Nat) :
    run (handle env) (generateRandomSalt dep length) t d = (saltOutcome dep env length, t, d) := by
  refine run_catch_throw dep env saltSite ?_ saltFailed
  simp only [run_bind, run_perform, run_ofExcept, handle, andThen_ok]
  cases env.randomBytes length <;> rfl

theorem run_hashPasswordWithArgon2 (password : Bytes) :
    run (handle env) (hashPasswordWithArgon2 dep password) t d =
      (hashOutcome dep env password, t, d) := by
  refine run_catch_throw dep env hashSite ?_ hashFailed
  rw [run_bind, run_generateRandomSalt]
  cases saltOutcome dep env 16 with
  | error e => rfl
  | ok salt =>
    change _ = ((argon2 env password salt).bind fun hashRaw =>
      .ok (Utility.toHexString hashRaw, salt), t, d)
    simp only [andThen_ok, run_bind, run_perform, handle, argon2]
    cases env.argon2i ⟨2, 1 <<< 16, 1⟩ password salt 32 <;> rfl

theorem run_verifyPasswordWithArgon2 (password hashHex : Bytes) (salt : List UInt8) :
    run (handle env) (verifyPasswordWithArgon2 dep password hashHex salt) t d =
      (verifyHashOutcome dep env password hashHex salt, t, d) := by
  refine run_catch_throw dep env verifyHashSite ?_ verifyHashFailed
  simp only [run_bind, run_perform, handle, andThen_ok, argon2]
  cases env.argon2i ⟨2, 1 <<< 16, 1⟩ password salt 32 <;> rfl

theorem run_verifyUserPassword (passwordHash saltInHex password : Bytes) :
    run (handle env) (verifyUserPassword dep passwordHash saltInHex password) t d =
      (verifyOutcome dep env passwordHash saltInHex password, t, d) := by
  refine run_catch_throw dep env verifyUserSite ?_ verifyUserFailed
  simp only [run_bind, run_ofExcept]
  cases Utility.fromHexString saltInHex with
  | error e => rfl
  | ok salt => exact run_verifyPasswordWithArgon2 dep env t d password passwordHash salt

theorem hashOutcome_error {password : Bytes} {e : Exception}
    (h : hashOutcome dep env password = .error e) : isUtf8 e.what = true :=
  logged_error dep env hashSite (fun _ thrown => by cases thrown; decide) h

theorem hashOutcome_ok {password passwordHash : Bytes} {salt : List UInt8}
    (h : hashOutcome dep env password = .ok (passwordHash, salt)) :
    ∃ raw, env.argon2i ⟨2, 1 <<< 16, 1⟩ password salt 32 = some raw ∧
      passwordHash = Utility.toHexString (List.ofFn raw) := by
  rcases logged_ok dep env hashSite h with whole | thrown
  · obtain ⟨bytes, -, digested⟩ := bind_eq_ok.mp whole
    obtain ⟨hashRaw, digest, pair⟩ := bind_eq_ok.mp digested
    obtain ⟨raw, replied, rfl⟩ := (argon2_eq_ok env).mp digest
    obtain ⟨text, rfl⟩ := Prod.mk.inj (Except.ok.inj pair)
    exact ⟨raw, replied, text.symm⟩
  · cases thrown

theorem verifyOutcome_error {passwordHash saltInHex password : Bytes} {e : Exception}
    (h : verifyOutcome dep env passwordHash saltInHex password = .error e) :
    isUtf8 e.what = true := by
  refine logged_error dep env verifyUserSite (fun thrown eq => ?_) h
  cases eq
  exact verifyUserFailed_utf8

theorem verifyOutcome_digested (passwordHash : Bytes) {password : Bytes} {salt : List UInt8}
    {raw : Fin 32 → UInt8} (digest : env.argon2i ⟨2, 1 <<< 16, 1⟩ password salt 32 = some raw) :
    verifyOutcome dep env passwordHash (Utility.toHexString salt) password =
      .ok (decide (Utility.toHexString (List.ofFn raw) = passwordHash)) := by
  have inner : verifyHashOutcome dep env password passwordHash salt =
      .ok (decide (Utility.toHexString (List.ofFn raw) = passwordHash)) := by
    rw [verifyHashOutcome, argon2, digest]
    rfl
  rw [verifyOutcome, Utility.fromHexString_toHexString]
  change logged dep env verifyUserSite _ (verifyHashOutcome dep env password _ salt) = _
  rw [inner]
  rfl

theorem verifyOutcome_undigested (passwordHash : Bytes) {password : Bytes} {salt : List UInt8}
    (failed : env.argon2i ⟨2, 1 <<< 16, 1⟩ password salt 32 = none) :
    verifyOutcome dep env passwordHash (Utility.toHexString salt) password =
      .error verifyUserFailed := by
  have inner : verifyHashOutcome dep env password passwordHash salt = .error verifyHashFailed := by
    rw [verifyHashOutcome, argon2, failed]
    exact logThen_utf8 dep env .ERROR verifyHashSite (by decide) _
  rw [verifyOutcome, Utility.fromHexString_toHexString]
  change logged dep env verifyUserSite _ (verifyHashOutcome dep env password _ salt) = _
  rw [inner]
  exact logThen_utf8 dep env .ERROR verifyUserSite (by decide) _

theorem verifyOutcome_true {passwordHash saltInHex password : Bytes}
    (h : verifyOutcome dep env passwordHash saltInHex password = .ok true) :
    ∃ salt raw, Utility.fromHexString saltInHex = .ok salt ∧
      env.argon2i ⟨2, 1 <<< 16, 1⟩ password salt 32 = some raw ∧
      Utility.toHexString (List.ofFn raw) = passwordHash := by
  rcases logged_ok dep env verifyUserSite h with whole | thrown
  · obtain ⟨salt, decoded, verified⟩ := bind_eq_ok.mp whole
    rcases logged_ok dep env verifyHashSite verified with inner | thrown
    · obtain ⟨hashRaw, digest, same⟩ := bind_eq_ok.mp inner
      obtain ⟨raw, replied, rfl⟩ := (argon2_eq_ok env).mp digest
      exact ⟨salt, raw, decoded, replied, of_decide_eq_true (Except.ok.inj same)⟩
    · cases thrown
  · cases thrown

end Run

end Ccfolio.PasswordHelper
