import Ccfolio.HexCoding
import Ccfolio.PasswordHelper
import Mathlib.Data.List.OfFn

/-! A stored password: hash and salt are kept as hex text, and a password
verifies against them exactly when Argon2 gives the same bytes again. -/

namespace Ccfolio.PasswordStorage

open Utf8 StdText HexText Programs Calls LogService PasswordHelper

/-- The surroundings with `argon2i_hash_raw` as given; every call of it is
answered by one function. -/
def hashing (argon2i : Argon2Cost → Bytes → Bytes → (n : Nat) → Option (Fin n → UInt8))
    (env : Surroundings) : Surroundings :=
  { env with argon2i := argon2i }

/-- Time cost, memory cost and parallelism as the sources pass them. -/
def passed : Argon2Cost := ⟨2, 1 <<< 16, 1⟩

variable {τ : Type} (argon2i : Argon2Cost → Bytes → Bytes → (n : Nat) → Option (Fin n → UInt8))
  (dep : Deployment) (env : Surroundings)

theorem verifies_iff {password salt : Bytes} {raw : Fin 32 → UInt8}
    (digest : argon2i passed password salt 32 = some raw) (other : Bytes) :
    verifyOutcome dep (hashing argon2i env) (Utility.toHexString (List.ofFn raw))
        (Utility.toHexString salt) other = .ok true ↔
      argon2i passed other salt 32 = argon2i passed password salt 32 := by
  rw [digest]
  cases again : argon2i passed other salt 32 with
  | none =>
    rw [verifyOutcome_undigested dep (hashing argon2i env) _ again]
    simp
  | some raw' =>
    rw [verifyOutcome_digested dep (hashing argon2i env) _ again, Except.ok.injEq,
      decide_eq_true_iff, Utility.toHexString_injective.eq_iff, List.ofFn_inj, Option.some.injEq]

/-- A password verifies exactly when its digest under the stored salt is the stored hash. -/
theorem verification_exact (dep' : Deployment) (env' : Surroundings) (t : τ) (d : Odb.Database) :
    (∀ password passwordHash salt,
      (run (handle (hashing argon2i env)) (hashPasswordWithArgon2 dep password) t d).1 =
        .ok (passwordHash, salt) →
      ∀ other t' d',
        (run (handle (hashing argon2i env'))
          (verifyUserPassword dep' passwordHash (Utility.toHexString salt) other : App τ Bool)
          t' d').1 = .ok true ↔
        argon2i passed other salt 32 = argon2i passed password salt 32) ∧
    (∀ passwordHash saltInHex password,
      (run (handle (hashing argon2i env)) (verifyUserPassword dep passwordHash saltInHex password)
        t d).1 = .ok true →
      ∃ salt raw, Utility.fromHexString saltInHex = .ok salt ∧
        argon2i passed password salt 32 = some raw ∧ passwordHash = hexText (List.ofFn raw)) ∧
    ∀ bytes, (Utility.hexStream bytes).text = hexText bytes ∧
      (PasswordHelper.hexStream bytes).text = hexText bytes := by
  refine ⟨fun password passwordHash salt hashed other t' d' => ?_,
    fun passwordHash saltInHex password verified => ?_, fun bytes => ?_⟩
  · rw [run_hashPasswordWithArgon2] at hashed
    obtain ⟨raw, digest, text⟩ := hashOutcome_ok dep (hashing argon2i env) hashed
    rw [text, run_verifyUserPassword]
    exact verifies_iff argon2i dep' env' digest other
  · rw [run_verifyUserPassword] at verified
    obtain ⟨salt, raw, decoded, digest, rfl⟩ :=
      verifyOutcome_true dep (hashing argon2i env) verified
    exact ⟨salt, raw, decoded, digest, HexCoding.toHexString_eq _⟩
  · rw [Utility.hexStream_text, PasswordHelper.hexStream_text, HexCoding.toHexString_eq]
    exact ⟨rfl, rfl⟩

theorem verification_exact_first :
    let stored := hexText (List.ofFn fun i : Fin 32 => (lit "first").getD i 0)
    let saltInHex := Utility.toHexString (List.replicate 16 7)
    let verify := fun password => (run (handle (hashing Surroundings.calm.argon2i .calm))
      (verifyUserPassword .refusing stored saltInHex password : App Unit Bool) () .empty).1
    verify (lit "first") = .ok true ∧ verify (lit "second") ≠ .ok true ∧
      ∃ salt raw, Utility.fromHexString saltInHex = .ok salt ∧
        Surroundings.calm.argon2i passed (lit "first") salt 32 = some raw ∧
        stored = hexText (List.ofFn raw) := by
  intro stored saltInHex verify
  have hashed : (run (handle (hashing Surroundings.calm.argon2i .calm))
      (hashPasswordWithArgon2 .refusing (lit "first") : App Unit _) () .empty).1 =
        .ok (stored, List.replicate 16 7) := by
    rw [run_hashPasswordWithArgon2]
    rfl
  have exact := verification_exact Surroundings.calm.argon2i .refusing .calm .refusing .calm ()
    .empty
  have verifies := exact.1 (lit "first") stored (List.replicate 16 7) hashed
  have right : verify (lit "first") = .ok true := (verifies (lit "first") () .empty).mpr rfl
  refine ⟨right, fun passes => ?_, exact.2.1 stored saltInHex (lit "first") right⟩
  have same := (verifies (lit "second") () .empty).mp passes
  have first := congrFun (Option.some.inj same) 0
  cases first

end Ccfolio.PasswordStorage
