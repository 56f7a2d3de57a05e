import Ccfolio.Odb
import Ccfolio.Pools

/-! What the sources call outside themselves: database transactions, random
bytes, Argon2, the clocks, signing and verifying of tokens, and the log queue.
`Surroundings` fixes every reply but the table's; `handle` is what a call
replies and does to the table. A whole request makes each kind of call at most
once, so one value of `Surroundings` per request places faults freely. -/

namespace Ccfolio.Calls

open Utf8 StdText Odb Programs

structure Argon2Cost where
  tCost : Nat
  mCost : Nat
  parallelism : Nat
  deriving DecidableEq, Repr

/-- The header and payload of a token; dates are seconds, as the format has
them. -/
structure Claims where
  type : Bytes
  issuer : Bytes
  issuedAt : Nat
  expiresAt : Nat
  username : Bytes
  deriving DecidableEq, Repr

inductive Call where
  | transaction (t : Tx)
  | randomBytes (length : Nat)
  | argon2iHashRaw (cost : Argon2Cost) (password salt : Bytes) (hashLength : Nat)
  | systemClock
  | localTime
  | sign (secretKey : Bytes) (claims : Claims)
  | verify (secretKey issuer token : Bytes)
  | push (entry : Bytes)
  /-- The moment a wrapped handler is entered; a mark that nothing answers, made
  in the turn of the verification before it. -/
  | granted
  deriving DecidableEq, Repr

/-- `argon2i_hash_raw` replies with nothing when its result is not `ARGON2_OK`;
`systemClock` with nanoseconds, `sign` with base64 text. -/
abbrev Reply : Call → Type
  | .transaction t => Except Exception t.Result
  | .randomBytes length => Except Exception (Fin length → UInt8)
  | .argon2iHashRaw _ _ _ hashLength => Option (Fin hashLength → UInt8)
  | .systemClock => Nat
  | .localTime => Text
  | .sign _ _ => Except Exception Text
  | .verify _ _ _ => Except Exception Unit
  | .push _ => Unit
  | .granted => Unit

structure Surroundings where
  faults : Tx → Faults
  randomBytes : (length : Nat) → Except Exception (Fin length → UInt8)
  argon2i : Argon2Cost → Bytes → Bytes → (hashLength : Nat) → Option (Fin hashLength → UInt8)
  now : Nat
  localTime : Text
  sign : Bytes → Claims → Except Exception Text
  verify : Bytes → Bytes → Bytes → Except Exception Unit

def handle (env : Surroundings) : Handler Reply Database
  | .transaction t, d => runTx (env.faults t) t d
  | .randomBytes length, d => (env.randomBytes length, d)
  | .argon2iHashRaw cost password salt hashLength, d =>
      (env.argon2i cost password salt hashLength, d)
  | .systemClock, d => (env.now, d)
  | .localTime, d => (env.localTime, d)
  | .sign secretKey claims, d => (env.sign secretKey claims, d)
  | .verify secretKey issuer token, d => (env.verify secretKey issuer token, d)
  | .push _, d => ((), d)
  | .granted, d => ((), d)

/-- Surroundings without a fault, for examples: every password is its own
digest, and there is one token. -/
def Surroundings.calm : Surroundings where
  faults _ := .none .asStored
  randomBytes _ := .ok fun _ => 7
  argon2i _ password _ _ := some fun i => password.getD i 0
  now := 0
  localTime := ⟨lit "2024-03-18 10:00:00", by decide⟩
  sign _ _ := .ok ⟨lit "aGVhZGVy.cGF5bG9hZA.c2ln", by decide⟩
  verify _ _ token :=
    if token = lit "aGVhZGVy.cGF5bG9hZA.c2ln" then .ok ()
    else .error (runtimeError "token verification failed")

def Surroundings.faultless (env : Surroundings) : Surroundings :=
  { env with faults := fun t => .none (env.faults t).order }

theorem Surroundings.faultless_clean (env : Surroundings) (t : Tx) :
    env.faultless.faults t = .none (env.faultless.faults t).order := rfl

/-- Calls no other request can tell the place of; they share the turn, and so the
surroundings, of the call before them. -/
def silent : Call → Bool
  | .localTime | .push _ | .granted => true
  | _ => false

abbrev App (τ α : Type) := Code Reply τ Exception α

abbrev call {τ : Type} (c : Call) : App τ (Reply c) := perform c

end Ccfolio.Calls
