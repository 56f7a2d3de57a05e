import Ccfolio.Calls
import Ccfolio.JsonValue

/-! `LogService::log` and the `LOG` macro. What callers see of a log call is
whether it throws: the entry is dumped to JSON, and `dump` refuses a message
that is not UTF-8. -/

namespace Ccfolio.LogService

open Utf8 StdText JsonValue Odb Programs Calls

/-- What the build fixes: the JSON library and the configured constants. -/
structure Deployment where
  json : JsonLib
  secretKey : Bytes
  projectName : Bytes

def Deployment.refusing : Deployment where
  json := .ofTable [] (fun _ _ => lit "null") rfl
  secretKey := lit "secret"
  projectName := lit "ccfolio"

inductive LogLevel where
  | DEBUG
  | INFO
  | WARN
  | ERROR
  deriving DecidableEq, Repr

def LogLevel.rank : LogLevel → Nat
  | .DEBUG => 0
  | .INFO => 1
  | .WARN => 2
  | .ERROR => 3

def logLevelToString : LogLevel → String
  | .DEBUG => "DEBUG"
  | .INFO => "INFO"
  | .WARN => "WARN"
  | .ERROR => "ERROR"

/-- `__FILE__` without its directories, `__LINE__` and `__FUNCTION__`; names in
the sources are ASCII. -/
structure Site where
  file : String
  line : Nat
  function : String
  plain : (isUtf8 (lit file) && isUtf8 (lit function)) = true := by decide

/-- The level the constructor sets; nothing in the sources changes it. -/
def currentLevel : LogLevel := .DEBUG

def logJson (timestamp message : Bytes) (level : LogLevel) (site : Site) : Json :=
  .ofFields [("timestamp", .string timestamp),
    ("level", .string (lit (logLevelToString level))),
    ("message", .string message),
    ("file", .string (lit site.file)),
    ("line", .integer site.line),
    ("function", .string (lit site.function))]

variable {τ : Type} (dep : Deployment)

def log (level : LogLevel) (message : Bytes) (site : Site) : App τ Unit :=
  if level.rank < currentLevel.rank then pure ()
  else do
    let timestamp ← call .localTime
    let logEntry ← MonadExcept.ofExcept (dep.json.dump 4 (logJson timestamp message level site))
    call (.push logEntry)

theorem logJson_wellEncoded (timestamp message : Bytes) (level : LogLevel) (site : Site) :
    (logJson timestamp message level site).wellEncoded =
      (isUtf8 timestamp && isUtf8 message) := by
  have levelName : isUtf8 (lit (logLevelToString level)) = true := by
    cases level <;> (simp only [logLevelToString]; decide)
  rw [logJson, Json.wellEncoded_ofFields (by simp only [List.map]; decide)
    (by simp only [List.all]; decide)]
  have names := site.plain
  rw [Bool.and_eq_true] at names
  simp [Json.wellEncoded, levelName, names.1, names.2]

/-- What comes of `x` behind a log call: the call throws exactly on a message
that is not UTF-8, and then with a text that is. -/
def logThen {α : Type} (env : Surroundings) (level : LogLevel) (message : Bytes) (site : Site)
    (x : Except Exception α) : Except Exception α :=
  if isUtf8 message then x
  else .error ⟨.json, (dep.json.invalidUtf8 (logJson env.localTime.val message level site)).val⟩

section Run

variable (env : Surroundings) (level : LogLevel) {message : Bytes} (site : Site) {α : Type}

theorem logThen_utf8 (utf8 : isUtf8 message = true) (x : Except Exception α) :
    logThen dep env level message site x = x := if_pos utf8

theorem logThen_error {x : Except Exception α} {e : Exception}
    (h : logThen dep env level message site x = .error e) :
    x = .error e ∨ isUtf8 e.what = true := by
  unfold logThen at h
  split at h
  · exact .inl h
  · cases h
    exact .inr (dep.json.invalidUtf8 _).property

theorem logThen_ok {x : Except Exception α} {a : α}
    (h : logThen dep env level message site x = .ok a) : x = .ok a := by
  unfold logThen at h
  split at h
  · exact h
  · cases h

@[simp] theorem run_log (message : Bytes) (t : τ) (d : Database) :
    run (handle env) (log dep level message site) t d =
      (logThen dep env level message site (.ok ()), t, d) := by
  have enabled : ¬ level.rank < currentLevel.rank := Nat.not_lt_zero _
  have encoded := logJson_wellEncoded env.localTime.val message level site
  rw [env.localTime.property, Bool.true_and] at encoded
  simp only [log, if_neg enabled, run_bind, run_perform, run_ofExcept, handle, andThen_ok]
  by_cases utf8 : isUtf8 message = true
  · rw [dep.json.dump_ok (encoded.trans utf8), logThen_utf8 dep env level site utf8]
    rfl
  · rw [dep.json.dump_error (encoded.trans (by simpa using utf8)), logThen, if_neg utf8]
    rfl

@[simp] theorem andThen_logThen_pure (message : Bytes) (a : α) (t : τ) (d : Database) :
    andThen (logThen dep env level message site (.ok ()), t, d)
        (fun _ => run (handle env) (pure a)) =
      (logThen dep env level message site (.ok a), t, d) := by
  unfold logThen
  split <;> rfl

@[simp] theorem andThen_logThen_throw (message : Bytes) (e : Exception) (t : τ) (d : Database) :
    andThen (logThen dep env level message site (.ok ()), t, d)
        (fun _ => run (handle env) (throw e : App τ α)) =
      (logThen dep env level message site (.error e), t, d) := by
  unfold logThen
  split <;> rfl

/-- What comes of `x` inside a `try` whose handler logs the exception and goes
on as `fallback`. -/
def logged (fallback x : Except Exception α) : Except Exception α :=
  match x with
  | .ok a => .ok a
  | .error e => logThen dep env .ERROR e.what site fallback

theorem logged_ok {fallback x : Except Exception α} {a : α}
    (h : logged dep env site fallback x = .ok a) : x = .ok a ∨ fallback = .ok a := by
  cases x with
  | ok => exact .inl h
  | error e => exact .inr (logThen_ok dep env .ERROR site h)

theorem logged_error {fallback x : Except Exception α}
    (plain : ∀ e, fallback = .error e → isUtf8 e.what = true) {e : Exception}
    (h : logged dep env site fallback x = .error e) : isUtf8 e.what = true := by
  cases x with
  | ok => cases h
  | error =>
    rcases logThen_error dep env .ERROR site h with thrown | utf8
    · exact plain e thrown
    · exact utf8

theorem run_catch_throw {x : App τ α} {out : Except Exception α} {t t' : τ} {d d' : Database}
    (h : run (handle env) x t d = (out, t', d')) (thrown : Exception) :
    run (handle env) (tryCatch x fun e => do
        log dep .ERROR e.what site
        throw thrown) t d = (logged dep env site (.error thrown) out, t', d') := by
  rw [run_tryCatch, h]
  cases out with
  | ok => rfl
  | error e => simp [logged]

theorem run_catch_pure {x : App τ α} {out : Except Exception α} {t t' : τ} {d d' : Database}
    (h : run (handle env) x t d = (out, t', d')) (a : α) :
    run (handle env) (tryCatch x fun e => do
        log dep .ERROR e.what site
        pure a) t d = (logged dep env site (.ok a) out, t', d') := by
  rw [run_tryCatch, h]
  cases out with
  | ok => rfl
  | error e => simp [logged]

end Run

end Ccfolio.LogService
