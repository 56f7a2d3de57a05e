import Ccfolio.Calls
import Mathlib.Logic.Function.Basic

/-! Requests, responses and the router. Of a header the model keeps the fields
the sources read or write; what Beast's `keep_alive()` reads off version and
`Connection` is a field of its own. -/

namespace Ccfolio.Http

open Utf8 StdText Programs Calls

structure HttpRequest where
  method : Bytes
  target : Bytes
  version : Nat
  keepAlive : Bool
  fields : List (Bytes × Bytes)
  body : Bytes
  deriving DecidableEq, Repr

inductive Status where
  | ok
  | badRequest
  | unauthorized
  | notFound
  deriving DecidableEq, Repr

structure HttpResponse where
  version : Nat
  keepAlive : Bool
  result : Status
  contentType : Option Bytes
  contentLength : Option Nat
  chunked : Bool
  body : Bytes
  deriving DecidableEq, Repr

/-- A default-constructed response: version 11, status 200, no fields, no body. -/
def HttpResponse.default : HttpResponse := ⟨11, true, .ok, none, none, false, []⟩

/-- The response a request is handled with: a default one of the request's
version, kept alive as the request asks. -/
def HttpResponse.initial (req : HttpRequest) : HttpResponse :=
  { HttpResponse.default with version := req.version, keepAlive := req.keepAlive }

def toLower (b : UInt8) : UInt8 := if 65 ≤ b ∧ b ≤ 90 then b + 32 else b

/-- `find(name)`: the first field of that name, whatever the case of its
letters. -/
def HttpRequest.find (req : HttpRequest) (name : String) : Option Bytes :=
  (req.fields.find? fun f => f.1.map toLower = (lit name).map toLower).map (·.2)

namespace HttpResponse

def setResult (status : Status) (res : HttpResponse) : HttpResponse := { res with result := status }

def setContentType (value : String) (res : HttpResponse) : HttpResponse :=
  { res with contentType := some (lit value) }

def setBody (body : Bytes) (res : HttpResponse) : HttpResponse := { res with body := body }

/-- The body size is always known and none of the statuses forbids a body, so
`Content-Length` is set, which drops chunking. -/
def preparePayload (res : HttpResponse) : HttpResponse :=
  { res with contentLength := some res.body.length, chunked := false }

def needEof (res : HttpResponse) : Bool :=
  !res.keepAlive || (res.contentLength.isNone && !res.chunked)

def filled (status : Status) (contentType : String) (body : Bytes) (res : HttpResponse) :
    HttpResponse :=
  (((res.setResult status).setContentType contentType).setBody body).preparePayload

def Answers (res res' : HttpResponse) : Prop :=
  res' = res ∨ ∃ status contentType body, res' = res.filled status contentType body

end HttpResponse

/-- The four statements every handler answers with; the body may throw, and
the status and type set before it then stay. -/
def respond (status : Status) (contentType : String) (body : Except Exception Bytes) :
    App HttpResponse Unit := do
  modify (·.setResult status)
  modify (·.setContentType contentType)
  let text ← MonadExcept.ofExcept body
  modify (·.setBody text)
  modify (·.preparePayload)

abbrev Handler := HttpRequest → App HttpResponse Unit

structure Router where
  routes : Bytes → Option Handler

namespace Router

def empty : Router := ⟨fun _ => none⟩

def key (method path : Bytes) : Bytes := method ++ lit ":" ++ path

theorem key_injective {method method' path path' : Bytes} (plain : 58 ∉ method)
    (plain' : 58 ∉ method') (h : key method path = key method' path') :
    method = method' ∧ path = path' := by
  have colon : lit ":" = [58] := by decide
  simp only [key, colon, List.append_assoc, List.singleton_append] at h
  induction method generalizing method' with
  | nil =>
    cases method' with
    | nil => exact ⟨rfl, (List.cons.inj h).2⟩
    | cons b _ =>
      have same : (58 : UInt8) = b := (List.cons.inj h).1
      exact absurd (same ▸ List.mem_cons_self ..) plain'
  | cons b rest ih =>
    cases method' with
    | nil =>
      have same : b = 58 := (List.cons.inj h).1
      exact absurd (same ▸ List.mem_cons_self ..) plain
    | cons b' rest' =>
      obtain ⟨rfl, tails⟩ := List.cons.inj h
      obtain ⟨rfl, paths⟩ := ih (fun mem => plain (List.mem_cons_of_mem _ mem))
        (fun mem => plain' (List.mem_cons_of_mem _ mem)) tails
      exact ⟨rfl, paths⟩

theorem key_eq_iff (method' path' : Bytes) {method path : Bytes}
    (one : (key method' path').count 58 = 1) :
    key method path = key method' path' ↔ method = method' ∧ path = path' := by
  refine ⟨fun h => ?_, by rintro ⟨rfl, rfl⟩; rfl⟩
  have colon : (lit ":").count 58 = 1 := by decide
  have left : (key method path).count 58 = 1 := h ▸ one
  simp only [key, List.count_append, colon] at one left
  exact key_injective (List.count_eq_zero.mp (by omega)) (List.count_eq_zero.mp (by omega)) h

def addRoute (r : Router) (method path : Bytes) (handler : Handler) : Router :=
  ⟨Function.update r.routes (key method path) (some handler)⟩

def handleRequest (r : Router) (req : HttpRequest) : App HttpResponse Bool :=
  match r.routes (key req.method req.target) with
  | some handler => do
      handler req
      pure true
  | none => pure false

end Router

section Run

variable (env : Surroundings) (res : HttpResponse) (d : Odb.Database)

theorem run_respond_ok (status : Status) (contentType : String) (body : Bytes) :
    run (handle env) (respond status contentType (.ok body)) res d =
      (.ok (), res.filled status contentType body, d) := rfl

theorem run_handleRequest_some {r : Router} {req : HttpRequest} {handler : Handler}
    (found : r.routes (Router.key req.method req.target) = some handler) :
    run (handle env) (r.handleRequest req) res d =
      andThen (run (handle env) (handler req) res d) fun _ t s => (.ok true, t, s) := by
  simp only [Router.handleRequest, found, run_bind]
  rfl

theorem run_handleRequest_none {r : Router} {req : HttpRequest}
    (missing : r.routes (Router.key req.method req.target) = none) :
    run (handle env) (r.handleRequest req) res d = (.ok false, res, d) := by
  simp [Router.handleRequest, missing]

end Run

end Ccfolio.Http
