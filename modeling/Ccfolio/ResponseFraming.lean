import Ccfolio.Dispatch
import Ccfolio.HttpSession

/-! The bytes of one connection, read by a client that knows its requests: a
response to HEAD has no body, any other has the bytes its `Content-Length`
says, or those up to the end of the stream. -/

namespace Ccfolio.ResponseFraming

open Utf8 StdText Odb Programs Transitions Framing Calls LogService Http Controllers
  Dispatch HttpSession

section Made

variable {dep : Deployment} {x : Exchange}

theorem made_sized (made : Made (httpRouter dep) x) :
    x.response.contentLength = some x.response.body.length ∨
      x.response.contentLength = none ∧ x.response.chunked = false := by
  obtain ⟨env, d, d', ran⟩ := made
  obtain ⟨out, res, e, routed, answers, -⟩ :=
    run_httpRouter_cases dep env (.initial x.request) d x.request
  rw [run_handleRequest, routed] at ran
  cases out with
  | error e => cases ran
  | ok r =>
    have response := congrArg (fun o => o.2.1) ran
    simp only [andThen_ok] at response
    rw [← response]
    cases r with
    | false => exact .inl rfl
    | true =>
      rcases answers with rfl | ⟨status, contentType, body, rfl⟩
      · exact .inr ⟨rfl, rfl⟩
      · exact .inl rfl

theorem made_head (made : Made (httpRouter dep) x) (head : x.request.method = lit "HEAD") :
    x.response.body = lit "Not Found" := by
  obtain ⟨env, d, d', ran⟩ := made
  rw [run_handleRequest, run_httpRouter_unrouted dep env _ d (by rw [head]; decide)] at ran
  exact (congrArg (fun o => o.2.1.body) ran).symm

theorem sized_of_open (made : Made (httpRouter dep) x) (opened : x.response.needEof = false) :
    x.response.contentLength = some x.response.body.length := by
  rcases made_sized made with sized | ⟨unsized, plain⟩
  · exact sized
  · simp [HttpResponse.needEof, unsized, plain] at opened

end Made

section Session

variable {dep : Deployment} {s : Session}

theorem framed_written (inv : Inv (httpRouter dep) s) :
    Framed (·.contentLength) s.shut (s.written.map message) := by
  refine framed_of_dropLast (fun m mem => ?_) fun m mem => ?_
  · rw [← List.map_dropLast] at mem
    obtain ⟨x, old, rfl⟩ := List.mem_map.mp mem
    exact sized_of_open (inv.made x (.inl (List.mem_of_mem_dropLast old))) (inv.kept x old)
  · obtain ⟨x, old, rfl⟩ := List.mem_map.mp mem
    have made := inv.made x (.inl old)
    cases close : x.response.needEof with
    | false => exact .inl (sized_of_open made close)
    | true => exact (made_sized made).imp id fun ⟨unsized, _⟩ => ⟨unsized, inv.ended x old close⟩

theorem splits_iff_no_head (inv : Inv (httpRouter dep) s) (whole : s.broken = false) :
    Splits (·.contentLength) s.shut (s.written.map message) s.wire ↔
      ∀ x ∈ s.written, x.request.method ≠ lit "HEAD" := by
  rw [inv.sent whole, splits_iff (framed_written inv)]
  simp only [List.forall_mem_map]
  refine forall₂_congr fun x mem => ?_
  constructor
  · intro empty head
    have body := empty (by simpa [message] using head)
    change x.response.body = [] at body
    rw [made_head (inv.made x (.inl mem)) head] at body
    exact absurd body (by decide)
  · intro other head
    exact absurd (by simpa [message] using head) other

end Session

def notFound (req : HttpRequest) : HttpResponse :=
  (HttpResponse.initial req).filled .notFound "text/plain" (lit "Not Found")

def afterNotFound (req : HttpRequest) : Session :=
  { pending := [.read], parsers := 2, received := [req], written := [⟨req, notFound req⟩],
    wire := emit (message ⟨req, notFound req⟩), handed := [], shut := false, broken := false }

theorem reachable_afterNotFound (dep : Deployment) (env : Surroundings) (d : Database)
    {req : HttpRequest} (other : req.method ≠ lit "POST") (alive : req.keepAlive = true) :
    Reachable (step (fun _ => false) (httpRouter dep)) .start (afterNotFound req) := by
  refine ⟨[.read env d req, .write ⟨req, notFound req⟩], ?_⟩
  have ran : run (handle env) (handleRequest (httpRouter dep) req) .default d =
      (.ok (), notFound req, d) := by
    rw [run_handleRequest, run_httpRouter_unrouted dep env _ d other]
    rfl
  have opened : (notFound req).needEof = false := by
    simp [HttpResponse.needEof, notFound, HttpResponse.filled, HttpResponse.preparePayload,
      HttpResponse.setBody, HttpResponse.setContentType, HttpResponse.setResult,
      HttpResponse.initial, alive]
  simp [drive, step, callback, Session.start, Session.doRead, Session.asyncRead,
    Session.asyncWrite, Session.complete, Session.onWrite, Completion.operation, ran, opened,
    afterNotFound]

def plainRequest (method : String) : HttpRequest :=
  ⟨lit method, lit "/", 11, true, [], []⟩

/-- The client reads back the responses written as long as none of them answers a HEAD. -/
theorem responses_framed_iff (isUpgrade : HttpRequest → Bool) (dep : Deployment) {s : Session}
    (reached : Reachable (step isUpgrade (httpRouter dep)) .start s) (whole : s.broken = false) :
    (s.written.map (·.request) <+: s.received ∧
      Splits (·.contentLength) s.shut (s.written.map message) s.wire) ↔
      ∀ x ∈ s.written, x.request.method ≠ lit "HEAD" := by
  have inv := reachable_inv reached
  rw [splits_iff_no_head inv whole]
  exact and_iff_right ⟨_, (inv.order whole).symm⟩

theorem responses_framed_get :
    let s := afterNotFound (plainRequest "GET")
    (s.written.map (·.request) <+: s.received ∧
      Splits (·.contentLength) s.shut (s.written.map message) s.wire) ↔
      ∀ x ∈ s.written, x.request.method ≠ lit "HEAD" :=
  responses_framed_iff (fun _ => false) .refusing
    (reachable_afterNotFound .refusing .calm .empty (by decide) rfl) rfl

theorem head_desynchronises :
    ∃ s, Reachable (step (fun _ => false) (httpRouter .refusing)) .start s ∧ s.broken = false ∧
      s.received = [plainRequest "HEAD"] ∧
      ¬ Splits (·.contentLength) s.shut (s.written.map message) s.wire := by
  refine ⟨afterNotFound (plainRequest "HEAD"),
    reachable_afterNotFound .refusing .calm .empty (by decide) rfl, rfl, rfl, ?_⟩
  decide

end Ccfolio.ResponseFraming
