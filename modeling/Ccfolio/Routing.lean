import Ccfolio.Http
import Ccfolio.KeyedMaps

/-! The router as a map from methods and paths to handlers. A method has no
colon in it, so the key it is stored under says where the path begins. -/

namespace Ccfolio.Routing

open Utf8 Programs Calls Http KeyedMaps

/-- The characters of an HTTP token. -/
def isTchar (b : UInt8) : Bool :=
  (48 ≤ b && b ≤ 57) || (65 ≤ b && b ≤ 90) || (97 ≤ b && b ≤ 122) || b = 96 ||
    (lit "!#$%&'*+-.^_|~").contains b

def isToken (text : Bytes) : Bool := !text.isEmpty && text.all isTchar

theorem token_plain {text : Bytes} (token : isToken text = true) : 58 ∉ text := by
  rw [isToken, Bool.and_eq_true, List.all_eq_true] at token
  intro colon
  have tchar := token.2 58 colon
  have none : isTchar 58 = false := by decide
  rw [none] at tchar
  cases tchar

structure Route where
  method : Bytes
  path : Bytes
  handler : Handler
  token : isToken method = true

def Route.Serves (route : Route) (req : HttpRequest) : Prop :=
  route.method = req.method ∧ route.path = req.target

def Route.entry (route : Route) : (Bytes × Bytes) × Handler :=
  ((route.method, route.path), route.handler)

theorem serves_iff (route : Route) (req : HttpRequest) :
    route.Serves req ↔ route.entry.1 = (req.method, req.target) := Prod.mk_inj.symm

def routed (routes : List Route) : Router :=
  routes.foldl (fun r route => r.addRoute route.method route.path route.handler) .empty

theorem key_apart :
    Set.InjOn (fun pair : Bytes × Bytes => Router.key pair.1 pair.2)
      {pair | isToken pair.1 = true} := by
  intro pair token pair' token' same
  obtain ⟨method, path⟩ := Router.key_injective (token_plain token) (token_plain token') same
  exact Prod.ext method path

theorem routes_foldl (routes : List Route) (r : Router) :
    (routes.foldl (fun r route => r.addRoute route.method route.path route.handler) r).routes =
      writeAll r.routes
        ((routes.map Route.entry).map fun w => (Router.key w.1.1 w.1.2, w.2)) := by
  induction routes generalizing r with
  | nil => rfl
  | cons route later ih => exact ih _

theorem routed_lookup (routes : List Route) {req : HttpRequest}
    (token : isToken req.method = true) :
    (routed routes).routes (Router.key req.method req.target) =
      lastWrite (req.method, req.target) (routes.map Route.entry) := by
  have inside : ∀ w ∈ routes.map Route.entry,
      w.1 ∈ {pair : Bytes × Bytes | isToken pair.1 = true} := by
    intro w mem
    obtain ⟨route, -, rfl⟩ := List.mem_map.mp mem
    exact route.token
  have asked : (req.method, req.target) ∈ {pair : Bytes × Bytes | isToken pair.1 = true} := token
  rw [routed, routes_foldl]
  exact writeAll_encoded key_apart inside asked

/-- The latest route for a request's method and target is called, once and
alone; without one nothing is called and the response stays as it was. -/
theorem router_last_writer_wins (routes : List Route) (req : HttpRequest)
    (token : isToken req.method = true) :
    ((∃ before route later, routes = before ++ route :: later ∧ route.Serves req ∧
        (∀ other ∈ later, ¬ other.Serves req) ∧
        (routed routes).handleRequest req = (do route.handler req; pure true)) ∨
      (∀ route ∈ routes, ¬ route.Serves req) ∧ (routed routes).handleRequest req = pure false) ∧
    ∀ method path method' path', isToken method = true → isToken method' = true →
      Router.key method path = Router.key method' path' → method = method' ∧ path = path' := by
  have lookup := routed_lookup routes token
  refine ⟨?_, fun _ _ _ _ plain plain' =>
    Router.key_injective (token_plain plain) (token_plain plain')⟩
  cases found : lastWrite (req.method, req.target) (routes.map Route.entry) with
  | some handler =>
    left
    obtain ⟨before, later, split, unserved⟩ := exists_of_lastWrite found
    obtain ⟨early, rest, rfl, -, tail⟩ := List.map_eq_append_iff.mp split
    obtain ⟨route, late, rfl, entry, rfl⟩ := List.map_eq_cons_iff.mp tail
    have serves : route.Serves req := (serves_iff route req).mpr (congrArg Prod.fst entry)
    have stored : route.handler = handler := congrArg Prod.snd entry
    refine ⟨early, route, late, rfl, serves, fun other mem asks => ?_, ?_⟩
    · exact unserved _ (List.mem_map_of_mem mem) ((serves_iff other req).mp asks)
    · rw [Router.handleRequest, lookup, found, stored]
  | none =>
    right
    refine ⟨fun route mem asks => ?_, ?_⟩
    · have unserved := (lastWrite_eq_none_iff _ _).mp found
      exact unserved _ (List.mem_map_of_mem mem) ((serves_iff route req).mp asks)
    · rw [Router.handleRequest, lookup, found]

theorem router_last_writer_wins_twice :
    let first : Route := ⟨lit "GET", lit "/a:b", fun _ => pure (), by decide⟩
    let second : Route :=
      ⟨lit "GET", lit "/a:b", fun _ => respond .notFound "text/plain" (.ok []), by decide⟩
    let req : HttpRequest := ⟨lit "GET", lit "/a:b", 11, true, [], []⟩
    (routed [first, second]).handleRequest req = (do second.handler req; pure true) := by
  intro first second req
  have served : second.Serves req := ⟨rfl, rfl⟩
  rcases (router_last_writer_wins [first, second] req (by decide)).1 with
    ⟨before, route, later, split, -, unserved, called⟩ | ⟨none, -⟩
  · cases before with
    | nil =>
      have rest : [second] = later := (List.cons.inj split).2
      exact absurd served (unserved second (rest ▸ List.mem_singleton_self second))
    | cons other before =>
      have last : [second] = before ++ route :: later := (List.cons.inj split).2
      have same : second ∈ [route] := by
        cases before with
        | nil => rw [(List.cons.inj last).1]; exact List.mem_singleton_self route
        | cons _ before => cases before <;> cases (List.cons.inj last).2
      rw [called, List.mem_singleton.mp same]
  · exact absurd served (none second (by simp))

end Ccfolio.Routing
