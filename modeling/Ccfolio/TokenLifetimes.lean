import Ccfolio.Authentication
import Ccfolio.TableHistory

/-! Tokens that can be used: what a registration or a login is answered with was
signed for it in the same request, and lets a request in to the greeting as long
as the token has not expired. -/

namespace Ccfolio.TokenLifetimes

open Utf8 StdText JsonValue Odb Programs Traces Pools Histories Calls LogService Http
  JwtHelper UserService Controllers Authentication Scripts Minting RequestScripts TokenProvenance
  SequentialAnswers TableHistory

def Issued (dep : Deployment) (now : Nat) (data : UserDto) (tr : Trace) : Prop :=
  ⟨.systemClock, now⟩ ∈ tr ∧ ∃ text : Text, text.val = data.token ∧
    ⟨.sign dep.secretKey (mintClaims dep data.username now), .ok text⟩ ∈ tr

def Grants (dep : Deployment) (out : Except Exception (ResponseDto UserDto)) (tr : Trace) : Prop :=
  ∀ response, out = .ok response → response.isSuccess = true →
    ∃ now data, response = .success data ∧ Issued dep now data tr

section Services

variable {τ α : Type} {law : Event Reply → Prop} {dep : Deployment} {req : HttpRequest} {t : τ}
  {tr : Trace}

abbrev gives (law : Event Reply → Prop) (x : App τ α) (t : τ) (tr : Trace)
    (Q : Except Exception α → τ → Trace → Prop) : Prop :=
  meets law (fun _ _ => True) x t tr Q

theorem grants_error (e : Exception) : Grants dep (.error e) tr := by
  rintro response ⟨⟩

theorem grants_failure (message : Bytes) :
    gives law (pure (.failure message) : App τ (ResponseDto UserDto)) t tr
      fun out _ tr' => Grants dep out tr' := by
  rintro response ⟨⟩ ⟨⟩

theorem grants_bind {x : App τ α} {f : α → App τ (ResponseDto UserDto)}
    (rest : ∀ a t' tr', gives law (f a) t' tr' fun out _ tr'' => Grants dep out tr'') :
    gives law (x >>= f) t tr fun out _ tr' => Grants dep out tr' := by
  refine meets_bind.mpr (meets_any fun out t' tr' _ => ?_)
  cases out with
  | ok a => exact rest a t' tr'
  | error e => exact grants_error e

theorem grants_join {c : Prop} [Decidable c] {x y : App τ α} {f : α → App τ (ResponseDto UserDto)}
    (rest : ∀ a t' tr', gives law (f a) t' tr' fun out _ tr'' => Grants dep out tr'') :
    gives law (if c then x >>= f else y >>= f) t tr fun out _ tr' => Grants dep out tr' := by
  split_ifs
  · exact grants_bind rest
  · exact grants_bind rest

theorem gives_createJWTToken (username : Bytes) :
    gives law (createJWTToken dep username : App τ Bytes) t tr fun out _ tr' =>
      ∀ token, out = .ok token → ∃ now, Issued dep now ⟨username, token⟩ tr' := by
  refine meets_tryCatch.mpr (meets_bind.mpr (meets_perform.mpr fun now _ => ⟨trivial, ?_⟩))
  refine meets_bind.mpr (meets_perform.mpr fun r _ => ⟨trivial, ?_⟩)
  refine meets_bind.mpr (meets_ofExcept.mpr ?_)
  cases r with
  | ok text =>
    intro token eq
    exact ⟨now, by simp, text, Except.ok.inj eq, by simp⟩
  | error e =>
    refine meets_bind.mpr (meets_any fun out t' tr' _ => ?_)
    cases out with
    | ok => exact meets_throw.mpr nofun
    | error e => exact nofun

theorem grants_token (username : Bytes) :
    gives law (do
      let token ← createJWTToken dep username
      pure (.success ⟨username, token⟩) : App τ (ResponseDto UserDto)) t tr
      fun out _ tr' => Grants dep out tr' := by
  refine meets_bind.mpr (meets_mono (fun out t' tr' issued => ?_) (gives_createJWTToken username))
  cases out with
  | error e => exact grants_error e
  | ok token =>
    obtain ⟨now, issued⟩ := issued token rfl
    refine meets_pure.mpr fun response eq _ => ?_
    exact ⟨now, ⟨username, token⟩, (Except.ok.inj eq).symm, issued⟩

theorem grants_caught {x : App τ (ResponseDto UserDto)} (jsonSite stdSite : Site)
    (h : gives law x t tr fun out _ tr' => Grants dep out tr') :
    gives law (tryCatch x fun e => match e.kind with
      | .json => do
        log dep .ERROR e.what jsonSite
        pure (.failure invalidJson)
      | _ => do
        log dep .ERROR e.what stdSite
        pure (.failure UserService.tryAgainLater)) t tr fun out _ tr' => Grants dep out tr' := by
  refine meets_tryCatch.mpr (meets_mono (fun out t' tr' done => ?_) h)
  cases out with
  | ok response => exact done
  | error e =>
    simp only
    split
    · exact grants_bind fun _ _ _ => grants_failure _
    · exact grants_bind fun _ _ _ => grants_failure _

theorem grants_createUser (request : Bytes) :
    gives law (UserService.createUser dep request : App τ _) t tr
      fun out _ tr' => Grants dep out tr' := by
  refine grants_caught createJsonSite createStdSite (grants_bind fun _ _ _ =>
    grants_bind fun username _ _ => grants_bind fun _ _ _ => grants_bind fun made _ _ => ?_)
  refine grants_bind fun creationResult _ _ => ?_
  split
  · exact grants_token username
  · exact grants_bind fun _ _ _ => grants_bind fun _ _ _ => grants_failure _

theorem grants_userLogin (request : Bytes) :
    gives law (UserService.userLogin dep request : App τ _) t tr
      fun out _ tr' => Grants dep out tr' := by
  refine grants_caught loginJsonSite loginStdSite (grants_bind fun _ _ _ =>
    grants_bind fun _ _ _ => grants_bind fun _ _ _ => grants_bind fun userResult _ _ => ?_)
  refine grants_join fun found _ _ => ?_
  cases found with
  | none => exact grants_bind fun _ _ _ => grants_bind fun _ _ _ => grants_failure _
  | some user =>
    refine grants_bind fun isLoginSuccess _ _ => ?_
    split
    · exact grants_bind fun _ _ _ => grants_failure _
    · exact grants_token user.username

end Services

section Routes

variable {law : Event Reply → Prop} {dep : Deployment} {req : HttpRequest} {res : HttpResponse}
  {tr : Trace}

/-- A response with status 200 and a body hands over a token that has been issued. -/
def Hands (dep : Deployment) (res : HttpResponse) (tr : Trace) : Prop :=
  res.result = .ok → res.contentLength.isSome = true → ∃ now data, Issued dep now data tr ∧
    res.body = dep.json.text (-1) (ResponseDto.success data).toJson

theorem hands_empty (empty : res.contentLength = none) : Hands dep res tr := by
  intro _ length
  rw [empty] at length
  cases length

theorem Issued.later {now : Nat} {data : UserDto} {tr' : Trace} (h : Issued dep now data tr)
    (longer : tr <+: tr') : Issued dep now data tr' := by
  obtain ⟨clock, text, same, mem⟩ := h
  exact ⟨longer.subset clock, text, same, longer.subset mem⟩

theorem Hands.later {tr' : Trace} (h : Hands dep res tr) (longer : tr <+: tr') :
    Hands dep res tr' := by
  intro status length
  obtain ⟨now, data, issued, body⟩ := h status length
  exact ⟨now, data, issued.later longer, body⟩

theorem gives_still {α : Type} {script : List Kind} {x : App HttpResponse α}
    (h : Keep .still script x x) :
    gives (fun _ => True) x res tr fun _ res' tr' => res' = res ∧ tr <+: tr' :=
  meets_extends (wp_mono _ _ (fun _ _ ⟨_, same⟩ => same.2.2 rfl)
    ((h res).wp silent_answered (fun _ _ _ => trivial) tr))

theorem gives_respond {status : Status} {contentType : String} {body : Except Exception Bytes}
    {Q : Except Exception Unit → HttpResponse → Trace → Prop}
    (filled : ∀ text, body = .ok text → Q (.ok ()) (res.filled status contentType text) tr)
    (thrown : ∀ e, body = .error e →
      Q (.error e) ((res.setResult status).setContentType contentType) tr) :
    gives law (respond status contentType body) res tr Q := by
  refine meets_bind.mpr (meets_modify.mpr (meets_bind.mpr (meets_modify.mpr ?_)))
  refine meets_bind.mpr (meets_ofExcept.mpr ?_)
  cases body with
  | error e => exact thrown e rfl
  | ok text => exact meets_bind.mpr (meets_modify.mpr (meets_modify.mpr (filled text rfl)))

theorem hands_answer {service : Bytes → App HttpResponse (ResponseDto UserDto)} (site : Site)
    {script : List Kind} (still : Keep .still script (service req.body) (service req.body))
    (grants : gives (fun _ => True) (service req.body) res tr fun out _ tr' => Grants dep out tr')
    (empty : res.contentLength = none) :
    gives (fun _ => True) (answer dep service site req) res tr
      fun _ res' tr' => Hands dep res' tr' := by
  have logged : ∀ (e : Exception) (res' : HttpResponse) (tr' : Trace), Hands dep res' tr' →
      gives (fun _ => True) (log dep .ERROR e.what site : App HttpResponse Unit) res' tr'
        fun _ res'' tr'' => Hands dep res'' tr'' :=
    fun e res' tr' before => meets_mono (fun _ res'' tr'' ⟨same, longer⟩ =>
      same ▸ before.later longer) (gives_still (keep_log dep .ERROR rfl site))
  refine meets_tryCatch.mpr (meets_bind.mpr (meets_mono (fun out res' tr' done => ?_)
    (meets_and grants (gives_still still))))
  obtain ⟨granted, rfl, -⟩ := done
  cases out with
  | error e => exact logged e res' tr' (hands_empty empty)
  | ok response =>
    cases success : response.isSuccess with
    | true =>
      obtain ⟨now, data, rfl, issued⟩ := granted response rfl success
      simp only [success, if_true]
      refine gives_respond (fun text dumped _ _ => ⟨now, data, issued, ?_⟩) fun e _ => ?_
      · unfold JsonLib.dump at dumped
        split_ifs at dumped
        exact (Except.ok.inj dumped).symm
      · exact logged e _ tr' (hands_empty empty)
    | false =>
      simp only [success, Bool.false_eq_true, if_false]
      refine gives_respond (fun text _ => ?_) fun e _ => ?_
      · rintro ⟨⟩
      · exact logged e _ tr' (hands_empty empty)

theorem hands_handleRequest (req : HttpRequest)
    (route : posts "/user/create" req ∨ posts "/user/login" req) :
    gives (fun _ => True) (HttpSession.handleRequest (httpRouter dep) req) .default []
      fun _ res' tr' => Hands dep res' tr' := by
  have other : ¬ posts "/test" req := by
    rintro ⟨-, target⟩
    rcases route with ⟨-, target'⟩ | ⟨-, target'⟩
    · exact absurd (target.symm.trans target') (by decide)
    · exact absurd (target.symm.trans target') (by decide)
  have routes := httpRouter_routes dep req
  rw [if_neg other] at routes
  refine meets_bind.mpr (meets_modify.mpr (meets_bind.mpr (meets_modify.mpr ?_)))
  have answers : ∀ {handler : Http.Handler}, (httpRouter dep).routes
      (Router.key req.method req.target) = some handler →
      gives (fun _ => True) (handler req) (.initial req) [] (fun _ res' tr' => Hands dep res' tr') →
      gives (fun _ => True) (do
        if !(← (httpRouter dep).handleRequest req) then
          respond .notFound "text/plain" (.ok (lit "Not Found"))) (.initial req) []
        fun _ res' tr' => Hands dep res' tr' := by
    intro handler found h
    simp only [Router.handleRequest, found]
    refine meets_bind.mpr (meets_bind.mpr (meets_mono (fun out res' tr' done => ?_) h))
    cases out with
    | ok => exact done
    | error e => exact done
  split_ifs at routes with login create
  · exact answers routes (hands_answer _ (keep_service_userLogin dep req.body)
      (grants_userLogin req.body) rfl)
  · exact answers routes (hands_answer _ (keep_service_createUser dep req.body)
      (grants_createUser req.body) rfl)
  · exact absurd route (not_or.mpr ⟨create, login⟩)

end Routes

section Greeting

variable {dep : Deployment} {req : HttpRequest} {res : HttpResponse} {token : Bytes} {tr : Trace}

def Passes (dep : Deployment) (token : Bytes) (e : Event Reply) : Prop :=
  ∀ r, e = ⟨.verify dep.secretKey dep.projectName token, r⟩ → r = .ok ()

/-- The wrapped handler has been entered, and has greeted who was named. -/
def Admits (dep : Deployment) (req : HttpRequest) (res : HttpResponse) (out : Except Exception Unit)
    (res' : HttpResponse) (tr : Trace) : Prop :=
  ⟨.granted, ()⟩ ∈ tr ∧ ∀ username, Names dep req.body username → out = .ok () ∧
    res' = res.filled .ok "application/json" (dep.json.text (-1) (hello username))

theorem passes_validateToken (found : req.find "Authorization" = some (lit "Bearer " ++ token)) :
    gives (Passes dep token) (validateToken dep req) res tr
      fun out res' _ => out = .ok true ∧ res' = res := by
  have scheme : bearer (lit "Bearer " ++ token) = true :=
    List.isPrefixOf_iff_prefix.mpr (List.prefix_append _ _)
  have rest : (lit "Bearer " ++ token).drop 7 = token := rfl
  refine meets_tryCatch.mpr ?_
  simp only [found, scheme, rest, Bool.not_true, Bool.false_eq_true, if_false]
  refine meets_bind.mpr (meets_tryCatch.mpr (meets_bind.mpr (meets_perform.mpr fun r lawful => ?_)))
  obtain rfl := lawful r rfl
  exact ⟨trivial, rfl, rfl⟩

theorem admits_handleHelloWorld (entered : ⟨.granted, ()⟩ ∈ tr) :
    gives (Passes dep token) (handleHelloWorld dep req) res tr
      fun out res' tr' => Admits dep req res out res' tr' := by
  cases named : greeted dep req.body with
  | error e =>
    refine meets_any fun out res' tr' longer => ⟨longer.subset entered, fun username names => ?_⟩
    rw [greeted_iff.mpr names] at named
    cases named
  | ok username =>
    obtain ⟨jsonPayload, parsed, read⟩ := bind_eq_ok.mp named
    have dumped : dep.json.dump (-1) (hello username) = .ok (dep.json.text (-1) (hello username)) :=
      dep.json.dump_ok (hello_wellEncoded (greeted_ok dep named).1)
    refine meets_tryCatch.mpr (meets_bind.mpr (meets_ofExcept.mpr ?_))
    rw [parsed]
    refine meets_bind.mpr (meets_member.mpr ?_)
    rw [read]
    refine gives_respond (fun text eq => ⟨entered, fun username' names => ⟨rfl, ?_⟩⟩)
      fun e eq => ?_
    · rw [dumped] at eq
      rw [greeted_iff.mpr names] at named
      rw [Except.ok.inj named, ← Except.ok.inj eq]
    · rw [dumped] at eq
      cases eq

theorem admits_handleRequest (req : HttpRequest) (route : posts "/test" req)
    (found : req.find "Authorization" = some (lit "Bearer " ++ token)) :
    gives (Passes dep token) (HttpSession.handleRequest (httpRouter dep) req) .default []
      fun out res' tr' => Admits dep req (.initial req) out res' tr' := by
  have routes := (httpRouter_routes dep req).trans (if_pos route)
  have inside : gives (Passes dep token)
      (withAuthentication dep (handleHelloWorld dep) req) (.initial req) []
      fun out res' tr' => Admits dep req (.initial req) out res' tr' := by
    refine meets_bind.mpr (meets_mono (fun out res' tr' done => ?_) (passes_validateToken found))
    obtain ⟨rfl, rfl⟩ := done
    refine meets_bind.mpr (meets_perform.mpr fun _ _ => ⟨trivial, ?_⟩)
    exact admits_handleHelloWorld (List.mem_append_right _ (List.mem_singleton_self _))
  refine meets_bind.mpr (meets_modify.mpr (meets_bind.mpr (meets_modify.mpr ?_)))
  simp only [Router.handleRequest, routes]
  refine meets_bind.mpr (meets_bind.mpr (meets_mono (fun out res' tr' done => ?_) inside))
  cases out with
  | ok => exact done
  | error e => exact done

end Greeting

section Run

variable {ι : Type} [DecidableEq ι] {dep : Deployment} {requests : ι → HttpRequest} {d : Database}
  {schedule : List (ι × Surroundings)}

/-- What is relied on of the token library in the calls of a run: a token passes
under the key and the issuer it was signed with, from its `iat` to its `exp`. -/
def Honours (log : Log ι) : Prop :=
  ∀ first x last, log = first ++ x :: last →
    ∀ key issuer token, x.event.1 = .verify key issuer token →
      ∀ y ∈ first, ∀ claims, signed y.event = some (key, claims, token) → claims.issuer = issuer →
        claims.issuedAt * second ≤ x.scene.now → x.scene.now ≤ claims.expiresAt * second →
          verified x.event = some (key, issuer, token)

theorem length_of_typed {i : ι} {out : Except Exception Unit} {res : HttpResponse}
    (finished : (served dep requests d schedule).threads i = .ret (out, res))
    (typed : res.contentType.isSome = true) : res.contentLength.isSome = true := by
  obtain ⟨scene, d', -, -, -, explained⟩ := exists_explanation dep requests d schedule i .calm
  obtain ⟨-, rfl⟩ := outcome_of_explains explained finished
  obtain ⟨out', res', d'', ran, fills, -⟩ :=
    run_httpRouter_cases dep (mix scene) (.initial (requests i)) d' (requests i)
  rw [HttpSession.run_handleRequest, ran] at typed ⊢
  have filled : res'.contentType.isSome = true → res'.contentLength.isSome = true := by
    rcases fills with rfl | ⟨status, contentType, body, rfl⟩
    · rintro ⟨⟩
    · exact fun _ => rfl
  rcases out' with e | _ | _
  · exact filled typed
  · rfl
  · exact filled typed

/-- The answer of a request hands over a token that was signed in its turns, for
a time read there. -/
structure HandedOver (dep : Deployment) (log : Log ι) (i : ι) (res : HttpResponse) (minted : Nat)
    (data : UserDto) : Prop where
  body : res.body = dep.json.text (-1) (ResponseDto.success data).toJson
  clock : ∃ x ∈ log, x.who = i ∧ x.scene.now = minted
  sign : ∃ y ∈ log, y.who = i ∧
    signed y.event = some (dep.secretKey, mintClaims dep data.username minted, data.token)

theorem handed {i : ι} {out : Except Exception Unit} {res : HttpResponse}
    (route : posts "/user/create" (requests i) ∨ posts "/user/login" (requests i))
    (finished : (served dep requests d schedule).threads i = .ret (out, res))
    (acknowledged : Acknowledges res) :
    ∃ minted data, HandedOver dep (history dep requests d schedule) i res minted data := by
  have kept := kept_history dep requests d schedule
  have path := kept.follows i
  change Follows _ _ ((served dep requests d schedule).threads i) at path
  rw [finished] at path
  obtain ⟨-, hands⟩ := wp_sound _ _ path (hands_handleRequest (requests i) route) fun _ _ => trivial
  obtain ⟨minted, data, ⟨clock, text, same, sign⟩, body⟩ :=
    hands acknowledged.1 (length_of_typed finished acknowledged.2)
  obtain ⟨x, mem, call⟩ := List.mem_map.mp clock
  obtain ⟨within, who⟩ := List.mem_filter.mp mem
  obtain ⟨y, mem', call'⟩ := List.mem_map.mp sign
  obtain ⟨within', who'⟩ := List.mem_filter.mp mem'
  refine ⟨minted, data, body, ⟨x, within, of_decide_eq_true who, ?_⟩,
    ⟨y, within', of_decide_eq_true who', ?_⟩⟩
  · have reply := kept.faithful x within
    rw [call] at reply
    exact reply.symm
  · rw [call', signed, same]

theorem HandedOver.passes {before after : List (ι × Surroundings)} {i j : ι} {res : HttpResponse}
    {minted : Nat} {data : UserDto}
    (handed : HandedOver dep (history dep requests d before) i res minted data)
    (timely : (before ++ after).Pairwise fun a b => a.2.now ≤ b.2.now)
    (honours : Honours (history dep requests d (before ++ after)))
    (later : ∀ who ∈ before, who.1 ≠ j)
    (inTime : ∀ who ∈ after, who.1 = j → who.2.now ≤ (minted + lifetime) / second * second) :
    ∀ e ∈ (own j (history dep requests d (before ++ after))).map (·.event),
      Passes dep data.token e := by
  obtain ⟨-, ⟨x, clock, -, time⟩, y, sign, -, issued⟩ := handed
  intro e mem r call
  obtain ⟨z, inside, rfl⟩ := List.mem_map.mp mem
  obtain ⟨within, who⟩ := List.mem_filter.mp inside
  have mine : z.who = j := of_decide_eq_true who
  have scenes : ∀ (schedule : List (ι × Surroundings)),
      ∀ w ∈ history dep requests d schedule, (w.who, w.scene) ∈ schedule :=
    fun schedule w mem => (scenes_run schedule _ w mem).resolve_left List.not_mem_nil
  -- the verification comes after everything that the first turns did
  obtain ⟨rest, split⟩ :
      history dep requests d before <+: history dep requests d (before ++ after) :=
    history_grows _ before after
  have turn : (z.who, z.scene) ∈ after := by
    rcases List.mem_append.mp (scenes _ z within) with first | last
    · exact absurd mine (later _ first)
    · exact last
  have after_first : z ∈ rest := by
    rw [← split] at within
    rcases List.mem_append.mp within with first | last
    · exact absurd mine (later _ (scenes before z first))
    · exact last
  obtain ⟨middle, last, rfl⟩ := List.append_of_mem after_first
  have place : history dep requests d (before ++ after) =
      (history dep requests d before ++ middle) ++ z :: last := by
    rw [← split, List.append_assoc]
  have since : minted ≤ z.scene.now := by
    rw [← time]
    exact (List.pairwise_append.mp timely).2.2 _ (scenes before x clock) _ turn
  have passed := honours _ z last place dep.secretKey dep.projectName data.token
    (congrArg Sigma.fst call) y (List.mem_append_left _ sign) _ issued rfl
    ((Nat.div_mul_le_self minted second).trans since) (inTime _ turn mine)
  rw [call] at passed
  unfold verified at passed
  split at passed
  next eq =>
    cases eq
    rfl
  · cases passed

end Run

/-- A token handed out with an answer lets its bearer in until it expires. -/
theorem token_admits {ι : Type} [DecidableEq ι] (dep : Deployment) (requests : ι → HttpRequest)
    (d : Database) (before after : List (ι × Surroundings))
    (timely : (before ++ after).Pairwise fun a b => a.2.now ≤ b.2.now)
    (honours : Honours (history dep requests d (before ++ after))) (i : ι)
    (out : Except Exception Unit) (res : HttpResponse)
    (route : posts "/user/create" (requests i) ∨ posts "/user/login" (requests i))
    (finished : (served dep requests d before).threads i = .ret (out, res))
    (acknowledged : Acknowledges res) :
    ∃ minted data, HandedOver dep (history dep requests d before) i res minted data ∧
      ∀ j, posts "/test" (requests j) →
        (requests j).find "Authorization" = some (lit "Bearer " ++ data.token) →
        (∀ who ∈ before, who.1 ≠ j) →
        (∀ who ∈ after, who.1 = j → who.2.now ≤ (minted + lifetime) / second * second) →
        ∀ out' res', (served dep requests d (before ++ after)).threads j = .ret (out', res') →
          (∃ x ∈ history dep requests d (before ++ after), x.who = j ∧ x.event.1 = .granted) ∧
            ∀ username, Names dep (requests j).body username → out' = .ok () ∧
              res' = (HttpResponse.initial (requests j)).filled .ok "application/json"
                (dep.json.text (-1) (hello username)) := by
  obtain ⟨minted, data, given⟩ := handed route finished acknowledged
  refine ⟨minted, data, given, fun j route' found later inTime out' res' finished' => ?_⟩
  have path := (kept_history dep requests d (before ++ after)).follows j
  change Follows _ _ ((served dep requests d (before ++ after)).threads j) at path
  rw [finished'] at path
  obtain ⟨-, entered, greets⟩ := wp_sound _ _ path (admits_handleRequest (requests j) route' found)
    (given.passes timely honours later inTime)
  obtain ⟨z, mem, call⟩ := List.mem_map.mp entered
  obtain ⟨within, mine⟩ := List.mem_filter.mp mem
  exact ⟨⟨z, within, of_decide_eq_true mine, congrArg Sigma.fst call⟩, greets⟩

theorem annSigned {y : Entry Nat Surroundings Database Reply}
    (mem : y ∈ history CredentialMap.reading annRequests .empty annSchedule) {key token : Bytes}
    {claims : Claims} (made : signed y.event = some (key, claims, token)) : token = annToken := by
  have entry : (y.scene.now, signed y.event, verified y.event) ∈ _ :=
    annHistory ▸ List.mem_map_of_mem mem
  simp [annMinting, made] at entry
  exact entry.2.1.2.2

theorem annVerified {x : Entry Nat Surroundings Database Reply} {key issuer : Bytes}
    (faithful : x.event.2 = (handle x.scene x.event.1 x.before).1)
    (scene : x.scene = .calm ∨ x.scene = TokenProvenance.later)
    (call : x.event.1 = .verify key issuer annToken) :
    verified x.event = some (key, issuer, annToken) := by
  obtain ⟨who, env, ⟨c, r⟩, before⟩ := x
  obtain rfl : c = .verify key issuer annToken := call
  rcases scene with same | same
  · obtain rfl : env = .calm := same
    obtain rfl : r = .ok () := faithful
    rfl
  · obtain rfl : env = TokenProvenance.later := same
    obtain rfl : r = .ok () := faithful
    rfl

set_option maxRecDepth 4000 in
theorem annRegistered : (served CredentialMap.reading annRequests .empty
    (List.replicate 6 (0, Surroundings.calm))).threads 0 = .ret (.ok (), annGreeted) := by
  rfl

set_option maxRecDepth 4000 in
theorem annFinished : (served CredentialMap.reading annRequests .empty annSchedule).threads 1 =
    .ret (.ok (), annGreeted) := by
  rfl

theorem annHonours : Honours (history CredentialMap.reading annRequests .empty annSchedule) := by
  intro first x last eq key issuer token call y mem claims made _ _ _
  have inside : y ∈ history CredentialMap.reading annRequests .empty annSchedule := by
    rw [eq]
    exact List.mem_append_left _ mem
  have within : x ∈ history CredentialMap.reading annRequests .empty annSchedule := by
    rw [eq]
    exact List.mem_append_right _ (List.mem_cons_self ..)
  obtain rfl := annSigned inside made
  refine annVerified ?_ ?_ call
  · exact (kept_history CredentialMap.reading annRequests .empty annSchedule).faithful x within
  · have turn := (scenes_run annSchedule _ x within).resolve_left List.not_mem_nil
    simp [annSchedule] at turn
    tauto

theorem token_admits_ann :
    ∃ x ∈ history CredentialMap.reading annRequests .empty annSchedule,
      x.who = 1 ∧ x.event.1 = .granted := by
  have timely : annSchedule.Pairwise fun a b => a.2.now ≤ b.2.now := by
    simp [annSchedule, List.replicate, TokenProvenance.later, Surroundings.calm]
  obtain ⟨minted, data, given, admits⟩ := token_admits CredentialMap.reading annRequests .empty
    (List.replicate 6 (0, Surroundings.calm)) [(1, TokenProvenance.later)] timely annHonours 0
    (.ok ()) annGreeted (.inl ⟨rfl, rfl⟩) annRegistered ⟨rfl, rfl⟩
  have token : data.token = annToken := by
    obtain ⟨y, mem, -, made⟩ := given.sign
    exact annSigned ((history_grows _ _ [(1, TokenProvenance.later)]).subset mem) made
  have time : minted = 0 := by
    obtain ⟨x, mem, -, now⟩ := given.clock
    have turn := (scenes_run (List.replicate 6 (0, Surroundings.calm)) _ x mem).resolve_left
      List.not_mem_nil
    have calm : x.scene = .calm := congrArg Prod.snd (List.eq_of_mem_replicate turn)
    rw [← now, calm]
    rfl
  refine (admits 1 ⟨rfl, rfl⟩ ?_ ?_ ?_ (.ok ()) annGreeted annFinished).1
  · rw [token]
    rfl
  · simp
  · rw [time]
    intro who mem _
    rw [List.mem_singleton.mp mem]
    decide

end Ccfolio.TokenLifetimes
