import Ccfolio.Traces

/-! Programs that call along a script: the kinds of their calls come in the
order of a list. `Alike` compares two programs that make the same calls along
one script, apart from `silent` calls, whose replies must not make a
difference. A script and the replies along a run say what the program would
have returned on its own. Nothing in this file names an application. -/

namespace Ccfolio.Scripts

open Programs Traces

variable {C K : Type} {R : C → Type} {α β γ δ σ : Type}

section Alike

variable (silent : C → Bool) (kind : C → K)

/-- The same loud calls in the same order, on a script, whatever the replies. -/
inductive Alike (same : α → β → Prop) : List K → Program R α → Program R β → Prop
  | ret {script : List K} {a : α} {b : β} :
      same a b → Alike same script (.ret a) (.ret b)
  | left {script : List K} {c : C} {next : R c → Program R α} {q : Program R β} :
      silent c = true → (∀ r, Alike same script (next r) q) → Alike same script (.call c next) q
  | right {script : List K} {c : C} {p : Program R α} {next : R c → Program R β} :
      silent c = true → (∀ r, Alike same script p (next r)) → Alike same script p (.call c next)
  | both {script rest : List K} {c : C} {next : R c → Program R α} {next' : R c → Program R β} :
      silent c = false → (kind c :: rest).Sublist script →
      (∀ r, Alike same rest (next r) (next' r)) → Alike same script (.call c next) (.call c next')

variable {silent kind} {same : α → β → Prop} {same' : γ → δ → Prop} {script script' : List K}
  {p : Program R α} {q : Program R β}

theorem Alike.widen (h : Alike silent kind same script p q) (wider : script.Sublist script') :
    Alike silent kind same script' p q := by
  induction h generalizing script' with
  | ret eq => exact .ret eq
  | left quiet _ ih => exact .left quiet fun r => ih r wider
  | right quiet _ ih => exact .right quiet fun r => ih r wider
  | both loud fits next _ => exact .both loud (fits.trans wider) next

theorem Alike.mono {stronger : α → β → Prop} (le : ∀ a b, stronger a b → same a b)
    (h : Alike silent kind stronger script p q) : Alike silent kind same script p q := by
  induction h with
  | ret eq => exact .ret (le _ _ eq)
  | left quiet _ ih => exact .left quiet ih
  | right quiet _ ih => exact .right quiet ih
  | both loud fits _ ih => exact .both loud fits ih

theorem Alike.bind {f : α → Program R γ} {g : β → Program R δ}
    (h : Alike silent kind same script p q)
    (rest : ∀ a b, same a b → Alike silent kind same' script' (f a) (g b)) :
    Alike silent kind same' (script ++ script') (p.bind f) (q.bind g) := by
  induction h with
  | ret eq => exact (rest _ _ eq).widen (List.sublist_append_right ..)
  | left quiet _ ih => exact .left quiet ih
  | right quiet _ ih => exact .right quiet ih
  | both loud fits _ ih => exact .both loud (fits.append (List.Sublist.refl script')) ih

end Alike

section Traces

variable (silent : C → Bool) (kind : C → K)

def kinds (tr : List (Event R)) : List K :=
  (tr.filter fun e => !silent e.1).map fun e => kind e.1

variable {silent kind} {same : α → β → Prop} {script : List K} {p : Program R α} {q : Program R β}

theorem kinds_silent {e : Event R} {tr : List (Event R)} (quiet : silent e.1 = true) :
    kinds silent kind (e :: tr) = kinds silent kind tr := by
  simp [kinds, quiet]

theorem kinds_loud {e : Event R} {tr : List (Event R)} (loud : silent e.1 = false) :
    kinds silent kind (e :: tr) = kind e.1 :: kinds silent kind tr := by
  simp [kinds, loud]

theorem kinds_sublist (answered : ∀ c, silent c = true → Nonempty (R c))
    (h : Alike silent kind same script p q) {tr : List (Event R)} {p' : Program R α}
    (path : Follows p tr p') : (kinds silent kind tr).Sublist script := by
  induction h generalizing tr with
  | ret => cases path; exact List.nil_sublist _
  | left quiet _ ih =>
    cases path with
    | nil => exact List.nil_sublist _
    | cons c next r tr _ path =>
      rw [kinds_silent quiet]
      exact ih r path
  | right quiet _ ih =>
    obtain ⟨r⟩ := answered _ quiet
    exact ih r path
  | both loud fits _ ih =>
    cases path with
    | nil => exact List.nil_sublist _
    | cons c next r tr _ path =>
      rw [kinds_loud loud]
      exact ((ih r path).cons_cons _).trans fits

theorem Alike.wp {P : List (Event R) → Event R → Prop}
    (answered : ∀ c, silent c = true → Nonempty (R c)) (h : Alike silent kind same script p q)
    (each : ∀ tr e, silent e.1 = true ∨ kind e.1 ∈ script → P tr e) (tr : List (Event R)) :
    Traces.wp (fun _ => True) P p tr fun a _ => ∃ b, same a b := by
  induction h generalizing tr with
  | ret eq => exact ⟨_, eq⟩
  | left quiet _ ih => exact fun r _ => ⟨each tr _ (.inl quiet), ih r each _⟩
  | right quiet _ ih =>
    obtain ⟨r⟩ := answered _ quiet
    exact ih r each tr
  | both loud fits _ ih =>
    refine fun r _ => ⟨each tr _ (.inr (fits.subset (List.mem_cons_self ..))), ih r ?_ _⟩
    exact fun tr e listed => each tr e (listed.imp_right fun mem =>
      fits.subset (List.mem_cons_of_mem _ mem))

/-- The handler, run on its own, replies to the loud calls of a trace as they
were replied to. -/
def Explains (silent : C → Bool) (h : Handler R σ) : σ → List (Event R) → Prop
  | _, [] => True
  | s, e :: tr =>
      if silent e.1 then Explains silent h s tr
      else (h e.1 s).1 = e.2 ∧ Explains silent h (h e.1 s).2 tr

theorem exec_of_explains {h : Handler R σ} (unseen : ∀ c s, silent c = true → (h c s).2 = s)
    (alike : Alike silent kind same script p q) {tr : List (Event R)} {a : α}
    (path : Follows p tr (.ret a)) {s : σ} (explained : Explains silent h s tr) :
    same a (exec h q s).1 := by
  induction alike generalizing tr s with
  | ret eq => cases path; exact eq
  | left quiet _ ih =>
    cases path with
    | cons c next r tr _ path =>
      rw [Explains, if_pos quiet] at explained
      exact ih r path explained
  | @right _ c _ _ quiet _ ih =>
    rw [exec, unseen c s quiet]
    exact ih _ path explained
  | both loud _ _ ih =>
    cases path with
    | cons c next r tr _ path =>
      rw [Explains, if_neg (by simp [loud])] at explained
      obtain ⟨reply, later⟩ := explained
      rw [exec, reply]
      exact ih r path later

/-- A run is explained by a handler that gives every reply at `s`, if only what
does not depend on the world comes after a call that changes it. -/
theorem explains_of_replies {h : Handler R σ} {s : σ} {tr : List (Event R)}
    (replies : ∀ e ∈ tr, silent e.1 = false → (h e.1 s).1 = e.2)
    (apart : (tr.filter fun e => !silent e.1).Pairwise fun e e' =>
      (h e.1 s).2 = s ∨ ∀ s', (h e'.1 s').1 = (h e'.1 s).1) : Explains silent h s tr := by
  -- once the world has changed, the rest of the replies are the same anywhere
  suffices general : ∀ s', (s' = s ∨ ∀ e ∈ tr, silent e.1 = false →
      ∀ s'', (h e.1 s'').1 = (h e.1 s).1) → Explains silent h s' tr from general s (.inl rfl)
  induction tr with
  | nil => exact fun _ _ => trivial
  | cons e tr ih =>
    intro s' here
    have later : ∀ e' ∈ tr, silent e'.1 = false → (h e'.1 s).1 = e'.2 :=
      fun e' mem => replies e' (List.mem_cons_of_mem _ mem)
    cases quiet : silent e.1 with
    | true =>
      rw [Explains, if_pos quiet]
      refine ih later (by simpa [quiet] using apart) s' (here.imp_right fun fixed e' mem => ?_)
      exact fixed e' (List.mem_cons_of_mem _ mem)
    | false =>
      rw [List.filter_cons_of_pos (by simp [quiet]), List.pairwise_cons] at apart
      rw [Explains, if_neg (by simp [quiet])]
      have reply := replies e (List.mem_cons_self ..) quiet
      rcases here with rfl | fixed
      · refine ⟨reply, ih later apart.2 _ ?_⟩
        by_cases still : (h e.1 s').2 = s'
        · exact .inl still
        · refine .inr fun e' mem loud => (apart.1 e' ?_).resolve_left still
          exact List.mem_filter.mpr ⟨mem, by simp [loud]⟩
      · refine ⟨(fixed e (List.mem_cons_self ..) quiet s').trans reply, ih later apart.2 _ ?_⟩
        exact .inr fun e' mem => fixed e' (List.mem_cons_of_mem _ mem)

end Traces

theorem exists_assignment [DecidableEq K] {X E : Type} (key : X → K) (value : X → E) (other : E)
    {l : List X} (distinct : (l.map key).Nodup) :
    ∃ f : K → E, (∀ x ∈ l, f (key x) = value x) ∧ ∀ k, f k = other ∨ ∃ x ∈ l, f k = value x := by
  induction l with
  | nil => exact ⟨fun _ => other, nofun, fun _ => .inl rfl⟩
  | cons x l ih =>
    rw [List.map_cons, List.nodup_cons] at distinct
    obtain ⟨f, agrees, taken⟩ := ih distinct.2
    refine ⟨Function.update f (key x) (value x), fun y mem => ?_, fun k => ?_⟩
    · rcases List.mem_cons.mp mem with rfl | mem
      · exact Function.update_self ..
      · have apart : key y ≠ key x := fun same =>
          distinct.1 (same ▸ List.mem_map_of_mem mem)
        rw [Function.update_of_ne apart, agrees y mem]
    · by_cases here : k = key x
      · exact .inr ⟨x, List.mem_cons_self .., by rw [here, Function.update_self]⟩
      · rw [Function.update_of_ne here]
        refine (taken k).imp_right fun ⟨y, mem, eq⟩ => ⟨y, List.mem_cons_of_mem _ mem, eq⟩

end Ccfolio.Scripts
