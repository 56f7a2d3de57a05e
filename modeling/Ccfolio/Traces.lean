import Ccfolio.Programs

/-! What a program may do, call by call, whatever the replies are. A trace is
the list of calls a program has made with the replies it got. `wp` asks a
property of every call from the trace before it and a postcondition of the
value returned; `meets` is the same for `Code`. `made` lists the calls of one
run. Nothing in this file names an application. -/

namespace Ccfolio.Traces

open Programs

variable {C : Type} {R : C → Type}

abbrev Event (R : C → Type) := (c : C) × R c

section Program

variable {α β : Type}

/-- `Follows p tr q`: after the calls and replies of `tr`, `p` has become `q`. -/
inductive Follows : Program R α → List (Event R) → Program R α → Prop
  | nil (p : Program R α) : Follows p [] p
  | cons (c : C) (next : R c → Program R α) (r : R c) (tr : List (Event R)) (q : Program R α) :
      Follows (next r) tr q → Follows (.call c next) (⟨c, r⟩ :: tr) q

theorem Follows.trans {p q r : Program R α} {tr tr' : List (Event R)}
    (first : Follows p tr q) (second : Follows q tr' r) : Follows p (tr ++ tr') r := by
  induction first with
  | nil p => exact second
  | cons c next reply tr q _ ih => exact .cons c next reply _ r (ih second)

/-- The replies a property may rely on (`law`), the property of each call
(`P`, from the calls before it), and the postcondition. -/
def wp (law : Event R → Prop) (P : List (Event R) → Event R → Prop) :
    Program R α → List (Event R) → (α → List (Event R) → Prop) → Prop
  | .ret a, tr, Q => Q a tr
  | .call c next, tr, Q =>
      ∀ r, law ⟨c, r⟩ → P tr ⟨c, r⟩ ∧ wp law P (next r) (tr ++ [⟨c, r⟩]) Q

variable (law : Event R → Prop) (P : List (Event R) → Event R → Prop)

theorem wp_bind (p : Program R α) (f : α → Program R β) (tr : List (Event R))
    (Q : β → List (Event R) → Prop) :
    wp law P (p.bind f) tr Q ↔ wp law P p tr fun a tr' => wp law P (f a) tr' Q := by
  induction p generalizing tr with
  | ret a => rfl
  | call c next ih => simp only [Program.call_bind, wp, ih]

theorem wp_mono {p : Program R α} {tr : List (Event R)} {Q Q' : α → List (Event R) → Prop}
    (le : ∀ a tr', Q a tr' → Q' a tr') (h : wp law P p tr Q) : wp law P p tr Q' := by
  induction p generalizing tr with
  | ret a => exact le a tr h
  | call c next ih => exact fun r lawful => ⟨(h r lawful).1, ih _ (h r lawful).2⟩

theorem wp_and {P' : List (Event R) → Event R → Prop} {p : Program R α} {tr : List (Event R)}
    {Q Q' : α → List (Event R) → Prop} (h : wp law P p tr Q) (h' : wp law P' p tr Q') :
    wp law P p tr fun a tr' => Q a tr' ∧ Q' a tr' := by
  induction p generalizing tr with
  | ret a => exact ⟨h, h'⟩
  | call c next ih =>
    exact fun r lawful => ⟨(h r lawful).1, ih r (h r lawful).2 (h' r lawful).2⟩

theorem wp_any (p : Program R α) (tr : List (Event R)) :
    wp law (fun _ _ => True) p tr fun _ tr' => tr <+: tr' := by
  induction p generalizing tr with
  | ret a => exact List.prefix_rfl
  | call c next ih =>
    refine fun r _ => ⟨trivial, wp_mono law _ (fun _ _ longer => ?_) (ih r _)⟩
    exact (List.prefix_append ..).trans longer

theorem wp_extends {p : Program R α} {tr : List (Event R)} {Q : α → List (Event R) → Prop}
    (h : wp law P p tr Q) : wp law P p tr fun a tr' => Q a tr' ∧ tr <+: tr' := by
  induction p generalizing tr with
  | ret a => exact ⟨h, List.prefix_rfl⟩
  | call c next ih =>
    refine fun r lawful => ⟨(h r lawful).1, ?_⟩
    refine wp_mono law P (fun a tr' done => ⟨done.1, ?_⟩) (ih r (h r lawful).2)
    exact (List.prefix_append ..).trans done.2

theorem wp_sound {p q : Program R α} {tr : List (Event R)} (path : Follows p tr q)
    {before : List (Event R)} {Q : α → List (Event R) → Prop} (h : wp law P p before Q)
    (lawful : ∀ e ∈ tr, law e) :
    (∀ first e last, tr = first ++ e :: last → P (before ++ first) e) ∧
      wp law P q (before ++ tr) Q := by
  induction path generalizing before with
  | nil p => exact ⟨fun first e last eq => by simp at eq, by simpa using h⟩
  | cons c next r tr q _ ih =>
    obtain ⟨now, later⟩ := h r (lawful _ (List.mem_cons_self ..))
    obtain ⟨each, rest⟩ := ih later fun e mem => lawful e (List.mem_cons_of_mem _ mem)
    refine ⟨fun first e last eq => ?_, by simpa [List.append_assoc] using rest⟩
    cases first with
    | nil =>
      obtain ⟨rfl, rfl⟩ := List.cons.inj eq
      simpa using now
    | cons head first =>
      obtain ⟨rfl, tail⟩ := List.cons.inj eq
      simpa [List.append_assoc] using each first e last tail

end Program

section Code

variable {τ ε α β : Type} (law : Event R → Prop) (P : List (Event R) → Event R → Prop)

def meets (x : Code R τ ε α) (t : τ) (tr : List (Event R))
    (Q : Except ε α → τ → List (Event R) → Prop) : Prop :=
  wp law P (x.run.run t) tr fun out tr' => Q out.1 out.2 tr'

variable {law P} {t : τ} {tr : List (Event R)}

@[simp] theorem meets_pure {a : α} {Q : Except ε α → τ → List (Event R) → Prop} :
    meets law P (pure a : Code R τ ε α) t tr Q ↔ Q (.ok a) t tr := Iff.rfl

@[simp] theorem meets_throw {e : ε} {Q : Except ε α → τ → List (Event R) → Prop} :
    meets law P (throw e : Code R τ ε α) t tr Q ↔ Q (.error e) t tr := Iff.rfl

@[simp] theorem meets_modify {f : τ → τ} {Q : Except ε PUnit → τ → List (Event R) → Prop} :
    meets law P (modify f : Code R τ ε PUnit) t tr Q ↔ Q (.ok ⟨⟩) (f t) tr := Iff.rfl

@[simp] theorem meets_ofExcept {x : Except ε α} {Q : Except ε α → τ → List (Event R) → Prop} :
    meets law P (MonadExcept.ofExcept x : Code R τ ε α) t tr Q ↔ Q x t tr := by
  cases x <;> rfl

@[simp] theorem meets_perform {c : C} {Q : Except ε (R c) → τ → List (Event R) → Prop} :
    meets law P (perform c : Code R τ ε (R c)) t tr Q ↔
      ∀ r, law ⟨c, r⟩ → P tr ⟨c, r⟩ ∧ Q (.ok r) t (tr ++ [⟨c, r⟩]) := Iff.rfl

theorem meets_mono {x : Code R τ ε α} {Q Q' : Except ε α → τ → List (Event R) → Prop}
    (le : ∀ out t' tr', Q out t' tr' → Q' out t' tr') (h : meets law P x t tr Q) :
    meets law P x t tr Q' :=
  wp_mono law P (fun out tr' => le out.1 out.2 tr') h

theorem meets_and {P' : List (Event R) → Event R → Prop} {x : Code R τ ε α}
    {Q Q' : Except ε α → τ → List (Event R) → Prop} (h : meets law P x t tr Q)
    (h' : meets law P' x t tr Q') :
    meets law P x t tr fun out t' tr' => Q out t' tr' ∧ Q' out t' tr' :=
  wp_and law P h h'

theorem meets_extends {x : Code R τ ε α} {Q : Except ε α → τ → List (Event R) → Prop}
    (h : meets law P x t tr Q) :
    meets law P x t tr fun out t' tr' => Q out t' tr' ∧ tr <+: tr' :=
  wp_extends law P h

theorem meets_any {x : Code R τ ε α} {Q : Except ε α → τ → List (Event R) → Prop}
    (any : ∀ out t' tr', tr <+: tr' → Q out t' tr') : meets law (fun _ _ => True) x t tr Q :=
  wp_mono law _ (fun out tr' longer => any out.1 out.2 tr' longer) (wp_any law _ tr)

theorem meets_bind {x : Code R τ ε α} {f : α → Code R τ ε β}
    {Q : Except ε β → τ → List (Event R) → Prop} :
    meets law P (x >>= f) t tr Q ↔
      meets law P x t tr fun out t' tr' =>
        match out with
        | .ok a => meets law P (f a) t' tr' Q
        | .error e => Q (.error e) t' tr' := by
  simp only [meets, tree_bind, wp_bind]
  refine iff_of_eq (congrArg _ (funext fun out => funext fun tr' => ?_))
  rcases out with ⟨out | out, t'⟩ <;> rfl

theorem meets_tryCatch {x : Code R τ ε α} {f : ε → Code R τ ε α}
    {Q : Except ε α → τ → List (Event R) → Prop} :
    meets law P (tryCatch x f) t tr Q ↔
      meets law P x t tr fun out t' tr' =>
        match out with
        | .ok a => Q (.ok a) t' tr'
        | .error e => meets law P (f e) t' tr' Q := by
  simp only [meets, tree_tryCatch, wp_bind]
  refine iff_of_eq (congrArg _ (funext fun out => funext fun tr' => ?_))
  rcases out with ⟨out | out, t'⟩ <;> rfl

end Code

/-! The calls of one run, where a handler replies. -/

section Run

variable {σ τ ε α β : Type} (h : Handler R σ)

def calls : Program R α → σ → List C
  | .ret _, _ => []
  | .call c next, s => c :: calls (next (h c s).1) (h c s).2

theorem calls_bind (p : Program R α) (f : α → Program R β) (s : σ) :
    calls h (p.bind f) s = calls h p s ++ calls h (f (exec h p s).1) (exec h p s).2 := by
  induction p generalizing s with
  | ret a => rfl
  | call c next ih => exact congrArg (c :: ·) (ih _ _)

def made (x : Code R τ ε α) (t : τ) (s : σ) : List C := calls h (x.run.run t) s

variable {x : Code R τ ε α} {t : τ} {s : σ}

@[simp] theorem made_pure (a : α) : made h (pure a : Code R τ ε α) t s = [] := rfl

@[simp] theorem made_ofExcept (out : Except ε α) :
    made h (MonadExcept.ofExcept out : Code R τ ε α) t s = [] := by
  cases out <;> rfl

@[simp] theorem made_perform (c : C) : made h (perform c : Code R τ ε (R c)) t s = [c] := rfl

theorem made_bind (f : α → Code R τ ε β) :
    made h (x >>= f) t s = made h x t s ++ match run h x t s with
      | (.ok a, t', s') => made h (f a) t' s'
      | (.error _, _, _) => [] := by
  simp only [made, run, tree_bind, calls_bind]
  rcases exec h (x.run.run t) s with ⟨⟨e | a, t'⟩, s'⟩ <;> rfl

theorem made_tryCatch (f : ε → Code R τ ε α) :
    made h (tryCatch x f) t s = made h x t s ++ match run h x t s with
      | (.ok _, _, _) => []
      | (.error e, t', s') => made h (f e) t' s' := by
  simp only [made, run, tree_tryCatch, calls_bind]
  rcases exec h (x.run.run t) s with ⟨⟨e | a, t'⟩, s'⟩ <;> rfl

def Avoids (c : C) (x : Code R τ ε α) : Prop := ∀ t s, c ∉ made h x t s

variable {h} {c : C}

theorem avoids_pure (a : α) : Avoids h c (pure a : Code R τ ε α) := fun _ _ => List.not_mem_nil

theorem avoids_ofExcept (out : Except ε α) :
    Avoids h c (MonadExcept.ofExcept out : Code R τ ε α) := fun _ _ => by simp

theorem avoids_modify (f : τ → τ) : Avoids h c (modify f : Code R τ ε PUnit) :=
  fun _ _ => List.not_mem_nil

theorem avoids_perform {c' : C} (other : c ≠ c') :
    Avoids h c (perform c' : Code R τ ε (R c')) := fun _ _ => by simpa using other

theorem avoids_bind {f : α → Code R τ ε β} (first : Avoids h c x)
    (rest : ∀ a, Avoids h c (f a)) : Avoids h c (x >>= f) := by
  intro t s
  rw [made_bind, List.mem_append, not_or]
  refine ⟨first t s, ?_⟩
  rcases run h x t s with ⟨e | a, t', s'⟩
  · exact List.not_mem_nil
  · exact rest a t' s'

theorem avoids_tryCatch {f : ε → Code R τ ε α} (first : Avoids h c x)
    (rest : ∀ e, Avoids h c (f e)) : Avoids h c (tryCatch x f) := by
  intro t s
  rw [made_tryCatch, List.mem_append, not_or]
  refine ⟨first t s, ?_⟩
  rcases run h x t s with ⟨e | a, t', s'⟩
  · exact rest e t' s'
  · exact List.not_mem_nil

end Run

end Ccfolio.Traces
