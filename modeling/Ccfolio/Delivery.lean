import Ccfolio.SessionLifetimes

/-! The calls of `send` as broadcasts to the sessions that were in `sessions_`:
each step of the program is a step of `Broadcasts` or none, and the strands and
write queues keep the order in which the messages were posted. -/

namespace Ccfolio.Delivery

open Broadcasts Registries SessionLifetimes SharedState Transitions

variable {T A : Type}

def stageAfter : After → Option (Broadcast × Stage SessionId)
  | .idle => none
  | .deliver _ m v => some (m, .visiting v)

def stage (memory : A → Option SessionId) : Pc A → Option (Broadcast × Stage SessionId)
  | .idle | .making _ | .handler _ | .joinLock _ | .joinInsert _ | .joinUnlock _ | .joined _ => none
  | .sendLock _ m => some (m, .waiting)
  | .snapshot _ m todo v => some (m, .visiting (v ++ todo.filterMap memory))
  | .deliver _ m v | .posted _ m _ v => some (m, .visiting v)
  | .holding _ m i v => some (m, .telling i v)
  | .leaveLock _ after | .leaveErase _ after | .leaveUnlock _ after | .free _ after =>
      stageAfter after

def view (w : World T A) : State T SessionId :=
  ⟨w.begun, w.calls, fun i => (w.object i).writer.sent, fun t => stage w.heap.memory (w.pc t)⟩

@[simp] theorem stage_returnTo (memory : A → Option SessionId) (caller : Option SessionId) :
    stage memory (returnTo caller) = none := by cases caller <;> rfl

@[simp] theorem stage_after (memory : A → Option SessionId) (after : After) :
    stage memory after.pc = stageAfter after := by cases after <;> rfl

@[simp] theorem stage_entry (memory : A → Option SessionId) (i : SessionId) (c : Completion) :
    stage memory (c.entry i) = none := by rcases c with (_ | _) | _ | _ | _ <;> rfl

theorem stage_last {p : Pc A} {i : SessionId} {after : After} (memory : A → Option SessionId)
    (h : p.last = some (i, after)) : stage memory p = stageAfter after := by
  cases p <;> cases h <;> rfl

theorem stage_congr {memory memory' : A → Option SessionId} {p : Pc A}
    (same : ∀ a ∈ scan p, memory' a = memory a) : stage memory' p = stage memory p := by
  cases p with
  | snapshot caller m todo v =>
    have read : todo.filterMap memory' = todo.filterMap memory := List.filterMap_congr same
    simp only [stage, read]
  | _ => rfl

variable {w w' : World T A} {t : T} {i : SessionId}

theorem view_eq {s : State T SessionId} (begun : w'.begun = s.begun) (calls : w'.calls = s.calls)
    (sent : ∀ i, (w'.object i).writer.sent = s.posts i)
    (stages : ∀ t, stage w'.heap.memory (w'.pc t) = s.stage t) : view w' = s := by
  obtain ⟨b, c, posts, stage⟩ := s
  cases begun
  cases calls
  cases funext sent
  cases funext stages
  rfl

variable [DecidableEq T]

theorem view_stay (inv : SessionLifetimes.Inv w) {p q : Pc A} (at_pc : w.pc t = q)
    (pc : w'.pc = Function.update w.pc t p) (begun : w'.begun = w.begun)
    (calls : w'.calls = w.calls)
    (sent : ∀ i, (w'.object i).writer.sent = (w.object i).writer.sent)
    (memory : ∀ a ∈ w.heap.registry, w'.heap.memory a = w.heap.memory a)
    (same : stage w'.heap.memory p = stage w.heap.memory q) : view w' = view w := by
  subst at_pc
  refine view_eq begun calls sent fun s => ?_
  rw [pc]
  by_cases self : s = t
  · rw [self, Function.update_self]
    exact same
  · rw [Function.update_of_ne self]
    exact stage_congr fun a mem => memory a (inv.scan s mem)

theorem view_step {s : State T SessionId} {p : Pc A} (next : Broadcasts.Step (view w) t s)
    (pc : w'.pc = Function.update w.pc t p) (memory : w'.heap.memory = w.heap.memory)
    (begun : w'.begun = s.begun) (calls : w'.calls = s.calls)
    (sent : ∀ i, (w'.object i).writer.sent = s.posts i)
    (stages : s.stage = Function.update (view w).stage t (stage w.heap.memory p)) :
    view w' = view w ∨ Broadcasts.Step (view w) t (view w') := by
  have same : view w' = s := view_eq begun calls sent fun s' => by
    rw [pc, memory, stages]
    exact Function.apply_update (fun _ => stage w.heap.memory) w.pc t p s'
  exact .inr (same.symm ▸ next)

/-- The write side of every session is in order, and nothing has reached a
session that is not made yet. -/
structure Wired (w : World T A) : Prop where
  stage : ∀ i, WebSocketSession.Stage (w.object i).writer
  unborn : ∀ i, w.heap.life i = .unborn → (w.object i).writer = .start

omit [DecidableEq T] in
theorem take_writer {o o' : Object T} {c : Completion} (taken : o.take c = some o') :
    o'.writer.sent = o.writer.sent ∧
      (WebSocketSession.Stage o.writer → WebSocketSession.Stage o'.writer) := by
  unfold Object.take at taken
  split at taken
  case h_1 | h_2 =>
    split_ifs at taken
    cases taken
    exact ⟨rfl, id⟩
  case h_3 | h_4 =>
    obtain ⟨s, next, rfl⟩ := Option.map_eq_some_iff.mp taken
    exact ⟨WebSocketSession.sent_step next nofun,
      fun stage => WebSocketSession.stage_step stage next⟩

omit [DecidableEq T] in
theorem edit_sent {o : Object T} (object : w'.object = Function.update w.object i o)
    (same : o.writer.sent = (w.object i).writer.sent) (j : SessionId) :
    (w'.object j).writer.sent = (w.object j).writer.sent := by
  rw [object]
  by_cases at_i : j = i
  · rw [at_i, Function.update_self, same]
  · rw [Function.update_of_ne at_i]

variable [DecidableEq A]

theorem moves_view (inv : SessionLifetimes.Inv w) (wired : Wired w) (move : Moves w t w') :
    view w' = view w ∨ Broadcasts.Step (view w) t (view w') := by
  cases move with
  | @create i a at_pc unborn unused =>
    exact .inl (view_stay inv at_pc rfl rfl rfl
      (edit_sent (o := .fresh t) rfl (by rw [wired.unborn i unborn]; rfl))
      (fun b mem => create_memory_of_mem inv.heap unused mem) rfl)
  | run at_pc strand taken =>
    exact .inl (view_stay inv at_pc rfl rfl rfl (edit_sent rfl (take_writer taken).1)
      (fun _ _ => rfl) (stage_entry _ _ _))
  | call caller at_pc =>
    have outside : (view w).stage t = none := by simp only [view, at_pc, stage_returnTo]
    exact view_step (.begin outside) rfl rfl rfl rfl (fun _ => rfl) rfl
  | @release i busy after at_pc =>
    refine .inl ?_
    simp only [World.release]
    split_ifs with last
    · exact view_stay inv rfl rfl rfl rfl (edit_sent rfl rfl) (fun _ _ => rfl)
        (by rw [stage_last _ at_pc]; rfl)
    · exact view_stay inv rfl rfl rfl rfl (edit_sent rfl rfl) (fun _ _ => rfl)
        (by rw [stage_last _ at_pc, stage_after])
  | joinLock at_pc free | leaveLock at_pc free | joinUnlock at_pc | leaveUnlock at_pc =>
    exact .inl (view_stay inv at_pc rfl rfl rfl (fun _ => rfl) (fun _ _ => rfl) rfl)
  | joinInsert at_pc | leaveErase at_pc =>
    exact .inl (view_stay inv at_pc rfl rfl rfl (fun _ => rfl) (fun _ _ => rfl) rfl)
  | joined at_pc =>
    exact .inl (view_stay inv at_pc rfl rfl rfl (edit_sent rfl rfl) (fun _ _ => rfl) rfl)
  | @sendLock caller m order at_pc free all =>
    have waiting : (view w).stage t = some (m, .waiting) := by simp only [view, at_pc, stage]
    have distinct : (order.filterMap w.heap.memory).Nodup :=
      inv.heap.memory_nodup (all.nodup_iff.mpr inv.heap.distinct)
    exact view_step (.snapshot waiting distinct) rfl rfl rfl rfl (fun _ => rfl) rfl
  | snapshot at_pc there =>
    exact .inl (view_stay inv at_pc rfl rfl rfl (fun _ => rfl) (fun _ _ => rfl)
      (by simp [World.goto, stage, there]))
  | sendUnlock at_pc =>
    exact .inl (view_stay inv at_pc rfl rfl rfl (fun _ => rfl) (fun _ _ => rfl) (by simp [stage]))
  | @locked caller m i v at_pc alive =>
    have visiting : (view w).stage t = some (m, .visiting (i :: v)) := by
      simp only [view, at_pc, stage]
    exact view_step (.there visiting) rfl rfl rfl rfl (edit_sent rfl rfl) rfl
  | @expired caller m i v at_pc gone =>
    have visiting : (view w).stage t = some (m, .visiting (i :: v)) := by
      simp only [view, at_pc, stage]
    exact view_step (.gone visiting) rfl rfl rfl rfl (fun _ => rfl) rfl
  | @returned caller m at_pc =>
    have visiting : (view w).stage t = some (m, .visiting []) := by simp only [view, at_pc, stage]
    exact view_step (.finish visiting) rfl rfl rfl rfl (fun _ => rfl) (by rw [stage_returnTo]; rfl)
  | @post caller m i v at_pc =>
    have telling : (view w).stage t = some (m, .telling i v) := by simp only [view, at_pc, stage]
    refine view_step (.post telling) rfl rfl rfl ?_ (fun j => ?_) rfl
    · exact (Function.update_eq_self m w.calls).symm
    · change (Function.update w.object i _ j).writer.sent = Function.update (view w).posts i _ j
      by_cases same : j = i
      · rw [same, Function.update_self, Function.update_self]
        rfl
      · rw [Function.update_of_ne same, Function.update_of_ne same]
        rfl
  | @free i after at_pc =>
    have left := inv.doomed t i .left (by rw [at_pc]; rfl)
    exact .inl (view_stay inv at_pc rfl rfl rfl (fun _ => rfl)
      (fun a mem => free_memory_of_mem inv.heap left mem) (stage_after _ after))

omit [DecidableEq T] [DecidableEq A] in
theorem Wired.edit (wired : Wired w) {o : Object T}
    (object : w'.object = Function.update w.object i o)
    (stage : WebSocketSession.Stage o.writer)
    (made : w.heap.life i = .live ∨ o.writer = (w.object i).writer)
    (life : ∀ j, w'.heap.life j = .unborn → w.heap.life j = .unborn) : Wired w' := by
  refine ⟨fun j => ?_, fun j unborn => ?_⟩
  · rw [object]
    by_cases same : j = i
    · rw [same, Function.update_self]
      exact stage
    · rw [Function.update_of_ne same]
      exact wired.stage j
  · have before := life j unborn
    rw [object]
    by_cases same : j = i
    · rw [same] at before
      rw [same, Function.update_self]
      rcases made with live | kept
      · rw [live] at before
        cases before
      · rw [kept]
        exact wired.unborn i before
    · rw [Function.update_of_ne same]
      exact wired.unborn j before

omit [DecidableEq T] [DecidableEq A] in
theorem Wired.stay (wired : Wired w) (object : w'.object = w.object)
    (life : ∀ j, w'.heap.life j = .unborn → w.heap.life j = .unborn) : Wired w' :=
  ⟨fun j => object ▸ wired.stage j, fun j unborn => object ▸ wired.unborn j (life j unborn)⟩

theorem moves_wired (inv : SessionLifetimes.Inv w) (wired : Wired w) (move : Moves w t w') :
    Wired w' := by
  -- a session that a step moves on was made before
  have staged : ∀ {heap : Heap SessionId A} {i : SessionId} {l : Life}, l ≠ .unborn →
      (∀ j, heap.life j = if j = i then l else w.heap.life j) →
      ∀ j, heap.life j = .unborn → w.heap.life j = .unborn := by
    intro heap i l other life j unborn
    rw [life] at unborn
    split_ifs at unborn with same
    · exact absurd unborn other
    · exact unborn
  cases move with
  | @create i a at_pc unborn unused =>
    exact wired.edit (o := .fresh t) rfl (.idle [] [] [] rfl)
      (.inr (wired.unborn i unborn).symm) (staged Life.noConfusion (fun j => Heap.create_life ..))
  | @run i c o at_pc strand taken =>
    exact wired.edit rfl ((take_writer taken).2 (wired.stage i))
      (.inl (inv.alive i (take_some taken).1)) (fun _ => id)
  | call caller at_pc => exact wired.stay rfl (fun _ => id)
  | @release i busy after at_pc =>
    simp only [World.release]
    split_ifs with last
    · exact wired.edit rfl (wired.stage i) (.inr rfl)
        (staged Life.noConfusion (fun j => Heap.die_life ..))
    · exact wired.edit rfl (wired.stage i) (.inr rfl) (fun _ => id)
  | joinLock | joinInsert | joinUnlock | sendLock | snapshot | sendUnlock | expired | returned
  | leaveLock | leaveUnlock => exact wired.stay rfl (fun _ => id)
  | @joined i at_pc => exact wired.edit rfl (wired.stage i) (.inr rfl) (fun _ => id)
  | @locked caller m i v at_pc alive =>
    exact wired.edit rfl (wired.stage i) (.inr rfl) (fun _ => id)
  | @post caller m i v at_pc =>
    have live := inv.live_of_held (t := t) (i := i) (by rw [at_pc]; exact List.mem_cons_self ..)
    exact wired.edit rfl (WebSocketSession.stage_send (wired.stage i) m) (.inl live) (fun _ => id)
  | leaveErase => exact wired.stay rfl (staged Life.noConfusion (fun j => Heap.leave_life ..))
  | free => exact wired.stay rfl (staged Life.noConfusion (fun j => Heap.free_life ..))

omit [DecidableEq T] [DecidableEq A] in
theorem wired_start : Wired (start : World T A) :=
  ⟨fun _ => .idle [] [] [] rfl, fun _ _ => rfl⟩

omit [DecidableEq T] [DecidableEq A] in
theorem view_start : Broadcasts.Inv (view (start : World T A)) :=
  ⟨fun _ _ => rfl, nofun, nofun, nofun, nofun, nofun, fun _ => List.nodup_nil,
    fun _ => List.prefix_rfl, fun _ => List.nodup_nil, nofun, fun _ => List.Pairwise.nil⟩

theorem reachable_view (h : Reachable step start w) :
    SessionLifetimes.Inv w ∧ Wired w ∧ Broadcasts.Inv (view w) := by
  have keep : ∀ (w : World T A) a w',
      SessionLifetimes.Inv w ∧ Wired w ∧ Broadcasts.Inv (view w) → step w a = some w' →
      SessionLifetimes.Inv w' ∧ Wired w' ∧ Broadcasts.Inv (view w') := by
    intro w a w' ⟨inv, wired, calls⟩ next
    have move := step_moves next
    refine ⟨inv_moves inv move, moves_wired inv wired move, ?_⟩
    rcases moves_view inv wired move with same | next
    · rw [same]
      exact calls
    · exact Broadcasts.inv_step calls next
  exact reachable_invariant step keep ⟨inv_start, wired_start, view_start⟩ h

structure Delivered (w : World T A) : Prop where
  /-- A call records the sessions that are in `sessions_` when it takes the mutex. -/
  snapshot : ∀ t caller m order w', w.pc t = .sendLock caller m →
    step w (t, .go order) = some w' →
    ∀ i, i ∈ (w'.calls m).members ↔ ∃ a ∈ w.heap.registry, w.heap.memory a = some i
  /-- It records whether a session is alive when it locks its weak pointer. -/
  locked : ∀ t caller m i v order w', w.pc t = .deliver caller m (i :: v) →
    step w (t, .go order) = some w' →
    (w'.calls m).checked = (w.calls m).checked ++ [(i, decide (0 < (w.object i).useCount))]
  /-- A new call records the calls that have returned. -/
  earlier : ∀ t w', step w (t, .call) = some w' →
    ∀ m, m ∈ (w'.calls w.begun).earlier ↔ (w.calls m).returned = true
  members : ∀ m, (w.calls m).members.Nodup ∧
    (w.calls m).checked.map Prod.fst <+: (w.calls m).members
  posted : ∀ m i, (w.object i).writer.sent.count m ≤ 1 ∧
    (m ∈ (w.object i).writer.sent → (i, true) ∈ (w.calls m).checked)
  returned : ∀ m, (w.calls m).returned = true →
    (w.calls m).checked.map Prod.fst = (w.calls m).members ∧
    ∀ i, (w.object i).writer.sent.count m = if (i, true) ∈ (w.calls m).checked then 1 else 0
  started : ∀ i, (w.object i).writer.started <+: (w.object i).writer.sent
  order : ∀ i m m', m ∈ (w.calls m').earlier → m ∈ (w.object i).writer.sent →
    m' ∈ (w.object i).writer.started → [m, m'].Sublist (w.object i).writer.started

/-- In every reachable state the calls of `send` have posted to the living of their snapshots,
once each, and the write queues keep the order of the posts. -/
theorem broadcasts_delivered {T A : Type} [DecidableEq T] [DecidableEq A] {w : World T A}
    (h : Reachable step start w) : Delivered w := by
  obtain ⟨inv, wired, calls⟩ := reachable_view h
  have front : ∀ i, (w.object i).writer.started <+: (w.object i).writer.sent :=
    fun i => WebSocketSession.started_prefix (wired.stage i)
  refine ⟨fun t caller m order w' at_pc next i => ?_, fun t caller m i v order w' at_pc next => ?_,
    fun t w' next m => ?_, fun m => ⟨calls.distinct m, calls.within m⟩,
    fun m i => ⟨List.nodup_iff_count_le_one.mp (calls.once i) m, calls.told m i⟩,
    fun m returned => ⟨(calls.done m returned).1, calls.count returned⟩, front,
    fun i m m' before mem began => calls.first before mem (front i) began⟩
  · simp only [step, go, at_pc] at next
    split_ifs at next with free
    cases next
    simp [World.goto, World.setCall, List.mem_filterMap, free.2.mem_iff]
  · simp only [step, go, at_pc] at next
    split_ifs at next with alive
    · cases next
      simp [World.goto, World.setCall, World.edit, alive]
    · cases next
      simp [World.goto, World.setCall, alive]
  · obtain ⟨caller, rfl⟩ := step_call next
    have earlier : ((w.begin t caller).calls w.begun).earlier = finished w.begun w.calls := by
      simp [World.begin, World.goto, World.setCall]
    rw [earlier]
    exact calls.mem_finished

/-- Session 0 joins and two calls of `send` follow each other; the session has
written the first message and is writing the second. -/
def twoCalls : List (Nat × Action Nat) :=
  [(0, .create 0 7), (0, .go []), (0, .run 0 (.accept true)), (0, .go []), (0, .go []),
    (0, .go []), (0, .go []), (0, .go []),
    (1, .call), (1, .go [7]), (1, .go []), (1, .go []), (1, .go []), (1, .go []), (1, .go []),
    (1, .go []),
    (2, .call), (2, .go [7]), (2, .go []), (2, .go []), (2, .go []), (2, .go []), (2, .go []),
    (2, .go []),
    (0, .run 0 .onSend), (0, .go []), (0, .run 0 .onSend), (0, .go []),
    (0, .run 0 (.onWrite true)), (0, .go [])]

def afterTwoCalls : World Nat Nat := (drive step start twoCalls).getD start

theorem broadcasts_delivered_two :
    (afterTwoCalls.calls 1).earlier = [0] ∧ (afterTwoCalls.calls 1).returned = true ∧
      (afterTwoCalls.object 0).writer.started = [0, 1] ∧ Delivered afterTwoCalls :=
  ⟨rfl, rfl, rfl, broadcasts_delivered ⟨twoCalls, rfl⟩⟩

end Ccfolio.Delivery
