import Ccfolio.Draining
import Ccfolio.LogWorker
import Ccfolio.Mutexes

/-! `LogService::getInstance` from many threads: the service is constructed by
the first that comes to it and does not fail, and the calls of `log` in all of
them are calls of that one. -/

namespace Ccfolio.LogInstance

open Transitions Draining Mutexes LogWorker

/-- Where a thread stands in a statement `LOG(..)`; a service is known by the
number of those constructed before it. -/
inductive Place where
  | outside
  /-- `std::lock_guard<std::mutex> lock(instanceMutex)` -/
  | lock
  /-- `if (instance == nullptr)` -/
  | test
  /-- `instance.reset(new LogService())` -/
  | construct
  /-- The reference is read, the guard goes. -/
  | unlock (service : Nat)
  /-- The constructor threw, the guard goes. -/
  | unwind
  | calling (service : Nat)
  deriving DecidableEq, Repr

structure World (ι β : Type) where
  instanceMutex : Option ι
  instancePtr : Option Nat
  place : ι → Place
  services : List (Service ι β)

inductive Event (ι β : Type) where
  | call (i : ι)
  | go (i : ι)
  /-- The constructor returns, with the file open or not. -/
  | constructed (i : ι) (logFile : Bool)
  | threw (i : ι)
  | turn (service : Nat) (t : Turn ι β)
  /-- Back from `log`, be it that no entry came of it. -/
  | done (i : ι)
  deriving DecidableEq, Repr

variable {ι β : Type} [DecidableEq ι]

def start : World ι β := ⟨none, none, fun _ => .outside, []⟩

def World.goto (w : World ι β) (i : ι) (p : Place) : World ι β :=
  { w with place := Function.update w.place i p }

/-- The next step of a thread in `getInstance`, but for the constructor. -/
def go (w : World ι β) (i : ι) : Option (World ι β) :=
  match w.place i with
  | .lock =>
      if w.instanceMutex = none then some ({ w with instanceMutex := some i }.goto i .test)
      else none
  | .test =>
      match w.instancePtr with
      | none => some (w.goto i .construct)
      | some k => some (w.goto i (.unlock k))
  | .unlock k => some ({ w with instanceMutex := none }.goto i (.calling k))
  | .unwind => some ({ w with instanceMutex := none }.goto i .outside)
  | .outside | .construct | .calling _ => none

def Turn.thread : Turn ι β → Option ι
  | .log i _ | .caller i => some i
  | .worker | .wake | .destroy => none

/-- Whoever calls `log` has the reference to the service it is called on. -/
def Entitled (w : World ι β) (k : Nat) (t : Turn ι β) : Prop :=
  ∀ i ∈ Turn.thread t, w.place i = .calling k

instance (w : World ι β) (k : Nat) (t : Turn ι β) : Decidable (Entitled w k t) :=
  inferInstanceAs (Decidable (∀ i ∈ Turn.thread t, w.place i = .calling k))

def returned (s : Service ι β) (i : ι) : Bool :=
  match s.caller i with
  | .idle => true
  | .lock _ | .push _ | .unlock | .notify => false

def step (w : World ι β) : Event ι β → Option (World ι β)
  | .call i => if w.place i = .outside then some (w.goto i .lock) else none
  | .go i => go w i
  | .constructed i logFile =>
      if w.place i = .construct then
        some ({ w with
          instancePtr := some w.services.length
          services := w.services ++ [LogWorker.start logFile] }.goto i
            (.unlock w.services.length))
      else none
  | .threw i => if w.place i = .construct then some (w.goto i .unwind) else none
  | .turn k t =>
      if Entitled w k t then do
        let s ← w.services[k]?
        let s' ← LogWorker.step s t
        some { w with services := w.services.set k s' }
      else none
  | .done i =>
      match w.place i with
      | .calling k =>
          if ∃ s ∈ w.services[k]?, returned s i then some (w.goto i .outside) else none
      | _ => none

def Event.taken : Event ι β → Option (Turn ι β)
  | .turn _ t => some t
  | .call _ | .go _ | .constructed .. | .threw _ | .done _ => none

def turns (events : List (Event ι β)) : List (Turn ι β) := events.filterMap Event.taken

def inside : Place → Bool
  | .test | .construct | .unlock _ | .unwind => true
  | .outside | .lock | .calling _ => false

def refers : Place → Option Nat
  | .unlock k | .calling k => some k
  | .outside | .lock | .test | .construct | .unwind => none

/-- One service at most, which has taken all the turns of the run. -/
inductive Made (past : List (Turn ι β)) : Option Nat → List (Service ι β) → Prop
  | never (still : past = []) : Made past none []
  | once (logFile : Bool) (s : Service ι β)
      (ran : drive LogWorker.step (LogWorker.start logFile) past = some s) :
      Made past (some 0) [s]

structure Inv (past : List (Turn ι β)) (w : World ι β) : Prop where
  exclusive : Exclusive w.instanceMutex (inside ∘ w.place)
  building : ∀ i, w.place i = .construct → w.instancePtr = none
  referred : ∀ i, ∀ k ∈ refers (w.place i), w.instancePtr = some k
  made : Made past w.instancePtr w.services

theorem inv_start : Inv [] (start : World ι β) where
  exclusive i := by simp [start, inside]
  building i constructs := by cases constructs
  referred i k mem := by cases mem
  made := .never rfl

section Steps

variable {past : List (Turn ι β)} {w w' : World ι β} {i : ι} {p : Place}

theorem Inv.goto (inv : Inv past w) {mutex : Option ι}
    (pass : Passes i w.instanceMutex (inside (w.place i)) mutex (inside p))
    (building : p = .construct → w.instancePtr = none)
    (referred : ∀ k ∈ refers p, w.instancePtr = some k) :
    Inv past ({ w with instanceMutex := mutex }.goto i p) where
  exclusive := by
    change Exclusive mutex (inside ∘ Function.update w.place i p)
    rw [Function.comp_update]
    exact inv.exclusive.pass pass
  building := (Function.forall_update_iff w.place fun _ p => p = .construct → _).mpr
    ⟨building, fun j _ => inv.building j⟩
  referred :=
    (Function.forall_update_iff w.place fun _ p => ∀ k ∈ refers p, w.instancePtr = some k).mpr
      ⟨referred, fun j _ => inv.referred j⟩
  made := inv.made

theorem Inv.go (inv : Inv past w) (next : go w i = some w') : Inv past w' := by
  unfold LogInstance.go at next
  cases point : w.place i with
  | lock =>
    simp only [point] at next
    split_ifs at next with free
    cases next
    exact inv.goto (by rw [free]; exact .take _) nofun nofun
  | test =>
    simp only [point] at next
    cases ptr : w.instancePtr with
    | none =>
      simp only [ptr] at next
      cases next
      exact inv.goto (by rw [point]; exact .keep ..) (fun _ => ptr) nofun
    | some k =>
      simp only [ptr] at next
      cases next
      exact inv.goto (by rw [point]; exact .keep ..) nofun
        fun j mem => (Option.mem_some.mp mem) ▸ ptr
  | unlock k =>
    simp only [point] at next
    cases next
    have known := inv.referred i k (by rw [point]; rfl)
    exact inv.goto (by rw [point]; exact .free _) nofun
      fun j mem => (Option.mem_some.mp mem) ▸ known
  | unwind =>
    simp only [point] at next
    cases next
    exact inv.goto (by rw [point]; exact .free _) nofun nofun
  | outside | construct | calling => simp [point] at next

theorem Made.fresh (made : Made past none w.services) : past = [] ∧ w.services = [] := by
  generalize w.services = services at made
  cases made with
  | never still => exact ⟨still, rfl⟩

theorem Inv.constructed (inv : Inv past w) (point : w.place i = .construct) (logFile : Bool) :
    Inv past ({ w with
      instancePtr := some w.services.length
      services := w.services ++ [LogWorker.start logFile] }.goto i
        (.unlock w.services.length)) := by
  have none := inv.building i point
  obtain ⟨rfl, empty⟩ := Made.fresh (none ▸ inv.made)
  have inner : inside (w.place i) = true := by rw [point]; rfl
  rw [empty]
  refine ⟨?_, ?_, ?_, .once logFile _ rfl⟩
  · change Exclusive w.instanceMutex (inside ∘ Function.update w.place i (.unlock 0))
    rw [Function.comp_update]
    refine inv.exclusive.pass ?_
    rw [Function.comp_apply, inner]
    exact .keep ..
  · refine (Function.forall_update_iff w.place fun _ p => p = .construct → _).mpr
      ⟨nofun, fun j other constructs => ?_⟩
    have outer := inv.exclusive.alone inner other
    rw [Function.comp_apply, constructs] at outer
    cases outer
  · refine (Function.forall_update_iff w.place fun _ p => ∀ k ∈ refers p, some 0 = some k).mpr
      ⟨fun k mem => mem, fun j _ k mem => ?_⟩
    have known := inv.referred j k mem
    rw [none] at known
    cases known

theorem Made.turn (made : Made past w.instancePtr w.services) {k : Nat} {t : Turn ι β}
    {s s' : Service ι β} (called : w.services[k]? = some s) (next : LogWorker.step s t = some s') :
    Made (past ++ [t]) w.instancePtr (w.services.set k s') := by
  generalize w.services = services at made called
  generalize w.instancePtr = instancePtr at made
  cases made with
  | never => cases called
  | once logFile s₀ ran =>
    cases k with
    | zero =>
      cases called
      refine .once logFile s' ?_
      rw [drive_append, ran, Option.bind_some, drive_cons, next]
      rfl
    | succ k => cases called

theorem Inv.still (inv : Inv past w) {e : Event ι β} (quiet : e.taken = none)
    (next : step w e = some w') : Inv past w' := by
  cases e with
  | turn k t => cases quiet
  | call i =>
    simp only [step] at next
    split_ifs at next with point
    cases next
    exact inv.goto (by rw [point]; exact .keep ..) nofun nofun
  | go i => exact inv.go next
  | constructed i logFile =>
    simp only [step] at next
    split_ifs at next with point
    cases next
    exact inv.constructed point logFile
  | threw i =>
    simp only [step] at next
    split_ifs at next with point
    cases next
    exact inv.goto (by rw [point]; exact .keep ..) nofun nofun
  | done i =>
    simp only [step] at next
    cases point : w.place i with
    | calling k =>
      simp only [point] at next
      split_ifs at next
      cases next
      exact inv.goto (by rw [point]; exact .keep ..) nofun nofun
    | _ => simp [point] at next

theorem inv_step (inv : Inv past w) {e : Event ι β} (next : step w e = some w') :
    Inv (past ++ e.taken.toList) w' := by
  cases e with
  | turn k t =>
    simp only [step] at next
    split_ifs at next with entitled
    simp only [Option.bind_eq_bind, Option.bind_eq_some_iff, Option.some.injEq] at next
    obtain ⟨s, called, s', taken, rfl⟩ := next
    exact ⟨inv.exclusive, inv.building, inv.referred, inv.made.turn called taken⟩
  | _ =>
    rw [show Event.taken _ = none from rfl, Option.toList_none, List.append_nil]
    exact inv.still rfl next

theorem inv_run (inv : Inv past w) {events : List (Event ι β)}
    (run : drive step w events = some w') : Inv (past ++ turns events) w' := by
  induction events generalizing past w with
  | nil =>
    cases run
    simpa [turns] using inv
  | cons e rest ih =>
    rw [drive_cons, Option.bind_eq_some_iff] at run
    obtain ⟨middle, first, later⟩ := run
    have last := ih (inv_step inv first) later
    have split : turns (e :: rest) = e.taken.toList ++ turns rest := by
      cases taken : e.taken <;> simp [turns, taken]
    rw [split, ← List.append_assoc]
    exact last

end Steps

/-- However many threads come to `LOG` first, and whichever constructors throw,
the turns of all calls of `log` are one run of one service, which every thread
that has a reference refers to. -/
theorem one_service {events : List (Event ι β)} {w : World ι β}
    (run : drive step start events = some w) :
    Made (turns events) w.instancePtr w.services ∧
      ∀ i k, w.place i = .calling k → w.instancePtr = some k := by
  have inv := inv_run inv_start run
  rw [List.nil_append] at inv
  exact ⟨inv.made, fun i k point => inv.referred i k (by rw [point]; rfl)⟩

section Returns

variable {past : List (Turn ι β)} {w w' : World ι β} {i : ι} {p q : Place}

def Getting : Event ι β → Prop
  | .go _ | .constructed .. | .threw _ => True
  | .call _ | .turn .. | .done _ => False

def placeEffort : Place → Nat
  | .outside | .calling _ => 0
  | .unlock _ | .unwind => 1
  | .construct => 2
  | .test => 3
  | .lock => 4

variable [Fintype ι]

def effort (w : World ι β) : Nat := ∑ i, placeEffort (w.place i)

theorem effort_less (point : w.place i = q) (moved : w'.place = Function.update w.place i p)
    (less : placeEffort p < placeEffort q) : effort w' < effort w := by
  have bound := sum_kept (t := i) (f := fun j => placeEffort (w.place j))
    (g := fun j => placeEffort (w'.place j)) fun j other => by
      rw [moved, Function.update_of_ne other]
  simp only [moved, Function.update_self, point] at bound
  unfold effort
  rw [moved]
  omega

theorem effort_go (next : go w i = some w') : effort w' < effort w := by
  unfold go at next
  cases point : w.place i with
  | lock =>
    simp only [point] at next
    split_ifs at next
    cases next
    exact effort_less point rfl (by decide)
  | test =>
    simp only [point] at next
    cases ptr : w.instancePtr with
    | none | some k =>
      simp only [ptr] at next
      cases next
      exact effort_less point rfl (by simp [placeEffort])
  | unlock k | unwind =>
    simp only [point] at next
    cases next
    exact effort_less point rfl Nat.one_pos
  | outside | construct | calling => simp [point] at next

theorem effort_step {e : Event ι β} (getting : Getting e) (next : step w e = some w') :
    effort w' < effort w := by
  cases e with
  | go i => exact effort_go next
  | constructed i logFile =>
    simp only [step] at next
    split_ifs at next with point
    cases next
    exact effort_less point rfl Nat.one_lt_two
  | threw i =>
    simp only [step] at next
    split_ifs at next with point
    cases next
    exact effort_less point rfl Nat.one_lt_two
  | call | turn | done => exact getting.elim

omit [Fintype ι] in
theorem returned_of_stuck (inv : Inv past w) (stuck : ∀ e, Getting e → step w e = none) (i : ι) :
    w.place i = .outside ∨ ∃ k, w.place i = .calling k ∧ w.instancePtr = some k := by
  have left : ∀ j, inside (w.place j) = false := by
    intro j
    have going : go w j = none := stuck (.go j) trivial
    unfold go at going
    cases point : w.place j with
    | outside | lock | calling => rfl
    | test => cases ptr : w.instancePtr <;> simp [point, ptr] at going
    | construct =>
      have throws := stuck (.threw j) trivial
      simp [step, point] at throws
    | unlock | unwind => simp [point] at going
  have free := inv.exclusive.unlocked left
  have going : go w i = none := stuck (.go i) trivial
  have outer := left i
  unfold go at going
  cases point : w.place i with
  | outside => exact .inl rfl
  | calling k => exact .inr ⟨k, rfl, inv.referred i k (by rw [point]; rfl)⟩
  | lock => simp [point, free] at going
  | test | construct | unlock | unwind =>
    rw [point] at outer
    cases outer

/-- `getInstance` returns or throws in every thread, whatever the others do in
it. -/
theorem get_instance_returns {events : List (Event ι β)} {w : World ι β}
    (run : drive step start events = some w) :
    Drains step Getting w fun w' => ∀ i, w'.place i = .outside ∨
      ∃ k, w'.place i = .calling k ∧ w'.instancePtr = some k := by
  refine drains_of_rank (I := fun w => ∃ past, Inv past w) (r := effort) ?_ ?_
    ⟨_, inv_run inv_start run⟩
  · rintro w e w' ⟨past, inv⟩ getting next
    exact ⟨⟨_, inv_step inv next⟩, effort_step getting next⟩
  · rintro w ⟨past, inv⟩ stuck
    exact returned_of_stuck inv stuck

end Returns

/-- Two threads come to it at once, and the first constructor throws. -/
def firstThrows : List (Event Bool Nat) :=
  [.call false, .call true, .go false, .go false, .threw false, .go false, .go true, .go true,
    .call false, .constructed true true, .go true, .turn 0 (.log true 7), .turn 0 .worker]

def afterFirstThrows : World Bool Nat := (drive step start firstThrows).getD start

theorem one_service_thrown :
    Made [.log true 7, .worker] afterFirstThrows.instancePtr afterFirstThrows.services ∧
      ∀ i k, afterFirstThrows.place i = .calling k → afterFirstThrows.instancePtr = some k :=
  one_service (show drive step start firstThrows = some afterFirstThrows from rfl)

theorem get_instance_returns_thrown :
    afterFirstThrows.place false = .lock ∧
      Drains step Getting afterFirstThrows fun w' => ∀ i, w'.place i = .outside ∨
        ∃ k, w'.place i = .calling k ∧ w'.instancePtr = some k :=
  ⟨rfl, get_instance_returns (show drive step start firstThrows = some _ from rfl)⟩

end Ccfolio.LogInstance
