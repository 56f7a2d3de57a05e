import Mathlib.Data.List.Basic

/-! Messages on one byte stream, each a header and then a payload, read back by
a receiver that knows which messages it must read without a payload. A header
is one octet here; what of it gives the length of the payload is a parameter.
Nothing in this file names an application. -/

namespace Ccfolio.Framing

inductive Octet (H B : Type) where
  | header (h : H)
  | byte (b : B)
  deriving DecidableEq, Repr

structure Message (H B : Type) where
  header : H
  payload : List B
  /-- The receiver takes the message to have no payload. -/
  bodiless : Bool
  deriving DecidableEq, Repr

variable {H B : Type}

def emit (m : Message H B) : List (Octet H B) := .header m.header :: m.payload.map .byte

def takeBytes : Nat → List (Octet H B) → Option (List B × List (Octet H B))
  | 0, stream => some ([], stream)
  | n + 1, .byte b :: stream => (takeBytes n stream).map fun r => (b :: r.1, r.2)
  | _ + 1, _ => none

def takeAll : List (Octet H B) → Option (List B)
  | [] => some []
  | .byte b :: stream => (takeAll stream).map (b :: ·)
  | .header _ :: _ => none

section Reader

variable (size : H → Option Nat) (closed : Bool)

/-- One message: no payload where none is expected, else as many bytes as the
header says, else all there is, once the stream has ended. -/
def readOne (bodiless : Bool) : List (Octet H B) → Option ((H × List B) × List (Octet H B))
  | .header h :: stream =>
      if bodiless then some ((h, []), stream)
      else match size h with
        | some n => (takeBytes n stream).map fun r => ((h, r.1), r.2)
        | none => if closed then (takeAll stream).map fun payload => ((h, payload), []) else none
  | _ => none

/-- One message for every expectation, and nothing left over. -/
def split : List Bool → List (Octet H B) → Option (List (H × List B))
  | [], [] => some []
  | [], _ :: _ => none
  | expected :: rest, stream =>
      (readOne size closed expected stream).bind fun r => (split rest r.2).map (r.1 :: ·)

/-- The header of every message gives the length of its payload; the last one
may leave that to the end of the stream. -/
def Framed : List (Message H B) → Prop
  | [] => True
  | m :: rest =>
      (size m.header = some m.payload.length ∨ size m.header = none ∧ rest = [] ∧ closed = true) ∧
        Framed rest

def content (m : Message H B) : H × List B := (m.header, if m.bodiless then [] else m.payload)

/-- The receiver splits the stream into the messages sent, one for one. -/
def Splits (messages : List (Message H B)) (stream : List (Octet H B)) : Prop :=
  split size closed (messages.map (·.bodiless)) stream = some (messages.map content)

theorem takeBytes_append (payload : List B) (stream : List (Octet H B)) :
    takeBytes payload.length (payload.map .byte ++ stream) = some (payload, stream) := by
  induction payload with
  | nil => rfl
  | cons b payload ih => simp [takeBytes, ih]

theorem takeAll_bytes (payload : List B) :
    takeAll (payload.map (Octet.byte (H := H))) = some payload := by
  induction payload with
  | nil => rfl
  | cons b payload ih => simp [takeAll, ih]

variable {size closed}

instance [DecidableEq H] [DecidableEq B] (messages : List (Message H B))
    (stream : List (Octet H B)) : Decidable (Splits size closed messages stream) :=
  inferInstanceAs (Decidable (_ = _))

theorem framed_of_dropLast {messages : List (Message H B)}
    (kept : ∀ m ∈ messages.dropLast, size m.header = some m.payload.length)
    (ended : ∀ m ∈ messages, size m.header = some m.payload.length ∨
      size m.header = none ∧ closed = true) :
    Framed size closed messages := by
  induction messages with
  | nil => trivial
  | cons m rest ih =>
    cases rest with
    | nil =>
      refine ⟨(ended m (List.mem_cons_self ..)).imp id fun ⟨unsized, shut⟩ => ?_, trivial⟩
      exact ⟨unsized, rfl, shut⟩
    | cons m' rest =>
      refine ⟨.inl (kept m (by simp)), ih (fun n mem => kept n ?_) fun n mem => ended n ?_⟩
      · exact List.mem_cons_of_mem _ mem
      · exact List.mem_cons_of_mem _ mem

theorem readOne_emit {m : Message H B} (full : m.bodiless = false) (stream : List (Octet H B))
    (framed : size m.header = some m.payload.length ∨
      size m.header = none ∧ stream = [] ∧ closed = true) :
    readOne size closed m.bodiless (emit m ++ stream) = some ((m.header, m.payload), stream) := by
  rcases framed with sized | ⟨unsized, rfl, ended⟩
  · simp [readOne, emit, full, sized, takeBytes_append]
  · simp [readOne, emit, full, unsized, ended, takeAll_bytes]

theorem readOne_bodiless (size : H → Option Nat) (closed : Bool) {m : Message H B}
    (expected : m.bodiless = true) (stream : List (Octet H B)) :
    readOne size closed m.bodiless (emit m ++ stream) =
      some ((m.header, []), m.payload.map .byte ++ stream) := by
  simp [readOne, emit, expected]

theorem split_bytes (expected : List Bool) (b : B) (stream : List (Octet H B)) :
    split size closed expected (.byte b :: stream) = none := by
  cases expected <;> rfl

/-- A payload that the receiver does not expect is the only way to lose the
boundaries. -/
theorem splits_iff {messages : List (Message H B)} (framed : Framed size closed messages) :
    Splits size closed messages (messages.flatMap emit) ↔
      ∀ m ∈ messages, m.bodiless = true → m.payload = [] := by
  induction messages with
  | nil => exact iff_of_true rfl nofun
  | cons m rest ih =>
    obtain ⟨first, later⟩ := framed
    have tail := ih later
    simp only [Splits, List.map_cons, split, List.flatMap_cons, List.forall_mem_cons] at tail ⊢
    cases expected : m.bodiless with
    | false =>
      have read := readOne_emit expected (rest.flatMap emit)
        (first.imp id fun ⟨unsized, last, ended⟩ => ⟨unsized, by rw [last]; rfl, ended⟩)
      rw [expected] at read
      rw [read, ← tail]
      simp [content, expected]
    | true =>
      have read := readOne_bodiless size closed expected (rest.flatMap emit)
      rw [expected] at read
      rw [read, ← tail]
      cases payload : m.payload with
      | nil => simp [content, expected]
      | cons b bytes => simp [split_bytes]

end Reader

end Ccfolio.Framing
