import Flipbook.Document.Error
import Flipbook.Notice

/-!
# Reading documents

Whatever reads a document may refuse it, and may give notices either way: those
given before a refusal stay. `Reading` is the monad of both.
-/
namespace Flipbook.Document

/-- A computation that reads a document or a part of it. -/
abbrev Reading := ExceptT Error Noted

namespace Reading

variable {α : Type}

/-- Nothing but a notice. -/
def note (n : Notice) : Reading Unit := ExceptT.lift (Noted.note n)

/-- A computation that only gives notices. -/
def ofNoted (x : Noted α) : Reading α := ExceptT.lift x

/-- A computation that only may refuse. -/
def ofExcept (x : Except Error α) : Reading α := ExceptT.mk (pure x)

/-- The outcome, with the notices beside it. -/
def outcome (x : Reading α) : Noted (Except Error α) := x

/-! ## Outcomes -/

@[simp] theorem outcome_pure (a : α) : (pure a : Reading α).outcome.value = .ok a := rfl

@[simp] theorem outcome_throw (e : Error) : (throw e : Reading α).outcome.value = .error e := rfl

@[simp] theorem outcome_ofNoted (x : Noted α) : (ofNoted x).outcome.value = .ok x.value := rfl

@[simp] theorem outcome_ofExcept (x : Except Error α) : (ofExcept x).outcome.value = x := rfl

@[simp] theorem outcome_note (n : Notice) : (note n).outcome.value = .ok () := rfl

/-- A computation goes on when it is not refused. -/
theorem outcome_bind {β : Type} (x : Reading α) (f : α → Reading β) :
    (x >>= f).outcome.value =
      match x.outcome.value with
      | .ok a => (f a).outcome.value
      | .error e => .error e := by
  show (Noted.value (x.outcome >>= ExceptT.bindCont f)) = _
  rw [Noted.value_bind]
  cases x.outcome.value <;> rfl

theorem outcome_bind_eq_ok_iff {β : Type} {x : Reading α} {f : α → Reading β} {b : β} :
    (x >>= f).outcome.value = .ok b ↔
      ∃ a, x.outcome.value = .ok a ∧ (f a).outcome.value = .ok b := by
  rw [outcome_bind]
  cases x.outcome.value <;> simp

end Reading
end Flipbook.Document
