/-!
# Outcomes

A step that may break off ends with a value or with a panic.  Asking for a buffer is such a step:
the distance of any two places in a buffer has to be a signed 64-bit number, so that there is none
of 2 ^ 63 bytes or more.  A buffer of any smaller size is given out.
-/

namespace HttpEngine

inductive Panic where
  | message (text : String)
  | other
  deriving DecidableEq, Repr

namespace Panic

def text : Panic -> String
  | .message text => text
  | .other => "unknown panic"

def capacityOverflow : Panic := .message "capacity overflow"

end Panic

inductive Outcome (α : Type) where
  | done (value : α)
  | panicked (panic : Panic)
  deriving DecidableEq, Repr

namespace Outcome

def map {α β : Type} (f : α -> β) : Outcome α -> Outcome β
  | .done value => .done (f value)
  | .panicked panic => .panicked panic

@[simp] theorem map_done {α β : Type} (f : α -> β) (value : α) :
    (done value).map f = done (f value) :=
  rfl

@[simp] theorem map_panicked {α β : Type} (f : α -> β) (panic : Panic) :
    (panicked panic : Outcome α).map f = panicked panic :=
  rfl

end Outcome

namespace Buffer

def maxSize : Nat := 0x7fffffffffffffff

def allocate (size : Nat) : Outcome Nat :=
  if size ≤ maxSize then .done size else .panicked .capacityOverflow

theorem allocate_eq_done_iff {size given : Nat} :
    allocate size = .done given ↔ size ≤ maxSize ∧ size = given := by
  by_cases h : size ≤ maxSize <;> simp [allocate, h]

theorem allocate_eq_panicked_iff {size : Nat} {panic : Panic} :
    allocate size = .panicked panic ↔ maxSize < size ∧ panic = .capacityOverflow := by
  by_cases h : size ≤ maxSize
  · simp [allocate, h, Nat.not_lt.mpr h]
  · simp [allocate, h, Nat.lt_of_not_le h, eq_comm]

end Buffer
end HttpEngine
