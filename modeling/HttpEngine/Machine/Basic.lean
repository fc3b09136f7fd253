import HttpEngine.Decimal.Integer
import HttpEngine.Outcome
import HttpEngine.Text.Cut

/-!
# Steps of a machine

A machine counts in words of a fixed width and finds what it works on at places in buffers.  Each
step can go wrong: a number does not fit its word, a place is outside of its buffer or within a
character, a remainder is taken by zero.  Functions written in such steps go the way of a machine,
place by place; that they come to their end says that no step has gone wrong.
-/

namespace HttpEngine

inductive Slip where
  /-- A place that a buffer does not have, or two places in the wrong order. -/
  | outside
  | withinCharacter
  /-- A number that does not fit its word. -/
  | overflow
  | remainderByZero
  /-- A number is to be brought between two others, and the lower one is the larger. -/
  | crossed
  /-- A loop that goes on after all that could have been done was done. -/
  | endless
  | noBuffer
  deriving DecidableEq, Repr

namespace Machine

@[simp] theorem ok_bind {α β : Type} (value : α) (next : α -> Except Slip β) :
    (Except.ok value >>= next) = next value :=
  rfl

@[simp] theorem error_bind {α β : Type} (slip : Slip) (next : α -> Except Slip β) :
    (Except.error slip >>= next) = .error slip :=
  rfl

/-! # Words -/

def word (n : Nat) : Except Slip Nat :=
  if n < Decimal.sizeLimit then .ok n else .error .overflow

def add (a b : Nat) : Except Slip Nat :=
  word (a + b)

def sub (a b : Nat) : Except Slip Nat :=
  if b ≤ a then .ok (a - b) else .error .overflow

def rem (a b : Nat) : Except Slip Nat :=
  if b = 0 then .error .remainderByZero else .ok (a % b)

def clamp (n low high : Nat) : Except Slip Nat :=
  if low ≤ high then .ok (max low (min n high)) else .error .crossed

def signed (n : Int) : Except Slip Int :=
  if -0x8000000000000000 ≤ n ∧ n < 0x8000000000000000 then .ok n else .error .overflow

/-- A word of 32 bits without a sign; also a larger word that is to fit it whole. -/
def short (n : Int) : Except Slip Nat :=
  if 0 ≤ n ∧ n < 0x100000000 then .ok n.toNat else .error .overflow

/-! # Buffers -/

def allocate (size : Nat) : Except Slip Nat :=
  if size ≤ Buffer.maxSize then .ok size else .error .noBuffer

section

variable {α : Type}

def extend (held more : List α) : Except Slip (List α) :=
  if held.length + more.length ≤ Buffer.maxSize then .ok (held ++ more) else .error .noBuffer

def get (held : List α) (place : Nat) : Except Slip α :=
  match held[place]? with
  | some value => .ok value
  | none => .error .outside

def slice (held : List α) (start stop : Nat) : Except Slip (List α) :=
  if start ≤ stop ∧ stop ≤ held.length then .ok ((held.take stop).drop start)
  else .error .outside

def split (held : List α) (place : Nat) : Except Slip (List α × List α) :=
  if place ≤ held.length then .ok (held.take place, held.drop place) else .error .outside

def overwrite (held : List α) (place : Nat) (other : List α) : Except Slip (List α) :=
  if place + other.length ≤ held.length then
    .ok (held.take place ++ other ++ held.drop (place + other.length))
  else .error .outside

def find? [BEq α] (mark held : List α) : Option Nat :=
  (cut? mark held).map fun cut => cut.1.length

end

/-! # Texts -/

def textLength (text : List Char) : Nat :=
  (Utf8.encodeChars text).length

/-- The text before a place and the text behind it, where places are counted in bytes. -/
def splitText : List Char -> Nat -> Except Slip (List Char × List Char)
  | text, 0 => .ok ([], text)
  | [], _ + 1 => .error .outside
  | c :: rest, place + 1 =>
      if (Utf8.encodeChar c).length ≤ place + 1 then
        (splitText rest (place + 1 - (Utf8.encodeChar c).length)).map fun cut => (c :: cut.1, cut.2)
      else .error .withinCharacter

def textSlice (text : List Char) (start stop : Nat) : Except Slip (List Char) :=
  if start ≤ stop then do
    let (front, _) <- splitText text stop
    let (_, part) <- splitText front start
    return part
  else .error .outside

/-! # Steps that go well -/

theorem word_eq_ok {n : Nat} (h : n < Decimal.sizeLimit) : word n = .ok n :=
  if_pos h

theorem add_eq_ok {a b : Nat} (h : a + b < Decimal.sizeLimit) : add a b = .ok (a + b) :=
  if_pos h

theorem add_eq_ok_of_le {a b size : Nat} (ha : a ≤ size) (hsize : size ≤ Buffer.maxSize)
    (hb : b ≤ Buffer.maxSize) : add a b = .ok (a + b) := by
  apply add_eq_ok
  have hlimit : Buffer.maxSize + Buffer.maxSize < Decimal.sizeLimit := by decide
  omega

theorem sub_eq_ok {a b : Nat} (h : b ≤ a) : sub a b = .ok (a - b) :=
  if_pos h

theorem rem_eq_ok {a b : Nat} (h : 0 < b) : rem a b = .ok (a % b) :=
  if_neg (Nat.ne_of_gt h)

theorem clamp_eq_ok {n low high : Nat} (h : low ≤ high) :
    clamp n low high = .ok (max low (min n high)) :=
  if_pos h

section

variable {α : Type} {held : List α}

theorem find?_of_cut? [BEq α] {mark front rest : List α} (h : cut? mark held = some (front, rest)) :
    find? mark held = some front.length := by
  rw [find?, h]
  rfl

theorem find?_of_cut?_eq_none [BEq α] {mark : List α} (h : cut? mark held = none) :
    find? mark held = none := by
  rw [find?, h]
  rfl

theorem get_eq_ok {place : Nat} (h : place < held.length) : get held place = .ok held[place] := by
  rw [get, List.getElem?_eq_getElem h]

theorem slice_eq_ok {start stop : Nat} (hstart : start ≤ stop) (hstop : stop ≤ held.length) :
    slice held start stop = .ok ((held.take stop).drop start) :=
  if_pos ⟨hstart, hstop⟩

theorem slice_to_end {start : Nat} (h : start ≤ held.length) :
    slice held start held.length = .ok (held.drop start) := by
  rw [slice_eq_ok h (Nat.le_refl held.length), List.take_length]

theorem split_eq_ok {place : Nat} (h : place ≤ held.length) :
    split held place = .ok (held.take place, held.drop place) :=
  if_pos h

theorem overwrite_eq_ok {place : Nat} {other : List α} (h : place + other.length ≤ held.length) :
    overwrite held place other =
      .ok (held.take place ++ other ++ held.drop (place + other.length)) :=
  if_pos h

theorem slice_append (front part rest : List α) :
    slice (front ++ part ++ rest) front.length (front.length + part.length) = .ok part := by
  have hstop : (front ++ part).length ≤ (front ++ part ++ rest).length :=
    (List.prefix_append (front ++ part) rest).length_le
  rw [List.length_append] at hstop
  rw [slice_eq_ok (Nat.le_add_right _ _) hstop, ← List.length_append, List.take_left,
    List.drop_left]

end

/-! # Runs for which there are buffers -/

section

variable {α β : Type}

/--
A run comes to an end that is wanted, unless there is no buffer for something on the way.  The
largest buffer that it asks for has no more than the given size.
-/
def Yields (need : Nat) (run : Except Slip α) (wanted : α -> Prop) : Prop :=
  (run = .error .noBuffer ∧ Buffer.maxSize < need) ∨ exists value, run = .ok value ∧ wanted value

variable {need : Nat} {run : Except Slip α} {wanted : α -> Prop}

theorem Yields.of_eq_ok {value : α} (hrun : run = .ok value) (h : wanted value) :
    Yields need run wanted :=
  Or.inr ⟨value, hrun, h⟩

theorem Yields.of_small {small : Nat} (h : Yields small run wanted)
    (hsmall : small ≤ Buffer.maxSize) : Yields need run wanted := by
  rcases h with ⟨_, hlarge⟩ | hend
  · exact absurd hlarge (Nat.not_lt.mpr hsmall)
  · exact Or.inr hend

theorem Yields.imp (h : Yields need run wanted) {goal : α -> Prop}
    (hgoal : forall value, wanted value -> goal value) : Yields need run goal := by
  rcases h with hnone | ⟨value, hvalue, hwanted⟩
  · exact Or.inl hnone
  · exact Or.inr ⟨value, hvalue, hgoal value hwanted⟩

theorem Yields.bind (h : Yields need run wanted) {next : α -> Except Slip β} {goal : β -> Prop}
    (hnext : forall value, wanted value -> Yields need (next value) goal) :
    Yields need (run >>= next) goal := by
  rcases h with ⟨hnone, hlarge⟩ | ⟨value, hvalue, hwanted⟩
  · rw [hnone, error_bind]
    exact Or.inl ⟨rfl, hlarge⟩
  · rw [hvalue, ok_bind]
    exact hnext value hwanted

theorem yields_allocate {size : Nat} (h : size ≤ need) :
    Yields need (allocate size) fun given => given = size ∧ size ≤ Buffer.maxSize := by
  unfold allocate
  by_cases hfits : size ≤ Buffer.maxSize
  · exact .of_eq_ok (if_pos hfits) ⟨rfl, hfits⟩
  · exact Or.inl ⟨if_neg hfits, by omega⟩

theorem yields_extend {held more : List α} (h : held.length + more.length ≤ need) :
    Yields need (extend held more) fun all =>
      all = held ++ more ∧ all.length ≤ Buffer.maxSize := by
  unfold extend
  by_cases hfits : held.length + more.length ≤ Buffer.maxSize
  · refine .of_eq_ok (if_pos hfits) ⟨rfl, ?_⟩
    rw [List.length_append]
    exact hfits
  · exact Or.inl ⟨if_neg hfits, by omega⟩

end

end Machine
end HttpEngine
