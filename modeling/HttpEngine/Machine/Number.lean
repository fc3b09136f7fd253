import HttpEngine.Machine.Basic

/-!
# Numbers written by a machine

A number in a word of 128 bits is written into a buffer of 39 bytes, from its end on: each digit
stands one place before the last one.  What is put out is the buffer from the first digit on, behind
a minus sign if the number is below zero.
-/

namespace HttpEngine
namespace Machine

def octet (n : Nat) : Except Slip UInt8 :=
  if n < 0x100 then .ok (UInt8.ofNat n) else .error .overflow

/-- Puts the digits of a number into a buffer, the last one before a place. -/
def fillDigits (n : BitVec 128) (buffer : Bytes) (place : Nat) : Except Slip (Bytes × Nat) :=
  if hn : n = 0 then return (buffer, place)
  else do
    let place <- sub place 1
    let digit <- octet (48 + ((n % 10).setWidth 8).toNat)
    let buffer <- overwrite buffer place [digit]
    fillDigits (n / 10) buffer place
termination_by n.toNat
decreasing_by
  rw [BitVec.toNat_udiv]
  exact Nat.div_lt_self (BitVec.toNat_pos_of_ne_zero hn) (by decide)

/-- A buffer that ends in the digits of a number, and the place where they begin. -/
def digitBuffer (n : BitVec 128) : Except Slip (Bytes × Nat) :=
  let buffer := List.replicate 39 48
  if n = 0 then return (buffer, 38) else fillDigits n buffer 39

def writeUnsigned (held : Bytes) (n : BitVec 128) : Except Slip Bytes := do
  let (buffer, start) <- digitBuffer n
  let digits <- slice buffer start buffer.length
  return held ++ digits

def writeSigned (held : Bytes) (z : BitVec 128) : Except Slip Bytes :=
  if z.toInt < 0 then writeUnsigned (held ++ [45]) z.abs else writeUnsigned held z.abs

def writeSize (held : Bytes) (n : UInt64) : Except Slip Bytes :=
  writeUnsigned held (n.toBitVec.setWidth 128)

end Machine
end HttpEngine
