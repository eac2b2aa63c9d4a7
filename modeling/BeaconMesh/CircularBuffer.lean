import BeaconMesh.Lib.Ring
import BeaconMesh.Packet

set_option autoImplicit false

namespace BeaconMesh.Simulator

open Sweep RingBuffer

abbrev hashes : Nat := 256

abbrev Row := Fin hashes

-- next is the uint8_t of the source: it indexes every row and no other.
structure CircularBuffer where
  buff : Cells HmacSig hashes
  next : UInt8
deriving DecidableEq

-- memset(&cache, 0, sizeof(circularBuffer))
def CircularBuffer.zero : CircularBuffer := ⟨blank hashes 0, 0⟩

def rowOf (next : UInt8) : Row := ⟨next.toNat, next.toNat_lt⟩

def containsBuff (cache : CircularBuffer) (val : HmacSig) : Option Row := first (fun row => row == val) cache.buff

def addToBuff (cache : CircularBuffer) (val : HmacSig) : UInt8 × CircularBuffer :=
  match containsBuff cache val with
  | none =>
      let buff := write cache.buff (rowOf cache.next) val
      if cache.next = 255 then (255, ⟨buff, 0⟩) else (cache.next + 1 - 1, ⟨buff, cache.next + 1⟩)
  | some location => (UInt8.ofNat location.val, cache)

def CircularBuffer.ring (cache : CircularBuffer) : Ring HmacSig hashes := ⟨cache.buff, rowOf cache.next⟩

theorem contains_none_iff (cache : CircularBuffer) (val : HmacSig) :
    containsBuff cache val = none ↔ ∀ row, read cache.buff row ≠ val := by
  rw [containsBuff, first_none_iff]
  simp

theorem next_row (next : UInt8) : rowOf (next + 1) = advance (rowOf next) := by
  apply Fin.ext
  simp only [rowOf, advance, UInt8.toNat_add, hashes]
  rfl

theorem add_absent (cache : CircularBuffer) (val : HmacSig) (missing : containsBuff cache val = none) :
    (addToBuff cache val).2.ring = push cache.ring val := by
  simp only [addToBuff, missing]
  by_cases last : cache.next = 255
  · rw [if_pos last, push, CircularBuffer.ring, CircularBuffer.ring]
    simp only [last]
    rfl
  · rw [if_neg last, push, CircularBuffer.ring, CircularBuffer.ring]
    simp only [next_row cache.next]

def Inserted (cache : CircularBuffer) (values : List HmacSig) : Prop :=
  cache.ring = pushes CircularBuffer.zero.ring values

theorem inserted_zero : Inserted CircularBuffer.zero [] := rfl

theorem inserted_add (cache : CircularBuffer) (values : List HmacSig) (val : HmacSig) (inserted : Inserted cache values)
    (missing : containsBuff cache val = none) : Inserted (addToBuff cache val).2 (values ++ [val]) := by
  rw [Inserted, add_absent cache val missing, inserted, pushes_snoc]

theorem contains_inserted (cache : CircularBuffer) (values : List HmacSig) (val : HmacSig) (real : val ≠ 0)
    (inserted : Inserted cache values) :
    containsBuff cache val ≠ none ↔ val ∈ values.drop (values.length - hashes) := by
  have rows : cache.buff = (pushes (empty (rowOf 0) 0) values).rows := congrArg Ring.rows inserted
  rw [← mem_pushes_iff (rowOf 0) 0 rfl values val real, ← rows, Ne, contains_none_iff]
  simp

end BeaconMesh.Simulator
