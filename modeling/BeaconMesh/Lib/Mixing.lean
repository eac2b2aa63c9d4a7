import Mathlib.Data.BitVec
import Mathlib.Data.Fintype.EquivFin

set_option autoImplicit false

namespace BeaconMesh.Mixing

open Function

variable {w : Nat}

-- The steps that hash functions mix a machine word with. Each of them loses
-- nothing.
def rotl (x : BitVec w) (r : Nat) : BitVec w := (x <<< r) ||| (x >>> (w - r))

def xorshift (x : BitVec w) (s : Nat) : BitVec w := x ^^^ (x >>> s)

theorem rotl_back (x : BitVec w) (r : Nat) (inside : r ≤ w) : rotl (rotl x r) (w - r) = x := by
  apply BitVec.eq_of_getLsbD_eq
  intro i bound
  have rest : w - (w - r) = r := by omega
  simp only [rotl, rest, BitVec.getLsbD_or, BitVec.getLsbD_shiftLeft, BitVec.getLsbD_ushiftRight]
  have beyond : x.getLsbD (w - r + (r + i)) = false := BitVec.getLsbD_of_ge _ _ (by omega)
  by_cases low : i < w - r
  · have up : r + i < w := by omega
    simp [low, up, beyond]
  · have down : i - (w - r) < r := by omega
    have back : w - r + (i - (w - r)) = i := by omega
    simp [low, bound, down, back, beyond]

theorem rotl_injective (r : Nat) (inside : r ≤ w) : Injective fun x : BitVec w => rotl x r :=
  LeftInverse.injective (g := fun x => rotl x (w - r)) fun x => rotl_back x r inside

-- A word whose shift equals itself is zero, so the difference of two words
-- with one image is zero.
theorem shift_fixed (x : BitVec w) (s : Nat) (positive : 0 < s) (fixed : x >>> s = x) : x = 0#w := by
  have value : x.toNat / 2 ^ s = x.toNat := by
    rw [← Nat.shiftRight_eq_div_pow, ← BitVec.toNat_ushiftRight, fixed]
  apply BitVec.eq_of_toNat_eq
  rw [BitVec.toNat_zero]
  by_contra some
  have smaller := Nat.div_lt_self (Nat.pos_of_ne_zero some) (Nat.one_lt_two_pow (Nat.ne_of_gt positive))
  omega

theorem xorshift_injective (s : Nat) (positive : 0 < s) : Injective fun x : BitVec w => xorshift x s := by
  intro x y same
  have cross : (x ^^^ y) >>> s = x ^^^ y := by
    have moved := congrArg (fun word => word ^^^ (x >>> s) ^^^ y) same
    simp only [xorshift] at moved
    rw [BitVec.ushiftRight_xor_distrib]
    have left : x ^^^ x >>> s ^^^ x >>> s ^^^ y = x ^^^ y := by rw [BitVec.xor_assoc x, BitVec.xor_self, BitVec.xor_zero]
    have right : y ^^^ y >>> s ^^^ x >>> s ^^^ y = x >>> s ^^^ y >>> s := by
      rw [BitVec.xor_comm _ y, BitVec.xor_assoc y, ← BitVec.xor_assoc y, BitVec.xor_self, BitVec.zero_xor, BitVec.xor_comm]
    exact right.symm.trans (moved.symm.trans left)
  have zero := shift_fixed _ s positive cross
  exact BitVec.xor_eq_zero_iff.mp zero

theorem mul_injective (factor inverse : BitVec w) (unit : factor * inverse = 1#w) : Injective fun x : BitVec w => x * factor := by
  intro x y same
  have undone := congrArg (· * inverse) same
  simpa only [BitVec.mul_assoc, unit, BitVec.mul_one] using undone

theorem add_injective (addend : BitVec w) : Injective fun x : BitVec w => x + addend := fun _ _ same => (BitVec.add_left_inj addend).mp same

theorem xor_injective (mask : BitVec w) : Injective fun x : BitVec w => x ^^^ mask := fun _ _ same => (BitVec.xor_left_inj mask).mp same

theorem xor_key_injective (mask : BitVec w) : Injective fun x : BitVec w => mask ^^^ x := fun _ _ same => (BitVec.xor_right_inj mask).mp same

-- Injective maps of a word are bijective: there are only 2 ^ w words.
theorem word_bijective (f : BitVec w → BitVec w) (injective : Injective f) : Bijective f := by
  have finite : Finite (BitVec w) := Finite.of_equiv (Fin (2 ^ w)) BitVec.equivFin.symm.toEquiv
  exact Finite.injective_iff_bijective.mp injective

section Folds

variable {σ β : Type*}

theorem foldl_injective (step : σ → β → σ) (inputs : List β) (keeps : ∀ input, Injective fun state => step state input) :
    Injective fun state => inputs.foldl step state := by
  induction inputs with
  | nil => exact injective_id
  | cons input rest ih => exact ih.comp (keeps input)

end Folds

end BeaconMesh.Mixing
