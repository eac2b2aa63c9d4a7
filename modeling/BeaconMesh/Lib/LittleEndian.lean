import Mathlib.Data.Nat.Digits.Lemmas

set_option autoImplicit false

namespace BeaconMesh.LittleEndian

-- A number laid out in a fixed number of bytes, least significant first, and
-- the number a run of bytes spells. Digits that do not fit are cut off, as a
-- store of a machine word cuts them off.
def bytesOf : Nat → Nat → List UInt8
  | 0, _ => []
  | width + 1, value => UInt8.ofNat value :: bytesOf width (value / 256)

def valueOf (bytes : List UInt8) : Nat := Nat.ofDigits 256 (bytes.map UInt8.toNat)

@[simp] theorem value_nil : valueOf [] = 0 := rfl

theorem value_cons (byte : UInt8) (rest : List UInt8) :
    valueOf (byte :: rest) = byte.toNat + 256 * valueOf rest := by
  simp [valueOf, Nat.ofDigits_cons]

@[simp] theorem bytes_length (width value : Nat) : (bytesOf width value).length = width := by
  induction width generalizing value with
  | zero => rfl
  | succ n ih => exact congrArg Nat.succ (ih (value / 256))

theorem value_bytes (width value : Nat) : valueOf (bytesOf width value) = value % 256 ^ width := by
  induction width generalizing value with
  | zero => simp [bytesOf, Nat.mod_one]
  | succ n ih =>
      have digit : (UInt8.ofNat value).toNat = value % 256 := rfl
      calc
        valueOf (bytesOf (n + 1) value) = value % 256 + 256 * (value / 256 % 256 ^ n) := by
          rw [bytesOf, value_cons, digit, ih]
        _ = value % 256 ^ (n + 1) := by rw [pow_succ', Nat.mod_mul]

theorem value_bytes_of_lt (width value : Nat) (fits : value < 256 ^ width) :
    valueOf (bytesOf width value) = value :=
  (value_bytes width value).trans (Nat.mod_eq_of_lt fits)

theorem value_lt (bytes : List UInt8) : valueOf bytes < 256 ^ bytes.length := by
  have digits : ∀ digit ∈ bytes.map UInt8.toNat, digit < 256 := by
    intro digit member
    obtain ⟨byte, _, rfl⟩ := List.mem_map.mp member
    exact byte.toNat_lt
  simpa [valueOf] using Nat.ofDigits_lt_base_pow_length (by decide : 1 < 256) digits

theorem bytes_value (bytes : List UInt8) : bytesOf bytes.length (valueOf bytes) = bytes := by
  induction bytes with
  | nil => rfl
  | cons byte rest ih =>
      have small := byte.toNat_lt
      have low : UInt8.ofNat (byte.toNat + 256 * valueOf rest) = byte := by
        apply UInt8.toNat_inj.mp
        change (byte.toNat + 256 * valueOf rest) % 256 = byte.toNat
        omega
      have high : (byte.toNat + 256 * valueOf rest) / 256 = valueOf rest := by omega
      simp only [List.length_cons, bytesOf, value_cons, low, high, ih]

theorem bytes_add (low high value : Nat) :
    bytesOf (low + high) value = bytesOf low value ++ bytesOf high (value / 256 ^ low) := by
  induction low generalizing value with
  | zero => simp [bytesOf]
  | succ n ih =>
      have shift : n + 1 + high = (n + high) + 1 := by omega
      have deeper : value / 256 / 256 ^ n = value / 256 ^ (n + 1) := by
        rw [Nat.div_div_eq_div_mul, pow_succ']
      rw [shift, bytesOf, bytesOf, ih, deeper]
      rfl

end BeaconMesh.LittleEndian
