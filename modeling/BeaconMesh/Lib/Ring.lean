import BeaconMesh.Lib.Sweep
import Mathlib.Data.List.Induction

set_option autoImplicit false

namespace BeaconMesh.RingBuffer

open Sweep

variable {α : Type*} {n : Nat}

-- Rows that are filled in turn; the cursor starts over after the last one.
structure Ring (α : Type*) (n : Nat) where
  rows : Cells α n
  next : Fin n

def advance (next : Fin n) : Fin n := ⟨(next.val + 1) % n, Nat.mod_lt _ next.pos⟩

def push (ring : Ring α n) (value : α) : Ring α n := ⟨write ring.rows ring.next value, advance ring.next⟩

def pushes (ring : Ring α n) (values : List α) : Ring α n := values.foldl push ring

def empty (first : Fin n) (filler : α) : Ring α n := ⟨blank n filler, first⟩

@[simp] theorem pushes_nil (ring : Ring α n) : pushes ring [] = ring := rfl

@[simp] theorem pushes_snoc (ring : Ring α n) (values : List α) (value : α) :
    pushes ring (values ++ [value]) = push (pushes ring values) value := by
  simp [pushes]

section Rows

variable (filler : α)

-- No value stands in two rows.
def RowsDistinct (rows : Cells α n) : Prop := ∀ i j, read rows i = read rows j → read rows i ≠ filler → i = j

theorem blank_distinct : RowsDistinct filler (blank n filler) := fun i _ _ real => absurd (read_blank i filler) real

theorem push_distinct (ring : Ring α n) (value : α) (distinct : RowsDistinct filler ring.rows)
    (absent : ∀ row, read ring.rows row ≠ value) : RowsDistinct filler (push ring value).rows := by
  intro i j same real
  rw [push, read_write, read_write] at same
  rw [push, read_write] at real
  by_cases left : i = ring.next
  · by_cases right : j = ring.next
    · exact left.trans right.symm
    · rw [if_pos left, if_neg right] at same
      exact absurd same.symm (absent j)
  · by_cases right : j = ring.next
    · rw [if_neg left, if_pos right] at same
      exact absurd same (absent i)
    · rw [if_neg left, if_neg right] at same
      rw [if_neg left] at real
      exact distinct i j same real

end Rows

section Contents

variable (zero : Fin n) (filler : α)

theorem pushes_next (origin : zero.val = 0) (values : List α) :
    (pushes (empty zero filler) values).next.val = values.length % n := by
  induction values using List.reverseRecOn with
  | nil => simpa [empty] using origin
  | append_singleton past value ih =>
      simp [push, advance, ih, Nat.mod_add_mod]

theorem rows_apart (size i j : Nat) (before : i < j) (near : j < i + size) : i % size ≠ j % size := by
  intro same
  have divides := Nat.dvd_of_mod_eq_zero (Nat.sub_mod_eq_zero_of_mod_eq same.symm)
  have bound := Nat.le_of_dvd (by omega) divides
  omega

-- Row j mod n keeps the j-th value for a whole round of pushes.
theorem pushes_recent (origin : zero.val = 0) (values : List α) (j : Nat) (inside : j < values.length)
    (recent : values.length ≤ j + n) :
    read (pushes (empty zero filler) values).rows ⟨j % n, Nat.mod_lt _ zero.pos⟩ = values[j] := by
  induction values using List.reverseRecOn with
  | nil => exact absurd inside (Nat.not_lt_zero j)
  | append_singleton past value ih =>
      have cursor := pushes_next zero filler origin past
      simp only [List.length_append, List.length_singleton] at inside recent
      rw [pushes_snoc, push]
      cases Nat.lt_or_ge j past.length with
      | inl before =>
          have apart := rows_apart n j past.length before (by omega)
          have row : (⟨j % n, Nat.mod_lt _ zero.pos⟩ : Fin n) ≠ (pushes (empty zero filler) past).next := by
            intro same
            have value := congrArg Fin.val same
            rw [cursor] at value
            exact apart value
          rw [read_write_ne _ _ _ _ row, ih before (by omega), List.getElem_append_left before]
      | inr last =>
          have same : j = past.length := by omega
          have row : (⟨j % n, Nat.mod_lt _ zero.pos⟩ : Fin n) = (pushes (empty zero filler) past).next :=
            Fin.ext (by rw [cursor, same])
          rw [row, read_write_self]
          simp [same]

theorem pushes_untouched (origin : zero.val = 0) (values : List α) (row : Fin n) (fresh : values.length ≤ row.val) :
    read (pushes (empty zero filler) values).rows row = filler := by
  induction values using List.reverseRecOn with
  | nil => exact read_blank row filler
  | append_singleton past value ih =>
      simp only [List.length_append, List.length_singleton] at fresh
      have other : row ≠ (pushes (empty zero filler) past).next := by
        intro same
        have cursor := pushes_next zero filler origin past
        rw [Nat.mod_eq_of_lt (by have := row.isLt; omega), ← same] at cursor
        omega
      rw [pushes_snoc, push, read_write_ne _ _ _ _ other]
      exact ih (by omega)

-- A row that was reached holds the value of its last round.
theorem pushes_reached (origin : zero.val = 0) (values : List α) (row : Fin n) (reached : row.val < values.length) :
    read (pushes (empty zero filler) values).rows row ∈ values.drop (values.length - n) := by
  obtain ⟨rounds, offset, small, rest⟩ : ∃ rounds offset, offset < n ∧ n * rounds + offset = values.length - 1 - row.val :=
    ⟨_, _, Nat.mod_lt _ row.pos, Nat.div_add_mod (values.length - 1 - row.val) n⟩
  have position : (row.val + n * rounds) % n = row.val := by
    rw [Nat.add_mul_mod_self_left, Nat.mod_eq_of_lt row.isLt]
  have inside : row.val + n * rounds < values.length := by omega
  have recent := pushes_recent zero filler origin values (row.val + n * rounds) inside (by omega)
  have here : (⟨(row.val + n * rounds) % n, Nat.mod_lt _ zero.pos⟩ : Fin n) = row := Fin.ext position
  rw [here] at recent
  rw [recent, List.mem_drop_iff_getElem]
  exact ⟨row.val + n * rounds - (values.length - n), by omega, by congr 1; omega⟩

-- The ring holds the last n values that were pushed.
theorem mem_pushes_iff (origin : zero.val = 0) (values : List α) (value : α) (real : value ≠ filler) :
    (∃ row, read (pushes (empty zero filler) values).rows row = value) ↔ value ∈ values.drop (values.length - n) := by
  constructor
  · rintro ⟨row, found⟩
    cases Nat.lt_or_ge row.val values.length with
    | inl reached => exact found ▸ pushes_reached zero filler origin values row reached
    | inr fresh => exact absurd (found.symm.trans (pushes_untouched zero filler origin values row fresh)) real
  · intro member
    obtain ⟨i, bound, found⟩ := List.mem_drop_iff_getElem.mp member
    rw [← found]
    exact ⟨_, pushes_recent zero filler origin values (values.length - n + i) (by omega) (by omega)⟩

end Contents

end BeaconMesh.RingBuffer
