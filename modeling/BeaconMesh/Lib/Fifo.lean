import Mathlib.Data.List.Nodup

set_option autoImplicit false

namespace BeaconMesh.Fifo

variable {α : Type*} (size : Nat)

-- The last values of a history.
def recent (values : List α) : List α := values.drop (values.length - size)

-- Every value was put in while it was not among the last ones.
inductive Fresh : List α → Prop where
  | nil : Fresh []
  | snoc (past : List α) (value : α) (fresh : Fresh past) (absent : value ∉ recent size past) : Fresh (past ++ [value])

theorem recent_length (values : List α) : (recent size values).length = min size values.length := by
  rw [recent, List.length_drop]
  omega

theorem recent_subset (values : List α) : recent size values ⊆ values := List.drop_subset _ values

theorem mem_recent (values : List α) (i : Nat) (value : α) (found : values[i]? = some value) (near : values.length ≤ i + size) :
    value ∈ recent size values := by
  apply List.mem_of_getElem? (i := i - (values.length - size))
  rw [recent, List.getElem?_drop, ← found]
  congr 1
  omega

-- Two positions of one value lie more than a whole round apart.
theorem fresh_spaced (values : List α) (fresh : Fresh size values) (a b : Nat) (value : α) (first : values[a]? = some value)
    (second : values[b]? = some value) (before : a < b) : a + size < b := by
  induction fresh with
  | nil => simp at first
  | snoc past last fresh absent ih =>
      have bound := (List.getElem?_eq_some_iff.mp second).1
      rw [List.length_append, List.length_singleton] at bound
      have early : (past ++ [last])[a]? = past[a]? := List.getElem?_append_left (by omega)
      rw [early] at first
      cases Nat.lt_or_ge b past.length with
      | inl inside =>
          rw [List.getElem?_append_left inside] at second
          exact ih first second
      | inr ends =>
          obtain rfl : b = past.length := by omega
          rw [List.getElem?_concat_length] at second
          obtain rfl := Option.some.inj second
          by_contra near
          exact absent (mem_recent size past a last first (by omega))

theorem recent_nodup (values : List α) (fresh : Fresh size values) : (recent size values).Nodup := by
  apply List.nodup_iff_getElem?_ne_getElem?.mpr
  intro i j before inside same
  rw [recent_length] at inside
  have found : values[values.length - size + j]? = some values[values.length - size + j] := List.getElem?_eq_getElem (by omega)
  rw [recent, List.getElem?_drop, List.getElem?_drop, found] at same
  have apart := fresh_spaced size values fresh _ _ _ same found (by omega)
  omega

-- A value comes back only after a round of others.
theorem fresh_between [DecidableEq α] (values : List α) (fresh : Fresh size values) (a b : Nat) (value : α)
    (first : values[a]? = some value) (second : values[b]? = some value) (before : a < b) :
    size ≤ ((values.take b).drop (a + 1)).countP (fun other => other ≠ value) := by
  have apart := fresh_spaced size values fresh a b value first second before
  have bound := (List.getElem?_eq_some_iff.mp second).1
  have others : ∀ other ∈ ((values.take b).drop (a + 1)).take size, decide (other ≠ value) = true := by
    intro other member
    obtain ⟨i, inside, found⟩ := List.getElem_of_mem member
    have position : values[a + 1 + i]? = some other := by
      rw [List.length_take, List.length_drop, List.length_take] at inside
      rw [← found, List.getElem_take, List.getElem_drop, List.getElem_take]
      exact List.getElem?_eq_getElem _
    apply decide_eq_true
    rintro rfl
    have far := fresh_spaced size values fresh a (a + 1 + i) other first position (by omega)
    rw [List.length_take] at inside
    omega
  calc size = (((values.take b).drop (a + 1)).take size).length := by
        rw [List.length_take, List.length_drop, List.length_take]
        omega
    _ = (((values.take b).drop (a + 1)).take size).countP (fun other => other ≠ value) := (List.countP_eq_length.mpr others).symm
    _ ≤ _ := (List.take_sublist size _).countP_le

end BeaconMesh.Fifo
