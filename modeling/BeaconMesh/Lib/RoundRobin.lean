import Mathlib.Data.Int.CardIntervalMod

set_option autoImplicit false

namespace BeaconMesh.RoundRobin

variable {α : Type*}

-- Places that are dealt out in turn, from the first again after the last.
def dealt (places : List α) : Nat → List α
  | 0 => []
  | count + 1 => dealt places count ++ (places[count % places.length]?).toList

section Dealing

variable (places : List α)

theorem dealt_once (count : Nat) (few : count ≤ places.length) : dealt places count = places.take count := by
  induction count with
  | zero => rfl
  | succ count ih => rw [dealt, ih (by omega), Nat.mod_eq_of_lt few, List.take_add_one]

theorem mem_of_dealt (count : Nat) (place : α) (member : place ∈ dealt places count) : place ∈ places := by
  induction count with
  | zero => cases member
  | succ count ih =>
      cases List.mem_append.mp member with
      | inl earlier => exact ih earlier
      | inr last => exact List.mem_of_getElem? (Option.mem_toList.mp last)

variable (nonempty : places ≠ [])

include nonempty

theorem dealt_next (count : Nat) :
    ∃ bound : count % places.length < places.length, dealt places (count + 1) = dealt places count ++ [places[count % places.length]] := by
  have bound : count % places.length < places.length := Nat.mod_lt _ (List.length_pos_of_ne_nil nonempty)
  refine ⟨bound, ?_⟩
  rw [dealt, List.getElem?_eq_getElem bound]
  rfl

theorem dealt_length (count : Nat) : (dealt places count).length = count := by
  induction count with
  | zero => rfl
  | succ count ih =>
      obtain ⟨_, next⟩ := dealt_next places nonempty count
      rw [next, List.length_append, ih, List.length_singleton]

theorem dealt_head (count : Nat) (positive : 1 ≤ count) : (dealt places count)[0]? = places[0]? := by
  induction count with
  | zero => omega
  | succ count ih =>
      cases count with
      | zero => rw [dealt_once places 1 (List.length_pos_of_ne_nil nonempty), List.getElem?_take_of_lt Nat.one_pos]
      | succ count =>
          have earlier : 0 < (dealt places (count + 1)).length := by
            rw [dealt_length places nonempty]
            omega
          rw [dealt, List.getElem?_append_left earlier]
          exact ih (by omega)

variable [DecidableEq α]

theorem count_dealt (distinct : places.Nodup) (j : Nat) (inside : j < places.length) (count : Nat) :
    (dealt places count).count places[j] = count / places.length + if j < count % places.length then 1 else 0 := by
  have turns : (dealt places count).count places[j] = Nat.count (· ≡ j [MOD places.length]) count := by
    induction count with
    | zero => rfl
    | succ count ih =>
        obtain ⟨bound, next⟩ := dealt_next places nonempty count
        have here : places[count % places.length] = places[j] ↔ count ≡ j [MOD places.length] := by
          rw [distinct.getElem_inj_iff, Nat.ModEq, Nat.mod_eq_of_lt inside]
        rw [next, List.count_append, ih, Nat.count_succ, List.count_singleton]
        simp only [beq_iff_eq, here]
  rw [turns, Nat.count_modEq_card _ (List.length_pos_of_ne_nil nonempty), Nat.mod_eq_of_lt inside]

-- After any number of rounds no place is more than one ahead of another.
theorem dealt_even (distinct : places.Nodup) (count : Nat) (first second : α) (here : first ∈ places) (there : second ∈ places) :
    (dealt places count).count first ≤ (dealt places count).count second + 1 := by
  obtain ⟨i, left, rfl⟩ := List.getElem_of_mem here
  obtain ⟨j, right, rfl⟩ := List.getElem_of_mem there
  rw [count_dealt places nonempty distinct i left, count_dealt places nonempty distinct j right]
  split <;> split <;> omega

theorem mem_dealt (distinct : places.Nodup) (count : Nat) (enough : places.length ≤ count) (place : α) (member : place ∈ places) :
    place ∈ dealt places count := by
  obtain ⟨j, inside, rfl⟩ := List.getElem_of_mem member
  apply List.count_pos_iff.mp
  have rounds := Nat.div_pos enough (List.length_pos_of_ne_nil nonempty)
  rw [count_dealt places nonempty distinct j inside]
  omega

end Dealing

end BeaconMesh.RoundRobin
