import BeaconMesh.CircularBuffer
import BeaconMesh.Lib.Fifo

set_option autoImplicit false

namespace BeaconMesh.Simulator

open Sweep RingBuffer Fifo

def addAll (cache : CircularBuffer) (calls : List HmacSig) : CircularBuffer := calls.foldl (fun state val => (addToBuff state val).2) cache

-- The zeroed buffer after a sequence of calls.
def bufferAfter (calls : List HmacSig) : CircularBuffer := addAll .zero calls

def insertionsFrom : CircularBuffer → List HmacSig → List HmacSig
  | _, [] => []
  | cache, val :: calls =>
      if containsBuff cache val = none then val :: insertionsFrom (addToBuff cache val).2 calls
      else insertionsFrom (addToBuff cache val).2 calls

-- The calls whose value was not contained at that moment.
def insertions (calls : List HmacSig) : List HmacSig := insertionsFrom .zero calls

@[simp] theorem buffer_after_snoc (calls : List HmacSig) (val : HmacSig) :
    bufferAfter (calls ++ [val]) = (addToBuff (bufferAfter calls) val).2 := by
  simp [bufferAfter, addAll]

theorem insertions_snoc (calls : List HmacSig) (val : HmacSig) :
    insertions (calls ++ [val]) = if containsBuff (bufferAfter calls) val = none then insertions calls ++ [val] else insertions calls := by
  have later : ∀ cache, insertionsFrom cache (calls ++ [val]) =
      if containsBuff (addAll cache calls) val = none then insertionsFrom cache calls ++ [val] else insertionsFrom cache calls := by
    induction calls with
    | nil => exact fun _ => rfl
    | cons first calls ih =>
        intro cache
        have rest := ih (addToBuff cache first).2
        by_cases effective : containsBuff cache first = none
        · rw [List.cons_append, insertionsFrom, insertionsFrom, if_pos effective, if_pos effective, rest, List.cons_append]
          exact apply_ite (List.cons first) _ _ _
        · rw [List.cons_append, insertionsFrom, insertionsFrom, if_neg effective, if_neg effective, rest]
          rfl
  exact later .zero

theorem add_present (cache : CircularBuffer) (val : HmacSig) (present : containsBuff cache val ≠ none) : (addToBuff cache val).2 = cache := by
  unfold addToBuff
  cases found : containsBuff cache val with
  | none => exact absurd found present
  | some location => rfl

theorem added_row (cache : CircularBuffer) (val : HmacSig) :
    read (addToBuff cache val).2.buff (rowOf (addToBuff cache val).1) = val := by
  cases found : containsBuff cache val with
  | none =>
      simp only [addToBuff, found]
      by_cases last : cache.next = 255
      · rw [if_pos last, ← last]
        exact read_write_self _ _ _
      · rw [if_neg last, UInt8.add_sub_cancel]
        exact read_write_self _ _ _
  | some location =>
      have row : rowOf (UInt8.ofNat location.val) = location := Fin.ext (Nat.mod_eq_of_lt location.isLt)
      simp only [addToBuff, found]
      rw [row]
      exact eq_of_beq ((first_some_iff _ _ _).mp found).1

-- The buffer and the history of insertions that made it.
structure Queued (calls : List HmacSig) : Prop where
  inserted : Inserted (bufferAfter calls) (insertions calls)
  fresh : Fresh hashes (insertions calls)
  distinct : RowsDistinct 0 (bufferAfter calls).buff

theorem contained_recent (cache : CircularBuffer) (values : List HmacSig) (val : HmacSig) (inserted : Inserted cache values)
    (member : val ∈ recent hashes values) : containsBuff cache val ≠ none := by
  have rows : cache.buff = (pushes (empty (rowOf 0) 0) values).rows := congrArg Ring.rows inserted
  obtain ⟨i, bound, found⟩ := List.mem_drop_iff_getElem.mp member
  have row := pushes_recent (rowOf 0) 0 rfl values (values.length - hashes + i) (by omega) (by omega)
  rw [← rows] at row
  exact fun absent => (contains_none_iff _ _).mp absent _ (row.trans found)

theorem queued_effective (past : List HmacSig) (val : HmacSig) (before : Queued past) (absent : containsBuff (bufferAfter past) val = none) :
    Queued (past ++ [val]) := by
  have values : insertions (past ++ [val]) = insertions past ++ [val] := by rw [insertions_snoc, if_pos absent]
  have rows : (bufferAfter (past ++ [val])).buff = (push (bufferAfter past).ring val).rows := by
    rw [buffer_after_snoc]
    exact congrArg Ring.rows (add_absent (bufferAfter past) val absent)
  constructor
  · rw [values, buffer_after_snoc]
    exact inserted_add _ _ val before.inserted absent
  · rw [values]
    exact .snoc _ val before.fresh fun member => contained_recent _ _ val before.inserted member absent
  · rw [rows]
    exact push_distinct 0 (bufferAfter past).ring val before.distinct ((contains_none_iff _ _).mp absent)

theorem queued_repeated (past : List HmacSig) (val : HmacSig) (before : Queued past) (present : containsBuff (bufferAfter past) val ≠ none) :
    Queued (past ++ [val]) := by
  have values : insertions (past ++ [val]) = insertions past := by rw [insertions_snoc, if_neg present]
  have same : bufferAfter (past ++ [val]) = bufferAfter past := (buffer_after_snoc past val).trans (add_present _ val present)
  obtain ⟨inserted, fresh, distinct⟩ := before
  rw [← values, ← same] at inserted
  rw [← values] at fresh
  rw [← same] at distinct
  exact ⟨inserted, fresh, distinct⟩

theorem queued (calls : List HmacSig) : Queued calls := by
  induction calls using List.reverseRecOn with
  | nil => exact ⟨inserted_zero, .nil, blank_distinct 0⟩
  | append_singleton past val ih =>
      by_cases absent : containsBuff (bufferAfter past) val = none
      · exact queued_effective past val ih absent
      · exact queued_repeated past val ih absent

theorem insertions_subset (calls : List HmacSig) : insertions calls ⊆ calls := by
  induction calls using List.reverseRecOn with
  | nil => exact List.Subset.refl []
  | append_singleton past val ih =>
      rw [insertions_snoc]
      split
      · exact List.append_subset.mpr ⟨List.subset_append_of_subset_left [val] ih, List.subset_append_right past [val]⟩
      · exact List.subset_append_of_subset_left [val] ih

-- The circular buffer is a first-in first-out set of the last 256
-- insertions. A call with a contained value refreshes nothing.
theorem buffer_is_fifo_set (calls : List HmacSig) :
    (∀ i j : Row, i ≠ j → read (bufferAfter calls).buff i ≠ 0 → read (bufferAfter calls).buff i ≠ read (bufferAfter calls).buff j) ∧
    (∀ val : HmacSig, val ≠ 0 → (containsBuff (bufferAfter calls) val ≠ none ↔
      val ∈ (insertions calls).drop ((insertions calls).length - 256))) ∧
    (∀ (past : List HmacSig) (val : HmacSig) (later : List HmacSig), calls = past ++ val :: later →
      read (bufferAfter (past ++ [val])).buff (rowOf (addToBuff (bufferAfter past) val).1) = val ∧
      (containsBuff (bufferAfter past) val ≠ none → bufferAfter (past ++ [val]) = bufferAfter past)) ∧
    (∀ (a b : Nat) (val : HmacSig), a < b → (insertions calls)[a]? = some val → (insertions calls)[b]? = some val →
      256 ≤ (((insertions calls).take b).drop (a + 1)).countP fun other => other ≠ val) := by
  obtain ⟨inserted, fresh, distinct⟩ := queued calls
  refine ⟨fun i j different real same => different (distinct i j same real), fun val real => ?_, fun past val later _ => ?_,
    fun a b val before first second => ?_⟩
  · exact contains_inserted _ _ val real inserted
  · rw [buffer_after_snoc]
    exact ⟨added_row (bufferAfter past) val, add_present (bufferAfter past) val⟩
  · exact fresh_between hashes _ fresh a b val first second before

section Filler

variable (calls : List HmacSig)

theorem remembered (few : (insertions calls).length < hashes) (val : HmacSig) (called : val ∈ calls) (real : val ≠ 0) :
    val ∈ insertions calls := by
  induction calls using List.reverseRecOn with
  | nil => cases called
  | append_singleton past last ih =>
      rw [insertions_snoc] at few ⊢
      cases List.mem_append.mp called with
      | inl earlier =>
          by_cases absent : containsBuff (bufferAfter past) last = none
          · rw [if_pos absent, List.length_append] at few
            rw [if_pos absent]
            exact List.mem_append_left [last] (ih (by omega) earlier)
          · rw [if_neg absent] at few ⊢
            exact ih few earlier
      | inr here =>
          obtain rfl := List.mem_singleton.mp here
          by_cases absent : containsBuff (bufferAfter past) val = none
          · rw [if_pos absent]
            exact List.mem_append_right _ here
          · rw [if_neg absent]
            exact recent_subset hashes _ ((contains_inserted _ _ val real (queued past).inserted).mp absent)

theorem buffer_rows : (bufferAfter calls).buff = (pushes (empty (rowOf 0) 0) (insertions calls)).rows :=
  congrArg Ring.rows (queued calls).inserted

theorem filler_contained_iff (new : 0 ∉ calls) : containsBuff (bufferAfter calls) 0 = none ↔ hashes ≤ (insertions calls).length := by
  rw [contains_none_iff, buffer_rows]
  constructor
  · intro absent
    by_contra few
    exact absent ⟨(insertions calls).length, not_le.mp few⟩ (pushes_untouched (rowOf 0) 0 rfl _ _ (Nat.le_refl _))
  · intro full row zero
    have member := pushes_reached (rowOf 0) 0 rfl (insertions calls) row (row.isLt.trans_le full)
    rw [zero] at member
    exact new (insertions_subset calls (List.mem_of_mem_drop member))

theorem buffer_full_iff (new : 0 ∉ calls) : hashes ≤ (insertions calls).length ↔ hashes ≤ calls.toFinset.card := by
  constructor
  · intro full
    have inside : (recent hashes (insertions calls)).toFinset ⊆ calls.toFinset := by
      intro val member
      exact List.mem_toFinset.mpr (insertions_subset calls (recent_subset hashes _ (List.mem_toFinset.mp member)))
    calc hashes = (recent hashes (insertions calls)).length := by rw [recent_length, Nat.min_eq_left full]
      _ = (recent hashes (insertions calls)).toFinset.card :=
          (List.toFinset_card_of_nodup (recent_nodup hashes _ (queued calls).fresh)).symm
      _ ≤ calls.toFinset.card := Finset.card_le_card inside
  · intro many
    by_contra few
    have inside : calls.toFinset ⊆ (insertions calls).toFinset := by
      intro val member
      have called := List.mem_toFinset.mp member
      exact List.mem_toFinset.mpr (remembered calls (not_le.mp few) val called fun zero => new (zero ▸ called))
    exact few (many.trans ((Finset.card_le_card inside).trans (List.toFinset_card_le _)))

-- The rows that nothing has overwritten yet hold the value zero.
theorem unseen_absent_iff (val : HmacSig) (new : val ∉ calls) :
    containsBuff (bufferAfter calls) val = none ↔ (val = 0 → hashes ≤ calls.toFinset.card) := by
  by_cases zero : val = 0
  · subst zero
    rw [filler_contained_iff calls new, buffer_full_iff calls new]
    simp
  · have absent : containsBuff (bufferAfter calls) val = none := by
      by_contra present
      have member := (contains_inserted _ _ val zero (queued calls).inserted).mp present
      exact new (insertions_subset calls (List.mem_of_mem_drop member))
    exact iff_of_true absent fun same => absurd same zero

end Filler

end BeaconMesh.Simulator
