import Mathlib.Data.Fin.Basic
import Mathlib.Data.List.FinRange
import Mathlib.Order.Basic

set_option autoImplicit false

namespace BeaconMesh.Sweep

variable {α β : Type*} {n : Nat}

-- A fixed array seen through one reader and one writer, so that later proofs
-- argue about cells and never about the array that holds them.
abbrev Cells (α : Type*) (n : Nat) := Vector α n

def read (cells : Cells α n) (i : Fin n) : α := cells[i.val]

def write (cells : Cells α n) (i : Fin n) (value : α) : Cells α n := cells.set i.val value

def blank (n : Nat) (value : α) : Cells α n := Vector.replicate n value

@[simp] theorem read_blank (i : Fin n) (value : α) : read (blank n value) i = value := by
  simp [read, blank]

@[simp] theorem read_write_self (cells : Cells α n) (i : Fin n) (value : α) :
    read (write cells i value) i = value := by
  simp [read, write]

theorem read_write_ne (cells : Cells α n) (i j : Fin n) (value : α) (different : j ≠ i) :
    read (write cells i value) j = read cells j := by
  have index : i.val ≠ j.val := fun same => different (Fin.ext same.symm)
  simp [read, write, index]

theorem read_write (cells : Cells α n) (i j : Fin n) (value : α) :
    read (write cells i value) j = if j = i then value else read cells j := by
  by_cases same : j = i
  · subst same
    simp
  · rw [if_neg same, read_write_ne cells i j value same]

-- Through the list of cells, which reduces where Vector.map does not.
def mapCells (f : α → β) (cells : Cells α n) : Cells β n := ⟨(cells.toList.map f).toArray, by simp⟩

@[simp] theorem read_map (f : α → β) (cells : Cells α n) (i : Fin n) :
    read (mapCells f cells) i = f (read cells i) := by
  simp [read, mapCells]

theorem cells_ext (a b : Cells α n) (same : ∀ i, read a i = read b i) : a = b :=
  Vector.ext fun i bound => same ⟨i, bound⟩

def indexed (cells : Cells α n) : List (Fin n × α) := (List.finRange n).zip cells.toList

theorem indexed_map (cells : Cells α n) : indexed cells = (List.finRange n).map fun i => (i, read cells i) := by
  apply List.ext_getElem
  · simp [indexed]
  · intro k bound _
    simp [indexed, read]

theorem filter_indexed (test : Fin n × α → Bool) (cells : Cells α n) :
    ((indexed cells).filter test).map Prod.fst = (List.finRange n).filter fun i => test (i, read cells i) := by
  rw [indexed_map, List.filter_map, List.map_map]
  exact List.map_id _

-- One pass of a loop body over the cells: the body rewrites the cell it is
-- given and either lets the loop continue or leaves it.
inductive Verdict (α : Type*) where
  | next (value : α)
  | stop (value : α)
deriving DecidableEq, Repr

def Verdict.value : Verdict α → α
  | .next value => value
  | .stop value => value

def Verdict.stops : Verdict α → Bool
  | .next _ => false
  | .stop _ => true

def sweepList (body : α → Verdict α) : List α → Option Nat × List α
  | [] => (none, [])
  | head :: tail =>
      match body head with
      | .stop value => (some 0, value :: tail)
      | .next value =>
          let rest := sweepList body tail
          (rest.1.map (· + 1), value :: rest.2)

theorem sweep_list_length (body : α → Verdict α) (cells : List α) :
    (sweepList body cells).2.length = cells.length := by
  induction cells with
  | nil => rfl
  | cons head tail ih =>
      cases verdict : body head <;> simp [sweepList, verdict, ih]

theorem sweep_list_location (body : α → Verdict α) (cells : List α) :
    (sweepList body cells).1 = cells.findIdx? (fun cell => (body cell).stops) := by
  induction cells with
  | nil => rfl
  | cons head tail ih =>
      cases verdict : body head with
      | stop value => simp [sweepList, verdict, Verdict.stops, List.findIdx?_cons]
      | next value => simp [sweepList, verdict, Verdict.stops, List.findIdx?_cons, ih]

def Visited (location : Option Nat) (i : Nat) : Prop := ∀ k, location = some k → i ≤ k

theorem sweep_list_at (body : α → Verdict α) (cells : List α) (i : Nat) (a : α)
    (present : cells[i]? = some a) :
    (Visited (sweepList body cells).1 i → (sweepList body cells).2[i]? = some (body a).value) ∧
      (¬ Visited (sweepList body cells).1 i → (sweepList body cells).2[i]? = some a) := by
  induction cells generalizing i with
  | nil => simp at present
  | cons head tail ih =>
      cases verdict : body head with
      | stop value =>
          cases i with
          | zero =>
              obtain rfl : head = a := by simpa using present
              simp [sweepList, verdict, Visited, Verdict.value]
          | succ k =>
              have later : tail[k]? = some a := by simpa using present
              simp [sweepList, verdict, Visited, later]
      | next value =>
          cases i with
          | zero =>
              obtain rfl : head = a := by simpa using present
              simp [sweepList, verdict, Visited, Verdict.value]
          | succ k =>
              have later : tail[k]? = some a := by simpa using present
              have shifted : Visited (sweepList body (head :: tail)).1 (k + 1) ↔ Visited (sweepList body tail).1 k := by
                simp [sweepList, verdict, Visited]
              rw [shifted]
              simpa [sweepList, verdict] using ih k later

def sweep (body : α → Verdict α) (cells : Cells α n) : Option (Fin n) × Cells α n :=
  let result := sweepList body cells.toList
  (result.1.bind fun k => if bound : k < n then some ⟨k, bound⟩ else none,
    ⟨result.2.toArray, by simp [result, sweep_list_length]⟩)

theorem sweep_location (body : α → Verdict α) (cells : Cells α n) :
    (sweep body cells).1.map Fin.val = (sweepList body cells.toList).1 := by
  cases found : (sweepList body cells.toList).1 with
  | none => simp [sweep, found]
  | some k =>
      have bound : k < n := by
        rw [sweep_list_location] at found
        simpa using (List.findIdx?_eq_some_iff_findIdx_eq.mp found).1
      simp [sweep, found, bound]

theorem sweep_some_iff (body : α → Verdict α) (cells : Cells α n) (k : Fin n) :
    (sweep body cells).1 = some k ↔
      (body (read cells k)).stops = true ∧ ∀ i, i < k → (body (read cells i)).stops = false := by
  have located := sweep_location body cells
  rw [sweep_list_location] at located
  have lifted : (sweep body cells).1 = some k ↔ (sweep body cells).1.map Fin.val = some k.val := by
    cases (sweep body cells).1 <;> simp [Fin.ext_iff]
  rw [lifted, located, List.findIdx?_eq_some_iff_getElem]
  constructor
  · rintro ⟨bound, hit, before⟩
    refine ⟨by simpa [read] using hit, fun i less => ?_⟩
    simpa [read] using before i.val less
  · rintro ⟨hit, before⟩
    refine ⟨by simp, by simpa [read] using hit, fun j less => ?_⟩
    simpa [read] using before ⟨j, less.trans k.isLt⟩ less

theorem sweep_none_iff (body : α → Verdict α) (cells : Cells α n) :
    (sweep body cells).1 = none ↔ ∀ i, (body (read cells i)).stops = false := by
  have located := sweep_location body cells
  rw [sweep_list_location] at located
  have lifted : (sweep body cells).1 = none ↔ (sweep body cells).1.map Fin.val = none := by
    cases (sweep body cells).1 <;> simp
  rw [lifted, located, List.findIdx?_eq_none_iff]
  constructor
  · intro absent i
    exact absent _ (by simp [read])
  · intro absent a member
    obtain ⟨i, bound, rfl⟩ := List.mem_iff_getElem.mp member
    simpa [read] using absent ⟨i, by simpa using bound⟩

theorem read_sweep (body : α → Verdict α) (cells : Cells α n) (i : Fin n) :
    read (sweep body cells).2 i =
      if ∀ k, (sweep body cells).1 = some k → i ≤ k then (body (read cells i)).value else read cells i := by
  have present : cells.toList[i.val]? = some (read cells i) := by simp [read]
  obtain ⟨inside, outside⟩ := sweep_list_at body cells.toList i.val (read cells i) present
  have visited : Visited (sweepList body cells.toList).1 i.val ↔ ∀ k, (sweep body cells).1 = some k → i ≤ k := by
    rw [← sweep_location body cells]
    simp [Visited]
  have cell : (sweepList body cells.toList).2[i.val]? = some (read (sweep body cells).2 i) := by
    have bound : i.val < (sweepList body cells.toList).2.length := by
      rw [sweep_list_length]
      simp
    simp [read, sweep, List.getElem?_eq_getElem bound]
  rw [cell, visited] at inside outside
  by_cases reached : ∀ k, (sweep body cells).1 = some k → i ≤ k
  · rw [if_pos reached]
    exact Option.some.inj (inside reached)
  · rw [if_neg reached]
    exact Option.some.inj (outside reached)

theorem read_sweep_none (body : α → Verdict α) (cells : Cells α n) (i : Fin n)
    (missed : (sweep body cells).1 = none) : read (sweep body cells).2 i = (body (read cells i)).value := by
  simp [read_sweep, missed]

theorem sweep_before (body : α → Verdict α) (cells : Cells α n) (i : Fin n)
    (reached : ∀ k, (sweep body cells).1 = some k → i ≤ k) : ∀ j, j < i → (body (read cells j)).stops = false := by
  intro j less
  cases location : (sweep body cells).1 with
  | none => exact (sweep_none_iff _ _).mp location j
  | some k => exact ((sweep_some_iff _ _ _).mp location).2 j (less.trans_le (reached k location))

-- Two passes leave at the same cell when their bodies agree on every cell
-- that both reach.
theorem sweep_agree (body : α → Verdict α) (other : β → Verdict β) (a : Cells α n) (b : Cells β n)
    (agree : ∀ i, (∀ j, j < i → (body (read a j)).stops = false) → (∀ j, j < i → (other (read b j)).stops = false) →
      (other (read b i)).stops = (body (read a i)).stops) :
    (sweep other b).1 = (sweep body a).1 := by
  have below : ∀ k : Fin n, (∀ j, j < k → (body (read a j)).stops = false) ↔ (∀ j, j < k → (other (read b j)).stops = false) := by
    intro k
    induction k using WellFoundedLT.induction with
    | ind k ih =>
        constructor
        · intro quiet j less
          have before : ∀ i, i < j → (body (read a i)).stops = false := fun i earlier => quiet i (earlier.trans less)
          rw [agree j before ((ih j less).mp before), quiet j less]
        · intro quiet j less
          have before : ∀ i, i < j → (other (read b i)).stops = false := fun i earlier => quiet i (earlier.trans less)
          rw [← agree j ((ih j less).mpr before) before, quiet j less]
  cases location : (sweep body a).1 with
  | some k =>
      obtain ⟨stop, quiet⟩ := (sweep_some_iff _ _ _).mp location
      have before := (below k).mp quiet
      exact (sweep_some_iff _ _ _).mpr ⟨(agree k quiet before).trans stop, before⟩
  | none =>
      have quiet := (sweep_none_iff _ _).mp location
      refine (sweep_none_iff _ _).mpr fun i => ?_
      have earlier : ∀ j, j < i → (body (read a j)).stops = false := fun j _ => quiet j
      rw [agree i earlier ((below i).mp earlier), quiet i]

-- A search is a sweep that rewrites nothing.
def first (test : α → Bool) (cells : Cells α n) : Option (Fin n) :=
  (sweep (fun cell => if test cell then .stop cell else .next cell) cells).1

theorem search_stops (test : α → Bool) (cell : α) : (if test cell then Verdict.stop cell else Verdict.next cell).stops = test cell := by
  cases hit : test cell <;> simp [Verdict.stops]

theorem first_some_iff (test : α → Bool) (cells : Cells α n) (k : Fin n) :
    first test cells = some k ↔ test (read cells k) = true ∧ ∀ i, i < k → test (read cells i) = false := by
  rw [first, sweep_some_iff]
  simp only [search_stops]

theorem first_none_iff (test : α → Bool) (cells : Cells α n) :
    first test cells = none ↔ ∀ i, test (read cells i) = false := by
  rw [first, sweep_none_iff]
  simp only [search_stops]

theorem first_congr (test : α → Bool) (other : β → Bool) (a : Cells α n) (b : Cells β n)
    (same : ∀ i, test (read a i) = other (read b i)) : first test a = first other b := by
  cases found : first other b with
  | none =>
      rw [first_none_iff] at found ⊢
      exact fun i => (same i).trans (found i)
  | some k =>
      rw [first_some_iff] at found ⊢
      exact ⟨(same k).trans found.1, fun i less => (same i).trans (found.2 i less)⟩

section Least

variable {ι κ : Type*} [LinearOrder κ]

-- A running minimum over candidates: a later candidate replaces the best one
-- only when its key is strictly smaller.
def leastStep (key : ι → κ) (best : κ × ι) (i : ι) : κ × ι := if key i < best.1 then (key i, i) else best

def least (key : ι → κ) (candidates : List ι) (start : κ × ι) : κ × ι := candidates.foldl (leastStep key) start

theorem least_le_start (key : ι → κ) (candidates : List ι) (start : κ × ι) :
    (least key candidates start).1 ≤ start.1 := by
  induction candidates generalizing start with
  | nil => exact le_rfl
  | cons head tail ih =>
      refine (ih (leastStep key start head)).trans ?_
      unfold leastStep
      split
      · rename_i less
        exact less.le
      · exact le_rfl

theorem least_le (key : ι → κ) (candidates : List ι) (start : κ × ι) :
    ∀ i ∈ candidates, (least key candidates start).1 ≤ key i := by
  induction candidates generalizing start with
  | nil => simp
  | cons head tail ih =>
      intro i member
      rcases List.mem_cons.mp member with rfl | later
      · refine (least_le_start key tail (leastStep key start i)).trans ?_
        unfold leastStep
        split
        · exact le_rfl
        · rename_i notLess
          exact le_of_not_gt notLess
      · exact ih (leastStep key start head) i later

theorem least_origin (key : ι → κ) (candidates : List ι) (start : κ × ι) :
    least key candidates start = start ∨ key (least key candidates start).2 = (least key candidates start).1 := by
  induction candidates generalizing start with
  | nil => exact Or.inl rfl
  | cons head tail ih =>
      cases ih (leastStep key start head) with
      | inl kept =>
          by_cases less : key head < start.1
          · right
            have result : least key (head :: tail) start = (key head, head) := by
              simpa [least, leastStep, less] using kept
            rw [result]
          · left
            simpa [least, leastStep, less] using kept
      | inr chosen => exact Or.inr chosen

theorem least_sentinel (key : ι → κ) (head : ι) (tail : List ι) (top : κ) (bound : key head ≤ top) :
    least key (head :: tail) (top, head) = least key (head :: tail) (key head, head) := by
  have same : leastStep key (top, head) head = leastStep key (key head, head) head := by
    cases bound.lt_or_eq with
    | inl less => rw [leastStep, leastStep, if_pos less, if_neg (lt_irrefl _)]
    | inr equal => rw [equal]
  change least key tail (leastStep key (top, head) head) = least key tail (leastStep key (key head, head) head)
  rw [same]

theorem least_congr {μ : Type*} [LinearOrder μ] (key : ι → κ) (other : ι → μ) (candidates : List ι)
    (start : κ × ι) (begin : μ × ι) (sameIndex : start.2 = begin.2)
    (head : ∀ i ∈ candidates, key i < start.1 ↔ other i < begin.1)
    (pairs : ∀ i ∈ candidates, ∀ j ∈ candidates, key i < key j ↔ other i < other j) :
    (least key candidates start).2 = (least other candidates begin).2 := by
  induction candidates generalizing start begin with
  | nil => exact sameIndex
  | cons first rest ih =>
      have restPairs : ∀ i ∈ rest, ∀ j ∈ rest, key i < key j ↔ other i < other j :=
        fun i hi j hj => pairs i (List.mem_cons_of_mem _ hi) j (List.mem_cons_of_mem _ hj)
      have agree := head first List.mem_cons_self
      change (least key rest (leastStep key start first)).2 = (least other rest (leastStep other begin first)).2
      by_cases less : key first < start.1
      · rw [leastStep, leastStep, if_pos less, if_pos (agree.mp less)]
        exact ih (key first, first) (other first, first) rfl
          (fun i hi => pairs i (List.mem_cons_of_mem _ hi) first List.mem_cons_self) restPairs
      · rw [leastStep, leastStep, if_neg less, if_neg (fun other => less (agree.mpr other))]
        exact ih start begin sameIndex (fun i hi => head i (List.mem_cons_of_mem _ hi)) restPairs

end Least

end BeaconMesh.Sweep
