import Mathlib.Data.List.Induction

set_option autoImplicit false

namespace BeaconMesh.History

variable {σ τ ε ε' ω α : Type*}

-- A machine answers every event with an output. Its history is the list of
-- events it took, each with the output it gave.
def final (step : σ → ε → σ × ω) (start : σ) (events : List ε) : σ :=
  events.foldl (fun state event => (step state event).1) start

def log (step : σ → ε → σ × ω) : σ → List ε → List (ε × ω)
  | _, [] => []
  | state, event :: rest => (event, (step state event).2) :: log step (step state event).1 rest

@[simp] theorem final_nil (step : σ → ε → σ × ω) (start : σ) : final step start [] = start := rfl

@[simp] theorem log_nil (step : σ → ε → σ × ω) (start : σ) : log step start [] = [] := rfl

theorem final_cons (step : σ → ε → σ × ω) (start : σ) (event : ε) (rest : List ε) :
    final step start (event :: rest) = final step (step start event).1 rest := rfl

@[simp] theorem final_snoc (step : σ → ε → σ × ω) (start : σ) (past : List ε) (event : ε) :
    final step start (past ++ [event]) = (step (final step start past) event).1 := by
  simp [final]

theorem log_append (step : σ → ε → σ × ω) (start : σ) (past later : List ε) :
    log step start (past ++ later) = log step start past ++ log step (final step start past) later := by
  induction past generalizing start with
  | nil => rfl
  | cons event rest ih => simp [log, final_cons, ih]

@[simp] theorem log_snoc (step : σ → ε → σ × ω) (start : σ) (past : List ε) (event : ε) :
    log step start (past ++ [event]) =
      log step start past ++ [(event, (step (final step start past) event).2)] := by
  rw [log_append]
  rfl

@[simp] theorem log_length (step : σ → ε → σ × ω) (start : σ) (events : List ε) :
    (log step start events).length = events.length := by
  induction events generalizing start with
  | nil => rfl
  | cons event rest ih => simp [log, ih]

theorem log_events (step : σ → ε → σ × ω) (start : σ) (events : List ε) :
    (log step start events).map Prod.fst = events := by
  induction events generalizing start with
  | nil => rfl
  | cons event rest ih => simp [log, ih]

theorem log_split (step : σ → ε → σ × ω) (start : σ) (past : List ε) (event : ε) (later : List ε) :
    (log step start (past ++ event :: later))[past.length]? = some (event, (step (final step start past) event).2) := by
  rw [log_append, List.getElem?_append_right (Nat.le_of_eq (log_length _ _ _)), log_length, Nat.sub_self]
  rfl

theorem log_next (step : σ → ε → σ × ω) (start : σ) (events : List ε) (j : Nat) (bound : j < events.length) :
    (log step start events)[j]? = some (events[j], (step (final step start (events.take j)) events[j]).2) ∧
      final step start (events.take (j + 1)) = (step (final step start (events.take j)) events[j]).1 := by
  have split : events = events.take j ++ events[j] :: events.drop (j + 1) := by
    rw [← List.drop_eq_getElem_cons bound, List.take_append_drop]
  have answered := log_split step start (events.take j) events[j] (events.drop (j + 1))
  rw [← split, List.length_take_of_le (Nat.le_of_lt bound)] at answered
  exact ⟨answered, by rw [← List.take_append_getElem bound, final_snoc]⟩

theorem log_entry (step : σ → ε → σ × ω) (start : σ) (events : List ε) (j : Nat) (entry : ε × ω)
    (present : (log step start events)[j]? = some entry) :
    ∃ event later, events = events.take j ++ event :: later ∧
      entry = (event, (step (final step start (events.take j)) event).2) := by
  have bound : j < events.length := by
    have inside := (List.getElem?_eq_some_iff.mp present).1
    simpa using inside
  have split : events = events.take j ++ events[j] :: events.drop (j + 1) := by
    rw [← List.drop_eq_getElem_cons bound, List.take_append_drop]
  exact ⟨events[j], events.drop (j + 1), split, Option.some.inj (present.symm.trans (log_next step start events j bound).1)⟩

theorem log_take (step : σ → ε → σ × ω) (start : σ) (events : List ε) (j : Nat) :
    log step start (events.take j) = (log step start events).take j := by
  induction events generalizing start j with
  | nil => simp
  | cons event rest ih =>
      cases j with
      | zero => rfl
      | succ k => simp [log, ih]

theorem invariant (step : σ → ε → σ × ω) (start : σ) (holds : List (ε × ω) → σ → Prop)
    (base : holds [] start)
    (preserved : ∀ past state event, holds past state →
      holds (past ++ [(event, (step state event).2)]) (step state event).1)
    (events : List ε) : holds (log step start events) (final step start events) := by
  induction events using List.reverseRecOn with
  | nil => exact base
  | append_singleton past event ih =>
      rw [log_snoc, final_snoc]
      exact preserved _ _ event ih

theorem state_invariant (step : σ → ε → σ × ω) (start : σ) (holds : σ → Prop) (base : holds start)
    (preserved : ∀ state event, holds state → holds (step state event).1) (events : List ε) :
    holds (final step start events) :=
  invariant step start (fun _ state => holds state) base (fun _ state event => preserved state event) events

theorem log_position (step : σ → ε → σ × ω) (start : σ) (events : List ε) (j : Nat) (entry : ε × ω)
    (present : (log step start events)[j]? = some entry) : events[j]? = some entry.1 := by
  rw [← log_events step start events, List.getElem?_map, present]
  rfl

theorem log_at (step : σ → ε → σ × ω) (start : σ) (events : List ε) (j : Nat) (entry : ε × ω)
    (present : (log step start events)[j]? = some entry) :
    entry.2 = (step (final step start (events.take j)) entry.1).2 ∧
      final step start (events.take (j + 1)) = (step (final step start (events.take j)) entry.1).1 := by
  obtain ⟨event, later, split, value⟩ := log_entry step start events j entry present
  have position := log_position step start events j entry present
  have next : events.take (j + 1) = events.take j ++ [entry.1] := by
    rw [List.take_add_one, position]
    rfl
  subst value
  exact ⟨rfl, by rw [next, final_snoc]⟩

-- Two machines in lockstep: as long as every step is allowed, related states
-- answer alike and stay related.
theorem lockstep (step : σ → ε → σ × ω) (other : τ → ε' → τ × ω) (convert : ε → ε') (related : σ → τ → Prop)
    (allowed : σ → τ → ε → Prop)
    (simulates : ∀ a b event, related a b → allowed a b event →
      (other b (convert event)).2 = (step a event).2 ∧ related (step a event).1 (other b (convert event)).1)
    (start : σ) (begins : τ) (initial : related start begins) (events : List ε)
    (every : ∀ past event later, events = past ++ event :: later →
      allowed (final step start past) (final other begins (past.map convert)) event) :
    (log other begins (events.map convert)).map Prod.snd = (log step start events).map Prod.snd ∧
      related (final step start events) (final other begins (events.map convert)) := by
  induction events using List.reverseRecOn with
  | nil => exact ⟨rfl, initial⟩
  | append_singleton past event ih =>
      obtain ⟨answers, held⟩ := ih fun before now after split =>
        every before now (after ++ [event]) (by rw [split]; simp)
      obtain ⟨answer, next⟩ := simulates _ _ event held (every past event [] rfl)
      rw [List.map_append, List.map_singleton, log_snoc, log_snoc, final_snoc, final_snoc, List.map_append, List.map_append,
        answers]
      exact ⟨by simp [answer], next⟩

-- A machine whose answers are those of another, shown in its own terms.
theorem log_shown {ω' : Type*} (step : σ → ε → σ × ω) (other : σ → ε → σ × ω') (shown : ε → ω → ω')
    (answers : ∀ state event, other state event = ((step state event).1, shown event (step state event).2)) (start : σ)
    (events : List ε) :
    log other start events = (log step start events).map (fun entry => (entry.1, shown entry.1 entry.2)) ∧
      final other start events = final step start events := by
  induction events generalizing start with
  | nil => exact ⟨rfl, rfl⟩
  | cons event rest ih =>
      obtain ⟨later, last⟩ := ih (step start event).1
      rw [log, log, final_cons, final_cons, answers]
      exact ⟨by rw [List.map_cons, later], last⟩

theorem log_emitted {β : Type*} (step : σ → ε → σ × Option β) (start : σ) (events : List ε) (chosen : Nat → Bool) (emit : ε → β)
    (answers : ∀ j event, events[j]? = some event →
      (step (final step start (events.take j)) event).2 = if chosen j then some (emit event) else none) :
    (log step start events).filterMap Prod.snd = ((events.zipIdx).filter fun entry => chosen entry.2).map fun entry => emit entry.1 := by
  induction events using List.reverseRecOn with
  | nil => rfl
  | append_singleton past event ih =>
      have earlier := ih fun j other found => by
        have inside := (List.getElem?_eq_some_iff.mp found).1
        have answer := answers j other (by rw [List.getElem?_append_left inside]; exact found)
        rwa [List.take_append_of_le_length (Nat.le_of_lt inside)] at answer
      have last := answers past.length event (by simp)
      rw [List.take_append_of_le_length (Nat.le_refl _), List.take_length] at last
      rw [log_snoc, List.filterMap_append, earlier, List.zipIdx_append, List.filter_append, List.map_append]
      cases here : chosen past.length with
      | true => simp [last, here]
      | false => simp [last, here]

theorem emitted_eq_iff {β : Type*} (entries : List α) (fewer more : α → Bool) (emit : α → β)
    (inside : ∀ a ∈ entries, fewer a = true → more a = true) :
    (entries.filter fewer).map emit = (entries.filter more).map emit ↔ ∀ a ∈ entries, more a = true → fewer a = true := by
  constructor
  · intro same
    have nested : (entries.filter more).filter fewer = entries.filter fewer := by
      rw [List.filter_filter]
      refine List.filter_congr fun a member => ?_
      cases chosen : fewer a with
      | true => simp [inside a member chosen]
      | false => rfl
    have lengths : (entries.filter fewer).length = (entries.filter more).length := by
      simpa using congrArg List.length same
    have sublist : (entries.filter fewer).Sublist (entries.filter more) := by
      rw [← nested]
      exact List.filter_sublist
    have equal := sublist.eq_of_length lengths
    intro a member chosen
    have kept : a ∈ entries.filter fewer := by
      rw [equal]
      exact List.mem_filter.mpr ⟨member, chosen⟩
    exact (List.mem_filter.mp kept).2
  · intro reverse
    rw [List.filter_congr fun a member => Bool.eq_iff_iff.mpr ⟨inside a member, reverse a member⟩]

-- Positions of a list that satisfy a predicate, and the last such position.
def At (holds : α → Prop) (entries : List α) (i : Nat) : Prop := ∃ a, entries[i]? = some a ∧ holds a

def Latest (holds : α → Prop) (entries : List α) (i : Nat) : Prop :=
  At holds entries i ∧ ∀ j, i < j → ¬ At holds entries j

theorem at_bound (holds : α → Prop) (entries : List α) (i : Nat) (present : At holds entries i) :
    i < entries.length := by
  obtain ⟨a, found, _⟩ := present
  exact (List.getElem?_eq_some_iff.mp found).1

theorem at_snoc (holds : α → Prop) (entries : List α) (a : α) (i : Nat) :
    At holds (entries ++ [a]) i ↔ At holds entries i ∨ (i = entries.length ∧ holds a) := by
  constructor
  · rintro ⟨b, found, good⟩
    rcases Nat.lt_trichotomy i entries.length with before | rfl | after
    · rw [List.getElem?_append_left before] at found
      exact Or.inl ⟨b, found, good⟩
    · obtain rfl : a = b := by simpa using found
      exact Or.inr ⟨rfl, good⟩
    · have inside := (List.getElem?_eq_some_iff.mp found).1
      simp at inside
      omega
  · rintro (⟨b, found, good⟩ | ⟨rfl, good⟩)
    · refine ⟨b, ?_, good⟩
      rw [List.getElem?_append_left (List.getElem?_eq_some_iff.mp found).1]
      exact found
    · exact ⟨a, by simp, good⟩

theorem at_take (holds : α → Prop) (entries : List α) (i j : Nat) :
    At holds (entries.take j) i ↔ i < j ∧ At holds entries i := by
  constructor
  · rintro ⟨a, found, good⟩
    have bound := (List.getElem?_eq_some_iff.mp found).1
    have before : i < j := by
      rw [List.length_take] at bound
      omega
    exact ⟨before, a, by rwa [List.getElem?_take_of_lt before] at found, good⟩
  · rintro ⟨before, a, found, good⟩
    exact ⟨a, by rwa [List.getElem?_take_of_lt before], good⟩

theorem latest_snoc_hit (holds : α → Prop) (entries : List α) (a : α) (good : holds a) :
    Latest holds (entries ++ [a]) entries.length := by
  refine ⟨(at_snoc _ _ _ _).mpr (Or.inr ⟨rfl, good⟩), fun j after present => ?_⟩
  have bound := at_bound _ _ _ present
  simp at bound
  omega

theorem latest_snoc_skip (holds : α → Prop) (entries : List α) (a : α) (i : Nat) (bad : ¬ holds a)
    (latest : Latest holds entries i) : Latest holds (entries ++ [a]) i := by
  refine ⟨(at_snoc _ _ _ _).mpr (Or.inl latest.1), fun j after present => ?_⟩
  rcases (at_snoc _ _ _ _).mp present with old | ⟨_, good⟩
  · exact latest.2 j after old
  · exact bad good

-- What every step keeps without noise, unless it breaks it for a stated
-- reason, holds quietly to the end of a run or up to a step with such a reason.
theorem held_until (step : σ → ε → σ × ω) (start : σ) (holds : σ → Prop) (quiet : ε × ω → Prop) (breaks : σ → ε → ω → Prop)
    (kept : ∀ state event, holds state →
      (holds (step state event).1 ∧ quiet (event, (step state event).2)) ∨ breaks state event (step state event).2)
    (events : List ε) (i : Nat) (inside : i ≤ events.length) (begins : holds (final step start (events.take i))) :
    ∃ m, i ≤ m ∧ m ≤ events.length ∧ (∀ n, i ≤ n → n ≤ m → holds (final step start (events.take n))) ∧
      (∀ n, i ≤ n → n < m → At quiet (log step start events) n) ∧
      (m = events.length ∨ ∃ event output, (log step start events)[m]? = some (event, output) ∧
        breaks (final step start (events.take m)) event output) := by
  induction rest : events.length - i generalizing i with
  | zero =>
      refine ⟨i, Nat.le_refl i, inside, fun n after before => ?_, fun n after before => absurd before (Nat.not_lt.mpr after), Or.inl (by omega)⟩
      rw [Nat.le_antisymm before after]
      exact begins
  | succ rest ih =>
      have bound : i < events.length := by omega
      obtain ⟨entry, next⟩ := log_next step start events i bound
      cases kept _ events[i] begins with
      | inr broken =>
          refine ⟨i, Nat.le_refl i, inside, fun n after before => ?_, fun n after before => absurd before (Nat.not_lt.mpr after),
            Or.inr ⟨_, _, entry, broken⟩⟩
          rw [Nat.le_antisymm before after]
          exact begins
      | inl good =>
          obtain ⟨m, after, last, held, silent, stop⟩ := ih (i + 1) bound (next ▸ good.1) (by omega)
          refine ⟨m, Nat.le_of_succ_le after, last, fun n from_i before => ?_, fun n from_i before => ?_, stop⟩
          · rcases Nat.eq_or_lt_of_le from_i with rfl | later
            · exact begins
            · exact held n later before
          · rcases Nat.eq_or_lt_of_le from_i with rfl | later
            · exact ⟨_, entry, good.2⟩
            · exact silent n later before

theorem holds_unless (step : σ → ε → σ × ω) (start : σ) (holds : σ → Prop) (breaks : σ → ε → ω → Prop)
    (kept : ∀ state event, holds state → holds (step state event).1 ∨ breaks state event (step state event).2)
    (events : List ε) (i : Nat) (inside : i ≤ events.length) (begins : holds (final step start (events.take i))) :
    holds (final step start events) ∨ ∃ m event output, i ≤ m ∧ (log step start events)[m]? = some (event, output) ∧
      holds (final step start (events.take m)) ∧ breaks (final step start (events.take m)) event output := by
  obtain ⟨m, after, _, held, _, stop⟩ := held_until step start holds (fun _ => True) breaks
    (fun state event good => (kept state event good).imp_left fun still => ⟨still, trivial⟩) events i inside begins
  have good := held m after (Nat.le_refl m)
  cases stop with
  | inl whole =>
      rw [whole, List.take_length] at good
      exact Or.inl good
  | inr broken =>
      obtain ⟨event, output, found, reason⟩ := broken
      exact Or.inr ⟨m, event, output, after, found, good, reason⟩

end BeaconMesh.History
