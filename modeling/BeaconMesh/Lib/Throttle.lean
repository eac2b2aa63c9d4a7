import BeaconMesh.Lib.History
import BeaconMesh.Lib.Spacing
import Mathlib.Algebra.Order.Group.Defs
import Mathlib.Logic.Function.Basic

set_option autoImplicit false

namespace BeaconMesh.Throttle

open History Spacing

variable {κ τ ε : Type*}

-- A throttle lets a request pass unless one with the same key passed less
-- than a window ago; events that ask for nothing are skipped.
inductive Verdict where
  | skipped
  | throttled
  | passed
deriving DecidableEq, Repr

def recent [Sub τ] [LT τ] [DecidableLT τ] (window : τ) (cache : κ → Option τ) (key : κ) (now : τ) : Bool :=
  match cache key with
  | none => false
  | some last => decide (now - last < window)

def limit [DecidableEq κ] [Sub τ] [LT τ] [DecidableLT τ] (window : τ) (request : ε → Option (κ × τ)) (cache : κ → Option τ) (event : ε) :
    (κ → Option τ) × Verdict :=
  match request event with
  | none => (cache, .skipped)
  | some (key, now) =>
      if recent window cache key now then (cache, .throttled) else (Function.update cache key (some now), .passed)

def nothing : κ → Option τ := fun _ => none

structure Passes (request : ε → Option (κ × τ)) (key : κ) (time : τ) (record : ε × Verdict) : Prop where
  asked : request record.1 = some (key, time)
  passed : record.2 = .passed

theorem recent_iff [Sub τ] [LT τ] [DecidableLT τ] (window : τ) (cache : κ → Option τ) (key : κ) (now : τ) :
    recent window cache key now = true ↔ ∃ last, cache key = some last ∧ now - last < window := by
  cases kept : cache key with
  | none => simp [recent, kept]
  | some last => simp [recent, kept]

section Admission

variable [DecidableEq κ] [Sub τ] [LT τ] [DecidableLT τ] (window : τ) (request : ε → Option (κ × τ))

theorem limit_skipped (cache : κ → Option τ) (event : ε) (asked : request event = none) :
    limit window request cache event = (cache, .skipped) := by
  simp only [limit, asked]

theorem limit_throttled (cache : κ → Option τ) (event : ε) (key : κ) (now : τ) (asked : request event = some (key, now))
    (fresh : recent window cache key now = true) : limit window request cache event = (cache, .throttled) := by
  simp only [limit, asked, fresh, if_true]

theorem limit_passed (cache : κ → Option τ) (event : ε) (key : κ) (now : τ) (asked : request event = some (key, now))
    (stale : recent window cache key now = false) :
    limit window request cache event = (Function.update cache key (some now), .passed) := by
  simp only [limit, asked, stale, Bool.false_eq_true, if_false]

end Admission

section Memory

variable [LinearOrder τ] (request : ε → Option (κ × τ))

structure Remembers (history : List (ε × Verdict)) (cache : κ → Option τ) : Prop where
  kept : ∀ key last, cache key = some last → ∃ record ∈ history, Passes request key last record
  newest : ∀ record ∈ history, ∀ key time, Passes request key time record → ∃ last, cache key = some last ∧ time ≤ last

theorem remembers_quiet (history : List (ε × Verdict)) (cache : κ → Option τ) (event : ε) (verdict : Verdict)
    (silent : verdict ≠ .passed) (remembers : Remembers request history cache) :
    Remembers request (history ++ [(event, verdict)]) cache := by
  constructor
  · intro key last found
    obtain ⟨record, member, passes⟩ := remembers.kept key last found
    exact ⟨record, List.mem_append_left _ member, passes⟩
  · intro record member key time passes
    cases List.mem_append.mp member with
    | inl old => exact remembers.newest record old key time passes
    | inr new =>
        rw [List.mem_singleton] at new
        rw [new] at passes
        exact absurd passes.passed silent

theorem remembers_passed [DecidableEq κ] (history : List (ε × Verdict)) (cache : κ → Option τ) (event : ε) (key : κ) (now : τ)
    (asked : request event = some (key, now)) (later : ∀ last, cache key = some last → last ≤ now)
    (remembers : Remembers request history cache) :
    Remembers request (history ++ [(event, .passed)]) (Function.update cache key (some now)) := by
  constructor
  · intro other last found
    by_cases same : other = key
    · rw [same, Function.update_self] at found
      obtain rfl := Option.some.inj found
      exact ⟨(event, .passed), by simp, same ▸ asked, rfl⟩
    · rw [Function.update_of_ne same] at found
      obtain ⟨record, member, passes⟩ := remembers.kept other last found
      exact ⟨record, List.mem_append_left _ member, passes⟩
  · intro record member other time passes
    cases List.mem_append.mp member with
    | inl old =>
        obtain ⟨last, kept, order⟩ := remembers.newest record old other time passes
        by_cases same : other = key
        · subst same
          exact ⟨now, Function.update_self _ _ _, order.trans (later last kept)⟩
        · rw [Function.update_of_ne same]
          exact ⟨last, kept, order⟩
    | inr new =>
        rw [List.mem_singleton] at new
        have both := passes.asked
        rw [new, asked, Option.some.injEq, Prod.mk.injEq] at both
        obtain ⟨rfl, rfl⟩ := both
        exact ⟨now, Function.update_self _ _ _, le_rfl⟩

end Memory

section Ordered

variable [AddCommGroup τ] [LinearOrder τ] [IsOrderedAddMonoid τ] (window : τ)

theorem passed_later (positive : 0 ≤ window) (cache : κ → Option τ) (key : κ) (now last : τ)
    (stale : recent window cache key now = false) (kept : cache key = some last) : last ≤ now := by
  have gap : window ≤ now - last :=
    not_lt.mp fun near => Bool.false_ne_true (stale.symm.trans ((recent_iff window cache key now).mpr ⟨last, kept, near⟩))
  exact sub_nonneg.mp (positive.trans gap)

variable [DecidableEq κ] (request : ε → Option (κ × τ))

-- The times of a key that pass only grow, whatever clock they are read from.
theorem log_remembers (positive : 0 ≤ window) (events : List ε) :
    Remembers request (log (limit window request) nothing events) (final (limit window request) nothing events) := by
  induction events using List.reverseRecOn with
  | nil =>
      constructor
      · intro key last found
        exact absurd found.symm (Option.some_ne_none last)
      · intro record member
        exact absurd member List.not_mem_nil
  | append_singleton past event ih =>
      rw [log_snoc, final_snoc]
      cases asked : request event with
      | none =>
          rw [limit_skipped window request _ event asked]
          exact remembers_quiet request _ _ event .skipped (by decide) ih
      | some pair =>
          obtain ⟨key, now⟩ := pair
          cases fresh : recent window (final (limit window request) nothing past) key now with
          | true =>
              rw [limit_throttled window request _ event key now asked fresh]
              exact remembers_quiet request _ _ event .throttled (by decide) ih
          | false =>
              rw [limit_passed window request _ event key now asked fresh]
              exact remembers_passed request _ _ event key now asked
                (fun last kept => passed_later window positive _ key now last fresh kept) ih

-- A request passes exactly when no request with its key passed less than a
-- window before.
theorem passes_iff (positive : 0 ≤ window) (events : List ε) (i : Nat) (event : ε) (key : κ) (now : τ)
    (verdict : Verdict) (found : (log (limit window request) nothing events)[i]? = some (event, verdict))
    (asked : request event = some (key, now)) :
    verdict = .passed ↔ ¬ ∃ record ∈ (log (limit window request) nothing events).take i, ∃ earlier,
      Passes request key earlier record ∧ now - earlier < window := by
  have remembers := log_remembers window request positive (events.take i)
  have value : verdict = _ := (log_at (limit window request) nothing events i _ found).1
  rw [log_take] at remembers
  cases fresh : recent window (final (limit window request) nothing (events.take i)) key now with
  | true =>
      rw [limit_throttled window request _ event key now asked fresh] at value
      obtain ⟨last, kept, near⟩ := (recent_iff window _ key now).mp fresh
      obtain ⟨record, member, passes⟩ := remembers.kept key last kept
      refine iff_of_false (by simp [value]) (not_not_intro ⟨record, member, last, passes, near⟩)
  | false =>
      rw [limit_passed window request _ event key now asked fresh] at value
      refine iff_of_true value ?_
      rintro ⟨record, member, earlier, passes, near⟩
      obtain ⟨last, kept, later⟩ := remembers.newest record member key earlier passes
      have close : now - last < window := (sub_le_sub_left later now).trans_lt near
      exact Bool.false_ne_true (fresh.symm.trans ((recent_iff window _ key now).mpr ⟨last, kept, close⟩))

end Ordered

section Admitted

-- What passes, told by the requests alone: those with no request of their key
-- less than a window before that passes.
def Admitted [Sub τ] [LT τ] (window : τ) (request : ε → Option (κ × τ)) (events : List ε) (i : Nat) : Prop :=
  ∃ event key now, events[i]? = some event ∧ request event = some (key, now) ∧
    ∀ j, j < i → ∀ other earlier, events[j]? = some other → request other = some (key, earlier) → now - earlier < window →
      ¬ Admitted window request events j
termination_by i

variable [DecidableEq κ] [AddCommGroup τ] [LinearOrder τ] [IsOrderedAddMonoid τ] (window : τ) (request : ε → Option (κ × τ))

theorem passes_admitted (positive : 0 ≤ window) (events : List ε) (i : Nat) (event : ε) (verdict : Verdict)
    (found : (log (limit window request) nothing events)[i]? = some (event, verdict)) :
    verdict = .passed ↔ Admitted window request events i := by
  induction i using Nat.strong_induction_on generalizing event verdict with
  | _ i ih =>
      have here := log_position (limit window request) nothing events i _ found
      rw [Admitted]
      cases asked : request event with
      | none =>
          have value : verdict = _ := (log_at (limit window request) nothing events i _ found).1
          rw [limit_skipped window request _ event asked] at value
          refine iff_of_false (by simp [value]) ?_
          rintro ⟨itself, key, now, position, itsAsked, _⟩
          obtain rfl := Option.some.inj (here.symm.trans position)
          exact Option.some_ne_none _ (itsAsked.symm.trans asked)
      | some pair =>
          obtain ⟨key, now⟩ := pair
          rw [passes_iff window request positive events i event key now verdict found asked]
          constructor
          · intro alone
            refine ⟨event, key, now, here, asked, fun j before other earlier position itsAsked near admitted => alone ?_⟩
            obtain ⟨bound, _⟩ := List.getElem?_eq_some_iff.mp position
            obtain ⟨entry, _⟩ := log_next (limit window request) nothing events j bound
            obtain rfl : events[j] = other := Option.some.inj ((List.getElem?_eq_getElem bound).symm.trans position)
            exact ⟨_, List.mem_of_getElem? (by rw [List.getElem?_take_of_lt before]; exact entry), earlier,
              ⟨itsAsked, (ih j before _ _ entry).mpr admitted⟩, near⟩
          · rintro ⟨itself, itsKey, itsNow, position, itsAsked, alone⟩ ⟨record, member, earlier, passes, near⟩
            obtain rfl := Option.some.inj (here.symm.trans position)
            obtain ⟨rfl, rfl⟩ := Prod.mk.inj (Option.some.inj (asked.symm.trans itsAsked))
            obtain ⟨j, entry⟩ := List.mem_iff_getElem?.mp member
            rw [List.getElem?_take, Option.ite_none_right_eq_some] at entry
            obtain ⟨before, entry⟩ := entry
            exact alone j before record.1 earlier (log_position (limit window request) nothing events j _ entry) passes.asked near
              ((ih j before _ _ entry).mp passes.passed)

end Admitted

section Projection

variable [DecidableEq κ] [Sub τ] [LT τ] [DecidableLT τ] (window : τ) (request : ε → Option (κ × τ))

def asks (key : κ) (event : ε) : Bool := decide ((request event).map Prod.fst = some key)

theorem limit_other (cache : κ → Option τ) (key : κ) (event : ε) (other : asks request key event = false) :
    (limit window request cache event).1 key = cache key := by
  rw [limit]
  cases asked : request event with
  | none => rfl
  | some pair =>
      obtain ⟨itsKey, now⟩ := pair
      have different : key ≠ itsKey := by
        rintro rfl
        simp [asks, asked] at other
      dsimp only
      split
      · rfl
      · exact Function.update_of_ne different _ _

theorem limit_same (a b : κ → Option τ) (key : κ) (event : ε) (mine : asks request key event = true) (same : a key = b key) :
    (limit window request a event).2 = (limit window request b event).2 ∧
      (limit window request a event).1 key = (limit window request b event).1 key := by
  have asked : ∃ now, request event = some (key, now) := by
    cases found : request event with
    | none => simp [asks, found] at mine
    | some pair =>
        obtain ⟨itsKey, now⟩ := pair
        obtain rfl : itsKey = key := by simpa [asks, found] using mine
        exact ⟨now, rfl⟩
  obtain ⟨now, asked⟩ := asked
  have agree : recent window a key now = recent window b key now := by
    rw [recent, recent, same]
  cases fresh : recent window b key now with
  | true =>
      rw [limit_throttled window request b event key now asked fresh,
        limit_throttled window request a event key now asked (agree.trans fresh)]
      exact ⟨rfl, same⟩
  | false =>
      rw [limit_passed window request b event key now asked fresh,
        limit_passed window request a event key now asked (agree.trans fresh)]
      exact ⟨rfl, by simp only [Function.update_self]⟩

-- What happens to the requests with one key depends on those requests alone.
theorem log_project (key : κ) (events : List ε) (a b : κ → Option τ) (same : a key = b key) :
    (log (limit window request) a events).filter (fun record => asks request key record.1) =
      log (limit window request) b (events.filter (asks request key)) := by
  induction events generalizing a b with
  | nil => rfl
  | cons event rest ih =>
      cases mine : asks request key event with
      | true =>
          obtain ⟨verdict, next⟩ := limit_same window request a b key event mine same
          rw [List.filter_cons_of_pos mine, log, log, List.filter_cons_of_pos (by exact mine), ih _ _ next, verdict]
      | false =>
          have next := (limit_other window request a key event mine).trans same
          rw [List.filter_cons_of_neg (by simp [mine]), log, List.filter_cons_of_neg (by simp [mine]), ih _ _ next]

end Projection

section Passes

variable [DecidableEq κ] (request : ε → Option (κ × τ)) (key : κ)

def passedAt (record : ε × Verdict) : Option τ :=
  match record.2, request record.1 with
  | .passed, some (other, time) => if other = key then some time else none
  | _, _ => none

theorem passed_at_asked (event : ε) (other : κ) (time : τ) (asked : request event = some (other, time)) :
    passedAt request key (event, .passed) = if other = key then some time else none := by
  rw [passedAt, asked]

theorem passed_at_iff (record : ε × Verdict) (time : τ) : passedAt request key record = some time ↔ Passes request key time record := by
  obtain ⟨event, verdict⟩ := record
  cases verdict with
  | skipped => exact iff_of_false (Option.some_ne_none time).symm fun passes => Verdict.noConfusion passes.passed
  | throttled => exact iff_of_false (Option.some_ne_none time).symm fun passes => Verdict.noConfusion passes.passed
  | passed =>
      constructor
      · intro found
        cases asked : request event with
        | none =>
            rw [passedAt, asked] at found
            exact absurd found.symm (Option.some_ne_none time)
        | some pair =>
            obtain ⟨other, now⟩ := pair
            rw [passed_at_asked request key event other now asked, Option.ite_none_right_eq_some] at found
            obtain ⟨same, value⟩ := found
            rw [same, Option.some.inj value] at asked
            exact ⟨asked, rfl⟩
      · intro passes
        rw [passed_at_asked request key event key time passes.asked, if_pos rfl]

end Passes

section Contents

variable [DecidableEq κ] [Sub τ] [LT τ] [DecidableLT τ] (window : τ) (request : ε → Option (κ × τ)) (key : κ)

-- The cache holds the last time each key passed, of every key ever asked for.
theorem final_last (events : List ε) :
    final (limit window request) nothing events key =
      ((log (limit window request) nothing events).filterMap (passedAt request key)).getLast? := by
  induction events using List.reverseRecOn with
  | nil => rfl
  | append_singleton past event ih =>
      rw [final_snoc, log_snoc, List.filterMap_append]
      cases asked : request event with
      | none =>
          have silent : passedAt request key (event, .skipped) = none := rfl
          rw [limit_skipped window request _ event asked, List.filterMap_cons_none silent, List.filterMap_nil, List.append_nil]
          exact ih
      | some pair =>
          obtain ⟨other, now⟩ := pair
          cases fresh : recent window (final (limit window request) nothing past) other now with
          | true =>
              have silent : passedAt request key (event, .throttled) = none := rfl
              rw [limit_throttled window request _ event other now asked fresh, List.filterMap_cons_none silent, List.filterMap_nil,
                List.append_nil]
              exact ih
          | false =>
              have answer := passed_at_asked request key event other now asked
              rw [limit_passed window request _ event other now asked fresh]
              by_cases same : other = key
              · subst same
                rw [if_pos rfl] at answer
                rw [List.filterMap_cons_some answer, List.filterMap_nil, List.getLast?_concat]
                dsimp only
                rw [Function.update_self]
              · rw [if_neg same] at answer
                rw [List.filterMap_cons_none answer, List.filterMap_nil, List.append_nil, ← ih]
                dsimp only
                rw [Function.update_of_ne (Ne.symm same)]

theorem final_kept_iff (events : List ε) :
    (final (limit window request) nothing events key).isSome = true ↔ ∃ event ∈ events, asks request key event = true := by
  induction events using List.reverseRecOn with
  | nil => simp [nothing]
  | append_singleton past event ih =>
      have split : (∃ other ∈ past ++ [event], asks request key other = true) ↔
          (∃ other ∈ past, asks request key other = true) ∨ asks request key event = true := by
        simp [or_and_right, exists_or]
      rw [final_snoc, split, ← ih]
      cases mine : asks request key event with
      | false =>
          rw [limit_other window request _ key event mine]
          simp
      | true =>
          refine iff_of_true ?_ (Or.inr rfl)
          obtain ⟨now, asked⟩ : ∃ now, request event = some (key, now) := by simpa [asks] using mine
          cases fresh : recent window (final (limit window request) nothing past) key now with
          | true =>
              obtain ⟨last, kept, _⟩ := (recent_iff window _ key now).mp fresh
              rw [limit_throttled window request _ event key now asked fresh]
              exact Option.isSome_of_eq_some kept
          | false =>
              rw [limit_passed window request _ event key now asked fresh]
              simp

end Contents

section Rate

variable [DecidableEq κ] [AddCommGroup τ] [LinearOrder τ] [IsOrderedAddMonoid τ] (window : τ) (request : ε → Option (κ × τ)) (key : κ)

theorem passed_spaced (positive : 0 ≤ window) (events : List ε) :
    Spaced window ((log (limit window request) nothing events).filterMap (passedAt request key)) := by
  induction events using List.reverseRecOn with
  | nil => exact List.Pairwise.nil
  | append_singleton past event ih =>
      have remembers := log_remembers window request positive past
      rw [log_snoc, List.filterMap_append]
      cases passed : passedAt request key (event, (limit window request (final (limit window request) nothing past) event).2) with
      | none => simpa [passed] using ih
      | some now =>
          rw [List.filterMap_cons_some passed, List.filterMap_nil]
          refine spaced_snoc window _ now ih fun time member => ?_
          obtain ⟨record, inside, earlier⟩ := List.mem_filterMap.mp member
          obtain ⟨last, kept, later⟩ := remembers.newest record inside key time ((passed_at_iff request key record time).mp earlier)
          have passes := (passed_at_iff request key _ now).mp passed
          have stale : ¬ recent window (final (limit window request) nothing past) key now = true := by
            intro fresh
            have answer := congrArg Prod.snd (limit_throttled window request _ event key now passes.asked fresh)
            exact Verdict.noConfusion (answer.symm.trans passes.passed)
          have gap : window ≤ now - last := not_lt.mp fun near => stale ((recent_iff window _ key now).mpr ⟨last, kept, near⟩)
          calc time + window ≤ last + window := add_le_add_left later window
            _ ≤ last + (now - last) := add_le_add_right gap last
            _ = now := add_sub_cancel last now

end Rate

end BeaconMesh.Throttle
