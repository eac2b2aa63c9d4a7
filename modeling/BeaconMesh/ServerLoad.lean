import BeaconMesh.ServerReports

set_option autoImplicit false

namespace BeaconMesh.Scanner

open History Spacing Throttle

section Cache

variable (runtime : Runtime) (sig : Bytes)

-- When datagrams with a signature were passed on to decoding.
def passedOnTimes (history : List (Arrival × Outcome)) : List ℚ :=
  (history.filter fun entry => carries sig entry.1 && entry.2.passedOn).map fun entry => entry.1.time

theorem shown_passes (arrival : Arrival) (verdict : Verdict) :
    (if carries sig arrival && (outcomeOf runtime arrival verdict).passedOn then some arrival.time else none) =
      passedAt request sig (arrival, verdict) := by
  refine Option.ext fun time => ?_
  rw [passed_at_iff, Option.ite_none_right_eq_some, Bool.and_eq_true, outcome_passed_on, carries, decide_eq_true_eq, Option.some.injEq]
  constructor
  · intro shown
    obtain ⟨⟨⟨formed, same⟩, passed⟩, now⟩ := shown
    exact ⟨(request_iff arrival sig time).mpr ⟨formed, same, now⟩, passed⟩
  · intro passes
    obtain ⟨formed, same, now⟩ := (request_iff arrival sig time).mp passes.asked
    exact ⟨⟨⟨formed, same⟩, passes.passed⟩, now⟩

theorem passed_on_times (arrivals : List Arrival) :
    passedOnTimes sig (serverLog runtime arrivals) =
      (log (limit cacheTtl request) nothing arrivals).filterMap (passedAt request sig) := by
  rw [(server_log runtime arrivals).1, passedOnTimes]
  generalize log (limit cacheTtl request) nothing arrivals = records
  induction records with
  | nil => rfl
  | cons record rest ih =>
      have here := shown_passes runtime sig record.1 record.2
      rw [List.filterMap_cons, ← here, List.map_cons, List.filter_cons]
      cases chosen : carries sig record.1 && (outcomeOf runtime record.1 record.2).passedOn with
      | true => simpa using ih
      | false => simpa using ih

-- Whatever arrives, the cache of the server holds one entry for each
-- signature ever seen in a well-formed datagram, and never drops one: the
-- time at which the signature was last passed on.
theorem server_cache_exact (arrivals : List Arrival) :
    serverState runtime arrivals sig = (passedOnTimes sig (serverLog runtime arrivals)).getLast? ∧
      ((serverState runtime arrivals sig).isSome = true ↔ ∃ arrival ∈ arrivals, WellFormed arrival ∧ signature arrival = sig) := by
  rw [passed_on_times, (server_log runtime arrivals).2]
  refine ⟨final_last cacheTtl request sig arrivals, ?_⟩
  rw [final_kept_iff]
  simp only [← carries_asks, carries, decide_eq_true_eq]

-- A signature that is passed on n + 1 times in a window needs n times 20 ms.
theorem server_rate_bounded (arrivals : List Arrival) (lo hi : ℚ) (n : Nat)
    (count : ((passedOnTimes sig (serverLog runtime arrivals)).filter fun time => decide (lo ≤ time ∧ time ≤ hi)).length = n + 1) :
    lo + n / 50 ≤ hi := by
  have spaced := passed_spaced cacheTtl request sig cache_ttl_nonneg arrivals
  rw [← passed_on_times runtime sig arrivals] at spaced
  have span := window_span cacheTtl lo hi _ spaced n count
  calc lo + n / 50 = lo + n • cacheTtl := by rw [nsmul_eq_mul, cacheTtl, mul_one_div]
    _ ≤ hi := span

theorem sample_rate_bounded : (0 : ℚ) + (1 : Nat) / 50 ≤ 1 / 50 :=
  server_rate_bounded echoRuntime (List.replicate 8 0)
    [sampleArrival 0 [0, 0, 0, 0] 0, sampleArrival 0 [0, 0, 0, 0] (1 / 100), sampleArrival 0 [0, 0, 0, 0] (1 / 50)] 0 (1 / 50) 1 (by decide +kernel)

end Cache

theorem formed_throttled (runtime : Runtime) (cache : SignatureCache) (arrival : Arrival) (formed : WellFormed arrival)
    (hidden : (datagramReceived runtime cache arrival).2.passedOn = false) : (datagramReceived runtime cache arrival).2 = .throttled := by
  have asked := (request_iff arrival (signature arrival) arrival.time).mpr ⟨formed, rfl, rfl⟩
  rw [received_limit] at hidden ⊢
  cases fresh : recent cacheTtl cache (signature arrival) arrival.time with
  | true =>
      rw [limit_throttled cacheTtl request cache arrival _ _ asked fresh]
      rfl
  | false =>
      rw [limit_passed cacheTtl request cache arrival _ _ asked fresh] at hidden
      exact absurd ((outcome_passed_on runtime arrival .passed).mpr rfl) (by rw [hidden]; exact Bool.false_ne_true)

section Bursts

-- Copies of one datagram, less than 20 ms apart.
def Together (earlier later : Arrival) : Prop :=
  WellFormed earlier ∧ WellFormed later ∧ signature earlier = signature later ∧ later.time - earlier.time < cacheTtl

instance (earlier later : Arrival) : Decidable (Together earlier later) := inferInstanceAs (Decidable (_ ∧ _))

-- Copies come in bursts: whatever is close to a copy is close to all of its
-- burst.
def InBursts (arrivals : List Arrival) : Prop :=
  ∀ i j k : Fin arrivals.length, i < j → j < k → Together arrivals[i] arrivals[j] → Together arrivals[j] arrivals[k] →
    Together arrivals[i] arrivals[k]

instance (arrivals : List Arrival) : Decidable (InBursts arrivals) :=
  inferInstanceAs (Decidable (∀ i j k : Fin arrivals.length, i < j → j < k → Together arrivals[i] arrivals[j] →
    Together arrivals[j] arrivals[k] → Together arrivals[i] arrivals[k]))

variable (runtime : Runtime) (arrivals : List Arrival)

theorem logged_arrival (i : Nat) (arrival : Arrival) (outcome : Outcome)
    (found : (serverLog runtime arrivals)[i]? = some (arrival, outcome)) : arrivals[i]? = some arrival :=
  log_position (datagramReceived runtime) nothing arrivals i _ found

theorem arrival_logged (i : Nat) (arrival : Arrival) (found : arrivals[i]? = some arrival) :
    ∃ outcome, (serverLog runtime arrivals)[i]? = some (arrival, outcome) := by
  rw [← log_events (datagramReceived runtime) nothing arrivals, List.getElem?_map] at found
  obtain ⟨⟨itself, outcome⟩, entry, same⟩ := Option.map_eq_some_iff.mp found
  exact ⟨outcome, same ▸ entry⟩

theorem bursts_join (bursts : InBursts arrivals) (i j k : Nat) (a b c : Arrival) (before : i < j) (after : j < k)
    (first : arrivals[i]? = some a) (second : arrivals[j]? = some b) (third : arrivals[k]? = some c)
    (near : Together a b) (next : Together b c) : Together a c := by
  obtain ⟨inFirst, rfl⟩ := List.getElem?_eq_some_iff.mp first
  obtain ⟨inSecond, rfl⟩ := List.getElem?_eq_some_iff.mp second
  obtain ⟨inThird, rfl⟩ := List.getElem?_eq_some_iff.mp third
  exact bursts ⟨i, inFirst⟩ ⟨j, inSecond⟩ ⟨k, inThird⟩ before after near next

theorem first_copy_passes (i : Nat) (arrival : Arrival) (outcome : Outcome)
    (found : (serverLog runtime arrivals)[i]? = some (arrival, outcome)) (formed : WellFormed arrival)
    (first : ∀ j earlier, j < i → arrivals[j]? = some earlier → ¬ Together earlier arrival) : outcome.passedOn = true := by
  rw [passed_on_iff runtime arrivals i arrival outcome found formed]
  intro shadow
  obtain ⟨j, earlier, itsOutcome, before, position, itsForm, _, same, near⟩ := shadow
  exact first j earlier before (logged_arrival runtime arrivals j earlier itsOutcome position) ⟨itsForm, formed, same, near⟩

-- The three datagrams of a gateway lead to one report: of every burst the
-- server passes on the first copy and no other.
theorem bursts_pass_once (bursts : InBursts arrivals) (i : Nat) (arrival : Arrival) (outcome : Outcome)
    (found : (serverLog runtime arrivals)[i]? = some (arrival, outcome)) (formed : WellFormed arrival) :
    outcome.passedOn = true ↔ ∀ j earlier, j < i → arrivals[j]? = some earlier → ¬ Together earlier arrival := by
  constructor
  · intro passed j earlier before position near
    let close : Nat → Prop := fun k => ∃ copy, k < i ∧ arrivals[k]? = some copy ∧ Together copy arrival
    have some : ∃ k, close k := ⟨j, earlier, before, position, near⟩
    classical
    obtain ⟨copy, inside, here, joined⟩ := Nat.find_spec some
    obtain ⟨itsOutcome, logged⟩ := arrival_logged runtime arrivals (Nat.find some) copy here
    have leads := first_copy_passes runtime arrivals (Nat.find some) copy itsOutcome logged joined.1
      fun k other earlier there together => Nat.find_min some earlier
        ⟨other, earlier.trans inside, there,
          bursts_join arrivals bursts k (Nat.find some) i other copy arrival earlier inside there here
            (logged_arrival runtime arrivals i arrival outcome found) together joined⟩
    have alone := (passed_on_iff runtime arrivals i arrival outcome found formed).mp passed
    exact alone ⟨Nat.find some, copy, itsOutcome, inside, logged, joined.1, leads, joined.2.2.1, joined.2.2.2⟩
  · intro first
    exact first_copy_passes runtime arrivals i arrival outcome found formed first

end Bursts

def twoBursts : List Arrival :=
  [0, 1 / 1000, 1 / 500, 1 / 10, 101 / 1000, 51 / 500].map fun time => sampleArrival 1 [0, 0, 0, 0] time

theorem two_bursts_pass_once :
    (datagramReceived echoRuntime (serverState echoRuntime (twoBursts.take 4)) (sampleArrival 1 [0, 0, 0, 0] (101 / 1000))).2.passedOn = true ↔
      ∀ j earlier, j < 4 → twoBursts[j]? = some earlier → ¬ Together earlier (sampleArrival 1 [0, 0, 0, 0] (101 / 1000)) :=
  bursts_pass_once echoRuntime twoBursts (by decide +kernel) 4 _ _ (by decide +kernel) (by decide +kernel)

end BeaconMesh.Scanner
