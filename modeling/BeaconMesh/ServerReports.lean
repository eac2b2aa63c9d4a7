import BeaconMesh.UdpServer

set_option autoImplicit false

namespace BeaconMesh.Scanner

open History LittleEndian Throttle

def carries (sig : Bytes) (arrival : Arrival) : Bool := decide (WellFormed arrival ∧ signature arrival = sig)

theorem carries_asks (sig : Bytes) (arrival : Arrival) : carries sig arrival = asks request sig arrival := by
  by_cases formed : WellFormed arrival
  · simp [carries, asks, request, formed]
  · simp [carries, asks, request, formed]

theorem server_project (runtime : Runtime) (sig : Bytes) (arrivals : List Arrival) :
    (serverLog runtime arrivals).filter (fun entry => carries sig entry.1) =
      serverLog runtime (arrivals.filter (carries sig)) := by
  have asked : carries sig = asks request sig := funext (carries_asks sig)
  have projected := log_project cacheTtl request sig arrivals nothing nothing rfl
  rw [(server_log runtime arrivals).1, (server_log runtime (arrivals.filter (carries sig))).1, List.filter_map, asked, ← projected]
  rfl

-- The filter asks for the signature alone: whatever passed it in the last
-- 20 ms hides a datagram with the same one, and nothing else does.
theorem server_filter (runtime : Runtime) (arrivals : List Arrival) :
    (∀ i arrival outcome, (serverLog runtime arrivals)[i]? = some (arrival, outcome) → WellFormed arrival →
      (outcome.passedOn = true ↔ ¬ Shadowed (serverLog runtime arrivals) i arrival)) ∧
    ∀ sig others, others.filter (carries sig) = arrivals.filter (carries sig) →
      (serverLog runtime others).filter (fun entry => carries sig entry.1) =
        (serverLog runtime arrivals).filter (fun entry => carries sig entry.1) := by
  constructor
  · intro i arrival outcome found formed
    exact passed_on_iff runtime arrivals i arrival outcome found formed
  · intro sig others same
    rw [server_project, server_project, same]

def echoRuntime : Runtime :=
  { hmac := fun _ bytes => Vector.replicate 32 (bytes.getD 0 0)
    lastSecond := 253402300799
    strftime := toString
    degrees := toString }

def sampleArrival (first : UInt8) (timestamp : Bytes) (time : ℚ) : Arrival :=
  ⟨[0xFF, 0xFF, first, 0, 0, 0] ++ timestamp ++ List.replicate 17 0, "10.0.0.7", time⟩

def forgedArrivals : List Arrival := [sampleArrival 1 [0, 0, 0, 0] 0, sampleArrival 0 [0, 0, 0, 0] (1 / 100)]

def Authentic (runtime : Runtime) (arrival : Arrival) : Prop := verifyHmac runtime.hmac (arrival.data.drop 2) = true

-- The forged frame repeats the signature of the genuine one, which follows
-- ten milliseconds later and is taken for a duplicate.
theorem forged_frame_hides :
    ¬ ∀ (runtime : Runtime) (arrivals : List Arrival), InTime arrivals → ∀ (i : Nat) (arrival : Arrival) (outcome : Outcome),
      (serverLog runtime arrivals)[i]? = some (arrival, outcome) → WellFormed arrival → Authentic runtime arrival →
      outcome.passedOn = true ∨ ∃ (j : Nat) (earlier : Arrival) (itsOutcome : Outcome), j < i ∧
        (serverLog runtime arrivals)[j]? = some (earlier, itsOutcome) ∧ WellFormed earlier ∧
          Authentic runtime earlier ∧ itsOutcome.passedOn = true ∧ signature earlier = signature arrival ∧
          arrival.time - earlier.time < cacheTtl := by
  intro claimed
  have hidden : (serverLog echoRuntime forgedArrivals)[1]? = some (sampleArrival 0 [0, 0, 0, 0] (1 / 100), .throttled) := by
    decide +kernel
  cases claimed echoRuntime forgedArrivals (by decide +kernel) 1 _ _ hidden (by decide +kernel) (by unfold Authentic; decide +kernel) with
  | inl passed => exact absurd passed Bool.false_ne_true
  | inr shadow =>
      obtain ⟨j, earlier, outcome, before, found, _, authentic, _⟩ := shadow
      obtain rfl : j = 0 := Nat.lt_one_iff.mp before
      have first : (serverLog echoRuntime forgedArrivals)[0]?.map Prod.fst = some (sampleArrival 1 [0, 0, 0, 0] 0) := by
        decide +kernel
      rw [found] at first
      obtain rfl : earlier = sampleArrival 1 [0, 0, 0, 0] 0 := Option.some.inj first
      have forged : verifyHmac echoRuntime.hmac ((sampleArrival 1 [0, 0, 0, 0] 0).data.drop 2) = false := by decide +kernel
      exact Bool.false_ne_true (forged.symm.trans authentic)

def FullyReported (runtime : Runtime) (arrival : Arrival) (outcome : Outcome) : Prop :=
  ∃ date, outcome = .reported (fullReport runtime arrival.address (decode runtime.hmac (arrival.data.drop 2)) date)

structure NeverSwallows (runtime : Runtime) (arrivals : List Arrival) : Prop where
  reported : ∀ (i : Nat) (arrival : Arrival) (outcome : Outcome), (serverLog runtime arrivals)[i]? = some (arrival, outcome) → WellFormed arrival →
    FullyReported runtime arrival outcome ∨
      ∃ (j : Nat) (earlier : Arrival) (itsOutcome : Outcome), j < i ∧
        (serverLog runtime arrivals)[j]? = some (earlier, itsOutcome) ∧ WellFormed earlier ∧ FullyReported runtime earlier itsOutcome ∧
        signature earlier = signature arrival ∧ arrival.time - earlier.time < cacheTtl
  spaced : ∀ (i j : Nat) (arrival earlier : Arrival) (outcome itsOutcome : Outcome), j < i → (serverLog runtime arrivals)[i]? = some (arrival, outcome) →
    (serverLog runtime arrivals)[j]? = some (earlier, itsOutcome) → WellFormed arrival → WellFormed earlier →
    FullyReported runtime arrival outcome → FullyReported runtime earlier itsOutcome →
    signature earlier = signature arrival → cacheTtl ≤ arrival.time - earlier.time

-- Each first copy carries an instant that datetime can show: each well-formed
-- datagram with no such first copy of its signature less than 20 ms before.
def ShowableTimes (runtime : Runtime) (arrivals : List Arrival) : Prop :=
  ∀ i arrival, arrivals[i]? = some arrival → Admitted cacheTtl request arrivals i →
    valueOf ((arrival.data.drop 6).take 4) * 60 ≤ runtime.lastSecond

theorem reported_passed_on (runtime : Runtime) (arrival : Arrival) (outcome : Outcome)
    (full : FullyReported runtime arrival outcome) : outcome.passedOn = true := by
  obtain ⟨date, rfl⟩ := full
  rfl

theorem decoded_timestamp (hmac : Bytes → Bytes → Vector UInt8 32) (data : Bytes) :
    (decode hmac (data.drop 2)).timestamp = valueOf ((data.drop 6).take 4) := by
  simp [decode]

theorem passed_outcome (runtime : Runtime) (cache : SignatureCache) (arrival : Arrival) (formed : WellFormed arrival)
    (passed : (datagramReceived runtime cache arrival).2.passedOn = true) :
    recent cacheTtl cache (signature arrival) arrival.time = false ∧
      (datagramReceived runtime cache arrival).2 =
        showReport runtime arrival.address (decode runtime.hmac (arrival.data.drop 2)) := by
  have asked := (request_iff arrival (signature arrival) arrival.time).mpr ⟨formed, rfl, rfl⟩
  rw [received_limit] at passed ⊢
  cases fresh : recent cacheTtl cache (signature arrival) arrival.time with
  | true =>
      rw [limit_throttled cacheTtl request cache arrival _ _ asked fresh] at passed
      exact absurd passed Bool.false_ne_true
  | false =>
      rw [limit_passed cacheTtl request cache arrival _ _ asked fresh]
      exact ⟨rfl, rfl⟩

theorem shown_iff (runtime : Runtime) (arrival : Arrival) :
    FullyReported runtime arrival (showReport runtime arrival.address (decode runtime.hmac (arrival.data.drop 2))) ↔
      valueOf ((arrival.data.drop 6).take 4) * 60 ≤ runtime.lastSecond := by
  rw [← decoded_timestamp runtime.hmac]
  by_cases early : (decode runtime.hmac (arrival.data.drop 2)).timestamp * 60 ≤ runtime.lastSecond
  · refine iff_of_true ⟨runtime.strftime ((decode runtime.hmac (arrival.data.drop 2)).timestamp * 60), ?_⟩ early
    simp only [showReport, fromTimestamp, if_pos early]
  · refine iff_of_false ?_ early
    rintro ⟨date, same⟩
    simp [showReport, fromTimestamp, if_neg early] at same

theorem reports_spaced (runtime : Runtime) (arrivals : List Arrival) (i j : Nat) (arrival earlier : Arrival) (outcome itsOutcome : Outcome) (before : j < i)
    (found : (serverLog runtime arrivals)[i]? = some (arrival, outcome))
    (foundEarlier : (serverLog runtime arrivals)[j]? = some (earlier, itsOutcome)) (formed : WellFormed arrival)
    (itsForm : WellFormed earlier) (passed : outcome.passedOn = true) (itsPassed : itsOutcome.passedOn = true)
    (same : signature earlier = signature arrival) : cacheTtl ≤ arrival.time - earlier.time := by
  have alone := (passed_on_iff runtime arrivals i arrival outcome found formed).mp passed
  by_contra near
  exact alone ⟨j, earlier, itsOutcome, before, foundEarlier, itsForm, itsPassed, same, not_le.mp near⟩

theorem showable_reported (runtime : Runtime) (arrivals : List Arrival) (showable : ShowableTimes runtime arrivals) (i : Nat)
    (arrival : Arrival) (outcome : Outcome) (found : (serverLog runtime arrivals)[i]? = some (arrival, outcome))
    (formed : WellFormed arrival) (passed : outcome.passedOn = true) : FullyReported runtime arrival outcome := by
  have admitted := (passed_on_admitted runtime arrivals i arrival outcome found).mp passed
  have position := log_position (datagramReceived runtime) nothing arrivals i _ found
  have value : outcome = (datagramReceived runtime _ arrival).2 := (log_at (datagramReceived runtime) nothing arrivals i _ found).1
  rw [value] at passed ⊢
  rw [(passed_outcome runtime _ arrival formed passed).2, shown_iff]
  exact showable i arrival position admitted

-- Frames are swallowed exactly when a first copy names a minute after the year
-- 9999: the cache was written before the exception.
theorem server_never_swallows (runtime : Runtime) (arrivals : List Arrival) :
    NeverSwallows runtime arrivals ↔ ShowableTimes runtime arrivals := by
  constructor
  · intro complete i arrival position admitted
    have formed := admitted_formed arrivals i arrival position admitted
    obtain ⟨bound, rfl⟩ := List.getElem?_eq_some_iff.mp position
    obtain ⟨found, _⟩ := log_next (datagramReceived runtime) nothing arrivals i bound
    have passed := (passed_on_admitted runtime arrivals i _ _ found).mpr admitted
    have alone := (passed_on_iff runtime arrivals i _ _ found formed).mp passed
    cases complete.reported i _ _ found formed with
    | inl full =>
        rw [(passed_outcome runtime _ _ formed passed).2] at full
        exact (shown_iff runtime _).mp full
    | inr shadow =>
        obtain ⟨j, earlier, outcome, before, position, itsForm, full, same, near⟩ := shadow
        exact absurd ⟨j, earlier, outcome, before, position, itsForm, reported_passed_on runtime earlier outcome full, same, near⟩ alone
  · intro showable
    constructor
    · intro i arrival outcome found formed
      by_cases passed : outcome.passedOn = true
      · exact Or.inl (showable_reported runtime arrivals showable i arrival outcome found formed passed)
      · have shadow := not_not.mp ((not_congr (passed_on_iff runtime arrivals i arrival outcome found formed)).mp passed)
        obtain ⟨j, earlier, itsOutcome, before, position, itsForm, itsPassed, same, near⟩ := shadow
        have full := showable_reported runtime arrivals showable j earlier itsOutcome position itsForm itsPassed
        exact Or.inr ⟨j, earlier, itsOutcome, before, position, itsForm, full, same, near⟩
    · intro i j arrival earlier outcome itsOutcome before found foundEarlier formed itsForm full itsFull same
      exact reports_spaced runtime arrivals i j arrival earlier outcome itsOutcome before found foundEarlier formed itsForm
        (reported_passed_on runtime _ _ full) (reported_passed_on runtime _ _ itsFull) same

-- Minute 2^32 - 1 lies in the year 10136.
def farFuture : List Arrival := [sampleArrival 0 [0xFF, 0xFF, 0xFF, 0xFF] 0]

theorem far_future_swallowed :
    ¬ ∀ (runtime : Runtime) (arrivals : List Arrival), runtime.lastSecond = 253402300799 → InTime arrivals →
      NeverSwallows runtime arrivals := by
  intro claimed
  have complete := claimed echoRuntime farFuture rfl (by decide +kernel)
  let arrival := sampleArrival 0 [0xFF, 0xFF, 0xFF, 0xFF] 0
  have formed : WellFormed arrival := by decide +kernel
  have passed : (datagramReceived echoRuntime nothing arrival).2.passedOn = true := by decide +kernel
  have late : ¬ valueOf ((arrival.data.drop 6).take 4) * 60 ≤ echoRuntime.lastSecond := by decide +kernel
  cases complete.reported 0 arrival (datagramReceived echoRuntime nothing arrival).2 rfl formed with
  | inl full =>
      rw [(passed_outcome echoRuntime nothing arrival formed passed).2, shown_iff] at full
      exact late full
  | inr shadow =>
      obtain ⟨j, _, _, before, _⟩ := shadow
      exact Nat.not_lt_zero j before

end BeaconMesh.Scanner
