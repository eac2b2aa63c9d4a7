import BeaconMesh.ServerLoad
import BeaconMesh.VictimLoop

set_option autoImplicit false

namespace BeaconMesh.Arduino

open History LittleEndian

section Origins

variable {ι : Type} [DecidableEq ι] (hmac : Bytes → Bytes → Digest)

def OriginIn (known : Emergency → Prop) (lineage : Option Lineage) : Prop :=
  ∀ emergency hops, lineage = some (emergency, hops) → known emergency

-- Whatever is under way stems from these emergencies.
structure FromVictims (known : Emergency → Prop) (network : Network ι) : Prop where
  onAir : ∀ copy ∈ network.onAir, OriginIn known copy.lineage
  datagrams : ∀ copy ∈ network.datagrams, OriginIn known copy.lineage
  slots : ∀ i k, OriginIn known (network.carried i k)

theorem one_hop_origin (known : Emergency → Prop) (lineage : Option Lineage) (origin : OriginIn known lineage) :
    OriginIn known (oneMoreHop lineage) := by
  intro emergency hops same
  obtain ⟨earlier, carried, value⟩ := Option.map_eq_some_iff.mp same
  cases value
  exact origin _ _ carried

theorem recorded_origin (known : Emergency → Prop) (carried : ι → Slot → Option Lineage) (i : ι) (lineage : Option Lineage)
    (slot : Option Slot) (old : ∀ r k, OriginIn known (carried r k)) (new : OriginIn known lineage) :
    ∀ r k, OriginIn known (recordLineage carried i lineage slot r k) := by
  intro r k
  by_cases here : r = i ∧ slot = some k
  · rw [here.1, here.2, record_lineage_here]
    exact new
  · rw [record_lineage_elsewhere carried i r lineage slot k fun same stored => here ⟨same, stored⟩]
    exact old r k

theorem hear_origin (known : Emergency → Prop) (network : Network ι) (traced : FromVictims known network) (i : ι) (copy : Copy)
    (heard : OriginIn known copy.lineage) (address : Mac) (now : Millis) (wifi : Bool) (jitter : Millis) :
    FromVictims known (network.hear i copy address now wifi jitter) := by
  refine ⟨traced.onAir, fun datagram member => ?_, recorded_origin known _ i _ _ traced.slots heard⟩
  cases List.mem_append.mp member with
  | inl old => exact traced.datagrams datagram old
  | inr new =>
      obtain ⟨bytes, _, rfl⟩ := List.mem_map.mp new
      exact heard

theorem loop_origin (known : Emergency → Prop) (network : Network ι) (traced : FromVictims known network) (i : ι) (now : Millis) :
    FromVictims known (network.loop i now) := by
  refine ⟨fun copy member => ?_, traced.datagrams, traced.slots⟩
  simp only [Network.loop] at member
  cases burst : startedBurst (Arduino.loop (network.relay i) now).2 with
  | none =>
      rw [burst] at member
      exact traced.onAir copy member
  | some started =>
      rw [burst] at member
      cases List.mem_append.mp member with
      | inl old => exact traced.onAir copy old
      | inr new =>
          rw [List.mem_singleton.mp new]
          exact one_hop_origin known _ (traced.slots i started.1)

theorem step_origin (known : Emergency → Prop) (network : Network ι) (traced : FromVictims known network) (action : Action ι)
    (sent : ∀ emergency, action = .sos emergency → known emergency) : FromVictims known (network.step hmac action) := by
  cases action with
  | sos emergency =>
      refine ⟨fun copy member => ?_, traced.datagrams, traced.slots⟩
      cases List.mem_append.mp member with
      | inl old => exact traced.onAir copy old
      | inr new =>
          rw [List.mem_singleton.mp new]
          intro other hops same
          cases same
          exact sent emergency rfl
  | hear i copy address now wifi jitter =>
      cases found : network.onAir[copy]? with
      | none =>
          simp only [Network.step, found]
          exact traced
      | some heard =>
          simp only [Network.step, found]
          exact hear_origin known network traced i heard (traced.onAir heard (List.mem_of_getElem? found)) address now wifi jitter
  | loop i now => exact loop_origin known network traced i now

theorem run_origin (actions : List (Action ι)) : FromVictims (fun emergency => .sos emergency ∈ actions) (Network.run hmac actions) := by
  refine List.foldlRecOn actions (Network.step hmac) ?_ fun network traced action member =>
    step_origin hmac _ network traced action fun emergency same => same ▸ member
  exact ⟨fun copy member => absurd member List.not_mem_nil, fun copy member => absurd member List.not_mem_nil,
    fun i k emergency hops never => absurd never.symm (Option.some_ne_none _)⟩

end Origins

section Server

variable (hmac : Bytes → Bytes → Digest)

-- What a gateway sent is well formed for the server, which reads it as what
-- the victim meant.
theorem intact_arrival (arrival : Scanner.Arrival) (emergency : Emergency) (hops : Nat) (bound : hops ≤ 19)
    (data : arrival.data = rebroadcastData (aged (built hmac emergency) hops)) :
    Scanner.WellFormed arrival ∧ Scanner.decode hmac (arrival.data.drop 2) = trueReport emergency hops := by
  have intact := aged_intact hmac emergency hops bound
  have body : (rebroadcastData (aged (built hmac emergency) hops)).drop 2 = (aged (built hmac emergency) hops).toBytes :=
    List.drop_left' (by simp)
  rw [← data] at intact body
  refine ⟨⟨intact.length, intact.company⟩, ?_⟩
  rw [body]
  exact aged_report hmac emergency hops

end Server

-- The server hears what gateways sent, each datagram at any time, any number
-- of times or never.
def Fed {ι : Type} (network : Network ι) (arrivals : List Scanner.Arrival) : Prop :=
  ∀ arrival ∈ arrivals, ∃ datagram ∈ network.datagrams, arrival.data = datagram.frame

-- The outcome shows an emergency as its victim meant it.
def ShowsTruly (runtime : Scanner.Runtime) (arrival : Scanner.Arrival) (outcome : Scanner.Outcome) (emergency : Emergency) : Prop :=
  ∃ hops, hops ≤ 19 ∧ outcome = Scanner.showReport runtime arrival.address (trueReport emergency hops)

theorem passed_shows (runtime : Scanner.Runtime) (arrivals : List Scanner.Arrival) (i : Nat) (arrival : Scanner.Arrival)
    (outcome : Scanner.Outcome) (found : (Scanner.serverLog runtime arrivals)[i]? = some (arrival, outcome)) (passed : outcome.passedOn = true)
    (emergency : Emergency) (hops : Nat) (bound : hops ≤ 19)
    (data : arrival.data = rebroadcastData (aged (built runtime.hmac emergency) hops)) : ShowsTruly runtime arrival outcome emergency := by
  obtain ⟨itself, later, split, value⟩ := log_entry (Scanner.datagramReceived runtime) Throttle.nothing arrivals i _ found
  rw [Prod.mk.injEq] at value
  obtain ⟨rfl, rfl⟩ := value
  obtain ⟨formed, report⟩ := intact_arrival runtime.hmac arrival emergency hops bound data
  have shown := (Scanner.passed_outcome runtime _ arrival formed passed).2
  rw [report] at shown
  exact ⟨hops, bound, shown⟩

section Run

variable {ι : Type} [DecidableEq ι] (runtime : Scanner.Runtime) (actions : List (Action ι)) (arrivals : List Scanner.Arrival)
  (fed : Fed (Network.run runtime.hmac actions) arrivals)

include fed

theorem fed_emergency (arrival : Scanner.Arrival) (member : arrival ∈ arrivals) :
    ∃ emergency hops, .sos emergency ∈ actions ∧ hops ≤ 19 ∧
      arrival.data = rebroadcastData (aged (built runtime.hmac emergency) hops) := by
  obtain ⟨datagram, sent, data⟩ := fed arrival member
  obtain ⟨emergency, hops, lineage, bound, frame⟩ := (run_traced runtime.hmac actions).datagrams datagram sent
  have origin := (run_origin runtime.hmac actions).datagrams datagram sent emergency hops lineage
  exact ⟨emergency, hops, origin, bound, data.trans frame⟩

theorem fed_passed (i : Nat) (arrival : Scanner.Arrival) (outcome : Scanner.Outcome)
    (found : (Scanner.serverLog runtime arrivals)[i]? = some (arrival, outcome)) (passed : outcome.passedOn = true) :
    ∃ emergency, .sos emergency ∈ actions ∧ ShowsTruly runtime arrival outcome emergency := by
  obtain ⟨emergency, hops, origin, bound, data⟩ := fed_emergency runtime actions arrivals fed arrival
    (List.mem_of_getElem? (Scanner.logged_arrival runtime arrivals i arrival outcome found))
  exact ⟨emergency, origin, passed_shows runtime arrivals i arrival outcome found passed emergency hops bound data⟩

-- Each datagram is shown as the emergency it stems from, or less than 20 ms
-- earlier one with the same signature was.
theorem fed_outcome (i : Nat) (arrival : Scanner.Arrival) (outcome : Scanner.Outcome)
    (found : (Scanner.serverLog runtime arrivals)[i]? = some (arrival, outcome)) :
    (∃ emergency, .sos emergency ∈ actions ∧ ShowsTruly runtime arrival outcome emergency) ∨
      outcome = .throttled ∧ ∃ j earlier itsOutcome emergency, j < i ∧
        (Scanner.serverLog runtime arrivals)[j]? = some (earlier, itsOutcome) ∧ .sos emergency ∈ actions ∧
        ShowsTruly runtime earlier itsOutcome emergency ∧ Scanner.signature earlier = Scanner.signature arrival ∧
        arrival.time - earlier.time < Scanner.cacheTtl := by
  have position := List.mem_of_getElem? (Scanner.logged_arrival runtime arrivals i arrival outcome found)
  obtain ⟨emergency, hops, origin, bound, data⟩ := fed_emergency runtime actions arrivals fed arrival position
  have formed := (intact_arrival runtime.hmac arrival emergency hops bound data).1
  cases passed : outcome.passedOn with
  | true => exact Or.inl (fed_passed runtime actions arrivals fed i arrival outcome found passed)
  | false =>
      have hidden := Scanner.passed_on_iff runtime arrivals i arrival outcome found formed
      have shadow := not_not.mp ((not_congr hidden).mp (ne_true_of_eq_false passed))
      obtain ⟨j, earlier, itsOutcome, before, logged, _, itsPassed, same, near⟩ := shadow
      obtain ⟨other, sent, shows⟩ := fed_passed runtime actions arrivals fed j earlier itsOutcome logged itsPassed
      refine Or.inr ⟨?_, j, earlier, itsOutcome, other, before, logged, sent, shows, same, near⟩
      obtain ⟨itself, later, split, value⟩ := log_entry (Scanner.datagramReceived runtime) Throttle.nothing arrivals i _ found
      rw [Prod.mk.injEq] at value
      obtain ⟨rfl, rfl⟩ := value
      exact Scanner.formed_throttled runtime _ arrival formed passed

end Run

structure VictimRun where
  start : Nat
  iterations : List Readings
  ticking : Ticking start iterations
  unset : Unset iterations

section Victims

variable (hmac : Bytes → Bytes → Digest)

def VictimRun.log (victim : VictimRun) : List (Readings × Broadcast) := victimLog (sureHmac hmac) victim.start victim.iterations

theorem true_report_injective (one other : Emergency) (hops : Nat) (same : trueReport one hops = trueReport other hops) : one = other := by
  obtain ⟨phone, timestamp, location⟩ := one
  obtain ⟨itsPhone, itsTimestamp, itsLocation⟩ := other
  simp only [trueReport, Scanner.Report.mk.injEq] at same
  obtain ⟨phones, timestamps, _, _, payloads, _⟩ := same
  have first : phone = itsPhone := UInt32.toNat_inj.mp phones
  have second : timestamp = itsTimestamp := UInt32.toNat_inj.mp timestamps
  have third : location = itsLocation := by
    cases location with
    | gps latitude longitude =>
        cases itsLocation with
        | gps itsLatitude itsLongitude =>
            obtain ⟨latitudes, longitudes⟩ := Scanner.Payload.location.inj payloads
            rw [Int32.toInt_inj.mp latitudes, Int32.toInt_inj.mp longitudes]
        | nonce value => exact Scanner.Payload.noConfusion payloads
    | nonce value =>
        cases itsLocation with
        | gps itsLatitude itsLongitude => exact Scanner.Payload.noConfusion payloads
        | nonce itsValue => rw [UInt64.toNat_inj.mp (Scanner.Payload.nonce.inj payloads)]
  rw [first, second, third]

theorem built_frame_injective (one other : Emergency) (same : payloadData (built hmac one) = payloadData (built hmac other)) :
    one = other := by
  have first := (built_intact hmac one).forwarded
  rw [same, (built_intact hmac other).forwarded] at first
  exact (true_report_injective other one 0 (Option.some.inj first)).symm

-- The emergencies on air are those that the victims advertise.
def Advertised {ι : Type} (victims : List VictimRun) (actions : List (Action ι)) : Prop :=
  ∀ emergency, .sos emergency ∈ actions →
    ∃ victim ∈ victims, ∃ entry ∈ victim.log hmac, entry.2.onAir = payloadData (built hmac emergency)

theorem advertised_minute {ι : Type} (victims : List VictimRun) (actions : List (Action ι)) (advertised : Advertised hmac victims actions)
    (emergency : Emergency) (sent : .sos emergency ∈ actions) :
    ∃ victim ∈ victims, ∃ entry ∈ victim.log hmac, ∃ seconds, entry.1.tested / 60 ≤ seconds / 60 ∧ seconds ≤ entry.1.stamped ∧
      seconds / 60 < timeOffset.toNat ∧ emergency = emergencyAt seconds := by
  obtain ⟨victim, member, entry, logged, frame⟩ := advertised emergency sent
  obtain ⟨seconds, current, past, shown⟩ :=
    log_fresh hmac _ victim.start victim.iterations (setup_shows hmac victim.start) victim.ticking victim.unset entry logged
  have iteration : entry.1 ∈ victim.iterations := by
    rw [← log_events (victimLoop (sureHmac hmac)) (victimSetup (sureHmac hmac) victim.start) victim.iterations]
    exact List.mem_map_of_mem logged
  have bound := victim.unset entry.1 iteration
  exact ⟨victim, member, entry, logged, seconds, current, past, by omega,
    built_frame_injective hmac _ _ (frame.symm.trans shown)⟩

end Victims

-- All lines printed, for a minute in which one of the victims was on air.
def ReportsVictim (runtime : Scanner.Runtime) (victims : List VictimRun) (arrival : Scanner.Arrival) (outcome : Scanner.Outcome) : Prop :=
  ∃ victim ∈ victims, ∃ entry ∈ victim.log runtime.hmac, ∃ seconds hops, entry.1.tested / 60 ≤ seconds / 60 ∧ seconds ≤ entry.1.stamped ∧
    hops ≤ 19 ∧ outcome = .reported (Scanner.fullReport runtime arrival.address (trueReport (emergencyAt seconds) hops)
      (runtime.strftime ((29714400 + seconds / 60) * 60)))

theorem shown_victim (runtime : Scanner.Runtime) (late : 3565728000 ≤ runtime.lastSecond) {ι : Type} (victims : List VictimRun)
    (actions : List (Action ι)) (advertised : Advertised runtime.hmac victims actions) (arrival : Scanner.Arrival)
    (outcome : Scanner.Outcome) (emergency : Emergency) (sent : .sos emergency ∈ actions)
    (shows : ShowsTruly runtime arrival outcome emergency) : ReportsVictim runtime victims arrival outcome := by
  obtain ⟨victim, member, entry, logged, seconds, current, past, unset, rfl⟩ :=
    advertised_minute runtime.hmac victims actions advertised emergency sent
  obtain ⟨hops, bound, shown⟩ := shows
  have minute : (trueReport (emergencyAt seconds) hops).timestamp = 29714400 + seconds / 60 := stamp_value seconds unset
  have offset : timeOffset.toNat = 29714400 := by decide
  have early : (29714400 + seconds / 60) * 60 ≤ runtime.lastSecond := by omega
  refine ⟨victim, member, entry, logged, seconds, hops, current, past, bound, ?_⟩
  rw [shown, Scanner.showReport, minute, Scanner.fromTimestamp, if_pos early]

-- From the victims through any network of relays to the server: every
-- datagram is reported in full and truly, unless less than 20 ms earlier one
-- with its signature was; nothing is ever raised, ignored or made up.
theorem victims_reported {ι : Type} [DecidableEq ι] (runtime : Scanner.Runtime) (late : 3565728000 ≤ runtime.lastSecond)
    (victims : List VictimRun) (actions : List (Action ι)) (advertised : Advertised runtime.hmac victims actions)
    (arrivals : List Scanner.Arrival) (fed : Fed (Network.run runtime.hmac actions) arrivals)
    (i : Nat) (arrival : Scanner.Arrival) (outcome : Scanner.Outcome)
    (found : (Scanner.serverLog runtime arrivals)[i]? = some (arrival, outcome)) :
    ReportsVictim runtime victims arrival outcome ∨
      outcome = .throttled ∧ ∃ j earlier itsOutcome, j < i ∧ (Scanner.serverLog runtime arrivals)[j]? = some (earlier, itsOutcome) ∧
        ReportsVictim runtime victims earlier itsOutcome ∧ Scanner.signature earlier = Scanner.signature arrival ∧
        arrival.time - earlier.time < Scanner.cacheTtl := by
  cases fed_outcome runtime actions arrivals fed i arrival outcome found with
  | inl shown =>
      obtain ⟨emergency, sent, shows⟩ := shown
      exact Or.inl (shown_victim runtime late victims actions advertised arrival outcome emergency sent shows)
  | inr hidden =>
      obtain ⟨throttled, j, earlier, itsOutcome, emergency, before, logged, sent, shows, same, near⟩ := hidden
      have reports := shown_victim runtime late victims actions advertised earlier itsOutcome emergency sent shows
      exact Or.inr ⟨throttled, j, earlier, itsOutcome, before, logged, reports, same, near⟩

def sampleVictim : VictimRun := ⟨5, sampleIterations, sample_ticking, sample_unset⟩

theorem sample_advertised (actions : List (Action Unit)) (only : ∀ emergency, .sos emergency ∈ actions → emergency = emergencyAt 10) :
    Advertised Scanner.echoRuntime.hmac [sampleVictim] actions := by
  intro emergency sent
  obtain rfl := only emergency sent
  refine ⟨sampleVictim, List.mem_singleton.mpr rfl, (sampleVictim.log Scanner.echoRuntime.hmac)[0], List.getElem_mem _, ?_⟩
  decide +kernel

def sampleActions : List (Action Unit) := [.sos (emergencyAt 10), .hear () 0 0xA1B2C3D4E5F6 100 true 50]

def sampleDatagram : Bytes := rebroadcastData (built Scanner.echoRuntime.hmac (emergencyAt 10))

def sampleDatagrams : List Scanner.Arrival := [⟨sampleDatagram, "10.0.0.7", 0⟩, ⟨sampleDatagram, "10.0.0.7", 1 / 1000⟩]

theorem sample_reported :
    ReportsVictim Scanner.echoRuntime [sampleVictim] ⟨sampleDatagram, "10.0.0.7", 1 / 1000⟩ .throttled ∨
      Scanner.Outcome.throttled = .throttled ∧ ∃ j earlier itsOutcome, j < 1 ∧
        (Scanner.serverLog Scanner.echoRuntime sampleDatagrams)[j]? = some (earlier, itsOutcome) ∧
        ReportsVictim Scanner.echoRuntime [sampleVictim] earlier itsOutcome ∧
        Scanner.signature earlier = Scanner.signature ⟨sampleDatagram, "10.0.0.7", 1 / 1000⟩ ∧
        (1 / 1000 : ℚ) - earlier.time < Scanner.cacheTtl := by
  refine victims_reported Scanner.echoRuntime (by decide +kernel) [sampleVictim] sampleActions ?_ sampleDatagrams ?_ 1 _ _
    (by decide +kernel)
  · exact sample_advertised sampleActions fun emergency sent => by simpa [sampleActions] using sent
  · have sent : ∀ arrival ∈ sampleDatagrams, (Network.run Scanner.echoRuntime.hmac sampleActions).datagrams.any
        (fun datagram => arrival.data == datagram.frame) = true := by
      decide +kernel
    intro arrival member
    obtain ⟨datagram, inside, same⟩ := List.any_eq_true.mp (sent arrival member)
    exact ⟨datagram, inside, eq_of_beq same⟩

end BeaconMesh.Arduino
