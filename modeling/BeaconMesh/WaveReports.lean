import BeaconMesh.WaveDelivery

set_option autoImplicit false

namespace BeaconMesh.Arduino

open Sweep History LittleEndian

theorem aged_signature (hmac : Bytes → Bytes → Digest) (arrival : Scanner.Arrival) (emergency : Emergency) (hops : Nat)
    (data : arrival.data = rebroadcastData (aged (built hmac emergency) hops)) :
    valueOf (Scanner.signature arrival) = (sig hmac emergency).toNat := by
  have body : (rebroadcastData (aged (built hmac emergency) hops)).drop 2 = (aged (built hmac emergency) hops).toBytes :=
    List.drop_left' (by simp)
  obtain ⟨_, _, _, _, signature⟩ := (aged (built hmac emergency) hops).field_slices
  rw [Scanner.signature, data, body, signature]
  exact value_bytes_of_lt 8 _ (sig hmac emergency).isLt

-- The server shows an emergency as soon as one of its datagrams comes in: only
-- an earlier one of the same emergency can keep it back.
theorem arrival_reported {ι : Type} [DecidableEq ι] (runtime : Scanner.Runtime) (actions : List (Action ι)) (emergency : Emergency)
    (own : ∀ other, .sos other ∈ actions → sig runtime.hmac other = sig runtime.hmac emergency → other = emergency)
    (arrivals : List Scanner.Arrival) (fed : Fed (Network.run runtime.hmac actions) arrivals)
    (arrival : Scanner.Arrival) (member : arrival ∈ arrivals) (hops : Nat) (bound : hops ≤ 19)
    (data : arrival.data = rebroadcastData (aged (built runtime.hmac emergency) hops)) :
    ∃ (i : Nat) (shown : Scanner.Arrival) (outcome : Scanner.Outcome),
      (Scanner.serverLog runtime arrivals)[i]? = some (shown, outcome) ∧ ShowsTruly runtime shown outcome emergency := by
  obtain ⟨i, inside, here⟩ := List.mem_iff_getElem.mp member
  have entry : (Scanner.serverLog runtime arrivals)[i]? = some (arrival, (Scanner.datagramReceived runtime
      (final (Scanner.datagramReceived runtime) Throttle.nothing (arrivals.take i)) arrival).2) := by
    have split : arrivals = arrivals.take i ++ arrival :: arrivals.drop (i + 1) := by
      rw [← here, ← List.drop_eq_getElem_cons inside, List.take_append_drop]
    have logged := log_split (Scanner.datagramReceived runtime) Throttle.nothing (arrivals.take i) arrival (arrivals.drop (i + 1))
    rw [← split, List.length_take_of_le (Nat.le_of_lt inside)] at logged
    exact logged
  generalize (Scanner.datagramReceived runtime _ arrival).2 = outcome at entry
  cases passed : outcome.passedOn with
  | true => exact ⟨i, arrival, outcome, entry, passed_shows runtime arrivals i arrival outcome entry passed emergency hops bound data⟩
  | false =>
      have formed := (intact_arrival runtime.hmac arrival emergency hops bound data).1
      have hidden := Scanner.passed_on_iff runtime arrivals i arrival outcome entry formed
      have shadow := not_not.mp ((not_congr hidden).mp (ne_true_of_eq_false passed))
      obtain ⟨j, earlier, itsOutcome, _, logged, _, itsPassed, same, _⟩ := shadow
      obtain ⟨other, itsHops, sent, itsBound, itsData⟩ := fed_emergency runtime actions arrivals fed earlier
        (List.mem_of_getElem? (Scanner.logged_arrival runtime arrivals j earlier itsOutcome logged))
      have keys := aged_signature runtime.hmac earlier other itsHops itsData
      rw [same, aged_signature runtime.hmac arrival emergency hops data] at keys
      obtain rfl : other = emergency := own other sent (BitVec.eq_of_toNat_eq keys.symm)
      exact ⟨j, earlier, itsOutcome, logged, passed_shows runtime arrivals j earlier itsOutcome logged itsPassed other itsHops itsBound itsData⟩

-- From the button to the screen: an emergency that relays connect to a gateway
-- is printed in full, once the server has received what that gateway sent.
theorem wave_reported {ι : Type} [DecidableEq ι] [Fintype ι] (runtime : Scanner.Runtime) (wave : Wave ι) (reach : ι → ι → Prop)
    (small : (Finset.univ.filter fun i => wave.online i = false).card ≤ 19) (emergency : Emergency)
    (representable : emergency.timestamp.toNat * 60 ≤ runtime.lastSecond)
    (own : ∀ other ∈ wave.known, sig runtime.hmac other = sig runtime.hmac emergency → other = emergency)
    (actions : List (Action ι)) (run : SettledRun runtime.hmac wave reach actions) (first : ι)
    (sos : HeardSos runtime.hmac emergency actions first) (gateway : ι) (path : Relation.ReflTransGen (Link wave reach) first gateway)
    (online : wave.online gateway = true) (arrivals : List Scanner.Arrival) (fed : Fed (Network.run runtime.hmac actions) arrivals)
    (received : ∀ (d : Nat) (datagram : Copy), (Watched.run runtime.hmac actions).uploadedBy[d]? = some gateway →
      (Network.run runtime.hmac actions).datagrams[d]? = some datagram → ∃ arrival ∈ arrivals, arrival.data = datagram.frame) :
    ∃ (i : Nat) (arrival : Scanner.Arrival) (hops : Nat), hops ≤ 19 ∧
      (Scanner.serverLog runtime arrivals)[i]? = some (arrival, .reported (Scanner.fullReport runtime arrival.address (trueReport emergency hops)
        (runtime.strftime (emergency.timestamp.toNat * 60)))) := by
  have served := reached_served runtime.hmac wave emergency small own reach actions run first sos gateway path
  obtain ⟨d, datagram, hops, uploader, uploaded, good, _⟩ := uploaded_report runtime.hmac actions emergency gateway (served.gateway online)
  obtain ⟨arrival, inside, data⟩ := received d datagram uploader uploaded
  have known : ∀ other, .sos other ∈ actions → sig runtime.hmac other = sig runtime.hmac emergency → other = emergency :=
    fun other sent => own other (run.allowed (.sos other) sent)
  obtain ⟨i, shown, outcome, entry, itsHops, bound, value⟩ :=
    arrival_reported runtime actions emergency known arrivals fed arrival inside hops good.2.1 (data.trans good.2.2)
  have stamp : (trueReport emergency itsHops).timestamp = emergency.timestamp.toNat := rfl
  rw [Scanner.showReport, stamp, Scanner.fromTimestamp, if_pos representable] at value
  exact ⟨i, shown, itsHops, bound, by rw [entry, value]⟩

def pairArrivals : List Scanner.Arrival :=
  (List.range 3).map fun n => ⟨rebroadcastData (aged (built Scanner.echoRuntime.hmac (emergencyAt 10)) 1), "10.0.0.7", n / 200⟩

theorem pair_reported :
    ∃ (i : Nat) (arrival : Scanner.Arrival) (hops : Nat), hops ≤ 19 ∧
      (Scanner.serverLog Scanner.echoRuntime pairArrivals)[i]? = some (arrival, .reported (Scanner.fullReport Scanner.echoRuntime arrival.address
        (trueReport (emergencyAt 10) hops) (Scanner.echoRuntime.strftime ((emergencyAt 10).timestamp.toNat * 60)))) := by
  have frames : (Network.run Scanner.echoRuntime.hmac pairActions).datagrams.map Copy.frame = pairArrivals.map Scanner.Arrival.data := by
    decide +kernel
  refine wave_reported Scanner.echoRuntime pairWave (fun i j => i = false ∧ j = true) (by decide) (emergencyAt 10) (by decide +kernel)
    (fun other member _ => Finset.mem_singleton.mp member) pairActions pair_settled false pair_heard true (.single ⟨rfl, rfl, rfl⟩) rfl
    pairArrivals (fun arrival member => ?_) fun d datagram _ found => ?_
  · have inside : arrival.data ∈ (Network.run Scanner.echoRuntime.hmac pairActions).datagrams.map Copy.frame := by
      rw [frames]
      exact List.mem_map_of_mem member
    obtain ⟨datagram, sent, same⟩ := List.mem_map.mp inside
    exact ⟨datagram, sent, same.symm⟩
  · have inside : datagram.frame ∈ pairArrivals.map Scanner.Arrival.data := by
      rw [← frames]
      exact List.mem_map_of_mem (List.mem_of_getElem? found)
    exact List.mem_map.mp inside

end BeaconMesh.Arduino
