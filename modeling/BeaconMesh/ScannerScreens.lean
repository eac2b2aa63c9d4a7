import BeaconMesh.EmergencyReports

set_option autoImplicit false

namespace BeaconMesh.Scanner

open History LittleEndian

def colorRelay : String := "\x1b[94m"

def colorVictim : String := "\x1b[95m"

def macVictim : String := "E8:DB:84:2E:D4:16"

def macRelay : String := "88:13:BF:6F:98:7E"

-- What bleak hands to the callback: device.address and, of advertising_data,
-- the dictionary manufacturer_data and rssi.
structure Detection where
  address : String
  manufacturerData : List (Nat × Bytes)
  rssi : Int
deriving DecidableEq

def macColor (address : String) : String :=
  if address = macRelay then colorRelay else if address = macVictim then colorVictim else ""

def detectionHead (detection : Detection) (report : Report) : List String :=
  ["[" ++ macColor detection.address ++ detection.address ++ colorReset ++ "] PACHET SOS DETECTAT",
    "\tRSSI       : " ++ toString detection.rssi ++ " dBm", "\tPhone Hash : " ++ toString report.phoneHash]

def detectionReport (runtime : Runtime) (detection : Detection) (report : Report) (date : String) : List String :=
  detectionHead detection report ++
    ["\tTimestamp  : " ++ date, "\tTTL        : " ++ toString report.ttl, payloadLine runtime report.payload,
      integrityLine report.isValid, "".pushn '-' 60]

def showDetection (runtime : Runtime) (detection : Detection) (report : Report) : Outcome :=
  match fromTimestamp runtime (report.timestamp * 60) with
  | none => .raised (detectionHead detection report)
  | some date => .reported (detectionReport runtime detection report date)

-- The callback of ble-scanner.py with all it prints.
def detected (runtime : Runtime) (detection : Detection) : Outcome :=
  if detection.manufacturerData.isEmpty then .ignored
  else
    match detection.manufacturerData.lookup testCid with
    | none => .ignored
    | some dataBytes =>
        if dataBytes.length ≠ packetBytes then .ignored
        else showDetection runtime detection (decode runtime.hmac dataBytes)

def Outcome.printed : Outcome → Option (List String)
  | .ignored => none
  | .throttled => none
  | .raised printed => some printed
  | .reported printed => some printed

-- Below its heading, which names the sender, the two programs print the same.
def serverBodies (runtime : Runtime) (arrivals : List Arrival) : List (List String) :=
  (serverLog runtime arrivals).filterMap fun entry => entry.2.printed.map (List.drop 1)

def scannerBodies (runtime : Runtime) (detections : List Detection) : List (List String) :=
  detections.filterMap fun detection => (detected runtime detection).printed.map (List.drop 2)

def Detection.hears (detection : Detection) (cid : Nat) : Option Bytes := detection.manufacturerData.lookup cid

-- One frame, as a datagram at the server and as an advertisement at the
-- scanner next to the sender.
structure Reception where
  arrival : Arrival
  detection : Detection
  same : Delivers detection.hears testCid arrival.data

theorem detected_callback (runtime : Runtime) (detection : Detection) :
    detected runtime detection =
      match callback runtime.hmac detection.hears with
      | none => .ignored
      | some report => showDetection runtime detection report := by
  obtain ⟨address, manufacturerData, rssi⟩ := detection
  cases manufacturerData with
  | nil => rfl
  | cons first rest =>
      rw [detected, callback, if_neg (by simp)]
      dsimp only [Detection.hears]
      cases (first :: rest).lookup testCid with
      | none => rfl
      | some dataBytes =>
          dsimp only
          split <;> rfl

theorem detection_body (runtime : Runtime) (detection : Detection) (address : String) (report : Report) :
    (showDetection runtime detection report).printed.map (List.drop 2) =
      (showReport runtime address report).printed.map (List.drop 1) := by
  rw [showDetection, showReport]
  cases fromTimestamp runtime (report.timestamp * 60) with
  | none => rfl
  | some date => rfl

theorem delivers_blob (detection : Detection) (cid : Nat) (body : Bytes) (heard : detection.hears cid = some body) :
    Delivers detection.hears cid (bytesOf 2 cid ++ body) := by
  intro dataBytes
  rw [heard]
  constructor
  · intro same
    rw [Option.some.inj same]
  · intro same
    rw [List.append_cancel_left same]

theorem formed_blob (arrival : Arrival) (formed : WellFormed arrival) : bytesOf 2 testCid ++ arrival.data.drop 2 = arrival.data := by
  have marker : bytesOf 2 testCid = arrival.data.take 2 := formed.2.symm
  rw [marker, List.take_append_drop]

theorem blob_formed (arrival : Arrival) (dataBytes : Bytes) (blob : arrival.data = bytesOf 2 testCid ++ dataBytes) :
    WellFormed arrival ↔ dataBytes.length = packetBytes := by
  have marker : arrival.data.take 2 = [0xFF, 0xFF] := by
    rw [blob]
    exact List.take_left' (by simp)
  have length : arrival.data.length = 2 + dataBytes.length := by
    rw [blob, List.length_append, bytes_length]
  rw [WellFormed, and_iff_left marker, length, packetBytes]
  omega

def bodyOf (runtime : Runtime) (arrival : Arrival) : List String :=
  match (showReport runtime arrival.address (decode runtime.hmac (arrival.data.drop 2))).printed with
  | none => []
  | some printed => printed.drop 1

theorem report_body (runtime : Runtime) (arrival : Arrival) :
    (showReport runtime arrival.address (decode runtime.hmac (arrival.data.drop 2))).printed.map (List.drop 1) =
      some (bodyOf runtime arrival) := by
  rw [bodyOf, showReport]
  cases fromTimestamp runtime ((decode runtime.hmac (arrival.data.drop 2)).timestamp * 60) with
  | none => rfl
  | some date => rfl

-- The scanner shows each well-formed frame, and nothing else.
theorem reception_body (runtime : Runtime) (reception : Reception) :
    (detected runtime reception.detection).printed.map (List.drop 2) =
      if WellFormed reception.arrival then some (bodyOf runtime reception.arrival) else none := by
  obtain ⟨arrival, detection, same⟩ := reception
  rw [detected_callback, callback]
  dsimp only
  cases heard : detection.hears testCid with
  | none =>
      have unformed : ¬ WellFormed arrival := by
        intro formed
        have delivered := (same (arrival.data.drop 2)).mpr (formed_blob arrival formed).symm
        exact Option.some_ne_none _ (delivered.symm.trans heard)
      rw [if_neg unformed]
      rfl
  | some dataBytes =>
      have blob := (same dataBytes).mp heard
      have body : arrival.data.drop 2 = dataBytes := by
        rw [blob]
        exact List.drop_left' (by simp)
      rw [← body]
      dsimp only
      by_cases size : (arrival.data.drop 2).length = packetBytes
      · have formed : WellFormed arrival := (blob_formed arrival dataBytes blob).mpr (body ▸ size)
        rw [if_neg (not_not_intro size), if_pos formed, ← report_body]
        exact detection_body runtime detection arrival.address _
      · have unformed : ¬ WellFormed arrival := fun formed => size (body.symm ▸ (blob_formed arrival dataBytes blob).mp formed)
        rw [if_pos size, if_neg unformed]
        rfl

-- The server shows the same, but only of what its duplicate filter passes on.
theorem received_body (runtime : Runtime) (cache : SignatureCache) (arrival : Arrival) :
    (datagramReceived runtime cache arrival).2.printed.map (List.drop 1) =
      if (decide (WellFormed arrival) && (datagramReceived runtime cache arrival).2.passedOn) = true then some (bodyOf runtime arrival)
      else none := by
  rw [received_limit]
  dsimp only
  by_cases formed : WellFormed arrival
  · have asked := (request_iff arrival (signature arrival) arrival.time).mpr ⟨formed, rfl, rfl⟩
    rw [decide_eq_true formed, Bool.true_and]
    cases fresh : Throttle.recent cacheTtl cache (signature arrival) arrival.time with
    | true =>
        rw [Throttle.limit_throttled cacheTtl request cache arrival _ _ asked fresh]
        rfl
    | false =>
        rw [Throttle.limit_passed cacheTtl request cache arrival _ _ asked fresh,
          if_pos ((outcome_passed_on runtime arrival .passed).mpr rfl)]
        exact report_body runtime arrival
  · have asked : request arrival = none := if_neg formed
    rw [Throttle.limit_skipped cacheTtl request cache arrival asked, decide_eq_false formed, Bool.false_and]
    rfl

section Screens

variable (runtime : Runtime) (arrivals : List Arrival)

def passing (entry : Arrival × Outcome) : Bool := decide (WellFormed entry.1) && entry.2.passedOn

theorem server_bodies :
    serverBodies runtime arrivals = ((serverLog runtime arrivals).filter passing).map fun entry => bodyOf runtime entry.1 := by
  rw [serverBodies, ← List.filterMap_eq_map, List.filterMap_filter]
  refine List.filterMap_congr fun entry member => ?_
  obtain ⟨j, here⟩ := List.mem_iff_getElem?.mp member
  obtain ⟨arrival, later, _, value⟩ := log_entry (datagramReceived runtime) Throttle.nothing arrivals j entry here
  subst value
  exact received_body runtime _ arrival

theorem formed_bodies :
    (arrivals.filterMap fun arrival => if WellFormed arrival then some (bodyOf runtime arrival) else none) =
      ((serverLog runtime arrivals).filter fun entry => decide (WellFormed entry.1)).map fun entry => bodyOf runtime entry.1 := by
  have entries := log_events (datagramReceived runtime) Throttle.nothing arrivals
  conv_lhs => rw [← entries]
  rw [List.filterMap_map, ← List.filterMap_eq_map, List.filterMap_filter]
  refine List.filterMap_congr fun entry _ => ?_
  by_cases formed : WellFormed entry.1
  · rw [Function.comp_apply, if_pos formed, decide_eq_true formed]
    rfl
  · rw [Function.comp_apply, if_neg formed, decide_eq_false formed]
    rfl

theorem scanner_bodies (receptions : List Reception) :
    scannerBodies runtime (receptions.map Reception.detection) =
      ((serverLog runtime (receptions.map Reception.arrival)).filter fun entry => decide (WellFormed entry.1)).map
        fun entry => bodyOf runtime entry.1 := by
  rw [← formed_bodies, scannerBodies, List.filterMap_map, List.filterMap_map]
  exact List.filterMap_congr fun reception _ => reception_body runtime reception

theorem all_pass_iff :
    (∀ entry ∈ serverLog runtime arrivals, WellFormed entry.1 → entry.2.passedOn = true) ↔
      arrivals.Pairwise fun earlier later => ¬ Together earlier later := by
  constructor
  · intro every
    rw [List.pairwise_iff_getElem]
    intro j i inFirst inSecond before together
    obtain ⟨itsOutcome, logged⟩ := arrival_logged runtime arrivals j arrivals[j] (List.getElem?_eq_getElem inFirst)
    obtain ⟨outcome, found⟩ := arrival_logged runtime arrivals i arrivals[i] (List.getElem?_eq_getElem inSecond)
    obtain ⟨itsForm, formed, same, near⟩ := together
    have passed := every _ (List.mem_of_getElem? found) formed
    have itsPassed := every _ (List.mem_of_getElem? logged) itsForm
    have alone := (passed_on_iff runtime arrivals i _ outcome found formed).mp passed
    exact alone ⟨j, _, itsOutcome, before, logged, itsForm, itsPassed, same, near⟩
  · intro apart entry member formed
    obtain ⟨i, found⟩ := List.mem_iff_getElem?.mp member
    have here := logged_arrival runtime arrivals i entry.1 entry.2 found
    refine first_copy_passes runtime arrivals i entry.1 entry.2 found formed fun j earlier before position => ?_
    obtain ⟨inSecond, second⟩ := List.getElem?_eq_some_iff.mp here
    obtain ⟨inFirst, first⟩ := List.getElem?_eq_some_iff.mp position
    have distant := List.pairwise_iff_getElem.mp apart j i inFirst inSecond before
    rwa [first, second] at distant

end Screens

-- Whatever arrives, the server prints what the scanner prints, thinned out:
-- the same in the same order, and all of it exactly when no two copies of a
-- signature are less than 20 ms apart.
theorem screens_agree (runtime : Runtime) (receptions : List Reception) :
    (serverBodies runtime (receptions.map Reception.arrival)).Sublist (scannerBodies runtime (receptions.map Reception.detection)) ∧
    (serverBodies runtime (receptions.map Reception.arrival) = scannerBodies runtime (receptions.map Reception.detection) ↔
      (receptions.map Reception.arrival).Pairwise fun earlier later => ¬ Together earlier later) := by
  have formed : ∀ entry : Arrival × Outcome, passing entry = true → decide (WellFormed entry.1) = true := fun entry passes =>
    (Bool.and_eq_true_iff.mp passes).1
  rw [server_bodies, scanner_bodies, ← all_pass_iff runtime _]
  refine ⟨(List.monotone_filter_right _ formed).map _, ?_⟩
  rw [emitted_eq_iff _ _ _ _ fun entry _ => formed entry]
  simp only [passing, Bool.and_eq_true, decide_eq_true_eq]
  exact forall₂_congr fun entry _ => forall_congr' fun shaped => and_iff_right shaped

def sampleReception (address : String) (rssi : Int) (time : ℚ) : Reception :=
  ⟨sampleArrival 1 [0, 0, 0, 0] time, ⟨address, [(0x004C, [1]), (testCid, (sampleArrival 1 [0, 0, 0, 0] time).data.drop 2)], rssi⟩,
    delivers_blob _ _ _ rfl⟩

def sampleReceptions : List Reception :=
  [sampleReception macVictim (-60) 0, sampleReception macRelay (-71) (1 / 100), sampleReception macRelay (-70) (1 / 2)]

theorem sample_screens_agree :
    (serverBodies echoRuntime (sampleReceptions.map Reception.arrival)).Sublist
      (scannerBodies echoRuntime (sampleReceptions.map Reception.detection)) ∧
    (serverBodies echoRuntime (sampleReceptions.map Reception.arrival) = scannerBodies echoRuntime (sampleReceptions.map Reception.detection) ↔
      (sampleReceptions.map Reception.arrival).Pairwise fun earlier later => ¬ Together earlier later) :=
  screens_agree echoRuntime sampleReceptions

end BeaconMesh.Scanner

namespace BeaconMesh.Arduino

open Scanner

-- What the scanner makes of an advertisement of the mesh, whatever else the
-- sender advertises with it.
def Hears (detection : Detection) (copy : Copy) : Prop := Delivers detection.hears testCid copy.frame

theorem heard_detected (runtime : Runtime) (emergency : Emergency) (hops : Nat) (copy : Copy) (of : CopyOf runtime.hmac emergency hops copy)
    (detection : Detection) (hears : Hears detection copy) :
    detected runtime detection = showDetection runtime detection (trueReport emergency hops) := by
  have intact := aged_intact runtime.hmac emergency hops of.2.1
  rw [← of.2.2] at intact
  rw [detected_callback, intact.heard detection.hears hears]

-- Every advertisement on air, a victim's own or a relay's burst, is shown in
-- full and truly by a scanner that hears it.
theorem victims_detected {ι : Type} [DecidableEq ι] (runtime : Runtime) (late : 3565728000 ≤ runtime.lastSecond) (victims : List VictimRun)
    (actions : List (Action ι)) (advertised : Advertised runtime.hmac victims actions) (copy : Copy)
    (onAir : copy ∈ (Network.run runtime.hmac actions).onAir) (detection : Detection) (hears : Hears detection copy) :
    ∃ victim ∈ victims, ∃ entry ∈ victim.log runtime.hmac, ∃ seconds hops,
      entry.1.tested / 60 ≤ seconds / 60 ∧ seconds ≤ entry.1.stamped ∧ hops ≤ 19 ∧
      detected runtime detection = .reported (detectionReport runtime detection (trueReport (emergencyAt seconds) hops)
        (runtime.strftime ((29714400 + seconds / 60) * 60))) := by
  obtain ⟨emergency, hops, of⟩ := (run_traced runtime.hmac actions).onAir copy onAir
  have sent := (run_origin runtime.hmac actions).onAir copy onAir emergency hops of.1
  have shown := heard_detected runtime emergency hops copy of detection hears
  obtain ⟨victim, member, entry, logged, seconds, current, past, unset, rfl⟩ :=
    advertised_minute runtime.hmac victims actions advertised emergency sent
  have minute : (trueReport (emergencyAt seconds) hops).timestamp = 29714400 + seconds / 60 := stamp_value seconds unset
  have offset : timeOffset.toNat = 29714400 := by decide
  have early : (29714400 + seconds / 60) * 60 ≤ runtime.lastSecond := by omega
  refine ⟨victim, member, entry, logged, seconds, hops, current, past, of.2.1, ?_⟩
  rw [shown, showDetection, minute, fromTimestamp, if_pos early]

-- A relay without Wi-Fi sends the frame on, and the scanner hears the burst.
def relayedActions : List (Action Unit) := [.sos (emergencyAt 10), .hear () 0 0xA1B2C3D4E5F6 100 false 50, .loop () 200]

def relayedBurst : Bytes := rebroadcastData (aged (built echoRuntime.hmac (emergencyAt 10)) 1)

def relayedDetection : Detection := ⟨macRelay, [(testCid, relayedBurst.drop 2)], -70⟩

theorem relayed_detected :
    ∃ victim ∈ [sampleVictim], ∃ entry ∈ victim.log echoRuntime.hmac, ∃ seconds hops,
      entry.1.tested / 60 ≤ seconds / 60 ∧ seconds ≤ entry.1.stamped ∧ hops ≤ 19 ∧
      detected echoRuntime relayedDetection = .reported (detectionReport echoRuntime relayedDetection (trueReport (emergencyAt seconds) hops)
        (echoRuntime.strftime ((29714400 + seconds / 60) * 60))) := by
  have burst : (Network.run echoRuntime.hmac relayedActions).onAir.any (fun copy => copy.frame == relayedBurst) = true := by
    decide +kernel
  obtain ⟨copy, onAir, same⟩ := List.any_eq_true.mp burst
  have heard : Hears relayedDetection copy := by
    rw [Hears, eq_of_beq same]
    exact delivers_blob relayedDetection testCid (relayedBurst.drop 2) rfl
  have advertised := sample_advertised relayedActions fun emergency sent => by simpa [relayedActions] using sent
  exact victims_detected echoRuntime (by decide +kernel) [sampleVictim] relayedActions advertised copy onAir relayedDetection heard

end BeaconMesh.Arduino
