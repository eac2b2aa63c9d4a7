import BeaconMesh.Lib.Throttle
import BeaconMesh.Scanner
import Mathlib.Algebra.Order.Ring.Rat

set_option autoImplicit false

namespace BeaconMesh.Scanner

open History LittleEndian Throttle

-- self.CACHE_TTL, in seconds of the event loop's clock. The difference of two
-- doubles is exact when neither is more than twice the other, and no double
-- lies between 1/50 and the constant: from 0.02 s of that clock on, the
-- comparison with it answers as the one of the rationals.
def cacheTtl : ℚ := 1 / 50

def colorGateway : String := "\x1b[94m"

def colorAlert : String := "\x1b[91m"

def colorSuccess : String := "\x1b[92m"

def colorReset : String := "\x1b[0m"

-- What the server takes from outside: SHA-256, the last second that
-- datetime.fromtimestamp can represent, its strftime text, and the text of
-- raw / GPS_PRECISION.
structure Runtime where
  hmac : Bytes → Bytes → Vector UInt8 32
  lastSecond : Nat
  strftime : Nat → String
  degrees : Int → String

structure Arrival where
  data : Bytes
  address : String
  time : ℚ
deriving DecidableEq

-- raised is an exception after the lines printed so far; the event loop
-- reports it and goes on.
inductive Outcome where
  | ignored
  | throttled
  | raised (printed : List String)
  | reported (printed : List String)
deriving DecidableEq, Repr

def fromTimestamp (runtime : Runtime) (seconds : Nat) : Option String :=
  if seconds ≤ runtime.lastSecond then some (runtime.strftime seconds) else none

def headLines (address : String) (report : Report) : List String :=
  ["[" ++ colorGateway ++ address ++ colorReset ++ "] PACHET SOS DETECTAT",
    "\tPhone Hash : " ++ toString report.phoneHash]

def payloadLine (runtime : Runtime) : Payload → String
  | .location latRaw lonRaw =>
      "\tLocatie    : Lat " ++ runtime.degrees latRaw ++ ", Lon " ++ runtime.degrees lonRaw
  | .nonce value => "\tNonce      : " ++ toString value ++ " (Fara date GPS)"

def integrityLine (isValid : Bool) : String :=
  "Integritate: " ++ (if isValid then colorSuccess else colorAlert) ++ (if isValid then "VALIDA" else "COMPROMISA") ++ colorReset

def fullReport (runtime : Runtime) (address : String) (report : Report) (date : String) : List String :=
  headLines address report ++
    ["\tTimestamp  : " ++ date, "\tTTL        : " ++ toString report.ttl, payloadLine runtime report.payload,
      integrityLine report.isValid, "".pushn '-' 60]

def showReport (runtime : Runtime) (address : String) (report : Report) : Outcome :=
  match fromTimestamp runtime (report.timestamp * 60) with
  | none => .raised (headLines address report)
  | some date => .reported (fullReport runtime address report date)

abbrev SignatureCache := Bytes → Option ℚ

def datagramReceived (runtime : Runtime) (cache : SignatureCache) (arrival : Arrival) : SignatureCache × Outcome :=
  if arrival.data.length ≠ packetBytes + 2 then (cache, .ignored)
  else if valueOf (arrival.data.take 2) ≠ testCid then (cache, .ignored)
  else
    let dataBytes := arrival.data.drop 2
    let hmacSig := (dataBytes.drop 17).take 8
    if recent cacheTtl cache hmacSig arrival.time then (cache, .throttled)
    else
      (Function.update cache hmacSig (some arrival.time),
        showReport runtime arrival.address (decode runtime.hmac dataBytes))

def serverLog (runtime : Runtime) (arrivals : List Arrival) : List (Arrival × Outcome) :=
  log (datagramReceived runtime) nothing arrivals

def serverState (runtime : Runtime) (arrivals : List Arrival) : SignatureCache :=
  final (datagramReceived runtime) nothing arrivals

def WellFormed (arrival : Arrival) : Prop := arrival.data.length = 27 ∧ arrival.data.take 2 = [0xFF, 0xFF]

instance (arrival : Arrival) : Decidable (WellFormed arrival) := inferInstanceAs (Decidable (_ ∧ _))

def signature (arrival : Arrival) : Bytes := ((arrival.data.drop 2).drop 17).take 8

def request (arrival : Arrival) : Option (Bytes × ℚ) :=
  if WellFormed arrival then some (signature arrival, arrival.time) else none

def outcomeOf (runtime : Runtime) (arrival : Arrival) : Verdict → Outcome
  | .skipped => .ignored
  | .throttled => .throttled
  | .passed => showReport runtime arrival.address (decode runtime.hmac (arrival.data.drop 2))

theorem cid_marker (bytes : Bytes) (length : bytes.length = 2) : valueOf bytes = testCid ↔ bytes = [0xFF, 0xFF] := by
  constructor
  · intro same
    have value := bytes_value bytes
    rw [length, same] at value
    exact value.symm
  · rintro rfl
    rfl

theorem received_limit (runtime : Runtime) (cache : SignatureCache) (arrival : Arrival) :
    datagramReceived runtime cache arrival =
      ((limit cacheTtl request cache arrival).1, outcomeOf runtime arrival (limit cacheTtl request cache arrival).2) := by
  by_cases length : arrival.data.length = packetBytes + 2
  · have marker := cid_marker (arrival.data.take 2) (by rw [List.length_take, length]; rfl)
    by_cases cid : valueOf (arrival.data.take 2) = testCid
    · have asked : request arrival = some (signature arrival, arrival.time) := if_pos ⟨length, marker.mp cid⟩
      rw [datagramReceived, if_neg (not_not_intro length), if_neg (not_not_intro cid)]
      dsimp only
      cases fresh : recent cacheTtl cache (signature arrival) arrival.time with
      | true =>
          rw [limit_throttled cacheTtl request cache arrival _ _ asked fresh]
          exact if_pos fresh
      | false =>
          rw [limit_passed cacheTtl request cache arrival _ _ asked fresh]
          exact if_neg (by rw [← signature, fresh]; exact Bool.false_ne_true)
    · have asked : request arrival = none := if_neg fun formed => cid (marker.mpr formed.2)
      rw [datagramReceived, if_neg (not_not_intro length), if_pos cid, limit_skipped cacheTtl request cache arrival asked]
      rfl
  · have asked : request arrival = none := if_neg fun formed => length formed.1
    rw [datagramReceived, if_pos length, limit_skipped cacheTtl request cache arrival asked]
    rfl

theorem server_log (runtime : Runtime) (arrivals : List Arrival) :
    serverLog runtime arrivals =
        (log (limit cacheTtl request) nothing arrivals).map (fun entry => (entry.1, outcomeOf runtime entry.1 entry.2)) ∧
      serverState runtime arrivals = final (limit cacheTtl request) nothing arrivals :=
  log_shown (limit cacheTtl request) (datagramReceived runtime) (outcomeOf runtime) (received_limit runtime) nothing arrivals

def Outcome.passedOn : Outcome → Bool
  | .ignored => false
  | .throttled => false
  | .raised _ => true
  | .reported _ => true

theorem outcome_passed_on (runtime : Runtime) (arrival : Arrival) (verdict : Verdict) :
    (outcomeOf runtime arrival verdict).passedOn = true ↔ verdict = .passed := by
  cases verdict with
  | skipped => exact iff_of_false Bool.false_ne_true (by decide)
  | throttled => exact iff_of_false Bool.false_ne_true (by decide)
  | passed =>
      refine iff_of_true ?_ rfl
      rw [outcomeOf, showReport]
      split <;> rfl

theorem request_iff (arrival : Arrival) (key : Bytes) (now : ℚ) :
    request arrival = some (key, now) ↔ WellFormed arrival ∧ signature arrival = key ∧ arrival.time = now := by
  by_cases formed : WellFormed arrival
  · simp [request, formed]
  · simp [request, formed]

def InTime (arrivals : List Arrival) : Prop := arrivals.Pairwise fun earlier later => earlier.time ≤ later.time

instance (arrivals : List Arrival) : Decidable (InTime arrivals) := inferInstanceAs (Decidable (arrivals.Pairwise _))

theorem cache_ttl_nonneg : 0 ≤ cacheTtl := by
  rw [cacheTtl]
  positivity

def Shadowed (history : List (Arrival × Outcome)) (i : Nat) (arrival : Arrival) : Prop :=
  ∃ j earlier outcome, j < i ∧ history[j]? = some (earlier, outcome) ∧ WellFormed earlier ∧ outcome.passedOn = true ∧
    signature earlier = signature arrival ∧ arrival.time - earlier.time < cacheTtl

theorem passed_on_iff (runtime : Runtime) (arrivals : List Arrival) (i : Nat) (arrival : Arrival) (outcome : Outcome)
    (found : (serverLog runtime arrivals)[i]? = some (arrival, outcome)) (formed : WellFormed arrival) :
    outcome.passedOn = true ↔ ¬ Shadowed (serverLog runtime arrivals) i arrival := by
  have shown := (server_log runtime arrivals).1
  rw [shown, List.getElem?_map] at found
  obtain ⟨⟨itself, verdict⟩, entry, value⟩ := Option.map_eq_some_iff.mp found
  simp only [Prod.mk.injEq] at value
  obtain ⟨rfl, rfl⟩ := value
  have asked := (request_iff itself (signature itself) itself.time).mpr ⟨formed, rfl, rfl⟩
  rw [outcome_passed_on, passes_iff cacheTtl request cache_ttl_nonneg arrivals i itself _ _ verdict entry asked,
    not_iff_not, shown]
  constructor
  · rintro ⟨record, member, earlier, passes, near⟩
    obtain ⟨j, bound, position⟩ := List.mem_iff_getElem.mp member
    rw [List.length_take] at bound
    obtain ⟨itsForm, key, time⟩ := (request_iff record.1 _ _).mp passes.asked
    refine ⟨j, record.1, outcomeOf runtime record.1 record.2, by omega, ?_, itsForm,
      (outcome_passed_on runtime _ _).mpr passes.passed, key, by rw [time]; exact near⟩
    rw [List.getElem?_map]
    rw [List.getElem_take] at position
    rw [List.getElem?_eq_getElem (by omega), position]
    rfl
  · rintro ⟨j, earlier, outcome, before, position, itsForm, passed, key, near⟩
    rw [List.getElem?_map] at position
    obtain ⟨record, entryJ, value⟩ := Option.map_eq_some_iff.mp position
    simp only [Prod.mk.injEq] at value
    obtain ⟨rfl, rfl⟩ := value
    refine ⟨record, ?_, record.1.time, ⟨(request_iff _ _ _).mpr ⟨itsForm, key, rfl⟩, (outcome_passed_on runtime _ _).mp passed⟩, near⟩
    exact List.mem_of_getElem? (by rw [List.getElem?_take_of_lt before]; exact entryJ)

theorem passed_on_admitted (runtime : Runtime) (arrivals : List Arrival) (i : Nat) (arrival : Arrival) (outcome : Outcome)
    (found : (serverLog runtime arrivals)[i]? = some (arrival, outcome)) : outcome.passedOn = true ↔ Admitted cacheTtl request arrivals i := by
  rw [(server_log runtime arrivals).1, List.getElem?_map] at found
  obtain ⟨⟨itself, verdict⟩, entry, value⟩ := Option.map_eq_some_iff.mp found
  simp only [Prod.mk.injEq] at value
  obtain ⟨rfl, rfl⟩ := value
  rw [outcome_passed_on]
  exact passes_admitted cacheTtl request cache_ttl_nonneg arrivals i itself verdict entry

theorem admitted_formed (arrivals : List Arrival) (i : Nat) (arrival : Arrival) (found : arrivals[i]? = some arrival)
    (admitted : Admitted cacheTtl request arrivals i) : WellFormed arrival := by
  rw [Admitted] at admitted
  obtain ⟨itself, key, now, position, asked, _⟩ := admitted
  obtain rfl := Option.some.inj (found.symm.trans position)
  exact ((request_iff _ _ _).mp asked).1

end BeaconMesh.Scanner
