import BeaconMesh.RelayRadio

set_option autoImplicit false

namespace BeaconMesh.Arduino

open Sweep History

-- What Serial.println(cacheMacStatus) prints for a received frame, between
-- the first lookup and the decision. none is the null pointer of the start.
def printedStatus (state : RelayState) (advertisedDevice : Advertisement) (now : Millis) (packet : EmergencyPacket) : Option String :=
  (checkCache state.cache packet.hmacSig now advertisedDevice.address state.cacheMacStatus).macStatus

-- Outputs of callbacks one of whose lookups found the key.
def lookupHit : Output → Bool
  | .duplicate _ => true
  | .forwarded _ _ newLoc => newLoc.isSome
  | .ignored => false
  | .queued _ _ => false
  | .ttlExpired => false
  | .ttlZero => false
  | .transmitting => false
  | .burstEnded _ => false
  | .scanned _ _ => false

def hitBefore (history : List Record) : Bool := history.any fun record => lookupHit record.2

def statusAfter (hit : Bool) : Option String := if hit then some seenMacText else none

theorem check_status (cache : TimeAwareCache) (hmac : HmacSig) (now : Millis) (mac : Mac) (status : Option String) :
    (checkCache cache hmac now mac status).macStatus =
      if (checkCache cache hmac now mac status).location.isSome then some seenMacText else status := by
  cases location : (checkCache cache hmac now mac status).location with
  | none =>
      simp only [checkCache] at location ⊢
      rw [location]
      rfl
  | some k =>
      simp only [checkCache] at location ⊢
      rw [location]
      rfl

theorem callback_status (state : RelayState) (device : Advertisement) (now : Millis) (wifi : Bool) (jitter : Millis) :
    (onResult state device now wifi jitter).1.cacheMacStatus =
      if lookupHit (onResult state device now wifi jitter).2 then some seenMacText else state.cacheMacStatus := by
  cases received : receivedPacket device with
  | none =>
      simp only [onResult, received]
      rfl
  | some pair =>
      obtain ⟨payloadRaw, packet⟩ := pair
      have first := check_status state.cache packet.hmacSig now device.address state.cacheMacStatus
      simp only [onResult, received]
      cases location : (checkCache state.cache packet.hmacSig now device.address state.cacheMacStatus).location with
      | some k =>
          rw [location] at first
          exact first
      | none =>
          rw [location] at first
          cases wifi with
          | false =>
              simp only [Bool.false_eq_true, if_false]
              rcases queue_effect { state with
                  cache := (checkCache state.cache packet.hmacSig now device.address state.cacheMacStatus).cache
                  cacheMacStatus := (checkCache state.cache packet.hmacSig now device.address state.cacheMacStatus).macStatus }
                packet now jitter device.address with ⟨_, same, silent⟩ | ⟨_, result⟩
              · rw [same]
                rcases silent with expired | zero
                · rw [expired]
                  exact first
                · rw [zero]
                  exact first
              · rw [result]
                exact first
          | true =>
              simp only [if_true, forwardUpstream]
              rw [check_status]
              simp only [lookupHit]
              rw [first]
              rfl

theorem loop_status (state : RelayState) (now : Millis) :
    (loop state now).1.cacheMacStatus = state.cacheMacStatus ∧ lookupHit (loop state now).2 = false := by
  unfold loop
  split
  · split <;> exact ⟨rfl, rfl⟩
  · dsimp only
    split <;> exact ⟨rfl, rfl⟩

theorem step_status (state : RelayState) (event : Event) :
    (step state event).1.cacheMacStatus = if lookupHit (step state event).2 then some seenMacText else state.cacheMacStatus := by
  cases event with
  | onResult device now wifi jitter => exact callback_status state device now wifi jitter
  | loop now =>
      obtain ⟨same, quiet⟩ := loop_status state now
      exact same.trans (if_neg fun hit => Bool.false_ne_true (quiet.symm.trans hit)).symm

theorem reachable_status (events : List Event) : (relayState events).cacheMacStatus = statusAfter (hitBefore (relayLog events)) := by
  refine History.invariant step .start (fun past state => state.cacheMacStatus = statusAfter (hitBefore past)) rfl ?_ events
  intro past state event held
  have next : hitBefore (past ++ [(event, (step state event).2)]) = (hitBefore past || lookupHit (step state event).2) := by
    simp [hitBefore]
  rw [step_status, held, next]
  cases lookupHit (step state event).2 <;> cases hitBefore past <;> rfl

theorem duplicate_present (before after : RelayState) (device : Advertisement) (now : Millis) (wifi : Bool) (jitter : Millis)
    (output : Output) (effect : CallbackEffect before device now wifi jitter after output) (k : Slot) (duplicate : output = .duplicate k)
    (payloadRaw : Bytes) (packet : EmergencyPacket) (received : receivedPacket device = some (payloadRaw, packet)) :
    ¬ NoMatch now packet.hmacSig before.cache := by
  cases effect with
  | duplicate raw parsed location _ again live key =>
      obtain ⟨_, rfl⟩ : raw = payloadRaw ∧ parsed = packet := by simpa using again.symm.trans received
      exact fun absent => absent location ⟨live, key⟩
  | dropped raw parsed _ _ again offline absent spent purged burst silent =>
      cases silent with
      | inl expired => simp [expired] at duplicate
      | inr zero => simp [zero] at duplicate
  | ignored => simp at duplicate
  | queued => simp at duplicate
  | forwarded => simp at duplicate

theorem seen_not_new : some seenMacText ≠ some newMacText := by decide

-- The text for a new neighbour is never printed, and after the first hit of
-- the run every frame is announced as dropped, the accepted ones included.
theorem status_never_new (events : List Event) (i : Nat) (device : Advertisement) (now : Millis) (wifi : Bool) (jitter : Millis)
    (output : Output) (payloadRaw : Bytes) (packet : EmergencyPacket)
    (found : (relayLog events)[i]? = some (.onResult device now wifi jitter, output))
    (received : receivedPacket device = some (payloadRaw, packet)) :
    printedStatus (relayState (events.take i)) device now packet ≠ some newMacText ∧
    (printedStatus (relayState (events.take i)) device now packet = some seenMacText ↔
      (∃ location, output = .duplicate location) ∨ hitBefore ((relayLog events).take i) = true) := by
  have held := reachable_status (events.take i)
  have earlier : relayLog (events.take i) = (relayLog events).take i := log_take step .start events i
  have answer : output = (onResult (relayState (events.take i)) device now wifi jitter).2 := (log_at step .start events i _ found).1
  rw [earlier] at held
  rw [printedStatus, check_status, answer]
  cases location : (checkCache (relayState (events.take i)).cache packet.hmacSig now device.address
      (relayState (events.take i)).cacheMacStatus).location with
  | some k =>
      have duplicate : (onResult (relayState (events.take i)) device now wifi jitter).2 = .duplicate k := by
        simp only [onResult, received]
        rw [location]
      rw [duplicate]
      exact ⟨seen_not_new, iff_of_true rfl (Or.inl ⟨k, rfl⟩)⟩
  | none =>
      have fresh : ¬ ∃ k, (onResult (relayState (events.take i)) device now wifi jitter).2 = .duplicate k := by
        rintro ⟨k, duplicate⟩
        exact duplicate_present _ _ _ _ _ _ _ (on_result_effect (relayState (events.take i)) device now wifi jitter) k duplicate
          payloadRaw packet received ((check_cache_miss _ _ _ _ _).mp location)
      rw [held]
      cases hit : hitBefore ((relayLog events).take i) with
      | false => exact ⟨by decide, iff_of_false (by decide) fun either => either.elim fresh Bool.false_ne_true⟩
      | true => exact ⟨by decide, iff_of_true rfl (Or.inr rfl)⟩

-- The second neighbour of the first packet, then a new packet.
def announcedRun : List Event :=
  [.onResult ⟨some (sampleFrame 20 1), 1⟩ 0 false 50, .onResult ⟨some (sampleFrame 20 1), 2⟩ 10 false 50,
    .onResult ⟨some (sampleFrame 20 2), 1⟩ 20 false 50]

theorem accepted_announced_dropped :
    printedStatus (relayState (announcedRun.take 2)) ⟨some (sampleFrame 20 2), 1⟩ 20 (.ofBytes ((sampleFrame 20 2).drop 2)) =
      some seenMacText :=
  (status_never_new announcedRun 2 ⟨some (sampleFrame 20 2), 1⟩ 20 false 50 (.queued 1 50) (sampleFrame 20 2) _ (by decide +kernel)
    rfl).2.mpr (Or.inr (by decide +kernel))

end BeaconMesh.Arduino
