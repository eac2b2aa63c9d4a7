import BeaconMesh.Retention

set_option autoImplicit false

namespace BeaconMesh.Arduino

open Sweep History

theorem callback_forwards (before after : RelayState) (device : Advertisement) (now : Millis) (wifi : Bool)
    (jitter : Millis) (output : Output) (effect : CallbackEffect before device now wifi jitter after output)
    (online : wifi = true) (payloadRaw : Bytes) (packet : EmergencyPacket)
    (received : receivedPacket device = some (payloadRaw, packet)) (absent : NoMatch now packet.hmacSig before.cache) :
    ∃ slot newLoc, output = .forwarded (udpBurst payloadRaw) slot newLoc := by
  cases effect with
  | ignored filtered => exact absurd (received.symm.trans filtered) (Option.some_ne_none _)
  | duplicate raw parsed location _ again live key =>
      obtain ⟨_, rfl⟩ : raw = payloadRaw ∧ parsed = packet := by simpa using again.symm.trans received
      exact absurd ⟨live, key⟩ (absent location)
  | dropped raw parsed _ _ again offline => exact absurd (offline.symm.trans online) Bool.false_ne_true
  | queued raw parsed _ again offline => exact absurd (offline.symm.trans online) Bool.false_ne_true
  | forwarded raw parsed _ newLoc again =>
      obtain ⟨rfl, _⟩ : raw = payloadRaw ∧ parsed = packet := by simpa using again.symm.trans received
      exact ⟨_, newLoc, rfl⟩

theorem forwarded_silent (events : List Event) (i j : Nat) (device : Advertisement) (now jitter : Millis)
    (datagrams : List Bytes) (slot : Slot) (newLoc : Option Slot)
    (found : (relayLog events)[i]? = some (.onResult device now true jitter, .forwarded datagrams slot newLoc)) :
    ¬ Transmits (relayLog events) i j := by
  intro transmits
  obtain ⟨k, _, burst, _, _⟩ := id transmits
  obtain ⟨source, _, _, _, _, _, itself, queued, _⟩ := burst_origin events j k burst
  obtain rfl : i = source := transmitted_source _ i source j transmits itself
  rw [found] at queued
  simp at queued

-- Whatever the clock shows, a wrapped deadline included: the frame goes out
-- over UDP and the slot that remembers it never reaches the radio.
theorem gateway_forwards_once (events : List Event) (i : Nat) (device : Advertisement) (now jitter : Millis)
    (output : Output) (payloadRaw : Bytes) (packet : EmergencyPacket) (status : Option String)
    (found : (relayLog events)[i]? = some (.onResult device now true jitter, output))
    (received : receivedPacket device = some (payloadRaw, packet))
    (missed : (checkCache (relayState (events.take i)).cache packet.hmacSig now device.address status).location = none) :
    (∃ slot newLoc, output = .forwarded [payloadRaw, payloadRaw, payloadRaw] slot newLoc) ∧
      device.manufacturerData = some payloadRaw ∧ payloadRaw.length = 27 ∧
      ∀ j, ¬ Transmits (relayLog events) i j := by
  have absent : NoMatch now packet.hmacSig (relayState (events.take i)).cache := (check_cache_miss _ _ _ _ _).mp missed
  have effect := on_result_effect (relayState (events.take i)) device now true jitter
  obtain ⟨slot, newLoc, sent⟩ := callback_forwards _ _ _ _ _ _ _ effect rfl payloadRaw packet received absent
  obtain ⟨data, length, _, _⟩ := (received_packet_iff _ _ _).mp received
  obtain rfl : output = .forwarded (udpBurst payloadRaw) slot newLoc := (log_at step .start events i _ found).1.trans sent
  refine ⟨⟨slot, newLoc, rfl⟩, data, length, fun j => ?_⟩
  exact forwarded_silent events i j device now jitter _ slot newLoc found

-- The deadline of this frame wraps to 999: the second lookup expires the slot.
def wrappingForward : List Event := [.onResult ⟨some (sampleFrame 20 1), 1⟩ 4294966295 true 50, .loop 4294966400]

theorem wrapping_forward_once :
    (∃ slot newLoc, Output.forwarded (udpBurst (sampleFrame 20 1)) 0 none =
        .forwarded [sampleFrame 20 1, sampleFrame 20 1, sampleFrame 20 1] slot newLoc) ∧
      some (sampleFrame 20 1) = some (sampleFrame 20 1) ∧ (sampleFrame 20 1).length = 27 ∧
      ∀ j, ¬ Transmits (relayLog wrappingForward) 0 j :=
  gateway_forwards_once wrappingForward 0 ⟨some (sampleFrame 20 1), 1⟩ 4294966295 50 _ (sampleFrame 20 1) _ none
    (by decide +kernel) rfl (by decide +kernel)

end BeaconMesh.Arduino
