import BeaconMesh.QueuedPackets
import BeaconMesh.RelayDrain

set_option autoImplicit false

namespace BeaconMesh.Arduino

open Sweep History

instance (now : Millis) (hmac : HmacSig) (cache : TimeAwareCache) : Decidable (NoMatch now hmac cache) :=
  inferInstanceAs (Decidable (∀ _, ¬ (_ ∧ _)))

theorem queues_iff (before : RelayState) (device : Advertisement) (now : Millis) :
    Queues before device now ↔ ∃ pair ∈ receivedPacket device, NoMatch now pair.2.hmacSig before.cache ∧ 2 ≤ (ttlOf pair.2.flags).toNat :=
  ⟨fun ⟨payloadRaw, packet, received, rest⟩ => ⟨(payloadRaw, packet), received, rest⟩,
    fun ⟨pair, received, rest⟩ => ⟨pair.1, pair.2, received, rest⟩⟩

instance (before : RelayState) (device : Advertisement) (now : Millis) : Decidable (Queues before device now) :=
  decidable_of_iff _ (queues_iff before device now).symm

-- The event queues a packet for transmission.
def joins (before : RelayState) : Event → Bool
  | .onResult device now wifi _ => !wifi && decide (Queues before device now)
  | .loop _ => false

-- How many packets are still going to be queued before the deadline.
def arrivals (deadline : Nat) : RelayState → List Event → Nat
  | _, [] => 0
  | state, event :: later =>
      (if joins state event && decide (event.now.toNat < deadline) then 1 else 0) + arrivals deadline (step state event).1 later

def OnAirSlot (state : RelayState) (k : Slot) : Prop := state.isBroadcasting = true ∧ state.currentBroadcastIndex = k.val

instance (state : RelayState) (k : Slot) : Decidable (OnAirSlot state k) := inferInstanceAs (Decidable (_ ∧ _))

-- The slots that may hold the radio before a packet that comes in now.
def inTheWay (state : RelayState) : Finset Slot := Finset.univ.filter fun k => Ready (read state.cache k) ∨ OnAirSlot state k

def Event.jitter : Event → Nat
  | .onResult _ _ _ jitter => jitter.toNat
  | .loop _ => 0

-- Whenever a packet is queued, the rounds of all that may be sent before it
-- leave it time within its lifetime.
def Uncongested (gap : Nat) : RelayState → List Event → Prop
  | _, [] => True
  | state, event :: later =>
      (joins state event = true →
        ((inTheWay state).card + arrivals (event.now.toNat + 2000) (step state event).1 later) * roundTime gap + event.jitter + gap < 2000) ∧
      Uncongested gap (step state event).1 later

instance decideUncongested (gap : Nat) : ∀ state events, Decidable (Uncongested gap state events)
  | _, [] => isTrue trivial
  | state, event :: later =>
      have := decideUncongested gap (step state event).1 later
      inferInstanceAs (Decidable (_ ∧ _))

-- After every event loop() comes around within gap milliseconds.
def Prompt (gap : Nat) : List Event → Prop
  | [] => True
  | event :: later => (∀ next ∈ (loopTimes later).head?, next ≤ event.now.toNat + gap) ∧ Prompt gap later

instance decidePrompt (gap : Nat) : ∀ events, Decidable (Prompt gap events)
  | [] => isTrue trivial
  | _ :: later =>
      have := decidePrompt gap later
      inferInstanceAs (Decidable (_ ∧ _))

section Readiness

end Readiness

section Line

-- The other slots that may be sent before the packet in slot k.
def others (k : Slot) (state : RelayState) : Finset Slot :=
  Finset.univ.filter fun i => i ≠ k ∧ Ready (read state.cache i) ∧ ¬ OnAirSlot state i

variable (k : Slot) (due gap bound limit joining : Nat)

variable (before after : RelayState) (now : Millis) (output : Output)

end Line

section Clock

variable (gap : Nat) (events : List Event)

-- The first iteration from position n on comes by the limit.
def NextBy (n limit : Nat) : Prop := ∀ next ∈ (loopTimes (events.drop n)).head?, next ≤ limit

-- The burst on air ends at most half a second after a past event, and loop()
-- comes around soon after its end.
structure Ending (n : Nat) (state : RelayState) : Prop where
  next : NextBy events n (state.broadcastEndTime.toNat + gap)
  near : ∃ m event, m < n ∧ events[m]? = some event ∧ state.broadcastEndTime.toNat ≤ event.now.toNat + 500

end Clock

section Waiting

variable (gap : Nat)

variable (events : List Event) (ordered : Nondecreasing events) (fits : ∀ event ∈ events, event.now.toNat + 2000 < 2 ^ 32)
  (prompt : Prompt gap events) (k : Slot)

end Waiting

end BeaconMesh.Arduino
