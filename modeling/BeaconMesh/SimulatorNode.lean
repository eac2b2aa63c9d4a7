import BeaconMesh.CircularBuffer

set_option autoImplicit false

namespace BeaconMesh.Simulator

open Sweep

-- The variables of main that outlive one turn of the receive loop.
structure NodeState where
  packet : EmergencyPacket
  cache : CircularBuffer
deriving DecidableEq

def NodeState.zero : NodeState := ⟨.zero, .zero⟩

-- What a turn of the loop sends or prints. A forwarded packet goes once to the
-- broadcast address of every interface but lo.
inductive Turn where
  | forwarded (packet : EmergencyPacket)
  | finished (recvBytes : Nat)
  | ttlExpired
  | ttlZero
  | alreadyProcessed (location : Row)
deriving DecidableEq

def forwardedPacket : Turn → Option EmergencyPacket
  | .forwarded packet => some packet
  | _ => none

-- recvfrom fills the front of the packet variable and drops what does not fit.
def recvInto (packet : EmergencyPacket) (datagram : Bytes) : EmergencyPacket :=
  .ofBytes (datagram.take EmergencyPacket.size ++ packet.toBytes.drop datagram.length)

def hopPacket (packet : EmergencyPacket) : EmergencyPacket :=
  { packet with flags := withTtl packet.flags (ttlOf packet.flags - 1) }

-- One turn of the receive loop of node.cpp.
def nodeTurn (state : NodeState) (datagram : Bytes) : NodeState × Turn :=
  let packet := recvInto state.packet datagram
  match containsBuff state.cache packet.hmacSig with
  | none =>
      let cache := (addToBuff state.cache packet.hmacSig).2
      let ttl := ttlOf packet.flags
      if ttl > 0 then
        if ttl - 1 ≠ 0 then (⟨hopPacket packet, cache⟩, .forwarded (hopPacket packet))
        else (⟨packet, cache⟩, .ttlExpired)
      else (⟨packet, cache⟩, .ttlZero)
  | some location => (⟨packet, state.cache⟩, .alreadyProcessed location)

-- One turn of the receive loop of exit.cpp.
def exitTurn (state : NodeState) (datagram : Bytes) : NodeState × Turn :=
  let packet := recvInto state.packet datagram
  match containsBuff state.cache packet.hmacSig with
  | none =>
      let cache := (addToBuff state.cache packet.hmacSig).2
      (⟨{ packet with flags := packet.flags &&& ((0xFF : UInt8) <<< 5) }, cache⟩,
        .finished (min datagram.length EmergencyPacket.size))
  | some location => (⟨packet, state.cache⟩, .alreadyProcessed location)

theorem recv_full (packet received : EmergencyPacket) : recvInto packet received.toBytes = received := by
  have whole : received.toBytes.take EmergencyPacket.size = received.toBytes := List.take_of_length_le (by simp)
  have nothing : packet.toBytes.drop received.toBytes.length = [] := List.drop_of_length_le (by simp)
  rw [recvInto, whole, nothing, List.append_nil, EmergencyPacket.of_bytes_to_bytes]

inductive NodeEffect (before : NodeState) (packet : EmergencyPacket) : NodeState → Turn → Prop where
  | duplicate (location : Row) (present : containsBuff before.cache packet.hmacSig = some location) :
      NodeEffect before packet ⟨packet, before.cache⟩ (.alreadyProcessed location)
  | dropped (output : Turn) (absent : containsBuff before.cache packet.hmacSig = none)
      (spent : (ttlOf packet.flags).toNat ≤ 1) (silent : output = .ttlExpired ∨ output = .ttlZero) :
      NodeEffect before packet ⟨packet, (addToBuff before.cache packet.hmacSig).2⟩ output
  | forwarded (absent : containsBuff before.cache packet.hmacSig = none) (hops : 2 ≤ (ttlOf packet.flags).toNat) :
      NodeEffect before packet ⟨hopPacket packet, (addToBuff before.cache packet.hmacSig).2⟩ (.forwarded (hopPacket packet))

theorem recv_effect (state : NodeState) (datagram : Bytes) :
    NodeEffect state (recvInto state.packet datagram) (nodeTurn state datagram).1 (nodeTurn state datagram).2 := by
  simp only [nodeTurn]
  generalize recvInto state.packet datagram = packet
  cases found : containsBuff state.cache packet.hmacSig with
  | some location => exact .duplicate location found
  | none =>
      have exhausted : ¬ (ttlOf packet.flags > 0 ∧ ttlOf packet.flags - 1 ≠ 0) → (ttlOf packet.flags).toNat ≤ 1 :=
        fun stop => Nat.le_of_lt_succ (not_le.mp fun enough => stop ((more_hops_iff _).mpr enough))
      by_cases positive : ttlOf packet.flags > 0
      · by_cases more : ttlOf packet.flags - 1 ≠ 0
        · simp only [if_pos positive, if_pos more]
          exact .forwarded found ((more_hops_iff _).mp ⟨positive, more⟩)
        · simp only [if_pos positive, if_neg more]
          exact .dropped _ found (exhausted fun both => more both.2) (Or.inl rfl)
      · simp only [if_neg positive]
        exact .dropped _ found (exhausted fun both => positive both.1) (Or.inr rfl)

theorem node_effect (state : NodeState) (packet : EmergencyPacket) :
    NodeEffect state packet (nodeTurn state packet.toBytes).1 (nodeTurn state packet.toBytes).2 := by
  have effect := recv_effect state packet.toBytes
  rwa [recv_full] at effect

theorem forwarded_effect (before after : NodeState) (packet : EmergencyPacket) (output : Turn)
    (effect : NodeEffect before packet after output) (sent : EmergencyPacket) (forwarded : output = .forwarded sent) :
    2 ≤ (ttlOf packet.flags).toNat ∧ sent = hopPacket packet ∧ containsBuff before.cache packet.hmacSig = none := by
  cases effect with
  | duplicate => simp at forwarded
  | dropped _ absent spent silent => rcases silent with rfl | rfl <;> simp at forwarded
  | forwarded absent hops => exact ⟨hops, (Turn.forwarded.inj forwarded).symm, absent⟩

end BeaconMesh.Simulator
