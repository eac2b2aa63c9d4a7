import BeaconMesh.SimulatorListener
import BeaconMesh.Traffic

set_option autoImplicit false

namespace BeaconMesh.Simulator

open Flood

variable {ν ζ : Type}

section Origins

def Descends (sent : List EmergencyPacket) (copy : EmergencyPacket) : Prop :=
  ∃ packet ∈ sent, ∃ hops, hops ≤ 19 ∧ copy = aged packet hops

structure AllDescend (traffic : Traffic ν) : Prop where
  flying : ∀ copy ∈ traffic.inFlight, Descends traffic.sent copy.2
  handled : ∀ n, ∀ handled ∈ traffic.history n, Descends traffic.sent handled.1

def SentFull (traffic : Traffic ν) : Prop := ∀ packet ∈ traffic.sent, (ttlOf packet.flags).toNat = 20

theorem descends_more (sent more : List EmergencyPacket) (copy : EmergencyPacket) (known : Descends sent copy) :
    Descends (sent ++ more) copy := by
  obtain ⟨packet, member, hops, few, same⟩ := known
  exact ⟨packet, List.mem_append_left more member, hops, few, same⟩

theorem descends_hop (sent : List EmergencyPacket) (copy : EmergencyPacket) (known : Descends sent copy)
    (left : 2 ≤ (ttlOf copy.flags).toNat) : Descends sent (hopPacket copy) := by
  obtain ⟨packet, member, hops, _, rfl⟩ := known
  have ttl := left
  rw [aged_ttl] at ttl
  exact ⟨packet, member, hops + 1, by omega, hop_aged packet hops left⟩

variable [Fintype ν] [DecidableEq ζ] (w : Wiring ν ζ)

theorem rebroadcast_descends (sent : List EmergencyPacket) (n : ν) (before after : NodeState) (packet : EmergencyPacket) (turn : Turn)
    (effect : TurnEffect w n before packet after turn) (known : Descends sent packet) (copy : ν × EmergencyPacket)
    (added : copy ∈ rebroadcasts w n (forwardedPacket turn)) : Descends sent copy.2 := by
  obtain ⟨left, same⟩ := rebroadcast_hop w n packet before after turn effect copy added
  rw [same]
  exact descends_hop sent packet known left

theorem descend_sos (traffic : Traffic ν) (z : ζ) (packet : EmergencyPacket) (all : AllDescend traffic)
    (full : (ttlOf packet.flags).toNat = 20) : AllDescend (traffic.sos w z packet) := by
  refine ⟨fun copy member => ?_, fun n handled member => descends_more _ _ _ (all.handled n handled member)⟩
  cases Multiset.mem_add.mp member with
  | inl old => exact descends_more _ _ _ (all.flying copy old)
  | inr new =>
      have same := ((mem_broadcast w z packet copy.2 copy.1).mp new).2
      refine ⟨packet, List.mem_append_right _ (List.mem_singleton_self packet), 0, Nat.zero_le _, ?_⟩
      rw [aged_start packet full, same]

variable [DecidableEq ν]

theorem descend_deliver (traffic : Traffic ν) (all : AllDescend traffic) (copy : ν × EmergencyPacket)
    (flying : copy ∈ traffic.inFlight) : AllDescend (traffic.deliver w copy) := by
  have known := all.flying copy flying
  refine ⟨fun other member => ?_, fun n handled member => ?_⟩
  · cases Multiset.mem_add.mp member with
    | inl old => exact all.flying other (Multiset.mem_of_mem_erase old)
    | inr new =>
        have effect := turn_effect w copy.1 (traffic.node copy.1) copy.2
        exact rebroadcast_descends w traffic.sent copy.1 _ _ copy.2 _ effect known other new
  · by_cases here : n = copy.1
    · subst here
      simp only [Traffic.deliver, Function.update_self] at member
      cases List.mem_append.mp member with
      | inl old => exact all.handled copy.1 handled old
      | inr new =>
          rw [List.mem_singleton.mp new]
          exact known
    · simp only [Traffic.deliver, Function.update_of_ne here] at member
      exact all.handled n handled member

theorem descend_step (signatures : Finset HmacSig) (before after : Traffic ν) (step : UnreliableStep w signatures before after)
    (earlier : SentFull before → AllDescend before) (full : SentFull after) : AllDescend after := by
  cases step with
  | sos z packet =>
      have all := earlier fun other member => full other (List.mem_append_left [packet] member)
      exact descend_sos w before z packet all (full packet (List.mem_append_right _ (List.mem_singleton_self packet)))
  | delivery copy flying => exact descend_deliver w before (earlier full) copy flying
  | lost copy =>
      have all := earlier full
      exact ⟨fun other member => all.flying other (Multiset.mem_of_mem_erase member), all.handled⟩
  | repeated copy flying =>
      have all := earlier full
      refine ⟨fun other member => ?_, all.handled⟩
      cases Multiset.mem_add.mp member with
      | inl old => exact all.flying other old
      | inr again =>
          rw [Multiset.mem_singleton.mp again]
          exact all.flying copy flying

-- Relays make up nothing: what is under way comes from what was sent.
theorem descend_run (signatures : Finset HmacSig) (traffic : Traffic ν)
    (run : Relation.ReflTransGen (UnreliableStep w signatures) .start traffic) (full : SentFull traffic) : AllDescend traffic := by
  induction run with
  | refl => exact ⟨fun copy member => absurd member (Multiset.notMem_zero copy), fun _ _ member => absurd member List.not_mem_nil⟩
  | tail _ step earlier => exact descend_step w signatures _ _ step earlier full

end Origins

section Listening

variable (hmac : Bytes → Bytes → Vector UInt8 32)

-- What the listener should print for a victim's command line.
def trueHeard (arguments : Arguments) (hops : Nat) : Heard :=
  { phone := arguments.phone
    timestamp := arguments.timestamp
    flags := withTtl (if arguments.gps = "1" then 0x80 else 0) (UInt8.ofNat (20 - hops))
    location := sentLocation arguments }

def Commanded (packet : EmergencyPacket) : Prop :=
  ∃ arguments : Arguments, (arguments.gps = "0" ∨ arguments.gps = "1") ∧ packet = victimPacket hmac arguments

-- A listener that receives this prints the command line of a victim that has
-- sent, at a TTL between 1 and 20.
def HeardTruly (sent : List EmergencyPacket) (copy : EmergencyPacket) : Prop :=
  ∃ arguments hops, victimPacket hmac arguments ∈ sent ∧ hops ≤ 19 ∧ listen copy.toBytes = trueHeard arguments hops

theorem aged_flags (arguments : Arguments) (mode : arguments.gps = "0" ∨ arguments.gps = "1") (hops : Nat) :
    (aged (victimPacket hmac arguments) hops).flags = (trueHeard arguments hops).flags := by
  have high := victim_high hmac arguments
  cases mode with
  | inl nonce =>
      rw [(network_nonce arguments nonce).1] at high
      rw [trueHeard, if_neg (by rw [nonce]; decide)]
      exact congrArg (· ||| UInt8.ofNat (20 - hops)) (high.trans (by decide : (0 : UInt8) = highBits 0))
  | inr gps =>
      rw [(network_gps arguments gps).1] at high
      rw [trueHeard, if_pos gps]
      exact congrArg (· ||| UInt8.ofNat (20 - hops)) (high.trans (by decide : (0x80 : UInt8) = highBits 0x80))

theorem listen_aged (arguments : Arguments) (mode : arguments.gps = "0" ∨ arguments.gps = "1") (hops : Nat) :
    listen (aged (victimPacket hmac arguments) hops).toBytes = trueHeard arguments hops := by
  obtain ⟨phone, timestamp, flags⟩ := decoded_header hmac arguments hops
  have location := decoded_location hmac arguments hops mode
  rw [aged_flags hmac arguments mode hops] at flags
  generalize listen (aged (victimPacket hmac arguments) hops).toBytes = heard at phone timestamp flags location
  cases heard
  simp only at phone timestamp flags location
  rw [phone, timestamp, flags, location]
  rfl

theorem descends_heard (sent : List EmergencyPacket) (commanded : ∀ packet ∈ sent, Commanded hmac packet) (copy : EmergencyPacket)
    (known : Descends sent copy) : HeardTruly hmac sent copy := by
  obtain ⟨packet, member, hops, few, rfl⟩ := known
  obtain ⟨arguments, mode, rfl⟩ := commanded packet member
  exact ⟨arguments, hops, member, few, listen_aged hmac arguments mode hops⟩

-- Networks that lose, repeat and reorder, and relays with any caches, show a
-- listener nothing but what victims were told to send.
theorem overheard_truly [Fintype ν] [DecidableEq ν] [DecidableEq ζ] (w : Wiring ν ζ) (signatures : Finset HmacSig) (traffic : Traffic ν)
    (run : Relation.ReflTransGen (UnreliableStep w signatures) .start traffic)
    (commanded : ∀ packet ∈ traffic.sent, Commanded hmac packet) :
    (∀ copy ∈ traffic.inFlight, HeardTruly hmac traffic.sent copy.2) ∧
      ∀ n, ∀ handled ∈ traffic.history n, HeardTruly hmac traffic.sent handled.1 := by
  have full : SentFull traffic := by
    intro packet member
    obtain ⟨arguments, _, rfl⟩ := commanded packet member
    exact victim_full hmac arguments
  have all := descend_run w signatures traffic run full
  exact ⟨fun copy member => descends_heard hmac _ commanded copy.2 (all.flying copy member),
    fun n handled member => descends_heard hmac _ commanded handled.1 (all.handled n handled member)⟩

end Listening

def overheardPacket : EmergencyPacket := victimPacket lengthDigest sampleArguments

def overheardCorridor (relay : Fin 3) : Traffic (Fin 3) :=
  (Traffic.start.sos corridor 0 overheardPacket).deliver corridor (relay, overheardPacket)

theorem overheard_corridor_run :
    Relation.ReflTransGen (UnreliableStep corridor {overheardPacket.hmacSig}) .start (overheardCorridor 0) := by
  have sent : Relation.ReflTransGen (UnreliableStep corridor {overheardPacket.hmacSig}) .start (Traffic.start.sos corridor 0 overheardPacket) :=
    .single (.sos .start 0 overheardPacket (Finset.mem_singleton_self _))
  have heard : (0, overheardPacket) ∈ (Traffic.start.sos corridor 0 overheardPacket).inFlight := by decide +kernel
  exact sent.tail (.delivery _ (0, overheardPacket) heard)

theorem corridor_overheard :
    (1, aged overheardPacket 1) ∈ (overheardCorridor 0).inFlight ∧
    (∀ copy ∈ (overheardCorridor 0).inFlight, HeardTruly lengthDigest (overheardCorridor 0).sent copy.2) ∧
      ∀ n, ∀ handled ∈ (overheardCorridor 0).history n, HeardTruly lengthDigest (overheardCorridor 0).sent handled.1 := by
  refine ⟨by decide +kernel, overheard_truly lengthDigest corridor {overheardPacket.hmacSig} (overheardCorridor 0) overheard_corridor_run ?_⟩
  intro packet member
  exact ⟨sampleArguments, Or.inr rfl, List.mem_singleton.mp member⟩

end BeaconMesh.Simulator
