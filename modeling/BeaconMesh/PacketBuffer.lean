import BeaconMesh.FifoBuffer
import BeaconMesh.Lib.History
import BeaconMesh.SimulatorNode

set_option autoImplicit false

namespace BeaconMesh.Simulator

open Sweep History RingBuffer

theorem recv_signature (packet : EmergencyPacket) (datagram : Bytes) (short : datagram.length ≤ 17) :
    (recvInto packet datagram).hmacSig = packet.hmacSig := by
  have whole : datagram.take EmergencyPacket.size = datagram :=
    List.take_of_length_le (short.trans (by decide))
  have tail : (datagram ++ packet.toBytes.drop datagram.length).drop 17 = packet.toBytes.drop 17 := by
    rw [List.drop_append, List.drop_of_length_le short, List.nil_append, List.drop_drop, Nat.add_sub_cancel' short]
  obtain ⟨_, _, _, _, signature⟩ := packet.field_slices
  dsimp only [recvInto, EmergencyPacket.ofBytes]
  rw [whole, tail, signature, EmergencyPacket.word64_of_bytes]

-- Of the packet before, the signature keeps bytes of its signature only.
theorem recv_same_signature (packet other : EmergencyPacket) (datagram : Bytes) (same : packet.hmacSig = other.hmacSig) :
    (recvInto packet datagram).hmacSig = (recvInto other datagram).hmacSig := by
  rcases Nat.lt_or_ge 17 datagram.length with long | short
  · have ends : packet.toBytes.drop 17 = other.toBytes.drop 17 := by
      have tail : ∀ whole : EmergencyPacket, (whole.toBytes.drop 17).take 8 = whole.toBytes.drop 17 :=
        fun whole => List.take_of_length_le (by simp [EmergencyPacket.size])
      obtain ⟨_, _, _, _, signature⟩ := packet.field_slices
      obtain ⟨_, _, _, _, itsSignature⟩ := other.field_slices
      rw [← tail packet, ← tail other, signature, itsSignature, same]
    have kept : packet.toBytes.drop datagram.length = other.toBytes.drop datagram.length := by
      rw [← Nat.add_sub_cancel' (Nat.le_of_lt long), ← List.drop_drop, ← List.drop_drop, ends]
    rw [recvInto, recvInto, kept]
  · rw [recv_signature packet datagram short, recv_signature other datagram short, same]

theorem recv_complete (packet : EmergencyPacket) (datagram : Bytes) (complete : datagram.length = EmergencyPacket.size) :
    recvInto packet datagram = .ofBytes datagram := by
  have whole : datagram.take EmergencyPacket.size = datagram := List.take_of_length_le complete.le
  have nothing : packet.toBytes.drop datagram.length = [] := List.drop_of_length_le (by simp [complete])
  rw [recvInto, whole, nothing, List.append_nil]

theorem add_changes (cache : CircularBuffer) (val : HmacSig) (missing : containsBuff cache val = none) :
    (addToBuff cache val).2 ≠ cache := by
  intro same
  have rings := add_absent cache val missing
  rw [same] at rings
  have next : (rowOf cache.next).val = ((rowOf cache.next).val + 1) % hashes := congrArg Fin.val (congrArg Ring.next rings)
  have bound : (rowOf cache.next).val < 256 := (rowOf cache.next).isLt
  dsimp only [hashes] at next
  omega

theorem add_contains (cache : CircularBuffer) (val : HmacSig) (missing : containsBuff cache val = none) :
    containsBuff (addToBuff cache val).2 val ≠ none := by
  intro absent
  have rings := add_absent cache val missing
  have row : read (addToBuff cache val).2.buff (rowOf cache.next) = val := by
    change read (addToBuff cache val).2.ring.rows (rowOf cache.next) = val
    rw [rings]
    exact read_write_self _ _ _
  exact (contains_none_iff _ _).mp absent _ row

-- The signature that lies in the packet buffer is always in the cache.
def BufferCached (state : NodeState) : Prop := containsBuff state.cache state.packet.hmacSig ≠ none

theorem effect_cached (before after : NodeState) (packet : EmergencyPacket) (output : Turn)
    (effect : NodeEffect before packet after output) : BufferCached after := by
  cases effect with
  | duplicate location present => exact fun absent => Option.some_ne_none _ (present.symm.trans absent)
  | dropped _ absent => exact add_contains before.cache packet.hmacSig absent
  | forwarded absent => exact add_contains before.cache packet.hmacSig absent

def nodeState (datagrams : List Bytes) : NodeState := final nodeTurn .zero datagrams

def nodeLog (datagrams : List Bytes) : List (Bytes × Turn) := log nodeTurn .zero datagrams

theorem buffer_cached (datagrams : List Bytes) : BufferCached (nodeState datagrams) := by
  have zero : BufferCached .zero := fun absent => (contains_none_iff _ _).mp absent 0 (read_blank _ _)
  exact state_invariant nodeTurn .zero BufferCached zero
    (fun state datagram _ => effect_cached state _ _ _ (recv_effect state datagram)) datagrams

-- The signature that each datagram brings, with what the ones before it have
-- left in the packet variable, and what all of them leave there.
def receive (packet : EmergencyPacket) (datagram : Bytes) : EmergencyPacket × HmacSig :=
  (recvInto packet datagram, (recvInto packet datagram).hmacSig)

def receivedSignatures (datagrams : List Bytes) : List HmacSig := (log receive .zero datagrams).map Prod.snd

def leftOver (datagrams : List Bytes) : EmergencyPacket := final receive .zero datagrams

-- A program that calls addToBuff for each signature and leaves it in place.
structure CallsAdd (step : NodeState → Bytes → NodeState × Turn) : Prop where
  cache : ∀ state datagram, (step state datagram).1.cache = (addToBuff state.cache (recvInto state.packet datagram).hmacSig).2
  packet : ∀ state datagram, (step state datagram).1.packet.hmacSig = (recvInto state.packet datagram).hmacSig

theorem effect_calls_add (before after : NodeState) (packet : EmergencyPacket) (output : Turn) (effect : NodeEffect before packet after output) :
    after.cache = (addToBuff before.cache packet.hmacSig).2 ∧ after.packet.hmacSig = packet.hmacSig := by
  cases effect with
  | duplicate location present => exact ⟨(add_present _ _ (by simp [present])).symm, rfl⟩
  | dropped _ absent => exact ⟨rfl, rfl⟩
  | forwarded absent => exact ⟨rfl, rfl⟩

theorem node_calls_add : CallsAdd nodeTurn where
  cache state datagram := (effect_calls_add _ _ _ _ (recv_effect state datagram)).1
  packet state datagram := (effect_calls_add _ _ _ _ (recv_effect state datagram)).2

theorem run_receives (step : NodeState → Bytes → NodeState × Turn) (calls : CallsAdd step) (datagrams : List Bytes) :
    (final step .zero datagrams).cache = bufferAfter (receivedSignatures datagrams) ∧
      (final step .zero datagrams).packet.hmacSig = (leftOver datagrams).hmacSig := by
  induction datagrams using List.reverseRecOn with
  | nil => exact ⟨rfl, rfl⟩
  | append_singleton past datagram ih =>
      obtain ⟨cache, packet⟩ := ih
      have same := recv_same_signature _ _ datagram packet
      have snoc : receivedSignatures (past ++ [datagram]) = receivedSignatures past ++ [(recvInto (leftOver past) datagram).hmacSig] := by
        rw [receivedSignatures, log_snoc, List.map_append]
        rfl
      rw [leftOver, final_snoc, final_snoc, calls.cache, calls.packet, snoc, buffer_after_snoc, cache, same]
      exact ⟨rfl, rfl⟩

structure HopOf (datagram : Bytes) (packet : EmergencyPacket) : Prop where
  complete : datagram.length = 25
  bytes : packet.toBytes = datagram.set 8 packet.flags
  high : highBits packet.flags = highBits (datagram.getD 8 0)
  ttl : (ttlOf packet.flags).toNat + 1 = (ttlOf (datagram.getD 8 0)).toNat

theorem hop_of_datagram (datagram : Bytes) (complete : datagram.length = 25)
    (hops : 2 ≤ (ttlOf (EmergencyPacket.ofBytes datagram).flags).toNat) : HopOf datagram (hopPacket (.ofBytes datagram)) := by
  have next := ttl_next_hop (EmergencyPacket.ofBytes datagram).flags (by omega)
  refine ⟨complete, ?_, high_with_ttl _ _ (ttl_pred_small _ (by omega)), ?_⟩
  · rw [hopPacket, EmergencyPacket.to_bytes_flags, EmergencyPacket.to_bytes_of_bytes datagram complete]
  · change (ttlOf (withTtl _ _)).toNat + 1 = (ttlOf (EmergencyPacket.ofBytes datagram).flags).toNat
    omega

-- What turn i forwards is one whole datagram of the run, a hop older; a
-- shorter datagram is not forwarded and not remembered.
structure OnlySent (datagrams : List Bytes) (i : Nat) (datagram : Bytes) (output : Turn) : Prop where
  forwards : ∀ packet, output = .forwarded packet → ∃ m whole, m ≤ i ∧ datagrams[m]? = some whole ∧ HopOf whole packet
  silent : datagram.length < 25 → ∀ packet, output ≠ .forwarded packet
  cache : datagram.length < 25 → (nodeState (datagrams.take (i + 1))).cache = (nodeState (datagrams.take i)).cache

def ForwardsOnlySent (datagrams : List Bytes) : Prop :=
  ∀ i datagram output, (nodeLog datagrams)[i]? = some (datagram, output) → OnlySent datagrams i datagram output

-- A datagram that ends inside the signature brings, together with what is left
-- over of the ones before, a signature that addToBuff still holds from them.
def MixturesCached (datagrams : List Bytes) : Prop :=
  ∀ past datagram later, datagrams = past ++ datagram :: later → 17 < datagram.length → datagram.length < 25 →
    containsBuff (bufferAfter (receivedSignatures past)) (recvInto (leftOver past) datagram).hmacSig ≠ none

theorem mixture_lookup (past : List Bytes) (datagram : Bytes) :
    containsBuff (nodeState past).cache (recvInto (nodeState past).packet datagram).hmacSig =
      containsBuff (bufferAfter (receivedSignatures past)) (recvInto (leftOver past) datagram).hmacSig := by
  obtain ⟨cache, packet⟩ := run_receives nodeTurn node_calls_add past
  rw [nodeState, cache, recv_same_signature _ _ datagram packet]

theorem short_cached (past : List Bytes) (datagram : Bytes)
    (mixture : 17 < datagram.length →
      containsBuff (nodeState past).cache (recvInto (nodeState past).packet datagram).hmacSig ≠ none) :
    containsBuff (nodeState past).cache (recvInto (nodeState past).packet datagram).hmacSig ≠ none := by
  rcases Nat.lt_or_ge 17 datagram.length with long | head
  · exact mixture long
  · rw [recv_signature _ datagram head]
    exact buffer_cached past

theorem known_effect (before after : NodeState) (packet : EmergencyPacket) (output : Turn)
    (effect : NodeEffect before packet after output) (known : containsBuff before.cache packet.hmacSig ≠ none) :
    after.cache = before.cache ∧ ∀ forwarded, output ≠ .forwarded forwarded := by
  cases effect with
  | duplicate location present => exact ⟨rfl, fun forwarded same => by simp at same⟩
  | dropped _ absent => exact absurd absent known
  | forwarded absent => exact absurd absent known

theorem unknown_effect (before after : NodeState) (packet : EmergencyPacket) (output : Turn)
    (effect : NodeEffect before packet after output) (unknown : containsBuff before.cache packet.hmacSig = none) :
    after.cache ≠ before.cache := by
  cases effect with
  | duplicate location present => exact absurd (present.symm.trans unknown) (Option.some_ne_none _)
  | dropped _ absent => exact add_changes before.cache packet.hmacSig absent
  | forwarded absent => exact add_changes before.cache packet.hmacSig absent

theorem mixtures_only_sent (datagrams : List Bytes) (lengths : ∀ datagram ∈ datagrams, datagram.length ≤ 25)
    (mixtures : MixturesCached datagrams) (i : Nat) (datagram : Bytes) (output : Turn)
    (found : (nodeLog datagrams)[i]? = some (datagram, output)) : OnlySent datagrams i datagram output := by
  obtain ⟨event, later, split, value⟩ := log_entry nodeTurn .zero datagrams i _ found
  rw [Prod.mk.injEq] at value
  obtain ⟨rfl, rfl⟩ := value
  have next : (nodeState (datagrams.take (i + 1))) = (nodeTurn (nodeState (datagrams.take i)) datagram).1 :=
    (log_at nodeTurn .zero datagrams i _ found).2
  have effect := recv_effect (nodeState (datagrams.take i)) datagram
  have known : datagram.length < 25 →
      containsBuff (nodeState (datagrams.take i)).cache (recvInto (nodeState (datagrams.take i)).packet datagram).hmacSig ≠ none :=
    fun short => short_cached _ datagram fun long absent => mixtures _ datagram later split long short
      ((mixture_lookup _ datagram).symm.trans absent)
  have member : datagrams[i]? = some datagram := by
    rw [← log_events nodeTurn .zero datagrams, List.getElem?_map]
    exact congrArg (Option.map Prod.fst) found
  refine ⟨fun packet forwarded => ?_, fun short packet => ?_, fun short => ?_⟩
  · obtain ⟨hops, rfl, absent⟩ := forwarded_effect _ _ _ _ effect packet forwarded
    have complete : datagram.length = 25 := by
      have bound := lengths datagram (List.mem_of_getElem? member)
      by_contra short
      exact known (by omega) absent
    rw [recv_complete _ datagram complete] at hops ⊢
    exact ⟨i, datagram, le_rfl, member, hop_of_datagram datagram complete hops⟩
  · exact (known_effect _ _ _ _ effect (known short)).2 packet
  · rw [next]
    exact (known_effect _ _ _ _ effect (known short)).1

-- recvBytes is never looked at: a relay forwards only what somebody sent
-- exactly as long as no short datagram completes to an unseen signature.
theorem relay_forwards_only_sent (datagrams : List Bytes) (lengths : ∀ datagram ∈ datagrams, datagram.length ≤ 25) :
    ForwardsOnlySent datagrams ↔ MixturesCached datagrams := by
  constructor
  · intro only past datagram later split long short missing
    have absent := (mixture_lookup past datagram).trans missing
    have before : datagrams.take past.length = past := by
      rw [split]
      exact List.take_left
    have found : (nodeLog datagrams)[past.length]? = some (datagram, (nodeTurn (nodeState past) datagram).2) := by
      rw [split]
      exact log_split nodeTurn .zero past datagram later
    have next : nodeState (datagrams.take (past.length + 1)) = (nodeTurn (nodeState past) datagram).1 := by
      rw [nodeState, (log_at nodeTurn .zero datagrams past.length _ found).2, before]
      rfl
    have kept := (only past.length datagram _ found).cache short
    rw [next, before] at kept
    exact unknown_effect _ _ _ _ (recv_effect (nodeState past) datagram) absent kept
  · intro mixtures i datagram output found
    exact mixtures_only_sent datagrams lengths mixtures i datagram output found

def sampleDatagram (flags first last : UInt8) : Bytes :=
  List.replicate 8 0 ++ [flags] ++ List.replicate 8 0 ++ [first] ++ List.replicate 6 0 ++ [last]

def truncatedRun : List Bytes := [sampleDatagram 20 1 7, (sampleDatagram 20 1 9).take 24]

theorem truncated_run_only_sent : ForwardsOnlySent truncatedRun ↔ MixturesCached truncatedRun :=
  relay_forwards_only_sent truncatedRun (by decide)

-- The last byte of a cut packet is taken from the packet before it.
def splicedRun : List Bytes := [sampleDatagram 20 1 7, (sampleDatagram 20 2 9).take 24]

theorem spliced_packet_forwarded :
    ¬ ∀ datagrams, (∀ datagram ∈ datagrams, datagram.length ≤ 25) → ForwardsOnlySent datagrams := by
  intro claimed
  have found : (nodeLog splicedRun)[1]? =
      some ((sampleDatagram 20 2 9).take 24, .forwarded (.ofBytes (sampleDatagram 19 2 7))) := by decide +kernel
  obtain ⟨m, whole, before, member, hop⟩ := (claimed splicedRun (by decide) 1 _ _ found).forwards _ rfl
  cases Nat.le_one_iff_eq_zero_or_eq_one.mp before with
  | inl start =>
      subst start
      obtain rfl : sampleDatagram 20 1 7 = whole := by simpa [splicedRun] using member
      have byte := congrArg (fun bytes => bytes.getD 17 0) hop.bytes
      exact absurd byte (by decide)
  | inr last =>
      subst last
      obtain rfl : (sampleDatagram 20 2 9).take 24 = whole := by simpa [splicedRun] using member
      exact absurd hop.complete (by decide)

end BeaconMesh.Simulator
