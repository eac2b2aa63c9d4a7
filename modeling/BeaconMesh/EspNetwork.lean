import BeaconMesh.BurstJustification
import BeaconMesh.EspVictim
import BeaconMesh.Scanner
import Mathlib.Logic.Function.Basic

set_option autoImplicit false

namespace BeaconMesh.Arduino

open Sweep History LittleEndian

-- Whose packet a frame carries and how many relays it has crossed. The code
-- never reads this: it is history, kept next to the frames and the slots.
abbrev Lineage := Emergency × Nat

structure Copy where
  frame : Bytes
  lineage : Option Lineage

-- Everything ever transmitted stays on air, so that a relay may hear it at any
-- time, any number of times or never; who is in reach of whom is a choice of
-- the run.
structure Network (ι : Type) where
  relay : ι → RelayState
  carried : ι → Slot → Option Lineage
  onAir : List Copy
  datagrams : List Copy

inductive Action (ι : Type) where
  | sos (emergency : Emergency)
  | hear (relay : ι) (copy : Nat) (address : Mac) (now : Millis) (wifiConnected : Bool) (jitter : Millis)
  | loop (relay : ι) (now : Millis)

def sentDatagrams : Output → List Bytes
  | .forwarded datagrams _ _ => datagrams
  | _ => []

def startedBurst : Output → Option (Slot × Bytes)
  | .scanned _ burst => burst
  | _ => none

def oneMoreHop (lineage : Option Lineage) : Option Lineage := lineage.map fun (emergency, hops) => (emergency, hops + 1)

section Steps

variable {ι : Type} [DecidableEq ι] (hmac : Bytes → Bytes → Digest)

def recordLineage (carried : ι → Slot → Option Lineage) (i : ι) (lineage : Option Lineage) :
    Option Slot → ι → Slot → Option Lineage
  | some k => Function.update carried i (Function.update (carried i) k lineage)
  | none => carried

def Network.start : Network ι := ⟨fun _ => .start, fun _ _ => none, [], []⟩

def Network.hear (network : Network ι) (i : ι) (copy : Copy) (address : Mac) (now : Millis) (wifiConnected : Bool)
    (jitter : Millis) : Network ι :=
  let result := onResult (network.relay i) ⟨some copy.frame, address⟩ now wifiConnected jitter
  { relay := Function.update network.relay i result.1
    carried := recordLineage network.carried i copy.lineage (storedSlot result.2)
    onAir := network.onAir
    datagrams := network.datagrams ++ (sentDatagrams result.2).map fun datagram => ⟨datagram, copy.lineage⟩ }

def Network.loop (network : Network ι) (i : ι) (now : Millis) : Network ι :=
  let result := Arduino.loop (network.relay i) now
  { network with
    relay := Function.update network.relay i result.1
    onAir := match startedBurst result.2 with
      | some (k, frame) => network.onAir ++ [⟨frame, oneMoreHop (network.carried i k)⟩]
      | none => network.onAir }

def Network.step (network : Network ι) : Action ι → Network ι
  | .sos emergency =>
      { network with onAir := network.onAir ++ [⟨payloadData (built hmac emergency), some (emergency, 0)⟩] }
  | .hear i copy address now wifiConnected jitter =>
      match network.onAir[copy]? with
      | some heard => network.hear i heard address now wifiConnected jitter
      | none => network
  | .loop i now => network.loop i now

def Network.run (actions : List (Action ι)) : Network ι := actions.foldl (Network.step hmac) .start

end Steps

theorem relayed_aged (packet : EmergencyPacket) (hops : Nat) (left : 2 ≤ (ttlOf (aged packet hops).flags).toNat) :
    relayedPacket (aged packet hops) = aged packet (hops + 1) := aged_next packet hops left

theorem aged_built (hmac : Bytes → Bytes → Digest) (emergency : Emergency) : aged (built hmac emergency) 0 = built hmac emergency := by
  apply aged_start
  rw [built_flags]
  cases gps_bit_cases emergency.location with
  | inl bit =>
      rw [bit]
      decide
  | inr bit =>
      rw [bit]
      decide

section Lineages

variable {ι : Type} [DecidableEq ι] (hmac : Bytes → Bytes → Digest)

def CopyOf (emergency : Emergency) (hops : Nat) (copy : Copy) : Prop :=
  copy.lineage = some (emergency, hops) ∧ hops ≤ 19 ∧ copy.frame = rebroadcastData (aged (built hmac emergency) hops)

def GoodCopy (copy : Copy) : Prop := ∃ emergency hops, CopyOf hmac emergency hops copy

def GoodSlot (lineage : Option Lineage) (entry : CacheEntry) : Prop :=
  Pending entry → ∃ emergency hops, lineage = some (emergency, hops) ∧ hops + 1 ≤ 19 ∧
    entry.packet = aged (built hmac emergency) (hops + 1)

structure Traced (network : Network ι) : Prop where
  onAir : ∀ copy ∈ network.onAir, GoodCopy hmac copy
  datagrams : ∀ copy ∈ network.datagrams, GoodCopy hmac copy
  slots : ∀ i k, GoodSlot hmac (network.carried i k) (read (network.relay i).cache k)

theorem start_traced {ι : Type} (hmac : Bytes → Bytes → Digest) : Traced hmac (Network.start : Network ι) := by
  refine ⟨by simp [Network.start], by simp [Network.start], fun i k pending => ?_⟩
  have cell : read RelayState.start.cache k = CacheEntry.zero := read_blank k _
  simp only [Network.start, cell] at pending
  exact absurd pending.1 Bool.false_ne_true

theorem good_slot_kept (lineage : Option Lineage) (before after : CacheEntry) (kept : Kept before after)
    (good : GoodSlot hmac lineage before) : GoodSlot hmac lineage after := by
  intro pending
  obtain ⟨emergency, hops, known, bound, packet⟩ := good (kept_pending before after kept pending)
  exact ⟨emergency, hops, known, bound, kept.packet.trans packet⟩

theorem received_copy (copy : Copy) (address : Mac) (emergency : Emergency) (hops : Nat)
    (good : CopyOf hmac emergency hops copy) (payloadRaw : Bytes) (packet : EmergencyPacket)
    (received : receivedPacket ⟨some copy.frame, address⟩ = some (payloadRaw, packet)) :
    payloadRaw = copy.frame ∧ packet = aged (built hmac emergency) hops := by
  obtain ⟨data, _, _, parsed⟩ := (received_packet_iff _ _ _).mp received
  obtain rfl : copy.frame = payloadRaw := Option.some.inj data
  refine ⟨rfl, ?_⟩
  rw [parsed, good.2.2]
  exact EmergencyPacket.of_bytes_to_bytes _

theorem stored_copy (copy : Copy) (emergency : Emergency) (hops : Nat) (good : CopyOf hmac emergency hops copy)
    (before after : RelayState) (address : Mac) (now : Millis) (wifi : Bool) (jitter : Millis) (output : Output)
    (effect : CallbackEffect before ⟨some copy.frame, address⟩ now wifi jitter after output) (k : Slot)
    (here : storedSlot output = some k) : GoodSlot hmac copy.lineage (read after.cache k) := by
  intro pending
  have accepted := callback_stores _ _ _ _ _ _ _ effect k here pending.1
  generalize record : (Event.onResult ⟨some copy.frame, address⟩ now wifi jitter, output) = entry at accepted
  cases accepted with
  | queued device time drawn payloadRaw packet received left key relayed expires due =>
      simp only [Prod.mk.injEq, Event.onResult.injEq] at record
      obtain ⟨⟨rfl, _⟩, _⟩ := record
      obtain ⟨_, rfl⟩ := received_copy hmac copy address emergency hops good payloadRaw packet received
      rw [relayed, relayed_aged _ _ left]
      rw [aged_ttl] at left
      exact ⟨emergency, hops, good.1, by omega, rfl⟩
  | forwarded device time drawn payloadRaw packet newLoc received key expires marked =>
      exact absurd (pending.2.symm.trans marked) (by decide)

theorem sent_copy (copy : Copy) (before after : RelayState) (address : Mac) (now : Millis) (wifi : Bool) (jitter : Millis)
    (output : Output) (effect : CallbackEffect before ⟨some copy.frame, address⟩ now wifi jitter after output) :
    ∀ datagram ∈ sentDatagrams output, datagram = copy.frame := by
  cases effect with
  | forwarded payloadRaw packet _ newLoc received =>
      obtain ⟨data, _⟩ := (received_packet_iff _ _ _).mp received
      intro datagram member
      exact (List.eq_of_mem_replicate member).trans (Option.some.inj data).symm
  | ignored => simp [sentDatagrams]
  | duplicate => simp [sentDatagrams]
  | queued => simp [sentDatagrams]
  | dropped payloadRaw packet _ _ received offline absent spent purged burst silent =>
      rcases silent with rfl | rfl <;> simp [sentDatagrams]

theorem record_lineage_here (carried : ι → Slot → Option Lineage) (i : ι) (lineage : Option Lineage) (k : Slot) :
    recordLineage carried i lineage (some k) i k = lineage := by
  simp [recordLineage]

theorem record_lineage_elsewhere (carried : ι → Slot → Option Lineage) (i r : ι) (lineage : Option Lineage)
    (slot : Option Slot) (k : Slot) (other : r = i → slot ≠ some k) :
    recordLineage carried i lineage slot r k = carried r k := by
  cases slot with
  | none => rfl
  | some stored =>
      by_cases here : r = i
      · subst here
        have different : k ≠ stored := fun same => other rfl (congrArg some same.symm)
        simp [recordLineage, Function.update_of_ne different]
      · simp [recordLineage, Function.update_of_ne here]

theorem hear_traced (network : Network ι) (traced : Traced hmac network) (i : ι) (copy : Copy) (good : GoodCopy hmac copy)
    (address : Mac) (now : Millis) (wifi : Bool) (jitter : Millis) :
    Traced hmac (network.hear i copy address now wifi jitter) := by
  have effect := on_result_effect (network.relay i) ⟨some copy.frame, address⟩ now wifi jitter
  refine ⟨traced.onAir, fun datagram member => ?_, fun r k => ?_⟩
  · cases List.mem_append.mp member with
    | inl old => exact traced.datagrams datagram old
    | inr new =>
        obtain ⟨bytes, sent, rfl⟩ := List.mem_map.mp new
        rw [sent_copy copy _ _ address now wifi jitter _ effect bytes sent]
        exact good
  · by_cases here : r = i
    · subst here
      simp only [Network.hear, Function.update_self]
      by_cases stored : storedSlot (onResult (network.relay r) ⟨some copy.frame, address⟩ now wifi jitter).2 = some k
      · rw [stored, record_lineage_here]
        obtain ⟨emergency, hops, of⟩ := good
        exact stored_copy hmac copy emergency hops of _ _ address now wifi jitter _ effect k stored
      · rw [record_lineage_elsewhere _ _ _ _ _ _ fun _ => stored]
        exact good_slot_kept hmac _ _ _ (callback_keeps _ _ _ _ _ _ _ effect k stored) (traced.slots r k)
    · simp only [Network.hear, Function.update_of_ne here]
      rw [record_lineage_elsewhere _ _ _ _ _ _ fun same => absurd same here]
      exact traced.slots r k

theorem burst_scanned (output : Output) (k : Slot) (frame : Bytes) (burst : startedBurst output = some (k, frame)) :
    ∃ cancelled, output = .scanned cancelled (some (k, frame)) := by
  cases output with
  | scanned cancelled started => exact ⟨cancelled, by rw [show started = some (k, frame) from burst]⟩
  | ignored => simp [startedBurst] at burst
  | duplicate => simp [startedBurst] at burst
  | forwarded => simp [startedBurst] at burst
  | queued => simp [startedBurst] at burst
  | ttlExpired => simp [startedBurst] at burst
  | ttlZero => simp [startedBurst] at burst
  | transmitting => simp [startedBurst] at burst
  | burstEnded => simp [startedBurst] at burst

theorem loop_traced (network : Network ι) (traced : Traced hmac network) (i : ι) (now : Millis) :
    Traced hmac (network.loop i now) := by
  have effect := loop_effect (network.relay i) now
  refine ⟨fun copy member => ?_, traced.datagrams, fun r k => ?_⟩
  · simp only [Network.loop] at member
    cases burst : startedBurst (Arduino.loop (network.relay i) now).2 with
    | none =>
        rw [burst] at member
        exact traced.onAir copy member
    | some started =>
        obtain ⟨k, frame⟩ := started
        rw [burst] at member
        cases List.mem_append.mp member with
        | inl old => exact traced.onAir copy old
        | inr new =>
            obtain rfl := List.mem_singleton.mp new
            obtain ⟨cancelled, output⟩ := burst_scanned _ k frame burst
            have start := loop_burst _ _ now _ effect cancelled k frame output
            obtain ⟨emergency, hops, known, bound, packet⟩ := traced.slots i k start.due.1
            refine ⟨emergency, hops + 1, by simp [oneMoreHop, known], bound, ?_⟩
            rw [← packet]
            exact start.frame
  · by_cases here : r = i
    · subst here
      simp only [Network.loop, Function.update_self]
      cases loop_entry _ _ now _ effect k with
      | inl same =>
          rw [same]
          exact traced.slots r k
      | inr marked =>
          rw [marked]
          exact good_slot_kept hmac _ _ _ (kept_marked _) (traced.slots r k)
    · have relay : (network.loop i now).relay r = network.relay r := Function.update_of_ne here _ _
      rw [relay]
      exact traced.slots r k

theorem sos_traced (network : Network ι) (traced : Traced hmac network) (emergency : Emergency) :
    Traced hmac (network.step hmac (.sos emergency)) := by
  refine ⟨fun copy member => ?_, traced.datagrams, traced.slots⟩
  cases List.mem_append.mp member with
  | inl old => exact traced.onAir copy old
  | inr new =>
      obtain rfl := List.mem_singleton.mp new
      refine ⟨emergency, 0, rfl, by decide, ?_⟩
      rw [aged_built]
      rfl

theorem step_traced (network : Network ι) (traced : Traced hmac network) (action : Action ι) :
    Traced hmac (network.step hmac action) := by
  cases action with
  | sos emergency => exact sos_traced hmac network traced emergency
  | hear i copy address now wifi jitter =>
      cases found : network.onAir[copy]? with
      | none =>
          simp only [Network.step, found]
          exact traced
      | some heard =>
          simp only [Network.step, found]
          exact hear_traced hmac network traced i heard (traced.onAir heard (List.mem_of_getElem? found)) address now wifi jitter
  | loop i now => exact loop_traced hmac network traced i now

theorem run_traced (actions : List (Action ι)) : Traced hmac (Network.run hmac actions) :=
  List.foldlRecOn actions (Network.step hmac) (start_traced hmac) fun network traced action _ => step_traced hmac network traced action

end Lineages

def shown : Location → Scanner.Payload
  | .gps latitude longitude => .location latitude.toInt longitude.toInt
  | .nonce value => .nonce value.toNat

-- What a scanner should print for a victim's packet after a number of hops.
def trueReport (emergency : Emergency) (hops : Nat) : Scanner.Report where
  phoneHash := emergency.phone.toNat
  timestamp := emergency.timestamp.toNat
  gpsValid := (gpsBit emergency.location).toNat / 128
  ttl := 20 - hops
  payload := shown emergency.location
  isValid := true

section Reports

variable (hmac : Bytes → Bytes → Digest)

structure Intact (frame : Bytes) (emergency : Emergency) (hops : Nat) : Prop where
  length : frame.length = 27
  company : frame.take 2 = [0xFF, 0xFF]
  crossed : hops ≤ 19
  ttl : (ttlOf (frame.getD flagsAt 0)).toNat = 20 - hops
  range : 1 ≤ (ttlOf (frame.getD flagsAt 0)).toNat ∧ (ttlOf (frame.getD flagsAt 0)).toNat ≤ 20
  heard : ∀ manufacturerData, Scanner.Delivers manufacturerData Scanner.testCid frame →
    Scanner.callback hmac manufacturerData = some (trueReport emergency hops)
  forwarded : Scanner.decodeDatagram hmac frame = some (trueReport emergency hops)

theorem aged_high_built (emergency : Emergency) (hops : Nat) :
    highBits (aged (built hmac emergency) hops).flags = gpsBit emergency.location := by
  rw [aged_high, built_flags]
  cases gps_bit_cases emergency.location with
  | inl bit =>
      rw [bit]
      decide
  | inr bit =>
      rw [bit]
      decide

theorem aged_verified (emergency : Emergency) (hops : Nat) :
    Scanner.verifyHmac hmac (aged (built hmac emergency) hops).toBytes = true := by
  let sig := BitVec.ofNat 64 (valueOf ((hmac secretKey ((unsignedPacket emergency).toBytes.take signedSize)).toList.take 8))
  have cleared : { aged (built hmac emergency) hops with flags := highBits (aged (built hmac emergency) hops).flags } =
      { unsignedPacket emergency with hmacSig := sig } := by
    rw [aged_high_built, aged, built_eq, ← unsigned_flags]
  have sent : (aged (built hmac emergency) hops).hmacSig = sig := rfl
  have length : ((hmac secretKey ((unsignedPacket emergency).toBytes.take signedSize)).toList.take 8).length = 8 := by simp
  rw [Scanner.verify_packet, cleared, EmergencyPacket.to_bytes_body, sent, EmergencyPacket.bytes_of_word64 _ length]
  exact beq_self_eq_true _

theorem aged_payload (emergency : Emergency) (hops : Nat) :
    (if (gpsBit emergency.location).toNat / 128 ≠ 0 then
      Scanner.Payload.location (aged (built hmac emergency) hops).latitude.toInt (aged (built hmac emergency) hops).longitude.toInt
    else .nonce (aged (built hmac emergency) hops).nonce.toNat) = shown emergency.location := by
  obtain ⟨phone, timestamp, location⟩ := emergency
  cases location with
  | gps latitude longitude =>
      have first : (aged (built hmac ⟨phone, timestamp, .gps latitude longitude⟩) hops).latitude = latitude :=
        EmergencyPacket.latitude_gps (aged (built hmac ⟨phone, timestamp, .gps latitude longitude⟩) hops) latitude longitude
      have second : (aged (built hmac ⟨phone, timestamp, .gps latitude longitude⟩) hops).longitude = longitude :=
        EmergencyPacket.longitude_gps (aged (built hmac ⟨phone, timestamp, .gps latitude longitude⟩) hops) latitude longitude
      rw [if_pos (by simp only [gpsBit]; decide), first, second]
      rfl
  | nonce value =>
      rw [if_neg (by simp only [gpsBit]; decide)]
      rfl

theorem aged_report (emergency : Emergency) (hops : Nat) :
    Scanner.decode hmac (aged (built hmac emergency) hops).toBytes = trueReport emergency hops := by
  have gps : (aged (built hmac emergency) hops).flags.toNat / 128 = (gpsBit emergency.location).toNat / 128 := by
    rw [← high_bits_top, aged_high_built]
  have phone : (aged (built hmac emergency) hops).phone = emergency.phone := by
    rw [aged, built_eq, unsignedPacket]
    cases emergency.location <;> rfl
  have timestamp : (aged (built hmac emergency) hops).timestamp = emergency.timestamp := by
    rw [aged, built_eq, unsignedPacket]
    cases emergency.location <;> rfl
  rw [Scanner.decode_packet, aged_verified, aged_ttl, gps, phone, timestamp, aged_payload]
  rfl

theorem aged_intact (emergency : Emergency) (hops : Nat) (bound : hops ≤ 19) :
    Intact hmac (rebroadcastData (aged (built hmac emergency) hops)) emergency hops := by
  let packet := aged (built hmac emergency) hops
  have body : (rebroadcastData packet).drop 2 = packet.toBytes := List.drop_left' (by simp)
  have company : (rebroadcastData packet).take 2 = bytesOf 2 targetCid.toNat := List.take_left' (by simp)
  have length : (rebroadcastData packet).length = 27 := by simp [rebroadcastData, EmergencyPacket.size]
  have ttl : (ttlOf ((rebroadcastData packet).getD flagsAt 0)).toNat = 20 - hops := by
    rw [← received_flags, body, EmergencyPacket.of_bytes_to_bytes]
    exact aged_ttl _ hops
  have report := aged_report hmac emergency hops
  have cid : valueOf ((rebroadcastData packet).take 2) = Scanner.testCid := by
    rw [company]
    rfl
  have range : 1 ≤ (ttlOf ((rebroadcastData packet).getD flagsAt 0)).toNat ∧
      (ttlOf ((rebroadcastData packet).getD flagsAt 0)).toNat ≤ 20 := by
    rw [ttl]
    omega
  refine ⟨length, company, bound, ttl, range, fun manufacturerData delivers => ?_, ?_⟩
  · have heard : manufacturerData Scanner.testCid = some packet.toBytes := (delivers packet.toBytes).mpr rfl
    have size : ¬ packet.toBytes.length ≠ Scanner.packetBytes := not_not.mpr packet.to_bytes_length
    simp only [Scanner.callback, packet, heard, if_neg size, report]
  · have size : ¬ (rebroadcastData packet).length ≠ Scanner.packetBytes + 2 := not_not.mpr length
    change Scanner.decodeDatagram hmac (rebroadcastData packet) = _
    rw [Scanner.decodeDatagram, if_neg size, if_neg (not_not.mpr cid), body, report]

theorem good_copy_intact (copy : Copy) (good : GoodCopy hmac copy) :
    ∃ emergency hops, copy.lineage = some (emergency, hops) ∧ Intact hmac copy.frame emergency hops := by
  obtain ⟨emergency, hops, lineage, bound, frame⟩ := good
  refine ⟨emergency, hops, lineage, ?_⟩
  rw [frame]
  exact aged_intact hmac emergency hops bound

end Reports

-- Every frame ever on air, and every datagram a gateway sent, is some victim's
-- packet with the TTL of its hops, and both scanners read it as such.
theorem esp_frames_intact {ι : Type} [DecidableEq ι] (hmac : Bytes → Bytes → Digest) (actions : List (Action ι)) :
    (∀ copy ∈ (Network.run hmac actions).onAir, ∃ emergency hops, copy.lineage = some (emergency, hops) ∧
      Intact hmac copy.frame emergency hops) ∧
    (∀ datagram ∈ (Network.run hmac actions).datagrams, ∃ emergency hops, datagram.lineage = some (emergency, hops) ∧
      Intact hmac datagram.frame emergency hops) := by
  have traced := run_traced hmac actions
  exact ⟨fun copy member => good_copy_intact hmac copy (traced.onAir copy member),
    fun datagram member => good_copy_intact hmac datagram (traced.datagrams datagram member)⟩

end BeaconMesh.Arduino
