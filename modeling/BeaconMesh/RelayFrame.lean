import BeaconMesh.EspRelay

set_option autoImplicit false

namespace BeaconMesh.Arduino

open LittleEndian

abbrev frameSize : Nat := 2 + EmergencyPacket.size

abbrev flagsAt : Nat := 10

theorem cid_value (low high : UInt8) : (low.toUInt16 ||| (high.toUInt16 <<< 8)).toNat = high.toNat * 256 + low.toNat := by
  have lowBound := low.toNat_lt
  have highBound := high.toNat_lt
  have shifted : (high.toUInt16 <<< 8).toNat = high.toNat <<< 8 := by
    rw [UInt16.toNat_shiftLeft]
    simp only [UInt8.toNat_toUInt16]
    rw [show (8 : UInt16).toNat % 16 = 8 from rfl, Nat.shiftLeft_eq]
    omega
  rw [UInt16.toNat_or, shifted, UInt8.toNat_toUInt16, Nat.or_comm,
    ← Nat.shiftLeft_add_eq_or_of_lt (by omega : low.toNat < 2 ^ 8), Nat.shiftLeft_eq]

theorem cid_bytes (low high : UInt8) (same : low.toUInt16 ||| (high.toUInt16 <<< 8) = targetCid) :
    low = 0xFF ∧ high = 0xFF := by
  have value := congrArg UInt16.toNat same
  have lowBound := low.toNat_lt
  have highBound := high.toNat_lt
  rw [cid_value, show targetCid.toNat = 65535 from rfl] at value
  have lowValue : low.toNat = (0xFF : UInt8).toNat := by
    change low.toNat = 255
    omega
  have highValue : high.toNat = (0xFF : UInt8).toNat := by
    change high.toNat = 255
    omega
  exact ⟨UInt8.toNat_inj.mp lowValue, UInt8.toNat_inj.mp highValue⟩

theorem received_packet_iff (device : Advertisement) (payloadRaw : Bytes) (packet : EmergencyPacket) :
    receivedPacket device = some (payloadRaw, packet) ↔
      device.manufacturerData = some payloadRaw ∧ payloadRaw.length = frameSize ∧
        payloadRaw.take 2 = [0xFF, 0xFF] ∧ packet = .ofBytes (payloadRaw.drop 2) := by
  cases data : device.manufacturerData with
  | none => simp [receivedPacket, data]
  | some bytes =>
      by_cases length : bytes.length = frameSize
      · cases bytes with
        | nil => exact absurd length (by decide)
        | cons low rest =>
            cases rest with
            | nil => simp [frameSize, EmergencyPacket.size] at length
            | cons high body =>
                have cid : receivedCid (low :: high :: body) = low.toUInt16 ||| (high.toUInt16 <<< 8) := rfl
                by_cases same : low.toUInt16 ||| (high.toUInt16 <<< 8) = targetCid
                · obtain ⟨lowFF, highFF⟩ := cid_bytes low high same
                  simp only [receivedPacket, data, if_pos length, cid, if_pos same, Option.some.injEq, Prod.mk.injEq]
                  constructor
                  · rintro ⟨rfl, value⟩
                    exact ⟨rfl, length, by simp [lowFF, highFF], value.symm⟩
                  · rintro ⟨rfl, _, _, value⟩
                    exact ⟨rfl, value.symm⟩
                · simp only [receivedPacket, data, if_pos length, cid, if_neg same]
                  constructor
                  · intro impossible
                    cases impossible
                  · rintro ⟨raw, _, start, _⟩
                    obtain rfl : low :: high :: body = payloadRaw := Option.some.inj raw
                    simp at start
                    exact absurd (by rw [start.1, start.2]; rfl) same
      · have drop : ¬ bytes.length = 2 + EmergencyPacket.size := length
        simp only [receivedPacket, data, if_neg drop]
        constructor
        · intro impossible
          cases impossible
        · rintro ⟨raw, bound, _⟩
          exact absurd (Option.some.inj raw ▸ bound) length

theorem received_flags (payloadRaw : Bytes) : (EmergencyPacket.ofBytes (payloadRaw.drop 2)).flags = payloadRaw.getD flagsAt 0 := by
  simp [EmergencyPacket.ofBytes, List.getD_eq_getElem?_getD]

theorem rebroadcast_frame (payloadRaw : Bytes) (length : payloadRaw.length = frameSize)
    (cid : payloadRaw.take 2 = [0xFF, 0xFF]) (flags : UInt8) :
    rebroadcastData { EmergencyPacket.ofBytes (payloadRaw.drop 2) with flags := flags } = payloadRaw.set flagsAt flags := by
  have body : (payloadRaw.drop 2).length = EmergencyPacket.size := by simp [length]
  have head : (payloadRaw.take 2).length = 2 := by simp [length]
  have marker : bytesOf 2 targetCid.toNat = payloadRaw.take 2 := by
    rw [cid]
    rfl
  rw [rebroadcastData, EmergencyPacket.to_bytes_flags, EmergencyPacket.to_bytes_of_bytes _ body, marker]
  calc
    payloadRaw.take 2 ++ (payloadRaw.drop 2).set 8 flags = (payloadRaw.take 2 ++ payloadRaw.drop 2).set flagsAt flags := by
      have inside : (payloadRaw.take 2).length ≤ flagsAt := by
        rw [head]
        decide
      rw [List.set_append_right _ _ inside, head]
      rfl
    _ = payloadRaw.set flagsAt flags := by rw [List.take_append_drop]

def sampleFrame (flags sig : UInt8) : Bytes :=
  [0xFF, 0xFF] ++ List.replicate 8 0 ++ [flags] ++ List.replicate 8 0 ++ [sig] ++ List.replicate 7 0

end BeaconMesh.Arduino
