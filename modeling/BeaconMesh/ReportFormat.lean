import BeaconMesh.Scanner

set_option autoImplicit false

namespace BeaconMesh.Scanner

open LittleEndian

-- The payload that the GPS bit announces, in the range of its field.
inductive Announced : Nat → Payload → Prop where
  | location (latitude longitude : Int32) : Announced 1 (.location latitude.toInt longitude.toInt)
  | nonce (value : UInt64) : Announced 0 (.nonce value.toNat)

structure Formed (report : Report) : Prop where
  phoneHash : report.phoneHash < 2 ^ 32
  timestamp : report.timestamp < 2 ^ 32
  ttl : report.ttl < 32
  payload : Announced report.gpsValid report.payload

-- Bits 6 and 5 of the flags, which no report shows.
def reserved (dataBytes : Bytes) : Nat := (dataBytes.getD 8 0).toNat / 32 % 4

theorem payload_halves (packet : EmergencyPacket) : EmergencyPacket.gpsPayload packet.latitude packet.longitude = packet.payload :=
  @BitVec.extractLsb'_append_extractLsb' 32 32 packet.payload

theorem packet_data (data : Bytes) (length : data.length = packetBytes) : ∃ packet : EmergencyPacket, data = packet.toBytes :=
  ⟨.ofBytes data, (EmergencyPacket.to_bytes_of_bytes data length).symm⟩

theorem decode_formed (hmac : Bytes → Bytes → Vector UInt8 32) (data : Bytes) (length : data.length = packetBytes) : Formed (decode hmac data) := by
  obtain ⟨packet, rfl⟩ := packet_data data length
  rw [decode_packet]
  refine ⟨packet.phone.toNat_lt, packet.timestamp.toNat_lt, ttl_lt packet.flags, ?_⟩
  have bound := packet.flags.toNat_lt
  dsimp only
  by_cases gps : packet.flags.toNat / 128 ≠ 0
  · have one : packet.flags.toNat / 128 = 1 := by omega
    rw [if_pos gps, one]
    exact .location packet.latitude packet.longitude
  · rw [if_neg gps, not_not.mp gps]
    exact .nonce packet.nonce

section Signing

variable (hmac : Bytes → Bytes → Vector UInt8 32)

-- The signature under which verify_hmac accepts a packet.
def validSignature (packet : EmergencyPacket) : HmacSig :=
  BitVec.ofNat 64 (valueOf ((hmac secretKey ((EmergencyPacket.toBytes { packet with flags := highBits packet.flags }).take 17)).toList.take 8))

theorem verified_iff (packet : EmergencyPacket) : verifyHmac hmac packet.toBytes = true ↔ packet.hmacSig = validSignature hmac packet := by
  have length : ((hmac secretKey ((EmergencyPacket.toBytes { packet with flags := highBits packet.flags }).take 17)).toList.take 8).length = 8 := by
    simp
  rw [verify_packet, beq_iff_eq, validSignature]
  constructor
  · intro same
    rw [same, EmergencyPacket.word64_of_bytes]
  · intro same
    exact (EmergencyPacket.bytes_of_word64 _ length).symm.trans (congrArg (fun signature => bytesOf 8 signature.toNat) same.symm)

theorem signature_unsigned (packet : EmergencyPacket) (signature : HmacSig) :
    validSignature hmac { packet with hmacSig := signature } = validSignature hmac packet := by
  have body := EmergencyPacket.to_bytes_body { packet with flags := highBits packet.flags } signature
  exact congrArg (fun bytes => BitVec.ofNat 64 (valueOf ((hmac secretKey bytes).toList.take 8))) body

-- What a report leaves open are the reserved bits and the signature.
theorem report_fields (one other : EmergencyPacket) (bits : reserved one.toBytes = reserved other.toBytes)
    (same : decode hmac one.toBytes = decode hmac other.toBytes) : { one with hmacSig := other.hmacSig } = other := by
  obtain ⟨_, _, oneFlags, _, _⟩ := one.field_slices
  obtain ⟨_, _, otherFlags, _, _⟩ := other.field_slices
  rw [reserved, reserved, oneFlags, otherFlags] at bits
  rw [decode_packet, decode_packet, Report.mk.injEq] at same
  obtain ⟨phones, timestamps, gps, ttls, payloads, _⟩ := same
  rw [ttl_of_nat, ttl_of_nat] at ttls
  have flags : one.flags = other.flags := UInt8.toNat_inj.mp (by omega)
  have payload : one.payload = other.payload := by
    rw [gps] at payloads
    by_cases located : other.flags.toNat / 128 ≠ 0
    · rw [if_pos located, if_pos located] at payloads
      obtain ⟨latitudes, longitudes⟩ := Payload.location.inj payloads
      rw [← payload_halves one, ← payload_halves other, Int32.toInt_inj.mp latitudes, Int32.toInt_inj.mp longitudes]
    · rw [if_neg located, if_neg located] at payloads
      exact BitVec.eq_of_toNat_eq (Payload.nonce.inj payloads)
  rw [EmergencyPacket.mk.injEq]
  exact ⟨UInt32.toNat_inj.mp phones, UInt32.toNat_inj.mp timestamps, flags, payload, rfl⟩

theorem valid_report_unique (one other : EmergencyPacket) (bits : reserved one.toBytes = reserved other.toBytes)
    (same : decode hmac one.toBytes = decode hmac other.toBytes) (valid : (decode hmac one.toBytes).isValid = true) : one = other := by
  have fields := report_fields hmac one other bits same
  have oneSigned := (verified_iff hmac one).mp valid
  have itsValid : (decode hmac other.toBytes).isValid = true := by
    rw [← same]
    exact valid
  have otherSigned := (verified_iff hmac other).mp itsValid
  have signature : other.hmacSig = one.hmacSig := by
    rw [otherSigned, oneSigned, ← fields, signature_unsigned]
  rw [← fields, signature]

end Signing

def payloadWord : Payload → BitVec 64
  | .location latRaw lonRaw => EmergencyPacket.gpsPayload (Int32.ofInt latRaw) (Int32.ofInt lonRaw)
  | .nonce value => BitVec.ofNat 64 value

def unsignedReport (report : Report) (bits : Nat) : EmergencyPacket where
  phone := UInt32.ofNat report.phoneHash
  timestamp := UInt32.ofNat report.timestamp
  flags := UInt8.ofNat (128 * report.gpsValid + 32 * bits + report.ttl)
  payload := payloadWord report.payload
  hmacSig := 0

def signedReport (hmac : Bytes → Bytes → Vector UInt8 32) (report : Report) (bits : Nat) : EmergencyPacket :=
  { unsignedReport report bits with hmacSig := validSignature hmac (unsignedReport report bits) }

theorem announced_bit (bit : Nat) (payload : Payload) (announced : Announced bit payload) : bit < 2 := by
  cases announced with
  | location => exact Nat.one_lt_two
  | nonce => exact Nat.zero_lt_two

theorem announced_read (packet : EmergencyPacket) (bit : Nat) (payload : Payload) (announced : Announced bit payload)
    (word : packet.payload = payloadWord payload) :
    (if bit ≠ 0 then Payload.location packet.latitude.toInt packet.longitude.toInt else .nonce packet.nonce.toNat) = payload := by
  cases announced with
  | location latitude longitude =>
      rw [payloadWord, Int32.ofInt_toInt, Int32.ofInt_toInt] at word
      have first : packet.latitude = latitude := by
        rw [EmergencyPacket.latitude, word]
        exact EmergencyPacket.latitude_gps packet latitude longitude
      have second : packet.longitude = longitude := by
        rw [EmergencyPacket.longitude, word]
        exact EmergencyPacket.longitude_gps packet latitude longitude
      rw [if_pos Nat.one_ne_zero, first, second]
  | nonce value =>
      have same : packet.nonce.toNat = value.toNat := by
        change packet.payload.toNat = value.toNat
        rw [word]
        exact Nat.mod_eq_of_lt value.toNat_lt
      rw [if_neg (not_not.mpr rfl), same]

theorem signed_report_decoded (hmac : Bytes → Bytes → Vector UInt8 32) (report : Report) (bits : Nat) (small : bits < 4) (formed : Formed report)
    (valid : report.isValid = true) :
    decode hmac (signedReport hmac report bits).toBytes = report ∧ reserved (signedReport hmac report bits).toBytes = bits := by
  obtain ⟨_, _, flagsByte, _, _⟩ := (signedReport hmac report bits).field_slices
  have bit := announced_bit report.gpsValid report.payload formed.payload
  have hops := formed.ttl
  have fits : 128 * report.gpsValid + 32 * bits + report.ttl < 2 ^ 8 := by omega
  have flags : (signedReport hmac report bits).flags.toNat = 128 * report.gpsValid + 32 * bits + report.ttl :=
    UInt8.toNat_ofNat_of_lt' fits
  have top : (signedReport hmac report bits).flags.toNat / 128 = report.gpsValid := by omega
  have low : (ttlOf (signedReport hmac report bits).flags).toNat = report.ttl := by
    rw [ttl_of_nat]
    omega
  have phone : (signedReport hmac report bits).phone.toNat = report.phoneHash := UInt32.toNat_ofNat_of_lt' formed.phoneHash
  have timestamp : (signedReport hmac report bits).timestamp.toNat = report.timestamp := UInt32.toNat_ofNat_of_lt' formed.timestamp
  have signed : verifyHmac hmac (signedReport hmac report bits).toBytes = true :=
    (verified_iff hmac _).mpr (signature_unsigned hmac (unsignedReport report bits) _).symm
  have payload := announced_read (signedReport hmac report bits) report.gpsValid report.payload formed.payload rfl
  refine ⟨?_, ?_⟩
  · rw [decode_packet, top, low, phone, timestamp, signed, payload, ← valid]
  · rw [reserved, flagsByte]
    omega

-- Every valid report stands for exactly one record of 25 bytes, once the
-- reserved bits are fixed; what is no such report is never shown.
theorem report_format (hmac : Bytes → Bytes → Vector UInt8 32) (report : Report) (valid : report.isValid = true) (bits : Nat) (small : bits < 4) :
    Formed report ↔ ∃! data : Bytes, data.length = packetBytes ∧ decode hmac data = report ∧ reserved data = bits := by
  constructor
  · intro formed
    obtain ⟨decoded, free⟩ := signed_report_decoded hmac report bits small formed valid
    refine ⟨(signedReport hmac report bits).toBytes, ⟨EmergencyPacket.to_bytes_length _, decoded, free⟩, fun data read => ?_⟩
    obtain ⟨length, shows, rest⟩ := read
    obtain ⟨packet, rfl⟩ := packet_data data length
    have isValid : (decode hmac packet.toBytes).isValid = true := by
      rw [shows]
      exact valid
    rw [valid_report_unique hmac packet (signedReport hmac report bits) (rest.trans free.symm) (shows.trans decoded.symm) isValid]
  · intro unique
    obtain ⟨data, read, _⟩ := unique
    obtain ⟨length, shows, _⟩ := read
    rw [← shows]
    exact decode_formed hmac data length

theorem echo_report_format :
    Formed ⟨7, 29714400, 1, 19, .location 444378000 260472000, true⟩ ↔ ∃! data : Bytes, data.length = packetBytes ∧
      decode (fun _ _ => Vector.replicate 32 0) data = ⟨7, 29714400, 1, 19, .location 444378000 260472000, true⟩ ∧ reserved data = 0 :=
  report_format (fun _ _ => Vector.replicate 32 0) ⟨7, 29714400, 1, 19, .location 444378000 260472000, true⟩ rfl 0 (by decide)

end BeaconMesh.Scanner
