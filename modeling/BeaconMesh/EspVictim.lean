import BeaconMesh.EspRelay

set_option autoImplicit false

namespace BeaconMesh.Arduino

open LittleEndian

abbrev Digest := Vector UInt8 32

def secretKey : Bytes :=
  [0x01, 0x02, 0x03, 0x04, 0x05, 0x06, 0x07, 0x08, 0x09, 0x0a, 0x0b, 0x0c, 0x0d, 0x0e, 0x0f, 0x10,
    0x11, 0x12, 0x13, 0x14, 0x15, 0x16, 0x17, 0x18, 0x19, 0x1a, 0x1b, 0x1c, 0x1d, 0x1e, 0x1f, 0x20]

def victimTtl : UInt8 := 20

def victimCid : UInt16 := 0xFFFF

-- USE_GPS with the two test coordinates, or the nonce.
inductive Location where
  | gps (latitude longitude : Int32)
  | nonce (value : UInt64)
deriving DecidableEq, Repr

-- What one call of buildEmergencyPacket reads: the MurmurHash3 of the phone
-- number, the minute counter and the payload.
structure Emergency where
  phone : UInt32
  timestamp : UInt32
  location : Location
deriving DecidableEq, Repr

def unsignedPacket (emergency : Emergency) : EmergencyPacket :=
  let packet := { EmergencyPacket.zero with phone := emergency.phone, timestamp := emergency.timestamp }
  match emergency.location with
  | .gps latitude longitude =>
      { packet with
        payload := EmergencyPacket.gpsPayload latitude longitude
        flags := packet.flags ||| ((1 : UInt8) <<< 7) }
  | .nonce value => { packet with payload := value.toBitVec }

-- sizeof(packet) - sizeof(packet.hmac_sig)
def signedSize : Nat := EmergencyPacket.size - 8

-- mbedtls_md_hmac is a parameter; none is a missing md_info or a non-zero
-- return value, after which the signature stays zero.
def buildEmergencyPacket (mdHmac : Bytes → Bytes → Option Digest) (emergency : Emergency) : EmergencyPacket :=
  let packet := unsignedPacket emergency
  let signed := match mdHmac secretKey (packet.toBytes.take signedSize) with
    | some hash => { packet with hmacSig := BitVec.ofNat 64 (valueOf (hash.toList.take 8)) }
    | none => packet
  { signed with flags := signed.flags ||| victimTtl }

def payloadData (packet : EmergencyPacket) : Bytes := bytesOf 2 victimCid.toNat ++ packet.toBytes

def gpsBit : Location → UInt8
  | .gps _ _ => 0x80
  | .nonce _ => 0

theorem gps_bit_cases (location : Location) : gpsBit location = 0x80 ∨ gpsBit location = 0 := by
  cases location with
  | gps latitude longitude => exact Or.inl rfl
  | nonce value => exact Or.inr rfl

theorem unsigned_flags (emergency : Emergency) : (unsignedPacket emergency).flags = gpsBit emergency.location := by
  obtain ⟨phone, timestamp, location⟩ := emergency
  cases location with
  | gps latitude longitude =>
      change (0 : UInt8) ||| ((1 : UInt8) <<< 7) = 0x80
      decide
  | nonce value => rfl

section Signed

variable (hmac : Bytes → Bytes → Digest)

def built (emergency : Emergency) : EmergencyPacket := buildEmergencyPacket (fun key bytes => some (hmac key bytes)) emergency

theorem built_flags (emergency : Emergency) : (built hmac emergency).flags = gpsBit emergency.location ||| victimTtl := by
  rw [← unsigned_flags]
  rfl

theorem built_eq (emergency : Emergency) : built hmac emergency =
    { unsignedPacket emergency with
      flags := gpsBit emergency.location ||| victimTtl
      hmacSig := BitVec.ofNat 64 (valueOf ((hmac secretKey ((unsignedPacket emergency).toBytes.take signedSize)).toList.take 8)) } := by
  rw [← unsigned_flags]
  rfl

end Signed

end BeaconMesh.Arduino
