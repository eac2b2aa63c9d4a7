import BeaconMesh.Packet

set_option autoImplicit false

namespace BeaconMesh.Scanner

open LittleEndian

-- ble-scanner.py and udp-scanner.py share their constants, verify_hmac and
-- the unpacking of the 25 bytes.
def testCid : Nat := 0xFFFF

def ttlMask : UInt8 := 0b11100000

def packetBytes : Nat := 25

def secretKey : Bytes :=
  [0x01, 0x02, 0x03, 0x04, 0x05, 0x06, 0x07, 0x08, 0x09, 0x0a, 0x0b, 0x0c, 0x0d, 0x0e, 0x0f, 0x10,
    0x11, 0x12, 0x13, 0x14, 0x15, 0x16, 0x17, 0x18, 0x19, 0x1a, 0x1b, 0x1c, 0x1d, 0x1e, 0x1f, 0x20]

inductive Payload where
  | location (latRaw lonRaw : Int)
  | nonce (value : Nat)
deriving DecidableEq, Repr

structure Report where
  phoneHash : Nat
  timestamp : Nat
  gpsValid : Nat
  ttl : Nat
  payload : Payload
  isValid : Bool
deriving DecidableEq, Repr

-- struct.unpack('<i', bytes)
def signed32 (bytes : Bytes) : Int := (BitVec.ofNat 32 (valueOf bytes)).toInt

section Digest

variable (hmac : Bytes → Bytes → Vector UInt8 32)

def verifyHmac (payload : Bytes) : Bool :=
  let mutablePayload := (payload.take 17).set 8 ((payload.take 17).getD 8 0 &&& ttlMask)
  (hmac secretKey mutablePayload).toList.take 8 == (payload.drop 17).take 8

-- struct.unpack('<IIB8s8s', data_bytes) and the values derived from it.
def decode (dataBytes : Bytes) : Report :=
  let flags := (dataBytes.getD 8 0).toNat
  let payloadRaw := (dataBytes.drop 9).take 8
  let gpsValid := (flags >>> 7) &&& 1
  { phoneHash := valueOf (dataBytes.take 4)
    timestamp := valueOf ((dataBytes.drop 4).take 4)
    gpsValid := gpsValid
    ttl := flags &&& 0x1F
    payload :=
      if gpsValid ≠ 0 then .location (signed32 (payloadRaw.take 4)) (signed32 ((payloadRaw.drop 4).take 4))
      else .nonce (valueOf payloadRaw)
    isValid := verifyHmac hmac dataBytes }

-- The body of datagram_received around its duplicate filter.
def decodeDatagram (data : Bytes) : Option Report :=
  if data.length ≠ packetBytes + 2 then none
  else if valueOf (data.take 2) ≠ testCid then none
  else some (decode hmac (data.drop 2))

-- The callback of the BLE scanner; manufacturer_data maps company identifiers
-- to the bytes that follow them.
def callback (manufacturerData : Nat → Option Bytes) : Option Report :=
  match manufacturerData testCid with
  | none => none
  | some dataBytes => if dataBytes.length ≠ packetBytes then none else some (decode hmac dataBytes)

end Digest

-- What bleak promises of a manufacturer blob on air: manufacturer_data has what
-- follows the company identifier.
def Delivers (manufacturerData : Nat → Option Bytes) (cid : Nat) (frame : Bytes) : Prop :=
  ∀ dataBytes, manufacturerData cid = some dataBytes ↔ frame = bytesOf 2 cid ++ dataBytes

theorem gps_bit (flags : UInt8) : (flags.toNat >>> 7) &&& 1 = flags.toNat / 128 := by
  have bound := flags.toNat_lt
  rw [Nat.shiftRight_eq_div_pow, Nat.and_one_is_mod]
  omega

theorem ttl_bits (flags : UInt8) : flags.toNat &&& 0x1F = (ttlOf flags).toNat := by
  rw [ttl_of_nat]
  exact Nat.and_two_pow_sub_one_eq_mod flags.toNat 5

theorem signed_low (word : BitVec 64) : signed32 ((bytesOf 8 word.toNat).take 4) = (Int32.ofBitVec (word.extractLsb' 0 32)).toInt := by
  have low : (bytesOf 8 word.toNat).take 4 = bytesOf 4 word.toNat := by
    rw [bytes_add 4 4 word.toNat]
    exact List.take_left' (by simp)
  rw [signed32, low, value_bytes]
  have same : BitVec.ofNat 32 (word.toNat % 256 ^ 4) = word.extractLsb' 0 32 := by
    apply BitVec.eq_of_toNat_eq
    simp
  rw [same]
  rfl

theorem signed_high (word : BitVec 64) :
    signed32 (((bytesOf 8 word.toNat).drop 4).take 4) = (Int32.ofBitVec (word.extractLsb' 32 32)).toInt := by
  have high : (bytesOf 8 word.toNat).drop 4 = bytesOf 4 (word.toNat / 256 ^ 4) := by
    rw [bytes_add 4 4 word.toNat]
    exact List.drop_left' (by simp)
  have whole : (bytesOf 4 (word.toNat / 256 ^ 4)).take 4 = bytesOf 4 (word.toNat / 256 ^ 4) :=
    List.take_of_length_le (by simp)
  rw [signed32, high, whole, value_bytes]
  have same : BitVec.ofNat 32 (word.toNat / 256 ^ 4 % 256 ^ 4) = word.extractLsb' 32 32 := by
    apply BitVec.eq_of_toNat_eq
    simp [Nat.shiftRight_eq_div_pow]
  rw [same]
  rfl

theorem decode_packet (hmac : Bytes → Bytes → Vector UInt8 32) (packet : EmergencyPacket) :
    decode hmac packet.toBytes =
      { phoneHash := packet.phone.toNat
        timestamp := packet.timestamp.toNat
        gpsValid := packet.flags.toNat / 128
        ttl := (ttlOf packet.flags).toNat
        payload :=
          if packet.flags.toNat / 128 ≠ 0 then .location packet.latitude.toInt packet.longitude.toInt
          else .nonce packet.nonce.toNat
        isValid := verifyHmac hmac packet.toBytes } := by
  obtain ⟨phone, timestamp, flags, payload, _⟩ := packet.field_slices
  have phoneValue := value_bytes_of_lt 4 packet.phone.toNat packet.phone.toNat_lt
  have timestampValue := value_bytes_of_lt 4 packet.timestamp.toNat packet.timestamp.toNat_lt
  have nonceValue := value_bytes_of_lt 8 packet.payload.toNat packet.payload.isLt
  simp only [decode, phone, timestamp, flags, payload, phoneValue, timestampValue, nonceValue, gps_bit, ttl_bits,
    signed_low, signed_high]
  rfl

theorem masked_body (packet : EmergencyPacket) :
    (packet.toBytes.take 17).set 8 ((packet.toBytes.take 17).getD 8 0 &&& ttlMask) =
      (EmergencyPacket.toBytes { packet with flags := highBits packet.flags }).take 17 := by
  obtain ⟨_, _, flags, _⟩ := packet.field_slices
  have flagsByte : (packet.toBytes.take 17).getD 8 0 = packet.flags := by
    rw [List.getD_eq_getElem?_getD, List.getElem?_take_of_lt (by decide), ← List.getD_eq_getElem?_getD]
    exact flags
  rw [flagsByte, EmergencyPacket.to_bytes_flags, List.take_set]
  rfl

theorem verify_packet (hmac : Bytes → Bytes → Vector UInt8 32) (packet : EmergencyPacket) :
    verifyHmac hmac packet.toBytes =
      ((hmac secretKey ((EmergencyPacket.toBytes { packet with flags := highBits packet.flags }).take 17)).toList.take 8 ==
        bytesOf 8 packet.hmacSig.toNat) := by
  obtain ⟨_, _, _, _, signature⟩ := packet.field_slices
  dsimp only [verifyHmac]
  rw [masked_body, signature]

end BeaconMesh.Scanner
