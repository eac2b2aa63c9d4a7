import BeaconMesh.Lib.LittleEndian

set_option autoImplicit false

namespace BeaconMesh

open LittleEndian

abbrev Bytes := List UInt8

-- Byte arrays that the code only copies and compares (memcpy, memcmp) are
-- held as the word their bytes spell in memory order.
abbrev HmacSig := BitVec 64

-- emergencyPacket.h, packed and little-endian. The payload union is its raw
-- eight bytes; its gps and nonce members are views of that word.
structure EmergencyPacket where
  phone : UInt32
  timestamp : UInt32
  flags : UInt8
  payload : BitVec 64
  hmacSig : HmacSig
deriving DecidableEq, Repr

namespace EmergencyPacket

-- memset(&packet, 0, sizeof(packet))
def zero : EmergencyPacket := ⟨0, 0, 0, 0, 0⟩

def size : Nat := 25

def latitude (packet : EmergencyPacket) : Int32 := Int32.ofBitVec (packet.payload.extractLsb' 0 32)

def longitude (packet : EmergencyPacket) : Int32 := Int32.ofBitVec (packet.payload.extractLsb' 32 32)

def nonce (packet : EmergencyPacket) : UInt64 := UInt64.ofBitVec packet.payload

def gpsPayload (latitude longitude : Int32) : BitVec 64 := longitude.toBitVec ++ latitude.toBitVec

def toBytes (packet : EmergencyPacket) : Bytes :=
  bytesOf 4 packet.phone.toNat ++ bytesOf 4 packet.timestamp.toNat ++ [packet.flags] ++
    bytesOf 8 packet.payload.toNat ++ bytesOf 8 packet.hmacSig.toNat

-- memcpy(&packet, bytes, sizeof(emergencyPacket))
def ofBytes (bytes : Bytes) : EmergencyPacket where
  phone := UInt32.ofNat (valueOf (bytes.take 4))
  timestamp := UInt32.ofNat (valueOf ((bytes.drop 4).take 4))
  flags := bytes.getD 8 0
  payload := BitVec.ofNat 64 (valueOf ((bytes.drop 9).take 8))
  hmacSig := BitVec.ofNat 64 (valueOf ((bytes.drop 17).take 8))

@[simp] theorem to_bytes_length (packet : EmergencyPacket) : packet.toBytes.length = size := by
  simp [toBytes, size]

theorem word32_of_bytes (word : UInt32) : UInt32.ofNat (valueOf (bytesOf 4 word.toNat)) = word := by
  rw [value_bytes_of_lt 4 word.toNat word.toNat_lt]
  simp

theorem word64_of_bytes (word : BitVec 64) : BitVec.ofNat 64 (valueOf (bytesOf 8 word.toNat)) = word := by
  rw [value_bytes_of_lt 8 word.toNat word.isLt]
  simp

theorem field_slices (packet : EmergencyPacket) :
    packet.toBytes.take 4 = bytesOf 4 packet.phone.toNat ∧
      (packet.toBytes.drop 4).take 4 = bytesOf 4 packet.timestamp.toNat ∧
      packet.toBytes.getD 8 0 = packet.flags ∧
      (packet.toBytes.drop 9).take 8 = bytesOf 8 packet.payload.toNat ∧
      (packet.toBytes.drop 17).take 8 = bytesOf 8 packet.hmacSig.toNat := by
  have short : ∀ word count, 4 ≤ count → List.drop count (bytesOf 4 word) = [] :=
    fun word count enough => List.drop_eq_nil_of_le (by simpa using enough)
  have whole : ∀ word, List.take 8 (bytesOf 8 word) = bytesOf 8 word :=
    fun word => List.take_of_length_le (by simp)
  simp [toBytes, List.drop_append, short, whole]

theorem of_bytes_to_bytes (packet : EmergencyPacket) : ofBytes packet.toBytes = packet := by
  obtain ⟨phone, timestamp, flags, payload, hmacSig⟩ := field_slices packet
  rw [ofBytes, phone, timestamp, flags, payload, hmacSig]
  simp only [word32_of_bytes, word64_of_bytes]

theorem bytes_of_word32 (bytes : Bytes) (length : bytes.length = 4) :
    bytesOf 4 (UInt32.ofNat (valueOf bytes)).toNat = bytes := by
  have bound := value_lt bytes
  rw [length] at bound
  rw [UInt32.toNat_ofNat_of_lt' bound, ← length, bytes_value]

theorem bytes_of_word64 (bytes : Bytes) (length : bytes.length = 8) :
    bytesOf 8 (BitVec.ofNat 64 (valueOf bytes)).toNat = bytes := by
  have bound := value_lt bytes
  rw [length] at bound
  have fits : (BitVec.ofNat 64 (valueOf bytes)).toNat = valueOf bytes := Nat.mod_eq_of_lt bound
  rw [fits, ← length, bytes_value]

theorem to_bytes_of_bytes (bytes : Bytes) (length : bytes.length = size) : (ofBytes bytes).toBytes = bytes := by
  have flag : [bytes.getD 8 0] = (bytes.drop 8).take 1 := by
    have inside : 8 < bytes.length := by simp [length, size]
    rw [List.drop_eq_getElem_cons inside, List.getD_eq_getElem?_getD, List.getElem?_eq_getElem inside]
    rfl
  have phone := bytes_of_word32 (bytes.take 4) (by simp [length, size])
  have timestamp := bytes_of_word32 ((bytes.drop 4).take 4) (by simp [length, size])
  have payload := bytes_of_word64 ((bytes.drop 9).take 8) (by simp [length, size])
  have hmacSig := bytes_of_word64 ((bytes.drop 17).take 8) (by simp [length, size])
  calc
    (ofBytes bytes).toBytes
        = bytes.take 4 ++ (bytes.drop 4).take 4 ++ (bytes.drop 8).take 1 ++ (bytes.drop 9).take 8 ++
            (bytes.drop 17).take 8 := by
          simp only [toBytes, ofBytes, phone, timestamp, payload, hmacSig, flag]
    _ = bytes.take 4 ++ ((bytes.drop 4).take 4 ++ ((bytes.drop 8).take 1 ++ ((bytes.drop 9).take 8 ++
            bytes.drop 17))) := by
          have last : (bytes.drop 17).take 8 = bytes.drop 17 := List.take_of_length_le (by simp [length, size])
          simp only [last, List.append_assoc]
    _ = bytes := by
          have rejoin : ∀ start count, (bytes.drop start).take count ++ bytes.drop (start + count) = bytes.drop start :=
            fun start count => by rw [← List.drop_drop, List.take_append_drop]
          rw [rejoin 9 8, rejoin 8 1, rejoin 4 4, List.take_append_drop]

theorem to_bytes_flags (packet : EmergencyPacket) (flags : UInt8) :
    toBytes { packet with flags := flags } = packet.toBytes.set 8 flags := by
  simp [toBytes]

theorem to_bytes_body (packet : EmergencyPacket) (sig : HmacSig) :
    (toBytes { packet with hmacSig := sig }).take 17 = packet.toBytes.take 17 := by
  simp [toBytes, List.take_append]

@[simp] theorem latitude_gps (packet : EmergencyPacket) (latitude longitude : Int32) :
    EmergencyPacket.latitude { packet with payload := gpsPayload latitude longitude } = latitude := by
  have low : (longitude.toBitVec ++ latitude.toBitVec).extractLsb' 0 32 = latitude.toBitVec :=
    BitVec.extractLsb'_append_eq_right
  exact congrArg Int32.ofBitVec low

@[simp] theorem longitude_gps (packet : EmergencyPacket) (latitude longitude : Int32) :
    EmergencyPacket.longitude { packet with payload := gpsPayload latitude longitude } = longitude := by
  have high : (longitude.toBitVec ++ latitude.toBitVec).extractLsb' 32 32 = longitude.toBitVec :=
    BitVec.extractLsb'_append_eq_left
  exact congrArg Int32.ofBitVec high

end EmergencyPacket

-- packet.flags & (0xFF >> 3)
def ttlOf (flags : UInt8) : UInt8 := flags &&& ((0xFF : UInt8) >>> 3)

-- (packet.flags & (0xFF << 5)) | ttl
def withTtl (flags ttl : UInt8) : UInt8 := (flags &&& ((0xFF : UInt8) <<< 5)) ||| ttl

theorem ttl_of_nat (flags : UInt8) : (ttlOf flags).toNat = flags.toNat % 32 := by
  have mask : ((0xFF : UInt8) >>> 3).toNat = 2 ^ 5 - 1 := rfl
  rw [ttlOf, UInt8.toNat_and, mask, Nat.and_two_pow_sub_one_eq_mod]

theorem ttl_lt (flags : UInt8) : (ttlOf flags).toNat < 32 := by
  rw [ttl_of_nat]
  omega

theorem ttl_of_small (ttl : UInt8) (small : ttl.toNat < 32) : ttlOf ttl = ttl := by
  apply UInt8.toNat_inj.mp
  rw [ttl_of_nat, Nat.mod_eq_of_lt small]

def highBits (flags : UInt8) : UInt8 := flags &&& 0b11100000

theorem high_bits_top (flags : UInt8) : (highBits flags).toNat / 128 = flags.toNat / 128 := by
  have bound := flags.toNat_lt
  have shifted := Nat.shiftRight_and_distrib (a := flags.toNat) (b := 224) (i := 7)
  rw [Nat.shiftRight_eq_div_pow, Nat.shiftRight_eq_div_pow, show 224 >>> 7 = 1 from rfl, Nat.and_one_is_mod] at shifted
  rw [highBits, UInt8.toNat_and]
  change (flags.toNat &&& 224) / 2 ^ 7 = _
  rw [shifted]
  omega

theorem and_or_right (a b mask : UInt8) : (a ||| b) &&& mask = (a &&& mask) ||| (b &&& mask) :=
  UInt8.toBitVec_inj.mp BitVec.and_or_distrib_right

theorem ttl_with_ttl (flags ttl : UInt8) (small : ttl.toNat < 32) : ttlOf (withTtl flags ttl) = ttl := by
  have high : flags &&& ((0xFF : UInt8) <<< 5) &&& ((0xFF : UInt8) >>> 3) = 0 := by
    rw [UInt8.and_assoc, show ((0xFF : UInt8) <<< 5) &&& ((0xFF : UInt8) >>> 3) = 0 from rfl, UInt8.and_zero]
  have low : ttl &&& ((0xFF : UInt8) >>> 3) = ttl := ttl_of_small ttl small
  rw [ttlOf, withTtl, and_or_right, high, low, UInt8.zero_or]

theorem high_bits_small (ttl : UInt8) (small : ttl.toNat < 32) : highBits ttl = 0 := by
  have low : ttl &&& ((0xFF : UInt8) >>> 3) = ttl := ttl_of_small ttl small
  rw [highBits, ← low, UInt8.and_assoc, show ((0xFF : UInt8) >>> 3) &&& 0b11100000 = 0 from rfl, UInt8.and_zero]

theorem high_with_ttl (flags ttl : UInt8) (small : ttl.toNat < 32) :
    highBits (withTtl flags ttl) = highBits flags := by
  have low := high_bits_small ttl small
  rw [highBits] at low
  rw [highBits, withTtl, and_or_right, low, UInt8.or_zero, UInt8.and_assoc]
  rfl

theorem with_own_ttl (flags : UInt8) : withTtl flags (ttlOf flags) = flags := by
  have joined : (flags &&& ((0xFF : UInt8) <<< 5)) ||| (flags &&& ((0xFF : UInt8) >>> 3)) =
      flags &&& (((0xFF : UInt8) <<< 5) ||| ((0xFF : UInt8) >>> 3)) := UInt8.toBitVec_inj.mp BitVec.and_or_distrib_left.symm
  rw [withTtl, ttlOf, joined]
  exact UInt8.and_neg_one

theorem ttl_pred (flags : UInt8) (positive : 1 ≤ (ttlOf flags).toNat) :
    (ttlOf flags - 1).toNat = (ttlOf flags).toNat - 1 := by
  have one : (1 : UInt8) ≤ ttlOf flags := UInt8.le_iff_toNat_le.mpr (by simpa using positive)
  rw [UInt8.toNat_sub_of_le _ _ one]
  rfl

theorem more_hops_iff (ttl : UInt8) : (ttl > 0 ∧ ttl - 1 ≠ 0) ↔ 2 ≤ ttl.toNat := by
  refine ⟨fun ⟨positive, more⟩ => ?_, fun enough => ⟨?_, fun zero => ?_⟩⟩
  · have value : 0 < ttl.toNat := UInt8.lt_iff_toNat_lt.mp positive
    have notOne : ttl.toNat ≠ 1 := fun one => more (by rw [show ttl = 1 from UInt8.toNat_inj.mp one]; rfl)
    omega
  · exact UInt8.lt_iff_toNat_lt.mpr (by change 0 < ttl.toNat; omega)
  · have restored : ttl - 1 + 1 = 0 + 1 := congrArg (· + 1) zero
    have one : ttl = 1 := by simpa using restored
    rw [one] at enough
    exact absurd enough (by decide)

theorem ttl_pred_small (flags : UInt8) (positive : 1 ≤ (ttlOf flags).toNat) : (ttlOf flags - 1).toNat < 32 := by
  have bound := ttl_lt flags
  rw [ttl_pred flags positive]
  omega

theorem ttl_next_hop (flags : UInt8) (positive : 1 ≤ (ttlOf flags).toNat) :
    (ttlOf (withTtl flags (ttlOf flags - 1))).toNat = (ttlOf flags).toNat - 1 := by
  rw [ttl_with_ttl flags _ (ttl_pred_small flags positive), ttl_pred flags positive]

-- A packet after a number of hops: only its TTL has changed.
def aged (packet : EmergencyPacket) (hops : Nat) : EmergencyPacket :=
  { packet with flags := withTtl packet.flags (UInt8.ofNat (20 - hops)) }

theorem ttl_left (hops : Nat) : (UInt8.ofNat (20 - hops)).toNat = 20 - hops := by
  rw [UInt8.toNat_ofNat']
  omega

theorem aged_ttl (packet : EmergencyPacket) (hops : Nat) : (ttlOf (aged packet hops).flags).toNat = 20 - hops := by
  have small : (UInt8.ofNat (20 - hops)).toNat < 32 := by
    rw [ttl_left]
    omega
  rw [aged, ttl_with_ttl _ _ small, ttl_left]

theorem aged_high (packet : EmergencyPacket) (hops : Nat) : highBits (aged packet hops).flags = highBits packet.flags := by
  have small : (UInt8.ofNat (20 - hops)).toNat < 32 := by
    rw [ttl_left]
    omega
  exact high_with_ttl _ _ small

theorem aged_next (packet : EmergencyPacket) (hops : Nat) (left : 2 ≤ (ttlOf (aged packet hops).flags).toNat) :
    { aged packet hops with flags := withTtl (aged packet hops).flags (ttlOf (aged packet hops).flags - 1) } = aged packet (hops + 1) := by
  have high : withTtl (aged packet hops).flags (ttlOf (aged packet hops).flags - 1) =
      withTtl packet.flags (ttlOf (aged packet hops).flags - 1) :=
    congrArg (· ||| (ttlOf (aged packet hops).flags - 1)) (aged_high packet hops)
  have next : ttlOf (aged packet hops).flags - 1 = UInt8.ofNat (20 - (hops + 1)) := by
    apply UInt8.toNat_inj.mp
    rw [ttl_pred _ (by omega), aged_ttl, ttl_left]
    omega
  rw [high, next]
  rfl

theorem aged_start (packet : EmergencyPacket) (full : (ttlOf packet.flags).toNat = 20) : aged packet 0 = packet := by
  have value : ttlOf packet.flags = UInt8.ofNat (20 - 0) := UInt8.toNat_inj.mp full
  rw [aged, ← value, with_own_ttl]

end BeaconMesh
