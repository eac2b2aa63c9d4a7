import BeaconMesh.Scanner
import BeaconMesh.SimulatorNode

set_option autoImplicit false

namespace BeaconMesh.Simulator

open LittleEndian Scanner

def victimTtl : UInt8 := 20

def secretKey : Bytes :=
  [0x01, 0x02, 0x03, 0x04, 0x05, 0x06, 0x07, 0x08, 0x09, 0x0a, 0x0b, 0x0c, 0x0d, 0x0e, 0x0f, 0x10,
    0x11, 0x12, 0x13, 0x14, 0x15, 0x16, 0x17, 0x18, 0x19, 0x1a, 0x1b, 0x1c, 0x1d, 0x1e, 0x1f, 0x20]

-- What main reads: the MurmurHash3 of argv[1], time(NULL) / 60, argv[2], the
-- scaled coordinates of argv[3] and argv[4], and the global nonce.
structure Arguments where
  phone : UInt32
  timestamp : UInt32
  gps : String
  latitude : Int32
  longitude : Int32
  nonce : UInt64
deriving DecidableEq, Repr

-- A little-endian host reverses the bytes of the word.
def htonl (word : UInt32) : UInt32 := UInt32.ofNat (valueOf (bytesOf 4 word.toNat).reverse)

def htobe64 (word : UInt64) : UInt64 := UInt64.ofNat (valueOf (bytesOf 8 word.toNat).reverse)

def filledPacket (arguments : Arguments) : EmergencyPacket :=
  let packet := { EmergencyPacket.zero with phone := arguments.phone, timestamp := arguments.timestamp }
  if arguments.gps = "1" then
    { packet with
      payload := EmergencyPacket.gpsPayload arguments.latitude arguments.longitude
      flags := packet.flags ||| ((1 : UInt8) <<< 7) }
  else { packet with payload := arguments.nonce.toBitVec }

def networkPacket (arguments : Arguments) : EmergencyPacket :=
  let filled := filledPacket arguments
  let packet := { filled with phone := htonl filled.phone, timestamp := htonl filled.timestamp }
  if arguments.gps = "0" then { packet with payload := (htobe64 packet.nonce).toBitVec }
  else
    { packet with
      payload := EmergencyPacket.gpsPayload ⟨htonl packet.latitude.toUInt32⟩ ⟨htonl packet.longitude.toUInt32⟩ }

-- HMAC(..., (unsigned char *)&packet, sizeof(packet), ...): hmac_sig, still
-- zero, is part of what is signed.
def signedBytes (arguments : Arguments) : Bytes := (networkPacket arguments).toBytes

def victimPacket (hmac : Bytes → Bytes → Vector UInt8 32) (arguments : Arguments) : EmergencyPacket :=
  let packet := networkPacket arguments
  let hash := hmac secretKey (signedBytes arguments)
  let signed := { packet with hmacSig := BitVec.ofNat 64 (valueOf (hash.toList.take 8)) }
  { signed with flags := signed.flags ||| victimTtl }

-- The byte string verify_hmac hashes.
def verifiedBytes (payload : Bytes) : Bytes := (payload.take 17).set 8 ((payload.take 17).getD 8 0 &&& ttlMask)

-- The packet after any number of hops, over relays in any state.
inductive AfterHops (packet : EmergencyPacket) : EmergencyPacket → Prop where
  | sent : AfterHops packet packet
  | hop (earlier later : EmergencyPacket) (relay : NodeState) (hops : AfterHops packet earlier)
      (forwarded : (nodeTurn relay earlier.toBytes).2 = .forwarded later) : AfterHops packet later

theorem after_hops_fields (packet later : EmergencyPacket) (hops : AfterHops packet later) :
    ∃ flags, later = { packet with flags := flags } ∧ highBits flags = highBits packet.flags := by
  induction hops with
  | sent => exact ⟨packet.flags, rfl, rfl⟩
  | hop earlier later relay _ forwarded ih =>
      obtain ⟨flags, rfl, high⟩ := ih
      obtain ⟨enough, rfl, _⟩ := forwarded_effect _ _ _ _ (node_effect relay _) later forwarded
      exact ⟨_, rfl, (high_with_ttl _ _ (ttl_pred_small _ (by omega))).trans high⟩

theorem network_flags (arguments : Arguments) :
    (networkPacket arguments).flags = 0x80 ∨ (networkPacket arguments).flags = 0 := by
  have same : (networkPacket arguments).flags = (filledPacket arguments).flags := by
    unfold networkPacket
    split <;> rfl
  rw [same, filledPacket]
  split
  · left
    change (0 : UInt8) ||| ((1 : UInt8) <<< 7) = 0x80
    decide
  · exact Or.inr rfl

theorem network_unsigned (arguments : Arguments) : (networkPacket arguments).hmacSig = 0 := by
  have same : (networkPacket arguments).hmacSig = (filledPacket arguments).hmacSig := by
    unfold networkPacket
    split <;> rfl
  rw [same, filledPacket]
  split <;> rfl

theorem victim_high (hmac : Bytes → Bytes → Vector UInt8 32) (arguments : Arguments) :
    highBits (victimPacket hmac arguments).flags = (networkPacket arguments).flags := by
  change highBits ((networkPacket arguments).flags ||| victimTtl) = _
  cases network_flags arguments with
  | inl gps =>
      rw [gps]
      decide
  | inr nonce =>
      rw [nonce]
      decide

theorem signed_padding (hmac : Bytes → Bytes → Vector UInt8 32) (arguments : Arguments) (later : EmergencyPacket)
    (hops : AfterHops (victimPacket hmac arguments) later) :
    signedBytes arguments = verifiedBytes later.toBytes ++ List.replicate 8 0 := by
  obtain ⟨flags, rfl, high⟩ := after_hops_fields _ later hops
  rw [victim_high] at high
  have body : verifiedBytes (EmergencyPacket.toBytes { victimPacket hmac arguments with flags := flags }) =
      (networkPacket arguments).toBytes.take 17 := by
    rw [verifiedBytes, masked_body]
    dsimp only
    rw [high]
    exact EmergencyPacket.to_bytes_body (networkPacket arguments) _
  have tail : (networkPacket arguments).toBytes.drop 17 = List.replicate 8 0 := by
    obtain ⟨_, _, _, _, signature⟩ := (networkPacket arguments).field_slices
    have whole : ((networkPacket arguments).toBytes.drop 17).take 8 = (networkPacket arguments).toBytes.drop 17 :=
      List.take_of_length_le (by simp [EmergencyPacket.size])
    rw [← whole, signature, network_unsigned]
    rfl
  rw [body, ← tail]
  exact (List.take_append_drop 17 _).symm

def SignaturesAgree (arguments : Arguments) : Prop :=
  ∀ hmac later, AfterHops (victimPacket hmac arguments) later →
    verifiedBytes later.toBytes = signedBytes arguments ∧ verifyHmac hmac later.toBytes = true

def lengthDigest (_key bytes : Bytes) : Vector UInt8 32 := Vector.replicate 32 (if bytes.length = 25 then 1 else 0)

theorem verified_length (payload : Bytes) (long : 17 ≤ payload.length) : (verifiedBytes payload).length = 17 := by
  simp [verifiedBytes, long]

theorem length_digest_rejects (arguments : Arguments) (later : EmergencyPacket)
    (hops : AfterHops (victimPacket lengthDigest arguments) later) : verifyHmac lengthDigest later.toBytes = false := by
  have sent : later.hmacSig = BitVec.ofNat 64 (valueOf (List.replicate 8 1)) := by
    have length : (signedBytes arguments).length = 25 := EmergencyPacket.to_bytes_length _
    obtain ⟨flags, rfl, _⟩ := after_hops_fields _ later hops
    dsimp only [victimPacket, lengthDigest]
    rw [if_pos length]
    rfl
  have rebuilt := verified_length later.toBytes (by simp [EmergencyPacket.size])
  obtain ⟨_, _, _, _, signature⟩ := later.field_slices
  change ((lengthDigest Scanner.secretKey (verifiedBytes later.toBytes)).toList.take 8 == (later.toBytes.drop 17).take 8) = false
  rw [signature, sent, lengthDigest, rebuilt]
  decide

-- sizeof(packet) where the ESP victim has sizeof(packet) - sizeof(hmac_sig):
-- the two strings differ for every packet, at every number of hops.
theorem simulator_signature_mismatch (arguments : Arguments) :
    (∀ hmac later, AfterHops (victimPacket hmac arguments) later → verifiedBytes later.toBytes ≠ signedBytes arguments) ∧
      (∀ later, AfterHops (victimPacket lengthDigest arguments) later → verifyHmac lengthDigest later.toBytes = false) ∧
      ¬ SignaturesAgree arguments := by
  have differ : ∀ hmac later, AfterHops (victimPacket hmac arguments) later → verifiedBytes later.toBytes ≠ signedBytes arguments := by
    intro hmac later hops same
    have lengths := congrArg List.length (signed_padding hmac arguments later hops)
    rw [same, List.length_append, List.length_replicate] at lengths
    omega
  refine ⟨differ, length_digest_rejects arguments, fun agree => ?_⟩
  exact differ lengthDigest _ .sent (agree lengthDigest _ .sent).1

def sampleArguments : Arguments := ⟨0x11223344, 29000000, "1", 444268000, 261025000, 0⟩

theorem sample_signature_mismatch : ¬ ∀ arguments, SignaturesAgree arguments := by
  intro claimed
  have same := (claimed sampleArguments lengthDigest _ .sent).1
  exact absurd (congrArg List.length same) (by decide +kernel)

end BeaconMesh.Simulator
