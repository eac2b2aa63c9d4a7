import BeaconMesh.SimulatorVictim

set_option autoImplicit false

namespace BeaconMesh.Simulator

open LittleEndian EmergencyPacket

def ntohl : UInt32 → UInt32 := htonl

def be64toh : UInt64 → UInt64 := htobe64

-- The two branches of the listener, with the fields it prints.
inductive Location where
  | gps (latitude longitude : Int32)
  | noGps (nonce : UInt64)
deriving DecidableEq, Repr

structure Heard where
  phone : UInt32
  timestamp : UInt32
  flags : UInt8
  location : Location
deriving DecidableEq, Repr

-- memset and memcpy(&packet, buf, numbytes) of at most 25 bytes, as recvfrom
-- into a zeroed packet.
def listen (buf : Bytes) : Heard :=
  let packet := recvInto .zero buf
  let phone := ntohl packet.phone
  let timestamp := ntohl packet.timestamp
  if packet.flags &&& ((1 : UInt8) <<< 7) = (1 : UInt8) <<< 7 then
    let latitude : Int32 := ⟨ntohl packet.latitude.toUInt32⟩
    let longitude : Int32 := ⟨ntohl packet.longitude.toUInt32⟩
    ⟨phone, timestamp, packet.flags, .gps latitude longitude⟩
  else ⟨phone, timestamp, packet.flags, .noGps (be64toh packet.nonce)⟩

-- The packet after a number of hops, over relays in any state.
inductive Hops (packet : EmergencyPacket) : Nat → EmergencyPacket → Prop where
  | sent : Hops packet 0 packet
  | hop (h : Nat) (earlier later : EmergencyPacket) (relay : NodeState) (hops : Hops packet h earlier)
      (forwarded : (nodeTurn relay earlier.toBytes).2 = .forwarded later) : Hops packet (h + 1) later

theorem ntohl_htonl (word : UInt32) : ntohl (htonl word) = word := by
  have swapped := bytes_of_word32 (bytesOf 4 word.toNat).reverse (by simp)
  change UInt32.ofNat (valueOf (bytesOf 4 (htonl word).toNat).reverse) = word
  rw [htonl, swapped, List.reverse_reverse, word32_of_bytes]

theorem be64toh_htobe64 (word : UInt64) : be64toh (htobe64 word) = word := by
  have swapped := bytes_of_word64 (bytesOf 8 word.toNat).reverse (by simp)
  change UInt64.ofNat (valueOf (bytesOf 8 (BitVec.ofNat 64 (valueOf (bytesOf 8 word.toNat).reverse)).toNat).reverse) = word
  rw [swapped, List.reverse_reverse]
  exact congrArg UInt64.ofBitVec (word64_of_bytes word.toBitVec)

theorem latitude_of_payload (packet : EmergencyPacket) (latitude longitude : Int32)
    (payload : packet.payload = gpsPayload latitude longitude) : packet.latitude = latitude := by
  have read := latitude_gps packet latitude longitude
  rwa [← payload] at read

theorem longitude_of_payload (packet : EmergencyPacket) (latitude longitude : Int32)
    (payload : packet.payload = gpsPayload latitude longitude) : packet.longitude = longitude := by
  have read := longitude_gps packet latitude longitude
  rwa [← payload] at read

theorem listen_packet (packet : EmergencyPacket) :
    listen packet.toBytes = ⟨ntohl packet.phone, ntohl packet.timestamp, packet.flags,
      if packet.flags &&& ((1 : UInt8) <<< 7) = (1 : UInt8) <<< 7 then
        .gps ⟨ntohl packet.latitude.toUInt32⟩ ⟨ntohl packet.longitude.toUInt32⟩
      else .noGps (be64toh packet.nonce)⟩ := by
  simp only [listen, recv_full]
  split
  · rfl
  · rfl

section Hops

variable (packet : EmergencyPacket) (full : (ttlOf packet.flags).toNat = 20)

include full

theorem hops_aged (h : Nat) (later : EmergencyPacket) (hops : Hops packet h later) : later = aged packet h := by
  induction hops with
  | sent => exact (aged_start packet full).symm
  | hop h earlier later relay _ forwarded ih =>
      obtain ⟨enough, sent, _⟩ := forwarded_effect _ _ _ _ (node_effect relay earlier) later forwarded
      subst ih
      rw [sent]
      exact aged_next packet h enough

theorem hops_exist (real : packet.hmacSig ≠ 0) (h : Nat) (few : h ≤ 19) : Hops packet h (aged packet h) := by
  induction h with
  | zero =>
      rw [aged_start packet full]
      exact .sent
  | succ h ih =>
      have more : 2 ≤ (ttlOf (aged packet h).flags).toNat := by
        rw [aged_ttl]
        omega
      have absent : containsBuff NodeState.zero.cache (aged packet h).hmacSig = none :=
        (contains_none_iff _ _).mpr fun row => by
          rw [NodeState.zero, CircularBuffer.zero, Sweep.read_blank]
          exact real.symm
      apply Hops.hop h (aged packet h) (aged packet (h + 1)) .zero (ih (by omega))
      have effect := node_effect .zero (aged packet h)
      generalize (nodeTurn .zero (aged packet h).toBytes).1 = after at effect
      generalize (nodeTurn .zero (aged packet h).toBytes).2 = output at effect ⊢
      cases effect with
      | duplicate location present => exact absurd (present.symm.trans absent) (Option.some_ne_none location)
      | dropped _ _ spent => exact absurd more (by omega)
      | forwarded => exact congrArg Turn.forwarded (aged_next packet h more)

end Hops

section Victim

variable (hmac : Bytes → Bytes → Vector UInt8 32) (arguments : Arguments)

theorem victim_full : (ttlOf (victimPacket hmac arguments).flags).toNat = 20 := by
  change (ttlOf ((networkPacket arguments).flags ||| victimTtl)).toNat = 20
  cases network_flags arguments with
  | inl gps =>
      rw [gps]
      decide
  | inr nonce =>
      rw [nonce]
      decide

theorem victim_header : (victimPacket hmac arguments).phone = htonl arguments.phone ∧
    (victimPacket hmac arguments).timestamp = htonl arguments.timestamp := by
  have network : (networkPacket arguments).phone = htonl (filledPacket arguments).phone ∧
      (networkPacket arguments).timestamp = htonl (filledPacket arguments).timestamp := by
    unfold networkPacket
    split <;> exact ⟨rfl, rfl⟩
  have filled : (filledPacket arguments).phone = arguments.phone ∧ (filledPacket arguments).timestamp = arguments.timestamp := by
    unfold filledPacket
    split <;> exact ⟨rfl, rfl⟩
  rw [filled.1, filled.2] at network
  exact network

theorem network_gps (mode : arguments.gps = "1") : (networkPacket arguments).flags = 0x80 ∧
    (networkPacket arguments).payload = gpsPayload ⟨htonl arguments.latitude.toUInt32⟩ ⟨htonl arguments.longitude.toUInt32⟩ := by
  have other : arguments.gps ≠ "0" := by
    rw [mode]
    decide
  simp only [networkPacket, filledPacket, if_pos mode, if_neg other]
  constructor
  · rfl
  · rw [latitude_of_payload _ arguments.latitude arguments.longitude rfl, longitude_of_payload _ arguments.latitude arguments.longitude rfl]

theorem network_nonce (mode : arguments.gps = "0") : (networkPacket arguments).flags = 0 ∧
    (networkPacket arguments).payload = (htobe64 arguments.nonce).toBitVec := by
  have other : arguments.gps ≠ "1" := by
    rw [mode]
    decide
  simp only [networkPacket, filledPacket, if_pos mode, if_neg other]
  constructor
  · rfl
  · rfl

end Victim

-- What the victim was told to send.
def sentLocation (arguments : Arguments) : Location :=
  if arguments.gps = "1" then .gps arguments.latitude arguments.longitude else .noGps arguments.nonce

theorem flag_bits (flags base : UInt8) (high : highBits flags = base) (mask : UInt8) (inside : (0b11100000 : UInt8) &&& mask = mask) :
    flags &&& mask = base &&& mask := by
  rw [← high, highBits, UInt8.and_assoc, inside]

section Decode

variable (hmac : Bytes → Bytes → Vector UInt8 32) (arguments : Arguments) (h : Nat)

theorem decoded_location (mode : arguments.gps = "0" ∨ arguments.gps = "1") :
    (listen (aged (victimPacket hmac arguments) h).toBytes).location = sentLocation arguments := by
  have high := (aged_high (victimPacket hmac arguments) h).trans (victim_high hmac arguments)
  have top := flag_bits _ _ high ((1 : UInt8) <<< 7) (by decide)
  rw [listen_packet]
  dsimp only
  rw [top, sentLocation]
  cases mode with
  | inl nonce =>
      obtain ⟨flags, payload⟩ := network_nonce arguments nonce
      have word : (aged (victimPacket hmac arguments) h).nonce = htobe64 arguments.nonce := congrArg UInt64.ofBitVec payload
      rw [flags, if_neg (by decide), if_neg (by rw [nonce]; decide), word, be64toh_htobe64]
  | inr gps =>
      obtain ⟨flags, payload⟩ := network_gps arguments gps
      have latitude := latitude_of_payload (aged (victimPacket hmac arguments) h) _ _ payload
      have longitude := longitude_of_payload (aged (victimPacket hmac arguments) h) _ _ payload
      rw [flags, if_pos (by decide), if_pos gps, latitude, longitude]
      dsimp only
      rw [ntohl_htonl, ntohl_htonl]

theorem decoded_header : (listen (aged (victimPacket hmac arguments) h).toBytes).phone = arguments.phone ∧
    (listen (aged (victimPacket hmac arguments) h).toBytes).timestamp = arguments.timestamp ∧
    (listen (aged (victimPacket hmac arguments) h).toBytes).flags = (aged (victimPacket hmac arguments) h).flags := by
  obtain ⟨phone, timestamp⟩ := victim_header hmac arguments
  rw [listen_packet]
  exact ⟨(congrArg ntohl phone).trans (ntohl_htonl _), (congrArg ntohl timestamp).trans (ntohl_htonl _), rfl⟩

end Decode

-- After any number of hops the listener reads what the victim was told to
-- send, in the branch that the victim chose.
theorem listener_round_trip (hmac : Bytes → Bytes → Vector UInt8 32) (arguments : Arguments)
    (mode : arguments.gps = "0" ∨ arguments.gps = "1") (h : Nat) (few : h ≤ 19) :
    ((victimPacket hmac arguments).hmacSig ≠ 0 → ∃ later, Hops (victimPacket hmac arguments) h later) ∧
    ∀ later, Hops (victimPacket hmac arguments) h later →
      (listen later.toBytes).phone = arguments.phone ∧ (listen later.toBytes).timestamp = arguments.timestamp ∧
      (arguments.gps = "1" → (listen later.toBytes).location = .gps arguments.latitude arguments.longitude) ∧
      (arguments.gps = "0" → (listen later.toBytes).location = .noGps arguments.nonce) ∧
      ((∃ latitude longitude, (listen later.toBytes).location = .gps latitude longitude) ↔ arguments.gps = "1") ∧
      (ttlOf (listen later.toBytes).flags).toNat = 20 - h ∧ (listen later.toBytes).flags &&& 0b01100000 = 0 := by
  have full := victim_full hmac arguments
  refine ⟨fun real => ⟨_, hops_exist _ full real h few⟩, fun later hops => ?_⟩
  obtain rfl := hops_aged _ full h later hops
  obtain ⟨phone, timestamp, flags⟩ := decoded_header hmac arguments h
  have location := decoded_location hmac arguments h mode
  refine ⟨phone, timestamp, fun gps => ?_, fun nonce => ?_, ?_, ?_, ?_⟩
  · rw [location, sentLocation, if_pos gps]
  · rw [location, sentLocation, if_neg (by rw [nonce]; decide)]
  · rw [location, sentLocation]
    by_cases gps : arguments.gps = "1"
    · simp [gps]
    · simp [gps]
  · rw [flags, aged_ttl]
  · have high := (aged_high (victimPacket hmac arguments) h).trans (victim_high hmac arguments)
    rw [flags, flag_bits _ _ high 0b01100000 (by decide)]
    cases network_flags arguments with
    | inl gps =>
        rw [gps]
        decide
    | inr nonce =>
        rw [nonce]
        decide

theorem sample_round_trip :
    (sampleArguments.gps = "0" ∨ sampleArguments.gps = "1") ∧ 3 ≤ 19 ∧
      (∃ later, Hops (victimPacket lengthDigest sampleArguments) 3 later) ∧
      ∀ later, Hops (victimPacket lengthDigest sampleArguments) 3 later →
        (listen later.toBytes).phone = 0x11223344 ∧ (listen later.toBytes).location = .gps 444268000 261025000 := by
  have gps : sampleArguments.gps = "1" := rfl
  have real : (victimPacket lengthDigest sampleArguments).hmacSig ≠ 0 := by decide +kernel
  obtain ⟨sent, heard⟩ := listener_round_trip lengthDigest sampleArguments (Or.inr gps) 3 (by decide)
  refine ⟨Or.inr gps, by decide, sent real, fun later hops => ?_⟩
  obtain ⟨phone, _, located, _⟩ := heard later hops
  exact ⟨phone, located gps⟩

end BeaconMesh.Simulator
