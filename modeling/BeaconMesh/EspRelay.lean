import BeaconMesh.TimeAwareCache

set_option autoImplicit false

namespace BeaconMesh.Arduino

open Sweep LittleEndian

def targetCid : UInt16 := 0xFFFF

def redundancy : UInt8 := 4

def broadcastBurst : Millis := 500

-- The globals that onResult and loop share. The index is the int16_t of the
-- source, -1 before the first burst.
structure RelayState where
  cache : TimeAwareCache
  isBroadcasting : Bool
  broadcastEndTime : Millis
  currentBroadcastIndex : Int
  cacheMacStatus : Option String

def RelayState.start : RelayState := ⟨emptyCache, false, 0, -1, none⟩

-- What onResult reads of a BLEAdvertisedDevice.
structure Advertisement where
  manufacturerData : Option Bytes
  address : Mac
deriving DecidableEq, Repr

-- A callback runs under cacheMutex from its first cache access to its last.
-- The answers of millis(), WiFi.status() and random(50, 201) are inputs; with
-- GATEWAY_MODE undefined the Wi-Fi branch is compiled out, which is a run
-- whose callbacks all find Wi-Fi down.
inductive Event where
  | onResult (advertisedDevice : Advertisement) (now : Millis) (wifiConnected : Bool) (jitter : Millis)
  | loop (now : Millis)
deriving DecidableEq, Repr

def Event.now : Event → Millis
  | .onResult _ now _ _ => now
  | .loop now => now

-- What a callback or a loop iteration does to the outside, with the slots it
-- reports on the serial line.
inductive Output where
  | ignored
  | duplicate (location : Slot)
  | forwarded (datagrams : List Bytes) (slot : Slot) (newLoc : Option Slot)
  | queued (slot : Slot) (jitter : Millis)
  | ttlExpired
  | ttlZero
  | transmitting
  | burstEnded (index : Int)
  | scanned (cancelled : List Slot) (burst : Option (Slot × Bytes))
deriving DecidableEq, Repr

def receivedCid (payloadRaw : Bytes) : UInt16 :=
  (payloadRaw.getD 0 0).toUInt16 ||| ((payloadRaw.getD 1 0).toUInt16 <<< 8)

def receivedPacket (advertisedDevice : Advertisement) : Option (Bytes × EmergencyPacket) :=
  match advertisedDevice.manufacturerData with
  | none => none
  | some payloadRaw =>
      if payloadRaw.length = 2 + EmergencyPacket.size then
        if receivedCid payloadRaw = targetCid then some (payloadRaw, .ofBytes (payloadRaw.drop 2)) else none
      else none

def markBroadcasted (entry : CacheEntry) : CacheEntry := { entry with broadcasted := true }

def udpBurst (payloadRaw : Bytes) : List Bytes := List.replicate 3 payloadRaw

-- The gateway branch looks its new entry up again instead of using the slot
-- that addToCache returned.
def forwardUpstream (state : RelayState) (payloadRaw : Bytes) (packet : EmergencyPacket) (now : Millis)
    (senderMac : Mac) : RelayState × Output :=
  let added := addToCache state.cache packet.hmacSig packet now 0 senderMac
  let again := checkCache added.2 packet.hmacSig now senderMac state.cacheMacStatus
  let cache := match again.location with
    | some newLoc => write again.cache newLoc (markBroadcasted (read again.cache newLoc))
    | none => again.cache
  ({ state with cache := cache, cacheMacStatus := again.macStatus },
    .forwarded (udpBurst payloadRaw) added.1 again.location)

def relayedPacket (packet : EmergencyPacket) : EmergencyPacket :=
  { packet with flags := withTtl packet.flags (ttlOf packet.flags - 1) }

def queueRebroadcast (state : RelayState) (packet : EmergencyPacket) (now jitter : Millis) (senderMac : Mac) :
    RelayState × Output :=
  let ttl := ttlOf packet.flags
  if ttl > 0 then
    if ttl - 1 ≠ 0 then
      let added := addToCache state.cache packet.hmacSig (relayedPacket packet) now jitter senderMac
      ({ state with cache := added.2 }, .queued added.1 jitter)
    else (state, .ttlExpired)
  else (state, .ttlZero)

def onResult (state : RelayState) (advertisedDevice : Advertisement) (now : Millis) (wifiConnected : Bool)
    (jitter : Millis) : RelayState × Output :=
  match receivedPacket advertisedDevice with
  | none => (state, .ignored)
  | some (payloadRaw, packet) =>
      let checked := checkCache state.cache packet.hmacSig now advertisedDevice.address state.cacheMacStatus
      let next := { state with cache := checked.cache, cacheMacStatus := checked.macStatus }
      match checked.location with
      | some location => (next, .duplicate location)
      | none =>
          if wifiConnected then forwardUpstream next payloadRaw packet now advertisedDevice.address
          else queueRebroadcast next packet now jitter advertisedDevice.address

-- TARGET_CID in memory order, then the packet as it lies in the slot.
def rebroadcastData (packet : EmergencyPacket) : Bytes := bytesOf 2 targetCid.toNat ++ packet.toBytes

def Due (now : Millis) (entry : CacheEntry) : Prop := Pending entry ∧ entry.broadcastTime ≤ now

instance (now : Millis) (entry : CacheEntry) : Decidable (Due now entry) := inferInstanceAs (Decidable (_ ∧ _))

def scanBody (now : Millis) (entry : CacheEntry) : Verdict CacheEntry :=
  if entry.active && !entry.broadcasted then
    if now ≥ entry.broadcastTime then
      if entry.rxCount < redundancy then .stop entry else .next (markBroadcasted entry)
    else .next entry
  else .next entry

-- The rows the scan prints a [CANCEL] line for, in order.
def cancelledRows (now : Millis) (cache : TimeAwareCache) (location : Option Slot) : List Slot :=
  ((indexed cache).filter fun (i, entry) =>
    decide (Due now entry ∧ ¬ entry.rxCount < redundancy) &&
      (match location with
        | some k => decide (i < k)
        | none => true)).map Prod.fst

def indexedWrite (cache : TimeAwareCache) (index : Int) : TimeAwareCache :=
  if inside : 0 ≤ index ∧ index.toNat < cacheSize then
    write cache ⟨index.toNat, inside.2⟩ (markBroadcasted (read cache ⟨index.toNat, inside.2⟩))
  else cache

def loop (state : RelayState) (now : Millis) : RelayState × Output :=
  if state.isBroadcasting then
    if now ≥ state.broadcastEndTime then
      ({ state with
          isBroadcasting := false
          cache := indexedWrite state.cache state.currentBroadcastIndex },
        .burstEnded state.currentBroadcastIndex)
    else (state, .transmitting)
  else
    let swept := sweep (scanBody now) state.cache
    let cancelled := cancelledRows now state.cache swept.1
    match swept.1 with
    | some i =>
        ({ state with
            cache := swept.2
            isBroadcasting := true
            broadcastEndTime := now + broadcastBurst
            currentBroadcastIndex := i.val },
          .scanned cancelled (some (i, rebroadcastData (read swept.2 i).packet)))
    | none => ({ state with cache := swept.2 }, .scanned cancelled none)

def step (state : RelayState) : Event → RelayState × Output
  | .onResult advertisedDevice now wifiConnected jitter => onResult state advertisedDevice now wifiConnected jitter
  | .loop now => loop state now

end BeaconMesh.Arduino
