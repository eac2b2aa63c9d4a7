import BeaconMesh.BurstJustification

set_option autoImplicit false

namespace BeaconMesh.Arduino

open Sweep History

-- The same packet under the same deadlines; receptions may have been counted.
structure Undisturbed (before after : CacheEntry) : Prop where
  active : after.active = true
  broadcasted : after.broadcasted = before.broadcasted
  hmac : after.hmac = before.hmac
  packet : after.packet = before.packet
  expires : after.expiresAt = before.expiresAt
  time : after.broadcastTime = before.broadcastTime

theorem undisturbed_refl (entry : CacheEntry) (active : entry.active = true) : Undisturbed entry entry :=
  ⟨active, rfl, rfl, rfl, rfl, rfl⟩

theorem undisturbed_record (entry : CacheEntry) (mac : Mac) (active : entry.active = true) :
    Undisturbed entry (recordMac entry mac) :=
  ⟨by simp [active], by simp, by simp, by simp, by simp, by simp⟩

theorem undisturbed_purge (now : Millis) (entry : CacheEntry) (active : entry.active = true) :
    Undisturbed entry (purge now entry) ∨ entry.expiresAt ≤ now := by
  by_cases live : Live now entry
  · rw [purge_live now entry live]
    exact Or.inl (undisturbed_refl entry active)
  · right
    exact BitVec.not_lt.mp fun fresh => live ⟨active, fresh⟩

def OldestOfFull (now : Millis) (cache : TimeAwareCache) (k : Slot) : Prop :=
  (∀ i, Live now (read cache i)) ∧ ∀ i, (read cache k).expiresAt ≤ (read cache i).expiresAt

theorem target_displaces (cache : TimeAwareCache) (now : Millis) (k : Slot) (active : (read cache k).active = true)
    (target : k = targetSlot cache now) : (read cache k).expiresAt ≤ now ∨ OldestOfFull now cache k := by
  cases target_free_or_oldest cache now with
  | inl free =>
      rw [← target] at free
      exact Or.inl (BitVec.not_lt.mp fun fresh => free ⟨active, fresh⟩)
  | inr full =>
      rw [← target] at full
      exact Or.inr full

theorem add_keeps_active (cache : TimeAwareCache) (hmac : HmacSig) (packet : EmergencyPacket) (now jitter : Millis)
    (mac : Mac) (k : Slot) (active : (read cache k).active = true) (other : k ≠ targetSlot cache now) :
    Undisturbed (read cache k) (read (addToCache cache hmac packet now jitter mac).2 k) ∨ (read cache k).expiresAt ≤ now := by
  rw [add_entry_other _ _ _ _ _ _ _ other]
  exact undisturbed_purge now _ active

inductive Displaced (k : Slot) (cache : TimeAwareCache) (now : Millis) (output : Output) : Prop where
  | expired (late : (read cache k).expiresAt ≤ now)
  | evicted (refilled : storedSlot output = some k) (oldest : OldestOfFull now cache k)

theorem target_displaced (cache : TimeAwareCache) (now : Millis) (k : Slot) (output : Output)
    (active : (read cache k).active = true) (target : k = targetSlot cache now)
    (stored : storedSlot output = some (targetSlot cache now)) : Displaced k cache now output := by
  cases target_displaces cache now k active target with
  | inl late => exact .expired late
  | inr oldest => exact .evicted (stored.trans (congrArg some target.symm)) oldest

theorem callback_keeps_active (before after : RelayState) (device : Advertisement) (now : Millis) (wifi : Bool)
    (jitter : Millis) (output : Output) (effect : CallbackEffect before device now wifi jitter after output) (k : Slot)
    (active : (read before.cache k).active = true) :
    Undisturbed (read before.cache k) (read after.cache k) ∨ Displaced k before.cache now output := by
  cases effect with
  | ignored => exact Or.inl (undisturbed_refl _ active)
  | duplicate payloadRaw packet location _ received live key recorded others burst =>
      by_cases hit : k = location
      · rw [hit] at active ⊢
        rw [recorded]
        exact Or.inl (undisturbed_record _ _ active)
      · cases others k hit with
        | inl same =>
            rw [same]
            exact Or.inl (undisturbed_refl _ active)
        | inr purged =>
            rw [purged]
            exact (undisturbed_purge now _ active).imp_right .expired
  | dropped payloadRaw packet _ _ received offline absent spent purged burst silent =>
      rw [purged, read_map]
      exact (undisturbed_purge now _ active).imp_right .expired
  | queued payloadRaw packet _ received offline absent hops stored burst =>
      by_cases target : k = targetSlot before.cache now
      · exact Or.inr (target_displaced _ _ _ _ active target rfl)
      · rw [stored]
        exact (add_keeps_active _ packet.hmacSig (relayedPacket packet) now jitter device.address k active target).imp_right
          .expired
  | forwarded payloadRaw packet _ newLoc received online absent stored lookedUp burst =>
      by_cases target : k = targetSlot before.cache now
      · exact Or.inr (target_displaced _ _ _ _ active target rfl)
      · rw [stored, read_write_ne _ _ _ _ target]
        exact (add_keeps_active _ packet.hmacSig packet now 0 device.address k active target).imp_right .expired

theorem callback_spares_active (before after : RelayState) (device : Advertisement) (now : Millis) (wifi : Bool)
    (jitter : Millis) (output : Output) (effect : CallbackEffect before device now wifi jitter after output) (k : Slot)
    (active : (read before.cache k).active = true) : storedSlot output ≠ some k ∨ Displaced k before.cache now output := by
  have elsewhere : ∀ target : Slot, k ≠ target → some target ≠ some k := fun target other same => other (Option.some.inj same).symm
  cases effect with
  | ignored => exact Or.inl (Option.some_ne_none k).symm
  | duplicate => exact Or.inl (Option.some_ne_none k).symm
  | dropped payloadRaw packet _ _ received offline absent spent purged burst silent =>
      rcases silent with rfl | rfl
      · exact Or.inl (Option.some_ne_none k).symm
      · exact Or.inl (Option.some_ne_none k).symm
  | queued =>
      by_cases target : k = targetSlot before.cache now
      · exact Or.inr (target_displaced _ _ _ _ active target rfl)
      · exact Or.inl (elsewhere _ target)
  | forwarded =>
      by_cases target : k = targetSlot before.cache now
      · exact Or.inr (target_displaced _ _ _ _ active target rfl)
      · exact Or.inl (elsewhere _ target)

-- The steps that end the wait of the packet in a slot.
inductive Frees (k : Slot) (before : RelayState) : Event → Output → Prop where
  | ended (now : Millis) (busy : before.isBroadcasting = true) (index : before.currentBroadcastIndex = k.val) :
      Frees k before (.loop now) (.burstEnded k.val)
  | covered (now : Millis) (cancelled : List Slot) (burst : Option (Slot × Bytes)) (row : k ∈ cancelled)
      (heard : redundancy ≤ (read before.cache k).rxCount) (due : Due now (read before.cache k)) :
      Frees k before (.loop now) (.scanned cancelled burst)
  | displaced (device : Advertisement) (now : Millis) (wifi : Bool) (jitter : Millis) (output : Output)
      (cause : Displaced k before.cache now output) : Frees k before (.onResult device now wifi jitter) output

theorem loop_keeps_queued (before after : RelayState) (now : Millis) (output : Output)
    (effect : LoopEffect before now after output) (k : Slot) (pending : Pending (read before.cache k)) :
    Undisturbed (read before.cache k) (read after.cache k) ∨ Frees k before (.loop now) output := by
  cases effect with
  | transmitting => exact Or.inl (undisturbed_refl _ pending.1)
  | ended busy late =>
      by_cases index : before.currentBroadcastIndex = k.val
      · rw [index]
        exact Or.inr (.ended now busy index)
      · rw [indexed_write_entry, if_neg index]
        exact Or.inl (undisturbed_refl _ pending.1)
  | started row cancelled _ idle due unheard earlier rows cells =>
      rw [cells k]
      by_cases member : k ∈ cancelled
      · obtain ⟨⟨dueThere, heard⟩, _⟩ := (rows k).mp member
        exact Or.inr (.covered now cancelled _ member (UInt8.not_lt.mp heard) dueThere)
      · rw [if_neg member]
        exact Or.inl (undisturbed_refl _ pending.1)
  | quiet cancelled _ idle covered rows cells =>
      rw [cells k]
      by_cases member : k ∈ cancelled
      · obtain ⟨dueThere, heard⟩ := (rows k).mp member
        exact Or.inr (.covered now cancelled _ member (UInt8.not_lt.mp heard) dueThere)
      · rw [if_neg member]
        exact Or.inl (undisturbed_refl _ pending.1)

theorem step_keeps_queued (state : RelayState) (event : Event) (k : Slot) (pending : Pending (read state.cache k)) :
    (Undisturbed (read state.cache k) (read (step state event).1.cache k) ∧ ¬ Stores k (event, (step state event).2)) ∨
      Frees k state event (step state event).2 := by
  cases event with
  | onResult device now wifi jitter =>
      have effect := on_result_effect state device now wifi jitter
      cases callback_keeps_active _ _ _ _ _ _ _ effect k pending.1 with
      | inr cause => exact Or.inr (.displaced device now wifi jitter _ cause)
      | inl same =>
          exact (callback_spares_active _ _ _ _ _ _ _ effect k pending.1).imp (fun elsewhere => ⟨same, elsewhere⟩)
            (.displaced device now wifi jitter _)
  | loop now =>
      have effect := loop_effect state now
      refine (loop_keeps_queued _ _ now _ effect k pending).imp_left fun same => ⟨same, fun here => ?_⟩
      exact absurd (here.symm.trans (loop_stores_nothing _ _ now _ effect)) (Option.some_ne_none k)

structure Awaits (packet : EmergencyPacket) (stored jitter : Millis) (entry : CacheEntry) : Prop where
  pending : Pending entry
  hmac : entry.hmac = packet.hmacSig
  packet : entry.packet = relayedPacket packet
  expires : entry.expiresAt = stored + cacheTtlMs
  time : entry.broadcastTime = stored + jitter

theorem awaits_undisturbed (packet : EmergencyPacket) (stored jitter : Millis) (before after : CacheEntry)
    (awaits : Awaits packet stored jitter before) (same : Undisturbed before after) : Awaits packet stored jitter after :=
  ⟨⟨same.active, same.broadcasted.trans awaits.pending.2⟩, same.hmac.trans awaits.hmac, same.packet.trans awaits.packet,
    same.expires.trans awaits.expires, same.time.trans awaits.time⟩

theorem transmitted_source (history : List Record) (i other j : Nat) (first : Transmits history i j)
    (second : Transmits history other j) : i = other := by
  obtain ⟨k, stores, burst, before, kept⟩ := first
  obtain ⟨k', stores', burst', before', kept'⟩ := second
  obtain ⟨record, found, cancelled, frame, output⟩ := burst
  obtain ⟨record', found', cancelled', frame', output'⟩ := burst'
  obtain rfl : record = record' := Option.some.inj (found.symm.trans found')
  obtain rfl : k = k' := by simpa using congrArg Prod.fst (Option.some.inj (Output.scanned.inj (output.symm.trans output')).2)
  rcases Nat.lt_trichotomy i other with less | same | greater
  · exact absurd stores' (kept other less before')
  · exact same
  · exact absurd stores (kept' i greater before)

-- Every burst transmits a packet that its callback queued: what the gateway
-- branch stores is marked or already expired.
theorem burst_origin (events : List Event) (j : Nat) (k : Slot) (burst : At (Bursts k) (relayLog events) j) :
    ∃ i device stored jitter payloadRaw packet, Transmits (relayLog events) i j ∧
      (relayLog events)[i]? = some (.onResult device stored false jitter, .queued k jitter) ∧
      receivedPacket device = some (payloadRaw, packet) ∧ 2 ≤ (ttlOf packet.flags).toNat ∧
      Awaits packet stored jitter (read (relayState (events.take j)).cache k) := by
  obtain ⟨_, _, _, _, _, start⟩ := burst_entry events j k burst
  obtain ⟨i, record, found, transmits, accepted⟩ := burst_source events j k burst
  cases accepted with
  | queued device stored jitter payloadRaw packet received hops key relayed expires time =>
      exact ⟨i, device, stored, jitter, payloadRaw, packet, transmits, found, received, hops,
        ⟨start.due.1, key, relayed, expires, time⟩⟩
  | forwarded device stored jitter payloadRaw packet newLoc received key expires marked =>
      exact absurd (start.due.1.2.symm.trans marked) (by decide)

theorem queued_awaits (before after : RelayState) (device : Advertisement) (now : Millis) (wifi : Bool)
    (jitter : Millis) (output : Output) (effect : CallbackEffect before device now wifi jitter after output)
    (k : Slot) (drawn : Millis) (queued : output = .queued k drawn) (payloadRaw : Bytes) (packet : EmergencyPacket)
    (received : receivedPacket device = some (payloadRaw, packet)) : Awaits packet now jitter (read after.cache k) := by
  cases effect with
  | ignored => simp at queued
  | duplicate => simp at queued
  | dropped _ _ _ _ _ _ _ _ _ _ silent => rcases silent with rfl | rfl <;> simp at queued
  | queued raw parsed _ parsedAs offline absent hops stored burst =>
      rw [received, Option.some.injEq, Prod.mk.injEq] at parsedAs
      obtain ⟨rfl, rfl⟩ := parsedAs
      rw [Output.queued.injEq] at queued
      rw [stored, ← queued.1, add_entry_target]
      exact ⟨⟨rfl, rfl⟩, rfl, rfl, rfl, rfl⟩
  | forwarded => simp at queued

end BeaconMesh.Arduino
