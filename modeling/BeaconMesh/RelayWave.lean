import BeaconMesh.EspNetwork
import BeaconMesh.RedundancyCount

set_option autoImplicit false

namespace BeaconMesh.Arduino

open Sweep History

-- Two seconds of the relay's clock, the lifetime of an entry.
def InWindow (start : Nat) (now : Millis) : Prop := start ≤ now.toNat ∧ now.toNat < start + 2000

instance (start : Nat) (now : Millis) : Decidable (InWindow start now) := inferInstanceAs (Decidable (_ ∧ _))

-- A cache filled in the window, under these keys and from these senders.
structure Unspoilt (start : Nat) (macs : Finset Mac) (keys : Finset HmacSig) (cache : TimeAwareCache) : Prop where
  lasting : ∀ k, (read cache k).active = true → start + 2000 ≤ (read cache k).expiresAt.toNat
  senders : ∀ k, (read cache k).active = true → recordedMacs (read cache k) ⊆ macs
  keys : ∀ k, (read cache k).active = true → (read cache k).hmac ∈ keys

structure Carries (before after : CacheEntry) : Prop where
  active : after.active = true
  hmac : after.hmac = before.hmac
  broadcasted : after.broadcasted = before.broadcasted

-- What the relay makes of a packet it hears in the window: nothing is
-- forgotten, and what is new waits unless a gateway has sent it upstream.
structure Absorbs (before after : RelayState) (packet : EmergencyPacket) (online : Bool) (output : Output) : Prop where
  kept : ∀ k, (read before.cache k).active = true → Carries (read before.cache k) (read after.cache k)
  fresh : ∀ k, (read before.cache k).active = false → (read after.cache k).active = true →
    storedSlot output = some k ∧ (read after.cache k).hmac = packet.hmacSig ∧ (read after.cache k).broadcasted = online
  stored : ∀ k, storedSlot output = some k → (read before.cache k).active = false
  absent : ∀ k, storedSlot output = some k → ∀ j, (read before.cache j).active = true → (read before.cache j).hmac ≠ packet.hmacSig
  sent : ∀ k, storedSlot output = some k → online = true → sentDatagrams output ≠ []
  holds : (online = true ∨ 2 ≤ (ttlOf packet.flags).toNat) ∨ (∃ k, (read before.cache k).active = true ∧ (read before.cache k).hmac = packet.hmacSig) →
    ∃ k, (read after.cache k).active = true ∧ (read after.cache k).hmac = packet.hmacSig
  burst : SameBurst before after

theorem expiry_value (start : Nat) (now : Millis) (fits : start + 4000 < 2 ^ 32) (window : InWindow start now) :
    (now + cacheTtlMs).toNat = now.toNat + 2000 := by
  have lifetime : cacheTtlMs.toNat = 2000 := rfl
  have late := window.2
  rw [BitVec.toNat_add, lifetime, Nat.mod_eq_of_lt (by omega)]

theorem recorded_subset (entry : CacheEntry) (mac : Mac) : recordedMacs (recordMac entry mac) ⊆ insert mac (recordedMacs entry) := by
  cases known : macKnown entry mac with
  | true =>
      rw [recordMac, if_pos known]
      exact Finset.subset_insert mac _
  | false =>
      by_cases room : entry.rxCount.toNat < maxTrackedMacs
      · rw [recorded_record entry mac known room]
      · rw [recordMac, if_neg (ne_true_of_eq_false known), dif_neg room]
        exact Finset.subset_insert mac _

section Window

variable (start : Nat) (macs : Finset Mac) (keys : Finset HmacSig) (before after : RelayState) (now : Millis)
  (unspoilt : Unspoilt start macs keys before.cache) (window : InWindow start now)

include unspoilt window

theorem window_live (k : Slot) (active : (read before.cache k).active = true) : Live now (read before.cache k) :=
  ⟨active, BitVec.lt_def.mpr (window.2.trans_le (unspoilt.lasting k active))⟩

theorem window_purge (k : Slot) : purge now (read before.cache k) = read before.cache k := by
  cases active : (read before.cache k).active with
  | true => exact purge_live now _ (window_live start macs keys before now unspoilt window k active)
  | false =>
      rw [purge_dead now _ fun live => absurd (active.symm.trans live.1) Bool.false_ne_true]
      exact deactivate_inactive _ active

theorem window_absent (hmac : HmacSig) (absent : NoMatch now hmac before.cache) (k : Slot)
    (active : (read before.cache k).active = true) : (read before.cache k).hmac ≠ hmac :=
  fun same => absent k ⟨window_live start macs keys before now unspoilt window k active, same⟩

-- A full cache holds every key there is, the absent one too.
theorem window_free (hmac : HmacSig) (few : keys.card ≤ cacheSize) (distinct : DistinctKeys before.cache) (member : hmac ∈ keys)
    (absent : NoMatch now hmac before.cache) : (read before.cache (targetSlot before.cache now)).active = false := by
  cases target_free_or_oldest before.cache now with
  | inl free => exact Bool.eq_false_iff.mpr fun active => free (window_live start macs keys before now unspoilt window _ active)
  | inr full =>
      have others : ∀ k ∈ (Finset.univ : Finset Slot), (read before.cache k).hmac ∈ keys.erase hmac := fun k _ =>
        Finset.mem_erase.mpr ⟨window_absent start macs keys before now unspoilt window hmac absent k (full.1 k).1, unspoilt.keys k (full.1 k).1⟩
      have bound := Finset.card_le_card_of_injOn (fun k => (read before.cache k).hmac) others
        fun i _ j _ same => distinct i j (full.1 i).1 (full.1 j).1 same
      rw [Finset.card_univ, Fintype.card_fin, Finset.card_erase_of_mem member] at bound
      have some := Finset.card_pos.mpr ⟨hmac, member⟩
      omega

end Window

theorem absorbs_same (before after : RelayState) (packet : EmergencyPacket) (online : Bool) (output : Output)
    (cells : ∀ k, read after.cache k = read before.cache k ∨ ∃ mac, read after.cache k = recordMac (read before.cache k) mac)
    (stored : storedSlot output = none) (burst : SameBurst before after)
    (held : (online = true ∨ 2 ≤ (ttlOf packet.flags).toNat) ∨ (∃ k, (read before.cache k).active = true ∧ (read before.cache k).hmac = packet.hmacSig) →
      ∃ k, (read before.cache k).active = true ∧ (read before.cache k).hmac = packet.hmacSig) : Absorbs before after packet online output := by
  have carries : ∀ k, (read before.cache k).active = (read after.cache k).active ∧ (read after.cache k).hmac = (read before.cache k).hmac ∧
      (read after.cache k).broadcasted = (read before.cache k).broadcasted := by
    intro k
    cases cells k with
    | inl same => rw [same]; exact ⟨rfl, rfl, rfl⟩
    | inr recorded =>
        obtain ⟨mac, value⟩ := recorded
        simp [value]
  refine ⟨fun k active => ⟨(carries k).1 ▸ active, (carries k).2.1, (carries k).2.2⟩, fun k free active => ?_, fun k here => ?_,
    fun k here => ?_, fun k here => ?_, fun known => ?_, burst⟩
  · exact absurd ((carries k).1.trans active) (ne_true_of_eq_false free)
  · exact absurd (stored.symm.trans here) (Option.some_ne_none k).symm
  · exact absurd (stored.symm.trans here) (Option.some_ne_none k).symm
  · exact absurd (stored.symm.trans here) (Option.some_ne_none k).symm
  · obtain ⟨k, active, key⟩ := held known
    exact ⟨k, (carries k).1 ▸ active, (carries k).2.1.trans key⟩

theorem absorbs_new (before after : RelayState) (packet : EmergencyPacket) (online : Bool) (output : Output) (slot : Slot)
    (free : (read before.cache slot).active = false) (others : ∀ k, k ≠ slot → read after.cache k = read before.cache k)
    (absent : ∀ j, (read before.cache j).active = true → (read before.cache j).hmac ≠ packet.hmacSig)
    (active : (read after.cache slot).active = true) (key : (read after.cache slot).hmac = packet.hmacSig)
    (marked : (read after.cache slot).broadcasted = online) (stored : storedSlot output = some slot)
    (sent : online = true → sentDatagrams output ≠ []) (burst : SameBurst before after) : Absorbs before after packet online output := by
  refine ⟨fun k here => ?_, fun k unused here => ?_, fun k here => ?_, fun _ _ => absent, fun _ _ => sent,
    fun _ => ⟨slot, active, key⟩, burst⟩
  · have other : k ≠ slot := fun same => absurd (here.symm.trans (same ▸ free)) (by decide)
    rw [others k other]
    exact ⟨here, rfl, rfl⟩
  · by_cases same : k = slot
    · rw [same]
      exact ⟨stored, key, marked⟩
    · rw [others k same] at here
      exact absurd (here.symm.trans unused) (by decide)
  · obtain rfl : slot = k := Option.some.inj (stored.symm.trans here)
    exact free

theorem callback_absorbs (start : Nat) (macs : Finset Mac) (keys : Finset HmacSig) (before after : RelayState) (device : Advertisement)
    (now : Millis) (online : Bool) (jitter : Millis) (output : Output) (payloadRaw : Bytes) (packet : EmergencyPacket)
    (effect : CallbackEffect before device now online jitter after output) (received : receivedPacket device = some (payloadRaw, packet))
    (unspoilt : Unspoilt start macs keys before.cache) (distinct : DistinctKeys before.cache) (window : InWindow start now)
    (fits : start + 4000 < 2 ^ 32) (few : keys.card ≤ cacheSize) (member : packet.hmacSig ∈ keys) :
    Absorbs before after packet online output := by
  have purged := window_purge start macs keys before now unspoilt window
  cases effect with
  | ignored filtered => exact absurd (filtered.symm.trans received) (Option.some_ne_none _).symm
  | duplicate _ heard location _ itself live key recorded others burst =>
      obtain rfl : heard = packet := (Prod.mk.inj (Option.some.inj (itself.symm.trans received))).2
      refine absorbs_same before after heard online _ (fun k => ?_) rfl burst fun _ => ⟨location, live.1, key⟩
      by_cases same : k = location
      · rw [same]
        exact Or.inr ⟨device.address, recorded⟩
      · cases others k same with
        | inl unchanged => exact Or.inl unchanged
        | inr gone => exact Or.inl (gone.trans (purged k))
  | dropped _ heard _ _ itself offline absent spent cells burst silent =>
      obtain rfl : heard = packet := (Prod.mk.inj (Option.some.inj (itself.symm.trans received))).2
      refine absorbs_same before after heard online _ (fun k => ?_) ?_ burst fun known => ?_
      · rw [cells, read_map]
        exact Or.inl (purged k)
      · cases silent with
        | inl expired => rw [expired]; rfl
        | inr zero => rw [zero]; rfl
      · cases known with
        | inl able =>
            cases able with
            | inl connected => exact absurd (offline.symm.trans connected) Bool.false_ne_true
            | inr hops => omega
        | inr held => exact held
  | queued _ heard _ itself offline absent hops stored burst =>
      obtain rfl : heard = packet := (Prod.mk.inj (Option.some.inj (itself.symm.trans received))).2
      have target := add_entry_target before.cache heard.hmacSig (relayedPacket heard) now jitter device.address
      rw [← stored] at target
      have free := window_free start macs keys before now unspoilt window heard.hmacSig few distinct member absent
      refine absorbs_new before after heard online _ _ free (fun k other => ?_)
        (window_absent start macs keys before now unspoilt window heard.hmacSig absent) ?_ ?_ ?_ rfl ?_ burst
      · rw [stored, add_entry_other _ _ _ _ _ _ _ other]
        exact purged k
      · rw [target]
        rfl
      · rw [target]
        rfl
      · rw [target, offline]
        rfl
      · exact fun connected => absurd (offline.symm.trans connected) Bool.false_ne_true
  | forwarded _ heard _ newLoc itself connected absent stored lookedUp burst =>
      obtain rfl : heard = packet := (Prod.mk.inj (Option.some.inj (itself.symm.trans received))).2
      have lasting : now < now + cacheTtlMs := by
        rw [BitVec.lt_def, expiry_value start now fits window]
        omega
      have free := window_free start macs keys before now unspoilt window heard.hmacSig few distinct member absent
      rw [gatewayEntry, if_pos lasting] at stored
      have target := read_write_self (addToCache before.cache heard.hmacSig heard now 0 device.address).2 (targetSlot before.cache now)
        (markBroadcasted (freshEntry (purge now (read before.cache (targetSlot before.cache now))) heard.hmacSig heard now 0 device.address))
      rw [← stored] at target
      refine absorbs_new before after heard online _ _ free (fun k other => ?_)
        (window_absent start macs keys before now unspoilt window heard.hmacSig absent) ?_ ?_ ?_ rfl ?_ burst
      · rw [stored, read_write_ne _ _ _ _ other, add_entry_other _ _ _ _ _ _ _ other]
        exact purged k
      · rw [target]
        rfl
      · rw [target]
        rfl
      · rw [target, connected]
        rfl
      · exact fun _ => List.cons_ne_nil _ _

theorem unspoilt_fresh (start : Nat) (macs : Finset Mac) (keys : Finset HmacSig) (old : CacheEntry) (packet : EmergencyPacket) (now jitter : Millis)
    (mac : Mac) (fits : start + 4000 < 2 ^ 32) (window : InWindow start now) (sender : mac ∈ macs) (member : packet.hmacSig ∈ keys)
    (entry : CacheEntry) (shape : entry = freshEntry old packet.hmacSig packet now jitter mac ∨
      entry = markBroadcasted (freshEntry old packet.hmacSig packet now jitter mac)) :
    start + 2000 ≤ entry.expiresAt.toNat ∧ recordedMacs entry ⊆ macs ∧ entry.hmac ∈ keys := by
  have early := window.1
  have single : recordedMacs (freshEntry old packet.hmacSig packet now jitter mac) = {mac} :=
    recorded_fresh _ mac rfl (read_write_self _ _ _)
  have subset : recordedMacs (freshEntry old packet.hmacSig packet now jitter mac) ⊆ macs := by
    rw [single]
    exact Finset.singleton_subset_iff.mpr sender
  have expiry : start + 2000 ≤ (now + cacheTtlMs).toNat := by
    rw [expiry_value start now fits window]
    omega
  cases shape with
  | inl same => rw [same]; exact ⟨expiry, subset, member⟩
  | inr marked => rw [marked]; exact ⟨expiry, subset, member⟩

theorem callback_unspoilt (start : Nat) (macs : Finset Mac) (keys : Finset HmacSig) (before after : RelayState) (device : Advertisement)
    (now : Millis) (online : Bool) (jitter : Millis) (output : Output)
    (effect : CallbackEffect before device now online jitter after output)
    (member : ∀ payloadRaw packet, receivedPacket device = some (payloadRaw, packet) → packet.hmacSig ∈ keys)
    (unspoilt : Unspoilt start macs keys before.cache) (window : InWindow start now)
    (fits : start + 4000 < 2 ^ 32) (sender : device.address ∈ macs) : Unspoilt start macs keys after.cache := by
  have purged := window_purge start macs keys before now unspoilt window
  have old : ∀ k, (read before.cache k).active = true →
      start + 2000 ≤ (read before.cache k).expiresAt.toNat ∧ recordedMacs (read before.cache k) ⊆ macs ∧ (read before.cache k).hmac ∈ keys :=
    fun k active => ⟨unspoilt.lasting k active, unspoilt.senders k active, unspoilt.keys k active⟩
  have cells : ∀ k, (read after.cache k).active = true → start + 2000 ≤ (read after.cache k).expiresAt.toNat ∧
      recordedMacs (read after.cache k) ⊆ macs ∧ (read after.cache k).hmac ∈ keys := by
    intro k active
    cases effect with
    | ignored => exact old k active
    | duplicate _ packet location _ received live key recorded others burst =>
        by_cases same : k = location
        · rw [same, recorded] at active ⊢
          obtain ⟨lasting, macsOnly, key⟩ := old location ((record_active _ _).symm.trans active)
          rw [record_expires, record_hmac]
          exact ⟨lasting, (recorded_subset _ _).trans (Finset.insert_subset sender macsOnly), key⟩
        · have unchanged : read after.cache k = read before.cache k := (others k same).elim id fun gone => gone.trans (purged k)
          rw [unchanged] at active ⊢
          exact old k active
    | dropped _ packet _ _ received offline absent spent stored burst silent =>
        rw [stored, read_map, purged k] at active ⊢
        exact old k active
    | queued _ packet _ received offline absent hops stored burst =>
        by_cases same : k = targetSlot before.cache now
        · have target := add_entry_target before.cache packet.hmacSig (relayedPacket packet) now jitter device.address
          rw [← stored, ← same] at target
          exact unspoilt_fresh start macs keys _ (relayedPacket packet) now jitter device.address fits window sender
            (member _ packet received) _ (Or.inl target)
        · rw [stored, add_entry_other _ _ _ _ _ _ _ same, purged k] at active ⊢
          exact old k active
    | forwarded _ packet _ newLoc received connected absent stored lookedUp burst =>
        by_cases same : k = targetSlot before.cache now
        · have lasting : now < now + cacheTtlMs := by
            rw [BitVec.lt_def, expiry_value start now fits window]
            omega
          rw [gatewayEntry, if_pos lasting] at stored
          have target := read_write_self (addToCache before.cache packet.hmacSig packet now 0 device.address).2 (targetSlot before.cache now)
            (markBroadcasted (freshEntry (purge now (read before.cache (targetSlot before.cache now))) packet.hmacSig packet now 0 device.address))
          rw [← stored, ← same] at target
          exact unspoilt_fresh start macs keys _ packet now 0 device.address fits window sender (member _ packet received) _ (Or.inr target)
        · rw [stored, read_write_ne _ _ _ _ same, add_entry_other _ _ _ _ _ _ _ same, purged k] at active ⊢
          exact old k active
  exact ⟨fun k active => (cells k active).1, fun k active => (cells k active).2.1, fun k active => (cells k active).2.2⟩

-- What loop() does where no packet was heard often enough to be cancelled.
structure Turns (before after : RelayState) (output : Output) : Prop where
  cells : ∀ k, read after.cache k = read before.cache k ∨ (read after.cache k = markBroadcasted (read before.cache k) ∧
    before.isBroadcasting = true ∧ before.currentBroadcastIndex = k.val)
  busy : after.isBroadcasting = true → (before.isBroadcasting = true ∧ after.currentBroadcastIndex = before.currentBroadcastIndex) ∨
    ∃ row frame, startedBurst output = some (row, frame) ∧ after.currentBroadcastIndex = row.val
  started : ∀ row frame, startedBurst output = some (row, frame) → Pending (read before.cache row)

theorem loop_turns (start : Nat) (macs : Finset Mac) (keys : Finset HmacSig) (before after : RelayState) (now : Millis) (output : Output)
    (effect : LoopEffect before now after output) (unspoilt : Unspoilt start macs keys before.cache) (invariant : CacheInvariant before)
    (few : macs.card ≤ 3) : Turns before after output := by
  have spared : ∀ k, Due now (read before.cache k) → (read before.cache k).rxCount < redundancy := by
    intro k due
    have card := recorded_card _ (invariant.entries k) due.1.1
    have bound := (Finset.card_le_card (unspoilt.senders k due.1.1)).trans few
    have limit : redundancy.toNat = 4 := rfl
    rw [UInt8.lt_iff_toNat_lt, limit]
    omega
  cases effect with
  | transmitting busy early =>
      exact ⟨fun k => Or.inl rfl, fun _ => Or.inl ⟨busy, rfl⟩, fun row frame never => absurd never.symm (Option.some_ne_none _)⟩
  | ended busy late =>
      refine ⟨fun k => ?_, fun never => absurd never Bool.false_ne_true, fun row frame never => absurd never.symm (Option.some_ne_none _)⟩
      rw [indexed_write_entry]
      by_cases here : before.currentBroadcastIndex = k.val
      · rw [if_pos here]
        exact Or.inr ⟨rfl, busy, here⟩
      · rw [if_neg here]
        exact Or.inl rfl
  | started row cancelled _ idle due unheard earlier rows cells broadcasting endTime index =>
      refine ⟨fun k => ?_, fun _ => Or.inr ⟨row, _, rfl, index⟩, fun other frame same => ?_⟩
      · rw [cells k, if_neg fun member => ((rows k).mp member).1.2 (spared k ((rows k).mp member).1.1)]
        exact Or.inl rfl
      · obtain rfl : row = other := (Prod.mk.inj (Option.some.inj same)).1
        exact due.1
  | quiet cancelled _ idle covered rows cells burst =>
      refine ⟨fun k => ?_, fun busy => Or.inl ⟨burst.broadcasting ▸ busy, burst.index⟩,
        fun row frame never => absurd never.symm (Option.some_ne_none _)⟩
      rw [cells k, if_neg fun member => ((rows k).mp member).2 (spared k ((rows k).mp member).1)]
      exact Or.inl rfl

theorem loop_unspoilt (start : Nat) (macs : Finset Mac) (keys : Finset HmacSig) (before after : RelayState) (now : Millis) (output : Output)
    (effect : LoopEffect before now after output) (unspoilt : Unspoilt start macs keys before.cache) : Unspoilt start macs keys after.cache := by
  have kept : ∀ k, (read after.cache k).active = (read before.cache k).active ∧ (read after.cache k).expiresAt = (read before.cache k).expiresAt ∧
      recordedMacs (read after.cache k) = recordedMacs (read before.cache k) ∧ (read after.cache k).hmac = (read before.cache k).hmac := by
    intro k
    cases loop_entry before after now output effect k with
    | inl same => rw [same]; exact ⟨rfl, rfl, rfl, rfl⟩
    | inr marked => rw [marked]; exact ⟨rfl, rfl, rfl, rfl⟩
  refine ⟨fun k active => ?_, fun k active => ?_, fun k active => ?_⟩
  · rw [(kept k).2.1]
    exact unspoilt.lasting k ((kept k).1 ▸ active)
  · rw [(kept k).2.2.1]
    exact unspoilt.senders k ((kept k).1 ▸ active)
  · rw [(kept k).2.2.2]
    exact unspoilt.keys k ((kept k).1 ▸ active)

end BeaconMesh.Arduino
