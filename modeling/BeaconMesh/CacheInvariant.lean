import BeaconMesh.Lib.History
import BeaconMesh.RelayStep

set_option autoImplicit false

namespace BeaconMesh.Arduino

open Sweep

structure GoodEntry (entry : CacheEntry) : Prop where
  counted : entry.active = true → 1 ≤ entry.rxCount.toNat ∧ entry.rxCount.toNat ≤ maxTrackedMacs
  distinctMacs : entry.active = true → ∀ a b : Fin maxTrackedMacs, a.val < entry.rxCount.toNat →
    b.val < entry.rxCount.toNat → read entry.seenMacs a = read entry.seenMacs b → a = b
  signed : entry.active = true → entry.packet.hmacSig = entry.hmac
  hops : Pending entry → 1 ≤ (ttlOf entry.packet.flags).toNat ∧ (ttlOf entry.packet.flags).toNat ≤ 30

def DistinctKeys (cache : TimeAwareCache) : Prop :=
  ∀ i j, (read cache i).active = true → (read cache j).active = true →
    (read cache i).hmac = (read cache j).hmac → i = j

structure CacheInvariant (state : RelayState) : Prop where
  keys : DistinctKeys state.cache
  entries : ∀ i, GoodEntry (read state.cache i)
  index : state.isBroadcasting = true → 0 ≤ state.currentBroadcastIndex ∧ state.currentBroadcastIndex < cacheSize

theorem good_inactive (entry : CacheEntry) (inactive : entry.active = false) : GoodEntry entry := by
  have never : ¬ entry.active = true := by simp [inactive]
  exact ⟨fun active => absurd active never, fun active => absurd active never, fun active => absurd active never,
    fun pending => absurd pending.1 never⟩

theorem good_purge (now : Millis) (entry : CacheEntry) (good : GoodEntry entry) : GoodEntry (purge now entry) := by
  by_cases live : Live now entry
  · rwa [purge_live now entry live]
  · rw [purge_dead now entry live]
    exact good_inactive _ rfl

theorem good_marked (entry : CacheEntry) (good : GoodEntry entry) : GoodEntry (markBroadcasted entry) :=
  ⟨good.counted, good.distinctMacs, good.signed, fun pending => absurd pending.2 (by simp [markBroadcasted])⟩

theorem mac_known_iff (entry : CacheEntry) (mac : Mac) :
    macKnown entry mac = true ↔ ∃ j : Fin maxTrackedMacs, j.val < entry.rxCount.toNat ∧ read entry.seenMacs j = mac := by
  simp [macKnown, List.mem_finRange]

theorem count_succ (count : UInt8) (room : count.toNat < maxTrackedMacs) : (count + 1).toNat = count.toNat + 1 := by
  rw [UInt8.toNat_add]
  have one : (1 : UInt8).toNat = 1 := rfl
  have below : count.toNat < 4 := room
  rw [one]
  omega

theorem good_record (entry : CacheEntry) (mac : Mac) (good : GoodEntry entry) : GoodEntry (recordMac entry mac) := by
  unfold recordMac
  split
  · exact good
  · rename_i unknown
    split
    · rename_i room
      have differs : ∀ j : Fin maxTrackedMacs, j.val < entry.rxCount.toNat → read entry.seenMacs j ≠ mac :=
        fun j inside same => unknown ((mac_known_iff entry mac).mpr ⟨j, inside, same⟩)
      have count := count_succ entry.rxCount room
      refine ⟨fun active => ?_, fun active a b insideA insideB same => ?_, good.signed, good.hops⟩
      · dsimp only
        rw [count]
        exact ⟨by omega, room⟩
      · dsimp only at insideA insideB same
        rw [count] at insideA insideB
        rw [read_write, read_write] at same
        by_cases lastA : a = ⟨entry.rxCount.toNat, room⟩ <;> by_cases lastB : b = ⟨entry.rxCount.toNat, room⟩
        · exact lastA.trans lastB.symm
        · have earlier : b.val < entry.rxCount.toNat := by
            have notLast : b.val ≠ entry.rxCount.toNat := fun eq => lastB (Fin.ext eq)
            omega
          rw [if_pos lastA, if_neg lastB] at same
          exact absurd same.symm (differs b earlier)
        · have earlier : a.val < entry.rxCount.toNat := by
            have notLast : a.val ≠ entry.rxCount.toNat := fun eq => lastA (Fin.ext eq)
            omega
          rw [if_neg lastA, if_pos lastB] at same
          exact absurd same (differs a earlier)
        · have earlierA : a.val < entry.rxCount.toNat := by
            have notLast : a.val ≠ entry.rxCount.toNat := fun eq => lastA (Fin.ext eq)
            omega
          have earlierB : b.val < entry.rxCount.toNat := by
            have notLast : b.val ≠ entry.rxCount.toNat := fun eq => lastB (Fin.ext eq)
            omega
          rw [if_neg lastA, if_neg lastB] at same
          exact good.distinctMacs active a b earlierA earlierB same
    · exact good

theorem good_single (entry : CacheEntry) (single : entry.rxCount = 1)
    (signed : entry.packet.hmacSig = entry.hmac)
    (hops : Pending entry → 1 ≤ (ttlOf entry.packet.flags).toNat ∧ (ttlOf entry.packet.flags).toNat ≤ 30) :
    GoodEntry entry := by
  have one : entry.rxCount.toNat = 1 := by
    rw [single]
    rfl
  refine ⟨fun _ => ?_, fun _ a b insideA insideB _ => Fin.ext ?_, fun _ => signed, hops⟩
  · rw [one]
    decide
  · omega

theorem good_gateway (old : CacheEntry) (packet : EmergencyPacket) (now jitter : Millis) (mac : Mac) :
    GoodEntry (gatewayEntry now (freshEntry old packet.hmacSig packet now jitter mac)) := by
  unfold gatewayEntry
  split
  · exact good_single _ rfl rfl (fun pending => absurd pending.2 (by simp [markBroadcasted]))
  · exact good_inactive _ rfl

theorem keys_shrink (before after : TimeAwareCache) (keys : DistinctKeys before)
    (kept : ∀ i, (read after i).active = true → (read before i).active = true ∧ (read after i).hmac = (read before i).hmac) :
    DistinctKeys after := by
  intro i j activeI activeJ same
  obtain ⟨wasI, keyI⟩ := kept i activeI
  obtain ⟨wasJ, keyJ⟩ := kept j activeJ
  exact keys i j wasI wasJ (by rw [← keyI, same, keyJ])

theorem keys_store (before after : TimeAwareCache) (now : Millis) (target : Slot) (hmac : HmacSig)
    (keys : DistinctKeys before) (absent : NoMatch now hmac before) (key : (read after target).hmac = hmac)
    (others : ∀ i, i ≠ target → read after i = purge now (read before i)) : DistinctKeys after := by
  have old : ∀ i, i ≠ target → (read after i).active = true → Live now (read before i) ∧ (read after i).hmac = (read before i).hmac := by
    intro i other active
    rw [others i other] at active ⊢
    exact ⟨(purge_active now _).mp active, purge_hmac now _⟩
  intro i j activeI activeJ same
  by_cases atI : i = target <;> by_cases atJ : j = target
  · rw [atI, atJ]
  · obtain ⟨live, sameKey⟩ := old j atJ activeJ
    refine absurd ⟨live, ?_⟩ (absent j)
    rw [← sameKey, ← same, atI, key]
  · obtain ⟨live, sameKey⟩ := old i atI activeI
    refine absurd ⟨live, ?_⟩ (absent i)
    rw [← sameKey, same, atJ, key]
  · obtain ⟨liveI, keyI⟩ := old i atI activeI
    obtain ⟨liveJ, keyJ⟩ := old j atJ activeJ
    exact keys i j liveI.1 liveJ.1 (by rw [← keyI, same, keyJ])

theorem index_kept (before after : RelayState) (inv : CacheInvariant before) (burst : SameBurst before after) :
    after.isBroadcasting = true → 0 ≤ after.currentBroadcastIndex ∧ after.currentBroadcastIndex < cacheSize := by
  rw [burst.broadcasting, burst.index]
  exact inv.index

theorem store_invariant (before after : RelayState) (now : Millis) (hmac : HmacSig) (inv : CacheInvariant before)
    (absent : NoMatch now hmac before.cache) (key : (read after.cache (targetSlot before.cache now)).hmac = hmac)
    (good : GoodEntry (read after.cache (targetSlot before.cache now)))
    (others : ∀ i, i ≠ targetSlot before.cache now → read after.cache i = purge now (read before.cache i))
    (burst : SameBurst before after) : CacheInvariant after := by
  refine ⟨keys_store _ _ now _ hmac inv.keys absent key others, fun i => ?_, index_kept _ _ inv burst⟩
  by_cases same : i = targetSlot before.cache now
  · rw [same]
    exact good
  · rw [others i same]
    exact good_purge now _ (inv.entries i)

theorem hit_cells (before after : RelayState) (device : Advertisement) (now : Millis) (location : Slot) (inv : CacheInvariant before)
    (recorded : read after.cache location = recordMac (read before.cache location) device.address)
    (others : ∀ i, i ≠ location → read after.cache i = read before.cache i ∨ read after.cache i = purge now (read before.cache i)) (i : Slot) :
    GoodEntry (read after.cache i) ∧ ((read after.cache i).active = true →
      (read before.cache i).active = true ∧ (read after.cache i).hmac = (read before.cache i).hmac) := by
  by_cases hit : i = location
  · rw [hit, recorded]
    exact ⟨good_record _ _ (inv.entries location), fun active => ⟨by simpa using active, by simp⟩⟩
  · cases others i hit with
    | inl same =>
        rw [same]
        exact ⟨inv.entries i, fun active => ⟨active, rfl⟩⟩
    | inr purged =>
        rw [purged]
        exact ⟨good_purge now _ (inv.entries i), fun active => ⟨((purge_active now _).mp active).1, by simp⟩⟩

theorem callback_invariant (before after : RelayState) (device : Advertisement) (now : Millis) (wifi : Bool)
    (jitter : Millis) (output : Output) (inv : CacheInvariant before)
    (effect : CallbackEffect before device now wifi jitter after output) : CacheInvariant after := by
  cases effect with
  | ignored => exact inv
  | duplicate payloadRaw packet location _ received live key recorded others burst =>
      have shape := hit_cells before after device now location inv recorded others
      exact ⟨keys_shrink _ _ inv.keys fun i => (shape i).2, fun i => (shape i).1, index_kept _ _ inv burst⟩
  | dropped payloadRaw packet _ _ received offline absent spent purged burst silent =>
      refine ⟨keys_shrink _ _ inv.keys fun i active => ?_, fun i => ?_, index_kept _ _ inv burst⟩
      · rw [purged, read_map] at active ⊢
        exact ⟨((purge_active now _).mp active).1, by simp⟩
      · rw [purged, read_map]
        exact good_purge now _ (inv.entries i)
  | queued payloadRaw packet _ received offline absent hops stored burst =>
      have next := ttl_next_hop packet.flags (by omega)
      have bound := ttl_lt packet.flags
      have target := add_entry_target before.cache packet.hmacSig (relayedPacket packet) now jitter device.address
      rw [← stored] at target
      apply store_invariant before after now packet.hmacSig inv absent
      · rw [target]
        rfl
      · rw [target]
        refine good_single _ rfl rfl fun _ => ?_
        dsimp only [freshEntry, relayedPacket]
        rw [next]
        omega
      · intro i other
        rw [stored, add_entry_other _ _ _ _ _ _ _ other]
      · exact burst
  | forwarded payloadRaw packet _ newLoc received online absent stored lookedUp burst =>
      have target := read_write_self (addToCache before.cache packet.hmacSig packet now 0 device.address).2
        (targetSlot before.cache now) (gatewayEntry now (freshEntry
          (purge now (read before.cache (targetSlot before.cache now))) packet.hmacSig packet now 0 device.address))
      rw [← stored] at target
      apply store_invariant before after now packet.hmacSig inv absent
      · rw [target, gatewayEntry]
        split <;> rfl
      · rw [target]
        exact good_gateway _ packet now 0 device.address
      · intro i other
        rw [stored, read_write_ne _ _ _ _ other, add_entry_other _ _ _ _ _ _ _ other]
      · exact burst

theorem marked_shape (cache : TimeAwareCache) (i : Slot) (entry : CacheEntry)
    (shape : entry = read cache i ∨ entry = markBroadcasted (read cache i)) (good : GoodEntry (read cache i)) :
    GoodEntry entry ∧ entry.active = (read cache i).active ∧ entry.hmac = (read cache i).hmac := by
  cases shape with
  | inl same =>
      rw [same]
      exact ⟨good, rfl, rfl⟩
  | inr marked =>
      rw [marked]
      exact ⟨good_marked _ good, rfl, rfl⟩

theorem indexed_write_entry (cache : TimeAwareCache) (index : Int) (i : Slot) :
    read (indexedWrite cache index) i =
      if index = i.val then markBroadcasted (read cache i) else read cache i := by
  unfold indexedWrite
  by_cases inside : 0 ≤ index ∧ index.toNat < cacheSize
  · rw [dif_pos inside, read_write]
    by_cases same : index = i.val
    · have slot : i = ⟨index.toNat, inside.2⟩ := Fin.ext (by simp only; omega)
      rw [if_pos slot, if_pos same, ← slot]
    · have slot : i ≠ ⟨index.toNat, inside.2⟩ := by
        intro eq
        have value : i.val = index.toNat := congrArg Fin.val eq
        omega
      rw [if_neg slot, if_neg same]
  · have outside : index ≠ i.val := by
      intro same
      have bound : i.val < cacheSize := i.isLt
      omega
    rw [dif_neg inside, if_neg outside]

theorem loop_entry (before after : RelayState) (now : Millis) (output : Output)
    (effect : LoopEffect before now after output) (i : Slot) :
    read after.cache i = read before.cache i ∨ read after.cache i = markBroadcasted (read before.cache i) := by
  cases effect with
  | transmitting => exact Or.inl rfl
  | ended =>
      rw [indexed_write_entry]
      split
      · exact Or.inr rfl
      · exact Or.inl rfl
  | started row cancelled _ idle due unheard earlier rows cells =>
      rw [cells i]
      split
      · exact Or.inr rfl
      · exact Or.inl rfl
  | quiet cancelled _ idle covered rows cells =>
      rw [cells i]
      split
      · exact Or.inr rfl
      · exact Or.inl rfl

theorem loop_invariant (before after : RelayState) (now : Millis) (output : Output) (inv : CacheInvariant before)
    (effect : LoopEffect before now after output) : CacheInvariant after := by
  have shape := fun i => marked_shape before.cache i _ (loop_entry before after now output effect i) (inv.entries i)
  refine ⟨keys_shrink _ _ inv.keys fun i active => ⟨by rw [← (shape i).2.1]; exact active, (shape i).2.2⟩,
    fun i => (shape i).1, ?_⟩
  cases effect with
  | transmitting => exact inv.index
  | ended => exact fun never => absurd never Bool.false_ne_true
  | started row cancelled _ idle due unheard earlier rows cells broadcasting endTime index =>
      intro _
      rw [index]
      have bound : row.val < cacheSize := row.isLt
      omega
  | quiet cancelled _ idle covered rows cells burst => exact index_kept _ _ inv burst

theorem start_invariant : CacheInvariant RelayState.start := by
  have cell : ∀ i, read RelayState.start.cache i = CacheEntry.zero := fun i => read_blank i _
  refine ⟨fun i j activeI => ?_, fun i => ?_, fun never => absurd never Bool.false_ne_true⟩
  · rw [cell i] at activeI
    exact absurd activeI Bool.false_ne_true
  · rw [cell i]
    exact good_inactive _ rfl

theorem step_invariant (state : RelayState) (event : Event) (inv : CacheInvariant state) :
    CacheInvariant (step state event).1 := by
  cases event with
  | onResult device now wifi jitter =>
      exact callback_invariant _ _ _ _ _ _ _ inv (on_result_effect state device now wifi jitter)
  | loop now => exact loop_invariant _ _ _ _ inv (loop_effect state now)

-- For arbitrary readings of the clock, wrapped or out of order.
theorem reachable_invariant (events : List Event) : CacheInvariant (History.final step .start events) :=
  History.state_invariant step .start CacheInvariant start_invariant step_invariant events

theorem relay_cache_representation (events : List Event) :
    let state := History.final step .start events
    (∀ i j, (read state.cache i).active = true → (read state.cache j).active = true →
      (read state.cache i).hmac = (read state.cache j).hmac → i = j) ∧
    (∀ i, (read state.cache i).active = true →
      (1 ≤ (read state.cache i).rxCount.toNat ∧ (read state.cache i).rxCount.toNat ≤ maxTrackedMacs) ∧
      (∀ a b : Fin maxTrackedMacs, a.val < (read state.cache i).rxCount.toNat →
        b.val < (read state.cache i).rxCount.toNat →
        read (read state.cache i).seenMacs a = read (read state.cache i).seenMacs b → a = b) ∧
      (read state.cache i).packet.hmacSig = (read state.cache i).hmac) ∧
    (∀ i, (read state.cache i).active = true → (read state.cache i).broadcasted = false →
      1 ≤ (ttlOf (read state.cache i).packet.flags).toNat ∧ (ttlOf (read state.cache i).packet.flags).toNat ≤ 30) ∧
    (state.isBroadcasting = true → 0 ≤ state.currentBroadcastIndex ∧ state.currentBroadcastIndex < cacheSize) := by
  intro state
  obtain ⟨keys, entries, index⟩ := reachable_invariant events
  refine ⟨keys, fun i active => ?_, fun i active waiting => (entries i).hops ⟨active, waiting⟩, index⟩
  exact ⟨(entries i).counted active, (entries i).distinctMacs active, (entries i).signed active⟩

end BeaconMesh.Arduino
