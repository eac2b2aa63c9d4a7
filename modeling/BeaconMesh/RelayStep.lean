import BeaconMesh.EspRelay

set_option autoImplicit false

namespace BeaconMesh.Arduino

open Sweep

def NoMatch (now : Millis) (hmac : HmacSig) (cache : TimeAwareCache) : Prop :=
  ∀ i, ¬ (Live now (read cache i) ∧ (read cache i).hmac = hmac)

theorem live_purge (now : Millis) (entry : CacheEntry) : Live now (purge now entry) ↔ Live now entry := by
  by_cases live : Live now entry
  · rw [purge_live now entry live]
  · have gone : ¬ Live now (deactivate entry) := fun still => Bool.false_ne_true still.1
    rw [purge_dead now entry live]
    exact iff_of_false gone live

@[simp] theorem purge_purge (now : Millis) (entry : CacheEntry) : purge now (purge now entry) = purge now entry := by
  by_cases live : Live now entry
  · rw [purge_live now entry live, purge_live now entry live]
  · have dead : ¬ Live now (purge now entry) := fun still => live ((live_purge now entry).mp still)
    rw [purge_dead now _ dead, purge_dead now entry live]
    rfl

theorem check_cache_miss_cache (cache : TimeAwareCache) (hmac : HmacSig) (now : Millis) (mac : Mac)
    (status : Option String) (miss : (checkCache cache hmac now mac status).location = none) :
    (checkCache cache hmac now mac status).cache = mapCells (purge now) cache := by
  apply cells_ext
  intro i
  rw [check_cache_miss_entry cache hmac now mac status i miss, read_map]

theorem purge_map_twice (cache : TimeAwareCache) (now : Millis) :
    mapCells (purge now) (mapCells (purge now) cache) = mapCells (purge now) cache := by
  apply cells_ext
  intro i
  simp

theorem target_after_purge (cache : TimeAwareCache) (now : Millis) :
    targetSlot (mapCells (purge now) cache) now = targetSlot cache now := by
  have free : first (isFree now) (mapCells (purge now) cache) = first (isFree now) cache := by
    apply first_congr
    intro i
    rw [read_map, Bool.eq_iff_iff, is_free_iff, is_free_iff, live_purge]
  simp only [targetSlot, free, purge_map_twice]

-- A missed lookup has already purged what the insertion would purge.
theorem add_after_purge (cache : TimeAwareCache) (hmac : HmacSig) (packet : EmergencyPacket)
    (now jitter : Millis) (mac : Mac) :
    addToCache (mapCells (purge now) cache) hmac packet now jitter mac = addToCache cache hmac packet now jitter mac := by
  simp only [addToCache, target_after_purge, purge_map_twice]

theorem record_fresh (old : CacheEntry) (hmac : HmacSig) (packet : EmergencyPacket) (now jitter : Millis) (mac : Mac) :
    recordMac (freshEntry old hmac packet now jitter mac) mac = freshEntry old hmac packet now jitter mac := by
  have known : macKnown (freshEntry old hmac packet now jitter mac) mac = true := by
    rw [macKnown, List.any_eq_true]
    exact ⟨0, List.mem_finRange 0, by simp [freshEntry]⟩
  rw [recordMac, if_pos known]

-- What the gateway's slot holds when the callback returns: marked, unless its
-- deadline wrapped and the second lookup already found it expired.
def gatewayEntry (now : Millis) (entry : CacheEntry) : CacheEntry :=
  if now < now + cacheTtlMs then markBroadcasted entry else deactivate entry

theorem fresh_live (old : CacheEntry) (hmac : HmacSig) (packet : EmergencyPacket) (now jitter : Millis) (mac : Mac) :
    Live now (freshEntry old hmac packet now jitter mac) ↔ now < now + cacheTtlMs := by
  simp [Live, freshEntry]

theorem added_live_match (cache : TimeAwareCache) (hmac : HmacSig) (packet : EmergencyPacket) (now jitter : Millis)
    (mac : Mac) (absent : NoMatch now hmac cache) (i : Slot)
    (found : Live now (read (addToCache cache hmac packet now jitter mac).2 i) ∧
      (read (addToCache cache hmac packet now jitter mac).2 i).hmac = hmac) : i = targetSlot cache now := by
  by_contra other
  rw [add_entry_other cache hmac packet now jitter mac i other, live_purge, purge_hmac] at found
  exact absent i found

theorem lookup_after_add (cache : TimeAwareCache) (hmac : HmacSig) (packet : EmergencyPacket) (now jitter : Millis)
    (mac : Mac) (status : Option String) (absent : NoMatch now hmac cache) :
    let added := (addToCache cache hmac packet now jitter mac).2
    let target := targetSlot cache now
    (now < now + cacheTtlMs →
      (checkCache added hmac now mac status).location = some target ∧
        (checkCache added hmac now mac status).cache = added) ∧
    (¬ now < now + cacheTtlMs →
      (checkCache added hmac now mac status).location = none ∧
        (checkCache added hmac now mac status).cache = write added target (deactivate (read added target))) := by
  intro added target
  have atTarget : read added target = _ := add_entry_target cache hmac packet now jitter mac
  have elsewhere : ∀ i, i ≠ target → purge now (read added i) = read added i := by
    intro i other
    have cell : read added i = _ := add_entry_other cache hmac packet now jitter mac i other
    rw [cell, purge_purge]
  constructor
  · intro lasting
    have live : Live now (read added target) := by
      rw [atTarget, fresh_live]
      exact lasting
    have hit : (checkCache added hmac now mac status).location = some target := by
      refine (check_cache_hit _ _ _ _ _ _).mpr ⟨⟨live, by rw [atTarget]; rfl⟩, fun i before found => ?_⟩
      exact before.ne (added_live_match cache hmac packet now jitter mac absent i found)
    refine ⟨hit, cells_ext _ _ fun i => ?_⟩
    rcases check_cache_entry added hmac now mac status i with ⟨at_i, recorded⟩ | ⟨notHit, unchanged⟩
    · obtain rfl : target = i := Option.some.inj (hit.symm.trans at_i)
      rw [recorded, atTarget, record_fresh]
    · have other : i ≠ target := fun same => notHit (same ▸ hit)
      cases unchanged with
      | inl same => exact same
      | inr purged => rw [purged, elsewhere i other]
  · intro wrapped
    have dead : ¬ Live now (read added target) := by
      rw [atTarget, fresh_live]
      exact wrapped
    have miss : (checkCache added hmac now mac status).location = none := by
      refine (check_cache_miss _ _ _ _ _).mpr fun i found => ?_
      rw [added_live_match cache hmac packet now jitter mac absent i found] at found
      exact dead found.1
    refine ⟨miss, cells_ext _ _ fun i => ?_⟩
    rw [check_cache_miss_entry added hmac now mac status i miss]
    by_cases same : i = target
    · rw [same, read_write_self, purge_dead now _ dead]
    · rw [read_write_ne _ _ _ _ same, elsewhere i same]

structure SameBurst (before after : RelayState) : Prop where
  broadcasting : after.isBroadcasting = before.isBroadcasting
  endTime : after.broadcastEndTime = before.broadcastEndTime
  index : after.currentBroadcastIndex = before.currentBroadcastIndex

-- Everything one callback can do to the cache, with the guards it passed.
inductive CallbackEffect (before : RelayState) (device : Advertisement) (now : Millis) (wifi : Bool)
    (jitter : Millis) : RelayState → Output → Prop where
  | ignored (filtered : receivedPacket device = none) : CallbackEffect before device now wifi jitter before .ignored
  | duplicate (payloadRaw : Bytes) (packet : EmergencyPacket) (location : Slot) (after : RelayState)
      (received : receivedPacket device = some (payloadRaw, packet))
      (live : Live now (read before.cache location))
      (key : (read before.cache location).hmac = packet.hmacSig)
      (recorded : read after.cache location = recordMac (read before.cache location) device.address)
      (others : ∀ i, i ≠ location → read after.cache i = read before.cache i ∨
        read after.cache i = purge now (read before.cache i))
      (burst : SameBurst before after) : CallbackEffect before device now wifi jitter after (.duplicate location)
  | dropped (payloadRaw : Bytes) (packet : EmergencyPacket) (after : RelayState) (output : Output)
      (received : receivedPacket device = some (payloadRaw, packet)) (offline : wifi = false)
      (absent : NoMatch now packet.hmacSig before.cache) (spent : (ttlOf packet.flags).toNat ≤ 1)
      (purged : after.cache = mapCells (purge now) before.cache) (burst : SameBurst before after)
      (silent : output = .ttlExpired ∨ output = .ttlZero) : CallbackEffect before device now wifi jitter after output
  | queued (payloadRaw : Bytes) (packet : EmergencyPacket) (after : RelayState)
      (received : receivedPacket device = some (payloadRaw, packet)) (offline : wifi = false)
      (absent : NoMatch now packet.hmacSig before.cache) (hops : 2 ≤ (ttlOf packet.flags).toNat)
      (stored : after.cache =
        (addToCache before.cache packet.hmacSig (relayedPacket packet) now jitter device.address).2)
      (burst : SameBurst before after) :
      CallbackEffect before device now wifi jitter after (.queued (targetSlot before.cache now) jitter)
  | forwarded (payloadRaw : Bytes) (packet : EmergencyPacket) (after : RelayState) (newLoc : Option Slot)
      (received : receivedPacket device = some (payloadRaw, packet)) (online : wifi = true)
      (absent : NoMatch now packet.hmacSig before.cache)
      (stored : after.cache = write (addToCache before.cache packet.hmacSig packet now 0 device.address).2
        (targetSlot before.cache now)
        (gatewayEntry now (freshEntry (purge now (read before.cache (targetSlot before.cache now)))
          packet.hmacSig packet now 0 device.address)))
      (lookedUp : newLoc = if now < now + cacheTtlMs then some (targetSlot before.cache now) else none)
      (burst : SameBurst before after) :
      CallbackEffect before device now wifi jitter after
        (.forwarded (udpBurst payloadRaw) (targetSlot before.cache now) newLoc)

theorem queue_effect (state : RelayState) (packet : EmergencyPacket) (now jitter : Millis) (mac : Mac) :
    ((ttlOf packet.flags).toNat ≤ 1 ∧ (queueRebroadcast state packet now jitter mac).1 = state ∧
      ((queueRebroadcast state packet now jitter mac).2 = .ttlExpired ∨
        (queueRebroadcast state packet now jitter mac).2 = .ttlZero)) ∨
    (2 ≤ (ttlOf packet.flags).toNat ∧
      queueRebroadcast state packet now jitter mac =
        ({ state with cache := (addToCache state.cache packet.hmacSig (relayedPacket packet) now jitter mac).2 },
          .queued (addToCache state.cache packet.hmacSig (relayedPacket packet) now jitter mac).1 jitter)) := by
  have exhausted : ¬ (ttlOf packet.flags > 0 ∧ ttlOf packet.flags - 1 ≠ 0) → (ttlOf packet.flags).toNat ≤ 1 :=
    fun stop => Nat.le_of_lt_succ (not_le.mp fun enough => stop ((more_hops_iff _).mpr enough))
  by_cases positive : ttlOf packet.flags > 0
  · by_cases more : ttlOf packet.flags - 1 ≠ 0
    · right
      exact ⟨(more_hops_iff _).mp ⟨positive, more⟩, by simp only [queueRebroadcast, if_pos positive, if_pos more]⟩
    · left
      simp only [queueRebroadcast, if_pos positive, if_neg more]
      exact ⟨exhausted fun both => more both.2, trivial, Or.inl trivial⟩
  · left
    simp only [queueRebroadcast, if_neg positive]
    exact ⟨exhausted fun both => positive both.1, trivial, Or.inr trivial⟩

section Callback

variable (state : RelayState) (device : Advertisement) (now jitter : Millis) (payloadRaw : Bytes) (packet : EmergencyPacket)
  (received : receivedPacket device = some (payloadRaw, packet))

include received

theorem hit_effect (wifi : Bool) (k : Slot)
    (location : (checkCache state.cache packet.hmacSig now device.address state.cacheMacStatus).location = some k) :
    CallbackEffect state device now wifi jitter (onResult state device now wifi jitter).1 (onResult state device now wifi jitter).2 := by
  have found := ((check_cache_hit _ _ _ _ _ _).mp location).1
  have entry := check_cache_entry state.cache packet.hmacSig now device.address state.cacheMacStatus
  simp only [onResult, received]
  rw [location]
  refine .duplicate payloadRaw packet k _ received found.1 found.2 ?_ ?_ ⟨rfl, rfl, rfl⟩
  · rcases entry k with ⟨_, recorded⟩ | ⟨notHit, _⟩
    · exact recorded
    · exact absurd location notHit
  · intro i other
    rcases entry i with ⟨hit, _⟩ | ⟨_, unchanged⟩
    · exact absurd (Option.some.inj (hit.symm.trans location)) other
    · exact unchanged

variable (location : (checkCache state.cache packet.hmacSig now device.address state.cacheMacStatus).location = none)

include location

theorem offline_effect :
    CallbackEffect state device now false jitter (onResult state device now false jitter).1 (onResult state device now false jitter).2 := by
  have absent : NoMatch now packet.hmacSig state.cache := (check_cache_miss _ _ _ _ _).mp location
  have purged := check_cache_miss_cache _ _ _ _ _ location
  simp only [onResult, received]
  rw [location]
  dsimp only
  rcases queue_effect { state with
      cache := (checkCache state.cache packet.hmacSig now device.address state.cacheMacStatus).cache
      cacheMacStatus := (checkCache state.cache packet.hmacSig now device.address state.cacheMacStatus).macStatus }
    packet now jitter device.address with ⟨spent, same, silent⟩ | ⟨hops, result⟩
  · exact .dropped payloadRaw packet _ _ received rfl absent spent
      (by rw [if_neg Bool.false_ne_true, same]; exact purged)
      (by rw [if_neg Bool.false_ne_true, same]; exact ⟨rfl, rfl, rfl⟩)
      (by rw [if_neg Bool.false_ne_true]; exact silent)
  · rw [if_neg Bool.false_ne_true, result, purged, add_after_purge]
    exact .queued payloadRaw packet _ received rfl absent hops rfl ⟨rfl, rfl, rfl⟩

theorem online_effect :
    CallbackEffect state device now true jitter (onResult state device now true jitter).1 (onResult state device now true jitter).2 := by
  have absent : NoMatch now packet.hmacSig state.cache := (check_cache_miss _ _ _ _ _).mp location
  have purged := check_cache_miss_cache _ _ _ _ _ location
  have second := lookup_after_add state.cache packet.hmacSig packet now 0 device.address
    (checkCache state.cache packet.hmacSig now device.address state.cacheMacStatus).macStatus absent
  have cell := add_entry_target state.cache packet.hmacSig packet now 0 device.address
  simp only [onResult, received]
  rw [location]
  dsimp only at second ⊢
  rw [if_pos trivial, purged]
  dsimp only [forwardUpstream]
  rw [add_after_purge]
  -- With the clock about to wrap the fresh entry counts as expired.
  by_cases lasting : now < now + cacheTtlMs
  · obtain ⟨hit, same⟩ := second.1 lasting
    refine .forwarded payloadRaw packet _ _ received rfl absent ?_ ?_ ⟨rfl, rfl, rfl⟩
    · dsimp only
      rw [hit, same, gatewayEntry, if_pos lasting, ← cell]
    · rw [hit, if_pos lasting]
  · obtain ⟨miss, same⟩ := second.2 lasting
    refine .forwarded payloadRaw packet _ _ received rfl absent ?_ ?_ ⟨rfl, rfl, rfl⟩
    · dsimp only
      rw [miss, same, gatewayEntry, if_neg lasting, ← cell]
    · rw [miss, if_neg lasting]

end Callback

theorem on_result_effect (state : RelayState) (device : Advertisement) (now : Millis) (wifi : Bool) (jitter : Millis) :
    CallbackEffect state device now wifi jitter (onResult state device now wifi jitter).1
      (onResult state device now wifi jitter).2 := by
  cases received : receivedPacket device with
  | none =>
      simp only [onResult, received]
      exact .ignored received
  | some pair =>
      obtain ⟨payloadRaw, packet⟩ := pair
      cases location : (checkCache state.cache packet.hmacSig now device.address state.cacheMacStatus).location with
      | some k => exact hit_effect state device now jitter payloadRaw packet received wifi k location
      | none =>
          cases wifi with
          | false => exact offline_effect state device now jitter payloadRaw packet received location
          | true => exact online_effect state device now jitter payloadRaw packet received location

theorem scan_body_stops (now : Millis) (entry : CacheEntry) :
    (scanBody now entry).stops = true ↔ Due now entry ∧ entry.rxCount < redundancy := by
  cases active : entry.active <;> cases broadcasted : entry.broadcasted <;>
    by_cases due : now ≥ entry.broadcastTime <;> by_cases heard : entry.rxCount < redundancy <;>
      simp [scanBody, Due, Pending, active, broadcasted, due, heard, Verdict.stops]

theorem scan_body_value (now : Millis) (entry : CacheEntry) :
    (scanBody now entry).value =
      if Due now entry ∧ ¬ entry.rxCount < redundancy then markBroadcasted entry else entry := by
  cases active : entry.active <;> cases broadcasted : entry.broadcasted <;>
    by_cases due : now ≥ entry.broadcastTime <;> by_cases heard : entry.rxCount < redundancy <;>
      simp [scanBody, Due, Pending, active, broadcasted, due, heard, Verdict.value]

theorem cancelled_iff (now : Millis) (cache : TimeAwareCache) (location : Option Slot) (i : Slot) :
    i ∈ cancelledRows now cache location ↔
      (Due now (read cache i) ∧ ¬ (read cache i).rxCount < redundancy) ∧ ∀ k, location = some k → i < k := by
  cases location <;> simp [cancelledRows, filter_indexed]

theorem scan_entry (now : Millis) (cache : TimeAwareCache) (i : Slot) :
    read (sweep (scanBody now) cache).2 i =
      if i ∈ cancelledRows now cache (sweep (scanBody now) cache).1 then markBroadcasted (read cache i)
      else read cache i := by
  rw [read_sweep, scan_body_value]
  by_cases cancelled : i ∈ cancelledRows now cache (sweep (scanBody now) cache).1
  · obtain ⟨spent, before⟩ := (cancelled_iff _ _ _ _).mp cancelled
    rw [if_pos cancelled, if_pos (fun k stop => (before k stop).le), if_pos spent]
  · rw [if_neg cancelled]
    split
    · rename_i reached
      rw [if_neg]
      intro spent
      refine cancelled ((cancelled_iff _ _ _ _).mpr ⟨spent, fun k stop => lt_of_le_of_ne (reached k stop) ?_⟩)
      intro same
      have stopped := (scan_body_stops _ _).mp ((sweep_some_iff _ _ _).mp stop).1
      rw [← same] at stopped
      exact spent.2 stopped.2
    · rfl

inductive LoopEffect (before : RelayState) (now : Millis) : RelayState → Output → Prop where
  | transmitting (busy : before.isBroadcasting = true) (early : now < before.broadcastEndTime) :
      LoopEffect before now before .transmitting
  | ended (busy : before.isBroadcasting = true) (late : before.broadcastEndTime ≤ now) :
      LoopEffect before now
        { before with
          isBroadcasting := false
          cache := indexedWrite before.cache before.currentBroadcastIndex }
        (.burstEnded before.currentBroadcastIndex)
  | started (row : Slot) (cancelled : List Slot) (after : RelayState) (idle : before.isBroadcasting = false)
      (due : Due now (read before.cache row)) (unheard : (read before.cache row).rxCount < redundancy)
      (earlier : ∀ i, i < row → Due now (read before.cache i) → ¬ (read before.cache i).rxCount < redundancy)
      (rows : ∀ i, i ∈ cancelled ↔ (Due now (read before.cache i) ∧ ¬ (read before.cache i).rxCount < redundancy) ∧ i < row)
      (cells : ∀ i, read after.cache i =
        if i ∈ cancelled then markBroadcasted (read before.cache i) else read before.cache i)
      (broadcasting : after.isBroadcasting = true) (endTime : after.broadcastEndTime = now + broadcastBurst)
      (index : after.currentBroadcastIndex = row.val) :
      LoopEffect before now after (.scanned cancelled (some (row, rebroadcastData (read before.cache row).packet)))
  | quiet (cancelled : List Slot) (after : RelayState) (idle : before.isBroadcasting = false)
      (covered : ∀ i, Due now (read before.cache i) → ¬ (read before.cache i).rxCount < redundancy)
      (rows : ∀ i, i ∈ cancelled ↔ Due now (read before.cache i) ∧ ¬ (read before.cache i).rxCount < redundancy)
      (cells : ∀ i, read after.cache i =
        if i ∈ cancelled then markBroadcasted (read before.cache i) else read before.cache i)
      (burst : SameBurst before after) : LoopEffect before now after (.scanned cancelled none)

theorem loop_effect (state : RelayState) (now : Millis) :
    LoopEffect state now (loop state now).1 (loop state now).2 := by
  cases busy : state.isBroadcasting with
  | true =>
      by_cases late : now ≥ state.broadcastEndTime
      · simp only [loop, busy, if_pos late, if_true]
        exact .ended busy late
      · simp only [loop, busy, if_neg late, if_true]
        exact .transmitting busy (BitVec.not_le.mp late)
  | false =>
      have cells := scan_entry now state.cache
      simp only [loop, busy, Bool.false_eq_true, if_false]
      cases location : (sweep (scanBody now) state.cache).1 with
      | some row =>
          obtain ⟨stops, before⟩ := (sweep_some_iff _ _ _).mp location
          obtain ⟨due, unheard⟩ := (scan_body_stops _ _).mp stops
          have rows : ∀ i, i ∈ cancelledRows now state.cache (some row) ↔ _ := fun i => cancelled_iff now state.cache (some row) i
          have same : read (sweep (scanBody now) state.cache).2 row = read state.cache row := by
            rw [cells row, if_neg]
            intro cancelled
            rw [location, rows row] at cancelled
            exact lt_irrefl row (cancelled.2 row rfl)
          rw [location] at cells
          dsimp only
          rw [same]
          refine .started row _ _ busy due unheard (fun i less dueThere heard => ?_) (fun i => ?_) cells rfl rfl rfl
          · have skipped := before i less
            rw [(scan_body_stops _ _).mpr ⟨dueThere, heard⟩] at skipped
            exact Bool.false_ne_true skipped.symm
          · rw [rows i]
            simp
      | none =>
          rw [location] at cells
          refine .quiet _ _ busy (fun i dueThere heard => ?_) (fun i => ?_) cells ⟨busy.symm ▸ rfl, rfl, rfl⟩
          · have skipped := (sweep_none_iff _ _).mp location i
            rw [(scan_body_stops _ _).mpr ⟨dueThere, heard⟩] at skipped
            exact Bool.false_ne_true skipped.symm
          · rw [cancelled_iff]
            simp

end BeaconMesh.Arduino
