import BeaconMesh.Provenance
import BeaconMesh.RelayFrame

set_option autoImplicit false

namespace BeaconMesh.Arduino

open Sweep History

def Event.shift (c : Millis) : Event → Event
  | .onResult device now wifiConnected jitter => .onResult device (now + c) wifiConnected jitter
  | .loop now => .loop (now + c)

-- The comparison the code writes agrees with the one on elapsed time that
-- setup uses.
def Unwrapped (now deadline : Millis) : Prop := deadline ≤ now ↔ (now - deadline).toNat < 2 ^ 31

theorem unwrapped_shift (c now deadline : Millis) (first : Unwrapped now deadline)
    (second : Unwrapped (now + c) (deadline + c)) : deadline + c ≤ now + c ↔ deadline ≤ now := by
  have elapsed : now + c - (deadline + c) = now - deadline := by bv_omega
  rw [Unwrapped, elapsed] at second
  exact second.trans first.symm

structure ShiftedEntry (c : Millis) (a b : CacheEntry) : Prop where
  hmac : b.hmac = a.hmac
  count : b.rxCount = a.rxCount
  active : b.active = a.active
  broadcasted : b.broadcasted = a.broadcasted
  packet : b.packet = a.packet
  macs : b.seenMacs = a.seenMacs
  expires : a.active = true → b.expiresAt = a.expiresAt + c
  time : a.active = true → b.broadcastTime = a.broadcastTime + c

structure Shifted (c : Millis) (a b : RelayState) : Prop where
  entries : ∀ k, ShiftedEntry c (read a.cache k) (read b.cache k)
  broadcasting : b.isBroadcasting = a.isBroadcasting
  index : b.currentBroadcastIndex = a.currentBroadcastIndex
  endTime : a.isBroadcasting = true → b.broadcastEndTime = a.broadcastEndTime + c

theorem live_shift (c now : Millis) (a b : CacheEntry) (related : ShiftedEntry c a b)
    (first : a.active = true → Unwrapped now a.expiresAt) (second : b.active = true → Unwrapped (now + c) b.expiresAt) :
    Live (now + c) b ↔ Live now a := by
  rw [Live, Live, related.active]
  apply and_congr_right
  intro active
  have there := second (related.active.trans active)
  rw [related.expires active] at there ⊢
  have order := unwrapped_shift c now a.expiresAt (first active) there
  rw [← BitVec.not_le, ← BitVec.not_le, order]

theorem shifted_purge (c now : Millis) (a b : CacheEntry) (related : ShiftedEntry c a b)
    (alive : Live (now + c) b ↔ Live now a) : ShiftedEntry c (purge now a) (purge (now + c) b) := by
  refine ⟨by simp [related.hmac], by simp [related.count], ?_, by simp [related.broadcasted], by simp [related.packet],
    by simp [related.macs], fun active => ?_, fun active => ?_⟩
  · rw [Bool.eq_iff_iff, purge_active, purge_active, alive]
  · rw [purge_expires, purge_expires]
    exact related.expires ((purge_active now a).mp active).1
  · rw [purge_time, purge_time]
    exact related.time ((purge_active now a).mp active).1

theorem shifted_record (c : Millis) (a b : CacheEntry) (mac : Mac) (related : ShiftedEntry c a b) :
    ShiftedEntry c (recordMac a mac) (recordMac b mac) := by
  have known : macKnown b mac = macKnown a mac := by rw [macKnown, macKnown, related.count, related.macs]
  have fields : (recordMac b mac).rxCount = (recordMac a mac).rxCount ∧ (recordMac b mac).seenMacs = (recordMac a mac).seenMacs := by
    unfold recordMac
    rw [known, related.count, related.macs]
    split
    · exact ⟨related.count, related.macs⟩
    · split
      · exact ⟨rfl, rfl⟩
      · exact ⟨related.count, related.macs⟩
  exact ⟨by simp [related.hmac], fields.1, by simp [related.active], by simp [related.broadcasted], by simp [related.packet],
    fields.2, by simpa using related.expires, by simpa using related.time⟩

theorem shifted_fresh (c now jitter : Millis) (a b : CacheEntry) (hmac : HmacSig) (packet : EmergencyPacket) (mac : Mac)
    (related : ShiftedEntry c a b) :
    ShiftedEntry c (freshEntry a hmac packet now jitter mac) (freshEntry b hmac packet (now + c) jitter mac) := by
  refine ⟨rfl, rfl, rfl, rfl, rfl, ?_, fun _ => ?_, fun _ => ?_⟩
  · simp only [freshEntry, related.macs]
  · simp only [freshEntry]
    bv_omega
  · simp only [freshEntry]
    bv_omega

theorem shifted_marked (c : Millis) (a b : CacheEntry) (related : ShiftedEntry c a b) :
    ShiftedEntry c (markBroadcasted a) (markBroadcasted b) :=
  ⟨related.hmac, related.count, related.active, rfl, related.packet, related.macs, related.expires, related.time⟩

abbrev ShiftedCache (c : Millis) (a b : TimeAwareCache) : Prop := ∀ k, ShiftedEntry c (read a k) (read b k)

-- The expiry comparisons of a lookup: it stops at its first match.
def LookupUnwrapped (cache : TimeAwareCache) (hmac : HmacSig) (now : Millis) : Prop :=
  ∀ k, (∀ j, j < k → ¬ (Live now (read cache j) ∧ (read cache j).hmac = hmac)) → (read cache k).active = true →
    Unwrapped now (read cache k).expiresAt

def ExpiryUnwrapped (cache : TimeAwareCache) (now : Millis) : Prop :=
  ∀ k, (read cache k).active = true → Unwrapped now (read cache k).expiresAt

theorem lookup_miss_expiry (cache : TimeAwareCache) (hmac : HmacSig) (now : Millis)
    (lookup : LookupUnwrapped cache hmac now) (absent : NoMatch now hmac cache) : ExpiryUnwrapped cache now :=
  fun k => lookup k fun j _ => absent j

theorem shifted_check (c now : Millis) (a b : TimeAwareCache) (hmac : HmacSig) (mac : Mac) (status other : Option String)
    (related : ShiftedCache c a b) (first : LookupUnwrapped a hmac now) (second : LookupUnwrapped b hmac (now + c)) :
    (checkCache b hmac (now + c) mac other).location = (checkCache a hmac now mac status).location ∧
      ShiftedCache c (checkCache a hmac now mac status).cache (checkCache b hmac (now + c) mac other).cache := by
  have unmatched : ∀ (cache : TimeAwareCache) (time : Millis) (i : Slot),
      (∀ j, j < i → (checkBody hmac time mac (read cache j)).stops = false) →
      ∀ j, j < i → ¬ (Live time (read cache j) ∧ (read cache j).hmac = hmac) := by
    intro cache time i quiet j less found
    rw [← check_body_stops hmac time mac, quiet j less] at found
    exact Bool.false_ne_true found
  have alive : ∀ i, (∀ j, j < i → (checkBody hmac now mac (read a j)).stops = false) →
      (∀ j, j < i → (checkBody hmac (now + c) mac (read b j)).stops = false) →
      (Live (now + c) (read b i) ↔ Live now (read a i)) := fun i quietA quietB =>
    live_shift c now _ _ (related i) (first i (unmatched a now i quietA)) (second i (unmatched b (now + c) i quietB))
  have location : (sweep (checkBody hmac (now + c) mac) b).1 = (sweep (checkBody hmac now mac) a).1 := by
    apply sweep_agree
    intro i quietA quietB
    rw [Bool.eq_iff_iff, check_body_stops, check_body_stops, alive i quietA quietB, (related i).hmac]
  refine ⟨location, fun i => ?_⟩
  change ShiftedEntry c (read (sweep (checkBody hmac now mac) a).2 i) (read (sweep (checkBody hmac (now + c) mac) b).2 i)
  rw [read_sweep, read_sweep, location, check_body_value, check_body_value]
  by_cases reached : ∀ k, (sweep (checkBody hmac now mac) a).1 = some k → i ≤ k
  · have same := alive i (sweep_before _ _ i reached) (sweep_before _ _ i (by rw [location]; exact reached))
    rw [if_pos reached, if_pos reached]
    by_cases hit : Live now (read a i) ∧ (read a i).hmac = hmac
    · rw [if_pos hit, if_pos ⟨same.mpr hit.1, (related i).hmac.trans hit.2⟩]
      exact shifted_record c _ _ mac (related i)
    · rw [if_neg hit, if_neg fun there => hit ⟨same.mp there.1, (related i).hmac.symm.trans there.2⟩]
      exact shifted_purge c now _ _ (related i) same
  · rw [if_neg reached, if_neg reached]
    exact related i

theorem later_value (now deadline : Millis) (later : now < deadline) :
    deadline.toNat = now.toNat + (deadline - now).toNat := by bv_omega

theorem oldest_slot_congr (a b : TimeAwareCache)
    (same : ∀ i j, (read a i).expiresAt.toNat < (read a j).expiresAt.toNat ↔ (read b i).expiresAt.toNat < (read b j).expiresAt.toNat) :
    oldestSlot a = oldestSlot b := by
  have candidates : List.finRange cacheSize = 0 :: (List.finRange 255).map Fin.succ := List.finRange_succ
  have top : ∀ (cache : TimeAwareCache) (i : Slot), (read cache i).expiresAt.toNat ≤ 0xFFFFFFFF := by
    intro cache i
    have bound := (read cache i).expiresAt.isLt
    omega
  have start : ∀ cache : TimeAwareCache, oldestSlot cache = (least (fun i => (read cache i).expiresAt.toNat)
      (List.finRange cacheSize) ((read cache 0).expiresAt.toNat, 0)).2 := by
    intro cache
    rw [oldestSlot, candidates]
    exact congrArg Prod.snd (least_sentinel (fun i => (read cache i).expiresAt.toNat) 0 _ _ (top cache 0))
  rw [start a, start b]
  exact least_congr _ _ _ _ _ rfl (fun i _ => same i 0) fun i _ j _ => same i j

theorem shifted_target (c now : Millis) (a b : TimeAwareCache) (related : ShiftedCache c a b)
    (alive : ∀ k, Live (now + c) (read b k) ↔ Live now (read a k)) : targetSlot b (now + c) = targetSlot a now := by
  have free : first (isFree (now + c)) b = first (isFree now) a := by
    apply first_congr
    intro i
    rw [Bool.eq_iff_iff, is_free_iff, is_free_iff, alive i]
  rw [targetSlot, targetSlot, free]
  cases found : first (isFree now) a with
  | some k => rfl
  | none =>
      have live : ∀ k, Live now (read a k) := fun k => (is_free_false_iff _ _).mp ((first_none_iff _ _).mp found k)
      apply oldest_slot_congr
      intro i j
      -- All deadlines lie ahead of both clocks, at the same distances.
      have ahead : ∀ k, (read a k).expiresAt.toNat = now.toNat + ((read a k).expiresAt - now).toNat ∧
          (read b k).expiresAt.toNat = (now + c).toNat + ((read a k).expiresAt - now).toNat := by
        intro k
        have there := later_value _ _ ((alive k).mpr (live k)).2
        have distance : (read b k).expiresAt - (now + c) = (read a k).expiresAt - now := by
          rw [(related k).expires (live k).1]
          bv_omega
        rw [distance] at there
        exact ⟨later_value _ _ (live k).2, there⟩
      rw [read_map, read_map, read_map, read_map, purge_expires, purge_expires, purge_expires, purge_expires,
        (ahead i).1, (ahead j).1, (ahead i).2, (ahead j).2]
      omega

theorem shifted_add (c now jitter : Millis) (a b : TimeAwareCache) (hmac : HmacSig) (packet : EmergencyPacket) (mac : Mac)
    (related : ShiftedCache c a b) (alive : ∀ k, Live (now + c) (read b k) ↔ Live now (read a k)) :
    (addToCache b hmac packet (now + c) jitter mac).1 = (addToCache a hmac packet now jitter mac).1 ∧
      ShiftedCache c (addToCache a hmac packet now jitter mac).2 (addToCache b hmac packet (now + c) jitter mac).2 := by
  have target := shifted_target c now a b related alive
  refine ⟨target, fun k => ?_⟩
  by_cases here : k = targetSlot a now
  · have there : k = targetSlot b (now + c) := here.trans target.symm
    have left := add_entry_target a hmac packet now jitter mac
    have right := add_entry_target b hmac packet (now + c) jitter mac
    rw [← here] at left
    rw [← there] at right
    rw [left, right]
    exact shifted_fresh c now jitter _ _ hmac packet mac (shifted_purge c now _ _ (related k) (alive k))
  · have elsewhere : k ≠ targetSlot b (now + c) := fun same => here (same.trans target)
    rw [add_entry_other _ _ _ _ _ _ _ here, add_entry_other _ _ _ _ _ _ _ elsewhere]
    exact shifted_purge c now _ _ (related k) (alive k)

theorem expiry_alive (c now : Millis) (a b : TimeAwareCache) (related : ShiftedCache c a b)
    (first : ExpiryUnwrapped a now) (second : ExpiryUnwrapped b (now + c)) (k : Slot) :
    Live (now + c) (read b k) ↔ Live now (read a k) :=
  live_shift c now _ _ (related k) (first k) (second k)

theorem added_lookup (cache : TimeAwareCache) (hmac : HmacSig) (packet : EmergencyPacket) (now jitter : Millis) (mac : Mac)
    (expiry : ExpiryUnwrapped cache now) (fresh : Unwrapped now (now + cacheTtlMs)) :
    LookupUnwrapped (addToCache cache hmac packet now jitter mac).2 hmac now := by
  intro k _ active
  by_cases target : k = targetSlot cache now
  · rw [target, add_entry_target]
    exact fresh
  · rw [add_entry_other _ _ _ _ _ _ _ target] at active ⊢
    rw [purge_expires]
    exact expiry k ((purge_active now _).mp active).1

-- The comparisons with now that one step makes, none of them across a wrap.
def ComparesUnwrapped (state : RelayState) : Event → Prop
  | .onResult device now wifiConnected _ => ∀ payloadRaw packet, receivedPacket device = some (payloadRaw, packet) →
      LookupUnwrapped state.cache packet.hmacSig now ∧
      (wifiConnected = true → NoMatch now packet.hmacSig state.cache → Unwrapped now (now + cacheTtlMs))
  | .loop now =>
      if state.isBroadcasting then Unwrapped now state.broadcastEndTime
      else ∀ k, (∀ j, j < k → ¬ (Due now (read state.cache j) ∧ (read state.cache j).rxCount < redundancy)) →
        Pending (read state.cache k) → Unwrapped now (read state.cache k).broadcastTime

theorem shifted_forward (c now : Millis) (a b : RelayState) (payloadRaw : Bytes) (packet : EmergencyPacket) (mac : Mac)
    (related : Shifted c a b) (expiry : ExpiryUnwrapped a.cache now) (expiryShifted : ExpiryUnwrapped b.cache (now + c))
    (fresh : Unwrapped now (now + cacheTtlMs)) (freshShifted : Unwrapped (now + c) (now + c + cacheTtlMs)) :
    (forwardUpstream b payloadRaw packet (now + c) mac).2 = (forwardUpstream a payloadRaw packet now mac).2 ∧
      Shifted c (forwardUpstream a payloadRaw packet now mac).1 (forwardUpstream b payloadRaw packet (now + c) mac).1 := by
  have alive := expiry_alive c now _ _ related.entries expiry expiryShifted
  obtain ⟨slot, added⟩ := shifted_add c now 0 _ _ packet.hmacSig packet mac related.entries alive
  obtain ⟨location, cells⟩ := shifted_check c now _ _ packet.hmacSig mac a.cacheMacStatus b.cacheMacStatus added
    (added_lookup _ _ _ _ _ _ expiry fresh) (added_lookup _ _ _ _ _ _ expiryShifted freshShifted)
  dsimp only [forwardUpstream]
  rw [slot, location]
  refine ⟨rfl, ⟨fun k => ?_, related.broadcasting, related.index, related.endTime⟩⟩
  cases found : (checkCache (addToCache a.cache packet.hmacSig packet now 0 mac).2 packet.hmacSig now mac
    a.cacheMacStatus).location with
  | none => exact cells k
  | some newLoc =>
      dsimp only
      rw [read_write, read_write]
      split
      · exact shifted_marked c _ _ (cells newLoc)
      · exact cells k

theorem shifted_queue (c now jitter : Millis) (a b : RelayState) (packet : EmergencyPacket) (mac : Mac)
    (related : Shifted c a b) (expiry : ExpiryUnwrapped a.cache now) (expiryShifted : ExpiryUnwrapped b.cache (now + c)) :
    (queueRebroadcast b packet (now + c) jitter mac).2 = (queueRebroadcast a packet now jitter mac).2 ∧
      Shifted c (queueRebroadcast a packet now jitter mac).1 (queueRebroadcast b packet (now + c) jitter mac).1 := by
  have alive := expiry_alive c now _ _ related.entries expiry expiryShifted
  obtain ⟨slot, added⟩ := shifted_add c now jitter _ _ packet.hmacSig (relayedPacket packet) mac related.entries alive
  dsimp only [queueRebroadcast]
  split
  · split
    · rw [slot]
      exact ⟨rfl, added, related.broadcasting, related.index, related.endTime⟩
    · exact ⟨rfl, related⟩
  · exact ⟨rfl, related⟩

theorem shifted_callback (c : Millis) (a b : RelayState) (device : Advertisement) (now : Millis) (wifi : Bool)
    (jitter : Millis) (related : Shifted c a b) (first : ComparesUnwrapped a (.onResult device now wifi jitter))
    (second : ComparesUnwrapped b (.onResult device (now + c) wifi jitter)) :
    (onResult b device (now + c) wifi jitter).2 = (onResult a device now wifi jitter).2 ∧
      Shifted c (onResult a device now wifi jitter).1 (onResult b device (now + c) wifi jitter).1 := by
  cases received : receivedPacket device with
  | none =>
      simp only [onResult, received]
      exact ⟨trivial, related⟩
  | some pair =>
      obtain ⟨payloadRaw, packet⟩ := pair
      obtain ⟨lookup, fresh⟩ := first payloadRaw packet received
      obtain ⟨lookupShifted, freshShifted⟩ := second payloadRaw packet received
      obtain ⟨location, cells⟩ := shifted_check c now _ _ packet.hmacSig device.address a.cacheMacStatus b.cacheMacStatus
        related.entries lookup lookupShifted
      simp only [onResult, received]
      rw [location]
      cases found : (checkCache a.cache packet.hmacSig now device.address a.cacheMacStatus).location with
      | some k => exact ⟨rfl, cells, related.broadcasting, related.index, related.endTime⟩
      | none =>
          have missed := found
          rw [← location] at missed
          have absent : NoMatch now packet.hmacSig a.cache := (check_cache_miss _ _ _ _ _).mp found
          have absentShifted : NoMatch (now + c) packet.hmacSig b.cache := (check_cache_miss _ _ _ _ _).mp missed
          -- A purge leaves no active entry whose deadline was not compared.
          have purged : ∀ (state : RelayState) (time : Millis), ExpiryUnwrapped state.cache time →
              (checkCache state.cache packet.hmacSig time device.address state.cacheMacStatus).location = none →
              ExpiryUnwrapped (checkCache state.cache packet.hmacSig time device.address state.cacheMacStatus).cache time := by
            intro state time expiry miss k active
            rw [check_cache_miss_entry _ _ _ _ _ _ miss] at active ⊢
            rw [purge_expires]
            exact expiry k ((purge_active time _).mp active).1
          have expiry := purged a now (lookup_miss_expiry _ _ _ lookup absent) found
          have expiryShifted := purged b (now + c) (lookup_miss_expiry _ _ _ lookupShifted absentShifted) missed
          cases wifi with
          | true =>
              exact shifted_forward c now _ _ payloadRaw packet device.address
                ⟨cells, related.broadcasting, related.index, related.endTime⟩ expiry expiryShifted (fresh rfl absent)
                (freshShifted rfl absentShifted)
          | false =>
              exact shifted_queue c now jitter _ _ packet device.address
                ⟨cells, related.broadcasting, related.index, related.endTime⟩ expiry expiryShifted

theorem due_shift (c now : Millis) (a b : CacheEntry) (related : ShiftedEntry c a b)
    (first : Pending a → Unwrapped now a.broadcastTime) (second : Pending b → Unwrapped (now + c) b.broadcastTime) :
    Due (now + c) b ↔ Due now a := by
  have same : Pending b ↔ Pending a := by rw [Pending, Pending, related.active, related.broadcasted]
  rw [Due, Due, same]
  apply and_congr_right
  intro pending
  have there := second (same.mpr pending)
  rw [related.time pending.1] at there ⊢
  exact unwrapped_shift c now a.broadcastTime (first pending) there

theorem shifted_scan (c now : Millis) (a b : RelayState) (related : Shifted c a b) (idle : a.isBroadcasting = false)
    (first : ComparesUnwrapped a (.loop now)) (second : ComparesUnwrapped b (.loop (now + c))) :
    (sweep (scanBody (now + c)) b.cache).1 = (sweep (scanBody now) a.cache).1 ∧
      ShiftedCache c (sweep (scanBody now) a.cache).2 (sweep (scanBody (now + c)) b.cache).2 ∧
      cancelledRows (now + c) b.cache (sweep (scanBody (now + c)) b.cache).1 =
        cancelledRows now a.cache (sweep (scanBody now) a.cache).1 := by
  have idleShifted : b.isBroadcasting = false := related.broadcasting.trans idle
  simp only [ComparesUnwrapped, idle, idleShifted, Bool.false_eq_true, if_false] at first second
  have unmatched : ∀ (cache : TimeAwareCache) (time : Millis) (i : Slot),
      (∀ j, j < i → (scanBody time (read cache j)).stops = false) →
      ∀ j, j < i → ¬ (Due time (read cache j) ∧ (read cache j).rxCount < redundancy) := by
    intro cache time i quiet j less found
    rw [← scan_body_stops time, quiet j less] at found
    exact Bool.false_ne_true found
  have dueSame : ∀ i, (∀ j, j < i → (scanBody now (read a.cache j)).stops = false) →
      (∀ j, j < i → (scanBody (now + c) (read b.cache j)).stops = false) →
      (Due (now + c) (read b.cache i) ↔ Due now (read a.cache i)) := fun i quietA quietB =>
    due_shift c now _ _ (related.entries i) (first i (unmatched _ _ i quietA)) (second i (unmatched _ _ i quietB))
  have location : (sweep (scanBody (now + c)) b.cache).1 = (sweep (scanBody now) a.cache).1 := by
    apply sweep_agree
    intro i quietA quietB
    rw [Bool.eq_iff_iff, scan_body_stops, scan_body_stops, dueSame i quietA quietB, (related.entries i).count]
  have visited : ∀ i, (∀ k, (sweep (scanBody now) a.cache).1 = some k → i ≤ k) →
      (Due (now + c) (read b.cache i) ↔ Due now (read a.cache i)) := fun i reached =>
    dueSame i (sweep_before _ _ i reached) (sweep_before _ _ i (by rw [location]; exact reached))
  have rows : ∀ i, i ∈ cancelledRows (now + c) b.cache (sweep (scanBody (now + c)) b.cache).1 ↔
      i ∈ cancelledRows now a.cache (sweep (scanBody now) a.cache).1 := by
    intro i
    rw [cancelled_iff, cancelled_iff, location, (related.entries i).count]
    apply and_congr_left
    intro before
    rw [visited i fun k stop => (before k stop).le]
  refine ⟨location, fun i => ?_, ?_⟩
  · rw [scan_entry, scan_entry]
    by_cases member : i ∈ cancelledRows now a.cache (sweep (scanBody now) a.cache).1
    · rw [if_pos member, if_pos ((rows i).mpr member)]
      exact shifted_marked c _ _ (related.entries i)
    · rw [if_neg member, if_neg fun there => member ((rows i).mp there)]
      exact related.entries i
  · rw [cancelledRows, cancelledRows, filter_indexed, filter_indexed]
    refine List.filter_congr fun i _ => ?_
    have same := rows i
    simp only [cancelledRows, filter_indexed, List.mem_filter, List.mem_finRange, true_and] at same
    exact Bool.eq_iff_iff.mpr same

theorem shifted_loop (c : Millis) (a b : RelayState) (now : Millis) (related : Shifted c a b)
    (first : ComparesUnwrapped a (.loop now)) (second : ComparesUnwrapped b (.loop (now + c))) :
    (loop b (now + c)).2 = (loop a now).2 ∧ Shifted c (loop a now).1 (loop b (now + c)).1 := by
  cases idle : a.isBroadcasting with
  | false =>
      obtain ⟨location, cells, rows⟩ := shifted_scan c now a b related idle first second
      have idleShifted : b.isBroadcasting = false := related.broadcasting.trans idle
      simp only [loop, idle, idleShifted, Bool.false_eq_true, if_false]
      rw [rows, location]
      cases found : (sweep (scanBody now) a.cache).1 with
      | none => exact ⟨rfl, cells, rfl, related.index, fun busy => absurd busy Bool.false_ne_true⟩
      | some k =>
          dsimp only
          rw [(cells k).packet]
          refine ⟨rfl, cells, rfl, rfl, fun _ => ?_⟩
          dsimp only
          bv_omega
  | true =>
      have busy : b.isBroadcasting = true := related.broadcasting.trans idle
      simp only [ComparesUnwrapped, idle, busy, if_true] at first second
      have endTime := related.endTime idle
      rw [endTime] at second
      have late := unwrapped_shift c now _ first second
      simp only [loop, idle, busy, if_true, ge_iff_le, endTime, late, related.index]
      split
      · refine ⟨rfl, fun k => ?_, rfl, rfl, fun still => absurd still Bool.false_ne_true⟩
        dsimp only
        rw [indexed_write_entry, indexed_write_entry]
        split
        · exact shifted_marked c _ _ (related.entries k)
        · exact related.entries k
      · exact ⟨rfl, related⟩

theorem shifted_step (c : Millis) (a b : RelayState) (event : Event) (related : Shifted c a b)
    (unwrapped : ComparesUnwrapped a event ∧ ComparesUnwrapped b (event.shift c)) :
    (step b (event.shift c)).2 = (step a event).2 ∧ Shifted c (step a event).1 (step b (event.shift c)).1 := by
  cases event with
  | onResult device now wifi jitter => exact shifted_callback c a b device now wifi jitter related unwrapped.1 unwrapped.2
  | loop now => exact shifted_loop c a b now related unwrapped.1 unwrapped.2

theorem loop_end_time (before after : RelayState) (now : Millis) (output : Output)
    (effect : LoopEffect before now after output) (busy : after.isBroadcasting = true) :
    (before.isBroadcasting = true ∧ after.broadcastEndTime = before.broadcastEndTime) ∨
      after.broadcastEndTime = now + broadcastBurst := by
  cases effect with
  | transmitting => exact Or.inl ⟨busy, rfl⟩
  | ended => exact absurd busy Bool.false_ne_true
  | started row rows _ idle due unheard earlier members cells broadcasting endTime => exact Or.inr endTime
  | quiet rows _ idle covered members cells burst => exact Or.inl ⟨burst.broadcasting.symm.trans busy, burst.endTime⟩

theorem shifted_start (c : Millis) : Shifted c .start .start := by
  have cell : ∀ k, read RelayState.start.cache k = CacheEntry.zero := fun k => read_blank k _
  refine ⟨fun k => ?_, rfl, rfl, fun busy => absurd busy Bool.false_ne_true⟩
  rw [cell k]
  exact ⟨rfl, rfl, rfl, rfl, rfl, rfl, fun active => absurd active Bool.false_ne_true,
    fun active => absurd active Bool.false_ne_true⟩

def RunUnwrapped (events : List Event) : Prop :=
  ∀ past event later, events = past ++ event :: later → ComparesUnwrapped (relayState past) event

theorem burst_end_source (events : List Event) : (relayState events).isBroadcasting = true →
    ∃ started output, (Event.loop started, output) ∈ relayLog events ∧
      (relayState events).broadcastEndTime = started + broadcastBurst := by
  refine History.invariant step .start (fun history state => state.isBroadcasting = true →
    ∃ started output, (Event.loop started, output) ∈ history ∧ state.broadcastEndTime = started + broadcastBurst)
    (fun busy => absurd busy Bool.false_ne_true) (fun history state event ih busy => ?_) events
  have before : state.isBroadcasting = true → (step state event).1.broadcastEndTime = state.broadcastEndTime →
      ∃ started output, (Event.loop started, output) ∈ history ++ [(event, (step state event).2)] ∧
        (step state event).1.broadcastEndTime = started + broadcastBurst := by
    intro was same
    obtain ⟨started, output, member, value⟩ := ih was
    exact ⟨started, output, List.mem_append_left _ member, same.trans value⟩
  cases event with
  | onResult device now wifi jitter =>
      have same := callback_burst _ _ _ _ _ _ _ (on_result_effect state device now wifi jitter)
      exact before (same.broadcasting.symm.trans busy) same.endTime
  | loop now =>
      rcases loop_end_time _ _ now _ (loop_effect state now) busy with ⟨was, same⟩ | begun
      · exact before was same
      · exact ⟨now, _, List.mem_append_right _ (List.mem_singleton.mpr rfl), begun⟩

theorem unwrapped_early (now deadline : Millis) (early : now.toNat < 2 ^ 31) (soon : deadline.toNat < 2 ^ 31) :
    Unwrapped now deadline := by
  rw [Unwrapped]
  constructor <;> intro order <;> bv_omega

theorem early_deadlines (past : List Event) (jitters : JittersInRange past)
    (early : ∀ event ∈ past, event.now.toNat + 2000 < 2 ^ 31) (k : Slot) (active : (read (relayState past).cache k).active = true) :
    (read (relayState past).cache k).expiresAt.toNat < 2 ^ 31 ∧
      ((read (relayState past).cache k).broadcasted = false → (read (relayState past).cache k).broadcastTime.toNat < 2 ^ 31) := by
  obtain ⟨i, record, found, _, accepted⟩ := reachable_sourced past k active
  have member := logged_event past record (List.mem_of_getElem? found)
  cases accepted with
  | queued device stored jitter payloadRaw packet received hops key relayed expires time =>
      have bound := early _ member
      have drawn := of_decide_eq_true (jitters _ member)
      simp only [Event.now] at bound
      rw [expires, time, cacheTtlMs]
      exact ⟨by bv_omega, fun _ => by bv_omega⟩
  | forwarded device stored jitter payloadRaw packet newLoc received key expires marked =>
      have bound := early _ member
      simp only [Event.now] at bound
      rw [expires, cacheTtlMs]
      exact ⟨by bv_omega, fun pending => absurd (pending.symm.trans marked) (by decide)⟩

-- A run that ends before the counter's half has every comparison unwrapped.
theorem early_run_unwrapped (events : List Event) (jitters : JittersInRange events)
    (early : ∀ event ∈ events, event.now.toNat + 2000 < 2 ^ 31) : RunUnwrapped events := by
  intro past event later split
  have inside : ∀ other ∈ past, other ∈ events := fun other member => by
    rw [split]
    exact List.mem_append_left _ member
  have now := early event (by rw [split]; simp)
  have deadlines := early_deadlines past (fun other member => jitters other (inside other member))
    fun other member => early other (inside other member)
  cases event with
  | onResult device time wifi jitter =>
      simp only [Event.now] at now
      intro payloadRaw packet _
      refine ⟨fun k _ active => unwrapped_early _ _ (by omega) (deadlines k active).1, fun _ _ => ?_⟩
      refine unwrapped_early _ _ (by omega) ?_
      rw [cacheTtlMs]
      bv_omega
  | loop time =>
      simp only [Event.now] at now
      simp only [ComparesUnwrapped]
      split
      · rename_i busy
        obtain ⟨started, output, member, value⟩ := burst_end_source past busy
        have bound := early _ (inside _ (logged_event past _ member))
        simp only [Event.now] at bound
        rw [value, broadcastBurst]
        exact unwrapped_early _ _ (by omega) (by bv_omega)
      · exact fun k _ pending => unwrapped_early _ _ (by omega) ((deadlines k pending.1).2 pending.2)

def outputs (events : List Event) : List Output := (relayLog events).map Prod.snd

theorem shifted_run_same (c : Millis) (events : List Event) (unwrapped : RunUnwrapped events)
    (unwrappedShifted : RunUnwrapped (events.map (Event.shift c))) :
    outputs (events.map (Event.shift c)) = outputs events := by
  refine (lockstep step step (Event.shift c) (Shifted c) (fun a b event => ComparesUnwrapped a event ∧
    ComparesUnwrapped b (event.shift c)) (shifted_step c) .start .start (shifted_start c) events ?_).1
  intro past event later split
  refine ⟨unwrapped past event later split, unwrappedShifted _ _ (later.map (Event.shift c)) ?_⟩
  rw [split, List.map_append, List.map_cons]

theorem shifted_run_sample :
    outputs ([.onResult ⟨some (sampleFrame 20 1), 1⟩ 0 false 50, .loop 50].map (Event.shift 1000)) =
      outputs [.onResult ⟨some (sampleFrame 20 1), 1⟩ 0 false 50, .loop 50] :=
  shifted_run_same 1000 _ (early_run_unwrapped _ (by decide) (by decide)) (early_run_unwrapped _ (by decide) (by decide))

def Spans (events : List Event) (width : Nat) : Prop :=
  ∀ first ∈ events, ∀ last ∈ events, last.now.toNat < first.now.toNat + width

instance (events : List Event) (width : Nat) : Decidable (Spans events width) :=
  inferInstanceAs (Decidable (∀ first ∈ events, ∀ last ∈ events, _))

-- 50 ms before the counter wraps the jitter deadline lands behind the clock,
-- so the shifted run transmits a packet that the other one still holds back.
theorem burst_depends_on_clock :
    ¬ ∀ (c : Millis) (events : List Event), Nondecreasing events → Spans events (2 ^ 31) → JittersInRange events →
      outputs (events.map (Event.shift c)) = outputs events := by
  intro claimed
  have same := claimed 4294967246 [.onResult ⟨some (sampleFrame 20 1), 1⟩ 0 false 100, .loop 1] (by decide) (by decide)
    (by decide)
  have held : (outputs [.onResult ⟨some (sampleFrame 20 1), 1⟩ 0 false 100, .loop 1])[1]? = some (.scanned [] none) := by
    decide +kernel
  have sent : (outputs ([.onResult ⟨some (sampleFrame 20 1), 1⟩ 0 false 100, .loop 1].map (Event.shift 4294967246)))[1]? =
      some (.scanned [] (some (0, sampleFrame 19 1))) := by
    decide +kernel
  rw [same, held] at sent
  simp at sent

end BeaconMesh.Arduino
