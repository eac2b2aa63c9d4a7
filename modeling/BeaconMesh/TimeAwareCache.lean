import BeaconMesh.Lib.Sweep
import BeaconMesh.Packet

set_option autoImplicit false

namespace BeaconMesh.Arduino

open Sweep

abbrev cacheSize : Nat := 256

abbrev maxTrackedMacs : Nat := 4

-- uint32_t milliseconds: sums and comparisons wrap as the counter does.
abbrev Millis := BitVec 32

abbrev Mac := BitVec 48

abbrev Slot := Fin cacheSize

def cacheTtlMs : Millis := 2000

structure CacheEntry where
  hmac : HmacSig
  expiresAt : Millis
  rxCount : UInt8
  active : Bool
  broadcasted : Bool
  broadcastTime : Millis
  packet : EmergencyPacket
  seenMacs : Cells Mac maxTrackedMacs
deriving DecidableEq, Repr

def CacheEntry.zero : CacheEntry := ⟨0, 0, 0, false, false, 0, .zero, blank maxTrackedMacs 0⟩

abbrev TimeAwareCache := Cells CacheEntry cacheSize

-- The cache is a global: zero-initialised, every slot inactive.
def emptyCache : TimeAwareCache := blank cacheSize .zero

def newMacText : String := "[FORWARD] New MAC detected. Forwarding packet."

def seenMacText : String := "[DROP] Packet dropped, MAC seen before in the past 15 seconds."

-- The inner loop over seen_macs, with both of its bounds.
def macKnown (entry : CacheEntry) (mac : Mac) : Bool :=
  (List.finRange maxTrackedMacs).any fun j => decide (j.val < entry.rxCount.toNat) && read entry.seenMacs j == mac

def recordMac (entry : CacheEntry) (mac : Mac) : CacheEntry :=
  if macKnown entry mac then entry
  else if room : entry.rxCount.toNat < maxTrackedMacs then
    { entry with
      seenMacs := write entry.seenMacs ⟨entry.rxCount.toNat, room⟩ mac
      rxCount := entry.rxCount + 1 }
  else entry

-- The text set when the MAC is known is overwritten before anyone reads it.
def hitStatus (entry : CacheEntry) (mac : Mac) (status : Option String) : Option String :=
  let _inLoop := if macKnown entry mac then some newMacText else status
  some seenMacText

def deactivate (entry : CacheEntry) : CacheEntry := { entry with active := false }

def checkBody (hmac : HmacSig) (now : Millis) (mac : Mac) (entry : CacheEntry) : Verdict CacheEntry :=
  if entry.active then
    if now ≥ entry.expiresAt then .next (deactivate entry)
    else if entry.hmac = hmac then .stop (recordMac entry mac)
    else .next entry
  else .next entry

structure Checked where
  location : Option Slot
  cache : TimeAwareCache
  macStatus : Option String

def checkCache (cache : TimeAwareCache) (hmac : HmacSig) (now : Millis) (mac : Mac)
    (macStatus : Option String) : Checked :=
  let swept := sweep (checkBody hmac now mac) cache
  { location := swept.1
    cache := swept.2
    macStatus := match swept.1 with
      | some i => hitStatus (read cache i) mac macStatus
      | none => macStatus }

def isFree (now : Millis) (entry : CacheEntry) : Bool := !entry.active || decide (now ≥ entry.expiresAt)

def purge (now : Millis) (entry : CacheEntry) : CacheEntry := if isFree now entry then deactivate entry else entry

def oldestSlot (cache : TimeAwareCache) : Slot :=
  (least (fun i => (read cache i).expiresAt.toNat) (List.finRange cacheSize) (0xFFFFFFFF, 0)).2

-- What the slot holds afterwards: only seen_macs keeps bytes of its past.
def freshEntry (old : CacheEntry) (hmac : HmacSig) (packet : EmergencyPacket) (now jitter : Millis)
    (mac : Mac) : CacheEntry :=
  { hmac := hmac
    expiresAt := now + cacheTtlMs
    rxCount := 1
    active := true
    broadcasted := false
    broadcastTime := now + jitter
    packet := packet
    seenMacs := write old.seenMacs 0 mac }

def targetSlot (cache : TimeAwareCache) (now : Millis) : Slot :=
  match first (isFree now) cache with
  | some i => i
  | none => oldestSlot (mapCells (purge now) cache)

def addToCache (cache : TimeAwareCache) (hmac : HmacSig) (packet : EmergencyPacket) (now jitter : Millis)
    (mac : Mac) : Slot × TimeAwareCache :=
  let purged := mapCells (purge now) cache
  let target := targetSlot cache now
  (target, write purged target (freshEntry (read purged target) hmac packet now jitter mac))

def Live (now : Millis) (entry : CacheEntry) : Prop := entry.active = true ∧ now < entry.expiresAt

def Pending (entry : CacheEntry) : Prop := entry.active = true ∧ entry.broadcasted = false

instance (now : Millis) (entry : CacheEntry) : Decidable (Live now entry) := inferInstanceAs (Decidable (_ ∧ _))

instance (entry : CacheEntry) : Decidable (Pending entry) := inferInstanceAs (Decidable (_ ∧ _))

theorem is_free_iff (now : Millis) (entry : CacheEntry) : isFree now entry = true ↔ ¬ Live now entry := by
  cases active : entry.active <;> simp [isFree, Live, active]

theorem is_free_false_iff (now : Millis) (entry : CacheEntry) : isFree now entry = false ↔ Live now entry := by
  rw [← Bool.not_eq_true, is_free_iff, not_not]

theorem check_body_stops (hmac : HmacSig) (now : Millis) (mac : Mac) (entry : CacheEntry) :
    (checkBody hmac now mac entry).stops = true ↔ Live now entry ∧ entry.hmac = hmac := by
  cases active : entry.active with
  | false => simp [checkBody, active, Verdict.stops, Live]
  | true =>
      by_cases late : now ≥ entry.expiresAt
      · simp [checkBody, active, late, Verdict.stops, Live]
      · by_cases same : entry.hmac = hmac <;> simp [checkBody, active, late, same, Verdict.stops, Live, BitVec.not_le.mp late]

theorem check_cache_hit (cache : TimeAwareCache) (hmac : HmacSig) (now : Millis) (mac : Mac)
    (status : Option String) (k : Slot) :
    (checkCache cache hmac now mac status).location = some k ↔
      (Live now (read cache k) ∧ (read cache k).hmac = hmac) ∧
        ∀ i, i < k → ¬ (Live now (read cache i) ∧ (read cache i).hmac = hmac) := by
  simp only [checkCache, sweep_some_iff, check_body_stops, ← Bool.not_eq_true]

theorem check_cache_miss (cache : TimeAwareCache) (hmac : HmacSig) (now : Millis) (mac : Mac)
    (status : Option String) :
    (checkCache cache hmac now mac status).location = none ↔
      ∀ i, ¬ (Live now (read cache i) ∧ (read cache i).hmac = hmac) := by
  simp only [checkCache, sweep_none_iff, check_body_stops, ← Bool.not_eq_true]

@[simp] theorem deactivate_active (entry : CacheEntry) : (deactivate entry).active = false := rfl

theorem deactivate_inactive (entry : CacheEntry) (inactive : entry.active = false) : deactivate entry = entry := by
  cases entry
  simp only at inactive
  simp [deactivate, inactive]

theorem purge_live (now : Millis) (entry : CacheEntry) (live : Live now entry) : purge now entry = entry := by
  rw [purge, if_neg]
  exact fun free => (is_free_iff now entry).mp free live

theorem purge_dead (now : Millis) (entry : CacheEntry) (dead : ¬ Live now entry) :
    purge now entry = deactivate entry := by
  rw [purge, if_pos ((is_free_iff now entry).mpr dead)]

theorem purge_eq (now : Millis) (entry : CacheEntry) :
    purge now entry = { entry with active := decide (Live now entry) } := by
  by_cases live : Live now entry
  · rw [purge_live now entry live]
    cases entry
    simp [Live] at live
    simp [live, Live]
  · simp [purge_dead now entry live, deactivate, live]

@[simp] theorem purge_hmac (now : Millis) (entry : CacheEntry) : (purge now entry).hmac = entry.hmac := by
  rw [purge_eq]

@[simp] theorem purge_expires (now : Millis) (entry : CacheEntry) : (purge now entry).expiresAt = entry.expiresAt := by
  rw [purge_eq]

@[simp] theorem purge_count (now : Millis) (entry : CacheEntry) : (purge now entry).rxCount = entry.rxCount := by
  rw [purge_eq]

@[simp] theorem purge_broadcasted (now : Millis) (entry : CacheEntry) :
    (purge now entry).broadcasted = entry.broadcasted := by
  rw [purge_eq]

@[simp] theorem purge_time (now : Millis) (entry : CacheEntry) :
    (purge now entry).broadcastTime = entry.broadcastTime := by
  rw [purge_eq]

@[simp] theorem purge_packet (now : Millis) (entry : CacheEntry) : (purge now entry).packet = entry.packet := by
  rw [purge_eq]

@[simp] theorem purge_macs (now : Millis) (entry : CacheEntry) : (purge now entry).seenMacs = entry.seenMacs := by
  rw [purge_eq]

theorem purge_active (now : Millis) (entry : CacheEntry) : (purge now entry).active = true ↔ Live now entry := by
  rw [purge_eq]
  simp

theorem record_mac_eq (entry : CacheEntry) (mac : Mac) :
    recordMac entry mac =
      { entry with seenMacs := (recordMac entry mac).seenMacs, rxCount := (recordMac entry mac).rxCount } := by
  unfold recordMac
  split
  · rfl
  · split <;> rfl

@[simp] theorem record_hmac (entry : CacheEntry) (mac : Mac) : (recordMac entry mac).hmac = entry.hmac := by
  rw [record_mac_eq]

@[simp] theorem record_expires (entry : CacheEntry) (mac : Mac) : (recordMac entry mac).expiresAt = entry.expiresAt := by
  rw [record_mac_eq]

@[simp] theorem record_active (entry : CacheEntry) (mac : Mac) : (recordMac entry mac).active = entry.active := by
  rw [record_mac_eq]

@[simp] theorem record_broadcasted (entry : CacheEntry) (mac : Mac) :
    (recordMac entry mac).broadcasted = entry.broadcasted := by
  rw [record_mac_eq]

@[simp] theorem record_time (entry : CacheEntry) (mac : Mac) :
    (recordMac entry mac).broadcastTime = entry.broadcastTime := by
  rw [record_mac_eq]

@[simp] theorem record_packet (entry : CacheEntry) (mac : Mac) : (recordMac entry mac).packet = entry.packet := by
  rw [record_mac_eq]

theorem check_body_value (hmac : HmacSig) (now : Millis) (mac : Mac) (entry : CacheEntry) :
    (checkBody hmac now mac entry).value =
      if Live now entry ∧ entry.hmac = hmac then recordMac entry mac else purge now entry := by
  cases active : entry.active with
  | false =>
      have dead : ¬ Live now entry := fun live => by simp [Live, active] at live
      simp [checkBody, active, dead, purge_dead, deactivate_inactive, Verdict.value]
  | true =>
      by_cases late : now ≥ entry.expiresAt
      · have dead : ¬ Live now entry := fun live => BitVec.not_le.mpr live.2 late
        simp [checkBody, active, late, dead, purge_dead, Verdict.value]
      · have live : Live now entry := ⟨active, BitVec.not_le.mp late⟩
        by_cases same : entry.hmac = hmac <;> simp [checkBody, active, late, live, same, purge_live, Verdict.value]

theorem check_cache_entry (cache : TimeAwareCache) (hmac : HmacSig) (now : Millis) (mac : Mac)
    (status : Option String) (i : Slot) :
    ((checkCache cache hmac now mac status).location = some i ∧
      read (checkCache cache hmac now mac status).cache i = recordMac (read cache i) mac) ∨
    ((checkCache cache hmac now mac status).location ≠ some i ∧
      (read (checkCache cache hmac now mac status).cache i = read cache i ∨
        read (checkCache cache hmac now mac status).cache i = purge now (read cache i))) := by
  have cell : read (checkCache cache hmac now mac status).cache i = _ := read_sweep (checkBody hmac now mac) cache i
  have location : (checkCache cache hmac now mac status).location = (sweep (checkBody hmac now mac) cache).1 := rfl
  rw [check_body_value, ← location] at cell
  by_cases hit : (checkCache cache hmac now mac status).location = some i
  · have found := ((check_cache_hit cache hmac now mac status i).mp hit).1
    left
    rw [cell, if_pos (fun k same => by rw [hit] at same; exact (Option.some.inj same).le), if_pos found]
    exact ⟨hit, rfl⟩
  · right
    refine ⟨hit, ?_⟩
    rw [cell]
    split
    · rename_i reached
      rw [if_neg]
      · exact Or.inr rfl
      · intro found
        cases location : (checkCache cache hmac now mac status).location with
        | none => exact (check_cache_miss cache hmac now mac status).mp location i found
        | some k =>
            have before := ((check_cache_hit cache hmac now mac status k).mp location).2
            cases (reached k location).lt_or_eq with
            | inl less => exact before i less found
            | inr same => exact hit (same ▸ location)
    · exact Or.inl rfl

theorem check_cache_miss_entry (cache : TimeAwareCache) (hmac : HmacSig) (now : Millis) (mac : Mac)
    (status : Option String) (i : Slot) (miss : (checkCache cache hmac now mac status).location = none) :
    read (checkCache cache hmac now mac status).cache i = purge now (read cache i) := by
  have cell : read (checkCache cache hmac now mac status).cache i = _ :=
    read_sweep_none (checkBody hmac now mac) cache i miss
  rw [cell, check_body_value, if_neg ((check_cache_miss cache hmac now mac status).mp miss i)]

theorem add_entry_target (cache : TimeAwareCache) (hmac : HmacSig) (packet : EmergencyPacket)
    (now jitter : Millis) (mac : Mac) :
    read (addToCache cache hmac packet now jitter mac).2 (targetSlot cache now) =
      freshEntry (purge now (read cache (targetSlot cache now))) hmac packet now jitter mac := by
  simp [addToCache]

theorem add_entry_other (cache : TimeAwareCache) (hmac : HmacSig) (packet : EmergencyPacket)
    (now jitter : Millis) (mac : Mac) (i : Slot) (other : i ≠ targetSlot cache now) :
    read (addToCache cache hmac packet now jitter mac).2 i = purge now (read cache i) := by
  simp [addToCache, read_write_ne _ _ _ _ other]

theorem oldest_slot_least (cache : TimeAwareCache) (i : Slot) :
    (read cache (oldestSlot cache)).expiresAt ≤ (read cache i).expiresAt := by
  let key : Slot → Nat := fun i => (read cache i).expiresAt.toNat
  have bound := least_le key (List.finRange cacheSize) (0xFFFFFFFF, 0) i (List.mem_finRange i)
  cases least_origin key (List.finRange cacheSize) (0xFFFFFFFF, 0) with
  | inl kept =>
      -- Nothing was below the sentinel, so every deadline equals it.
      have top : ∀ j, (read cache j).expiresAt.toNat ≤ 0xFFFFFFFF := fun j => by have := (read cache j).expiresAt.isLt; omega
      rw [kept] at bound
      exact BitVec.le_def.mpr ((top _).trans bound)
  | inr chosen => exact BitVec.le_def.mpr (chosen.le.trans bound)

-- A slot is reused when it is free; when none is, the oldest entry goes.
theorem target_free_or_oldest (cache : TimeAwareCache) (now : Millis) :
    ¬ Live now (read cache (targetSlot cache now)) ∨
      ((∀ i, Live now (read cache i)) ∧
        ∀ i, (read cache (targetSlot cache now)).expiresAt ≤ (read cache i).expiresAt) := by
  unfold targetSlot
  cases free : first (isFree now) cache with
  | some i => exact Or.inl ((is_free_iff _ _).mp ((first_some_iff _ _ _).mp free).1)
  | none =>
      right
      refine ⟨fun i => (is_free_false_iff _ _).mp ((first_none_iff _ _).mp free i), fun i => ?_⟩
      simpa using oldest_slot_least (mapCells (purge now) cache) i

end BeaconMesh.Arduino
