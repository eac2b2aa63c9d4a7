import BeaconMesh.Lib.History
import BeaconMesh.RelayStep

set_option autoImplicit false

namespace BeaconMesh.Arduino

open Sweep History

inductive CacheCall where
  | checkCache (hmac : HmacSig) (currentMillis : Millis) (senderMac : Mac) (cacheMacStatus : Option String)
  | addToCache (hmac : HmacSig) (packet : EmergencyPacket) (currentMillis jitterDelayMs : Millis) (senderMac : Mac)

def CacheCall.currentMillis : CacheCall → Millis
  | .checkCache _ now _ _ => now
  | .addToCache _ _ now _ _ => now

-- The slot a call returns, -1 being none, and the text it leaves in
-- *cacheMacStatus.
def callStep (cache : TimeAwareCache) : CacheCall → TimeAwareCache × (Option Slot × Option String)
  | .checkCache hmac now mac status =>
      let checked := checkCache cache hmac now mac status
      (checked.cache, checked.location, checked.macStatus)
  | .addToCache hmac packet now jitter mac =>
      let added := addToCache cache hmac packet now jitter mac
      (added.2, some added.1, none)

-- The reference cache purges all its slots first.
def eagerStep (cache : TimeAwareCache) (call : CacheCall) : TimeAwareCache × (Option Slot × Option String) :=
  callStep (mapCells (purge call.currentMillis) cache) call

-- Two entries that no operation from time now on can tell apart: one may be
-- active past its deadline where the other is not active.
structure Alike (now : Millis) (a b : CacheEntry) : Prop where
  content : deactivate a = deactivate b
  live : Live now a ↔ Live now b

theorem alike_refl (now : Millis) (entry : CacheEntry) : Alike now entry entry := ⟨rfl, Iff.rfl⟩

theorem alike_live (now : Millis) (a b : CacheEntry) (alike : Alike now a b) (live : Live now a) : a = b := by
  have other := alike.live.mp live
  have content := alike.content
  obtain ⟨hmacA, expiresA, countA, activeA, markedA, timeA, packetA, macsA⟩ := a
  obtain ⟨hmacB, expiresB, countB, activeB, markedB, timeB, packetB, macsB⟩ := b
  obtain rfl : activeA = true := live.1
  obtain rfl : activeB = true := other.1
  simpa [deactivate] using content

theorem deactivate_purge (now : Millis) (entry : CacheEntry) : deactivate (purge now entry) = deactivate entry := by
  rw [purge_eq]
  rfl

theorem alike_purge_left (now : Millis) (a b : CacheEntry) (alike : Alike now a b) : Alike now (purge now a) b :=
  ⟨(deactivate_purge now a).trans alike.content, (live_purge now a).trans alike.live⟩

theorem alike_purge_right (now : Millis) (a b : CacheEntry) (alike : Alike now a b) : Alike now a (purge now b) :=
  ⟨alike.content.trans (deactivate_purge now b).symm, alike.live.trans (live_purge now b).symm⟩

theorem live_earlier (now later : Millis) (entry : CacheEntry) (order : now ≤ later) (live : Live later entry) :
    Live now entry := by
  refine ⟨live.1, ?_⟩
  have before := live.2
  bv_omega

-- An entry kept past its deadline would revive if the clock stepped back.
theorem alike_later (now later : Millis) (a b : CacheEntry) (order : now ≤ later) (alike : Alike now a b) :
    Alike later a b := by
  refine ⟨alike.content, ?_, ?_⟩
  · intro live
    rw [← alike_live now a b alike (live_earlier now later a order live)]
    exact live
  · intro live
    rw [alike_live now a b alike (alike.live.mpr (live_earlier now later b order live))]
    exact live

def SameLive (now : Millis) (a b : TimeAwareCache) : Prop := ∀ i, Alike now (read a i) (read b i)

theorem same_live_match (now : Millis) (a b : TimeAwareCache) (same : SameLive now a b) (hmac : HmacSig) (i : Slot) :
    (Live now (read a i) ∧ (read a i).hmac = hmac) ↔ (Live now (read b i) ∧ (read b i).hmac = hmac) := by
  constructor
  · intro found
    rw [← alike_live now _ _ (same i) found.1]
    exact found
  · intro found
    rw [alike_live now _ _ (same i) ((same i).live.mpr found.1)]
    exact found

theorem check_same_location (now : Millis) (a b : TimeAwareCache) (same : SameLive now a b) (hmac : HmacSig) (mac : Mac)
    (status : Option String) :
    (checkCache a hmac now mac status).location = (checkCache b hmac now mac status).location := by
  cases location : (checkCache b hmac now mac status).location with
  | none =>
      rw [check_cache_miss] at location ⊢
      exact fun i found => location i ((same_live_match now a b same hmac i).mp found)
  | some k =>
      rw [check_cache_hit] at location ⊢
      exact ⟨(same_live_match now a b same hmac k).mpr location.1,
        fun i before found => location.2 i before ((same_live_match now a b same hmac i).mp found)⟩

theorem check_same_live (now : Millis) (a b : TimeAwareCache) (same : SameLive now a b) (hmac : HmacSig) (mac : Mac)
    (status : Option String) : SameLive now (checkCache a hmac now mac status).cache (checkCache b hmac now mac status).cache := by
  have location := check_same_location now a b same hmac mac status
  intro i
  rcases check_cache_entry a hmac now mac status i with ⟨hitA, recordedA⟩ | ⟨notA, restA⟩
  · rcases check_cache_entry b hmac now mac status i with ⟨hitB, recordedB⟩ | ⟨notB, _⟩
    · have live := ((check_cache_hit a hmac now mac status i).mp hitA).1.1
      rw [recordedA, recordedB, alike_live now _ _ (same i) live]
      exact alike_refl now _
    · exact absurd (location.symm.trans hitA) notB
  · rcases check_cache_entry b hmac now mac status i with ⟨hitB, _⟩ | ⟨_, restB⟩
    · exact absurd (location.trans hitB) notA
    · have left : Alike now (read (checkCache a hmac now mac status).cache i) (read b i) := by
        cases restA with
        | inl kept => exact kept.symm ▸ same i
        | inr purged => exact purged.symm ▸ alike_purge_left now _ _ (same i)
      cases restB with
      | inl kept => exact kept.symm ▸ left
      | inr purged => exact purged.symm ▸ alike_purge_right now _ _ left

theorem same_target (now : Millis) (a b : TimeAwareCache) (same : SameLive now a b) : targetSlot a now = targetSlot b now := by
  have free : first (isFree now) a = first (isFree now) b := by
    apply first_congr
    intro i
    rw [Bool.eq_iff_iff, is_free_iff, is_free_iff, (same i).live]
  cases found : first (isFree now) b with
  | some i => simp only [targetSlot, free, found]
  | none =>
      -- Only a full cache is searched for its oldest entry, and then every
      -- entry is live on both sides.
      have equal : a = b := by
        apply cells_ext
        intro i
        have live := (is_free_false_iff now (read b i)).mp ((first_none_iff _ _).mp found i)
        exact alike_live now _ _ (same i) ((same i).live.mpr live)
      rw [equal]

theorem add_same_live (now : Millis) (a b : TimeAwareCache) (same : SameLive now a b) (hmac : HmacSig)
    (packet : EmergencyPacket) (jitter : Millis) (mac : Mac) :
    SameLive now (addToCache a hmac packet now jitter mac).2 (addToCache b hmac packet now jitter mac).2 := by
  have target := same_target now a b same
  intro i
  by_cases here : i = targetSlot b now
  · have macs : (deactivate (read a i)).seenMacs = (deactivate (read b i)).seenMacs := congrArg _ (same i).content
    have macs : (read a i).seenMacs = (read b i).seenMacs := macs
    have cellA := add_entry_target a hmac packet now jitter mac
    have cellB := add_entry_target b hmac packet now jitter mac
    rw [target, ← here] at cellA
    rw [← here] at cellB
    rw [cellA, cellB, freshEntry, freshEntry, purge_macs, purge_macs, macs]
    exact alike_refl now _
  · rw [add_entry_other b hmac packet now jitter mac i here, add_entry_other a hmac packet now jitter mac i (target ▸ here)]
    exact alike_purge_left now _ _ (alike_purge_right now _ _ (same i))

theorem purged_same_live (now : Millis) (a b : TimeAwareCache) (same : SameLive now a b) :
    SameLive now a (mapCells (purge now) b) := by
  intro i
  rw [read_map]
  exact alike_purge_right now _ _ (same i)

-- The entry that was hit does not show in the text.
theorem check_same_status (a b : TimeAwareCache) (hmac : HmacSig) (now : Millis) (mac : Mac) (status : Option String)
    (same : (checkCache a hmac now mac status).location = (checkCache b hmac now mac status).location) :
    (checkCache a hmac now mac status).macStatus = (checkCache b hmac now mac status).macStatus := by
  simp only [checkCache] at same ⊢
  rw [same]
  split
  · rfl
  · rfl

theorem call_same (a b : TimeAwareCache) (call : CacheCall) (same : SameLive call.currentMillis a b) :
    (callStep a call).2 = (eagerStep b call).2 ∧ SameLive call.currentMillis (callStep a call).1 (eagerStep b call).1 := by
  cases call with
  | checkCache hmac now mac status =>
      have purged : SameLive now a (mapCells (purge now) b) := purged_same_live now a b same
      have location := check_same_location now a _ purged hmac mac status
      exact ⟨Prod.ext location (check_same_status a _ hmac now mac status location), check_same_live now a _ purged hmac mac status⟩
  | addToCache hmac packet now jitter mac =>
      have purged : SameLive now a (mapCells (purge now) b) := purged_same_live now a b same
      have target := same_target now a _ purged
      exact ⟨Prod.ext (congrArg some target) rfl, add_same_live now a _ purged hmac packet jitter mac⟩

def InOrder (calls : List CacheCall) : Prop := calls.Pairwise fun earlier later => earlier.currentMillis ≤ later.currentMillis

-- No return value and no live entry tells the lazy cache from one that purges
-- all its slots first.
theorem lazy_expiry_unobservable (calls : List CacheCall) (ordered : InOrder calls) :
    log callStep emptyCache calls = log eagerStep emptyCache calls ∧
      ∀ now, (∀ call ∈ calls, call.currentMillis ≤ now) → ∀ i,
        (Live now (read (final callStep emptyCache calls) i) ↔ Live now (read (final eagerStep emptyCache calls) i)) ∧
        (Live now (read (final callStep emptyCache calls) i) →
          read (final callStep emptyCache calls) i = read (final eagerStep emptyCache calls) i) := by
  have simulated : log callStep emptyCache calls = log eagerStep emptyCache calls ∧
      ∀ now, (∀ call ∈ calls, call.currentMillis ≤ now) →
        SameLive now (final callStep emptyCache calls) (final eagerStep emptyCache calls) := by
    induction calls using List.reverseRecOn with
    | nil => exact ⟨rfl, fun now _ i => alike_refl now _⟩
    | append_singleton past call ih =>
        obtain ⟨before, _, across⟩ := List.pairwise_append.mp ordered
        obtain ⟨answers, alike⟩ := ih before
        have same := alike call.currentMillis fun earlier member => across earlier member call (List.mem_singleton_self call)
        obtain ⟨answer, next⟩ := call_same _ _ call same
        refine ⟨by rw [log_snoc, log_snoc, answers, answer], fun now bound i => ?_⟩
        rw [final_snoc, final_snoc]
        exact alike_later _ now _ _ (bound call (by simp)) (next i)
  refine ⟨simulated.1, fun now bound i => ?_⟩
  have alike := simulated.2 now bound i
  exact ⟨alike.live, alike_live now _ _ alike⟩

def staleCalls : List CacheCall :=
  [.addToCache 1 .zero 0 50 1, .addToCache 2 .zero 1 50 1, .checkCache 2 2000 3 none, .addToCache 3 .zero 2000 50 1]

theorem stale_calls_unobservable :
    log callStep emptyCache staleCalls = log eagerStep emptyCache staleCalls ∧
      ∀ now, (∀ call ∈ staleCalls, call.currentMillis ≤ now) → ∀ i,
        (Live now (read (final callStep emptyCache staleCalls) i) ↔ Live now (read (final eagerStep emptyCache staleCalls) i)) ∧
        (Live now (read (final callStep emptyCache staleCalls) i) →
          read (final callStep emptyCache staleCalls) i = read (final eagerStep emptyCache staleCalls) i) :=
  lazy_expiry_unobservable staleCalls (by unfold InOrder; decide)

end BeaconMesh.Arduino
