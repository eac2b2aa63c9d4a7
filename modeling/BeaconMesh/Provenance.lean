import BeaconMesh.CacheInvariant

set_option autoImplicit false

namespace BeaconMesh.Arduino

open Sweep History

abbrev Record := Event × Output

def relayLog (events : List Event) : List Record := log step .start events

theorem logged_event (events : List Event) (record : Record) (member : record ∈ relayLog events) : record.1 ∈ events := by
  rw [← log_events step .start events]
  exact List.mem_map_of_mem member

def relayState (events : List Event) : RelayState := final step .start events

-- random(50, 201)
def Event.jitterInRange : Event → Bool
  | .onResult _ _ _ jitter => decide (50 ≤ jitter.toNat ∧ jitter.toNat ≤ 200)
  | .loop _ => true

def Event.offline : Event → Bool
  | .onResult _ _ wifiConnected _ => !wifiConnected
  | .loop _ => true

def JittersInRange (events : List Event) : Prop := ∀ event ∈ events, event.jitterInRange = true

def BleRelayMode (events : List Event) : Prop := ∀ event ∈ events, event.offline = true

def Nondecreasing (events : List Event) : Prop := events.Pairwise fun earlier later => earlier.now ≤ later.now

instance (events : List Event) : Decidable (JittersInRange events) := inferInstanceAs (Decidable (∀ event ∈ events, _))

instance (events : List Event) : Decidable (BleRelayMode events) := inferInstanceAs (Decidable (∀ event ∈ events, _))

instance (events : List Event) : Decidable (Nondecreasing events) := inferInstanceAs (Decidable (events.Pairwise _))

def storedSlot : Output → Option Slot
  | .forwarded _ slot _ => some slot
  | .queued slot _ => some slot
  | _ => none

def Stores (k : Slot) (record : Record) : Prop := storedSlot record.2 = some k

-- The callback that filled a slot, read off the entry it left there.
inductive Accepted (k : Slot) (entry : CacheEntry) : Record → Prop where
  | queued (device : Advertisement) (now jitter : Millis) (payloadRaw : Bytes) (packet : EmergencyPacket)
      (received : receivedPacket device = some (payloadRaw, packet)) (hops : 2 ≤ (ttlOf packet.flags).toNat)
      (key : entry.hmac = packet.hmacSig) (relayed : entry.packet = relayedPacket packet)
      (expires : entry.expiresAt = now + cacheTtlMs) (time : entry.broadcastTime = now + jitter) :
      Accepted k entry (.onResult device now false jitter, .queued k jitter)
  | forwarded (device : Advertisement) (now jitter : Millis) (payloadRaw : Bytes) (packet : EmergencyPacket)
      (newLoc : Option Slot) (received : receivedPacket device = some (payloadRaw, packet))
      (key : entry.hmac = packet.hmacSig) (expires : entry.expiresAt = now + cacheTtlMs)
      (marked : entry.broadcasted = true) :
      Accepted k entry (.onResult device now true jitter, .forwarded (udpBurst payloadRaw) k newLoc)

structure Kept (before after : CacheEntry) : Prop where
  hmac : after.hmac = before.hmac
  packet : after.packet = before.packet
  expires : after.expiresAt = before.expiresAt
  time : after.broadcastTime = before.broadcastTime
  active : after.active = true → before.active = true
  marked : before.broadcasted = true → after.broadcasted = true

theorem kept_refl (entry : CacheEntry) : Kept entry entry := ⟨rfl, rfl, rfl, rfl, id, id⟩

theorem kept_purge (now : Millis) (entry : CacheEntry) : Kept entry (purge now entry) :=
  ⟨by simp, by simp, by simp, by simp, fun active => ((purge_active now entry).mp active).1, by simp⟩

theorem kept_record (entry : CacheEntry) (mac : Mac) : Kept entry (recordMac entry mac) :=
  ⟨by simp, by simp, by simp, by simp, by simp, by simp⟩

theorem kept_marked (entry : CacheEntry) : Kept entry (markBroadcasted entry) :=
  ⟨rfl, rfl, rfl, rfl, id, fun _ => rfl⟩

theorem kept_pending (before after : CacheEntry) (kept : Kept before after) (pending : Pending after) : Pending before := by
  refine ⟨kept.active pending.1, ?_⟩
  cases marked : before.broadcasted with
  | false => rfl
  | true => exact absurd (kept.marked marked) (by simp [pending.2])

theorem accepted_kept (k : Slot) (before after : CacheEntry) (record : Record) (kept : Kept before after)
    (accepted : Accepted k before record) : Accepted k after record := by
  cases accepted with
  | queued device now jitter payloadRaw packet received hops key relayed expires time =>
      exact .queued device now jitter payloadRaw packet received hops (kept.hmac.trans key) (kept.packet.trans relayed)
        (kept.expires.trans expires) (kept.time.trans time)
  | forwarded device now jitter payloadRaw packet newLoc received key expires marked =>
      exact .forwarded device now jitter payloadRaw packet newLoc received (kept.hmac.trans key)
        (kept.expires.trans expires) (kept.marked marked)

theorem callback_keeps (before after : RelayState) (device : Advertisement) (now : Millis) (wifi : Bool)
    (jitter : Millis) (output : Output) (effect : CallbackEffect before device now wifi jitter after output)
    (k : Slot) (elsewhere : storedSlot output ≠ some k) : Kept (read before.cache k) (read after.cache k) := by
  cases effect with
  | ignored => exact kept_refl _
  | duplicate payloadRaw packet location _ received live key recorded others burst =>
      by_cases hit : k = location
      · rw [hit, recorded]
        exact kept_record _ _
      · cases others k hit with
        | inl same => exact same ▸ kept_refl _
        | inr purged => exact purged ▸ kept_purge now _
  | dropped payloadRaw packet _ _ received offline absent spent purged burst silent =>
      rw [purged, read_map]
      exact kept_purge now _
  | queued payloadRaw packet _ received offline absent hops stored burst =>
      have other : k ≠ targetSlot before.cache now := fun same => elsewhere (by rw [same]; rfl)
      rw [stored, add_entry_other _ _ _ _ _ _ _ other]
      exact kept_purge now _
  | forwarded payloadRaw packet _ newLoc received online absent stored lookedUp burst =>
      have other : k ≠ targetSlot before.cache now := fun same => elsewhere (by rw [same]; rfl)
      rw [stored, read_write_ne _ _ _ _ other, add_entry_other _ _ _ _ _ _ _ other]
      exact kept_purge now _

theorem callback_stores (before after : RelayState) (device : Advertisement) (now : Millis) (wifi : Bool)
    (jitter : Millis) (output : Output) (effect : CallbackEffect before device now wifi jitter after output)
    (k : Slot) (here : storedSlot output = some k) (active : (read after.cache k).active = true) :
    Accepted k (read after.cache k) (.onResult device now wifi jitter, output) := by
  cases effect with
  | ignored => simp [storedSlot] at here
  | duplicate => simp [storedSlot] at here
  | dropped payloadRaw packet _ _ received offline absent spent purged burst silent =>
      rcases silent with rfl | rfl <;> simp [storedSlot] at here
  | queued payloadRaw packet _ received offline absent hops stored burst =>
      obtain rfl : targetSlot before.cache now = k := by simpa [storedSlot] using here
      subst offline
      rw [stored, add_entry_target]
      exact .queued device now jitter payloadRaw packet received hops rfl rfl rfl rfl
  | forwarded payloadRaw packet _ newLoc received online absent stored lookedUp burst =>
      obtain rfl : targetSlot before.cache now = k := by simpa [storedSlot] using here
      subst online
      rw [stored, read_write_self] at active ⊢
      by_cases lasting : now < now + cacheTtlMs
      · rw [gatewayEntry, if_pos lasting]
        exact .forwarded device now jitter payloadRaw packet newLoc received rfl rfl rfl
      · rw [gatewayEntry, if_neg lasting] at active
        exact absurd active Bool.false_ne_true

theorem callback_burst (before after : RelayState) (device : Advertisement) (now : Millis) (wifi : Bool)
    (jitter : Millis) (output : Output) (effect : CallbackEffect before device now wifi jitter after output) :
    SameBurst before after := by
  cases effect with
  | ignored => exact ⟨rfl, rfl, rfl⟩
  | duplicate payloadRaw packet location _ received live key recorded others burst => exact burst
  | dropped payloadRaw packet _ _ received offline absent spent purged burst silent => exact burst
  | queued payloadRaw packet _ received offline absent hops stored burst => exact burst
  | forwarded payloadRaw packet _ newLoc received online absent stored lookedUp burst => exact burst

theorem loop_stores_nothing (before after : RelayState) (now : Millis) (output : Output)
    (effect : LoopEffect before now after output) : storedSlot output = none := by
  cases effect <;> rfl

theorem step_keeps (state : RelayState) (event : Event) (k : Slot) (elsewhere : ¬ Stores k (event, (step state event).2)) :
    Kept (read state.cache k) (read (step state event).1.cache k) := by
  cases event with
  | loop now =>
      cases loop_entry _ _ now _ (loop_effect state now) k with
      | inl same => exact same ▸ kept_refl _
      | inr marked => exact marked ▸ kept_marked _
  | onResult device now wifi jitter => exact callback_keeps _ _ _ _ _ _ _ (on_result_effect state device now wifi jitter) k elsewhere

theorem step_stores (state : RelayState) (event : Event) (k : Slot) (here : Stores k (event, (step state event).2))
    (active : (read (step state event).1.cache k).active = true) :
    Accepted k (read (step state event).1.cache k) (event, (step state event).2) := by
  cases event with
  | loop now => exact absurd (here.symm.trans (loop_stores_nothing _ _ now _ (loop_effect state now))) (Option.some_ne_none k)
  | onResult device now wifi jitter => exact callback_stores _ _ _ _ _ _ _ (on_result_effect state device now wifi jitter) k here active

def SourcedAt (history : List Record) (k : Slot) (entry : CacheEntry) : Prop :=
  ∃ i record, history[i]? = some record ∧ Latest (Stores k) history i ∧ Accepted k entry record

-- Every active entry is what the last callback to store into its slot left.
def Sourced (history : List Record) (state : RelayState) : Prop :=
  ∀ k, (read state.cache k).active = true → SourcedAt history k (read state.cache k)

theorem sourced_step (history : List Record) (state : RelayState) (event : Event) (sourced : Sourced history state) :
    Sourced (history ++ [(event, (step state event).2)]) (step state event).1 := by
  intro k active
  by_cases here : Stores k (event, (step state event).2)
  · exact ⟨history.length, _, by simp, latest_snoc_hit _ _ _ here, step_stores state event k here active⟩
  · have kept := step_keeps state event k here
    obtain ⟨i, record, found, latest, accepted⟩ := sourced k (kept.active active)
    have bound := (List.getElem?_eq_some_iff.mp found).1
    exact ⟨i, record, by rw [List.getElem?_append_left bound]; exact found, latest_snoc_skip _ _ _ _ here latest,
      accepted_kept k _ _ record kept accepted⟩

theorem sourced_start : Sourced [] .start := by
  intro k active
  have cell : read RelayState.start.cache k = CacheEntry.zero := read_blank k _
  rw [cell] at active
  exact absurd active Bool.false_ne_true

theorem reachable_sourced (events : List Event) : Sourced (relayLog events) (relayState events) :=
  History.invariant step .start Sourced sourced_start sourced_step events

end BeaconMesh.Arduino
