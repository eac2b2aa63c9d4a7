import BeaconMesh.Retention
import Mathlib.Data.Finset.Card

set_option autoImplicit false

namespace BeaconMesh.Arduino

open Sweep History

def StoredAt (history : List Record) (hmac : HmacSig) (time : Millis) (m : Nat) : Prop :=
  ∃ device wifi jitter output payloadRaw packet k, history[m]? = some (.onResult device time wifi jitter, output) ∧
    receivedPacket device = some (payloadRaw, packet) ∧ packet.hmacSig = hmac ∧ storedSlot output = some k

theorem stored_at_take (history : List Record) (hmac : HmacSig) (time : Millis) (m n : Nat)
    (stored : StoredAt (history.take n) hmac time m) : m < n ∧ StoredAt history hmac time m := by
  obtain ⟨device, wifi, jitter, output, payloadRaw, packet, k, found, rest⟩ := stored
  have inside := (List.getElem?_eq_some_iff.mp found).1
  have before : m < n := by
    rw [List.length_take] at inside
    omega
  rw [List.getElem?_take_of_lt before] at found
  exact ⟨before, device, wifi, jitter, output, payloadRaw, packet, k, found, rest⟩

structure Remembers (hmac : HmacSig) (deadline : Millis) (entry : CacheEntry) : Prop where
  active : entry.active = true
  hmac : entry.hmac = hmac
  expires : entry.expiresAt = deadline

theorem callback_store (before after : RelayState) (device : Advertisement) (now : Millis) (wifi : Bool)
    (jitter : Millis) (output : Output) (effect : CallbackEffect before device now wifi jitter after output) (k : Slot)
    (here : storedSlot output = some k) :
    ∃ payloadRaw packet, receivedPacket device = some (payloadRaw, packet) ∧ NoMatch now packet.hmacSig before.cache ∧
      (now.toNat + 2000 < 2 ^ 32 → Remembers packet.hmacSig (now + cacheTtlMs) (read after.cache k)) := by
  cases effect with
  | ignored => simp [storedSlot] at here
  | duplicate => simp [storedSlot] at here
  | dropped payloadRaw packet _ _ received offline absent spent purged burst silent =>
      rcases silent with rfl | rfl <;> simp [storedSlot] at here
  | queued payloadRaw packet _ received offline absent hops stored burst =>
      obtain rfl : targetSlot before.cache now = k := by simpa [storedSlot] using here
      refine ⟨payloadRaw, packet, received, absent, fun _ => ?_⟩
      rw [stored, add_entry_target]
      exact ⟨rfl, rfl, rfl⟩
  | forwarded payloadRaw packet _ newLoc received online absent stored lookedUp burst =>
      obtain rfl : targetSlot before.cache now = k := by simpa [storedSlot] using here
      refine ⟨payloadRaw, packet, received, absent, fun fits => ?_⟩
      have lasting : now < now + cacheTtlMs := by
        rw [cacheTtlMs]
        bv_omega
      rw [stored, read_write_self, gatewayEntry, if_pos lasting]
      exact ⟨rfl, rfl, rfl⟩

theorem callback_duplicate (before after : RelayState) (device : Advertisement) (now : Millis) (wifi : Bool)
    (jitter : Millis) (output : Output) (effect : CallbackEffect before device now wifi jitter after output)
    (payloadRaw : Bytes) (packet : EmergencyPacket) (received : receivedPacket device = some (payloadRaw, packet))
    (known : ¬ NoMatch now packet.hmacSig before.cache) : ∃ location, output = .duplicate location := by
  cases effect with
  | ignored filtered => exact absurd (received.symm.trans filtered) (Option.some_ne_none _)
  | duplicate raw parsed location => exact ⟨location, rfl⟩
  | dropped raw parsed _ _ again offline absent =>
      obtain ⟨_, rfl⟩ : raw = payloadRaw ∧ parsed = packet := by simpa using again.symm.trans received
      exact absurd absent known
  | queued raw parsed _ again offline absent =>
      obtain ⟨_, rfl⟩ : raw = payloadRaw ∧ parsed = packet := by simpa using again.symm.trans received
      exact absurd absent known
  | forwarded raw parsed _ newLoc again online absent =>
      obtain ⟨_, rfl⟩ : raw = payloadRaw ∧ parsed = packet := by simpa using again.symm.trans received
      exact absurd absent known

def Forgets (k : Slot) (state : RelayState) (event : Event) (output : Output) : Prop :=
  ∃ device now wifi jitter, event = .onResult device now wifi jitter ∧ Displaced k state.cache now output

theorem step_remembers (k : Slot) (hmac : HmacSig) (deadline : Millis) (state : RelayState) (event : Event)
    (held : Remembers hmac deadline (read state.cache k)) :
    Remembers hmac deadline (read (step state event).1.cache k) ∨ Forgets k state event (step state event).2 := by
  cases event with
  | onResult device now wifi jitter =>
      cases callback_keeps_active _ _ _ _ _ _ _ (on_result_effect state device now wifi jitter) k held.active with
      | inl same => exact Or.inl ⟨same.active, same.hmac.trans held.hmac, same.expires.trans held.expires⟩
      | inr displaced => exact Or.inr ⟨device, now, wifi, jitter, rfl, displaced⟩
  | loop now =>
      left
      change Remembers hmac deadline (read (loop state now).1.cache k)
      cases loop_entry _ _ now _ (loop_effect state now) k with
      | inl same =>
          rw [same]
          exact held
      | inr marked =>
          rw [marked]
          exact ⟨held.active, held.hmac, held.expires⟩

theorem accepted_stored (history : List Record) (k : Slot) (entry : CacheEntry) (record : Record) (m : Nat)
    (found : history[m]? = some record) (accepted : Accepted k entry record) :
    ∃ time, record.1.now = time ∧ StoredAt history entry.hmac time m ∧ entry.expiresAt = time + cacheTtlMs := by
  cases accepted with
  | queued device now jitter payloadRaw packet received hops key relayed expires time =>
      exact ⟨now, rfl, ⟨device, false, jitter, _, payloadRaw, packet, k, found, received, key.symm, rfl⟩, expires⟩
  | forwarded device now jitter payloadRaw packet newLoc received key expires marked =>
      exact ⟨now, rfl, ⟨device, true, jitter, _, payloadRaw, packet, k, found, received, key.symm, rfl⟩, expires⟩

theorem entry_order (events : List Event) (ordered : Nondecreasing events) (a b : Nat) (order : a < b) (first last : Record)
    (foundFirst : (relayLog events)[a]? = some first) (foundLast : (relayLog events)[b]? = some last) :
    first.1.now ≤ last.1.now := by
  obtain ⟨insideA, valueA⟩ := List.getElem?_eq_some_iff.mp (log_position step .start events a first foundFirst)
  obtain ⟨insideB, valueB⟩ := List.getElem?_eq_some_iff.mp (log_position step .start events b last foundLast)
  rw [← valueA, ← valueB]
  exact List.pairwise_iff_getElem.mp ordered a b insideA insideB order

theorem live_stored (events : List Event) (k : Slot) (active : (read (relayState events).cache k).active = true) :
    ∃ m record time, (relayLog events)[m]? = some record ∧ record.1.now = time ∧
      StoredAt (relayLog events) (read (relayState events).cache k).hmac time m ∧
      (read (relayState events).cache k).expiresAt = time + cacheTtlMs := by
  obtain ⟨m, record, found, _, accepted⟩ := reachable_sourced events k active
  obtain ⟨time, now, stored, expires⟩ := accepted_stored _ k _ record m found accepted
  exact ⟨m, record, time, found, now, stored, expires⟩

theorem eviction_signatures (cache : TimeAwareCache) (k : Slot) (now : Millis) (fresh : HmacSig)
    (live : ∀ i, Live now (read cache i)) (keys : DistinctKeys cache) (absent : NoMatch now fresh cache) :
    let others := insert fresh ((Finset.univ.erase k).image fun i => (read cache i).hmac)
    256 ≤ others.card ∧ (read cache k).hmac ∉ others := by
  intro others
  have distinct : ∀ i j, (read cache i).hmac = (read cache j).hmac → i = j :=
    fun i j => keys i j (live i).1 (live j).1
  have outside : fresh ∉ (Finset.univ.erase k).image fun i => (read cache i).hmac := by
    intro member
    obtain ⟨i, _, same⟩ := Finset.mem_image.mp member
    exact absent i ⟨live i, same⟩
  refine ⟨?_, fun member => ?_⟩
  · rw [Finset.card_insert_of_notMem outside, Finset.card_image_of_injective _ fun i j => distinct i j,
      Finset.card_erase_of_mem (Finset.mem_univ k), Finset.card_univ, Fintype.card_fin]
    decide
  · cases Finset.mem_insert.mp member with
    | inl same => exact absent k ⟨live k, same⟩
    | inr image =>
        obtain ⟨i, other, same⟩ := Finset.mem_image.mp image
        exact Finset.ne_of_mem_erase other (distinct i k same)

theorem eviction_stores (events : List Event) (ordered : Nondecreasing events)
    (fits : ∀ event ∈ events, event.now.toNat + 2000 < 2 ^ 32) (m : Nat) (k : Slot) (hmac : HmacSig) (start now jitter : Millis)
    (held : Remembers hmac (start + cacheTtlMs) (read (relayState (events.take m)).cache k))
    (room : start.toNat + 2000 < 2 ^ 32) (device : Advertisement) (wifi : Bool) (output : Output)
    (found : (relayLog events)[m]? = some (.onResult device now wifi jitter, output)) (refilled : storedSlot output = some k)
    (oldest : OldestOfFull now (relayState (events.take m)).cache k) (order : start ≤ now) :
    ∃ others : Finset HmacSig, 256 ≤ others.card ∧ hmac ∉ others ∧ ∀ other ∈ others, ∃ n instant, n ≤ m ∧
      StoredAt (relayLog events) other instant n ∧ start ≤ instant ∧ instant ≤ now := by
  have value : output = (onResult (relayState (events.take m)) device now wifi jitter).2 :=
    (log_at step .start events m _ found).1
  have effect := on_result_effect (relayState (events.take m)) device now wifi jitter
  obtain ⟨payloadRaw, packet, received, absent, _⟩ := callback_store _ _ _ _ _ _ _ effect k (value ▸ refilled)
  obtain ⟨many, notHere⟩ := eviction_signatures (relayState (events.take m)).cache k now packet.hmacSig oldest.1
    (reachable_invariant (events.take m)).keys absent
  rw [held.hmac] at notHere
  refine ⟨_, many, notHere, fun other member => ?_⟩
  cases Finset.mem_insert.mp member with
  | inl same =>
      exact ⟨m, now, le_rfl, ⟨device, wifi, jitter, output, payloadRaw, packet, k, found, received, same.symm, refilled⟩,
        order, BitVec.le_refl now⟩
  | inr image =>
      obtain ⟨slot, _, rfl⟩ := Finset.mem_image.mp image
      obtain ⟨n, record, instant, foundThere, nowThere, stored, expires⟩ := live_stored (events.take m) slot (oldest.1 slot).1
      rw [relayLog, log_take] at foundThere stored
      obtain ⟨before, stored⟩ := stored_at_take _ _ _ _ _ stored
      rw [List.getElem?_take_of_lt before] at foundThere
      have earlier := entry_order events ordered n m before record _ foundThere found
      have bound := fits record.1 (List.mem_of_getElem? (log_position step .start events n record foundThere))
      rw [nowThere] at earlier bound
      have younger := oldest.2 slot
      rw [held.expires, expires, cacheTtlMs] at younger
      exact ⟨n, instant, before.le, stored, by bv_omega, earlier⟩

theorem stored_remembers (events : List Event) (i : Nat) (hmac : HmacSig) (start : Millis)
    (stored : StoredAt (relayLog events) hmac start i) (room : start.toNat + 2000 < 2 ^ 32) :
    ∃ k, Remembers hmac (start + cacheTtlMs) (read (relayState (events.take (i + 1))).cache k) := by
  obtain ⟨first, firstWifi, firstJitter, firstOutput, firstRaw, firstPacket, k, foundFirst, receivedFirst, key, slot⟩ := stored
  obtain ⟨answer, next⟩ := log_at step .start events i _ foundFirst
  have value : firstOutput = (onResult (relayState (events.take i)) first start firstWifi firstJitter).2 := answer
  have effect := on_result_effect (relayState (events.take i)) first start firstWifi firstJitter
  obtain ⟨raw, parsed, parsedAs, _, remembers⟩ := callback_store _ _ _ _ _ _ _ effect k (value ▸ slot)
  obtain ⟨_, rfl⟩ : raw = firstRaw ∧ parsed = firstPacket := by simpa using parsedAs.symm.trans receivedFirst
  refine ⟨k, ?_⟩
  rw [relayState, next, ← key]
  exact remembers room

-- A signature stored at start is answered up to start + 2000 or up to the
-- callback that displaces its entry.
theorem answered_or_displaced (events : List Event) (i j : Nat) (hmac : HmacSig) (start time jitter : Millis)
    (stored : StoredAt (relayLog events) hmac start i) (room : start.toNat + 2000 < 2 ^ 32) (later : i < j)
    (device : Advertisement) (wifi : Bool) (output : Output) (payloadRaw : Bytes) (packet : EmergencyPacket)
    (found : (relayLog events)[j]? = some (.onResult device time wifi jitter, output))
    (received : receivedPacket device = some (payloadRaw, packet)) (same : packet.hmacSig = hmac)
    (within : time.toNat < start.toNat + 2000) :
    (∃ location, output = .duplicate location) ∨
      ∃ m k other now itsWifi itsJitter displacing, i < m ∧ m < j ∧
        (relayLog events)[m]? = some (.onResult other now itsWifi itsJitter, displacing) ∧
        Remembers hmac (start + cacheTtlMs) (read (relayState (events.take m)).cache k) ∧
        Displaced k (relayState (events.take m)).cache now displacing := by
  obtain ⟨k, remembered⟩ := stored_remembers events i hmac start stored room
  have inside : j < (relayLog events).length := (List.getElem?_eq_some_iff.mp found).1
  rw [relayLog, log_length] at inside
  have begins : Remembers hmac (start + cacheTtlMs) (read (final step .start ((events.take j).take (i + 1))).cache k) := by
    rw [List.take_take, Nat.min_eq_left later]
    exact remembered
  cases holds_unless step .start (fun state => Remembers hmac (start + cacheTtlMs) (read state.cache k)) (Forgets k)
      (step_remembers k hmac (start + cacheTtlMs)) (events.take j) (i + 1) (by rw [List.length_take]; omega) begins with
  | inl held =>
      left
      have value := (log_at step .start events j _ found).1
      have effect := on_result_effect (relayState (events.take j)) device time wifi jitter
      have live : Live time (read (relayState (events.take j)).cache k) := by
        refine ⟨held.active, ?_⟩
        change time < (read (final step .start (events.take j)).cache k).expiresAt
        rw [held.expires, cacheTtlMs]
        bv_omega
      obtain ⟨location, answer⟩ := callback_duplicate _ _ _ _ _ _ _ effect payloadRaw packet received
        fun absent => absent k ⟨live, held.hmac.trans same.symm⟩
      exact ⟨location, value.trans answer⟩
  | inr forgotten =>
      right
      obtain ⟨m, _, displacing, after, foundThere, held, other, now, itsWifi, itsJitter, rfl, cause⟩ := forgotten
      rw [log_take] at foundThere
      have before : m < j := by
        have bound := (List.getElem?_eq_some_iff.mp foundThere).1
        rw [List.length_take] at bound
        omega
      rw [List.getElem?_take_of_lt before] at foundThere
      rw [List.take_take, Nat.min_eq_left before.le] at held cause
      exact ⟨m, k, other, now, itsWifi, itsJitter, displacing, after, before, foundThere, held, cause⟩

theorem displaced_evicted (events : List Event) (ordered : Nondecreasing events) (m j : Nat) (before : m < j) (k : Slot)
    (hmac : HmacSig) (start now time : Millis) (room : start.toNat + 2000 < 2 ^ 32)
    (held : Remembers hmac (start + cacheTtlMs) (read (relayState (events.take m)).cache k)) (first last : Record)
    (foundFirst : (relayLog events)[m]? = some first) (foundLast : (relayLog events)[j]? = some last)
    (nowFirst : first.1.now = now) (nowLast : last.1.now = time) (within : time.toNat < start.toNat + 2000) (output : Output)
    (cause : Displaced k (relayState (events.take m)).cache now output) :
    storedSlot output = some k ∧ OldestOfFull now (relayState (events.take m)).cache k := by
  have order := entry_order events ordered m j before first last foundFirst foundLast
  rw [nowFirst, nowLast] at order
  cases cause with
  | expired late =>
      rw [held.expires, cacheTtlMs] at late
      exact absurd within (by bv_omega)
  | evicted refilled oldest => exact ⟨refilled, oldest⟩

-- Within 2000 ms of its storage a signature is answered, unless 256 others
-- have been stored since.
theorem duplicate_window (events : List Event) (ordered : Nondecreasing events)
    (fits : ∀ event ∈ events, event.now.toNat + 2000 < 2 ^ 32) (i j : Nat) (hmac : HmacSig) (start time jitter : Millis)
    (stored : StoredAt (relayLog events) hmac start i) (later : i < j) (device : Advertisement) (wifi : Bool)
    (output : Output) (payloadRaw : Bytes) (packet : EmergencyPacket)
    (found : (relayLog events)[j]? = some (.onResult device time wifi jitter, output))
    (received : receivedPacket device = some (payloadRaw, packet)) (same : packet.hmacSig = hmac)
    (within : time.toNat < start.toNat + 2000) :
    (∃ location, output = .duplicate location) ∨
      ∃ others : Finset HmacSig, 256 ≤ others.card ∧ hmac ∉ others ∧ ∀ other ∈ others, ∃ m instant, m < j ∧
        StoredAt (relayLog events) other instant m ∧ start ≤ instant ∧ instant ≤ time := by
  have room : start.toNat + 2000 < 2 ^ 32 := by
    obtain ⟨_, _, _, _, _, _, _, foundFirst, _⟩ := stored
    exact fits _ (List.mem_of_getElem? (log_position step .start events i _ foundFirst))
  cases answered_or_displaced events i j hmac start time jitter stored room later device wifi output payloadRaw packet found
      received same within with
  | inl answered => exact Or.inl answered
  | inr displaced =>
      right
      obtain ⟨m, k, other, now, itsWifi, itsJitter, displacing, after, before, foundThere, held, cause⟩ := displaced
      obtain ⟨refilled, oldest⟩ := displaced_evicted events ordered m j before k hmac start now time room held _ _ foundThere
        found rfl rfl within displacing cause
      have order : now ≤ time := entry_order events ordered m j before _ _ foundThere found
      have since : start ≤ now := by
        obtain ⟨_, _, _, _, _, _, _, foundFirst, _⟩ := stored
        exact entry_order events ordered i m after _ _ foundFirst foundThere
      obtain ⟨others, many, notHere, stores⟩ := eviction_stores events ordered fits m k hmac start now itsJitter held room
        other itsWifi displacing foundThere refilled oldest since
      refine ⟨others, many, notHere, fun fresh member => ?_⟩
      obtain ⟨n, instant, early, storedThere, lower, upper⟩ := stores fresh member
      exact ⟨n, instant, by omega, storedThere, lower, BitVec.le_trans upper order⟩

def repeatedFrame : List Event :=
  [.onResult ⟨some (sampleFrame 20 1), 1⟩ 0 false 50, .onResult ⟨some (sampleFrame 20 1), 2⟩ 1999 false 50]

theorem repeated_frame_window :
    (∃ location, Output.duplicate 0 = .duplicate location) ∨
      ∃ others : Finset HmacSig, 256 ≤ others.card ∧ 1 ∉ others ∧ ∀ other ∈ others, ∃ m instant, m < 1 ∧
        StoredAt (relayLog repeatedFrame) other instant m ∧ 0 ≤ instant ∧ instant ≤ 1999 :=
  duplicate_window repeatedFrame (by decide) (by decide) 0 1 1 0 1999 50
    ⟨⟨some (sampleFrame 20 1), 1⟩, false, 50, .queued 0 50, sampleFrame 20 1, _, 0, by decide +kernel, rfl, by decide, rfl⟩
    (by decide) ⟨some (sampleFrame 20 1), 2⟩ false (.duplicate 0) (sampleFrame 20 1) _ (by decide +kernel) rfl (by decide)
    (by decide)

end BeaconMesh.Arduino
