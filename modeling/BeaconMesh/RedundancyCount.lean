import BeaconMesh.Suppression
import Mathlib.Data.Finset.Option
import Mathlib.Data.Fintype.Fin

set_option autoImplicit false

namespace BeaconMesh.Arduino

open Sweep History

def heardFrom (hmac : HmacSig) : Event → Option Mac
  | .loop _ => none
  | .onResult device _ _ _ =>
      match receivedPacket device with
      | none => none
      | some (_, packet) => if packet.hmacSig = hmac then some device.address else none

def senders (hmac : HmacSig) (events : List Event) : Finset Mac := (events.filterMap (heardFrom hmac)).toFinset

theorem senders_snoc (hmac : HmacSig) (events : List Event) (event : Event) :
    senders hmac (events ++ [event]) = senders hmac events ∪ (heardFrom hmac event).toFinset := by
  cases heard : heardFrom hmac event with
  | none => simp [senders, heard]
  | some mac => simp [senders, heard]

theorem senders_single (hmac : HmacSig) (event : Event) (mac : Mac) (heard : heardFrom hmac event = some mac) :
    senders hmac [event] = {mac} := by
  simp [senders, heard]

theorem heard_received (hmac : HmacSig) (device : Advertisement) (now : Millis) (wifi : Bool) (jitter : Millis)
    (payloadRaw : Bytes) (packet : EmergencyPacket) (received : receivedPacket device = some (payloadRaw, packet)) :
    heardFrom hmac (.onResult device now wifi jitter) = if packet.hmacSig = hmac then some device.address else none := by
  simp only [heardFrom, received]

-- An entry counts the senders it was heard from: it has recorded some of
-- them, and all of them as long as it has room.
structure Counts (entry : CacheEntry) (heard : Finset Mac) : Prop where
  recorded : recordedMacs entry ⊆ heard
  complete : entry.rxCount.toNat < maxTrackedMacs → recordedMacs entry = heard

theorem mem_recorded (entry : CacheEntry) (mac : Mac) : mac ∈ recordedMacs entry ↔ macKnown entry mac = true := by
  rw [mac_known_iff]
  simp [recordedMacs]

theorem recorded_card (entry : CacheEntry) (good : GoodEntry entry) (active : entry.active = true) :
    (recordedMacs entry).card = entry.rxCount.toNat := by
  have room : entry.rxCount.toNat ≤ maxTrackedMacs := (good.counted active).2
  rw [recordedMacs, Finset.card_image_of_injOn, Fin.card_filter_val_lt, Nat.min_eq_right room]
  intro a insideA b insideB same
  simp only [Finset.coe_filter, Finset.mem_univ, true_and, Set.mem_ofPred_eq] at insideA insideB
  exact good.distinctMacs active a b insideA insideB same

theorem counts_redundancy (entry : CacheEntry) (heard : Finset Mac) (good : GoodEntry entry)
    (active : entry.active = true) (counts : Counts entry heard) :
    ¬ entry.rxCount < redundancy ↔ 4 ≤ heard.card := by
  have card := recorded_card entry good active
  have room : entry.rxCount.toNat ≤ 4 := (good.counted active).2
  have below : entry.rxCount < redundancy ↔ entry.rxCount.toNat < 4 := UInt8.lt_iff_toNat_lt
  rw [below, Nat.not_lt]
  constructor
  · intro full
    have bound := Finset.card_le_card counts.recorded
    omega
  · intro enough
    by_contra short
    have all := counts.complete (Nat.not_le.mp short)
    rw [← all] at enough
    omega

theorem recorded_fresh (entry : CacheEntry) (mac : Mac) (single : entry.rxCount = 1)
    (first : read entry.seenMacs 0 = mac) : recordedMacs entry = {mac} := by
  ext other
  rw [mem_recorded, mac_known_iff, Finset.mem_singleton, single]
  constructor
  · rintro ⟨j, inside, rfl⟩
    obtain rfl : j = 0 := Fin.ext (by simpa using inside)
    exact first
  · rintro rfl
    exact ⟨0, by decide, first⟩

theorem counts_fresh (entry : CacheEntry) (mac : Mac) (single : entry.rxCount = 1)
    (first : read entry.seenMacs 0 = mac) : Counts entry {mac} := by
  have same := recorded_fresh entry mac single first
  exact ⟨same.subset, fun _ => same⟩

theorem recorded_record (entry : CacheEntry) (mac : Mac) (unknown : macKnown entry mac = false)
    (room : entry.rxCount.toNat < maxTrackedMacs) : recordedMacs (recordMac entry mac) = insert mac (recordedMacs entry) := by
  have count := count_succ entry.rxCount room
  have value : recordMac entry mac =
      { entry with
        seenMacs := write entry.seenMacs ⟨entry.rxCount.toNat, room⟩ mac
        rxCount := entry.rxCount + 1 } := by
    rw [recordMac, if_neg (by simp [unknown]), dif_pos room]
  ext other
  rw [value, Finset.mem_insert, mem_recorded, mem_recorded, mac_known_iff, mac_known_iff]
  dsimp only
  rw [count]
  constructor
  · rintro ⟨j, inside, found⟩
    rw [read_write] at found
    by_cases last : j = ⟨entry.rxCount.toNat, room⟩
    · rw [if_pos last] at found
      exact Or.inl found.symm
    · rw [if_neg last] at found
      have earlier : j.val ≠ entry.rxCount.toNat := fun same => last (Fin.ext same)
      exact Or.inr ⟨j, by omega, found⟩
  · rintro (rfl | ⟨j, inside, found⟩)
    · exact ⟨⟨entry.rxCount.toNat, room⟩, Nat.lt_succ_self _, read_write_self _ _ _⟩
    · refine ⟨j, by omega, ?_⟩
      rw [read_write_ne _ _ _ _ (fun same => absurd (congrArg Fin.val same) inside.ne)]
      exact found

theorem counts_record (entry : CacheEntry) (mac : Mac) (heard : Finset Mac) (counts : Counts entry heard) :
    Counts (recordMac entry mac) (heard ∪ {mac}) := by
  cases known : macKnown entry mac with
  | true =>
      have same : heard ∪ {mac} = heard :=
        Finset.union_eq_left.mpr (Finset.singleton_subset_iff.mpr (counts.recorded ((mem_recorded entry mac).mpr known)))
      rw [recordMac, if_pos known, same]
      exact counts
  | false =>
      by_cases room : entry.rxCount.toNat < maxTrackedMacs
      · have all : recordedMacs (recordMac entry mac) = heard ∪ {mac} := by
          rw [recorded_record entry mac known room, counts.complete room, Finset.insert_eq, Finset.union_comm]
        exact ⟨all.subset, fun _ => all⟩
      · rw [recordMac, if_neg (by simp [known]), dif_neg room]
        exact ⟨counts.recorded.trans Finset.subset_union_left, fun less => absurd less room⟩

theorem counts_purge (now : Millis) (entry : CacheEntry) (heard : Finset Mac) (counts : Counts entry heard)
    (active : (purge now entry).active = true) : Counts (purge now entry) heard := by
  rw [purge_live now entry ((purge_active now entry).mp active)]
  exact counts

theorem callback_counts (before after : RelayState) (device : Advertisement) (now : Millis) (wifi : Bool)
    (jitter : Millis) (output : Output) (effect : CallbackEffect before device now wifi jitter after output)
    (keys : DistinctKeys before.cache) (k : Slot) (elsewhere : storedSlot output ≠ some k)
    (active : (read after.cache k).active = true) (heard : Finset Mac) (counts : Counts (read before.cache k) heard) :
    Counts (read after.cache k)
      (heard ∪ (heardFrom (read before.cache k).hmac (.onResult device now wifi jitter)).toFinset) := by
  -- A missed lookup proves that the packet is not the one k holds.
  have missed : ∀ payloadRaw packet, receivedPacket device = some (payloadRaw, packet) → NoMatch now packet.hmacSig before.cache →
      read after.cache k = purge now (read before.cache k) → Counts (read after.cache k)
        (heard ∪ (heardFrom (read before.cache k).hmac (.onResult device now wifi jitter)).toFinset) := by
    intro payloadRaw packet received absent purged
    rw [purged] at active ⊢
    have other : packet.hmacSig ≠ (read before.cache k).hmac :=
      fun same => absent k ⟨(purge_active now _).mp active, same.symm⟩
    rw [heard_received _ _ _ _ _ _ _ received, if_neg other, Option.toFinset_none, Finset.union_empty]
    exact counts_purge now _ heard counts active
  cases effect with
  | ignored filtered =>
      simp only [heardFrom, filtered, Option.toFinset_none, Finset.union_empty]
      exact counts
  | duplicate payloadRaw packet location _ received live key recorded others burst =>
      rw [heard_received _ _ _ _ _ _ _ received]
      by_cases hit : k = location
      · rw [hit] at counts ⊢
        rw [if_pos key.symm, recorded, Option.toFinset_some]
        exact counts_record _ _ _ counts
      · have kept : read after.cache k = read before.cache k ∧ (read before.cache k).active = true := by
          cases others k hit with
          | inl same =>
              rw [same] at active
              exact ⟨same, active⟩
          | inr purged =>
              rw [purged] at active ⊢
              have alive := (purge_active now _).mp active
              exact ⟨purge_live now _ alive, alive.1⟩
        have other : packet.hmacSig ≠ (read before.cache k).hmac :=
          fun same => hit (keys k location kept.2 live.1 (same.symm.trans key.symm))
        rw [if_neg other, kept.1, Option.toFinset_none, Finset.union_empty]
        exact counts
  | dropped payloadRaw packet _ _ received offline absent spent purged burst silent =>
      exact missed payloadRaw packet received absent (by rw [purged, read_map])
  | queued payloadRaw packet _ received offline absent hops stored burst =>
      have other : k ≠ targetSlot before.cache now := fun same => elsewhere (by rw [same]; rfl)
      exact missed payloadRaw packet received absent (by rw [stored, add_entry_other _ _ _ _ _ _ _ other])
  | forwarded payloadRaw packet _ newLoc received online absent stored lookedUp burst =>
      have other : k ≠ targetSlot before.cache now := fun same => elsewhere (by rw [same]; rfl)
      exact missed payloadRaw packet received absent
        (by rw [stored, read_write_ne _ _ _ _ other, add_entry_other _ _ _ _ _ _ _ other])

theorem callback_counts_first (before after : RelayState) (device : Advertisement) (now : Millis) (wifi : Bool)
    (jitter : Millis) (output : Output) (effect : CallbackEffect before device now wifi jitter after output) (k : Slot)
    (here : storedSlot output = some k) (active : (read after.cache k).active = true) :
    heardFrom (read after.cache k).hmac (.onResult device now wifi jitter) = some device.address ∧
      Counts (read after.cache k) {device.address} := by
  cases effect with
  | ignored => simp [storedSlot] at here
  | duplicate => simp [storedSlot] at here
  | dropped payloadRaw packet _ _ received offline absent spent purged burst silent =>
      rcases silent with rfl | rfl <;> simp [storedSlot] at here
  | queued payloadRaw packet _ received offline absent hops stored burst =>
      obtain rfl : targetSlot before.cache now = k := by simpa [storedSlot] using here
      rw [stored, add_entry_target]
      refine ⟨?_, counts_fresh _ _ rfl (read_write_self _ _ _)⟩
      rw [heard_received _ _ _ _ _ _ _ received]
      exact if_pos rfl
  | forwarded payloadRaw packet _ newLoc received online absent stored lookedUp burst =>
      obtain rfl : targetSlot before.cache now = k := by simpa [storedSlot] using here
      rw [stored, read_write_self] at active ⊢
      by_cases lasting : now < now + cacheTtlMs
      · rw [gatewayEntry, if_pos lasting]
        refine ⟨?_, counts_fresh _ _ rfl (read_write_self _ _ _)⟩
        rw [heard_received _ _ _ _ _ _ _ received]
        exact if_pos rfl
      · rw [gatewayEntry, if_neg lasting] at active
        exact absurd active Bool.false_ne_true

-- Every active entry counts the senders heard since it was stored.
def Counted (history : List Record) (state : RelayState) : Prop :=
  ∀ k, (read state.cache k).active = true → ∃ i, Latest (Stores k) history i ∧
    Counts (read state.cache k) (senders (read state.cache k).hmac ((history.map Prod.fst).drop i))

theorem counted_step (history : List Record) (state : RelayState) (event : Event) (inv : CacheInvariant state)
    (counted : Counted history state) :
    Counted (history ++ [(event, (step state event).2)]) (step state event).1 := by
  intro k active
  rw [List.map_append, List.map_singleton]
  by_cases here : Stores k (event, (step state event).2)
  · refine ⟨history.length, latest_snoc_hit _ _ _ here, ?_⟩
    have length : (history.map Prod.fst).length = history.length := List.length_map Prod.fst
    rw [← length, List.drop_left]
    cases event with
    | loop now => exact absurd (here.symm.trans (loop_stores_nothing _ _ now _ (loop_effect state now))) (Option.some_ne_none k)
    | onResult device now wifi jitter =>
        obtain ⟨heard, counts⟩ := callback_counts_first _ _ _ _ _ _ _ (on_result_effect state device now wifi jitter) k here active
        exact (senders_single _ _ _ heard).symm ▸ counts
  · have kept := step_keeps state event k here
    obtain ⟨i, latest, counts⟩ := counted k (kept.active active)
    refine ⟨i, latest_snoc_skip _ _ _ _ here latest, ?_⟩
    have bound : i ≤ (history.map Prod.fst).length := by
      rw [List.length_map]
      exact (at_bound _ _ _ latest.1).le
    rw [List.drop_append_of_le_length bound, senders_snoc, kept.hmac]
    cases event with
    | loop now =>
        rw [heardFrom, Option.toFinset_none, Finset.union_empty]
        cases loop_entry _ _ now _ (loop_effect state now) k with
        | inl same => exact same.symm ▸ counts
        | inr marked => exact marked.symm ▸ ⟨counts.recorded, counts.complete⟩
    | onResult device now wifi jitter =>
        exact callback_counts _ _ _ _ _ _ _ (on_result_effect state device now wifi jitter) inv.keys k here active _ counts

theorem reachable_counted (events : List Event) : Counted (relayLog events) (relayState events) := by
  have base : CacheInvariant RelayState.start ∧ Counted [] .start := by
    refine ⟨start_invariant, fun k active => ?_⟩
    have cell : read RelayState.start.cache k = CacheEntry.zero := read_blank k _
    rw [cell] at active
    exact absurd active Bool.false_ne_true
  exact (History.invariant step .start (fun history state => CacheInvariant state ∧ Counted history state) base
    (fun history state event both => ⟨step_invariant state event both.1, counted_step history state event both.1 both.2⟩)
    events).2

theorem latest_unique (holds : Record → Prop) (history : List Record) (i j : Nat) (first : Latest holds history i)
    (second : Latest holds history j) : i = j := by
  rcases Nat.lt_trichotomy i j with less | same | greater
  · exact absurd second.1 (first.2 j less)
  · exact same
  · exact absurd first.1 (second.2 i greater)

theorem scan_row (before after : RelayState) (now : Millis) (output : Output)
    (effect : LoopEffect before now after output) (cancelled : List Slot) (burst : Option (Slot × Bytes))
    (scanned : output = .scanned cancelled burst) (k : Slot) (due : Due now (read before.cache k))
    (reached : ∀ row frame, burst = some (row, frame) → k ≤ row) :
    (k ∈ cancelled ↔ ¬ (read before.cache k).rxCount < redundancy) ∧
      (burst = some (k, rebroadcastData (read before.cache k).packet) ↔ (read before.cache k).rxCount < redundancy) ∧
      (k ∈ cancelled → read after.cache k = markBroadcasted (read before.cache k)) := by
  cases effect with
  | transmitting => simp at scanned
  | ended => simp at scanned
  | started row rows _ idle dueThere unheard earlier members cells broadcasting endTime index =>
      simp only [Output.scanned.injEq] at scanned
      obtain ⟨rfl, rfl⟩ := scanned
      refine ⟨?_, ?_, fun member => by rw [cells k, if_pos member]⟩
      · rw [members k]
        constructor
        · exact fun member => member.1.2
        · intro heard
          refine ⟨⟨due, heard⟩, lt_of_le_of_ne (reached row _ rfl) ?_⟩
          rintro rfl
          exact heard unheard
      · constructor
        · intro same
          rw [Option.some.injEq, Prod.mk.injEq] at same
          exact same.1 ▸ unheard
        · intro fewer
          have same : k = row := by
            by_contra other
            exact earlier k (lt_of_le_of_ne (reached row _ rfl) other) due fewer
          rw [same]
  | quiet rows _ idle covered members cells unchanged =>
      simp only [Output.scanned.injEq] at scanned
      obtain ⟨rfl, rfl⟩ := scanned
      have heard := covered k due
      refine ⟨?_, ?_, fun member => by rw [cells k, if_pos member]⟩
      · rw [members k]
        exact iff_of_true ⟨due, heard⟩ heard
      · exact iff_of_false (Option.some_ne_none _).symm heard

-- A queued packet that the scan reaches is cancelled exactly when four
-- distinct senders were heard since it was stored, and sent otherwise.
theorem redundancy_suppression (events : List Event) (i j : Nat) (device : Advertisement) (stored jitter now : Millis)
    (k : Slot) (payloadRaw : Bytes) (packet : EmergencyPacket) (cancelled : List Slot) (burst : Option (Slot × Bytes))
    (received : receivedPacket device = some (payloadRaw, packet))
    (queued : (relayLog events)[i]? = some (.onResult device stored false jitter, .queued k jitter))
    (scan : (relayLog events)[j]? = some (.loop now, .scanned cancelled burst)) (later : i < j)
    (held : ∀ m, i < m → m < j → ¬ At (Stores k) (relayLog events) m)
    (due : Due now (read (relayState (events.take j)).cache k))
    (reached : ∀ row frame, burst = some (row, frame) → k ≤ row) :
    let heard := senders packet.hmacSig ((events.take j).drop i)
    (k ∈ cancelled ↔ 4 ≤ heard.card) ∧
      (burst = some (k, rebroadcastData (relayedPacket packet)) ↔ heard.card < 4) ∧
      (k ∈ cancelled → (read (relayState (events.take (j + 1))).cache k).broadcasted = true) := by
  intro heard
  have active := due.1.1
  have latest : Latest (Stores k) (relayLog (events.take j)) i := by
    rw [relayLog, log_take]
    refine ⟨(at_take _ _ _ _).mpr ⟨later, _, queued, rfl⟩, fun m after present => ?_⟩
    obtain ⟨before, stores⟩ := (at_take _ _ _ _).mp present
    exact held m after before stores
  have entry : (read (relayState (events.take j)).cache k).hmac = packet.hmacSig ∧
      (read (relayState (events.take j)).cache k).packet = relayedPacket packet := by
    obtain ⟨source, record, found, last, accepted⟩ := reachable_sourced (events.take j) k active
    obtain rfl : source = i := latest_unique _ _ _ _ last latest
    rw [relayLog, log_take, List.getElem?_take_of_lt later] at found
    obtain rfl := Option.some.inj (found.symm.trans queued)
    cases accepted with
    | queued _ _ _ raw parsed again hops key relayed expires time =>
        obtain ⟨_, rfl⟩ : raw = payloadRaw ∧ parsed = packet := by simpa using again.symm.trans received
        exact ⟨key, relayed⟩
  obtain ⟨source, last, counts⟩ := reachable_counted (events.take j) k active
  obtain rfl : source = i := latest_unique _ _ _ _ last latest
  rw [entry.1, relayLog, log_events] at counts
  have saturated : ¬ (read (relayState (events.take j)).cache k).rxCount < redundancy ↔ 4 ≤ heard.card :=
    counts_redundancy _ heard ((reachable_invariant (events.take j)).entries k) active counts
  obtain ⟨answer, next⟩ := log_at step .start events j _ scan
  have effect := loop_effect (relayState (events.take j)) now
  obtain ⟨cancels, bursts, marks⟩ := scan_row _ _ now _ effect cancelled burst answer.symm k due reached
  rw [entry.2] at bursts
  refine ⟨cancels.trans saturated, bursts.trans ?_, fun member => ?_⟩
  · rw [← not_le, ← saturated, not_not]
  · have cell := marks member
    rw [relayState, next]
    change (read (loop (relayState (events.take j)) now).1.cache k).broadcasted = true
    rw [cell]
    rfl

def crowdedRun : List Event :=
  [.onResult ⟨some (sampleFrame 20 1), 1⟩ 0 false 50, .onResult ⟨some (sampleFrame 20 1), 2⟩ 1 false 50,
    .onResult ⟨some (sampleFrame 20 2), 1⟩ 2 false 60, .onResult ⟨some (sampleFrame 20 1), 2⟩ 3 false 50,
    .onResult ⟨some (sampleFrame 20 1), 3⟩ 4 false 50, .onResult ⟨some (sampleFrame 20 1), 4⟩ 5 false 50, .loop 55]

theorem crowded_run_suppression :
    let heard := senders 1 ((crowdedRun.take 6).drop 0)
    (0 ∈ [(0 : Slot)] ↔ 4 ≤ heard.card) ∧
      (none = some ((0 : Slot), rebroadcastData (relayedPacket (.ofBytes ((sampleFrame 20 1).drop 2)))) ↔ heard.card < 4) ∧
      (0 ∈ [(0 : Slot)] → (read (relayState (crowdedRun.take 7)).cache 0).broadcasted = true) :=
  redundancy_suppression crowdedRun 0 6 ⟨some (sampleFrame 20 1), 1⟩ 0 50 55 0 (sampleFrame 20 1) _ [0] none rfl
    (by decide +kernel) (by decide +kernel) (by decide)
    (by
      have refilled : ∀ m : Fin 6, 0 < m.val →
          ((relayLog crowdedRun)[m.val]?.bind fun record => storedSlot record.2) ≠ some 0 := by decide +kernel
      intro m after before stores
      obtain ⟨record, found, slot⟩ := stores
      have none := refilled ⟨m, before⟩ after
      rw [found] at none
      exact none slot)
    (by decide +kernel) (by simp)

end BeaconMesh.Arduino
