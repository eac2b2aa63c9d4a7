import BeaconMesh.SimulatorNode
import BeaconMesh.Suppression

set_option autoImplicit false

namespace BeaconMesh.Mirror

open History Sweep Arduino Simulator

-- One full packet as both relays receive it.
structure Arrival where
  packet : EmergencyPacket
  now : Millis
  address : Mac
  jitter : Millis

def Arrival.event (arrival : Arrival) : Event :=
  .onResult ⟨some (rebroadcastData arrival.packet), arrival.address⟩ arrival.now false arrival.jitter

-- The packet a callback queued is the one it left in the slot it reports.
def queuedPacket (after : RelayState) : Output → Option EmergencyPacket
  | .queued slot _ => some (read after.cache slot).packet
  | _ => none

def nodeStep (state : NodeState) (arrival : Arrival) : NodeState × Option EmergencyPacket :=
  let result := nodeTurn state arrival.packet.toBytes
  (result.1, forwardedPacket result.2)

def espStep (state : RelayState) (arrival : Arrival) : RelayState × Option EmergencyPacket :=
  let result := Arduino.step state arrival.event
  (result.1, queuedPacket result.1 result.2)

def nodeForwards (arrivals : List Arrival) : List EmergencyPacket := (log nodeStep .zero arrivals).filterMap Prod.snd

def espForwards (arrivals : List Arrival) : List EmergencyPacket := (log espStep .start arrivals).filterMap Prod.snd

def ttl (arrival : Arrival) : Nat := (ttlOf arrival.packet.flags).toNat

def sig (arrival : Arrival) : HmacSig := arrival.packet.hmacSig

def events (arrivals : List Arrival) : List Event := arrivals.map Arrival.event

-- An earlier copy of this signature, received at i.
structure CopyAt (arrivals : List Arrival) (j : Nat) (hmac : HmacSig) (i : Nat) (copy : Arrival) : Prop where
  before : i < j
  found : arrivals[i]? = some copy
  same : sig copy = hmac

-- A copy that the ESP relay had to remember: it had a hop left and its
-- deadline did not wrap.
structure Stored (arrivals : List Arrival) (j : Nat) (hmac : HmacSig) (i : Nat) (copy : Arrival) : Prop
    extends CopyAt arrivals j hmac i copy where
  hops : 2 ≤ ttl copy
  fits : copy.now.toNat + 2000 < 2 ^ 32

structure Window (arrivals : List Arrival) : Prop where
  real : ∀ arrival ∈ arrivals, sig arrival ≠ 0
  few : (arrivals.map sig).toFinset.card < 256
  ordered : Nondecreasing (events arrivals)
  short : ∀ first ∈ arrivals, ∀ last ∈ arrivals, last.now.toNat < first.now.toNat + 2000

theorem received_full (packet : EmergencyPacket) (address : Mac) :
    receivedPacket ⟨some (rebroadcastData packet), address⟩ = some (rebroadcastData packet, packet) := by
  refine (received_packet_iff _ _ _).mpr ⟨rfl, by simp [rebroadcastData, EmergencyPacket.size, frameSize], List.take_left' (by simp), ?_⟩
  have body : (rebroadcastData packet).drop 2 = packet.toBytes := List.drop_left' (by simp)
  rw [body, EmergencyPacket.of_bytes_to_bytes]

section Node

structure SawAll (cache : CircularBuffer) (inserted : List HmacSig) (past : List Arrival) : Prop where
  filled : Inserted cache inserted
  distinct : inserted.Nodup
  members : ∀ hmac, hmac ∈ inserted ↔ ∃ copy ∈ past, sig copy = hmac

theorem saw_few (inserted : List HmacSig) (past : List Arrival) (distinct : inserted.Nodup)
    (members : ∀ hmac, hmac ∈ inserted ↔ ∃ copy ∈ past, sig copy = hmac) (few : (past.map sig).toFinset.card < 256) :
    inserted.length < 256 := by
  have same : inserted.toFinset = (past.map sig).toFinset := by
    ext hmac
    simp [members]
  rw [← List.toFinset_card_of_nodup distinct, same]
  exact few

theorem node_contains (cache : CircularBuffer) (inserted : List HmacSig) (past : List Arrival) (arrival : Arrival)
    (saw : SawAll cache inserted past) (few : (past.map sig).toFinset.card < 256) (real : sig arrival ≠ 0) :
    containsBuff cache (sig arrival) ≠ none ↔ ∃ copy ∈ past, sig copy = sig arrival := by
  have short := saw_few inserted past saw.distinct saw.members few
  rw [contains_inserted cache inserted _ real saw.filled, Nat.sub_eq_zero_of_le short.le, List.drop_zero, saw.members]

theorem node_saw_step (before after : NodeState) (arrival : Arrival) (output : Turn) (inserted : List HmacSig)
    (past : List Arrival) (effect : NodeEffect before arrival.packet after output) (saw : SawAll before.cache inserted past)
    (few : (past.map sig).toFinset.card < 256) (real : sig arrival ≠ 0) :
    ∃ grown, SawAll after.cache grown (past ++ [arrival]) := by
  have known := node_contains before.cache inserted past arrival saw few real
  have added : containsBuff before.cache (sig arrival) = none →
      SawAll (addToBuff before.cache (sig arrival)).2 (inserted ++ [sig arrival]) (past ++ [arrival]) := by
    intro absent
    have fresh : sig arrival ∉ inserted := fun member => known.mpr ((saw.members _).mp member) absent
    refine ⟨inserted_add _ _ _ saw.filled absent, List.nodup_append.mpr ⟨saw.distinct, List.nodup_singleton _, ?_⟩, fun hmac => ?_⟩
    · intro a inside b last same
      rw [List.mem_singleton.mp last] at same
      exact fresh (same ▸ inside)
    · simp [saw.members, or_and_right, exists_or, eq_comm]
  cases effect with
  | duplicate location present =>
      refine ⟨inserted, saw.filled, saw.distinct, fun hmac => ?_⟩
      have there := known.mp (by rw [sig, present]; exact Option.some_ne_none location)
      rw [saw.members]
      constructor
      · rintro ⟨copy, member, same⟩
        exact ⟨copy, List.mem_append_left _ member, same⟩
      · rintro ⟨copy, member, same⟩
        cases List.mem_append.mp member with
        | inl old => exact ⟨copy, old, same⟩
        | inr last =>
            obtain rfl := List.mem_singleton.mp last
            obtain ⟨earlier, inside, equal⟩ := there
            exact ⟨earlier, inside, equal.trans same⟩
  | dropped _ absent spent silent => exact ⟨_, added absent⟩
  | forwarded absent hops => exact ⟨_, added absent⟩

theorem node_saw (past : List Arrival) (few : (past.map sig).toFinset.card < 256) (real : ∀ arrival ∈ past, sig arrival ≠ 0) :
    ∃ inserted, SawAll (final nodeStep .zero past).cache inserted past := by
  induction past using List.reverseRecOn with
  | nil => exact ⟨[], inserted_zero, List.nodup_nil, by simp⟩
  | append_singleton past arrival ih =>
      have fewer : (past.map sig).toFinset.card < 256 := by
        refine lt_of_le_of_lt (Finset.card_le_card fun hmac member => ?_) few
        simp only [List.mem_toFinset, List.map_append, List.mem_append] at member ⊢
        exact Or.inl member
      obtain ⟨inserted, saw⟩ := ih fewer fun copy member => real copy (List.mem_append_left _ member)
      rw [final_snoc]
      exact node_saw_step _ _ arrival _ inserted past (node_effect _ arrival.packet) saw fewer
        (real arrival (List.mem_append_right _ (List.mem_singleton.mpr rfl)))

theorem forwarded_answer (before after : NodeState) (arrival : Arrival) (output : Turn)
    (effect : NodeEffect before arrival.packet after output) :
    forwardedPacket output =
      if containsBuff before.cache (sig arrival) = none ∧ 2 ≤ ttl arrival then some (hopPacket arrival.packet) else none := by
  cases effect with
  | duplicate location present =>
      rw [if_neg]
      · rfl
      · exact fun both => Option.some_ne_none location (present.symm.trans both.1)
  | dropped _ absent spent silent =>
      rw [if_neg fun both => absurd both.2 (by rw [ttl]; omega)]
      rcases silent with rfl | rfl <;> rfl
  | forwarded absent hops =>
      rw [if_pos ⟨absent, hops⟩]
      rfl

end Node

section Esp

theorem event_at (arrivals : List Arrival) (j : Nat) (arrival : Arrival) (found : arrivals[j]? = some arrival) :
    (events arrivals)[j]? = some arrival.event := by
  rw [events, List.getElem?_map, found]
  rfl

theorem arrival_at (arrivals : List Arrival) (j : Nat) (event : Event) (found : (events arrivals)[j]? = some event) :
    ∃ arrival, arrivals[j]? = some arrival ∧ event = arrival.event := by
  rw [events, List.getElem?_map] at found
  obtain ⟨arrival, there, same⟩ := Option.map_eq_some_iff.mp found
  exact ⟨arrival, there, same.symm⟩

theorem esp_state (past : List Arrival) : final espStep .start past = relayState (events past) := by
  rw [relayState, events, final, final, List.foldl_map]
  rfl

theorem events_take (arrivals : List Arrival) (j : Nat) : (events arrivals).take j = events (arrivals.take j) :=
  (List.map_take).symm

theorem record_at (arrivals : List Arrival) (j : Nat) (arrival : Arrival) (found : arrivals[j]? = some arrival) :
    (relayLog (events arrivals))[j]? =
      some (arrival.event, (Arduino.step (relayState ((events arrivals).take j)) arrival.event).2) := by
  have inside := (List.getElem?_eq_some_iff.mp found).1
  have bound : j < (relayLog (events arrivals)).length := by
    rw [relayLog, log_length, events, List.length_map]
    exact inside
  have present := List.getElem?_eq_getElem bound
  have event := log_position step .start (events arrivals) j _ present
  rw [event_at arrivals j arrival found] at event
  have value := (log_at Arduino.step .start (events arrivals) j _ present).1
  rw [← Option.some.inj event] at value
  rw [present]
  exact congrArg some (Prod.ext (Option.some.inj event).symm value)

theorem offline_hops (before after : RelayState) (device : Advertisement) (now jitter : Millis) (output : Output)
    (effect : CallbackEffect before device now false jitter after output) (k : Slot) (stored : storedSlot output = some k)
    (payloadRaw : Bytes) (packet : EmergencyPacket) (received : receivedPacket device = some (payloadRaw, packet)) :
    2 ≤ (ttlOf packet.flags).toNat := by
  cases effect with
  | ignored => simp [storedSlot] at stored
  | duplicate => simp [storedSlot] at stored
  | dropped raw parsed _ _ again offline absent spent purged burst silent =>
      rcases silent with rfl | rfl <;> simp [storedSlot] at stored
  | queued raw parsed _ again offline absent hops =>
      obtain ⟨_, rfl⟩ : raw = payloadRaw ∧ parsed = packet := by simpa using again.symm.trans received
      exact hops
  | forwarded raw parsed _ newLoc again online => exact absurd online Bool.false_ne_true

theorem stored_arrival (arrivals : List Arrival) (hmac : HmacSig) (time : Millis) (m : Nat)
    (stored : StoredAt (relayLog (events arrivals)) hmac time m) :
    ∃ copy, arrivals[m]? = some copy ∧ sig copy = hmac ∧ copy.now = time ∧ 2 ≤ ttl copy := by
  obtain ⟨device, wifi, jitter, output, payloadRaw, packet, k, found, received, key, slot⟩ := stored
  obtain ⟨copy, there, same⟩ := arrival_at arrivals m _ (log_position step .start _ m _ found)
  rw [record_at arrivals m copy there] at found
  simp only [Arrival.event, Event.onResult.injEq] at same
  obtain ⟨rfl, rfl, rfl, rfl⟩ := same
  rw [received_full] at received
  simp only [Option.some.injEq, Prod.mk.injEq] at received found
  obtain ⟨_, rfl⟩ := received
  rw [← found.2] at slot
  have effect := on_result_effect (relayState ((events arrivals).take m)) ⟨some (rebroadcastData copy.packet), copy.address⟩
    copy.now false copy.jitter
  exact ⟨copy, there, key, rfl, offline_hops _ _ _ _ _ _ effect k slot _ _ (received_full _ _)⟩

-- The live entry behind a duplicate is a copy the relay had to remember.
theorem live_copy (arrivals : List Arrival) (window : Window arrivals) (j : Nat) (arrival : Arrival)
    (found : arrivals[j]? = some arrival) (k : Slot) (live : Live arrival.now (read (relayState ((events arrivals).take j)).cache k)) :
    ∃ m copy, Stored arrivals j (read (relayState ((events arrivals).take j)).cache k).hmac m copy ∧
      StoredAt (relayLog (events arrivals)) (read (relayState ((events arrivals).take j)).cache k).hmac copy.now m := by
  obtain ⟨m, record, time, foundThere, nowThere, stored, expires⟩ := live_stored ((events arrivals).take j) k live.1
  rw [relayLog, log_take] at foundThere stored
  obtain ⟨before, stored⟩ := stored_at_take _ _ _ _ _ stored
  rw [List.getElem?_take_of_lt before] at foundThere
  obtain ⟨copy, there, same, nowCopy, hops⟩ := stored_arrival arrivals _ time m stored
  have order : record.1.now ≤ arrival.now := entry_order (events arrivals) window.ordered m j before record _ foundThere
    (record_at arrivals j arrival found)
  have fresh := live.2
  rw [expires, cacheTtlMs] at fresh
  rw [nowThere] at order
  subst nowCopy
  exact ⟨m, copy, ⟨⟨before, there, same⟩, hops, by bv_omega⟩, stored⟩

theorem never_full (arrivals : List Arrival) (few : (arrivals.map sig).toFinset.card < 256) (m : Nat) (now : Millis) :
    ¬ ∀ i, Live now (read (relayState ((events arrivals).take m)).cache i) := by
  intro live
  let key : Slot → HmacSig := fun i => (read (relayState ((events arrivals).take m)).cache i).hmac
  have distinct : Function.Injective key := fun i j same =>
    (reachable_invariant ((events arrivals).take m)).keys i j (live i).1 (live j).1 same
  have known : Finset.univ.image key ⊆ (arrivals.map sig).toFinset := by
    intro hmac member
    obtain ⟨i, _, rfl⟩ := Finset.mem_image.mp member
    obtain ⟨n, record, time, _, _, stored, _⟩ := live_stored ((events arrivals).take m) i (live i).1
    rw [relayLog, log_take] at stored
    obtain ⟨copy, there, same, _⟩ := stored_arrival arrivals _ time n (stored_at_take _ _ _ _ _ stored).2
    exact List.mem_toFinset.mpr (List.mem_map.mpr ⟨copy, List.mem_of_getElem? there, same⟩)
  have many := Finset.card_le_card known
  rw [Finset.card_image_of_injective _ distinct, Finset.card_univ, Fintype.card_fin] at many
  exact absurd few (not_lt.mpr many)

def device (arrival : Arrival) : Advertisement := ⟨some (rebroadcastData arrival.packet), arrival.address⟩

theorem same_packet (arrival : Arrival) (payloadRaw : Bytes) (packet : EmergencyPacket)
    (received : receivedPacket (device arrival) = some (payloadRaw, packet)) : packet = arrival.packet := by
  have parsed := (received_full arrival.packet arrival.address).symm.trans received
  simp only [Option.some.injEq, Prod.mk.injEq] at parsed
  exact parsed.2.symm

theorem copy_stored (arrivals : List Arrival) (window : Window arrivals) (j : Nat) (hmac : HmacSig) (i : Nat) (copy : Arrival)
    (stored : Stored arrivals j hmac i copy) (after : RelayState) (output : Output)
    (record : (relayLog (events arrivals))[i]? = some (copy.event, output))
    (effect : CallbackEffect (relayState ((events arrivals).take i)) (device copy) copy.now false copy.jitter after output) :
    ∃ m first, Stored arrivals j hmac m first ∧ StoredAt (relayLog (events arrivals)) hmac first.now m := by
  have hops := stored.hops
  cases effect with
  | ignored filtered => exact absurd ((received_full _ _).symm.trans filtered) (Option.some_ne_none _)
  | duplicate raw parsed location _ received live key =>
      obtain ⟨m, first, earlier, there⟩ := live_copy arrivals window i copy stored.found location live
      rw [key, same_packet copy raw parsed received] at earlier there
      rw [← stored.same]
      exact ⟨m, first, ⟨⟨earlier.before.trans stored.before, earlier.found, earlier.same⟩, earlier.hops, earlier.fits⟩, there⟩
  | dropped raw parsed _ _ received offline absent spent =>
      rw [same_packet copy raw parsed received] at spent
      rw [ttl] at hops
      omega
  | queued raw parsed _ received offline absent =>
      exact ⟨i, copy, stored, _, false, copy.jitter, _, _, copy.packet, _, record, received_full _ _, stored.same, rfl⟩
  | forwarded raw parsed _ newLoc received online => exact absurd online Bool.false_ne_true

theorem remembered_answered (arrivals : List Arrival) (window : Window arrivals) (j : Nat) (arrival : Arrival)
    (found : arrivals[j]? = some arrival) (i : Nat) (copy : Arrival) (stored : Stored arrivals j (sig arrival) i copy) :
    ∃ location, (Arduino.step (relayState ((events arrivals).take j)) arrival.event).2 = .duplicate location := by
  obtain ⟨m, first, earlier, there⟩ := copy_stored arrivals window j (sig arrival) i copy stored _ _
    (record_at arrivals i copy stored.found) (on_result_effect _ _ _ _ _)
  have record := record_at arrivals j arrival found
  have within := window.short first (List.mem_of_getElem? earlier.found) arrival (List.mem_of_getElem? found)
  cases answered_or_displaced (events arrivals) m j (sig arrival) first.now arrival.now arrival.jitter there earlier.fits
      earlier.before ⟨some (rebroadcastData arrival.packet), arrival.address⟩ false _ _ arrival.packet record
      (received_full _ _) rfl within with
  | inl answered => exact answered
  | inr displaced =>
      obtain ⟨n, k, other, now, itsWifi, itsJitter, displacing, after, before, foundThere, held, cause⟩ := displaced
      have full := (displaced_evicted (events arrivals) window.ordered n j before k (sig arrival) first.now now arrival.now
        earlier.fits held _ _ foundThere record rfl rfl within displacing cause).2
      exact absurd full.1 (never_full arrivals window.few n now)

theorem queued_answer (arrivals : List Arrival) (j : Nat) (arrival : Arrival) (before after : RelayState) (output : Output)
    (effect : CallbackEffect before (device arrival) arrival.now false arrival.jitter after output)
    (remembered : ∀ i copy, Stored arrivals j (sig arrival) i copy → ∃ location, output = .duplicate location)
    (live : ∀ k, Live arrival.now (read before.cache k) → ∃ m copy, Stored arrivals j (read before.cache k).hmac m copy) :
    ((2 ≤ ttl arrival ∧ ¬ ∃ i copy, Stored arrivals j (sig arrival) i copy) ∧
      queuedPacket after output = some (hopPacket arrival.packet)) ∨
    (¬ (2 ≤ ttl arrival ∧ ¬ ∃ i copy, Stored arrivals j (sig arrival) i copy) ∧ queuedPacket after output = none) := by
  cases effect with
  | ignored filtered => exact absurd ((received_full _ _).symm.trans filtered) (Option.some_ne_none _)
  | duplicate raw parsed location _ received alive key =>
      have earlier := live location alive
      rw [key, same_packet arrival raw parsed received] at earlier
      exact Or.inr ⟨fun both => both.2 earlier, rfl⟩
  | dropped raw parsed _ _ received offline absent spent purged burst silent =>
      rw [same_packet arrival raw parsed received] at spent
      refine Or.inr ⟨fun both => absurd both.1 (by rw [ttl]; omega), ?_⟩
      rcases silent with rfl | rfl <;> rfl
  | queued raw parsed _ received offline absent hops stored =>
      obtain rfl := same_packet arrival raw parsed received
      refine Or.inl ⟨⟨hops, fun ⟨i, copy, earlier⟩ => ?_⟩, ?_⟩
      · obtain ⟨location, answer⟩ := remembered i copy earlier
        simp at answer
      · rw [queuedPacket, stored, add_entry_target]
        rfl
  | forwarded raw parsed _ newLoc received online => exact absurd online Bool.false_ne_true

theorem esp_answer (arrivals : List Arrival) (window : Window arrivals) (j : Nat) (arrival : Arrival)
    (found : arrivals[j]? = some arrival) :
    ((2 ≤ ttl arrival ∧ ¬ ∃ i copy, Stored arrivals j (sig arrival) i copy) ∧
      (espStep (final espStep .start (arrivals.take j)) arrival).2 = some (hopPacket arrival.packet)) ∨
    (¬ (2 ≤ ttl arrival ∧ ¬ ∃ i copy, Stored arrivals j (sig arrival) i copy) ∧
      (espStep (final espStep .start (arrivals.take j)) arrival).2 = none) := by
  rw [esp_state, ← events_take]
  refine queued_answer arrivals j arrival _ _ _ (on_result_effect (relayState ((events arrivals).take j)) _ _ _ _)
    (remembered_answered arrivals window j arrival found) fun k alive => ?_
  obtain ⟨m, copy, stored, _⟩ := live_copy arrivals window j arrival found k alive
  exact ⟨m, copy, stored⟩

end Esp

def NodeLets (arrivals : List Arrival) (j : Nat) : Prop :=
  ∃ arrival, arrivals[j]? = some arrival ∧ 2 ≤ ttl arrival ∧ ¬ ∃ i copy, CopyAt arrivals j (sig arrival) i copy

def EspLets (arrivals : List Arrival) (j : Nat) : Prop :=
  ∃ arrival, arrivals[j]? = some arrival ∧ 2 ≤ ttl arrival ∧ ¬ ∃ i copy, Stored arrivals j (sig arrival) i copy

theorem esp_emitted (arrivals : List Arrival) (window : Window arrivals) [DecidablePred (EspLets arrivals)] :
    espForwards arrivals = ((arrivals.zipIdx).filter fun entry => decide (EspLets arrivals entry.2)).map
      fun entry => hopPacket entry.1.packet := by
  refine log_emitted espStep .start arrivals (fun j => decide (EspLets arrivals j)) (fun arrival => hopPacket arrival.packet)
    fun j arrival found => ?_
  rcases esp_answer arrivals window j arrival found with ⟨⟨hops, fresh⟩, answer⟩ | ⟨blocked, answer⟩
  · rw [answer, if_pos (decide_eq_true ⟨arrival, found, hops, fresh⟩)]
  · rw [answer, if_neg]
    intro chosen
    obtain ⟨same, there, hops, fresh⟩ := of_decide_eq_true chosen
    obtain rfl := Option.some.inj (found.symm.trans there)
    exact blocked ⟨hops, fresh⟩

theorem copy_in_take (arrivals : List Arrival) (j : Nat) (hmac : HmacSig) :
    (∃ copy ∈ arrivals.take j, sig copy = hmac) ↔ ∃ i copy, CopyAt arrivals j hmac i copy := by
  constructor
  · rintro ⟨copy, member, same⟩
    obtain ⟨i, found⟩ := List.mem_iff_getElem?.mp member
    have before : i < j := by
      have bound := (List.getElem?_eq_some_iff.mp found).1
      rw [List.length_take] at bound
      omega
    rw [List.getElem?_take_of_lt before] at found
    exact ⟨i, copy, before, found, same⟩
  · rintro ⟨i, copy, before, found, same⟩
    exact ⟨copy, List.mem_of_getElem? (by rw [List.getElem?_take_of_lt before]; exact found), same⟩

theorem node_emitted (arrivals : List Arrival) (window : Window arrivals) [DecidablePred (NodeLets arrivals)] :
    nodeForwards arrivals = ((arrivals.zipIdx).filter fun entry => decide (NodeLets arrivals entry.2)).map
      fun entry => hopPacket entry.1.packet := by
  refine log_emitted nodeStep .zero arrivals (fun j => decide (NodeLets arrivals j)) (fun arrival => hopPacket arrival.packet)
    fun j arrival found => ?_
  have few : ((arrivals.take j).map sig).toFinset.card < 256 := by
    refine lt_of_le_of_lt (Finset.card_le_card fun hmac member => ?_) window.few
    rw [List.mem_toFinset] at member ⊢
    exact ((List.take_sublist j arrivals).map sig).subset member
  obtain ⟨inserted, saw⟩ := node_saw (arrivals.take j) few fun copy member => window.real copy (List.mem_of_mem_take member)
  have known := node_contains _ inserted _ arrival saw few (window.real arrival (List.mem_of_getElem? found))
  rw [copy_in_take] at known
  have answer := forwarded_answer _ _ arrival _ (node_effect (final nodeStep .zero (arrivals.take j)) arrival.packet)
  refine answer.trans ?_
  by_cases chosen : NodeLets arrivals j
  · rw [if_pos (decide_eq_true chosen), if_pos]
    obtain ⟨same, there, hops, fresh⟩ := chosen
    obtain rfl := Option.some.inj (found.symm.trans there)
    exact ⟨not_not.mp fun present => fresh (known.mp present), hops⟩
  · rw [if_neg fun lets => chosen (of_decide_eq_true lets), if_neg]
    exact fun both => chosen ⟨arrival, found, both.2, fun copy => known.mpr copy both.1⟩

theorem node_lets_less (arrivals : List Arrival) (j : Nat) (lets : NodeLets arrivals j) : EspLets arrivals j := by
  obtain ⟨arrival, found, hops, fresh⟩ := lets
  exact ⟨arrival, found, hops, fun ⟨i, copy, stored⟩ => fresh ⟨i, copy, stored.toCopyAt⟩⟩

-- The node lets through what the ESP relay does exactly when no copy without
-- hops comes before the first copy that has some.
theorem node_mirrors_relay (arrivals : List Arrival) (window : Window arrivals) :
    nodeForwards arrivals = espForwards arrivals ↔
      ∀ j arrival, arrivals[j]? = some arrival → 2 ≤ ttl arrival → (∃ i copy, CopyAt arrivals j (sig arrival) i copy) →
        ∃ i copy, Stored arrivals j (sig arrival) i copy := by
  classical
  rw [node_emitted arrivals window, esp_emitted arrivals window, emitted_eq_iff]
  · constructor
    · intro reverse j arrival found hops earlier
      by_contra forgotten
      have member : (arrival, j) ∈ arrivals.zipIdx := List.mem_zipIdx_iff_getElem?.mpr found
      have lets := of_decide_eq_true (reverse (arrival, j) member (decide_eq_true ⟨arrival, found, hops, forgotten⟩))
      obtain ⟨same, there, _, fresh⟩ := lets
      obtain rfl := Option.some.inj (found.symm.trans there)
      exact fresh earlier
    · intro condition entry _ lets
      obtain ⟨arrival, found, hops, forgotten⟩ := of_decide_eq_true lets
      exact decide_eq_true ⟨arrival, found, hops, fun earlier => forgotten (condition entry.2 arrival found hops earlier)⟩
  · exact fun entry _ lets => decide_eq_true (node_lets_less arrivals entry.2 (of_decide_eq_true lets))

-- A copy with one hop left makes the node remember a packet it did not
-- forward; the ESP relay remembers only what it queued.
def exhaustedFirst : List Arrival := [⟨⟨0, 0, 1, 0, 1⟩, 0, 1, 50⟩, ⟨⟨0, 0, 5, 0, 1⟩, 10, 2, 50⟩]

theorem exhausted_copy_shadows : ¬ ∀ arrivals, Window arrivals → nodeForwards arrivals = espForwards arrivals := by
  intro claimed
  have same := claimed exhaustedFirst ⟨by decide, by decide, by decide, by decide⟩
  have node : nodeForwards exhaustedFirst = [] := by decide +kernel
  have esp : espForwards exhaustedFirst = [⟨0, 0, 4, 0, 1⟩] := by decide +kernel
  rw [node, esp] at same
  exact List.cons_ne_nil _ _ same.symm

def echoedPacket : List Arrival := [⟨⟨0, 0, 5, 0, 1⟩, 0, 1, 50⟩, ⟨⟨0, 0, 4, 0, 1⟩, 10, 2, 50⟩]

theorem mirrored_pair : nodeForwards echoedPacket = espForwards echoedPacket ↔
    ∀ j arrival, echoedPacket[j]? = some arrival → 2 ≤ ttl arrival → (∃ i copy, CopyAt echoedPacket j (sig arrival) i copy) →
      ∃ i copy, Stored echoedPacket j (sig arrival) i copy :=
  node_mirrors_relay echoedPacket ⟨by decide, by decide, by decide, by decide⟩

end BeaconMesh.Mirror
