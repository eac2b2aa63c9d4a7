import BeaconMesh.Provenance
import BeaconMesh.RelayFrame

set_option autoImplicit false

namespace BeaconMesh.Arduino

open Sweep History

def Bursts (k : Slot) (record : Record) : Prop := ∃ cancelled frame, record.2 = .scanned cancelled (some (k, frame))

-- Burst j transmits what callback i stored: same slot, nothing stored there
-- in between.
def Transmits (history : List Record) (i j : Nat) : Prop :=
  ∃ k, At (Stores k) history i ∧ At (Bursts k) history j ∧ i < j ∧ ∀ m, i < m → m < j → ¬ At (Stores k) history m

def recordedMacs (entry : CacheEntry) : Finset Mac :=
  ((Finset.univ : Finset (Fin maxTrackedMacs)).filter fun j => j.val < entry.rxCount.toNat).image (read entry.seenMacs)

theorem recorded_below (entry : CacheEntry) (below : entry.rxCount < redundancy) : (recordedMacs entry).card < 4 := by
  have count : entry.rxCount.toNat < 4 := UInt8.lt_iff_toNat_lt.mp below
  have proper : ((Finset.univ : Finset (Fin maxTrackedMacs)).filter fun j => j.val < entry.rxCount.toNat) ⊂ Finset.univ := by
    refine Finset.filter_ssubset.mpr ⟨3, Finset.mem_univ _, ?_⟩
    change ¬ 3 < entry.rxCount.toNat
    omega
  exact lt_of_le_of_lt Finset.card_image_le (Finset.card_lt_card proper)

theorem callback_silent (before after : RelayState) (device : Advertisement) (now : Millis) (wifi : Bool)
    (jitter : Millis) (output : Output) (effect : CallbackEffect before device now wifi jitter after output)
    (cancelled : List Slot) (burst : Option (Slot × Bytes)) : output ≠ .scanned cancelled burst := by
  intro same
  cases effect with
  | ignored => simp at same
  | duplicate => simp at same
  | dropped payloadRaw packet _ _ received offline absent spent purged burst silent =>
      rcases silent with rfl | rfl <;> simp at same
  | queued => simp at same
  | forwarded => simp at same

-- A step that answers with a burst was an idle iteration of loop that found
-- the row due and not yet heard from four senders.
structure BurstStart (before after : RelayState) (k : Slot) (frame : Bytes) (now : Millis) : Prop where
  idle : before.isBroadcasting = false
  due : Due now (read before.cache k)
  unheard : (read before.cache k).rxCount < redundancy
  frame : frame = rebroadcastData (read before.cache k).packet
  broadcasting : after.isBroadcasting = true
  index : after.currentBroadcastIndex = k.val

theorem loop_burst (before after : RelayState) (now : Millis) (output : Output)
    (effect : LoopEffect before now after output) (cancelled : List Slot) (k : Slot) (frame : Bytes)
    (burst : output = .scanned cancelled (some (k, frame))) : BurstStart before after k frame now := by
  cases effect with
  | transmitting => simp at burst
  | ended => simp at burst
  | started row rows _ idle due unheard earlier members cells broadcasting endTime index =>
      simp only [Output.scanned.injEq, Option.some.injEq, Prod.mk.injEq] at burst
      obtain ⟨_, rfl, rfl⟩ := burst
      exact ⟨idle, due, unheard, rfl, broadcasting, index⟩
  | quiet => simp at burst

theorem step_burst (state : RelayState) (event : Event) (cancelled : List Slot) (k : Slot) (frame : Bytes)
    (burst : (step state event).2 = .scanned cancelled (some (k, frame))) :
    ∃ now, event = .loop now ∧ BurstStart state (step state event).1 k frame now := by
  cases event with
  | onResult device now wifi jitter =>
      exact absurd burst (callback_silent _ _ _ _ _ _ _ (on_result_effect state device now wifi jitter) _ _)
  | loop now => exact ⟨now, rfl, loop_burst _ _ _ _ (loop_effect state now) cancelled k frame burst⟩

theorem loop_finishes (before after : RelayState) (now : Millis) (output : Output)
    (effect : LoopEffect before now after output) (k : Slot) (busy : before.isBroadcasting = true)
    (index : before.currentBroadcastIndex = k.val) :
    (after.isBroadcasting = true ∧ after.currentBroadcastIndex = k.val) ∨ ¬ Pending (read after.cache k) := by
  cases effect with
  | transmitting => exact Or.inl ⟨busy, index⟩
  | ended =>
      right
      rw [indexed_write_entry, if_pos index]
      exact fun pending => absurd pending.2 (by simp [markBroadcasted])
  | started row rows _ idle => exact absurd (busy.symm.trans idle) (by decide)
  | quiet rows _ idle => exact absurd (busy.symm.trans idle) (by decide)

theorem step_finishes (state : RelayState) (event : Event) (k : Slot) (busy : state.isBroadcasting = true)
    (index : state.currentBroadcastIndex = k.val) :
    ((step state event).1.isBroadcasting = true ∧ (step state event).1.currentBroadcastIndex = k.val) ∨
      ¬ Pending (read (step state event).1.cache k) := by
  cases event with
  | onResult device now wifi jitter =>
      have same := callback_burst _ _ _ _ _ _ _ (on_result_effect state device now wifi jitter)
      exact Or.inl ⟨same.broadcasting.trans busy, same.index.trans index⟩
  | loop now => exact loop_finishes _ _ now _ (loop_effect state now) k busy index

def Spent (history : List Record) (state : RelayState) : Prop :=
  ∀ k j, At (Bursts k) history j →
    (∃ m, j < m ∧ At (Stores k) history m) ∨
    (state.isBroadcasting = true ∧ state.currentBroadcastIndex = k.val) ∨
    ¬ Pending (read state.cache k)

theorem spent_step (history : List Record) (state : RelayState) (event : Event) (spent : Spent history state) :
    Spent (history ++ [(event, (step state event).2)]) (step state event).1 := by
  intro k j burst
  rcases (at_snoc _ _ _ _).mp burst with old | ⟨last, new⟩
  · have bound := at_bound _ _ _ old
    rcases spent k j old with ⟨m, later, stores⟩ | covered
    · exact Or.inl ⟨m, later, (at_snoc _ _ _ _).mpr (Or.inl stores)⟩
    · by_cases here : Stores k (event, (step state event).2)
      · exact Or.inl ⟨history.length, bound, (at_snoc _ _ _ _).mpr (Or.inr ⟨rfl, here⟩)⟩
      · right
        rcases covered with ⟨busy, index⟩ | idle
        · exact step_finishes state event k busy index
        · exact Or.inr fun pending => idle (kept_pending _ _ (step_keeps state event k here) pending)
  · obtain ⟨cancelled, frame, output⟩ := new
    obtain ⟨now, _, start⟩ := step_burst state event cancelled k frame output
    exact Or.inr (Or.inl ⟨start.broadcasting, start.index⟩)

theorem spent_start : Spent [] .start := by
  intro k j burst
  exact absurd (at_bound _ _ _ burst) (Nat.not_lt_zero j)

theorem reachable_spent (events : List Event) : Spent (relayLog events) (relayState events) :=
  History.invariant step .start Spent spent_start spent_step events

theorem burst_entry (events : List Event) (j : Nat) (k : Slot) (burst : At (Bursts k) (relayLog events) j) :
    ∃ now cancelled frame after, (relayLog events)[j]? = some (.loop now, .scanned cancelled (some (k, frame))) ∧
      BurstStart (relayState (events.take j)) after k frame now := by
  obtain ⟨record, found, cancelled, frame, output⟩ := burst
  obtain ⟨event, later, _, value⟩ := log_entry step .start events j record found
  subst value
  obtain ⟨now, rfl, start⟩ := step_burst (relayState (events.take j)) event cancelled k frame output
  refine ⟨now, cancelled, frame, _, ?_, start⟩
  rw [found, ← output]

theorem refilled_between (events : List Event) (k : Slot) (j later : Nat) (first : At (Bursts k) (relayLog events) j)
    (second : At (Bursts k) (relayLog events) later) (order : j < later) :
    ∃ m, j < m ∧ m < later ∧ At (Stores k) (relayLog events) m := by
  obtain ⟨now, _, _, _, _, start⟩ := burst_entry events later k second
  have seen : At (Bursts k) (relayLog (events.take later)) j := by
    rw [relayLog, log_take]
    exact (at_take _ _ _ _).mpr ⟨order, first⟩
  rcases reachable_spent (events.take later) k j seen with ⟨m, after, stores⟩ | ⟨busy, _⟩ | idle
  · rw [relayLog, log_take] at stores
    obtain ⟨before, stores⟩ := (at_take _ _ _ _).mp stores
    exact ⟨m, after, before, stores⟩
  · exact absurd (busy.symm.trans start.idle) (by decide)
  · exact absurd start.due.1 idle

theorem transmits_once (events : List Event) (i j later : Nat) (first : Transmits (relayLog events) i j)
    (second : Transmits (relayLog events) i later) : ¬ j < later := by
  intro order
  obtain ⟨k, stores, burst, before, _⟩ := first
  obtain ⟨k', stores', burst', _, held⟩ := second
  obtain ⟨record, found, slot⟩ := stores
  obtain ⟨record', found', slot'⟩ := stores'
  obtain rfl : record = record' := Option.some.inj (found.symm.trans found')
  obtain rfl : k = k' := Option.some.inj (slot.symm.trans slot')
  obtain ⟨m, after, inside, refilled⟩ := refilled_between events k j later burst burst' order
  exact held m (before.trans after) inside refilled

def Queues (before : RelayState) (device : Advertisement) (now : Millis) : Prop :=
  ∃ payloadRaw packet, receivedPacket device = some (payloadRaw, packet) ∧
    NoMatch now packet.hmacSig before.cache ∧ 2 ≤ (ttlOf packet.flags).toNat

def DeadlinesFit (events : List Event) : Prop :=
  ∀ past later device now jitter, events = past ++ .onResult device now false jitter :: later →
    Queues (relayState past) device now → now.toNat + jitter.toNat < 2 ^ 32

theorem queued_packet (before after : RelayState) (device : Advertisement) (now : Millis) (wifi : Bool)
    (jitter : Millis) (output : Output) (effect : CallbackEffect before device now wifi jitter after output)
    (slot : Slot) (drawn : Millis) (queued : output = .queued slot drawn) : Queues before device now := by
  cases effect with
  | ignored => simp at queued
  | duplicate => simp at queued
  | dropped payloadRaw packet _ _ received offline absent spent purged burst silent =>
      rcases silent with rfl | rfl <;> simp at queued
  | queued payloadRaw packet _ received offline absent hops => exact ⟨payloadRaw, packet, received, absent, hops⟩
  | forwarded => simp at queued

theorem queued_deadline (events : List Event) (fits : DeadlinesFit events) (i : Nat) (device : Advertisement)
    (now jitter : Millis) (slot : Slot) (drawn : Millis)
    (found : (relayLog events)[i]? = some (.onResult device now false jitter, .queued slot drawn)) :
    (now + jitter).toNat = now.toNat + jitter.toNat := by
  obtain ⟨event, later, split, value⟩ := log_entry step .start events i _ found
  rw [Prod.mk.injEq] at value
  obtain ⟨rfl, output⟩ := value
  have queues := queued_packet _ _ _ _ _ _ _ (on_result_effect (relayState (events.take i)) device now false jitter)
    slot drawn output.symm
  have room := fits _ _ _ _ _ split queues
  rw [BitVec.toNat_add, Nat.mod_eq_of_lt room]

-- What ties a burst to the callback that asked for it: i accepted the frame
-- received, j advertises frame out of the same slot.
structure Justifies (events : List Event) (i j : Nat) : Prop where
  transmits : Transmits (relayLog events) i j
  accepted : ∃ received address stored jitter k started cancelled frame flags,
    (relayLog events)[i]? = some (.onResult ⟨some received, address⟩ stored false jitter, .queued k jitter) ∧
    (relayLog events)[j]? = some (.loop started, .scanned cancelled (some (k, frame))) ∧
    received.length = 27 ∧ received.take 2 = [0xFF, 0xFF] ∧ 2 ≤ (ttlOf (received.getD flagsAt 0)).toNat ∧
    frame = received.set flagsAt flags ∧ (ttlOf flags).toNat + 1 = (ttlOf (received.getD flagsAt 0)).toNat ∧
    highBits flags = highBits (received.getD flagsAt 0) ∧
    stored.toNat + 50 ≤ started.toNat ∧
    (recordedMacs (read (relayState (events.take j)).cache k)).card < 4

structure BurstsJustified (events : List Event) : Prop where
  justified : ∀ j k, At (Bursts k) (relayLog events) j → ∃ i, Justifies events i j
  once : ∀ i j later, Justifies events i j → Justifies events i later → j = later

theorem burst_source (events : List Event) (j : Nat) (k : Slot) (burst : At (Bursts k) (relayLog events) j) :
    ∃ i record, (relayLog events)[i]? = some record ∧ Transmits (relayLog events) i j ∧
      Accepted k (read (relayState (events.take j)).cache k) record := by
  obtain ⟨now, _, _, _, _, start⟩ := burst_entry events j k burst
  obtain ⟨i, record, found, ⟨stores, last⟩, accepted⟩ := reachable_sourced (events.take j) k start.due.1.1
  rw [relayLog, log_take] at found stores last
  obtain ⟨before, stores⟩ := (at_take _ _ _ _).mp stores
  rw [List.getElem?_take_of_lt before] at found
  exact ⟨i, record, found, ⟨k, stores, burst, before, fun m after inside =>
    fun refilled => last m after ((at_take _ _ _ _).mpr ⟨inside, refilled⟩)⟩, accepted⟩

theorem relay_bursts_justified (events : List Event) (jitters : JittersInRange events) (fits : DeadlinesFit events) :
    BurstsJustified events := by
  constructor
  · intro j k burst
    obtain ⟨started, cancelled, frame, _, burstFound, start⟩ := burst_entry events j k burst
    obtain ⟨i, record, found, transmits, accepted⟩ := burst_source events j k burst
    refine ⟨i, transmits, ?_⟩
    have sent := start.frame
    have due := start.due
    have unheard := recorded_below _ start.unheard
    cases accepted with
    | queued device now jitter payloadRaw packet received hops key relayed expires time =>
        obtain ⟨data, length, company, parsed⟩ := (received_packet_iff _ _ _).mp received
        have flags := received_flags payloadRaw
        rw [← parsed] at flags
        have member : Event.onResult device now false jitter ∈ events := by
          obtain ⟨event, rest, split, value⟩ := log_entry step .start events i _ found
          rw [Prod.mk.injEq] at value
          rw [split, ← value.1]
          simp
        have deadline := queued_deadline events fits i device now jitter k jitter found
        have waited : (now + jitter).toNat ≤ started.toNat := by
          rw [← time]
          exact BitVec.le_def.mp due.2
        have least := (of_decide_eq_true (jitters _ member)).1
        obtain ⟨_, address⟩ := device
        dsimp only at data
        subst data
        refine ⟨payloadRaw, address, now, jitter, k, started, cancelled, frame, (relayedPacket packet).flags, found,
          burstFound, length, company, flags ▸ hops, ?_, ?_, ?_, by omega, unheard⟩
        · rw [sent, relayed, ← rebroadcast_frame payloadRaw length company, ← parsed]
          rfl
        · rw [← flags]
          have next := ttl_next_hop packet.flags (by omega)
          dsimp only [relayedPacket]
          omega
        · rw [← flags]
          exact high_with_ttl _ _ (ttl_pred_small packet.flags (by omega))
    | forwarded device now jitter payloadRaw packet newLoc received key expires marked =>
        exact absurd (due.1.2.symm.trans marked) (by decide)
  · intro i j later first second
    rcases Nat.lt_trichotomy j later with less | same | greater
    · exact absurd less (transmits_once events i j later first.transmits second.transmits)
    · exact same
    · exact absurd greater (transmits_once events i later j second.transmits first.transmits)

def quietRun : List Event := [.onResult ⟨some (sampleFrame 20 1), 1⟩ 0 false 50, .loop 50]

theorem quiet_run_justified : BurstsJustified quietRun ∧ At (Bursts 0) (relayLog quietRun) 1 := by
  have fits : DeadlinesFit quietRun := by
    intro past later device now jitter split _
    have member : Event.onResult device now false jitter ∈ quietRun := by
      rw [split]
      simp
    simp only [quietRun, List.mem_cons, Event.onResult.injEq, List.not_mem_nil, or_false, reduceCtorEq] at member
    obtain ⟨_, rfl, _, rfl⟩ := member
    decide
  refine ⟨relay_bursts_justified quietRun (by decide) fits, ?_⟩
  exact ⟨(.loop 50, .scanned [] (some (0, sampleFrame 19 1))), by decide +kernel, [], sampleFrame 19 1, rfl⟩

-- 100 ms before the counter's last value a jitter of 150 gives the deadline
-- 50, which is already past: the frame goes out one millisecond later.
def wrappingRun : List Event :=
  [.onResult ⟨some (sampleFrame 20 1), 1⟩ 4294967196 false 150, .loop 4294967197]

theorem burst_before_jitter :
    ¬ ∀ events, JittersInRange events → Nondecreasing events → BurstsJustified events := by
  intro claimed
  have first : (relayLog wrappingRun)[0]? =
      some (.onResult ⟨some (sampleFrame 20 1), 1⟩ 4294967196 false 150, .queued 0 150) := by decide +kernel
  have second : (relayLog wrappingRun)[1]? =
      some (.loop 4294967197, .scanned [] (some (0, sampleFrame 19 1))) := by decide +kernel
  obtain ⟨i, transmits, _, _, _, _, _, _, _, _, _, callback, burst, _, _, _, _, _, _, waited, _⟩ :=
    (claimed wrappingRun (by decide) (by decide)).justified 1 0 ⟨_, second, [], _, rfl⟩
  obtain ⟨_, _, _, before, _⟩ := transmits
  obtain rfl : i = 0 := by omega
  rw [first] at callback
  rw [second] at burst
  simp only [Option.some.injEq, Prod.mk.injEq, Event.onResult.injEq, Event.loop.injEq] at callback burst
  rw [← callback.1.2.1, ← burst.1] at waited
  exact absurd waited (by decide)

end BeaconMesh.Arduino
