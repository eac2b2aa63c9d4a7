import BeaconMesh.Retention

set_option autoImplicit false

namespace BeaconMesh.Arduino

open Sweep History

def Admits (before : RelayState) (device : Advertisement) (now : Millis) (wifi : Bool) : Prop :=
  ∃ payloadRaw packet, receivedPacket device = some (payloadRaw, packet) ∧ NoMatch now packet.hmacSig before.cache ∧
    (wifi = true ∨ 2 ≤ (ttlOf packet.flags).toNat)

def SparesBurst (state : RelayState) : Event → Prop
  | .onResult device now wifi _ => state.isBroadcasting = true → Admits state device now wifi →
      (targetSlot state.cache now).val ≠ state.currentBroadcastIndex
  | .loop _ => True

theorem callback_admits (before after : RelayState) (device : Advertisement) (now : Millis) (wifi : Bool)
    (jitter : Millis) (output : Output) (effect : CallbackEffect before device now wifi jitter after output) (k : Slot) :
    storedSlot output = some k ↔ Admits before device now wifi ∧ targetSlot before.cache now = k := by
  cases effect with
  | ignored filtered =>
      refine iff_of_false (by simp [storedSlot]) ?_
      rintro ⟨⟨payloadRaw, packet, received, _⟩, _⟩
      exact Option.some_ne_none _ (received.symm.trans filtered)
  | duplicate payloadRaw packet location _ received live key =>
      refine iff_of_false (by simp [storedSlot]) ?_
      rintro ⟨⟨raw, parsed, again, absent, _⟩, _⟩
      obtain ⟨_, rfl⟩ : payloadRaw = raw ∧ packet = parsed := by simpa using received.symm.trans again
      exact absent location ⟨live, key⟩
  | dropped payloadRaw packet _ _ received offline absent spent purged burst silent =>
      refine iff_of_false (by rcases silent with rfl | rfl <;> simp [storedSlot]) ?_
      rintro ⟨⟨raw, parsed, again, _, online | hops⟩, _⟩
      · exact absurd (offline.symm.trans online) Bool.false_ne_true
      · obtain ⟨_, rfl⟩ : payloadRaw = raw ∧ packet = parsed := by simpa using received.symm.trans again
        omega
  | queued payloadRaw packet _ received offline absent hops =>
      rw [storedSlot, Option.some.injEq]
      exact (and_iff_right ⟨payloadRaw, packet, received, absent, Or.inr hops⟩).symm
  | forwarded payloadRaw packet _ newLoc received online absent =>
      rw [storedSlot, Option.some.injEq]
      exact (and_iff_right ⟨payloadRaw, packet, received, absent, Or.inl online⟩).symm

theorem loop_on_air (before after : RelayState) (now : Millis) (output : Output)
    (effect : LoopEffect before now after output) (broadcasting : after.isBroadcasting = true) :
    (before.isBroadcasting = true ∧ after.currentBroadcastIndex = before.currentBroadcastIndex) ∨
      ∃ k, Bursts k (.loop now, output) ∧ after.currentBroadcastIndex = k.val := by
  cases effect with
  | transmitting busy => exact Or.inl ⟨busy, rfl⟩
  | ended => exact absurd broadcasting Bool.false_ne_true
  | started row rows _ idle due unheard earlier members cells _ endTime index => exact Or.inr ⟨row, ⟨rows, _, rfl⟩, index⟩
  | quiet rows _ idle covered members cells burst =>
      exact absurd (broadcasting.symm.trans (burst.broadcasting.trans idle)) (by decide)

theorem step_on_air (state : RelayState) (event : Event) (broadcasting : (step state event).1.isBroadcasting = true) :
    (state.isBroadcasting = true ∧ (step state event).1.currentBroadcastIndex = state.currentBroadcastIndex) ∨
      ∃ k, Bursts k (event, (step state event).2) ∧ (step state event).1.currentBroadcastIndex = k.val := by
  cases event with
  | loop now => exact loop_on_air _ _ now _ (loop_effect state now) broadcasting
  | onResult device now wifi jitter =>
      have same := callback_burst _ _ _ _ _ _ _ (on_result_effect state device now wifi jitter)
      exact Or.inl ⟨same.broadcasting.symm.trans broadcasting, same.index⟩

def OnAir (events : List Event) (m : Nat) : Prop := (relayState (events.take m)).isBroadcasting = true

theorem take_next (events : List Event) (m : Nat) (inside : m < events.length) :
    events.take (m + 1) = events.take m ++ [events[m]] ∧
      relayState (events.take (m + 1)) = (step (relayState (events.take m)) events[m]).1 ∧
      (relayLog events)[m]? = some (events[m], (step (relayState (events.take m)) events[m]).2) := by
  have next : events.take (m + 1) = events.take m ++ [events[m]] := (List.take_append_getElem inside).symm
  refine ⟨next, ?_, ?_⟩
  · rw [next]
    exact final_snoc _ _ _ _
  · have entry : (relayLog (events.take (m + 1)))[m]? = (relayLog events)[m]? := by
      rw [relayLog, log_take, List.getElem?_take_of_lt (Nat.lt_succ_self m)]
      rfl
    have length : (log step .start (events.take m)).length = m := by
      rw [log_length, List.length_take]
      omega
    rw [← entry, next, relayLog, log_snoc, List.getElem?_append_right length.le, length, Nat.sub_self]
    rfl

-- Whoever is on the air was put there by the last burst, which still runs.
theorem airing (events : List Event) (e : Nat) (inside : e ≤ events.length) (broadcasting : OnAir events e) :
    ∃ j k, j < e ∧ At (Bursts k) (relayLog events) j ∧ ∀ n, j < n → n ≤ e →
      OnAir events n ∧ (relayState (events.take n)).currentBroadcastIndex = (k : Slot).val := by
  induction e with
  | zero => exact absurd broadcasting (by rw [OnAir, List.take_zero]; exact Bool.false_ne_true)
  | succ e ih =>
      obtain ⟨_, state, entry⟩ := take_next events e inside
      rw [OnAir, state] at broadcasting
      cases step_on_air _ _ broadcasting with
      | inl held =>
          obtain ⟨j, k, before, burst, during⟩ := ih (Nat.le_of_succ_le inside) held.1
          refine ⟨j, k, Nat.lt_succ_of_lt before, burst, fun n after reached => ?_⟩
          rcases Nat.lt_or_eq_of_le reached with earlier | rfl
          · exact during n after (Nat.le_of_lt_succ earlier)
          · rw [OnAir, state]
            exact ⟨broadcasting, held.2.trans (during e before le_rfl).2⟩
      | inr started =>
          obtain ⟨k, burst, index⟩ := started
          refine ⟨e, k, Nat.lt_succ_self e, ⟨_, entry, burst⟩, fun n after reached => ?_⟩
          obtain rfl : n = e + 1 := by omega
          rw [OnAir, state]
          exact ⟨broadcasting, index⟩

theorem kept_between (events : List Event) (k : Slot) (a b : Nat) (order : a ≤ b) (inside : b ≤ events.length)
    (untouched : ∀ m, a ≤ m → m < b → ¬ At (Stores k) (relayLog events) m) :
    Kept (read (relayState (events.take a)).cache k) (read (relayState (events.take b)).cache k) := by
  induction b, order using Nat.le_induction with
  | base => exact kept_refl _
  | succ b order ih =>
      obtain ⟨_, state, entry⟩ := take_next events b inside
      have first := ih (Nat.le_of_succ_le inside) fun m after before => untouched m after (Nat.lt_succ_of_lt before)
      have last := step_keeps (relayState (events.take b)) events[b] k
        fun here => untouched b order (Nat.lt_succ_self b) ⟨_, entry, here⟩
      rw [state]
      exact ⟨last.hmac.trans first.hmac, last.packet.trans first.packet, last.expires.trans first.expires,
        last.time.trans first.time, fun active => first.active (last.active active), fun marked => last.marked (first.marked marked)⟩

-- The slot marked at e still holds the packet that burst j advertised: what
-- the burst transmitted and what the slot holds both came with callback i.
structure MarksSent (events : List Event) (e i j : Nat) (k : Slot) : Prop where
  transmits : Transmits (relayLog events) i j
  before : j < e
  during : ∀ n, j < n → n ≤ e → OnAir events n
  holds : Latest (Stores k) (relayLog (events.take e)) i
  advertised : ∃ started cancelled, (relayLog events)[j]? =
    some (.loop started, .scanned cancelled (some (k, rebroadcastData (read (relayState (events.take e)).cache k).packet)))

def MarksRightPacket (events : List Event) (e : Nat) (index : Int) : Prop :=
  ∃ i j k, index = (k : Slot).val ∧ MarksSent events e i j k

theorem on_air_from (events : List Event) (e j m : Nat) (k : Slot) (burst : At (Bursts k) (relayLog events) j)
    (onAir : ∀ n, m ≤ n → n ≤ e → OnAir events n) (order : j < e) : j < m := by
  obtain ⟨_, _, _, _, _, start⟩ := burst_entry events j k burst
  by_contra notAfter
  exact absurd (start.idle.symm.trans (onAir j (Nat.not_lt.mp notAfter) order.le)) (by decide)

theorem index_held (events : List Event) (m e : Nat) (order : m ≤ e) (inside : e ≤ events.length)
    (onAir : ∀ n, m ≤ n → n ≤ e → OnAir events n) :
    (relayState (events.take m)).currentBroadcastIndex = (relayState (events.take e)).currentBroadcastIndex := by
  obtain ⟨j, k, before, burst, during⟩ := airing events e inside (onAir e order le_rfl)
  exact (during m (on_air_from events e j m k burst onAir before) order).2.trans (during e before le_rfl).2.symm

theorem ended_index (before after : RelayState) (now : Millis) (output : Output)
    (effect : LoopEffect before now after output) (index : Int) (ended : output = .burstEnded index) :
    before.isBroadcasting = true ∧ before.currentBroadcastIndex = index := by
  cases effect with
  | transmitting => simp at ended
  | ended busy => exact ⟨busy, Output.burstEnded.inj ended⟩
  | started => simp at ended
  | quiet => simp at ended

theorem marked_spares (events : List Event) (e : Nat) (inside : e ≤ events.length)
    (marked : MarksRightPacket events e (relayState (events.take e)).currentBroadcastIndex) (m : Nat) (event : Event)
    (before : m < e) (found : events[m]? = some event) (onAir : ∀ n, m ≤ n → n ≤ e → OnAir events n) :
    SparesBurst (relayState (events.take m)) event := by
  cases event with
  | loop now => trivial
  | onResult device now wifi jitter =>
      intro _ admits target
      obtain ⟨i, j, k, index, sent⟩ := marked
      obtain ⟨slot, _, burst, order, _⟩ := id sent.transmits
      obtain ⟨bound, value⟩ := List.getElem?_eq_some_iff.mp found
      obtain ⟨_, _, entry⟩ := take_next events m bound
      have held := index_held events m e before.le inside onAir
      have here : targetSlot (relayState (events.take m)).cache now = k := by
        rw [held, index] at target
        exact Fin.ext (by exact_mod_cast target)
      have effect := on_result_effect (relayState (events.take m)) device now wifi jitter
      have stores := (callback_admits _ _ _ _ _ _ _ effect k).mpr ⟨admits, here⟩
      have after := order.trans (on_air_from events e j m slot burst onAir sent.before)
      refine sent.holds.2 m after ?_
      rw [relayLog, log_take]
      exact (at_take _ _ _ _).mpr ⟨before, _, entry, by rw [value]; exact stores⟩

theorem store_on_air (events : List Event) (m : Nat) (k : Slot) (onAir : OnAir events m)
    (index : (relayState (events.take m)).currentBroadcastIndex = k.val) (stores : At (Stores k) (relayLog events) m) :
    ∃ event, events[m]? = some event ∧ ¬ SparesBurst (relayState (events.take m)) event := by
  obtain ⟨record, found, slot⟩ := stores
  have bound : m < events.length := by
    have inside := (List.getElem?_eq_some_iff.mp found).1
    rwa [relayLog, log_length] at inside
  obtain ⟨_, _, entry⟩ := take_next events m bound
  obtain rfl := Option.some.inj (found.symm.trans entry)
  refine ⟨events[m], List.getElem?_eq_getElem bound, fun spares => ?_⟩
  revert spares slot
  cases events[m] with
  | loop now =>
      intro slot _
      exact absurd (slot.symm.trans (loop_stores_nothing _ _ now _ (loop_effect _ now))) (Option.some_ne_none k)
  | onResult device now wifi jitter =>
      intro slot spares
      have effect := on_result_effect (relayState (events.take m)) device now wifi jitter
      obtain ⟨admits, target⟩ := (callback_admits _ _ _ _ _ _ _ effect k).mp slot
      exact spares onAir admits (by rw [index, target])

theorem burst_not_store (events : List Event) (j : Nat) (k : Slot) (slot : Slot) (burst : At (Bursts k) (relayLog events) j) :
    ¬ At (Stores slot) (relayLog events) j := by
  rintro ⟨record, found, stores⟩
  obtain ⟨other, again, cancelled, frame, output⟩ := burst
  obtain rfl : record = other := Option.some.inj (found.symm.trans again)
  rw [Stores, output] at stores
  exact Option.some_ne_none slot stores.symm

theorem spared_marks (events : List Event) (e : Nat) (inside : e ≤ events.length) (broadcasting : OnAir events e)
    (spared : ∀ m event, m < e → events[m]? = some event → (∀ n, m ≤ n → n ≤ e → OnAir events n) →
      SparesBurst (relayState (events.take m)) event) :
    MarksRightPacket events e (relayState (events.take e)).currentBroadcastIndex := by
  obtain ⟨j, k, before, burst, during⟩ := airing events e inside broadcasting
  obtain ⟨i, _, _, _, _, _, transmits, queued, _⟩ := burst_origin events j k burst
  obtain ⟨started, cancelled, frame, _, burstFound, start⟩ := burst_entry events j k burst
  have afterBurst : ∀ m, j ≤ m → m < e → ¬ At (Stores k) (relayLog events) m := by
    intro m after early stores
    rcases Nat.eq_or_lt_of_le after with rfl | later
    · exact burst_not_store events j k k burst stores
    · obtain ⟨onAir, index⟩ := during m later early.le
      obtain ⟨event, found, unspared⟩ := store_on_air events m k onAir index stores
      exact unspared (spared m event early found fun n reached last => (during n (later.trans_le reached) last).1)
  have stores : At (Stores k) (relayLog events) i := ⟨_, queued, rfl⟩
  have beforeBurst : i < j ∧ ∀ m, i < m → m < j → ¬ At (Stores k) (relayLog events) m := by
    obtain ⟨slot, first, _, order, quiet⟩ := transmits
    obtain ⟨record, found, here⟩ := first
    obtain rfl := Option.some.inj (found.symm.trans queued)
    obtain rfl : k = slot := by simpa [Stores, storedSlot] using here
    exact ⟨order, quiet⟩
  have kept := kept_between events k j e before.le inside afterBurst
  refine ⟨i, j, k, (during e before le_rfl).2, transmits, before, fun n after reached => (during n after reached).1, ?_,
    started, cancelled, by rw [burstFound, start.frame, kept.packet]⟩
  rw [relayLog, log_take]
  refine ⟨(at_take _ _ _ _).mpr ⟨beforeBurst.1.trans before, stores⟩, fun m after again => ?_⟩
  obtain ⟨early, storesAgain⟩ := (at_take _ _ _ _).mp again
  rcases Nat.lt_or_ge m j with less | later
  · exact beforeBurst.2 m after less storesAgain
  · exact afterBurst m later early storesAgain

-- The end of a burst marks the packet that was on the air exactly when no
-- callback in its course stored into the slot on the air.
theorem burst_completion (events : List Event) (e : Nat) (now : Millis) (index : Int)
    (ended : (relayLog events)[e]? = some (.loop now, .burstEnded index)) :
    MarksRightPacket events e index ↔
      ∀ m event, m < e → events[m]? = some event → (∀ n, m ≤ n → n ≤ e → OnAir events n) →
        SparesBurst (relayState (events.take m)) event := by
  obtain ⟨output, _⟩ := log_at step .start events e _ ended
  obtain ⟨broadcasting, same⟩ := ended_index _ _ now _ (loop_effect (relayState (events.take e)) now) index output.symm
  have inside : e ≤ events.length := by
    have bound := (List.getElem?_eq_some_iff.mp ended).1
    rw [relayLog, log_length] at bound
    exact bound.le
  subst same
  constructor
  · intro marked m event before found onAir
    exact marked_spares events e inside marked m event before found onAir
  · exact spared_marks events e inside broadcasting

def completedRun : List Event := quietRun ++ [.loop 550]

theorem completed_run_completion :
    MarksRightPacket completedRun 2 0 ↔
      ∀ m event, m < 2 → completedRun[m]? = some event → (∀ n, m ≤ n → n ≤ 2 → OnAir completedRun n) →
        SparesBurst (relayState (completedRun.take m)) event :=
  burst_completion completedRun 2 550 0 (by decide +kernel)

def Event.isCallback : Event → Bool
  | .onResult _ _ _ _ => true
  | .loop _ => false

-- Callbacks run during a burst only when they were waiting for the mutex of
-- the iteration that started it.
def OnlyWaiting (events : List Event) : Prop :=
  ∀ m, m < events.length → (events[m]?.any Event.isCallback) = true → OnAir events m →
    ¬ OnAir events (m - 1) ∧ 0 < m

-- The callback that waited for the scan at 1999 reads the clock at 2000, when
-- the entry on the air has just expired.
def overtakenRun : List Event :=
  [.onResult ⟨some (sampleFrame 20 1), 1⟩ 0 false 50, .loop 1999, .onResult ⟨some (sampleFrame 20 2), 1⟩ 2000 false 50, .loop 2499]

theorem overtaken_burst :
    ¬ ∀ events e now index, OnlyWaiting events → BleRelayMode events → JittersInRange events → Nondecreasing events →
      (relayLog events)[e]? = some (.loop now, .burstEnded index) → MarksRightPacket events e index := by
  intro claimed
  have waiting : OnlyWaiting overtakenRun := by
    have table : ∀ m : Fin 4, (overtakenRun[m.val]?.any Event.isCallback) = true →
        (relayState (overtakenRun.take m.val)).isBroadcasting = true →
        ¬ (relayState (overtakenRun.take (m.val - 1))).isBroadcasting = true ∧ 0 < m.val := by decide +kernel
    exact fun m inside => table ⟨m, inside⟩
  have marked := claimed overtakenRun 3 2499 0 waiting (by decide) (by decide) (by decide) (by decide +kernel)
  have index : (relayState (overtakenRun.take 3)).currentBroadcastIndex = 0 := by decide +kernel
  rw [← index] at marked
  have onAir : ∀ n, 2 ≤ n → n ≤ 3 → OnAir overtakenRun n := by
    have table : (relayState (overtakenRun.take 2)).isBroadcasting = true ∧ (relayState (overtakenRun.take 3)).isBroadcasting = true := by
      decide +kernel
    intro n after before
    rcases Nat.lt_or_eq_of_le before with less | rfl
    · obtain rfl : n = 2 := by omega
      exact table.1
    · exact table.2
  have refilled : (relayLog overtakenRun)[2]? =
      some (.onResult ⟨some (sampleFrame 20 2), 1⟩ 2000 false 50, .queued 0 50) := by decide +kernel
  obtain ⟨event, found, unspared⟩ := store_on_air overtakenRun 2 0 (onAir 2 le_rfl (by decide)) (by decide +kernel)
    ⟨_, refilled, rfl⟩
  exact unspared (marked_spares overtakenRun 3 (by decide) marked 2 event (by decide) found onAir)

end BeaconMesh.Arduino
