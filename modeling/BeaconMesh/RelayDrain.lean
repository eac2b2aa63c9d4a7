import BeaconMesh.EspNetwork
import BeaconMesh.RelayAirtime

set_option autoImplicit false

namespace BeaconMesh.Arduino

open Sweep History

-- A packet that no scan will cancel unless it is heard again.
def Ready (entry : CacheEntry) : Prop := Pending entry ∧ entry.rxCount < redundancy

instance (entry : CacheEntry) : Decidable (Ready entry) := inferInstanceAs (Decidable (_ ∧ _))

-- The slots that wait for transmission, in their order, with the frames.
def queued (cache : TimeAwareCache) : List (Slot × Bytes) :=
  ((List.finRange cacheSize).filter fun i => decide (Ready (read cache i))).map fun i => (i, rebroadcastData (read cache i).packet)

-- The slot on air has left the queue.
def remaining (state : RelayState) : List (Slot × Bytes) :=
  if state.isBroadcasting then (queued state.cache).tail else queued state.cache

def burstsOf (history : List Record) : List (Slot × Bytes) := history.filterMap fun record => startedBurst record.2

theorem sorted_first {n : Nat} (slots : List (Fin n)) (sorted : slots.Pairwise (· < ·)) (test : Fin n → Bool) (row : Fin n)
    (member : row ∈ slots) (holds : test row = true) (earlier : ∀ i, i < row → test i = false) :
    slots.filter test = row :: (slots.filter test).filter fun i => decide (i ≠ row) := by
  induction slots with
  | nil => cases member
  | cons first slots ih =>
      obtain ⟨ahead, later⟩ := List.pairwise_cons.mp sorted
      cases List.mem_cons.mp member with
      | inl same =>
          subst same
          have others : ∀ i ∈ slots.filter test, decide (i ≠ row) = true := fun i inside =>
            decide_eq_true (ne_of_gt (ahead i (List.mem_of_mem_filter inside)))
          rw [List.filter_cons_of_pos holds, List.filter_cons_of_neg (by simp), List.filter_eq_self.mpr others]
      | inr inside =>
          have skipped : ¬ test first = true := ne_true_of_eq_false (earlier first (ahead row inside))
          rw [List.filter_cons_of_neg skipped]
          exact ih later inside

section Queue

variable (before after : TimeAwareCache)

theorem queued_marked (marked : Slot → Prop) [DecidablePred marked]
    (cells : ∀ i, read after i = if marked i then markBroadcasted (read before i) else read before i) :
    queued after = (queued before).filter fun entry => decide (¬ marked entry.1) := by
  have ready : ∀ i, decide (Ready (read after i)) = (decide (¬ marked i) && decide (Ready (read before i))) := by
    intro i
    rw [cells i]
    by_cases hit : marked i
    · rw [if_pos hit]
      simp [Ready, Pending, markBroadcasted, hit]
    · rw [if_neg hit]
      simp [hit]
  have packets : ∀ i, (read after i).packet = (read before i).packet := by
    intro i
    rw [cells i]
    split <;> rfl
  rw [queued, queued, List.filter_map, List.filter_filter]
  simp only [ready, packets]
  rfl

theorem queued_first (row : Slot) (ready : Ready (read before row)) (earlier : ∀ i, i < row → ¬ Ready (read before i)) :
    queued before = (row, rebroadcastData (read before row).packet) :: (queued before).filter fun entry => decide (¬ entry.1 = row) := by
  have sorted : (List.finRange cacheSize).Pairwise (· < ·) := List.pairwise_lt_finRange cacheSize
  have first := sorted_first (List.finRange cacheSize) sorted (fun i => decide (Ready (read before i))) row (List.mem_finRange row)
    (decide_eq_true ready) fun i lower => decide_eq_false (earlier i lower)
  rw [queued, List.filter_map]
  conv_lhs => rw [first]
  rfl

end Queue

-- One round of the queue: a burst, and the loop() iterations that end it and
-- start the next one.
def roundTime (gap : Nat) : Nat := 500 + 2 * gap

-- No packet arrives any more. What was sent is the front of the queue, and the
-- next iteration comes in time for the next round.
structure Draining (queue : List (Slot × Bytes)) (first gap limit : Nat) (sent : List (Slot × Bytes)) (state : RelayState) : Prop where
  order : sent ++ remaining state = queue
  due : ∀ i, Pending (read state.cache i) → (read state.cache i).broadcastTime.toNat ≤ first
  onAir : state.isBroadcasting = true → ∃ (row : Slot) (frame : Bytes), state.currentBroadcastIndex = row.val ∧
    queued state.cache = (row, frame) :: (queued state.cache).filter fun entry => decide (¬ entry.1 = row)
  busy : state.isBroadcasting = true →
    limit ≤ state.broadcastEndTime.toNat + gap ∧ state.broadcastEndTime.toNat + 2 * gap ≤ first + sent.length * roundTime gap
  idle : state.isBroadcasting = false → queued state.cache ≠ [] → limit ≤ first + sent.length * roundTime gap

section Steps

variable (queue : List (Slot × Bytes)) (first gap limit : Nat) (sent : List (Slot × Bytes)) (before after : RelayState) (now : Millis)

theorem due_marked (marked : Slot → Prop) [DecidablePred marked]
    (cells : ∀ i, read after.cache i = if marked i then markBroadcasted (read before.cache i) else read before.cache i)
    (due : ∀ i, Pending (read before.cache i) → (read before.cache i).broadcastTime.toNat ≤ first) :
    ∀ i, Pending (read after.cache i) → (read after.cache i).broadcastTime.toNat ≤ first := by
  intro i
  rw [cells i]
  by_cases hit : marked i
  · rw [if_pos hit]
    exact fun never => absurd never.2 (by simp [markBroadcasted])
  · rw [if_neg hit]
    exact due i

theorem queued_cancelled (cancelled : List Slot) (rows : ∀ i ∈ cancelled, ¬ (read before.cache i).rxCount < redundancy)
    (cells : ∀ i, read after.cache i = if i ∈ cancelled then markBroadcasted (read before.cache i) else read before.cache i) :
    queued after.cache = queued before.cache := by
  rw [queued_marked before.cache after.cache (fun i => i ∈ cancelled) cells]
  refine List.filter_eq_self.mpr fun entry member => decide_eq_true fun hit => ?_
  obtain ⟨i, waits, rfl⟩ := List.mem_map.mp member
  exact rows i hit (of_decide_eq_true (List.mem_filter.mp waits).2).2

theorem draining_step (output : Output) (effect : LoopEffect before now after output) (arrives : now.toNat ≤ limit) (later : first ≤ now.toNat)
    (fits : now.toNat + 500 < 2 ^ 32) (draining : Draining queue first gap limit sent before) :
    Draining queue first gap (now.toNat + gap) (sent ++ (startedBurst output).toList) after := by
  have due : ∀ i, Ready (read before.cache i) → Due now (read before.cache i) := fun i ready =>
    ⟨ready.1, (draining.due i ready.1).trans later⟩
  cases effect with
  | transmitting busy early =>
      have soon : now.toNat < before.broadcastEndTime.toNat := early
      have same : sent ++ (startedBurst .transmitting).toList = sent := List.append_nil sent
      rw [same]
      exact ⟨draining.order, draining.due, draining.onAir, fun _ => ⟨Nat.add_le_add_right (Nat.le_of_lt soon) gap, (draining.busy busy).2⟩,
        fun idle => absurd (busy.symm.trans idle) (by decide)⟩
  | ended busy late =>
      obtain ⟨row, frame, index, front⟩ := draining.onAir busy
      obtain ⟨close, round⟩ := draining.busy busy
      have cells : ∀ i, read (indexedWrite before.cache before.currentBroadcastIndex) i =
          if i = row then markBroadcasted (read before.cache i) else read before.cache i := by
        intro i
        rw [indexed_write_entry, index]
        by_cases here : i = row
        · rw [if_pos here, if_pos (by rw [here])]
        · have apart : ¬ ((row.val : Int) = (i.val : Int)) := fun same => here (Fin.ext (by omega))
          rw [if_neg here, if_neg apart]
      have rest : queued (indexedWrite before.cache before.currentBroadcastIndex) = (queued before.cache).tail := by
        rw [queued_marked _ _ (fun i => i = row) cells]
        exact (congrArg List.tail front).symm
      have order := draining.order
      rw [remaining, if_pos busy, ← rest] at order
      have same : sent ++ (startedBurst (.burstEnded before.currentBroadcastIndex)).toList = sent := List.append_nil sent
      rw [same]
      exact ⟨order, due_marked first before _ (fun i => i = row) cells draining.due, fun never => absurd never Bool.false_ne_true,
        fun never => absurd never Bool.false_ne_true, fun _ _ => by omega⟩
  | started row cancelled _ idle dueRow unheard earlier rows cells broadcasting endTime index =>
      have unchanged := queued_cancelled before after cancelled (fun i member => ((rows i).mp member).1.2) cells
      have front := queued_first before.cache row ⟨dueRow.1, unheard⟩ fun i less ready => earlier i less (due i ready) ready.2
      have nonempty : queued before.cache ≠ [] := by
        rw [front]
        exact List.cons_ne_nil _ _
      have order := draining.order
      rw [remaining, if_neg (ne_true_of_eq_false idle)] at order
      have ends : after.broadcastEndTime.toNat = now.toNat + 500 := by
        rw [endTime, end_time_value now fits]
      have intime := draining.idle idle nonempty
      have length : (sent ++ [(row, rebroadcastData (read before.cache row).packet)]).length = sent.length + 1 := by simp
      refine ⟨?_, due_marked first before after (fun i => i ∈ cancelled) cells draining.due, fun _ => ⟨row, rebroadcastData (read before.cache row).packet, index, ?_⟩,
        fun _ => ?_,
        fun never => absurd (broadcasting.symm.trans never) (by decide)⟩
      · rw [remaining, if_pos broadcasting, unchanged, ← order]
        calc sent ++ [(row, rebroadcastData (read before.cache row).packet)] ++ (queued before.cache).tail
            = sent ++ (row, rebroadcastData (read before.cache row).packet) :: (queued before.cache).tail := List.append_assoc _ _ _
          _ = sent ++ queued before.cache := by rw [congrArg List.tail front, List.tail_cons, ← front]
      · rw [unchanged]
        exact front
      · rw [ends]
        refine ⟨Nat.add_le_add_right (Nat.le_add_right _ _) gap, ?_⟩
        have grown : (sent ++ (startedBurst (.scanned cancelled (some (row, rebroadcastData (read before.cache row).packet)))).toList).length =
            sent.length + 1 := length
        rw [grown, Nat.add_mul, Nat.one_mul]
        unfold roundTime at intime ⊢
        omega
  | quiet cancelled _ idle covered rows cells burst =>
      have unchanged := queued_cancelled before after cancelled (fun i member => ((rows i).mp member).2) cells
      have empty : queued before.cache = [] := by
        refine List.map_eq_nil_iff.mpr (List.filter_eq_nil_iff.mpr fun i _ ready => ?_)
        have waits : Ready (read before.cache i) := of_decide_eq_true ready
        exact covered i (due i waits) waits.2
      have still : ¬ after.isBroadcasting = true := by
        rw [burst.broadcasting, idle]
        exact Bool.false_ne_true
      have order := draining.order
      rw [remaining, if_neg (ne_true_of_eq_false idle), ← unchanged] at order
      have same : sent ++ (startedBurst (.scanned cancelled none)).toList = sent := List.append_nil sent
      rw [same]
      refine ⟨?_, due_marked first before after (fun i => i ∈ cancelled) cells draining.due, fun busy => absurd busy still,
        fun busy => absurd busy still, fun _ waiting => absurd (unchanged.trans empty) waiting⟩
      rw [remaining, if_neg still]
      exact order

-- An iteration of loop(), or an advertisement of some other device.
def Foreign : Event → Prop
  | .loop _ => True
  | .onResult device _ _ _ => receivedPacket device = none

def loopTimes (events : List Event) : List Nat :=
  events.filterMap fun event => match event with
    | .loop now => some now.toNat
    | .onResult .. => none

-- loop() comes around at least once every gap milliseconds.
def Punctual (gap : Nat) (times : List Nat) : Prop := times.IsChain fun earlier later => earlier ≤ later ∧ later ≤ earlier + gap

instance (gap : Nat) (times : List Nat) : Decidable (Punctual gap times) := inferInstanceAs (Decidable (List.IsChain _ _))

theorem bursts_loop (state : RelayState) (now : Millis) (events : List Event) :
    burstsOf (log step state (.loop now :: events)) =
      (startedBurst (loop state now).2).toList ++ burstsOf (log step (loop state now).1 events) := by
  rw [log, burstsOf, List.filterMap_cons]
  dsimp only [step]
  cases startedBurst (loop state now).2 <;> rfl

theorem draining_run (events : List Event) (previous : Nat) (state : RelayState) (sent : List (Slot × Bytes))
    (foreign : ∀ event ∈ events, Foreign event) (punctual : Punctual gap (previous :: loopTimes events)) (begun : first ≤ previous)
    (fits : ∀ time ∈ loopTimes events, time + 500 < 2 ^ 32) (draining : Draining queue first gap (previous + gap) sent state) :
    ∃ limit, Draining queue first gap limit (sent ++ burstsOf (log step state events)) (final step state events) ∧
      ∀ time ∈ previous :: loopTimes events, time + gap ≤ limit := by
  induction events generalizing previous state sent with
  | nil =>
      refine ⟨previous + gap, ?_, fun time member => ?_⟩
      · rw [log_nil, final_nil]
        exact (List.append_nil sent).symm ▸ draining
      · rw [List.mem_singleton.mp member]
  | cons event events ih =>
      have others : ∀ event ∈ events, Foreign event := fun event member => foreign event (List.mem_cons_of_mem _ member)
      cases event with
      | onResult device now wifi jitter =>
          have received : receivedPacket device = none := foreign (.onResult device now wifi jitter) List.mem_cons_self
          have same : step state (.onResult device now wifi jitter) = (state, .ignored) := by
            simp only [step, onResult, received]
          have silent : burstsOf (log step state (.onResult device now wifi jitter :: events)) = burstsOf (log step state events) := by
            rw [log, same]
            rfl
          rw [silent, final_cons, same]
          exact ih previous state sent others punctual begun fits draining
      | loop now =>
          obtain ⟨⟨after, soon⟩, onwards⟩ := List.isChain_cons_cons.mp punctual
          have next := draining_step queue first gap (previous + gap) sent state (loop state now).1 now (loop state now).2
            (loop_effect state now) soon (begun.trans after) (fits now.toNat List.mem_cons_self) draining
          obtain ⟨limit, done, reached⟩ := ih now.toNat _ _ others onwards (begun.trans after)
            (fun time member => fits time (List.mem_cons_of_mem _ member)) next
          refine ⟨limit, ?_, fun time member => ?_⟩
          · rw [bursts_loop, ← List.append_assoc]
            exact done
          · cases List.mem_cons.mp member with
            | inl same =>
                rw [same]
                exact (Nat.add_le_add_right after gap).trans (reached now.toNat List.mem_cons_self)
            | inr inside => exact reached time inside

end Steps

theorem queued_ascending (cache : TimeAwareCache) : ((queued cache).map Prod.fst).Pairwise (· < ·) := by
  rw [queued, List.map_map]
  exact (List.map_id _).symm ▸ (List.pairwise_lt_finRange cacheSize).filter _

-- Once nothing new arrives, an idle relay sends the packets that are due in the
-- order of their slots, each once, and has started the last of them after one
-- round per packet.
theorem queue_drains (state : RelayState) (start : Millis) (later : List Event) (gap : Nat) (idle : state.isBroadcasting = false)
    (due : ∀ i, Pending (read state.cache i) → (read state.cache i).broadcastTime ≤ start)
    (foreign : ∀ event ∈ later, Foreign event) (punctual : Punctual gap (loopTimes (.loop start :: later)))
    (fits : ∀ time ∈ loopTimes (.loop start :: later), time + 500 < 2 ^ 32) :
    burstsOf (log step state (.loop start :: later)) <+: queued state.cache ∧
    ((burstsOf (log step state (.loop start :: later))).map Prod.fst).Pairwise (· < ·) ∧
    ((∃ time ∈ loopTimes (.loop start :: later), start.toNat + (queued state.cache).length * roundTime gap ≤ time) →
      burstsOf (log step state (.loop start :: later)) = queued state.cache) := by
  have initial : Draining (queued state.cache) start.toNat gap start.toNat [] state := by
    refine ⟨?_, due, fun busy => absurd (busy.symm.trans idle) (by decide), fun busy => absurd (busy.symm.trans idle) (by decide),
      fun _ _ => Nat.le_add_right _ _⟩
    rw [remaining, if_neg (ne_true_of_eq_false idle)]
    rfl
  have begun := draining_step _ _ gap _ _ state (loop state start).1 start _ (loop_effect state start) (Nat.le_refl _) (Nat.le_refl _)
    (fits start.toNat List.mem_cons_self) initial
  obtain ⟨limit, done, reached⟩ := draining_run _ _ gap later start.toNat _ _ foreign punctual (Nat.le_refl _)
    (fun time member => fits time (List.mem_cons_of_mem _ member)) begun
  rw [List.nil_append, ← bursts_loop] at done
  have front : burstsOf (log step state (.loop start :: later)) <+: queued state.cache := ⟨_, done.order⟩
  refine ⟨front, (queued_ascending state.cache).sublist (front.sublist.map Prod.fst), fun late => ?_⟩
  obtain ⟨time, member, after⟩ := late
  have beyond := reached time member
  refine front.eq_of_length_le (Nat.le_of_not_lt fun fewer => ?_)
  -- A round is missing, though the clock has left room for all of them.
  have round : (burstsOf (log step state (.loop start :: later))).length * roundTime gap + roundTime gap ≤
      (queued state.cache).length * roundTime gap := by
    rw [← Nat.succ_mul]
    exact Nat.mul_le_mul_right _ fewer
  have positive : 500 + 2 * gap = roundTime gap := rfl
  cases flag : (final step (loop state start).1 later).isBroadcasting with
  | true =>
      obtain ⟨close, ends⟩ := done.busy flag
      omega
  | false =>
      have waiting : queued (final step (loop state start).1 later).cache ≠ [] := by
        intro empty
        have order := done.order
        rw [remaining, if_neg (ne_true_of_eq_false flag), empty, List.append_nil] at order
        rw [order] at fewer
        exact Nat.lt_irrefl _ fewer
      have intime := done.idle flag waiting
      omega

def waitingPair : List Event :=
  [.onResult ⟨some (sampleFrame 20 1), 1⟩ 0 false 50, .onResult ⟨some (sampleFrame 20 2), 2⟩ 10 false 60]

def quietHours : List Event :=
  [.onResult ⟨none, 9⟩ 300 false 0, .loop 570, .loop 1070, .loop 1570, .loop 2070, .loop 2570, .loop 3070]

theorem waiting_pair_drains :
    burstsOf (log step (relayState waitingPair) (.loop 70 :: quietHours)) = queued (relayState waitingPair).cache :=
  (queue_drains (relayState waitingPair) 70 quietHours 500 (by decide +kernel) (by decide +kernel)
    (by simp [quietHours, Foreign, receivedPacket]) (by decide) (by decide)).2.2 ⟨3070, by decide, by decide +kernel⟩

end BeaconMesh.Arduino
