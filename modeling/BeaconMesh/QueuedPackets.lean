import BeaconMesh.BurstCompletion

set_option autoImplicit false

namespace BeaconMesh.Arduino

open Sweep History

-- Why the packet that callback i queued in slot k waits no more at step m: its
-- own burst is over, others have covered it, or its slot was taken.
inductive Released (events : List Event) (i m : Nat) (k : Slot) (packet : EmergencyPacket) : Event → Output → Prop where
  | sent (j : Nat) (started now : Millis) (cancelled : List Slot) (transmits : Transmits (relayLog events) i j)
      (burst : (relayLog events)[j]? = some (.loop started, .scanned cancelled (some (k, rebroadcastData (relayedPacket packet)))))
      (before : j < m) (during : ∀ n, j < n → n ≤ m → OnAir events n) : Released events i m k packet (.loop now) (.burstEnded k.val)
  | covered (now : Millis) (cancelled : List Slot) (burst : Option (Slot × Bytes)) (row : k ∈ cancelled)
      (heard : redundancy ≤ (read (relayState (events.take m)).cache k).rxCount) :
      Released events i m k packet (.loop now) (.scanned cancelled burst)
  | displaced (device : Advertisement) (now : Millis) (wifi : Bool) (jitter : Millis) (output : Output)
      (cause : Displaced k (relayState (events.take m)).cache now output) :
      Released events i m k packet (.onResult device now wifi jitter) output

section Waiting

variable (events : List Event) (i : Nat) (device : Advertisement) (stored jitter drawn : Millis) (wifi : Bool) (k : Slot)
  (payloadRaw : Bytes) (packet : EmergencyPacket)
  (queued : (relayLog events)[i]? = some (.onResult device stored wifi jitter, .queued k drawn))

include queued

theorem queued_begins (received : receivedPacket device = some (payloadRaw, packet)) :
    Awaits packet stored jitter (read (relayState (events.take (i + 1))).cache k) := by
  obtain ⟨output, next⟩ := log_at step .start events i _ queued
  rw [relayState, next]
  exact queued_awaits _ _ _ _ _ _ _ (on_result_effect (relayState (events.take i)) device stored wifi jitter) k drawn output.symm
    payloadRaw packet received

variable (spares : SparesBurst (relayState (events.take i)) (.onResult device stored wifi jitter))

include spares

-- A burst from the slot that runs while its packet waits is that packet's own:
-- it cannot have begun before the packet came.
theorem burst_after_queued (m j : Nat) (after : i < m) (burst : At (Bursts k) (relayLog events) j)
    (during : ∀ n, j < n → n ≤ m → OnAir events n ∧ (relayState (events.take n)).currentBroadcastIndex = k.val) : i < j := by
  have stores : At (Stores k) (relayLog events) i := ⟨_, queued, rfl⟩
  rcases Nat.lt_trichotomy j i with early | same | late
  · obtain ⟨onAir, index⟩ := during i early after.le
    obtain ⟨event, found, unspared⟩ := store_on_air events i k onAir index stores
    obtain rfl : event = .onResult device stored wifi jitter :=
      Option.some.inj (found.symm.trans (log_position step .start events i _ queued))
    exact absurd spares unspared
  · exact absurd (same ▸ stores) (burst_not_store events j k k burst)
  · exact late

theorem ended_sent (m : Nat) (now : Millis) (after : i < m) (inside : m ≤ events.length)
    (awaits : ∀ n, i < n → n ≤ m → Awaits packet stored jitter (read (relayState (events.take n)).cache k))
    (alone : ∀ n, i < n → n < m → ¬ At (Stores k) (relayLog events) n) (busy : OnAir events m)
    (index : (relayState (events.take m)).currentBroadcastIndex = k.val) :
    Released events i m k packet (.loop now) (.burstEnded k.val) := by
  obtain ⟨j, slot, before, burst, during⟩ := airing events m inside busy
  obtain rfl : slot = k := Fin.ext (by exact_mod_cast (during m before le_rfl).2.symm.trans index)
  have late := burst_after_queued events i device stored jitter drawn wifi slot queued spares m j after burst during
  obtain ⟨started, cancelled, frame, _, found, start⟩ := burst_entry events j slot burst
  have content := (awaits j late before.le).packet
  refine .sent j started now cancelled ⟨slot, ⟨_, queued, rfl⟩, burst, late, fun n since early => alone n since (early.trans before)⟩ ?_ before
    fun n since reached => (during n since reached).1
  rw [found, start.frame, content]

-- A queued packet stays pending in its slot, under its deadlines, up to the
-- first step that releases it.
theorem queued_packet_retention (received : receivedPacket device = some (payloadRaw, packet)) :
    ∃ m, i < m ∧ m ≤ events.length ∧
      (∀ n, i < n → n ≤ m → Awaits packet stored jitter (read (relayState (events.take n)).cache k)) ∧
      (m = events.length ∨ ∃ event output, (relayLog events)[m]? = some (event, output) ∧ Released events i m k packet event output) := by
  have inside : i + 1 ≤ events.length := by
    have bound := (List.getElem?_eq_some_iff.mp queued).1
    simpa [relayLog] using bound
  obtain ⟨m, after, last, awaits, alone, stop⟩ := held_until step .start
    (fun state => Awaits packet stored jitter (read state.cache k)) (fun record => ¬ Stores k record) (Frees k)
    (fun state event waiting => (step_keeps_queued state event k waiting.pending).imp_left fun kept =>
      ⟨awaits_undisturbed packet stored jitter _ _ waiting kept.1, kept.2⟩)
    events (i + 1) inside (queued_begins events i device stored jitter drawn wifi k payloadRaw packet queued received)
  refine ⟨m, after, last, awaits, stop.imp_right ?_⟩
  rintro ⟨event, output, found, frees⟩
  refine ⟨event, output, found, ?_⟩
  cases frees with
  | ended now busy index =>
      refine ended_sent events i device stored jitter drawn wifi k packet queued spares m now after last awaits (fun n since early => ?_) busy index
      obtain ⟨record, here, elsewhere⟩ := alone n since early
      rintro ⟨other, there, stores⟩
      obtain rfl : record = other := Option.some.inj (here.symm.trans there)
      exact elsewhere stores
  | covered now cancelled burst row heard due => exact .covered now cancelled burst row heard
  | displaced other now online drawnThere _ cause => exact .displaced other now online drawnThere _ cause

end Waiting

-- Five packets are queued within five milliseconds; the bursts of the first
-- four take the radio beyond the lifetime of the fifth, which the callback at
-- 2064 deactivates before it was ever transmitted.
def congestedRun : List Event :=
  [.onResult ⟨some (sampleFrame 20 1), 1⟩ 0 false 50, .onResult ⟨some (sampleFrame 20 2), 1⟩ 1 false 50,
    .onResult ⟨some (sampleFrame 20 3), 1⟩ 2 false 50, .onResult ⟨some (sampleFrame 20 4), 1⟩ 3 false 50,
    .onResult ⟨some (sampleFrame 20 5), 1⟩ 4 false 50, .loop 60, .loop 560, .loop 561, .loop 1061, .loop 1062,
    .loop 1562, .loop 1563, .loop 2063]

def lateArrival : Event := .onResult ⟨some (sampleFrame 20 6), 1⟩ 2064 false 50

theorem queued_packet_expires :
    ¬ ∀ events device now jitter k, BleRelayMode (events ++ [.onResult device now false jitter]) →
      JittersInRange (events ++ [.onResult device now false jitter]) →
      Nondecreasing (events ++ [.onResult device now false jitter]) → Pending (read (relayState events).cache k) →
      Undisturbed (read (relayState events).cache k)
        (read (relayState (events ++ [.onResult device now false jitter])).cache k) := by
  intro claimed
  have pending : Pending (read (relayState congestedRun).cache 4) := by decide +kernel
  have gone : (read (relayState (congestedRun ++ [lateArrival])).cache 4).active = false := by decide +kernel
  have kept := claimed congestedRun ⟨some (sampleFrame 20 6), 1⟩ 2064 50 4 (by decide) (by decide) (by decide) pending
  exact Bool.false_ne_true (gone.symm.trans kept.active)

theorem congested_run_retention :
    ∃ m, 4 < m ∧ m ≤ (congestedRun ++ [lateArrival]).length ∧
      (∀ n, 4 < n → n ≤ m → Awaits (.ofBytes ((sampleFrame 20 5).drop 2)) 4 50
        (read (relayState ((congestedRun ++ [lateArrival]).take n)).cache 4)) ∧
      (m = (congestedRun ++ [lateArrival]).length ∨ ∃ event output, (relayLog (congestedRun ++ [lateArrival]))[m]? = some (event, output) ∧
        Released (congestedRun ++ [lateArrival]) 4 m 4 (.ofBytes ((sampleFrame 20 5).drop 2)) event output) :=
  queued_packet_retention (congestedRun ++ [lateArrival]) 4 ⟨some (sampleFrame 20 5), 1⟩ 4 50 50 false 4 (sampleFrame 20 5) _
    (by decide +kernel) (fun never => absurd never (by decide +kernel)) rfl

end BeaconMesh.Arduino
