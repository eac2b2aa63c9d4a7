import BeaconMesh.EspNetwork
import BeaconMesh.MurmurHash

set_option autoImplicit false

namespace BeaconMesh.Arduino

open History LittleEndian MurmurHash

-- "+40712345678"
def victimPhone : Bytes := [0x2b, 0x34, 0x30, 0x37, 0x31, 0x32, 0x33, 0x34, 0x35, 0x36, 0x37, 0x38]

def murmurSeed : MurmurHash.Word := 112

def useGps : Bool := true

def testLatitude : Int32 := 444378000

def testLongitude : Int32 := 260472000

-- Minutes since the epoch on 01/07/2026, 00:00
def timeOffset : UInt32 := 1782864000 / 60

def victimNonce : UInt64 := 1

-- What buildEmergencyPacket puts into the packet when time(nullptr) answers
-- the given second.
def emergencyAt (seconds : Nat) : Emergency where
  phone := UInt32.ofBitVec (murmurHash3X86_32 victimPhone murmurSeed)
  timestamp := timeOffset + UInt32.ofNat (seconds / 60)
  location := if useGps then .gps testLatitude testLongitude else .nonce victimNonce

structure VictimState where
  lastMinute : UInt32
  globalPacket : EmergencyPacket
  advertisementData : Bytes
deriving DecidableEq, Repr

-- time(nullptr) in the test of loop, in its assignment, and in
-- buildEmergencyPacket.
structure Readings where
  tested : Nat
  assigned : Nat
  stamped : Nat
deriving DecidableEq, Repr

-- One iteration: whether it replaced the packet, and the frame that is on air
-- between start and stop.
structure Broadcast where
  updated : Bool
  onAir : Bytes
deriving DecidableEq, Repr

section Loop

variable (mdHmac : Bytes → Bytes → Option Digest)

-- The packet is built but lastMinute keeps its initial value.
def victimSetup (seconds : Nat) : VictimState :=
  let packet := buildEmergencyPacket mdHmac (emergencyAt seconds)
  ⟨timeOffset, packet, payloadData packet⟩

def victimLoop (state : VictimState) (readings : Readings) : VictimState × Broadcast :=
  let changed := readings.tested / 60 ≠ state.lastMinute.toNat
  let next :=
    if changed then
      let packet := buildEmergencyPacket mdHmac (emergencyAt readings.stamped)
      ⟨UInt32.ofNat (readings.assigned / 60), packet, payloadData packet⟩
    else state
  (next, ⟨decide changed, next.advertisementData⟩)

theorem loop_changed (state : VictimState) (readings : Readings) (changed : readings.tested / 60 ≠ state.lastMinute.toNat) :
    (victimLoop mdHmac state readings).1.lastMinute = UInt32.ofNat (readings.assigned / 60) ∧
      (victimLoop mdHmac state readings).2.updated = true := by
  simp only [victimLoop, if_pos changed]
  exact ⟨trivial, decide_eq_true changed⟩

theorem loop_unchanged (state : VictimState) (readings : Readings) (same : readings.tested / 60 = state.lastMinute.toNat) :
    (victimLoop mdHmac state readings).1 = state ∧ (victimLoop mdHmac state readings).2.updated = false := by
  have still := not_not_intro same
  simp only [victimLoop, if_neg still]
  exact ⟨trivial, decide_eq_false still⟩

def victimLog (start : Nat) (iterations : List Readings) : List (Readings × Broadcast) :=
  log (victimLoop mdHmac) (victimSetup mdHmac start) iterations

end Loop

-- The clock does not run backwards from one reading to the next.
def Ticking : Nat → List Readings → Prop
  | _, [] => True
  | latest, readings :: rest =>
      latest ≤ readings.tested ∧ readings.tested ≤ readings.assigned ∧ readings.assigned ≤ readings.stamped ∧
        Ticking readings.stamped rest

-- The clock counts from the start of the device: it stands below the offset.
def Unset (iterations : List Readings) : Prop := ∀ readings ∈ iterations, readings.stamped / 60 < timeOffset.toNat

section Fresh

variable (hmac : Bytes → Bytes → Digest)

abbrev sureHmac : Bytes → Bytes → Option Digest := fun key bytes => some (hmac key bytes)

-- The packet on show was stamped no earlier than the minute on record.
def Shows (state : VictimState) (latest : Nat) : Prop :=
  ∃ seconds, seconds ≤ latest ∧ state.advertisementData = payloadData (built hmac (emergencyAt seconds)) ∧
    (state.lastMinute = timeOffset ∨ state.lastMinute.toNat ≤ seconds / 60)

theorem setup_shows (start : Nat) : Shows hmac (victimSetup (sureHmac hmac) start) start :=
  ⟨start, Nat.le_refl start, rfl, Or.inl rfl⟩

theorem minute_fits (seconds : Nat) (unset : seconds / 60 < timeOffset.toNat) : (UInt32.ofNat (seconds / 60)).toNat = seconds / 60 :=
  UInt32.toNat_ofNat_of_lt' (unset.trans (UInt32.toNat_lt timeOffset))

theorem loop_shows (state : VictimState) (latest : Nat) (readings : Readings) (shows : Shows hmac state latest)
    (later : latest ≤ readings.tested) (tested : readings.tested ≤ readings.assigned) (assigned : readings.assigned ≤ readings.stamped)
    (unset : readings.stamped / 60 < timeOffset.toNat) :
    Shows hmac (victimLoop (sureHmac hmac) state readings).1 readings.stamped ∧
      ∃ seconds, readings.tested / 60 ≤ seconds / 60 ∧ seconds ≤ readings.stamped ∧
        (victimLoop (sureHmac hmac) state readings).2.onAir = payloadData (built hmac (emergencyAt seconds)) := by
  obtain ⟨seconds, past, shown, recorded⟩ := shows
  by_cases changed : readings.tested / 60 ≠ state.lastMinute.toNat
  · have minute := minute_fits readings.assigned (by omega)
    simp only [victimLoop, if_pos changed]
    refine ⟨⟨readings.stamped, Nat.le_refl _, rfl, Or.inr ?_⟩, readings.stamped, by omega, Nat.le_refl _, rfl⟩
    rw [minute]
    exact Nat.div_le_div_right assigned
  · have same : readings.tested / 60 = state.lastMinute.toNat := not_not.mp changed
    simp only [victimLoop, if_neg changed]
    refine ⟨⟨seconds, by omega, shown, recorded⟩, seconds, ?_, by omega, shown⟩
    cases recorded with
    | inl initial =>
        rw [initial] at same
        omega
    | inr minute => omega

theorem log_fresh (state : VictimState) (latest : Nat) (iterations : List Readings) (shows : Shows hmac state latest)
    (ticking : Ticking latest iterations) (unset : Unset iterations) :
    ∀ entry ∈ log (victimLoop (sureHmac hmac)) state iterations, ∃ seconds, entry.1.tested / 60 ≤ seconds / 60 ∧
      seconds ≤ entry.1.stamped ∧ entry.2.onAir = payloadData (built hmac (emergencyAt seconds)) := by
  induction iterations generalizing state latest with
  | nil => exact fun entry member => absurd member List.not_mem_nil
  | cons readings rest ih =>
      obtain ⟨later, tested, assigned, ahead⟩ := ticking
      obtain ⟨next, fresh⟩ := loop_shows hmac state latest readings shows later tested assigned (unset readings List.mem_cons_self)
      intro entry member
      cases List.mem_cons.mp member with
      | inl here =>
          rw [here]
          exact fresh
      | inr there => exact ih _ _ next ahead (fun other inside => unset other (List.mem_cons_of_mem readings inside)) entry there

theorem built_intact (emergency : Emergency) : Intact hmac (payloadData (built hmac emergency)) emergency 0 := by
  have intact := aged_intact hmac emergency 0 (by decide)
  rwa [aged_built] at intact

theorem stamp_value (seconds : Nat) (unset : seconds / 60 < timeOffset.toNat) :
    (emergencyAt seconds).timestamp.toNat = timeOffset.toNat + seconds / 60 := by
  have offset : timeOffset.toNat = 29714400 := by decide
  change (timeOffset + UInt32.ofNat (seconds / 60)).toNat = _
  rw [UInt32.toNat_add, minute_fits seconds unset]
  omega

-- In every iteration the frame on air carries the current minute, verifies,
-- and reads as what the victim stands for.
theorem victim_frames_fresh (start : Nat) (iterations : List Readings) (ticking : Ticking start iterations) (unset : Unset iterations) :
    ∀ entry ∈ victimLog (sureHmac hmac) start iterations, ∃ seconds,
      entry.1.tested / 60 ≤ seconds / 60 ∧ seconds / 60 ≤ entry.1.stamped / 60 ∧
      (emergencyAt seconds).timestamp.toNat = 29714400 + seconds / 60 ∧ Intact hmac entry.2.onAir (emergencyAt seconds) 0 := by
  intro entry member
  obtain ⟨seconds, current, past, frame⟩ := log_fresh hmac _ start iterations (setup_shows hmac start) ticking unset entry member
  have logged : entry.1 ∈ iterations := by
    rw [← log_events (victimLoop (sureHmac hmac)) (victimSetup (sureHmac hmac) start) iterations]
    exact List.mem_map_of_mem member
  have bound := unset entry.1 logged
  refine ⟨seconds, current, Nat.div_le_div_right past, stamp_value seconds (by omega), ?_⟩
  rw [frame]
  exact built_intact hmac (emergencyAt seconds)

end Fresh

section Updates

variable (mdHmac : Bytes → Bytes → Option Digest)

def updates (entries : List (Readings × Broadcast)) : Nat := entries.countP fun entry => entry.2.updated

theorem updates_cons (entry : Readings × Broadcast) (rest : List (Readings × Broadcast)) :
    updates (entry :: rest) = updates rest + if entry.2.updated then 1 else 0 := List.countP_cons

theorem updates_after (state : VictimState) (latest bound : Nat) (iterations : List Readings) (ticking : Ticking latest iterations)
    (unset : Unset iterations) (within : ∀ readings ∈ iterations, readings.stamped ≤ bound)
    (recorded : state.lastMinute.toNat ≤ latest / 60) :
    updates (log (victimLoop mdHmac) state iterations) ≤ bound / 60 - state.lastMinute.toNat := by
  induction iterations generalizing state latest with
  | nil => exact Nat.zero_le _
  | cons readings rest ih =>
      obtain ⟨later, tested, assigned, ahead⟩ := ticking
      have stamped := within readings List.mem_cons_self
      have low := unset readings List.mem_cons_self
      have next := ih (victimLoop mdHmac state readings).1 readings.stamped ahead
        (fun other inside => unset other (List.mem_cons_of_mem readings inside))
        fun other inside => within other (List.mem_cons_of_mem readings inside)
      rw [log, updates_cons]
      by_cases changed : readings.tested / 60 ≠ state.lastMinute.toNat
      · obtain ⟨minute, updated⟩ := loop_changed mdHmac state readings changed
        rw [minute, minute_fits readings.assigned (by omega)] at next
        rw [if_pos updated]
        have after := next (by omega)
        omega
      · obtain ⟨kept, still⟩ := loop_unchanged mdHmac state readings (not_not.mp changed)
        rw [kept] at next
        rw [if_neg (by rw [still]; exact Bool.false_ne_true), kept]
        exact next (by omega)

-- Setup leaves lastMinute at the offset, so the first iteration updates; from
-- then on there is at most one update for each minute that passes.
theorem victim_updates_bounded (start bound : Nat) (iterations : List Readings) (ticking : Ticking start iterations)
    (unset : Unset iterations) (within : ∀ readings ∈ iterations, readings.stamped ≤ bound) :
    updates (victimLog mdHmac start iterations) ≤ bound / 60 - start / 60 + 1 := by
  cases iterations with
  | nil => exact Nat.zero_le _
  | cons readings rest =>
      obtain ⟨later, tested, assigned, ahead⟩ := ticking
      have stamped := within readings List.mem_cons_self
      have low := unset readings List.mem_cons_self
      have first : readings.tested / 60 ≠ (victimSetup mdHmac start).lastMinute.toNat := by
        change readings.tested / 60 ≠ timeOffset.toNat
        omega
      obtain ⟨minute, updated⟩ := loop_changed mdHmac _ readings first
      have after := updates_after mdHmac (victimLoop mdHmac (victimSetup mdHmac start) readings).1 readings.stamped bound rest ahead
        (fun other inside => unset other (List.mem_cons_of_mem readings inside))
        fun other inside => within other (List.mem_cons_of_mem readings inside)
      rw [minute, minute_fits readings.assigned (by omega)] at after
      rw [victimLog, log, updates_cons, if_pos updated]
      have counted := after (by omega)
      omega

end Updates

-- The minute turns between two readings of the second iteration.
def sampleIterations : List Readings := [⟨10, 10, 10⟩, ⟨59, 60, 60⟩, ⟨64, 64, 64⟩]

def zeroHmac : Bytes → Bytes → Digest := fun _ _ => Vector.replicate 32 0

theorem sample_ticking : Ticking 5 sampleIterations := by simp [Ticking, sampleIterations]

theorem sample_unset : Unset sampleIterations := by
  unfold Unset
  decide

theorem sample_frames_fresh :
    (victimLog (sureHmac zeroHmac) 5 sampleIterations).length = 3 ∧
    ∀ entry ∈ victimLog (sureHmac zeroHmac) 5 sampleIterations, ∃ seconds,
      entry.1.tested / 60 ≤ seconds / 60 ∧ seconds / 60 ≤ entry.1.stamped / 60 ∧
      (emergencyAt seconds).timestamp.toNat = 29714400 + seconds / 60 ∧ Intact zeroHmac entry.2.onAir (emergencyAt seconds) 0 :=
  ⟨rfl, victim_frames_fresh zeroHmac 5 sampleIterations sample_ticking sample_unset⟩

theorem sample_updates_bounded : updates (victimLog (sureHmac zeroHmac) 5 sampleIterations) ≤ 64 / 60 - 5 / 60 + 1 :=
  victim_updates_bounded (sureHmac zeroHmac) 5 64 sampleIterations sample_ticking sample_unset (by decide)

end BeaconMesh.Arduino
