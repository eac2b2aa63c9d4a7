import BeaconMesh.RelayDrain
import BeaconMesh.RelayStatus

set_option autoImplicit false

namespace BeaconMesh.Arduino

open Sweep History

-- What a relay prints on its serial port once setup is through.
inductive SerialLine where
  | status (text : Option String)
  | forwarded
  | queued (jitter : Millis)
  | expired
  | known
  | completed
  | starting
  | started (row : Slot)
  | cancelled (times : UInt8) (row : Slot)
deriving DecidableEq, Repr

-- println ends its line, also the completed one that has ended already. Slots
-- and what random(50, 201) draws are numbers that %d shows as they are.
def SerialLine.text : SerialLine → Option String
  | .status text => text.map (· ++ "\r\n")
  | .forwarded => some "[EXIT] Packet forwarded via UDP Burst.\r\n"
  | .queued jitter => some ("[QUEUE] Packet queued. Jitter: " ++ toString jitter.toNat ++ " ms\r\n")
  | .expired => some "[DROP] Package TTL has expired.\r\n"
  | .known => some "[DROP] Packet already in cache.\r\n"
  | .completed => some "[BROADCAST] Transmission completed and stopped.\r\n\r\n"
  | .starting => some "[BROADCAST] Starting broadcast\r\n"
  | .started row => some ("[FORWARD] Air clear. Started 500ms burst for row " ++ toString row.val ++ ".\r\n")
  | .cancelled times row =>
      some ("[CANCEL] Broadcast Storm prevented. Heard " ++ toString times.toNat ++ " times. Aborted row " ++ toString row.val ++ ".\r\n")

-- A packet that comes with TTL 0 is dropped without a line.
def decisionLines : Output → List SerialLine
  | .duplicate _ => [.known]
  | .forwarded _ _ _ => [.forwarded]
  | .queued _ jitter => [.queued jitter]
  | .ttlExpired => [.expired]
  | .ttlZero => []
  | .ignored => []
  | .transmitting => []
  | .burstEnded _ => []
  | .scanned _ _ => []

def callbackLines (state : RelayState) (advertisedDevice : Advertisement) (now : Millis) (output : Output) : List SerialLine :=
  match receivedPacket advertisedDevice with
  | none => []
  | some (_, packet) => .status (printedStatus state advertisedDevice now packet) :: decisionLines output

def burstLines : Option (Slot × Bytes) → List SerialLine
  | some (row, _) => [.starting, .started row]
  | none => []

-- The scan cancels rows on its way to the one it sends.
def loopLines (state : RelayState) : Output → List SerialLine
  | .scanned cancelled burst => cancelled.map (fun row => .cancelled (read state.cache row).rxCount row) ++ burstLines burst
  | .burstEnded _ => [.completed]
  | .transmitting => []
  | .ignored => []
  | .duplicate _ => []
  | .forwarded _ _ _ => []
  | .queued _ _ => []
  | .ttlExpired => []
  | .ttlZero => []

def stepLines (state : RelayState) : Event → List SerialLine
  | .onResult advertisedDevice now wifiConnected jitter =>
      callbackLines state advertisedDevice now (onResult state advertisedDevice now wifiConnected jitter).2
  | .loop now => loopLines state (loop state now).2

def linesFrom (state : RelayState) : List Event → List SerialLine
  | [] => []
  | event :: rest => stepLines state event ++ linesFrom (step state event).1 rest

def serialLog (events : List Event) : List SerialLine := linesFrom .start events

def startedRow : SerialLine → Option Slot
  | .started row => some row
  | _ => none

def onAirCount (state : RelayState) : Nat := if state.isBroadcasting then 1 else 0

-- What the lines of one step tell about it.
structure Tells (before after : RelayState) (output : Output) (lines : List SerialLine) : Prop where
  rows : lines.filterMap startedRow = ((startedBurst output).map Prod.fst).toList
  onAir : onAirCount before + lines.count .starting = onAirCount after + lines.count .completed
  uploads : 3 * lines.count .forwarded = (sentDatagrams output).length
  heard : ∀ times row, .cancelled times row ∈ lines → times = 4

theorem lines_append (state : RelayState) (past later : List Event) :
    linesFrom state (past ++ later) = linesFrom state past ++ linesFrom (final step state past) later := by
  induction past generalizing state with
  | nil => rfl
  | cons event rest ih => rw [List.cons_append, linesFrom, linesFrom, ih, List.append_assoc, final_cons]

theorem serial_snoc (past : List Event) (event : Event) :
    serialLog (past ++ [event]) = serialLog past ++ stepLines (relayState past) event := by
  rw [serialLog, lines_append, linesFrom, linesFrom, List.append_nil]
  rfl

theorem on_air_same (before after : RelayState) (burst : SameBurst before after) : onAirCount after = onAirCount before := by
  rw [onAirCount, onAirCount, burst.broadcasting]

-- rx_count does not pass MAX_TRACKED_MACS, which is REDUNDANCY.
theorem heard_enough (entry : CacheEntry) (good : GoodEntry entry) (active : entry.active = true)
    (heard : ¬ entry.rxCount < redundancy) : entry.rxCount = 4 := by
  have room : entry.rxCount.toNat ≤ 4 := (good.counted active).2
  have enough : redundancy.toNat ≤ entry.rxCount.toNat := Nat.not_lt.mp fun less => heard (UInt8.lt_iff_toNat_lt.mpr less)
  exact UInt8.toNat_inj.mp (Nat.le_antisymm room enough)

theorem status_tells (before after : RelayState) (output : Output) (text : Option String) (decision : List SerialLine)
    (tells : Tells before after output decision) : Tells before after output (.status text :: decision) := by
  obtain ⟨rows, onAir, uploads, heard⟩ := tells
  refine ⟨rows, ?_, ?_, fun times row member => ?_⟩
  · rwa [List.count_cons_of_ne (by simp), List.count_cons_of_ne (by simp)]
  · rwa [List.count_cons_of_ne (by simp)]
  · exact heard times row (by simpa using member)

theorem decision_tells (before after : RelayState) (device : Advertisement) (now : Millis) (wifi : Bool) (jitter : Millis) (output : Output)
    (effect : CallbackEffect before device now wifi jitter after output) : Tells before after output (decisionLines output) := by
  have burst := callback_burst _ _ _ _ _ _ _ effect
  have same := on_air_same before after burst
  cases effect with
  | ignored => exact ⟨rfl, rfl, rfl, by simp [decisionLines]⟩
  | duplicate => exact ⟨rfl, same.symm, rfl, by simp [decisionLines]⟩
  | dropped payloadRaw packet _ _ received offline absent spent purged burst silent =>
      cases silent with
      | inl expired =>
          subst expired
          exact ⟨rfl, same.symm, rfl, by simp [decisionLines]⟩
      | inr zero =>
          subst zero
          exact ⟨rfl, same.symm, rfl, by simp [decisionLines]⟩
  | queued => exact ⟨rfl, same.symm, rfl, by simp [decisionLines]⟩
  | forwarded => exact ⟨rfl, same.symm, rfl, by simp [decisionLines]⟩

theorem callback_tells (state : RelayState) (device : Advertisement) (now : Millis) (wifi : Bool) (jitter : Millis) :
    Tells state (onResult state device now wifi jitter).1 (onResult state device now wifi jitter).2
      (stepLines state (.onResult device now wifi jitter)) := by
  have decided := decision_tells _ _ _ _ _ _ _ (on_result_effect state device now wifi jitter)
  rw [stepLines, callbackLines]
  cases received : receivedPacket device with
  | none =>
      simp only [onResult, received]
      exact ⟨rfl, rfl, rfl, by simp⟩
  | some pair => exact status_tells _ _ _ _ _ decided

-- Neither starts nor ends of bursts are among the cancelled rows.
theorem cancelled_count (state : RelayState) (cancelled : List Slot) (line : SerialLine) (other : ∀ times row, line ≠ .cancelled times row) :
    (cancelled.map fun row => SerialLine.cancelled (read state.cache row).rxCount row).count line = 0 := by
  refine List.count_eq_zero.mpr fun member => ?_
  obtain ⟨row, _, same⟩ := List.mem_map.mp member
  exact other _ _ same.symm

theorem cancelled_rows (state : RelayState) (cancelled : List Slot) :
    (cancelled.map fun row => SerialLine.cancelled (read state.cache row).rxCount row).filterMap startedRow = [] := by
  refine List.filterMap_eq_nil_iff.mpr fun line member => ?_
  obtain ⟨row, _, rfl⟩ := List.mem_map.mp member
  rfl

theorem scanned_tells (before after : RelayState) (inv : CacheInvariant before) (now : Millis) (cancelled : List Slot)
    (burst : Option (Slot × Bytes))
    (rows : ∀ i ∈ cancelled, Due now (read before.cache i) ∧ ¬ (read before.cache i).rxCount < redundancy)
    (onAir : onAirCount before + (burstLines burst).count .starting = onAirCount after) :
    Tells before after (.scanned cancelled burst) (loopLines before (.scanned cancelled burst)) := by
  refine ⟨?_, ?_, ?_, fun times row member => ?_⟩
  · rw [loopLines, List.filterMap_append, cancelled_rows]
    cases burst <;> rfl
  · rw [loopLines, List.count_append, List.count_append, cancelled_count before cancelled .starting (by simp),
      cancelled_count before cancelled .completed (by simp), ← onAir]
    cases burst <;> simp [burstLines]
  · rw [loopLines, List.count_append, cancelled_count before cancelled .forwarded (by simp)]
    cases burst <;> rfl
  · rw [loopLines] at member
    cases List.mem_append.mp member with
    | inl listed =>
        obtain ⟨i, there, same⟩ := List.mem_map.mp listed
        obtain ⟨rfl, rfl⟩ := SerialLine.cancelled.inj same
        obtain ⟨due, heard⟩ := rows i there
        exact heard_enough _ (inv.entries i) due.1.1 heard
    | inr announced => cases burst <;> simp [burstLines] at announced

theorem loop_tells (state : RelayState) (inv : CacheInvariant state) (now : Millis) :
    Tells state (loop state now).1 (loop state now).2 (stepLines state (.loop now)) := by
  have effect := loop_effect state now
  rw [stepLines]
  generalize (loop state now).1 = after, (loop state now).2 = output at effect
  cases effect with
  | transmitting => exact ⟨rfl, rfl, rfl, by simp [loopLines]⟩
  | ended busy => exact ⟨rfl, by rw [onAirCount, if_pos busy]; rfl, rfl, by simp [loopLines]⟩
  | started row cancelled _ idle due unheard earlier rows cells broadcasting =>
      refine scanned_tells state after inv now cancelled _ (fun i member => ((rows i).mp member).1) ?_
      rw [onAirCount, onAirCount, if_pos broadcasting, if_neg (by rw [idle]; exact Bool.false_ne_true)]
      rfl
  | quiet cancelled _ idle covered rows cells burst =>
      exact scanned_tells state after inv now cancelled none (fun i member => (rows i).mp member) (on_air_same _ _ burst).symm

theorem step_tells (state : RelayState) (inv : CacheInvariant state) (event : Event) :
    Tells state (step state event).1 (step state event).2 (stepLines state event) := by
  cases event with
  | onResult device now wifi jitter => exact callback_tells state device now wifi jitter
  | loop now => exact loop_tells state inv now

theorem bursts_snoc (history : List Record) (record : Record) :
    burstsOf (history ++ [record]) = burstsOf history ++ (startedBurst record.2).toList := by
  rw [burstsOf, burstsOf, List.filterMap_append]
  cases burst : startedBurst record.2 <;> simp [burst]

-- The serial log alone tells how often the relay uploaded, which rows it sent
-- and whether a burst is on air; and it cancels at the fourth sender exactly.
theorem serial_log_accounts (events : List Event) :
    (serialLog events).filterMap startedRow = (burstsOf (relayLog events)).map Prod.fst ∧
    (serialLog events).count .starting = onAirCount (relayState events) + (serialLog events).count .completed ∧
    3 * (serialLog events).count .forwarded = ((relayLog events).flatMap fun record => sentDatagrams record.2).length ∧
    ∀ times row, .cancelled times row ∈ serialLog events →
      (SerialLine.cancelled times row).text =
        some ("[CANCEL] Broadcast Storm prevented. Heard 4 times. Aborted row " ++ toString row.val ++ ".\r\n") := by
  induction events using List.reverseRecOn with
  | nil => exact ⟨rfl, rfl, rfl, fun _ _ member => absurd member List.not_mem_nil⟩
  | append_singleton past event ih =>
      obtain ⟨rows, onAir, uploads, heard⟩ := ih
      have tells := step_tells (relayState past) (reachable_invariant past) event
      have records : relayLog (past ++ [event]) = relayLog past ++ [(event, (step (relayState past) event).2)] := log_snoc step .start past event
      have next : relayState (past ++ [event]) = (step (relayState past) event).1 := final_snoc step .start past event
      rw [serial_snoc, records, next]
      refine ⟨?_, ?_, ?_, fun times row member => ?_⟩
      · rw [List.filterMap_append, rows, tells.rows, bursts_snoc, List.map_append, Option.toList_map]
      · have told := tells.onAir
        rw [List.count_append, List.count_append]
        omega
      · have told := tells.uploads
        rw [List.count_append, List.flatMap_append, List.length_append, List.flatMap_singleton]
        dsimp only
        omega
      · cases List.mem_append.mp member with
        | inl old => exact heard times row old
        | inr new =>
            rw [tells.heard times row new]
            rfl

end BeaconMesh.Arduino
