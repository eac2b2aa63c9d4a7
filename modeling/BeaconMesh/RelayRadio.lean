import BeaconMesh.BurstCompletion

set_option autoImplicit false

namespace BeaconMesh.Arduino

open Sweep History

-- The calls that drive the radio and the status LED.
inductive RadioCall where
  | scanStart
  | scanStop
  | setAdvertisementData (data : Bytes)
  | advertisingStart
  | advertisingStop
  | digitalWrite (high : Bool)
deriving DecidableEq, Repr

structure Radio where
  scanning : Bool
  advertising : Bool
  ledHigh : Bool
  data : Bytes
deriving DecidableEq, Repr

def Radio.off : Radio := ⟨false, false, false, []⟩

def Radio.call (radio : Radio) : RadioCall → Radio
  | .scanStart => { radio with scanning := true }
  | .scanStop => { radio with scanning := false }
  | .setAdvertisementData data => { radio with data := data }
  | .advertisingStart => { radio with advertising := true }
  | .advertisingStop => { radio with advertising := false }
  | .digitalWrite high => { radio with ledHigh := high }

def Radio.after (radio : Radio) (calls : List RadioCall) : Radio := calls.foldl Radio.call radio

-- setup, whose last call starts the scan.
def setupCalls : List RadioCall := [.digitalWrite false, .scanStart]

-- The calls of one callback or loop iteration, in their order.
def callsOf : Output → List RadioCall
  | .burstEnded _ => [.advertisingStop, .digitalWrite false, .scanStart]
  | .scanned _ (some (_, frame)) => [.scanStop, .setAdvertisementData frame, .digitalWrite true, .advertisingStart]
  | .scanned _ none => []
  | .ignored => []
  | .duplicate _ => []
  | .forwarded _ _ _ => []
  | .queued _ _ => []
  | .ttlExpired => []
  | .ttlZero => []
  | .transmitting => []

def callsBy (history : List Record) : List RadioCall := setupCalls ++ history.flatMap fun record => callsOf record.2

def radioCalls (events : List Event) : List RadioCall := callsBy (relayLog events)

-- One antenna: never both at once, and the LED tells which.
structure Interlocked (radio : Radio) : Prop where
  exclusive : ¬ (radio.scanning = true ∧ radio.advertising = true)
  lit : radio.advertising = true → radio.ledHigh = true
  dark : radio.scanning = true → radio.ledHigh = false

def InterlockedThroughout (radio : Radio) (calls : List RadioCall) : Prop := ∀ n, Interlocked (radio.after (calls.take n))

theorem after_append (radio : Radio) (calls later : List RadioCall) :
    radio.after (calls ++ later) = (radio.after calls).after later := List.foldl_append

theorem interlocked_append (radio : Radio) (calls later : List RadioCall) (first : InterlockedThroughout radio calls)
    (second : InterlockedThroughout (radio.after calls) later) : InterlockedThroughout radio (calls ++ later) := by
  intro n
  rw [List.take_append]
  cases Nat.le_total n calls.length with
  | inl early =>
      rw [Nat.sub_eq_zero_of_le early, List.take_zero, List.append_nil]
      exact first n
  | inr late =>
      rw [List.take_of_length_le late, after_append]
      exact second (n - calls.length)

structure Listening (radio : Radio) : Prop where
  scanning : radio.scanning = true
  silent : radio.advertising = false
  dark : radio.ledHigh = false

structure Sending (radio : Radio) (frame : Bytes) : Prop where
  deaf : radio.scanning = false
  advertising : radio.advertising = true
  lit : radio.ledHigh = true
  data : radio.data = frame

theorem listening_interlocked (radio : Radio) (listening : Listening radio) : Interlocked radio :=
  ⟨fun both => absurd (listening.silent.symm.trans both.2) Bool.false_ne_true,
    fun sends => absurd (listening.silent.symm.trans sends) Bool.false_ne_true, fun _ => listening.dark⟩

theorem sending_interlocked (radio : Radio) (frame : Bytes) (sending : Sending radio frame) : Interlocked radio :=
  ⟨fun both => absurd (sending.deaf.symm.trans both.1) Bool.false_ne_true, fun _ => sending.lit,
    fun scans => absurd (sending.deaf.symm.trans scans) Bool.false_ne_true⟩

theorem setup_listens : InterlockedThroughout .off setupCalls ∧ Listening (Radio.off.after setupCalls) := by
  refine ⟨fun n => ?_, rfl, rfl, rfl⟩
  rcases n with _ | _ | n <;> constructor <;> simp [setupCalls, Radio.after, Radio.call, Radio.off]

-- The scan stops first and the advertisement starts last.
theorem start_switches (radio : Radio) (frame : Bytes) (listening : Listening radio) (cancelled : List Slot) (k : Slot) :
    InterlockedThroughout radio (callsOf (.scanned cancelled (some (k, frame)))) ∧
      Sending (radio.after (callsOf (.scanned cancelled (some (k, frame))))) frame := by
  obtain ⟨scanning, silent, dark⟩ := listening
  refine ⟨fun n => ?_, rfl, rfl, rfl, rfl⟩
  rcases n with _ | _ | _ | _ | n <;> constructor <;> simp [callsOf, Radio.after, Radio.call, silent, dark]

theorem end_switches (radio : Radio) (frame : Bytes) (sending : Sending radio frame) (index : Int) :
    InterlockedThroughout radio (callsOf (.burstEnded index)) ∧ Listening (radio.after (callsOf (.burstEnded index))) := by
  obtain ⟨deaf, advertising, lit, data⟩ := sending
  refine ⟨fun n => ?_, rfl, rfl, rfl⟩
  rcases n with _ | _ | _ | n <;> constructor <;> simp [callsOf, Radio.after, Radio.call, deaf, lit]

def StartsBurst (record : Record) : Prop := ∃ k, Bursts k record

-- The frame that the relay's own flag says is on air is that of the last burst
-- started.
inductive Agrees (history : List Record) (state : RelayState) (radio : Radio) : Prop where
  | idle (idle : state.isBroadcasting = false) (listening : Listening radio)
  | busy (j : Nat) (now : Millis) (cancelled : List Slot) (k : Slot) (frame : Bytes) (busy : state.isBroadcasting = true)
      (started : history[j]? = some (.loop now, .scanned cancelled (some (k, frame)))) (latest : Latest StartsBurst history j)
      (index : state.currentBroadcastIndex = k.val) (endTime : state.broadcastEndTime = now + broadcastBurst)
      (sending : Sending radio frame)

theorem callback_calls (before after : RelayState) (device : Advertisement) (now : Millis) (wifi : Bool) (jitter : Millis)
    (output : Output) (effect : CallbackEffect before device now wifi jitter after output) : callsOf output = [] := by
  cases effect with
  | ignored => rfl
  | duplicate => rfl
  | dropped payloadRaw packet _ _ received offline absent spent purged burst silent =>
      cases silent with
      | inl expired =>
          rw [expired]
          rfl
      | inr zero =>
          rw [zero]
          rfl
  | queued => rfl
  | forwarded => rfl

theorem agrees_kept (history : List Record) (before after : RelayState) (radio : Radio) (record : Record)
    (burst : SameBurst before after) (quiet : ¬ StartsBurst record) (agrees : Agrees history before radio) :
    Agrees (history ++ [record]) after radio := by
  cases agrees with
  | idle idle listening => exact .idle (burst.broadcasting.trans idle) listening
  | busy j now cancelled k frame busy started latest index endTime sending =>
      have inside := (List.getElem?_eq_some_iff.mp started).1
      exact .busy j now cancelled k frame (burst.broadcasting.trans busy) (by rw [List.getElem?_append_left inside]; exact started)
        (latest_snoc_skip _ _ _ _ quiet latest) (burst.index.trans index) (burst.endTime.trans endTime) sending

theorem quiet_switches (radio : Radio) (agreed : Interlocked radio) (calls : List RadioCall) (none : calls = []) :
    InterlockedThroughout radio calls ∧ radio.after calls = radio := by
  subst none
  exact ⟨fun n => by rw [List.take_nil]; exact agreed, rfl⟩

theorem agrees_interlocked (history : List Record) (state : RelayState) (radio : Radio) (agrees : Agrees history state radio) :
    Interlocked radio := by
  cases agrees with
  | idle idle listening => exact listening_interlocked radio listening
  | busy j now cancelled k frame busy started latest index endTime sending => exact sending_interlocked radio frame sending

theorem loop_switches (history : List Record) (before after : RelayState) (radio : Radio) (now : Millis) (output : Output)
    (effect : LoopEffect before now after output) (agrees : Agrees history before radio) :
    InterlockedThroughout radio (callsOf output) ∧ Agrees (history ++ [(.loop now, output)]) after (radio.after (callsOf output)) := by
  have quiet := quiet_switches radio (agrees_interlocked history before radio agrees)
  cases effect with
  | transmitting busy early =>
      have silent : ¬ StartsBurst (.loop now, .transmitting) := by simp [StartsBurst, Bursts]
      exact ⟨(quiet [] rfl).1, agrees_kept history _ _ radio _ ⟨rfl, rfl, rfl⟩ silent agrees⟩
  | ended busy late =>
      cases agrees with
      | idle idle => exact absurd (idle.symm.trans busy) Bool.false_ne_true
      | busy j start cancelled k frame _ started latest index endTime sending =>
          obtain ⟨throughout, listening⟩ := end_switches radio frame sending before.currentBroadcastIndex
          exact ⟨throughout, .idle rfl listening⟩
  | started row cancelled _ idle due unheard earlier rows cells broadcasting endTime index =>
      cases agrees with
      | busy j start earlierRows k frame busy => exact absurd (idle.symm.trans busy) Bool.false_ne_true
      | idle _ listening =>
          obtain ⟨throughout, sending⟩ := start_switches radio (rebroadcastData (read before.cache row).packet) listening cancelled row
          exact ⟨throughout, .busy history.length now cancelled row _ broadcasting (by simp)
            (latest_snoc_hit _ _ _ ⟨row, cancelled, _, rfl⟩) index endTime sending⟩
  | quiet cancelled _ idle covered rows cells burst =>
      have silent : ¬ StartsBurst (.loop now, .scanned cancelled none) := by simp [StartsBurst, Bursts]
      exact ⟨(quiet [] rfl).1, agrees_kept history _ _ radio _ burst silent agrees⟩

theorem step_switches (history : List Record) (state : RelayState) (radio : Radio) (event : Event) (agrees : Agrees history state radio) :
    InterlockedThroughout radio (callsOf (step state event).2) ∧
      Agrees (history ++ [(event, (step state event).2)]) (step state event).1 (radio.after (callsOf (step state event).2)) := by
  cases event with
  | loop now => exact loop_switches history _ _ radio now _ (loop_effect state now) agrees
  | onResult device now wifi jitter =>
      have effect := on_result_effect state device now wifi jitter
      have silent := callback_calls _ _ _ _ _ _ _ effect
      have quiet := quiet_switches radio (agrees_interlocked history state radio agrees) _ silent
      refine ⟨quiet.1, ?_⟩
      dsimp only [step]
      rw [quiet.2]
      refine agrees_kept history _ _ radio _ (callback_burst _ _ _ _ _ _ _ effect) (fun starts => ?_) agrees
      obtain ⟨k, cancelled, frame, output⟩ := starts
      exact callback_silent _ _ _ _ _ _ _ effect cancelled _ output

theorem calls_snoc (history : List Record) (record : Record) : callsBy (history ++ [record]) = callsBy history ++ callsOf record.2 := by
  simp [callsBy]

theorem reachable_radio (events : List Event) :
    InterlockedThroughout .off (radioCalls events) ∧ Agrees (relayLog events) (relayState events) (Radio.off.after (radioCalls events)) := by
  refine History.invariant step .start
    (fun past state => InterlockedThroughout .off (callsBy past) ∧ Agrees past state (Radio.off.after (callsBy past))) ?_ ?_ events
  · obtain ⟨throughout, listening⟩ := setup_listens
    exact ⟨throughout, .idle rfl listening⟩
  · rintro past state event ⟨throughout, agrees⟩
    obtain ⟨calls, next⟩ := step_switches past state _ event agrees
    rw [calls_snoc, after_append]
    exact ⟨interlocked_append _ _ _ throughout calls, next⟩

-- Whatever is received and whenever: between any two calls the relay does not
-- scan while it advertises, and after every callback and iteration it does
-- one of them. What is on air is the frame of the last burst it started.
theorem radio_discipline (events : List Event) :
    (∀ n, Interlocked (Radio.off.after ((radioCalls events).take n))) ∧
    (Radio.off.after (radioCalls events)).advertising = (relayState events).isBroadcasting ∧
    (Radio.off.after (radioCalls events)).scanning = !(relayState events).isBroadcasting ∧
    (Radio.off.after (radioCalls events)).ledHigh = (relayState events).isBroadcasting ∧
    ((relayState events).isBroadcasting = true → ∃ (j : Nat) (now : Millis) (cancelled : List Slot) (k : Slot) (frame : Bytes),
      (relayLog events)[j]? = some (.loop now, .scanned cancelled (some (k, frame))) ∧ Latest StartsBurst (relayLog events) j ∧
      (relayState events).currentBroadcastIndex = k.val ∧ (relayState events).broadcastEndTime = now + broadcastBurst ∧
      (Radio.off.after (radioCalls events)).data = frame) := by
  obtain ⟨throughout, agrees⟩ := reachable_radio events
  refine ⟨throughout, ?_⟩
  cases agrees with
  | idle idle listening =>
      rw [idle]
      exact ⟨listening.silent, listening.scanning, listening.dark, fun busy => absurd busy Bool.false_ne_true⟩
  | busy j now cancelled k frame busy started latest index endTime sending =>
      rw [busy]
      exact ⟨sending.advertising, sending.deaf, sending.lit,
        fun _ => ⟨j, now, cancelled, k, frame, started, latest, index, endTime, sending.data⟩⟩

end BeaconMesh.Arduino
