import BeaconMesh.Lib.Spacing
import BeaconMesh.BurstCompletion
import Mathlib.Algebra.Group.Action.Defs
import Mathlib.Algebra.Order.Ring.Nat

set_option autoImplicit false

namespace BeaconMesh.Arduino

open Sweep History Spacing

def burstStart : Record → Option Nat
  | (.loop now, .scanned _ (some _)) => some now.toNat
  | _ => none

-- The instants at which bursts started, in milliseconds.
def burstStarts (history : List Record) : List Nat := history.filterMap burstStart

theorem starts_snoc (history : List Record) (record : Record) : burstStarts (history ++ [record]) = burstStarts history ++ (burstStart record).toList := by
  rw [burstStarts, List.filterMap_append, burstStarts]
  cases started : burstStart record <;> simp [started]

-- While a burst lasts it ends a gap after every start; afterwards the clock
-- stands there already.
structure Paced (history : List Record) (state : RelayState) : Prop where
  spaced : Spaced 500 (burstStarts history)
  busy : state.isBroadcasting = true → ∀ start ∈ burstStarts history, start + 500 ≤ state.broadcastEndTime.toNat
  idle : state.isBroadcasting = false → ∀ start ∈ burstStarts history, ∃ record ∈ history, start + 500 ≤ record.1.now.toNat

theorem end_time_value (now : Millis) (fits : now.toNat + 500 < 2 ^ 32) : (now + broadcastBurst).toNat = now.toNat + 500 := by
  have burst : broadcastBurst.toNat = 500 := rfl
  rw [BitVec.toNat_add, burst, Nat.mod_eq_of_lt fits]

theorem paced_quiet (history : List Record) (before after : RelayState) (record : Record) (burst : SameBurst before after)
    (none : burstStart record = none) (paced : Paced history before) : Paced (history ++ [record]) after := by
  have same : burstStarts (history ++ [record]) = burstStarts history := by
    rw [starts_snoc, none]
    exact List.append_nil _
  refine ⟨by rw [same]; exact paced.spaced, ?_, ?_⟩
  · rw [same, burst.broadcasting, burst.endTime]
    exact paced.busy
  · rw [same, burst.broadcasting]
    intro idle start member
    obtain ⟨past, inside, gone⟩ := paced.idle idle start member
    exact ⟨past, List.mem_append_left _ inside, gone⟩

theorem paced_loop (history : List Record) (before after : RelayState) (now : Millis) (output : Output)
    (effect : LoopEffect before now after output) (paced : Paced history before)
    (ordered : ∀ record ∈ history, record.1.now ≤ now) (fits : now.toNat + 500 < 2 ^ 32) : Paced (history ++ [(.loop now, output)]) after := by
  cases effect with
  | transmitting => exact paced_quiet history _ _ _ ⟨rfl, rfl, rfl⟩ rfl paced
  | ended busy late =>
      have same : burstStarts (history ++ [(.loop now, .burstEnded before.currentBroadcastIndex)]) = burstStarts history := by
        rw [starts_snoc]
        exact List.append_nil _
      refine ⟨by rw [same]; exact paced.spaced, fun never => absurd never Bool.false_ne_true, fun _ start member => ?_⟩
      rw [same] at member
      exact ⟨(.loop now, .burstEnded before.currentBroadcastIndex), by simp, (paced.busy busy start member).trans late⟩
  | started row cancelled _ idle due unheard earlier rows cells broadcasting endTime index =>
      have gone : ∀ start ∈ burstStarts history, start + 500 ≤ now.toNat := by
        intro start member
        obtain ⟨past, inside, reached⟩ := paced.idle idle start member
        exact reached.trans (ordered past inside)
      refine ⟨?_, fun _ start member => ?_, fun never => absurd (broadcasting.symm.trans never) (by decide)⟩
      · rw [starts_snoc]
        exact spaced_snoc 500 _ now.toNat paced.spaced gone
      · rw [starts_snoc] at member
        rw [endTime, end_time_value now fits]
        cases List.mem_append.mp member with
        | inl past => exact (gone start past).trans (Nat.le_add_right _ _)
        | inr here =>
            obtain rfl : start = now.toNat := List.mem_singleton.mp here
            exact Nat.le_refl _
  | quiet cancelled _ idle covered rows cells burst => exact paced_quiet history _ _ _ burst rfl paced

theorem reachable_paced (events : List Event) (ordered : Nondecreasing events) (fits : ∀ event ∈ events, event.now.toNat + 500 < 2 ^ 32) :
    Paced (relayLog events) (relayState events) := by
  induction events using List.reverseRecOn with
  | nil => exact ⟨List.Pairwise.nil, fun never => absurd never Bool.false_ne_true, fun _ start member => absurd member List.not_mem_nil⟩
  | append_singleton past event ih =>
      obtain ⟨before, _, across⟩ := List.pairwise_append.mp ordered
      have paced := ih before fun earlier member => fits earlier (List.mem_append_left _ member)
      rw [relayLog, relayState, log_snoc, final_snoc]
      cases event with
      | loop now =>
          refine paced_loop _ _ _ now _ (loop_effect (relayState past) now) paced (fun record member => ?_)
            (fits (.loop now) (by simp))
          exact across record.1 (logged_event past record member) (.loop now) (List.mem_singleton_self _)
      | onResult device now wifi jitter =>
          exact paced_quiet _ _ _ _ (callback_burst _ _ _ _ _ _ _ (on_result_effect (relayState past) device now wifi jitter)) rfl paced

-- However many packets wait, the relay holds the air for at most one burst in
-- any half second, and for as many more as the window has half seconds.
theorem relay_airtime_bounded (events : List Event) (ordered : Nondecreasing events)
    (fits : ∀ event ∈ events, event.now.toNat + 500 < 2 ^ 32) (lo hi : Nat) :
    ((burstStarts (relayLog events)).filter fun start => decide (lo ≤ start ∧ start ≤ hi)).length ≤ (hi - lo) / 500 + 1 := by
  have spaced := (reachable_paced events ordered fits).spaced
  cases count : ((burstStarts (relayLog events)).filter fun start => decide (lo ≤ start ∧ start ≤ hi)).length with
  | zero => exact Nat.zero_le _
  | succ n =>
      have span : lo + n • 500 ≤ hi := window_span 500 lo hi _ spaced n count
      rw [smul_eq_mul] at span
      omega

theorem completed_run_airtime :
    ((burstStarts (relayLog completedRun)).filter fun start => decide (0 ≤ start ∧ start ≤ 550)).length ≤ (550 - 0) / 500 + 1 :=
  relay_airtime_bounded completedRun (by decide) (by decide) 0 550

end BeaconMesh.Arduino
