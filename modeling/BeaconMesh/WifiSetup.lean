import BeaconMesh.EspRelay

set_option autoImplicit false

namespace BeaconMesh.Arduino

def wifiConnectTimeoutMs : Millis := 8000

-- One evaluation of the loop condition: WiFi.status() and millis().
structure Check where
  connected : Bool
  now : Millis
deriving DecidableEq, Repr

-- The delays until the loop ends; none while the checks do not end it.
def awaitWifi (wifiStartAttempt : Millis) : List Check → Option Nat
  | [] => none
  | check :: later =>
      if check.connected = false ∧ check.now - wifiStartAttempt < wifiConnectTimeoutMs then (awaitWifi wifiStartAttempt later).map (· + 1)
      else some 0

def statusLine (connected : Bool) : String :=
  if connected then "\n[SYSTEM] Wi-Fi Connected!" else "\n[SYSTEM] Wi-Fi not found. Continuing in BLE-only relay mode."

structure WifiSetup where
  printed : List String
  disconnected : Bool
deriving DecidableEq, Repr

-- connected is the status that setup reads once more after the loop.
def setupWifi (wifiStartAttempt : Millis) (checks : List Check) (connected : Bool) : Option WifiSetup :=
  (awaitWifi wifiStartAttempt checks).map fun delays =>
    { printed := "Connecting to Wi-Fi..." :: List.replicate delays "." ++ [statusLine connected]
      disconnected := !connected }

-- The same check with the time since power-on, which millis() shows modulo
-- 2^32.
structure Poll where
  connected : Bool
  time : Nat

def Poll.check (poll : Poll) : Check := ⟨poll.connected, BitVec.ofNat 32 poll.time⟩

-- A delay(500) lies between two checks, and less than gap milliseconds do.
def Delayed (gap : Nat) (polls : List Poll) : Prop := polls.IsChain fun earlier later => earlier.time + 500 ≤ later.time ∧ later.time < earlier.time + gap

def Poll.ends (begun : Nat) (poll : Poll) : Prop := poll.connected = true ∨ begun + 8000 ≤ poll.time

theorem elapsed_value (begun time : Nat) (later : begun ≤ time) (near : time < begun + 2 ^ 32) :
    (BitVec.ofNat 32 time - BitVec.ofNat 32 begun : Millis).toNat = time - begun := by
  rw [BitVec.toNat_sub, BitVec.toNat_ofNat, BitVec.toNat_ofNat]
  omega

theorem await_waits (begun : Nat) (poll : Poll) (later : begun ≤ poll.time) (near : poll.time < begun + 2 ^ 32) :
    (poll.check.connected = false ∧ poll.check.now - BitVec.ofNat 32 begun < wifiConnectTimeoutMs) ↔ ¬ poll.ends begun := by
  have timeout : wifiConnectTimeoutMs.toNat = 8000 := rfl
  have elapsed := elapsed_value begun poll.time later near
  rw [BitVec.lt_def, Poll.check, elapsed, timeout, Poll.ends, not_or, Bool.not_eq_true, Nat.not_le]
  exact and_congr_right fun _ => by omega

theorem await_first (begun gap : Nat) (narrow : gap + 8000 ≤ 2 ^ 32) (polls : List Poll) (delayed : Delayed gap polls) (n : Nat) (few : n ≤ 16)
    (head : ∀ poll, polls.head? = some poll → begun + 500 * n ≤ poll.time ∧ poll.time < begun + 8000 + gap) (enough : 17 ≤ polls.length + n) :
    ∃ delays poll, n + delays ≤ 16 ∧ awaitWifi (BitVec.ofNat 32 begun) (polls.map Poll.check) = some delays ∧
      polls[delays]? = some poll ∧ poll.ends begun ∧ poll.time < begun + 8000 + gap ∧
      ∀ k earlier, k < delays → polls[k]? = some earlier → ¬ earlier.ends begun := by
  induction polls generalizing n with
  | nil =>
      simp only [List.length_nil] at enough
      omega
  | cons poll later ih =>
      obtain ⟨after, soon⟩ := head poll rfl
      have waits := await_waits begun poll (by omega) (by omega)
      by_cases ends : poll.ends begun
      · refine ⟨0, poll, few, ?_, rfl, ends, soon, fun k _ never => absurd never (Nat.not_lt_zero k)⟩
        rw [List.map_cons, awaitWifi, if_neg fun waiting => waits.mp waiting ends]
      · have early : poll.time < begun + 8000 := Nat.not_le.mp fun late => ends (Or.inr late)
        have next : ∀ following, later.head? = some following → begun + 500 * (n + 1) ≤ following.time ∧ following.time < begun + 8000 + gap := by
          intro following first
          cases later with
          | nil => exact absurd first.symm (Option.some_ne_none _)
          | cons second rest =>
              obtain rfl : second = following := Option.some.inj first
              obtain ⟨wait, limit⟩ := (List.isChain_cons_cons.mp delayed).1
              clear enough waits
              omega
        obtain ⟨delays, last, bound, result, found, stops, intime, before⟩ := ih delayed.of_cons (n + 1) (by omega) next
          (by simp only [List.length_cons] at enough; omega)
        refine ⟨delays + 1, last, by omega, ?_, found, stops, intime, fun k earlier less place => ?_⟩
        · rw [List.map_cons, awaitWifi, if_pos (waits.mpr ends), result]
          rfl
        · cases k with
          | zero =>
              obtain rfl : poll = earlier := Option.some.inj place
              exact ends
          | succ k => exact before k earlier (Nat.lt_of_succ_lt_succ less) place

-- Whatever millis() reads at the start, also when it wraps on the way: setup
-- stops waiting at the first check that finds the connection or eight seconds
-- gone, after at most sixteen delays, each with its dot.
theorem wifi_wait_bounded (begun gap : Nat) (narrow : gap + 8000 ≤ 2 ^ 32) (polls : List Poll) (delayed : Delayed gap polls)
    (start : ∀ poll, polls.head? = some poll → begun ≤ poll.time ∧ poll.time < begun + gap) (enough : 17 ≤ polls.length) (connected : Bool) :
    ∃ delays poll setup, delays ≤ 16 ∧ setupWifi (BitVec.ofNat 32 begun) (polls.map Poll.check) connected = some setup ∧
      setup.printed = "Connecting to Wi-Fi..." :: List.replicate delays "." ++ [statusLine connected] ∧ setup.disconnected = !connected ∧
      polls[delays]? = some poll ∧ poll.ends begun ∧ poll.time < begun + 8000 + gap ∧ ∀ k earlier, k < delays → polls[k]? = some earlier → ¬ earlier.ends begun := by
  obtain ⟨delays, poll, bound, result, found, ends, intime, before⟩ := await_first begun gap narrow polls delayed 0 (Nat.zero_le 16)
    (fun poll first => ⟨(start poll first).1, by have near := (start poll first).2; omega⟩) enough
  refine ⟨delays, poll, _, by omega, by rw [setupWifi, result]; rfl, rfl, rfl, found, ends, intime, before⟩

def lostWifi : List Poll := (List.range 17).map fun n => ⟨false, 300 + 510 * n⟩

theorem lost_wifi_bounded :
    ∃ delays poll setup, delays ≤ 16 ∧ setupWifi (BitVec.ofNat 32 300) (lostWifi.map Poll.check) false = some setup ∧
      setup.printed = "Connecting to Wi-Fi..." :: List.replicate delays "." ++ [statusLine false] ∧ setup.disconnected = !false ∧
      lostWifi[delays]? = some poll ∧ poll.ends 300 ∧ poll.time < 300 + 8000 + 600 ∧ ∀ k earlier, k < delays → lostWifi[k]? = some earlier → ¬ earlier.ends 300 :=
  wifi_wait_bounded 300 600 (by decide) lostWifi (by simp [lostWifi, Delayed, List.range_succ])
    (fun poll first => by obtain rfl := Option.some.inj first; decide) (by decide) false

end BeaconMesh.Arduino
