import BeaconMesh.MeshDelivery
import BeaconMesh.NodeHistory
import Mathlib.Algebra.Order.BigOperators.Group.Finset

set_option autoImplicit false

namespace BeaconMesh.Simulator

open Flood

variable {ν ζ : Type}

-- The same containers under the packets of many victims: every container
-- keeps the packets it received next to its turns.
structure Traffic (ν : Type) where
  node : ν → NodeState
  history : ν → List Handled
  inFlight : Multiset (ν × EmergencyPacket)
  sent : List EmergencyPacket

def Traffic.start : Traffic ν := ⟨fun _ => .zero, fun _ => [], 0, []⟩

section Tracking

variable (w : Wiring ν ζ)

structure Tracked (signatures : Finset HmacSig) (traffic : Traffic ν) : Prop where
  nodes : ∀ n, KeepsTrack w n (traffic.node n) (traffic.history n)
  handled : ∀ n, ∀ sig ∈ signaturesOf (traffic.history n), sig ∈ signatures
  flying : ∀ copy ∈ traffic.inFlight, copy.2.hmacSig ∈ signatures

theorem tracked_start (signatures : Finset HmacSig) : Tracked w signatures (.start : Traffic ν) :=
  ⟨fun n => keeps_track_start w n, fun _ _ member => absurd member List.not_mem_nil, fun copy member => absurd member (Multiset.notMem_zero copy)⟩

theorem exit_sends_nothing (n : ν) (state : NodeState) (history : List Handled) (tracks : KeepsTrack w n state history)
    (ends : w.relay n = false) : sentBy history = [] := by
  refine List.filterMap_eq_nil_iff.mpr fun handled member => ?_
  cases sent : handled.2 with
  | forwarded packet => exact absurd ((tracks.honest handled member packet sent).1.symm.trans ends) (by decide)
  | finished => rfl
  | ttlExpired => rfl
  | ttlZero => rfl
  | alreadyProcessed => rfl

end Tracking

section Sends

variable [Fintype ν] [DecidableEq ζ] (w : Wiring ν ζ)

def Traffic.sos (traffic : Traffic ν) (z : ζ) (packet : EmergencyPacket) : Traffic ν :=
  { traffic with inFlight := traffic.inFlight + w.broadcast z packet, sent := traffic.sent ++ [packet] }

theorem rebroadcast_signature (n : ν) (before after : NodeState) (packet : EmergencyPacket) (turn : Turn)
    (effect : TurnEffect w n before packet after turn) (copy : ν × EmergencyPacket)
    (added : copy ∈ rebroadcasts w n (forwardedPacket turn)) : copy.2.hmacSig = packet.hmacSig := by
  obtain ⟨_, sent⟩ := rebroadcast_hop w n packet before after turn effect copy added
  rw [sent]
  rfl

theorem tracked_sos (signatures : Finset HmacSig) (traffic : Traffic ν) (tracked : Tracked w signatures traffic) (z : ζ)
    (packet : EmergencyPacket) (known : packet.hmacSig ∈ signatures) : Tracked w signatures (traffic.sos w z packet) := by
  refine ⟨tracked.nodes, tracked.handled, fun copy member => ?_⟩
  cases Multiset.mem_add.mp member with
  | inl old => exact tracked.flying copy old
  | inr new =>
      rw [((mem_broadcast w z packet copy.2 copy.1).mp new).2]
      exact known

end Sends

section Steps

variable [Fintype ν] [DecidableEq ν] [DecidableEq ζ] (w : Wiring ν ζ)

def Traffic.deliver (traffic : Traffic ν) (copy : ν × EmergencyPacket) : Traffic ν :=
  let result := turnOf w copy.1 (traffic.node copy.1) copy.2.toBytes
  { traffic with
    node := Function.update traffic.node copy.1 result.1
    history := Function.update traffic.history copy.1 (traffic.history copy.1 ++ [(copy.2, result.2)])
    inFlight := traffic.inFlight.erase copy + rebroadcasts w copy.1 (forwardedPacket result.2) }

-- Whoever is on a network may send any packet with one of these signatures,
-- and the networks lose, repeat and reorder what is in flight.
inductive UnreliableStep (signatures : Finset HmacSig) : Traffic ν → Traffic ν → Prop where
  | sos (traffic : Traffic ν) (z : ζ) (packet : EmergencyPacket) (known : packet.hmacSig ∈ signatures) :
      UnreliableStep signatures traffic (traffic.sos w z packet)
  | delivery (traffic : Traffic ν) (copy : ν × EmergencyPacket) (flying : copy ∈ traffic.inFlight) :
      UnreliableStep signatures traffic (traffic.deliver w copy)
  | lost (traffic : Traffic ν) (copy : ν × EmergencyPacket) :
      UnreliableStep signatures traffic { traffic with inFlight := traffic.inFlight.erase copy }
  | repeated (traffic : Traffic ν) (copy : ν × EmergencyPacket) (flying : copy ∈ traffic.inFlight) :
      UnreliableStep signatures traffic { traffic with inFlight := traffic.inFlight + {copy} }

theorem tracked_deliver (signatures : Finset HmacSig) (traffic : Traffic ν) (tracked : Tracked w signatures traffic)
    (copy : ν × EmergencyPacket) (flying : copy ∈ traffic.inFlight) : Tracked w signatures (traffic.deliver w copy) := by
  have known := tracked.flying copy flying
  refine ⟨fun n => ?_, fun n => ?_, fun other member => ?_⟩
  · by_cases here : n = copy.1
    · subst here
      simp only [Traffic.deliver, Function.update_self]
      exact track_turn w copy.1 _ _ copy.2 (tracked.nodes copy.1)
    · simp only [Traffic.deliver, Function.update_of_ne here]
      exact tracked.nodes n
  · by_cases here : n = copy.1
    · subst here
      simp only [Traffic.deliver, Function.update_self, signatures_snoc]
      intro sig member
      cases List.mem_append.mp member with
      | inl old => exact tracked.handled copy.1 sig old
      | inr new =>
          rw [List.mem_singleton.mp new]
          exact known
    · simp only [Traffic.deliver, Function.update_of_ne here]
      exact tracked.handled n
  · cases Multiset.mem_add.mp member with
    | inl old => exact tracked.flying other (Multiset.mem_of_mem_erase old)
    | inr new =>
        rw [rebroadcast_signature w copy.1 _ _ copy.2 _ (turn_effect w copy.1 (traffic.node copy.1) copy.2) other new]
        exact known

theorem tracked_step (signatures : Finset HmacSig) (before after : Traffic ν) (step : UnreliableStep w signatures before after)
    (tracked : Tracked w signatures before) : Tracked w signatures after := by
  cases step with
  | sos z packet known => exact tracked_sos w signatures before tracked z packet known
  | delivery copy flying => exact tracked_deliver w signatures before tracked copy flying
  | lost copy => exact ⟨tracked.nodes, tracked.handled, fun other member => tracked.flying other (Multiset.mem_of_mem_erase member)⟩
  | repeated copy flying =>
      refine ⟨tracked.nodes, tracked.handled, fun other member => ?_⟩
      cases Multiset.mem_add.mp member with
      | inl old => exact tracked.flying other old
      | inr again =>
          rw [Multiset.mem_singleton.mp again]
          exact tracked.flying copy flying

theorem tracked_run (signatures : Finset HmacSig) (traffic : Traffic ν)
    (run : Relation.ReflTransGen (UnreliableStep w signatures) .start traffic) : Tracked w signatures traffic := by
  induction run with
  | refl => exact tracked_start w signatures
  | tail _ step tracked => exact tracked_step w signatures _ _ step tracked

-- No storm on unreliable networks, whatever is sent with at most 256 nonzero
-- signatures: every container accepts each of them at most once, so a relay
-- rebroadcasts and an exit reports it at most once.
theorem storm_bounded (signatures : Finset HmacSig) (real : 0 ∉ signatures) (few : signatures.card ≤ 256) (traffic : Traffic ν)
    (run : Relation.ReflTransGen (UnreliableStep w signatures) .start traffic) :
    (∀ n sig, acceptances sig (traffic.history n) ≤ 1) ∧
      ∑ n, (sentBy (traffic.history n)).length ≤ (Finset.univ.filter fun n => w.relay n = true).card * signatures.card := by
  have tracked := tracked_run w signatures traffic run
  constructor
  · intro n sig
    exact accepted_once w n _ _ (tracked.nodes n) signatures real few (tracked.handled n) sig
  · have each : ∀ n, (sentBy (traffic.history n)).length ≤ if w.relay n = true then signatures.card else 0 := by
      intro n
      cases passes : w.relay n with
      | true =>
          rw [if_pos rfl]
          exact (sent_accepted (traffic.history n)).trans
            (accepted_few w n _ _ (tracked.nodes n) signatures real few (tracked.handled n))
      | false =>
          rw [exit_sends_nothing w n _ _ (tracked.nodes n) passes]
          exact Nat.zero_le _
    calc ∑ n, (sentBy (traffic.history n)).length ≤ ∑ n, if w.relay n = true then signatures.card else 0 :=
          Finset.sum_le_sum fun n _ => each n
      _ = (Finset.univ.filter fun n => w.relay n = true).card * signatures.card := by
          rw [← Finset.sum_filter, Finset.sum_const, smul_eq_mul]

end Steps

-- The copy for the relay arrives twice and its echo is lost.
def corridorStorm (relay : Fin 3) : Traffic (Fin 3) :=
  let broadcast := Traffic.start.sos corridor 0 sosPacket
  let repeated := { broadcast with inFlight := broadcast.inFlight + {(relay, sosPacket)} }
  let relayed := repeated.deliver corridor (relay, sosPacket)
  let thinned := { relayed with inFlight := relayed.inFlight.erase (relay, aged sosPacket 1) }
  thinned.deliver corridor (relay, sosPacket)

theorem corridor_storm_run :
    Relation.ReflTransGen (UnreliableStep corridor {sosPacket.hmacSig}) .start (corridorStorm 0) := by
  have sent : Relation.ReflTransGen (UnreliableStep corridor {sosPacket.hmacSig}) .start (Traffic.start.sos corridor 0 sosPacket) :=
    .single (.sos .start 0 sosPacket (by decide))
  have doubled := sent.tail (.repeated _ (0, sosPacket) (by decide +kernel))
  have relayed := doubled.tail (.delivery _ (0, sosPacket) (by decide +kernel))
  have thinned := relayed.tail (.lost _ (0, aged sosPacket 1))
  exact thinned.tail (.delivery _ (0, sosPacket) (by decide +kernel))

theorem corridor_storm_bounded :
    (∀ n sig, acceptances sig ((corridorStorm 0).history n) ≤ 1) ∧ ∑ n, (sentBy ((corridorStorm 0).history n)).length ≤ 2 * 1 :=
  storm_bounded corridor {sosPacket.hmacSig} (by decide) (by decide) (corridorStorm 0) corridor_storm_run

end BeaconMesh.Simulator
