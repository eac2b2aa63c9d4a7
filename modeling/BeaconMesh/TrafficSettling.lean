import BeaconMesh.TrafficDelivery

set_option autoImplicit false

namespace BeaconMesh.Simulator

open Flood

variable {ν ζ : Type} [Fintype ν] [DecidableEq ν] [DecidableEq ζ] (w : Wiring ν ζ)

-- The containers work on what is in flight; no victim sends meanwhile.
inductive Handling : Traffic ν → Traffic ν → Prop where
  | deliver (traffic : Traffic ν) (copy : ν × EmergencyPacket) (flying : copy ∈ traffic.inFlight) :
      Handling traffic (traffic.deliver w copy)

theorem handling_consumes (before after : Traffic ν) (handled : Handling w before after) :
    ∃ copy ∈ before.inFlight, ∃ added, after.inFlight = before.inFlight.erase copy + added ∧
      ∀ other ∈ added, ttlLeft other < ttlLeft copy := by
  cases handled with
  | deliver copy flying =>
      have effect := turn_effect w copy.1 (before.node copy.1) copy.2
      exact ⟨copy, flying, _, rfl, fun other added => (rebroadcast_ttl w copy.1 copy.2 _ _ _ effect other added).2⟩

theorem handling_wf : WellFounded fun after before : Traffic ν => Handling w before after :=
  consuming_ends Traffic.inFlight ttlLeft (Handling w) (handling_consumes w)

theorem handled_sent (before after : Traffic ν) (run : Relation.ReflTransGen (Handling w) before after) : after.sent = before.sent := by
  induction run with
  | refl => rfl
  | tail _ step ih =>
      cases step with
      | deliver => exact ih

theorem idle_iff (traffic : Traffic ν) : (∀ next, ¬ Handling w traffic next) ↔ traffic.inFlight = 0 := by
  constructor
  · intro idle
    refine Multiset.eq_zero_of_forall_notMem fun copy flying => ?_
    exact idle _ (.deliver traffic copy flying)
  · intro empty next handled
    cases handled with
    | deliver copy flying =>
        rw [empty] at flying
        exact Multiset.notMem_zero copy flying

section Settling

variable (home : EmergencyPacket → ζ) (packets : Finset EmergencyPacket)

theorem handled_traffic (before after : Traffic ν) (run : Relation.ReflTransGen (Handling w) before after) :
    Relation.ReflTransGen (TrafficStep w home packets) before after := by
  refine Relation.ReflTransGen.mono (fun earlier later step => ?_) _ _ run
  cases step with
  | deliver copy flying => exact .delivery earlier copy flying

theorem sent_known (traffic : Traffic ν) (run : Relation.ReflTransGen (TrafficStep w home packets) .start traffic) :
    ∀ packet ∈ traffic.sent, packet ∈ packets := by
  induction run with
  | refl => exact fun _ member => absurd member List.not_mem_nil
  | tail _ step ih =>
      cases step with
      | delivery => exact ih
      | sos packet known =>
          intro other member
          cases List.mem_append.mp member with
          | inl old => exact ih other old
          | inr new =>
              rw [List.mem_singleton.mp new]
              exact known

-- The container has done its work for the packet once, if it is connected to
-- the victim's network, and has never heard of it otherwise.
def Served (traffic : Traffic ν) (packet : EmergencyPacket) (n : ν) : Prop :=
  ((∃ z, Reached (sourced w (home packet)) z ∧ z ∈ w.networks n) →
    (w.relay n = true → ∃ hops, 1 ≤ hops ∧ hops ≤ 19 ∧ forwards (turnsFor packet.hmacSig (traffic.history n)) = [aged packet hops]) ∧
    (w.relay n = false → finishes (turnsFor packet.hmacSig (traffic.history n)) = [EmergencyPacket.size])) ∧
  ((¬ ∃ z, Reached (sourced w (home packet)) z ∧ z ∈ w.networks n) → turnsFor packet.hmacSig (traffic.history n) = [])

variable (real : ∀ packet ∈ packets, packet.hmacSig ≠ 0) (full : ∀ packet ∈ packets, (ttlOf packet.flags).toNat = 20)
  (apart : ∀ one ∈ packets, ∀ other ∈ packets, one.hmacSig = other.hmacSig → one = other) (few : packets.card ≤ 256)
  (relays : (Finset.univ.filter fun n => w.relay n = true).card ≤ 19)

include real full apart few relays

theorem settled_served (traffic : Traffic ν) (run : Relation.ReflTransGen (TrafficStep w home packets) .start traffic)
    (quiet : traffic.inFlight = 0) (packet : EmergencyPacket) (sent : packet ∈ traffic.sent) (n : ν) : Served w home traffic packet n := by
  have member := sent_known w home packets traffic run packet sent
  exact traffic_delivered w home packets real full apart few relays traffic run quiet packet member sent n

-- Whatever has happened and in whatever order the containers go on, they come
-- to an end, and then every emergency sent so far has got through.
theorem traffic_settles (traffic : Traffic ν) (run : Relation.ReflTransGen (TrafficStep w home packets) .start traffic) :
    (¬ ∃ schedule : Nat → Traffic ν, schedule 0 = traffic ∧ ∀ k, Handling w (schedule k) (schedule (k + 1))) ∧
    (∃ last, Relation.ReflTransGen (Handling w) traffic last ∧ ∀ next, ¬ Handling w last next) ∧
    ∀ last, Relation.ReflTransGen (Handling w) traffic last → (∀ next, ¬ Handling w last next) →
      ∀ packet ∈ traffic.sent, ∀ n, Served w home last packet n := by
  refine ⟨?_, ending_reached (Handling w) (handling_wf w) traffic, fun last goes idle packet sent n => ?_⟩
  · rintro ⟨schedule, _, goes⟩
    exact (wellFounded_iff_isEmpty_descending_chain.mp (handling_wf w)).false ⟨schedule, goes⟩
  · have reached := run.trans (handled_traffic w home packets traffic last goes)
    have known : packet ∈ last.sent := by
      rw [handled_sent w traffic last goes]
      exact sent
    exact settled_served w home packets real full apart few relays last reached ((idle_iff w last).mp idle) packet known n

end Settling

theorem crossed_settles :
    ∃ last, Relation.ReflTransGen (Handling corridor) (crossed 0 1 0) last ∧ finishes (turnsFor 4 (last.history 1)) = [25] := by
  obtain ⟨_, ⟨last, goes, idle⟩, served⟩ := traffic_settles corridor corridorHome {sosPacket, exitPacket} (by decide) (by decide)
    (by decide) (by decide) (by decide) (crossed 0 1 0) (crossed_run 0 (Nat.zero_le 9))
  have works := served last goes idle sosPacket (by decide) 1
  exact ⟨last, goes, (works.1 ⟨1, ⟨[0], corridor_chain⟩, by decide⟩).2 rfl⟩

end BeaconMesh.Simulator
