import BeaconMesh.Lib.Flood
import BeaconMesh.SimulatorNode
import Mathlib.Logic.Function.Basic

set_option autoImplicit false

namespace BeaconMesh.Simulator

open Flood

variable {ν ζ : Type}

-- The containers of a simulation, with everything each of them has sent or
-- printed. The wiring marks those that run node.cpp; the others run exit.cpp.
structure MeshState (ν : Type) where
  node : ν → NodeState
  turns : ν → List Turn
  inFlight : Multiset (ν × EmergencyPacket)
  broadcasts : Nat

def MeshState.start : MeshState ν := ⟨fun _ => .zero, fun _ => [], 0, 0⟩

def turnOf (w : Wiring ν ζ) (n : ν) (state : NodeState) (datagram : Bytes) : NodeState × Turn :=
  if w.relay n = true then nodeTurn state datagram else exitTurn state datagram

inductive TurnEffect (w : Wiring ν ζ) (n : ν) (before : NodeState) (packet : EmergencyPacket) : NodeState → Turn → Prop where
  | duplicate (location : Row) (present : containsBuff before.cache packet.hmacSig = some location) :
      TurnEffect w n before packet ⟨packet, before.cache⟩ (.alreadyProcessed location)
  | dropped (output : Turn) (passes : w.relay n = true) (absent : containsBuff before.cache packet.hmacSig = none)
      (spent : (ttlOf packet.flags).toNat ≤ 1) (silent : output = .ttlExpired ∨ output = .ttlZero) :
      TurnEffect w n before packet ⟨packet, (addToBuff before.cache packet.hmacSig).2⟩ output
  | forwarded (passes : w.relay n = true) (absent : containsBuff before.cache packet.hmacSig = none)
      (hops : 2 ≤ (ttlOf packet.flags).toNat) :
      TurnEffect w n before packet ⟨hopPacket packet, (addToBuff before.cache packet.hmacSig).2⟩
        (.forwarded (hopPacket packet))
  | finished (kept : EmergencyPacket) (ends : w.relay n = false) (absent : containsBuff before.cache packet.hmacSig = none) :
      TurnEffect w n before packet ⟨kept, (addToBuff before.cache packet.hmacSig).2⟩ (.finished EmergencyPacket.size)

theorem turn_effect (w : Wiring ν ζ) (n : ν) (state : NodeState) (packet : EmergencyPacket) :
    TurnEffect w n state packet (turnOf w n state packet.toBytes).1 (turnOf w n state packet.toBytes).2 := by
  cases passes : w.relay n with
  | true =>
      simp only [turnOf, if_pos passes]
      have effect := node_effect state packet
      generalize (nodeTurn state packet.toBytes).1 = after, (nodeTurn state packet.toBytes).2 = output at effect
      cases effect with
      | duplicate location present => exact .duplicate location present
      | dropped _ absent spent silent => exact .dropped output passes absent spent silent
      | forwarded absent hops => exact .forwarded passes absent hops
  | false =>
      have ends : ¬ w.relay n = true := ne_true_of_eq_false passes
      simp only [turnOf, if_neg ends, exitTurn, recv_full]
      cases found : containsBuff state.cache packet.hmacSig with
      | some location => exact .duplicate location found
      | none =>
          have whole : min packet.toBytes.length EmergencyPacket.size = EmergencyPacket.size := by simp
          simp only [whole]
          exact .finished _ passes found

section Sends

variable [Fintype ν] [DecidableEq ζ] (w : Wiring ν ζ)

def MeshState.broadcast (mesh : MeshState ν) (packet : EmergencyPacket) : MeshState ν :=
  { mesh with inFlight := mesh.inFlight + w.broadcast w.source packet, broadcasts := mesh.broadcasts + 1 }

def rebroadcasts (n : ν) : Option EmergencyPacket → Multiset (ν × EmergencyPacket)
  | some packet => w.send n packet
  | none => 0

def ttlLeft (copy : ν × EmergencyPacket) : Nat := (ttlOf copy.2.flags).toNat

theorem rebroadcast_hop (n : ν) (packet : EmergencyPacket) (before after : NodeState) (output : Turn)
    (effect : TurnEffect w n before packet after output) (other : ν × EmergencyPacket)
    (added : other ∈ rebroadcasts w n (forwardedPacket output)) : 2 ≤ (ttlOf packet.flags).toNat ∧ other.2 = hopPacket packet := by
  cases effect with
  | duplicate location present => exact absurd added (Multiset.notMem_zero other)
  | dropped _ passes absent spent silent =>
      cases silent with
      | inl expired =>
          subst expired
          exact absurd added (Multiset.notMem_zero other)
      | inr zero =>
          subst zero
          exact absurd added (Multiset.notMem_zero other)
  | forwarded passes absent hops => exact ⟨hops, ((mem_send w n (hopPacket packet) other.2 other.1).mp added).2⟩
  | finished kept ends absent => exact absurd added (Multiset.notMem_zero other)

theorem rebroadcast_ttl (n : ν) (packet : EmergencyPacket) (before after : NodeState) (output : Turn)
    (effect : TurnEffect w n before packet after output) (other : ν × EmergencyPacket)
    (added : other ∈ rebroadcasts w n (forwardedPacket output)) :
    ttlLeft other ≠ 0 ∧ ttlLeft other < (ttlOf packet.flags).toNat := by
  obtain ⟨hops, sent⟩ := rebroadcast_hop w n packet before after output effect other added
  have next : ttlLeft other = (ttlOf packet.flags).toNat - 1 := by
    rw [ttlLeft, sent]
    exact ttl_next_hop packet.flags (by omega)
  omega

end Sends

section Steps

variable [Fintype ν] [DecidableEq ν] [DecidableEq ζ] (w : Wiring ν ζ)

def MeshState.deliver (mesh : MeshState ν) (copy : ν × EmergencyPacket) : MeshState ν :=
  let result := turnOf w copy.1 (mesh.node copy.1) copy.2.toBytes
  { mesh with
    node := Function.update mesh.node copy.1 result.1
    turns := Function.update mesh.turns copy.1 (mesh.turns copy.1 ++ [result.2])
    inFlight := mesh.inFlight.erase copy + rebroadcasts w copy.1 (forwardedPacket result.2) }

inductive Delivery : MeshState ν → MeshState ν → Prop where
  | deliver (mesh : MeshState ν) (copy : ν × EmergencyPacket) (flying : copy ∈ mesh.inFlight) :
      Delivery mesh (mesh.deliver w copy)

-- One victim repeats one packet on its network.
inductive MeshStep (packet : EmergencyPacket) : MeshState ν → MeshState ν → Prop where
  | sos (mesh : MeshState ν) : MeshStep packet mesh (mesh.broadcast w packet)
  | delivery {before after : MeshState ν} (delivered : Delivery w before after) : MeshStep packet before after

theorem delivery_consumes (before after : MeshState ν) (delivered : Delivery w before after) :
    ∃ copy ∈ before.inFlight, ∃ added, after.inFlight = before.inFlight.erase copy + added ∧
      ∀ other ∈ added, ttlLeft other ≠ 0 ∧ ttlLeft other < ttlLeft copy := by
  cases delivered with
  | deliver copy flying =>
      have effect := turn_effect w copy.1 (before.node copy.1) copy.2
      exact ⟨copy, flying, _, rfl, fun other added => rebroadcast_ttl w copy.1 copy.2 _ _ _ effect other added⟩

theorem delivery_wf : WellFounded fun after before : MeshState ν => Delivery w before after := by
  apply consuming_ends MeshState.inFlight ttlLeft (Delivery w)
  intro before after delivered
  obtain ⟨copy, flying, added, flights, smaller⟩ := delivery_consumes w before after delivered
  exact ⟨copy, flying, added, flights, fun other member => (smaller other member).2⟩

-- Whatever the caches hold, every step spends one copy on copies of smaller
-- TTL, so deliveries cannot go on for ever.
theorem flood_dies_out :
    (∀ before after : MeshState ν, Delivery w before after →
      ∃ copy ∈ before.inFlight, ∃ added, after.inFlight = before.inFlight.erase copy + added ∧
        ∀ other ∈ added, ttlLeft other ≠ 0 ∧ ttlLeft other < ttlLeft copy) ∧
    (WellFounded fun after before : MeshState ν => Delivery w before after) ∧
    ¬ ∃ run : Nat → MeshState ν, ∀ k, Delivery w (run k) (run (k + 1)) := by
  refine ⟨delivery_consumes w, delivery_wf w, ?_⟩
  rintro ⟨run, delivers⟩
  exact (wellFounded_iff_isEmpty_descending_chain.mp (delivery_wf w)).false ⟨run, delivers⟩

end Steps

end BeaconMesh.Simulator
