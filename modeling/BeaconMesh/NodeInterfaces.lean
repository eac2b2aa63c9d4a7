import BeaconMesh.TrafficDelivery

set_option autoImplicit false

namespace BeaconMesh.Simulator

open Flood

inductive Family where
  | inet
  | inet6
  | packet
deriving DecidableEq, Repr

-- One entry of the list that getifaddrs makes, with the network whose
-- broadcast address it shows; none stands for a null pointer.
structure Ifaddr (ζ : Type) where
  name : String
  addr : Option Family
  broadaddr : Option ζ
deriving DecidableEq, Repr

variable {ν ζ : Type}

-- The network that the sendto for an entry goes to.
def sendtoOf (item : Ifaddr ζ) : Option ζ :=
  match item.addr with
  | none => none
  | some .inet6 => none
  | some .packet => none
  | some .inet =>
      match item.broadaddr with
      | none => none
      | some network => if item.name = "lo" then none else some network

-- The loop over the list; getifaddrs fails without one.
def sendtos : Option (List (Ifaddr ζ)) → List ζ
  | some ifAddrList => ifAddrList.filterMap sendtoOf
  | none => []

def Wired (item : Ifaddr ζ) : Prop := item.addr = some .inet ∧ item.name ≠ "lo"

instance (item : Ifaddr ζ) : Decidable (Wired item) := inferInstanceAs (Decidable (_ ∧ _))

-- What the container's networks make of its interfaces: one IPv4 entry for
-- each network, between entries of other kinds.
structure Plugged (networks : Finset ζ) (ifAddrList : List (Ifaddr ζ)) : Prop where
  covers : ∀ z, z ∈ networks ↔ ∃ item ∈ ifAddrList, Wired item ∧ item.broadaddr = some z
  apart : (ifAddrList.filter fun item => decide (Wired item ∧ item.broadaddr.isSome)).Pairwise fun one other => one.broadaddr ≠ other.broadaddr

theorem sendto_iff (item : Ifaddr ζ) (z : ζ) : sendtoOf item = some z ↔ Wired item ∧ item.broadaddr = some z := by
  obtain ⟨name, addr, broadaddr⟩ := item
  cases addr with
  | none => simp [sendtoOf, Wired]
  | some family =>
      cases family with
      | inet =>
          cases broadaddr with
          | none => simp [sendtoOf]
          | some network => by_cases loopback : name = "lo" <;> simp [sendtoOf, Wired, loopback]
      | inet6 => simp [sendtoOf, Wired]
      | packet => simp [sendtoOf, Wired]

theorem plugged_sendtos (networks : Finset ζ) (ifAddrList : List (Ifaddr ζ)) (plugged : Plugged networks ifAddrList) :
    (sendtos (some ifAddrList) : Multiset ζ) = networks.val := by
  have once : (sendtos (some ifAddrList)).Nodup := by
    refine List.pairwise_filterMap.mpr ((List.pairwise_filter.mp plugged.apart).imp fun apart z first other second same => ?_)
    obtain ⟨wired, network⟩ := (sendto_iff _ z).mp first
    obtain ⟨itsWired, itsNetwork⟩ := (sendto_iff _ other).mp second
    exact apart (decide_eq_true ⟨wired, by rw [network]; rfl⟩) (decide_eq_true ⟨itsWired, by rw [itsNetwork]; rfl⟩)
      (by rw [network, itsNetwork, same])
  refine (Multiset.Nodup.ext (Multiset.coe_nodup.mpr once) networks.nodup).mpr fun z => ?_
  rw [Multiset.mem_coe, Finset.mem_val, plugged.covers z, sendtos, List.mem_filterMap]
  exact exists_congr fun item => and_congr_right fun _ => sendto_iff item z

section Traffic

variable [Fintype ν] [DecidableEq ν] [DecidableEq ζ] (w : Wiring ν ζ) (interfaces : ν → List (Ifaddr ζ))

def rebroadcastsOut (n : ν) : Option EmergencyPacket → Multiset (ν × EmergencyPacket)
  | some packet => (sendtos (some (interfaces n)) : Multiset ζ).bind fun z => w.broadcast z packet
  | none => 0

def Traffic.deliverOut (traffic : Traffic ν) (copy : ν × EmergencyPacket) : Traffic ν :=
  let result := turnOf w copy.1 (traffic.node copy.1) copy.2.toBytes
  { traffic with
    node := Function.update traffic.node copy.1 result.1
    history := Function.update traffic.history copy.1 (traffic.history copy.1 ++ [(copy.2, result.2)])
    inFlight := traffic.inFlight.erase copy + rebroadcastsOut w interfaces copy.1 (forwardedPacket result.2) }

-- The traffic of containers that send through their interface lists.
inductive InterfaceStep (home : EmergencyPacket → ζ) (packets : Finset EmergencyPacket) : Traffic ν → Traffic ν → Prop where
  | sos (traffic : Traffic ν) (packet : EmergencyPacket) (member : packet ∈ packets) :
      InterfaceStep home packets traffic (traffic.sos w (home packet) packet)
  | delivery (traffic : Traffic ν) (copy : ν × EmergencyPacket) (flying : copy ∈ traffic.inFlight) :
      InterfaceStep home packets traffic (traffic.deliverOut w interfaces copy)

variable (plugged : ∀ n, Plugged (w.networks n) (interfaces n)) (home : EmergencyPacket → ζ) (packets : Finset EmergencyPacket)

include plugged

theorem deliver_out (traffic : Traffic ν) (copy : ν × EmergencyPacket) : traffic.deliverOut w interfaces copy = traffic.deliver w copy := by
  have sends : ∀ turn, rebroadcastsOut w interfaces copy.1 turn = rebroadcasts w copy.1 turn := by
    intro turn
    cases turn with
    | none => rfl
    | some packet =>
        rw [rebroadcastsOut, plugged_sendtos _ _ (plugged copy.1)]
        rfl
  rw [Traffic.deliverOut, sends]
  rfl

theorem interface_step (before after : Traffic ν) :
    InterfaceStep w interfaces home packets before after ↔ TrafficStep w home packets before after := by
  constructor
  · intro step
    cases step with
    | sos packet member => exact .sos before packet member
    | delivery copy flying =>
        rw [deliver_out w interfaces plugged]
        exact .delivery before copy flying
  · intro step
    cases step with
    | sos packet member => exact .sos before packet member
    | delivery copy flying =>
        rw [← deliver_out w interfaces plugged]
        exact .delivery before copy flying

-- The loop of node.cpp over its interfaces, in whatever order and between
-- whatever other entries, is the broadcast on each of the node's networks:
-- the runs through the interface lists are the runs of the mesh.
theorem interface_runs (traffic : Traffic ν) :
    Relation.ReflTransGen (InterfaceStep w interfaces home packets) .start traffic ↔
      Relation.ReflTransGen (TrafficStep w home packets) .start traffic := by
  have same : InterfaceStep w interfaces home packets = TrafficStep w home packets :=
    funext fun before => funext fun after => propext (interface_step w interfaces plugged home packets before after)
  rw [same]

end Traffic

-- What a container sees: the loopback, and a link and an IPv4 entry for each
-- network.
def corridorInterfaces (n : Fin 3) : List (Ifaddr Nat) :=
  ⟨"lo", some .packet, none⟩ :: ⟨"lo", some .inet, some 127⟩ ::
    ((List.range 3).filter fun z => decide (z ∈ corridor.networks n)).flatMap fun z =>
      [⟨"eth", some .packet, none⟩, ⟨"eth", some .inet, some z⟩, ⟨"eth", some .inet6, none⟩]

theorem corridor_plugged (n : Fin 3) : Plugged (corridor.networks n) (corridorInterfaces n) := by
  have small : ∀ z ∈ corridor.networks n, z < 3 := by
    revert n
    decide
  constructor
  · intro z
    simp only [corridorInterfaces, List.mem_cons, List.mem_flatMap, List.mem_filter, List.mem_range, decide_eq_true_eq]
    constructor
    · intro member
      exact ⟨⟨"eth", some .inet, some z⟩, Or.inr (Or.inr ⟨z, ⟨small z member, member⟩, by simp⟩), ⟨rfl, by simp⟩, rfl⟩
    · intro entry
      obtain ⟨item, place, wired, network⟩ := entry
      rcases place with rfl | rfl | ⟨there, ⟨_, member⟩, itself⟩
      · exact absurd wired.1 (by decide)
      · exact absurd rfl wired.2
      · rcases itself with rfl | rfl | rfl | never
        · exact absurd wired.1 (by decide)
        · obtain rfl : there = z := Option.some.inj network
          exact member
        · exact absurd wired.1 (by decide)
        · exact absurd never List.not_mem_nil
  · clear small
    revert n
    decide

theorem crossed_interfaces :
    Relation.ReflTransGen (InterfaceStep corridor corridorInterfaces corridorHome {sosPacket, exitPacket}) .start (crossed 0 1 9) :=
  (interface_runs corridor corridorInterfaces corridor_plugged corridorHome {sosPacket, exitPacket} (crossed 0 1 9)).mpr
    (crossed_run 9 (Nat.le_refl 9))

end BeaconMesh.Simulator
