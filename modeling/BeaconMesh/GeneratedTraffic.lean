import BeaconMesh.GeneratorIslands
import BeaconMesh.GeneratorReach
import BeaconMesh.TrafficDelivery

set_option autoImplicit false

namespace BeaconMesh.Generator

open BreadthFirst Flood RoundRobin Simulator

-- The exits do not bear on which networks the relays connect.
theorem reached_any_exits (relays : List Relay) (exits others : List Exit) (n : ℕ) :
    Reached (services relays exits) n ↔ Reached (services relays others) n := by
  rw [reached_shares, reached_shares]

section Built

variable (order : SetOrder) (numRelays numExits : ℕ) (draws : List Draw) (positive : 1 ≤ numExits) (fair : FairDraws numRelays draws)
  (mesh : GeneratedMesh) (calls : List RandomCall) (built : buildMesh order numRelays numExits draws [] = .ok (mesh, calls))

include positive fair built

theorem built_relays : mesh.relays = (Generation.start.grow 1 draws).relays := by
  obtain ⟨itself, itsCalls, depths, ran, _, relays, _⟩ := build_mesh_run order numRelays numExits draws positive fair
  rw [built, Except.ok.injEq, Prod.mk.injEq] at ran
  rw [ran.1]
  exact relays

theorem built_size : (Finset.univ.filter fun n => mesh.services.relay n = true).card = numRelays := by
  rw [GeneratedMesh.services, relay_services, built_relays order numRelays numExits draws positive fair mesh calls built, grow_length,
    fair.length]
  exact Nat.zero_add numRelays

theorem exit_connected (j : Fin mesh.exits.length) : ∃ n ∈ mesh.services.networks (.inr j), Reached mesh.services n := by
  obtain ⟨itself, itsCalls, depths, ran, _, _, _, _, distances, networks⟩ :=
    build_mesh_run order numRelays numExits draws positive fair
  rw [built, Except.ok.injEq, Prod.mk.injEq] at ran
  obtain ⟨rfl, _⟩ := ran
  have placed : (mesh.exits.get j).network ∈ dealt (targetNetworks depths numExits) numExits := by
    rw [← networks]
    exact List.mem_map_of_mem (List.get_mem mesh.exits j)
  obtain ⟨depth, recorded⟩ := exit_recorded depths numExits distances.rooted (mesh.exits.get j).network placed
  have reached := (recorded_iff order mesh.relays mesh.exits depths distances _).mp (List.mem_map_of_mem recorded)
  exact ⟨(mesh.exits.get j).network, Finset.mem_singleton_self _, reached⟩

theorem main_connected (i : Fin mesh.relays.length) (draw : Draw) (drawn : draws[i.val]? = some draw) (isMain : draw.isMainMesh = true) :
    ∃ n ∈ mesh.services.networks (.inl i), Reached mesh.services n := by
  have relays := built_relays order numRelays numExits draws positive fair mesh calls built
  have added : (Generation.start.grow 1 draws).relays[i.val]? = some (mesh.relays.get i) := by
    rw [← relays]
    exact List.getElem?_eq_getElem i.isLt
  have networks : mesh.services.networks (.inl i) = draw.nets := relay_draw draws i draw (mesh.relays.get i) drawn added
  have anchored : draw.anchor ∈ draw.nets := by
    rw [Draw.nets, if_pos isMain]
    exact Finset.mem_union_left _ (Finset.mem_singleton_self _)
  refine ⟨draw.anchor, networks ▸ anchored, ?_⟩
  rw [GeneratedMesh.services, reached_any_exits mesh.relays mesh.exits [], relays]
  exact active_reached numRelays draws fair draw.anchor
    ((mem_grow_active 1 .start draws draw.anchor).mpr (Or.inr ⟨draw, List.mem_of_getElem? drawn, isMain, anchored⟩))

variable (small : numRelays ≤ 19) (packets : Finset EmergencyPacket) (real : ∀ packet ∈ packets, packet.hmacSig ≠ 0)
  (full : ∀ packet ∈ packets, (ttlOf packet.flags).toNat = 20)
  (apart : ∀ one ∈ packets, ∀ other ∈ packets, one.hmacSig = other.hmacSig → one = other) (few : packets.card ≤ 256)

include small real full apart few

-- From the generator to the reports: in every mesh of up to 19 relays that
-- build_mesh can come up with, and for up to 256 emergencies on zone 1 at
-- once, every exit reports each of them exactly once, every relay of the main
-- mesh passes each on exactly once, and the stranded relays hear nothing.
theorem generated_mesh_serves (traffic : Traffic (Fin mesh.relays.length ⊕ Fin mesh.exits.length))
    (run : Relation.ReflTransGen (TrafficStep mesh.services (fun _ => 1) packets) .start traffic) (quiet : traffic.inFlight = 0)
    (packet : EmergencyPacket) (member : packet ∈ packets) (sent : packet ∈ traffic.sent) :
    (∀ j, finishes (turnsFor packet.hmacSig (traffic.history (.inr j))) = [EmergencyPacket.size]) ∧
    (∀ (i : Fin mesh.relays.length) (draw : Draw), draws[i.val]? = some draw → draw.isMainMesh = true →
      ∃ hops, 1 ≤ hops ∧ hops ≤ 19 ∧ forwards (turnsFor packet.hmacSig (traffic.history (.inl i))) = [aged packet hops]) ∧
    ∀ i : Fin mesh.relays.length, (∀ n ∈ mesh.services.networks (.inl i), ¬ Reached mesh.services n) →
      turnsFor packet.hmacSig (traffic.history (.inl i)) = [] := by
  have relays : (Finset.univ.filter fun n => mesh.services.relay n = true).card ≤ 19 := by
    rw [built_size order numRelays numExits draws positive fair mesh calls built]
    exact small
  have works := connected_works mesh.services (fun _ => 1) packets real full apart few relays traffic run quiet packet member sent
  refine ⟨fun j => ?_, fun i draw drawn isMain => ?_, fun i stranded => ?_⟩
  · obtain ⟨n, attached, reached⟩ := exit_connected order numRelays numExits draws positive fair mesh calls built j
    exact (works (.inr j) n reached attached).2 rfl
  · obtain ⟨n, attached, reached⟩ := main_connected order numRelays numExits draws positive fair mesh calls built i draw drawn isMain
    exact (works (.inl i) n reached attached).1 rfl
  · apply apart_idle mesh.services (fun _ => 1) packets real full apart few traffic run quiet packet member sent
    intro connected
    obtain ⟨n, reached, attached⟩ := connected
    exact stranded n attached reached

end Built

-- One main relay from zone 1 to the zone of the exit, and an island.
def bridgeDraws : List Draw := [⟨true, 1, 1, [2]⟩, ⟨false, 1, 0, [3, 4]⟩]

def bridgeMesh : GeneratedMesh :=
  let relays : List Relay := [⟨"relay_1", {1, 2}⟩, ⟨"relay_2", {3, 4}⟩]
  let exits : List Exit := [⟨"exit_1", 2⟩]
  ⟨relays, exits, finalNetworks ⟨relays, {1, 2}, {1, 2, 3, 4}⟩ exits⟩

theorem bridge_built :
    buildMesh ascending 2 1 bridgeDraws [] = .ok (bridgeMesh, [⟨{1}, 1⟩, ⟨{2, 3, 4}, 1⟩, ⟨{3, 4}, 2⟩]) := rfl

abbrev BridgeService := Fin bridgeMesh.relays.length ⊕ Fin bridgeMesh.exits.length

def bridgeRelay : BridgeService := .inl ⟨0, by decide⟩

def bridgeExit : BridgeService := .inr ⟨0, by decide⟩

-- The relay passes the packet on and hears itself on both of its networks.
def bridgeTraffic : Traffic BridgeService :=
  [(bridgeRelay, sosPacket), (bridgeRelay, aged sosPacket 1), (bridgeExit, aged sosPacket 1), (bridgeRelay, aged sosPacket 1)].foldl
    (Traffic.deliver bridgeMesh.services) (Traffic.start.sos bridgeMesh.services 1 sosPacket)

theorem bridge_run :
    Relation.ReflTransGen (TrafficStep bridgeMesh.services (fun _ => 1) {sosPacket}) .start bridgeTraffic := by
  have sent : Relation.ReflTransGen (TrafficStep bridgeMesh.services (fun _ => 1) {sosPacket}) .start
      (Traffic.start.sos bridgeMesh.services 1 sosPacket) := .single (.sos .start sosPacket (by decide))
  have relayed := sent.tail (.delivery _ (bridgeRelay, sosPacket) (by decide +kernel))
  have echoed := relayed.tail (.delivery _ (bridgeRelay, aged sosPacket 1) (by decide +kernel))
  have arrived := echoed.tail (.delivery _ (bridgeExit, aged sosPacket 1) (by decide +kernel))
  exact arrived.tail (.delivery _ (bridgeRelay, aged sosPacket 1) (by decide +kernel))

theorem bridge_mesh_serves : finishes (turnsFor 4 (bridgeTraffic.history bridgeExit)) = [25] := by
  have served := generated_mesh_serves ascending 2 1 bridgeDraws (Nat.le_refl 1) ⟨rfl, by decide⟩ bridgeMesh _ bridge_built (by decide)
    {sosPacket} (by decide) (by decide) (by decide) (by decide) bridgeTraffic bridge_run (by decide +kernel) sosPacket (by decide)
    (by decide +kernel)
  exact served.1 ⟨0, by decide⟩

end BeaconMesh.Generator
