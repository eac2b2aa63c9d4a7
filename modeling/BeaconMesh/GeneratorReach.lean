import BeaconMesh.GeneratorExits
import BeaconMesh.MeshDelivery

set_option autoImplicit false

namespace BeaconMesh.Simulator

open Flood

section Budget

variable {ν ζ : Type} (w : Wiring ν ζ) (packet : EmergencyPacket)

theorem finished_accepted (mesh : MeshState ν) (flood : Flood.State ν) (follows : Follows w packet mesh flood) (n : ν)
    (ends : w.relay n = false) : finishes (mesh.turns n) = [EmergencyPacket.size] ↔ n ∈ flood.accepted := by
  constructor
  · intro printed
    by_contra missed
    rw [((follows.nodes n).fresh missed).2] at printed
    cases printed
  · exact fun accepted => (follows.nodes n).finished accepted ends

variable [Fintype ν] [DecidableEq ν] [DecidableEq ζ]

-- With a TTL of 20 an exit can hear a packet exactly when at most 19 relays
-- lie between the victim and one of its networks.
theorem exit_can_finish (real : packet.hmacSig ≠ 0) (full : (ttlOf packet.flags).toNat = 20) (n : ν) (ends : w.relay n = false) :
    (∃ mesh, Relation.ReflTransGen (MeshStep w packet) .start mesh ∧ finishes (mesh.turns n) = [EmergencyPacket.size]) ↔
      ∃ path z, Chain w path z ∧ path.length < 20 ∧ z ∈ w.networks n := by
  rw [← accepted_in_some_run w 20 (by decide) n]
  constructor
  · rintro ⟨mesh, run, printed⟩
    obtain ⟨flood, reached, follows⟩ := mesh_refines_flood w packet real full mesh run
    exact ⟨flood, reached, (finished_accepted w packet mesh flood follows n ends).mp printed⟩
  · rintro ⟨flood, reached, accepted⟩
    obtain ⟨mesh, run, follows⟩ := flood_has_mesh w packet real full flood reached
    exact ⟨mesh, run, (finished_accepted w packet mesh flood follows n ends).mpr accepted⟩

end Budget

end BeaconMesh.Simulator

namespace BeaconMesh.Generator

open BreadthFirst Flood RoundRobin Simulator

def GeneratedMesh.services (mesh : GeneratedMesh) : Wiring (Fin mesh.relays.length ⊕ Fin mesh.exits.length) ℕ :=
  Generator.services mesh.relays mesh.exits

def WithinBudget (mesh : GeneratedMesh) : Prop :=
  ∀ j : Fin mesh.exits.length, ∃ depth, Depth mesh.services mesh.exits[j].network depth ∧ depth ≤ 19

theorem relay_services (relays : List Relay) (exits : List Exit) :
    (Finset.univ.filter fun n => (services relays exits).relay n = true).card = relays.length := by
  have shape : (Finset.univ.filter fun n => (services relays exits).relay n = true) = Finset.univ.map Function.Embedding.inl := by
    ext n
    cases n with
    | inl i => exact iff_of_true (Finset.mem_filter.mpr ⟨Finset.mem_univ _, rfl⟩) (Finset.mem_map.mpr ⟨i, Finset.mem_univ i, rfl⟩)
    | inr j =>
        apply iff_of_false
        · intro member
          cases (Finset.mem_filter.mp member).2
        · intro member
          obtain ⟨i, _, same⟩ := Finset.mem_map.mp member
          cases same
  rw [shape, Finset.card_map, Finset.card_univ, Fintype.card_fin]

section Runs

variable (order : SetOrder) (numExits : ℕ)

theorem exit_depth (mesh : GeneratedMesh) (depths : List (ℕ × ℕ)) (distances : Distances (neighbors order mesh.relays) 1 depths)
    (networks : mesh.exits.map Exit.network = dealt (targetNetworks depths numExits) numExits) (j : Fin mesh.exits.length) :
    ∃ depth, Depth mesh.services mesh.exits[j].network depth ∧ depth ≤ mesh.relays.length := by
  have placed : mesh.exits[j].network ∈ dealt (targetNetworks depths numExits) numExits := by
    rw [← networks]
    exact List.mem_map_of_mem (List.getElem_mem j.isLt)
  obtain ⟨depth, recorded⟩ := exit_recorded depths numExits distances.rooted mesh.exits[j].network placed
  have least := recorded_depth order mesh.relays mesh.exits depths distances mesh.exits[j].network depth recorded
  refine ⟨depth, least, ?_⟩
  calc depth ≤ _ := depth_few _ _ depth least
    _ = mesh.relays.length := relay_services mesh.relays mesh.exits

end Runs

section Line

-- A chain of relays: each is anchored to the network that the one before it
-- has drawn.
def lineFrom : ℕ → ℕ → List Draw
  | _, 0 => []
  | k, count + 1 => ⟨true, 1, k, [k + 1]⟩ :: lineFrom (k + 1) count

theorem line_length (k count : ℕ) : (lineFrom k count).length = count := by
  induction count generalizing k with
  | zero => rfl
  | succ count ih => rw [lineFrom, List.length_cons, ih]

theorem line_active (state : Generation) (i k : ℕ) (positive : 1 ≤ k) (active : state.activeNetworks = Finset.Icc 1 k) :
    (state.add i true (Draw.nets ⟨true, 1, k, [k + 1]⟩)).activeNetworks = Finset.Icc 1 (k + 1) := by
  ext n
  simp only [Generation.add, Draw.nets, active, if_true, Finset.mem_union, Finset.mem_Icc, Finset.mem_singleton, List.mem_toFinset,
    List.mem_singleton]
  omega

theorem line_draw_fair (numRelays k : ℕ) (positive : 1 ≤ k) (bound : k ≤ numRelays) :
    FairDraw numRelays (Finset.Icc 1 k) ⟨true, 1, k, [k + 1]⟩ := by
  have unused : k + 1 ∈ inactivePool numRelays (Finset.Icc 1 k) := by
    simp only [inactivePool, potentialNetworks, totalNetworks, Finset.mem_sdiff, Finset.mem_Ico, Finset.mem_Icc]
    omega
  have some := Finset.card_pos.mpr ⟨k + 1, unused⟩
  constructor
  · exact ⟨Nat.le_refl 1, (by decide : 1 ≤ 2).trans (Nat.le_max_left 2 _)⟩
  · exact fun _ => Finset.mem_Icc.mpr ⟨positive, Nat.le_refl k⟩
  · exact fun _ => ⟨List.nodup_singleton (k + 1), by simpa using unused, (Nat.min_eq_left some).symm⟩
  · intro island
    cases island

theorem line_fair (numRelays i k count : ℕ) (state : Generation) (positive : 1 ≤ k) (bound : k + count ≤ numRelays + 1)
    (active : state.activeNetworks = Finset.Icc 1 k) : FairFrom numRelays i state (lineFrom k count) := by
  induction count generalizing i k state with
  | zero => trivial
  | succ count ih =>
      constructor
      · rw [active]
        exact line_draw_fair numRelays k positive (by omega)
      · exact ih (i + 1) (k + 1) _ (by omega) (by omega) (line_active state i k positive active)

theorem line_nets (k count : ℕ) : (lineFrom k count).map Draw.nets = (List.range' k count).map fun m => {m, m + 1} := by
  induction count generalizing k with
  | zero => rfl
  | succ count ih =>
      rw [lineFrom, List.map_cons, ih, List.range'_succ, List.map_cons]
      simp [Draw.nets]

theorem line_neighbors (order : SetOrder) (relays : List Relay) (numRelays here there : ℕ)
    (line : relays.map Relay.networks = (List.range' 1 numRelays).map fun m => {m, m + 1}) :
    there ∈ neighbors order relays here ↔
      here ≠ there ∧ ∃ m, 1 ≤ m ∧ m ≤ numRelays ∧ (here = m ∨ here = m + 1) ∧ (there = m ∨ there = m + 1) := by
  have attached : (∃ relay ∈ relays, here ∈ relay.networks ∧ there ∈ relay.networks) ↔
      ∃ networks ∈ relays.map Relay.networks, here ∈ networks ∧ there ∈ networks := by simp
  rw [mem_neighbors, attached, line]
  simp only [List.mem_map, List.mem_range'_1, exists_exists_and_eq_and, Finset.mem_insert, Finset.mem_singleton]
  constructor
  · rintro ⟨different, m, bounds, hears, speaks⟩
    exact ⟨different, m, bounds.1, by omega, hears, speaks⟩
  · rintro ⟨different, m, low, high, hears, speaks⟩
    exact ⟨different, m, ⟨low, by omega⟩, hears, speaks⟩

theorem line_walk (order : SetOrder) (relays : List Relay) (numRelays : ℕ)
    (line : relays.map Relay.networks = (List.range' 1 numRelays).map fun m => {m, m + 1}) (length : ℕ) (bound : length ≤ numRelays) :
    Walk (neighbors order relays) 1 length (length + 1) := by
  induction length with
  | zero => exact .source
  | succ length ih =>
      have edge : length + 1 + 1 ∈ neighbors order relays (length + 1) :=
        (line_neighbors order relays numRelays _ _ line).mpr ⟨by omega, length + 1, by omega, bound, Or.inl rfl, Or.inr rfl⟩
      exact .step length (length + 1) (length + 1 + 1) (ih (by omega)) edge

theorem line_walk_long (order : SetOrder) (relays : List Relay) (numRelays : ℕ)
    (line : relays.map Relay.networks = (List.range' 1 numRelays).map fun m => {m, m + 1}) (length n : ℕ)
    (walk : Walk (neighbors order relays) 1 length n) : n ≤ length + 1 := by
  induction walk with
  | source => exact Nat.le_refl 1
  | step length here there walk edge ih =>
      obtain ⟨_, m, _, _, hears, speaks⟩ := (line_neighbors order relays numRelays here there line).mp edge
      omega

-- The furthest network of a chain lies behind all of its relays, and the
-- first exit is placed there.
theorem line_mesh (order : SetOrder) (numRelays numExits : ℕ) (positive : 1 ≤ numExits) :
    FairDraws numRelays (lineFrom 1 numRelays) ∧ ∃ mesh calls,
      buildMesh order numRelays numExits (lineFrom 1 numRelays) [] = .ok (mesh, calls) ∧ (WithinBudget mesh → numRelays ≤ 19) := by
  have fair : FairDraws numRelays (lineFrom 1 numRelays) :=
    ⟨line_length 1 numRelays, line_fair numRelays 1 1 numRelays .start (Nat.le_refl 1) (by omega) (Finset.Icc_self 1).symm⟩
  obtain ⟨mesh, calls, depths, built, _, relays, _, length, distances, networks⟩ :=
    build_mesh_run order numRelays numExits (lineFrom 1 numRelays) positive fair
  refine ⟨fair, mesh, calls, built, fun within => ?_⟩
  have line : mesh.relays.map Relay.networks = (List.range' 1 numRelays).map fun m => {m, m + 1} := by
    rw [relays, grow_networks, line_nets]
    rfl
  have exit : 0 < mesh.exits.length := by omega
  have first : (targetNetworks depths numExits)[0]? = some mesh.exits[0].network := by
    rw [← dealt_head _ (targets_some depths numExits distances.rooted positive) numExits positive, ← networks, List.getElem?_map,
      List.getElem?_eq_getElem exit]
    rfl
  obtain ⟨deepest, recorded, furthest⟩ := first_target depths numExits distances.rooted distances.distinct mesh.exits[0].network first
  obtain ⟨depth, least, bound⟩ := within ⟨0, exit⟩
  have same : depth = deepest := least.unique (recorded_depth order mesh.relays mesh.exits depths distances _ deepest recorded)
  obtain ⟨last, found, _⟩ := distances.shortest numRelays (numRelays + 1) (line_walk order mesh.relays numRelays line numRelays (Nat.le_refl _))
  have far := line_walk_long order mesh.relays numRelays line last (numRelays + 1) (distances.walked (numRelays + 1, last) found)
  have near := furthest (numRelays + 1, last) found
  omega

end Line

theorem exit_reach (mesh : GeneratedMesh) (packet : EmergencyPacket) (real : packet.hmacSig ≠ 0)
    (full : (ttlOf packet.flags).toNat = 20) (j : Fin mesh.exits.length) (depth : ℕ)
    (least : Depth mesh.services mesh.exits[j].network depth) :
    depth ≤ 19 ↔ ∃ state, Relation.ReflTransGen (MeshStep mesh.services packet) .start state ∧
      finishes (state.turns (.inr j)) = [EmergencyPacket.size] := by
  rw [exit_can_finish mesh.services packet real full (.inr j) rfl]
  obtain ⟨⟨shortest, direct, length⟩, below⟩ := least
  constructor
  · intro near
    exact ⟨shortest, mesh.exits[j].network, direct, by omega, Finset.mem_singleton_self _⟩
  · rintro ⟨path, z, chain, within, attached⟩
    obtain rfl := Finset.mem_singleton.mp attached
    have bound : depth ≤ path.length := below ⟨path, chain, rfl⟩
    omega

theorem exits_bounded (order : SetOrder) (numRelays numExits : ℕ) (positive : 1 ≤ numExits) (draws : List Draw)
    (fair : FairDraws numRelays draws) :
    ∃ mesh calls, buildMesh order numRelays numExits draws [] = .ok (mesh, calls) ∧ mesh.exits.length = numExits ∧
      ∀ j : Fin mesh.exits.length, ∃ depth, Depth mesh.services mesh.exits[j].network depth ∧ depth ≤ numRelays := by
  obtain ⟨mesh, calls, depths, built, _, relays, _, length, distances, networks⟩ := build_mesh_run order numRelays numExits draws positive fair
  have count : mesh.relays.length = numRelays := by
    rw [relays, grow_length, fair.length]
    exact Nat.zero_add numRelays
  refine ⟨mesh, calls, built, length, fun j => ?_⟩
  obtain ⟨depth, least, bound⟩ := exit_depth order numExits mesh depths distances networks j
  exact ⟨depth, least, bound.trans_eq count⟩

-- Every exit is placed behind at most as many relays as there are. The TTL
-- of the victim reaches it when these are at most 19.
theorem exit_budget (order : SetOrder) (numRelays numExits : ℕ) (positive : 1 ≤ numExits) (packet : EmergencyPacket)
    (real : packet.hmacSig ≠ 0) (full : (ttlOf packet.flags).toNat = 20) :
    (∀ draws, FairDraws numRelays draws → ∃ mesh calls, buildMesh order numRelays numExits draws [] = .ok (mesh, calls) ∧
      mesh.exits.length = numExits ∧ ∀ j : Fin mesh.exits.length, ∃ depth, Depth mesh.services mesh.exits[j].network depth ∧
        depth ≤ numRelays ∧ (depth ≤ 19 ↔ ∃ state, Relation.ReflTransGen (MeshStep mesh.services packet) .start state ∧
          finishes (state.turns (.inr j)) = [EmergencyPacket.size])) ∧
    ((∀ draws mesh calls, FairDraws numRelays draws → buildMesh order numRelays numExits draws [] = .ok (mesh, calls) →
      WithinBudget mesh) ↔ numRelays ≤ 19) := by
  constructor
  · intro draws fair
    obtain ⟨mesh, calls, built, length, bounded⟩ := exits_bounded order numRelays numExits positive draws fair
    refine ⟨mesh, calls, built, length, fun j => ?_⟩
    obtain ⟨depth, least, few⟩ := bounded j
    exact ⟨depth, least, few, exit_reach mesh packet real full j depth least⟩
  · constructor
    · intro always
      obtain ⟨fair, mesh, calls, built, bound⟩ := line_mesh order numRelays numExits positive
      exact bound (always (lineFrom 1 numRelays) mesh calls fair built)
    · intro few draws mesh calls fair built j
      obtain ⟨other, more, again, _, bounded⟩ := exits_bounded order numRelays numExits positive draws fair
      obtain rfl : other = mesh := congrArg Prod.fst (Except.ok.inj (again.symm.trans built))
      obtain ⟨depth, least, bound⟩ := bounded j
      exact ⟨depth, least, bound.trans few⟩

theorem island_mesh_budget :
    1 ≤ 2 ∧ sosPacket.hmacSig ≠ 0 ∧ (ttlOf sosPacket.flags).toNat = 20 ∧ FairDraws 2 islandDraws ∧
      ∃ mesh calls, buildMesh ascending 2 2 islandDraws [] = .ok (mesh, calls) ∧ mesh.exits.length = 2 ∧
        ∀ j : Fin mesh.exits.length, ∃ depth, Depth mesh.services mesh.exits[j].network depth ∧ depth ≤ 2 ∧
          (depth ≤ 19 ↔ ∃ state, Relation.ReflTransGen (MeshStep mesh.services sosPacket) .start state ∧
            finishes (state.turns (.inr j)) = [25]) := by
  have budget := exit_budget ascending 2 2 (by decide) sosPacket (by decide) (by decide)
  exact ⟨by decide, by decide, by decide, island_draws_fair, budget.1 islandDraws island_draws_fair⟩

-- Twenty relays in a row put the exit one hop too far.
theorem long_line_exceeds_budget :
    FairDraws 20 (lineFrom 1 20) ∧ ∃ mesh calls,
      buildMesh ascending 20 1 (lineFrom 1 20) [] = .ok (mesh, calls) ∧ ¬ WithinBudget mesh := by
  obtain ⟨fair, mesh, calls, built, bound⟩ := line_mesh ascending 20 1 (by decide)
  exact ⟨fair, mesh, calls, built, fun within => absurd (bound within) (by decide)⟩

end BeaconMesh.Generator
