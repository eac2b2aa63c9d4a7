import BeaconMesh.GeneratorExits

set_option autoImplicit false

namespace BeaconMesh.Generator

open BreadthFirst RoundRobin

structure Service where
  name : String
  networks : Finset ℕ

structure Compose where
  services : List Service
  networks : List ℕ

-- docker-compose.yml.j2: the victim is always on zone 1.
def compose (mesh : GeneratedMesh) : Compose where
  services := ⟨"victim", {1}⟩ :: (mesh.relays.map fun relay => ⟨relay.name, relay.networks⟩) ++
    mesh.exits.map fun exit => ⟨exit.name, {exit.network}⟩
  networks := mesh.networks

section Draws

variable (numRelays : ℕ)

theorem fair_draw (i : ℕ) (state : Generation) (draws : List Draw) (fair : FairFrom numRelays i state draws) (draw : Draw)
    (member : draw ∈ draws) : ∃ activeNetworks, FairDraw numRelays activeNetworks draw := by
  induction draws generalizing i state with
  | nil => cases member
  | cons first draws ih =>
      obtain ⟨here, later⟩ := fair
      cases List.mem_cons.mp member with
      | inl same => exact ⟨state.activeNetworks, same ▸ here⟩
      | inr rest => exact ih (i + 1) _ later rest

-- With one relay there are already networks beside zone 1.
theorem island_pool_some (some : 1 ≤ numRelays) (activeNetworks : Finset ℕ) (numExtra : ℕ) :
    0 < (islandPool numRelays activeNetworks numExtra).card := by
  unfold islandPool
  split
  · apply Finset.card_pos.mpr
    exact ⟨2, Finset.mem_Ico.mpr ⟨Nat.le_refl 2, by rw [totalNetworks]; omega⟩⟩
  · omega

theorem drawn_nets_some (some : 1 ≤ numRelays) (activeNetworks : Finset ℕ) (draw : Draw)
    (fair : FairDraw numRelays activeNetworks draw) : draw.nets.Nonempty := by
  unfold Draw.nets
  split
  · exact ⟨draw.anchor, Finset.mem_union_left _ (Finset.mem_singleton_self _)⟩
  · rename_i island
    have length := (fair.island (by simpa using island)).length
    have pool := island_pool_some numRelays some activeNetworks draw.numExtra
    apply List.toFinset_nonempty_iff draw.sample |>.mpr
    intro empty
    rw [empty, List.length_nil] at length
    omega

end Draws

theorem mem_final_networks (draws : List Draw) (exits : List Exit) (n : ℕ) :
    n ∈ finalNetworks (Generation.start.grow 1 draws) exits ↔
      (∃ relay ∈ (Generation.start.grow 1 draws).relays, n ∈ relay.networks) ∨ n ∈ exits.map Exit.network := by
  have attached : (∃ relay ∈ (Generation.start.grow 1 draws).relays, n ∈ relay.networks) ↔
      ∃ nets ∈ (Generation.start.grow 1 draws).relays.map Relay.networks, n ∈ nets := by simp
  rw [attached, grow_networks, finalNetworks, Finset.mem_sort, Finset.mem_union, mem_grow_generated]
  simp [Generation.start]

end BeaconMesh.Generator
