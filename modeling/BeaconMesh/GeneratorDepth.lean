import BeaconMesh.Lib.Route
import BeaconMesh.MeshGenerator

set_option autoImplicit false

namespace BeaconMesh.Generator

open BreadthFirst Flood

theorem mem_graph (relays : List Relay) (n1 n2 : ℕ) :
    n2 ∈ graphOf relays n1 ↔ n1 ≠ n2 ∧ ∃ relay ∈ relays, n1 ∈ relay.networks ∧ n2 ∈ relay.networks := by
  have fold : ∀ graph : ℕ → Finset ℕ, n2 ∈ relays.foldl addRelay graph n1 ↔
      n2 ∈ graph n1 ∨ n1 ≠ n2 ∧ ∃ relay ∈ relays, n1 ∈ relay.networks ∧ n2 ∈ relay.networks := by
    induction relays with
    | nil => simp
    | cons relay relays ih =>
        intro graph
        have here : n2 ∈ addRelay graph relay n1 ↔ n2 ∈ graph n1 ∨ n1 ≠ n2 ∧ n1 ∈ relay.networks ∧ n2 ∈ relay.networks := by
          by_cases attached : n1 ∈ relay.networks
          · simp [addRelay, attached, eq_comm]
          · simp [addRelay, attached]
        rw [List.foldl_cons, ih, here, or_assoc, ← and_or_left]
        simp only [List.mem_cons, exists_eq_or_imp]
  simpa [graphOf] using fold fun _ => ∅

theorem mem_attached (relays : List Relay) (n : ℕ) : n ∈ attachedNetworks relays ↔ n = 1 ∨ ∃ relay ∈ relays, n ∈ relay.networks := by
  induction relays with
  | nil => simp [attachedNetworks]
  | cons relay relays ih =>
      rw [attachedNetworks, List.foldr_cons, ← attachedNetworks, Finset.mem_union, ih, or_left_comm]
      simp only [List.mem_cons, exists_eq_or_imp]

theorem mem_neighbors (order : SetOrder) (relays : List Relay) (n1 n2 : ℕ) :
    n2 ∈ neighbors order relays n1 ↔ n1 ≠ n2 ∧ ∃ relay ∈ relays, n1 ∈ relay.networks ∧ n2 ∈ relay.networks := by
  rw [neighbors, order.mem_list, mem_graph]

theorem walk_attached (order : SetOrder) (relays : List Relay) (length n : ℕ) (walk : Walk (neighbors order relays) 1 length n) :
    n ∈ attachedNetworks relays := by
  cases walk with
  | source => exact (mem_attached relays 1).mpr (Or.inl rfl)
  | step length here _ walk edge =>
      obtain ⟨_, relay, member, _, attached⟩ := (mem_neighbors order relays here n).mp edge
      exact (mem_attached relays n).mpr (Or.inr ⟨relay, member, attached⟩)

theorem breadth_first_distances (order : SetOrder) (relays : List Relay) :
    ∃ depths, breadthFirst order relays = some ⟨depths, []⟩ ∧ Distances (neighbors order relays) 1 depths :=
  search_distances (neighbors order relays) 1 (attachedNetworks relays) (walk_attached order relays)

-- The containers that the template attaches to networks. The victim sends
-- on zone 1.
def services (relays : List Relay) (exits : List Exit) : Wiring (Fin relays.length ⊕ Fin exits.length) ℕ where
  relay
    | .inl _ => true
    | .inr _ => false
  networks
    | .inl i => relays[i].networks
    | .inr j => {exits[j].network}
  source := 1

section Chains

variable (order : SetOrder) (relays : List Relay) (exits : List Exit)

theorem walk_chain (length n : ℕ) (walk : Walk (neighbors order relays) 1 length n) :
    ∃ path, Chain (services relays exits) path n ∧ path.length = length := by
  induction walk with
  | source => exact ⟨[], .source, rfl⟩
  | step length here there walk edge ih =>
      obtain ⟨path, chain, crossed⟩ := ih
      obtain ⟨_, relay, member, hears, speaks⟩ := (mem_neighbors order relays here there).mp edge
      obtain ⟨i, bound, rfl⟩ := List.getElem_of_mem member
      exact ⟨.inl ⟨i, bound⟩ :: path, .hop path here there (.inl ⟨i, bound⟩) chain rfl hears speaks, by rw [List.length_cons, crossed]⟩

theorem chain_walk (path : List (Fin relays.length ⊕ Fin exits.length)) (n : ℕ) (chain : Chain (services relays exits) path n) :
    ∃ length, Walk (neighbors order relays) 1 length n ∧ length ≤ path.length := by
  induction chain with
  | source => exact ⟨0, .source, Nat.le_refl 0⟩
  | hop path here there r chain passes hears speaks ih =>
      obtain ⟨length, walk, shorter⟩ := ih
      cases r with
      | inr j => cases passes
      | inl i =>
          by_cases same : here = there
          · exact ⟨length, same ▸ walk, shorter.trans (Nat.le_succ path.length)⟩
          · have edge : there ∈ neighbors order relays here :=
              (mem_neighbors order relays here there).mpr ⟨same, relays[i], List.getElem_mem i.isLt, hears, speaks⟩
            exact ⟨length + 1, .step length here there walk edge, Nat.succ_le_succ shorter⟩

theorem recorded_depth (depths : List (ℕ × ℕ)) (distances : Distances (neighbors order relays) 1 depths) (n depth : ℕ)
    (member : (n, depth) ∈ depths) : Depth (services relays exits) n depth := by
  obtain ⟨walk, below⟩ := distances_least (neighbors order relays) 1 depths distances n depth member
  refine ⟨walk_chain order relays exits depth n walk, fun length crossed => ?_⟩
  obtain ⟨path, chain, rfl⟩ := crossed
  obtain ⟨shorter, found, bound⟩ := chain_walk order relays exits path n chain
  exact (below found).trans bound

theorem recorded_iff (depths : List (ℕ × ℕ)) (distances : Distances (neighbors order relays) 1 depths) (n : ℕ) :
    n ∈ depths.map Prod.fst ↔ Reached (services relays exits) n := by
  constructor
  · intro known
    obtain ⟨entry, member, rfl⟩ := List.mem_map.mp known
    obtain ⟨path, chain, _⟩ := walk_chain order relays exits entry.2 entry.1 (distances.walked entry member)
    exact ⟨path, chain⟩
  · intro reached
    obtain ⟨path, chain⟩ := reached
    obtain ⟨length, walk, _⟩ := chain_walk order relays exits path n chain
    obtain ⟨depth, found, _⟩ := distances.shortest length n walk
    exact List.mem_map_of_mem found

theorem depth_recorded (depths : List (ℕ × ℕ)) (distances : Distances (neighbors order relays) 1 depths) (n depth : ℕ)
    (least : Depth (services relays exits) n depth) : (n, depth) ∈ depths := by
  obtain ⟨path, chain, _⟩ := least.1
  obtain ⟨entry, found, rfl⟩ := List.mem_map.mp ((recorded_iff order relays exits depths distances n).mpr ⟨path, chain⟩)
  obtain rfl : depth = entry.2 := least.unique (recorded_depth order relays exits depths distances entry.1 entry.2 found)
  exact found

end Chains

-- The search ends, on every set of relays. Its depths are those of the
-- networks that relays connect to zone 1, and no turn records one that is not
-- the least: there is nothing to lower when a network comes up again.
theorem search_finds_depths (order : SetOrder) (relays : List Relay) :
    ∃ depths : List (ℕ × ℕ),
      (∀ turns, (attachedNetworks relays).card ≤ turns →
        Search.explore (neighbors order relays) turns (Search.start 1) = some ⟨depths, []⟩) ∧
      (depths.map Prod.fst).Nodup ∧ (∀ n, n ∈ depths.map Prod.fst ↔ Reached (services relays []) n) ∧
      (∀ n depth, (n, depth) ∈ depths → Depth (services relays []) n depth) ∧
      ∀ turns, ∃ search, Search.explore (neighbors order relays) turns (Search.start 1) = some search ∧
        ∀ n depth, (n, depth) ∈ search.depths → Depth (services relays []) n depth := by
  obtain ⟨depths, settled, partway, distances⟩ :=
    search_settles (neighbors order relays) 1 (attachedNetworks relays) (walk_attached order relays)
  have least := recorded_depth order relays [] depths distances
  refine ⟨depths, settled, distances.distinct, recorded_iff order relays [] depths distances, least, fun turns => ?_⟩
  obtain ⟨search, explored, earlier⟩ := partway turns
  exact ⟨search, explored, fun n depth member => least n depth (earlier.subset member)⟩

end BeaconMesh.Generator
