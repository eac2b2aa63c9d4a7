import BeaconMesh.GeneratorDepth
import BeaconMesh.Lib.RoundRobin

set_option autoImplicit false

namespace BeaconMesh.Generator

open BreadthFirst Flood RoundRobin

section Targets

variable (depths : List (ℕ × ℕ)) (numExits : ℕ)

theorem reachable_perm : (reachableNetworks depths).Perm (depths.map Prod.fst) := (List.perm_insertionSort _ depths).map Prod.fst

theorem mem_reachable (n : ℕ) : n ∈ reachableNetworks depths ↔ n ∈ depths.map Prod.fst := (reachable_perm depths).mem_iff

variable (rooted : (1, 0) ∈ depths)

include rooted

theorem targets_taken : targetNetworks depths numExits = (reachableNetworks depths).take numExits := by
  have one : 1 ∈ reachableNetworks depths := (mem_reachable depths 1).mpr (List.mem_map_of_mem rooted)
  rw [targetNetworks, if_neg]
  intro empty
  rw [List.isEmpty_iff.mp empty] at one
  cases one

theorem targets_length : (targetNetworks depths numExits).length = min numExits depths.length := by
  rw [targets_taken depths numExits rooted, List.length_take, (reachable_perm depths).length_eq, List.length_map]

theorem targets_some (positive : 1 ≤ numExits) : targetNetworks depths numExits ≠ [] := by
  intro empty
  have length := targets_length depths numExits rooted
  have known := List.length_pos_of_mem rooted
  rw [empty, List.length_nil] at length
  omega

theorem all_targets (many : depths.length ≤ numExits) : targetNetworks depths numExits = reachableNetworks depths := by
  rw [targets_taken depths numExits rooted]
  apply List.take_of_length_le
  rw [(reachable_perm depths).length_eq, List.length_map]
  exact many

theorem mem_targets (n : ℕ) (member : n ∈ targetNetworks depths numExits) : ∃ depth, (n, depth) ∈ depths := by
  rw [targets_taken depths numExits rooted] at member
  obtain ⟨entry, found, same⟩ := List.mem_map.mp ((mem_reachable depths n).mp (List.mem_of_mem_take member))
  exact ⟨entry.2, same ▸ found⟩

theorem exit_recorded (n : ℕ) (placed : n ∈ dealt (targetNetworks depths numExits) numExits) : ∃ depth, (n, depth) ∈ depths :=
  mem_targets depths numExits rooted n (mem_of_dealt _ numExits n placed)

variable (distinct : (depths.map Prod.fst).Nodup)

include distinct

theorem targets_nodup : (targetNetworks depths numExits).Nodup := by
  rw [targets_taken depths numExits rooted]
  exact ((reachable_perm depths).nodup_iff.mpr distinct).sublist (List.take_sublist _ _)

theorem exit_on_target (positive : 1 ≤ numExits) (n : ℕ) :
    n ∈ dealt (targetNetworks depths numExits) numExits ↔ n ∈ targetNetworks depths numExits := by
  constructor
  · exact mem_of_dealt _ numExits n
  · apply mem_dealt _ (targets_some depths numExits rooted positive) (targets_nodup depths numExits rooted distinct)
    rw [targets_length depths numExits rooted]
    exact Nat.min_le_left _ _

theorem targets_furthest (n near m far : ℕ) (left : (n, near) ∈ depths) (out : n ∉ targetNetworks depths numExits)
    (right : (m, far) ∈ depths) (taken : m ∈ targetNetworks depths numExits) : near ≤ far := by
  have sorted := List.pairwise_insertionSort (fun first later : ℕ × ℕ => later.2 ≤ first.2) depths
  have same : ∀ entry, entry ∈ depths.insertionSort (fun first later => later.2 ≤ first.2) ↔ entry ∈ depths :=
    fun entry => List.mem_insertionSort _
  rw [targets_taken depths numExits rooted, reachableNetworks, ← List.map_take] at out taken
  generalize depths.insertionSort (fun first later => later.2 ≤ first.2) = ranking at sorted same out taken
  rw [← List.take_append_drop numExits ranking] at sorted same
  obtain ⟨entry, ahead, network⟩ := List.mem_map.mp taken
  have known := (same entry).mp (List.mem_append_left _ ahead)
  obtain rfl : entry = (m, far) := List.inj_on_of_nodup_map distinct known right network
  cases List.mem_append.mp ((same (n, near)).mpr left) with
  | inl inside => exact absurd (List.mem_map_of_mem inside) out
  | inr behind => exact (List.pairwise_append.mp sorted).2.2 (m, far) ahead (n, near) behind

theorem first_target (n : ℕ) (first : (targetNetworks depths numExits)[0]? = some n) :
    ∃ depth, (n, depth) ∈ depths ∧ ∀ entry ∈ depths, entry.2 ≤ depth := by
  have head : (reachableNetworks depths)[0]? = some n := by
    rw [targets_taken depths numExits rooted, List.getElem?_take] at first
    split at first
    · exact first
    · cases first
  have alone : targetNetworks depths 1 = [n] := by
    rw [targets_taken depths 1 rooted, List.take_one, List.head?_eq_getElem?, head]
    rfl
  have target : n ∈ targetNetworks depths 1 := alone ▸ List.mem_singleton_self n
  obtain ⟨depth, found⟩ := mem_targets depths 1 rooted n target
  refine ⟨depth, found, fun entry member => ?_⟩
  by_cases here : entry.1 = n
  · exact (congrArg Prod.snd (List.inj_on_of_nodup_map distinct member found here)).le
  · apply targets_furthest depths 1 rooted distinct entry.1 entry.2 n depth member _ found target
    rw [alone, List.mem_singleton]
    exact here

end Targets

section Exits

theorem placed_exits (targets : List ℕ) (some : targets ≠ []) (count : ℕ) :
    ∃ exits, placeExits targets count = .ok exits ∧ exits.map Exit.network = dealt targets count := by
  induction count with
  | zero => exact ⟨[], rfl, rfl⟩
  | succ count ih =>
      obtain ⟨placed, ran, networks⟩ := ih
      obtain ⟨bound, next⟩ := dealt_next targets some count
      refine ⟨placed ++ [⟨s!"exit_{count + 1}", targets[count % targets.length]⟩], ?_, ?_⟩
      · rw [placeExits, ran]
        simp only [bind, Except.bind, List.getElem?_eq_getElem bound]
        rfl
      · rw [List.map_append, networks, next]
        rfl

theorem exit_nodes_placed (order : SetOrder) (relays : List Relay) (numExits : ℕ) (positive : 1 ≤ numExits) :
    ∃ exits depths, breadthFirst order relays = some ⟨depths, []⟩ ∧ exitNodes order relays numExits = .ok exits ∧
      Distances (neighbors order relays) 1 depths ∧
      exits.map Exit.network = dealt (targetNetworks depths numExits) numExits := by
  obtain ⟨depths, searched, distances⟩ := breadth_first_distances order relays
  obtain ⟨exits, placed, networks⟩ := placed_exits (targetNetworks depths numExits) (targets_some depths numExits distances.rooted positive) numExits
  refine ⟨exits, depths, searched, ?_, distances, networks⟩
  rw [exitNodes, searched]
  exact placed

theorem build_mesh_run (order : SetOrder) (numRelays numExits : ℕ) (draws : List Draw) (positive : 1 ≤ numExits)
    (fair : FairDraws numRelays draws) :
    ∃ mesh calls depths, buildMesh order numRelays numExits draws [] = .ok (mesh, calls) ∧ (∀ call ∈ calls, call.Possible) ∧
      mesh.relays = (Generation.start.grow 1 draws).relays ∧
      mesh.networks = finalNetworks (Generation.start.grow 1 draws) mesh.exits ∧ mesh.exits.length = numExits ∧
      Distances (neighbors order mesh.relays) 1 depths ∧
      mesh.exits.map Exit.network = dealt (targetNetworks depths numExits) numExits := by
  obtain ⟨calls, generated, possible⟩ := generate_run numRelays draws fair
  obtain ⟨exits, depths, _, placed, distances, networks⟩ :=
    exit_nodes_placed order (Generation.start.grow 1 draws).relays numExits positive
  have length : exits.length = numExits := by
    rw [← List.length_map Exit.network, networks, dealt_length _ (targets_some depths numExits distances.rooted positive)]
  refine ⟨⟨(Generation.start.grow 1 draws).relays, exits, finalNetworks (Generation.start.grow 1 draws) exits⟩, calls, depths, ?_,
    possible, rfl, rfl, length, distances, networks⟩
  rw [buildMesh, random_bind _ _ _ _ _ generated]
  simp only [placed]
  rfl

end Exits

-- The exits stand on the furthest networks, one on each as long as there are
-- enough, and otherwise as evenly as they can.
theorem exits_furthest_and_even (order : SetOrder) (relays : List Relay) (numExits : ℕ) (positive : 1 ≤ numExits) :
    ∃ (exits : List Exit) (reachable : Finset ℕ), exitNodes order relays numExits = .ok exits ∧ exits.length = numExits ∧
      (∀ n, n ∈ reachable ↔ Reached (services relays []) n) ∧
      (∀ e ∈ exits, e.network ∈ reachable) ∧
      (∀ n ∈ reachable, n ∉ exits.map Exit.network → ∀ e ∈ exits, ∀ near far,
        Depth (services relays []) n near → Depth (services relays []) e.network far → near ≤ far) ∧
      (numExits ≤ reachable.card → (exits.map Exit.network).Nodup) ∧
      (reachable.card < numExits → (∀ n ∈ reachable, n ∈ exits.map Exit.network) ∧
        ∀ n ∈ reachable, ∀ m ∈ reachable, (exits.map Exit.network).count n ≤ (exits.map Exit.network).count m + 1) := by
  obtain ⟨exits, depths, _, placed, distances, networks⟩ := exit_nodes_placed order relays numExits positive
  have some := targets_some depths numExits distances.rooted positive
  have distinct := targets_nodup depths numExits distances.rooted distances.distinct
  have onTarget := exit_on_target depths numExits distances.rooted distances.distinct positive
  have known : ∀ n, n ∈ (depths.map Prod.fst).toFinset ↔ n ∈ depths.map Prod.fst := fun n => List.mem_toFinset
  have card : (depths.map Prod.fst).toFinset.card = depths.length := by
    rw [List.toFinset_card_of_nodup distances.distinct, List.length_map]
  have taken : ∀ e ∈ exits, e.network ∈ dealt (targetNetworks depths numExits) numExits :=
    fun e member => networks ▸ List.mem_map_of_mem member
  refine ⟨exits, (depths.map Prod.fst).toFinset, placed, ?_, fun n => ?_, fun e member => ?_, ?_, fun few => ?_, fun many => ?_⟩
  · rw [← List.length_map Exit.network, networks, dealt_length _ some]
  · exact (known n).trans (recorded_iff order relays [] depths distances n)
  · obtain ⟨depth, found⟩ := exit_recorded depths numExits distances.rooted e.network (taken e member)
    exact (known e.network).mpr (List.mem_map_of_mem found)
  · intro n _ missing e member near far leastNear leastFar
    rw [networks, onTarget] at missing
    exact targets_furthest depths numExits distances.rooted distances.distinct n near e.network far
      (depth_recorded order relays [] depths distances n near leastNear) missing
      (depth_recorded order relays [] depths distances e.network far leastFar) ((onTarget e.network).mp (taken e member))
  · have length := targets_length depths numExits distances.rooted
    rw [Nat.min_eq_left (card ▸ few)] at length
    rw [networks, dealt_once _ numExits length.ge]
    exact distinct.sublist (List.take_sublist _ _)
  · have whole := all_targets depths numExits distances.rooted (card ▸ many.le)
    have targeted : ∀ n ∈ (depths.map Prod.fst).toFinset, n ∈ targetNetworks depths numExits := by
      intro n member
      rw [whole, mem_reachable, ← known]
      exact member
    rw [networks]
    constructor
    · exact fun n member => (onTarget n).mpr (targeted n member)
    · exact fun n left m right => dealt_even _ some distinct numExits n m (targeted n left) (targeted m right)

theorem bridge_exits_even : 1 ≤ 3 ∧ ∃ exits, exitNodes ascending [⟨"relay_1", {1, 2}⟩] 3 = .ok exits ∧ exits.length = 3 ∧
    ∀ e ∈ exits, Reached (services [⟨"relay_1", {1, 2}⟩] []) e.network := by
  obtain ⟨exits, reachable, placed, length, known, onReachable, _⟩ :=
    exits_furthest_and_even ascending [⟨"relay_1", {1, 2}⟩] 3 (by decide)
  exact ⟨by decide, exits, placed, length, fun e member => (known e.network).mp (onReachable e member)⟩

end BeaconMesh.Generator
