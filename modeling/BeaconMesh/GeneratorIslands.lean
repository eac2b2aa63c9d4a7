import BeaconMesh.GeneratorDepth

set_option autoImplicit false

namespace BeaconMesh.Generator

open BreadthFirst Flood Relation

def Shares (nets : List (Finset ℕ)) (here there : ℕ) : Prop := ∃ networks ∈ nets, here ∈ networks ∧ there ∈ networks

instance (nets : List (Finset ℕ)) : Std.Symm (Shares nets) where
  symm _ _ shared := by
    obtain ⟨networks, member, left, right⟩ := shared
    exact ⟨networks, member, right, left⟩

theorem shares_mono (few many : List (Finset ℕ)) (inside : few ⊆ many) (here there : ℕ) (path : ReflTransGen (Shares few) here there) :
    ReflTransGen (Shares many) here there := by
  have wider : Shares few ≤ Shares many := by
    intro a b shared
    obtain ⟨networks, member, both⟩ := shared
    exact ⟨networks, inside member, both⟩
  exact ReflTransGen.mono wider here there path

theorem reached_shares (relays : List Relay) (exits : List Exit) (n : ℕ) :
    Reached (services relays exits) n ↔ ReflTransGen (Shares (relays.map Relay.networks)) 1 n := by
  have bridged : Bridged (services relays exits) = Shares (relays.map Relay.networks) := by
    funext here there
    apply propext
    constructor
    · intro bridge
      obtain ⟨r, passes, hears, speaks⟩ := bridge
      cases r with
      | inl i => exact ⟨relays[i].networks, List.mem_map_of_mem (List.getElem_mem i.isLt), hears, speaks⟩
      | inr j => cases passes
    · intro shared
      obtain ⟨networks, member, hears, speaks⟩ := shared
      obtain ⟨relay, inside, rfl⟩ := List.mem_map.mp member
      obtain ⟨i, bound, rfl⟩ := List.getElem_of_mem inside
      exact ⟨.inl ⟨i, bound⟩, rfl, hears, speaks⟩
  rw [reached_bridged, bridged]
  rfl

section Main

variable (numRelays : ℕ)

theorem main_linked (state : Generation) (draw : Draw) (i : ℕ) (fair : FairDraw numRelays state.activeNetworks draw)
    (linked : ∀ n ∈ state.activeNetworks, ReflTransGen (Shares (state.relays.map Relay.networks)) 1 n) :
    ∀ n ∈ (state.add i draw.isMainMesh draw.nets).activeNetworks,
      ReflTransGen (Shares ((state.add i draw.isMainMesh draw.nets).relays.map Relay.networks)) 1 n := by
  intro n active
  have added : (state.add i draw.isMainMesh draw.nets).relays.map Relay.networks = state.relays.map Relay.networks ++ [draw.nets] := by
    simp [Generation.add]
  have before : ∀ m ∈ state.activeNetworks, ReflTransGen (Shares (state.relays.map Relay.networks ++ [draw.nets])) 1 m :=
    fun m old => shares_mono _ _ (List.subset_append_left _ _) 1 m (linked m old)
  rw [added]
  cases kind : draw.isMainMesh with
  | false =>
      rw [Generation.add, if_neg (by simp [kind])] at active
      exact before n active
  | true =>
      rw [Generation.add, if_pos kind] at active
      cases Finset.mem_union.mp active with
      | inl old => exact before n old
      | inr new =>
          have anchored : draw.anchor ∈ draw.nets := by
            rw [Draw.nets, if_pos kind]
            exact Finset.mem_union_left _ (Finset.mem_singleton_self _)
          exact (before draw.anchor (fair.anchor kind)).tail ⟨draw.nets, by simp, anchored, new⟩

theorem active_linked (i : ℕ) (state : Generation) (draws : List Draw) (fair : FairFrom numRelays i state draws)
    (linked : ∀ n ∈ state.activeNetworks, ReflTransGen (Shares (state.relays.map Relay.networks)) 1 n) :
    ∀ n ∈ (state.grow i draws).activeNetworks, ReflTransGen (Shares ((state.grow i draws).relays.map Relay.networks)) 1 n := by
  induction draws generalizing i state with
  | nil => exact linked
  | cons draw draws ih =>
      obtain ⟨here, later⟩ := fair
      exact ih (i + 1) _ later (main_linked numRelays state draw i here linked)

theorem active_reached (draws : List Draw) (fair : FairDraws numRelays draws) (n : ℕ)
    (active : n ∈ (Generation.start.grow 1 draws).activeNetworks) :
    Reached (services (Generation.start.grow 1 draws).relays []) n := by
  rw [reached_shares]
  apply active_linked numRelays 1 .start draws fair.fair _ n active
  intro m start
  obtain rfl := Finset.mem_singleton.mp start
  exact .refl

theorem relay_draw (draws : List Draw) (i : ℕ) (draw : Draw) (relay : Relay) (drawn : draws[i]? = some draw)
    (added : (Generation.start.grow 1 draws).relays[i]? = some relay) : relay.networks = draw.nets := by
  have networks := congrArg (fun nets : List (Finset ℕ) => nets[i]?) (grow_networks 1 .start draws)
  simp only [Generation.start, List.map_nil, List.nil_append, List.getElem?_map] at networks added
  rw [added, drawn] at networks
  exact Option.some.inj networks

-- Whatever the islands between them draw, the main relays and their networks
-- stay connected to zone 1.
theorem main_mesh_reachable (order : SetOrder) (draws : List Draw) (fair : FairDraws numRelays draws) :
    ∃ state calls depths, generate numRelays 1 .start draws [] = .ok (state, calls) ∧ state.relays.length = numRelays ∧
      breadthFirst order state.relays = some ⟨depths, []⟩ ∧
      (∀ n ∈ state.activeNetworks, n ∈ depths.map Prod.fst ∧ Reached (services state.relays []) n) ∧
      ∀ (i : ℕ) (draw : Draw) (relay : Relay), draws[i]? = some draw → draw.isMainMesh = true → state.relays[i]? = some relay →
        ∀ n ∈ relay.networks, n ∈ depths.map Prod.fst ∧ Reached (services state.relays []) n := by
  obtain ⟨calls, generated, _⟩ := generate_run numRelays draws fair
  obtain ⟨depths, searched, distances⟩ := breadth_first_distances order (Generation.start.grow 1 draws).relays
  have recorded : ∀ n ∈ (Generation.start.grow 1 draws).activeNetworks,
      n ∈ depths.map Prod.fst ∧ Reached (services (Generation.start.grow 1 draws).relays []) n := by
    intro n active
    have reached := active_reached numRelays draws fair n active
    exact ⟨(recorded_iff order _ [] depths distances n).mpr reached, reached⟩
  refine ⟨Generation.start.grow 1 draws, calls, depths, generated, ?_, searched, recorded, ?_⟩
  · rw [grow_length, fair.length]
    exact Nat.zero_add numRelays
  · intro i draw relay drawn isMain added n attached
    rw [relay_draw draws i draw relay drawn added] at attached
    exact recorded n ((mem_grow_active 1 .start draws n).mpr (Or.inr ⟨draw, List.mem_of_getElem? drawn, isMain, attached⟩))

end Main

theorem island_draws_main_reachable : FairDraws 2 islandDraws ∧
    ∃ state calls depths, generate 2 1 .start islandDraws [] = .ok (state, calls) ∧
      breadthFirst ascending state.relays = some ⟨depths, []⟩ ∧ ∀ n ∈ state.activeNetworks, n ∈ depths.map Prod.fst := by
  obtain ⟨state, calls, depths, generated, _, searched, recorded, _⟩ := main_mesh_reachable 2 ascending islandDraws island_draws_fair
  exact ⟨island_draws_fair, state, calls, depths, generated, searched, fun n active => (recorded n active).1⟩

section Islands

-- The island branch then draws from all networks, active ones included.
def Fallback (numRelays : ℕ) (state : Generation) (draw : Draw) : Prop :=
  (inactivePool numRelays state.activeNetworks).card < draw.numExtra + 1

instance (numRelays : ℕ) (state : Generation) (draw : Draw) : Decidable (Fallback numRelays state draw) :=
  inferInstanceAs (Decidable (_ < _))

-- An island that the relay after past becomes without the fallback.
structure Island (numRelays : ℕ) (draws past : List Draw) (draw : Draw) : Prop where
  drawn : ∃ later, draws = past ++ draw :: later
  branch : draw.isMainMesh = false
  inactive : ¬ Fallback numRelays (Generation.start.grow 1 past) draw

def IslandsStranded (numRelays : ℕ) (draws : List Draw) : Prop :=
  ∀ past draw, Island numRelays draws past draw →
    ∀ n ∈ draw.nets, ¬ Reached (services (Generation.start.grow 1 draws).relays []) n

def netsOf (isMainMesh : Bool) (draws : List Draw) : List (Finset ℕ) :=
  (draws.filter fun draw => draw.isMainMesh == isMainMesh).map Draw.nets

def MainZone (draws : List Draw) (n : ℕ) : Prop := n = 1 ∨ ∃ nets ∈ netsOf true draws, n ∈ nets

-- Islands that share networks with each other form a group. No group with an
-- island in it holds zone 1 or a network that a main relay draws.
def IslandsAvoided (numRelays : ℕ) (draws : List Draw) : Prop :=
  ∀ past draw, Island numRelays draws past draw →
    ∀ n ∈ draw.nets, ∀ m, ReflTransGen (Shares (netsOf false draws)) n m → ¬ MainZone draws m

theorem mem_nets_of (isMainMesh : Bool) (draws : List Draw) (nets : Finset ℕ) :
    nets ∈ netsOf isMainMesh draws ↔ ∃ draw ∈ draws, draw.isMainMesh = isMainMesh ∧ draw.nets = nets := by
  simp [netsOf, and_assoc]

theorem nets_of_subset (isMainMesh : Bool) (draws : List Draw) : netsOf isMainMesh draws ⊆ draws.map Draw.nets :=
  List.map_subset _ List.filter_sublist.subset

theorem shares_cases (draws : List Draw) (here there : ℕ) (shared : Shares (draws.map Draw.nets) here there) :
    MainZone draws there ∨ Shares (netsOf false draws) here there := by
  obtain ⟨nets, member, hears, speaks⟩ := shared
  obtain ⟨draw, drawn, rfl⟩ := List.mem_map.mp member
  cases kind : draw.isMainMesh with
  | true => exact Or.inl (Or.inr ⟨draw.nets, (mem_nets_of true draws _).mpr ⟨draw, drawn, kind, rfl⟩, speaks⟩)
  | false => exact Or.inr ⟨draw.nets, (mem_nets_of false draws _).mpr ⟨draw, drawn, kind, rfl⟩, hears, speaks⟩

-- The last main network on the way: after it there are islands only.
theorem last_main_zone (draws : List Draw) (n : ℕ) (path : ReflTransGen (Shares (draws.map Draw.nets)) 1 n) :
    ∃ m, MainZone draws m ∧ ReflTransGen (Shares (netsOf false draws)) m n := by
  induction path with
  | refl => exact ⟨1, Or.inl rfl, .refl⟩
  | @tail here there earlier shared ih =>
      cases shares_cases draws here there shared with
      | inl main => exact ⟨there, main, .refl⟩
      | inr island =>
          obtain ⟨m, main, islands⟩ := ih
          exact ⟨m, main, islands.tail island⟩

theorem grown_reached (draws : List Draw) (n : ℕ) :
    Reached (services (Generation.start.grow 1 draws).relays []) n ↔ ReflTransGen (Shares (draws.map Draw.nets)) 1 n := by
  rw [reached_shares, grow_networks]
  rfl

theorem main_zone_active (draws : List Draw) (m : ℕ) (main : MainZone draws m) : m ∈ (Generation.start.grow 1 draws).activeNetworks := by
  rw [mem_grow_active]
  cases main with
  | inl one => exact Or.inl (Finset.mem_singleton.mpr one)
  | inr drawn =>
      obtain ⟨nets, member, inside⟩ := drawn
      obtain ⟨draw, origin, isMain, rfl⟩ := (mem_nets_of true draws nets).mp member
      exact Or.inr ⟨draw, origin, isMain, inside⟩

-- An island avoids only the networks that are active when it is drawn. It
-- stays stranded when no later relay connects its group to the main mesh.
theorem islands_stranded_iff (numRelays : ℕ) (draws : List Draw) (fair : FairDraws numRelays draws) :
    (∃ calls, generate numRelays 1 .start draws [] = .ok (Generation.start.grow 1 draws, calls)) ∧
      (IslandsStranded numRelays draws ↔ IslandsAvoided numRelays draws) := by
  obtain ⟨calls, generated, _⟩ := generate_run numRelays draws fair
  refine ⟨⟨calls, generated⟩, ?_⟩
  constructor
  · intro stranded past draw island n member m islands main
    have reached := active_reached numRelays draws fair m (main_zone_active draws m main)
    have back := shares_mono _ _ (nets_of_subset false draws) m n (Std.Symm.symm n m islands)
    exact stranded past draw island n member ((grown_reached draws n).mpr (((grown_reached draws m).mp reached).trans back))
  · intro avoided past draw island n member reached
    obtain ⟨m, main, islands⟩ := last_main_zone draws n ((grown_reached draws n).mp reached)
    exact avoided past draw island n member m (Std.Symm.symm m n islands) main

theorem island_draws_stranded : FairDraws 2 islandDraws ∧ (IslandsStranded 2 islandDraws ↔ IslandsAvoided 2 islandDraws) :=
  ⟨island_draws_fair, (islands_stranded_iff 2 islandDraws island_draws_fair).2⟩

-- The main relay draws a network that only the island before it uses.
def rescueDraws : List Draw := [⟨false, 1, 0, [2, 3]⟩, ⟨true, 1, 1, [2]⟩]

theorem island_rescued : ¬ ∀ numRelays draws, 1 ≤ numRelays → FairDraws numRelays draws → IslandsStranded numRelays draws := by
  intro claimed
  have island : Island 2 rescueDraws [] ⟨false, 1, 0, [2, 3]⟩ := ⟨⟨[⟨true, 1, 1, [2]⟩], rfl⟩, rfl, by decide⟩
  apply claimed 2 rescueDraws (by decide) ⟨rfl, by decide⟩ [] _ island 2 (by decide)
  rw [grown_reached]
  exact .single ⟨{1, 2}, by decide, by decide, by decide⟩

end Islands

end BeaconMesh.Generator
