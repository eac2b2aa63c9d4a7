import BeaconMesh.Lib.BreadthFirst
import Mathlib.Data.Finset.Sort
import Mathlib.Data.List.Sort
import Mathlib.Order.Interval.Finset.Nat
import Mathlib.Order.Lattice.Nat

set_option autoImplicit false

namespace BeaconMesh.Generator

open BreadthFirst

inductive PyError where
  | indexError
  | valueError
  | keyError
deriving DecidableEq, Repr

-- random.choice draws one element, random.sample several different ones.
structure RandomCall where
  population : Finset ℕ
  size : ℕ
deriving DecidableEq

-- The generator remembers its random calls. What they return is passed to it.
abbrev Random := StateT (List RandomCall) (Except PyError)

def randomChoice (population : Finset ℕ) (pick : ℕ) : Random ℕ := do
  modify fun calls => calls ++ [⟨population, 1⟩]
  if population.card = 0 then throw .indexError
  return pick

def randomSample (population : Finset ℕ) (size : ℕ) (picks : List ℕ) : Random (List ℕ) := do
  modify fun calls => calls ++ [⟨population, size⟩]
  if population.card < size then throw .valueError
  return picks

structure Relay where
  name : String
  networks : Finset ℕ

structure Exit where
  name : String
  network : ℕ

structure Draw where
  isMainMesh : Bool
  numExtra : ℕ
  anchor : ℕ
  sample : List ℕ

structure Generation where
  relays : List Relay
  activeNetworks : Finset ℕ
  allGeneratedNetworks : Finset ℕ

def Generation.start : Generation := ⟨[], {1}, ∅⟩

def totalNetworks (numRelays : ℕ) : ℕ := numRelays * 2

def maxExtraInterfaces (numRelays : ℕ) : ℕ := max 2 (numRelays / 10)

def potentialNetworks (numRelays : ℕ) : Finset ℕ := Finset.Ico 2 (totalNetworks numRelays + 1)

def inactivePool (numRelays : ℕ) (activeNetworks : Finset ℕ) : Finset ℕ := potentialNetworks numRelays \ activeNetworks

def islandPool (numRelays : ℕ) (activeNetworks : Finset ℕ) (numExtra : ℕ) : Finset ℕ :=
  if (inactivePool numRelays activeNetworks).card < numExtra + 1 then potentialNetworks numRelays
  else inactivePool numRelays activeNetworks

def mainNets (numRelays : ℕ) (activeNetworks : Finset ℕ) (draw : Draw) : Random (Finset ℕ) := do
  let anchor ← randomChoice activeNetworks draw.anchor
  let pool := inactivePool numRelays activeNetworks
  if pool.card = 0 then return {anchor}
  let chosenExtras ← randomSample pool (min draw.numExtra pool.card) draw.sample
  return {anchor} ∪ chosenExtras.toFinset

def islandNets (numRelays : ℕ) (activeNetworks : Finset ℕ) (draw : Draw) : Random (Finset ℕ) := do
  let pool := islandPool numRelays activeNetworks draw.numExtra
  if pool.card = 0 then return ∅
  let nets ← randomSample pool (min (draw.numExtra + 1) pool.card) draw.sample
  return nets.toFinset

def Generation.add (state : Generation) (i : ℕ) (isMainMesh : Bool) (nets : Finset ℕ) : Generation where
  relays := state.relays ++ [⟨s!"relay_{i}", nets⟩]
  activeNetworks := if isMainMesh = true then state.activeNetworks ∪ nets else state.activeNetworks
  allGeneratedNetworks := state.allGeneratedNetworks ∪ nets

def relayTurn (numRelays i : ℕ) (state : Generation) (draw : Draw) : Random Generation := do
  let nets ← if draw.isMainMesh = true then mainNets numRelays state.activeNetworks draw
    else islandNets numRelays state.activeNetworks draw
  return state.add i draw.isMainMesh nets

def generate (numRelays : ℕ) : ℕ → Generation → List Draw → Random Generation
  | _, state, [] => return state
  | i, state, draw :: draws => do
    let next ← relayTurn numRelays i state draw
    generate numRelays (i + 1) next draws

def addRelay (graph : ℕ → Finset ℕ) (relay : Relay) : ℕ → Finset ℕ := fun n1 =>
  if n1 ∈ relay.networks then graph n1 ∪ relay.networks.erase n1 else graph n1

def graphOf (relays : List Relay) : ℕ → Finset ℕ := relays.foldl addRelay fun _ => ∅

-- The order in which Python goes through the set that a key maps to.
structure SetOrder where
  list : ℕ → Finset ℕ → List ℕ
  mem_list : ∀ key s n, n ∈ list key s ↔ n ∈ s

def ascending : SetOrder where
  list _ s := (List.range (s.sup id + 1)).filter fun n => n ∈ s
  mem_list key s n := by
    simp only [List.mem_filter, List.mem_range, decide_eq_true_eq, and_iff_right_iff_imp]
    exact fun member => Nat.lt_succ_of_le (Finset.le_sup (f := id) member)

def neighbors (order : SetOrder) (relays : List Relay) (current : ℕ) : List ℕ := order.list current (graphOf relays current)

def attachedNetworks (relays : List Relay) : Finset ℕ := relays.foldr (fun relay networks => relay.networks ∪ networks) {1}

-- The loop ends when the queue is empty, which takes at most one turn for
-- each network.
def breadthFirst (order : SetOrder) (relays : List Relay) : Option (Search ℕ) :=
  Search.explore (neighbors order relays) (attachedNetworks relays).card (Search.start 1)

-- Python's sort is stable, also in reverse.
def reachableNetworks (depths : List (ℕ × ℕ)) : List ℕ :=
  (depths.insertionSort fun first later => later.2 ≤ first.2).map Prod.fst

def targetNetworks (depths : List (ℕ × ℕ)) (numExits : ℕ) : List ℕ :=
  if (reachableNetworks depths).isEmpty = true then [1] else (reachableNetworks depths).take numExits

def placeExits (targets : List ℕ) : ℕ → Except PyError (List Exit)
  | 0 => return []
  | count + 1 => do
    let placed ← placeExits targets count
    match targets[count % targets.length]? with
    | none => throw .indexError
    | some targetNet => return placed ++ [⟨s!"exit_{count + 1}", targetNet⟩]

def exitNodes (order : SetOrder) (relays : List Relay) (numExits : ℕ) : Except PyError (List Exit) :=
  match breadthFirst order relays with
  | none => throw .keyError
  | some search => placeExits (targetNetworks search.depths numExits) numExits

structure GeneratedMesh where
  relays : List Relay
  exits : List Exit
  networks : List ℕ

def finalNetworks (state : Generation) (exits : List Exit) : List ℕ :=
  (state.allGeneratedNetworks ∪ (exits.map Exit.network).toFinset).sort (· ≤ ·)

def buildMesh (order : SetOrder) (numRelays numExits : ℕ) (draws : List Draw) : Random GeneratedMesh := do
  let state ← generate numRelays 1 .start draws
  let exits ← exitNodes order state.relays numExits
  return ⟨state.relays, exits, finalNetworks state exits⟩

-- What random.sample may return.
structure IsSample (population : Finset ℕ) (size : ℕ) (picks : List ℕ) : Prop where
  distinct : picks.Nodup
  drawn : ∀ n ∈ picks, n ∈ population
  length : picks.length = size

instance (population : Finset ℕ) (size : ℕ) (picks : List ℕ) : Decidable (IsSample population size picks) :=
  decidable_of_iff (picks.Nodup ∧ (∀ n ∈ picks, n ∈ population) ∧ picks.length = size)
    ⟨fun fair => ⟨fair.1, fair.2.1, fair.2.2⟩, fun fair => ⟨fair.distinct, fair.drawn, fair.length⟩⟩

structure FairDraw (numRelays : ℕ) (activeNetworks : Finset ℕ) (draw : Draw) : Prop where
  numExtra : 1 ≤ draw.numExtra ∧ draw.numExtra ≤ maxExtraInterfaces numRelays
  anchor : draw.isMainMesh = true → draw.anchor ∈ activeNetworks
  extras : draw.isMainMesh = true → IsSample (inactivePool numRelays activeNetworks)
    (min draw.numExtra (inactivePool numRelays activeNetworks).card) draw.sample
  island : draw.isMainMesh = false → IsSample (islandPool numRelays activeNetworks draw.numExtra)
    (min (draw.numExtra + 1) (islandPool numRelays activeNetworks draw.numExtra).card) draw.sample

instance (numRelays : ℕ) (activeNetworks : Finset ℕ) (draw : Draw) : Decidable (FairDraw numRelays activeNetworks draw) :=
  decidable_of_iff ((1 ≤ draw.numExtra ∧ draw.numExtra ≤ maxExtraInterfaces numRelays) ∧
      (draw.isMainMesh = true → draw.anchor ∈ activeNetworks) ∧
      (draw.isMainMesh = true → IsSample (inactivePool numRelays activeNetworks)
        (min draw.numExtra (inactivePool numRelays activeNetworks).card) draw.sample) ∧
      (draw.isMainMesh = false → IsSample (islandPool numRelays activeNetworks draw.numExtra)
        (min (draw.numExtra + 1) (islandPool numRelays activeNetworks draw.numExtra).card) draw.sample))
    ⟨fun fair => ⟨fair.1, fair.2.1, fair.2.2.1, fair.2.2.2⟩, fun fair => ⟨fair.numExtra, fair.anchor, fair.extras, fair.island⟩⟩

def Draw.nets (draw : Draw) : Finset ℕ :=
  if draw.isMainMesh = true then {draw.anchor} ∪ draw.sample.toFinset else draw.sample.toFinset

-- Every draw is one that the random calls can return in its state.
def FairFrom (numRelays : ℕ) : ℕ → Generation → List Draw → Prop
  | _, _, [] => True
  | i, state, draw :: draws =>
    FairDraw numRelays state.activeNetworks draw ∧ FairFrom numRelays (i + 1) (state.add i draw.isMainMesh draw.nets) draws

def decideFair (numRelays : ℕ) : (i : ℕ) → (state : Generation) → (draws : List Draw) → Decidable (FairFrom numRelays i state draws)
  | _, _, [] => isTrue trivial
  | i, state, draw :: draws =>
    have := decideFair numRelays (i + 1) (state.add i draw.isMainMesh draw.nets) draws
    inferInstanceAs (Decidable (_ ∧ _))

instance (numRelays i : ℕ) (state : Generation) (draws : List Draw) : Decidable (FairFrom numRelays i state draws) :=
  decideFair numRelays i state draws

structure FairDraws (numRelays : ℕ) (draws : List Draw) : Prop where
  length : draws.length = numRelays
  fair : FairFrom numRelays 1 .start draws

def RandomCall.Possible (call : RandomCall) : Prop := call.population.Nonempty ∧ call.size ≤ call.population.card

section Calls

theorem random_bind {α β : Type} (first : Random α) (rest : α → Random β) (calls later : List RandomCall) (value : α)
    (ran : first calls = .ok (value, later)) : (first >>= rest) calls = rest value later := by
  simp only [bind, StateT.bind, ran, Except.bind]

theorem choice_runs (population : Finset ℕ) (pick : ℕ) (some : population.Nonempty) (calls : List RandomCall) :
    randomChoice population pick calls = .ok (pick, calls ++ [⟨population, 1⟩]) ∧ RandomCall.Possible ⟨population, 1⟩ := by
  constructor
  · unfold randomChoice
    rw [if_neg some.card_ne_zero]
    rfl
  · exact ⟨some, some.card_pos⟩

theorem sample_runs (population : Finset ℕ) (size : ℕ) (picks : List ℕ) (some : population.card ≠ 0)
    (fits : size ≤ population.card) (calls : List RandomCall) :
    randomSample population size picks calls = .ok (picks, calls ++ [⟨population, size⟩]) ∧
      RandomCall.Possible ⟨population, size⟩ := by
  constructor
  · unfold randomSample
    rw [if_neg (not_lt.mpr fits)]
    rfl
  · exact ⟨Finset.card_ne_zero.mp some, fits⟩

theorem sample_empty (population : Finset ℕ) (bound : ℕ) (picks : List ℕ) (none : population.card = 0)
    (sample : IsSample population (min bound population.card) picks) : picks = [] := by
  apply List.eq_nil_of_length_eq_zero
  rw [sample.length, none, Nat.min_zero]

variable (numRelays : ℕ) (activeNetworks : Finset ℕ) (draw : Draw)

-- The calls are possible whatever the earlier ones returned. The networks are
-- those of the draw when it is fair.
theorem main_nets_run (active : activeNetworks.Nonempty) (calls : List RandomCall) :
    ∃ nets more, mainNets numRelays activeNetworks draw calls = .ok (nets, calls ++ more) ∧ (∀ call ∈ more, call.Possible) ∧
      (draw.isMainMesh = true → FairDraw numRelays activeNetworks draw → nets = draw.nets) := by
  obtain ⟨chosen, first⟩ := choice_runs activeNetworks draw.anchor active calls
  by_cases none : (inactivePool numRelays activeNetworks).card = 0
  · refine ⟨{draw.anchor}, [⟨activeNetworks, 1⟩], ?_, by simpa using first, fun isMain fair => ?_⟩
    · rw [mainNets, random_bind _ _ calls _ _ chosen]
      simp only [if_pos none]
      rfl
    · rw [Draw.nets, if_pos isMain, sample_empty _ _ _ none (fair.extras isMain)]
      rfl
  · obtain ⟨sampled, second⟩ := sample_runs (inactivePool numRelays activeNetworks)
      (min draw.numExtra (inactivePool numRelays activeNetworks).card) draw.sample none (Nat.min_le_right _ _)
      (calls ++ [⟨activeNetworks, 1⟩])
    refine ⟨{draw.anchor} ∪ draw.sample.toFinset, [⟨activeNetworks, 1⟩, ⟨inactivePool numRelays activeNetworks, _⟩], ?_,
      by simpa using And.intro first second, fun isMain fair => ?_⟩
    · rw [mainNets, random_bind _ _ calls _ _ chosen]
      simp only [if_neg none]
      rw [random_bind _ _ _ _ _ sampled, List.append_assoc]
      rfl
    · rw [Draw.nets, if_pos isMain]

theorem island_nets_run (calls : List RandomCall) :
    ∃ nets more, islandNets numRelays activeNetworks draw calls = .ok (nets, calls ++ more) ∧ (∀ call ∈ more, call.Possible) ∧
      (draw.isMainMesh = false → FairDraw numRelays activeNetworks draw → nets = draw.nets) := by
  by_cases none : (islandPool numRelays activeNetworks draw.numExtra).card = 0
  · refine ⟨∅, [], ?_, by simp, fun isIsland fair => ?_⟩
    · rw [islandNets, List.append_nil]
      simp only [if_pos none]
      rfl
    · rw [Draw.nets, if_neg (by simp [isIsland]), sample_empty _ _ _ none (fair.island isIsland)]
      rfl
  · obtain ⟨sampled, possible⟩ := sample_runs (islandPool numRelays activeNetworks draw.numExtra)
      (min (draw.numExtra + 1) (islandPool numRelays activeNetworks draw.numExtra).card) draw.sample none (Nat.min_le_right _ _) calls
    refine ⟨draw.sample.toFinset, [⟨islandPool numRelays activeNetworks draw.numExtra, _⟩], ?_, by simpa using possible,
      fun isIsland fair => ?_⟩
    · rw [islandNets]
      simp only [if_neg none]
      rw [random_bind _ _ _ _ _ sampled]
      rfl
    · rw [Draw.nets, if_neg (by simp [isIsland])]

theorem turn_run (i : ℕ) (state : Generation) (calls : List RandomCall) (active : state.activeNetworks.Nonempty) :
    ∃ nets more, relayTurn numRelays i state draw calls = .ok (state.add i draw.isMainMesh nets, calls ++ more) ∧
      (∀ call ∈ more, call.Possible) ∧ (FairDraw numRelays state.activeNetworks draw → nets = draw.nets) := by
  cases kind : draw.isMainMesh with
  | true =>
      obtain ⟨nets, more, ran, possible, drawn⟩ := main_nets_run numRelays state.activeNetworks draw active calls
      refine ⟨nets, more, ?_, possible, drawn kind⟩
      rw [relayTurn, if_pos kind, random_bind _ _ _ _ _ ran, kind]
      rfl
  | false =>
      obtain ⟨nets, more, ran, possible, drawn⟩ := island_nets_run numRelays state.activeNetworks draw calls
      refine ⟨nets, more, ?_, possible, drawn kind⟩
      rw [relayTurn, if_neg (by simp [kind]), random_bind _ _ _ _ _ ran, kind]
      rfl

end Calls

def Generation.grow : ℕ → Generation → List Draw → Generation
  | _, state, [] => state
  | i, state, draw :: draws => grow (i + 1) (state.add i draw.isMainMesh draw.nets) draws

-- No answer of the random calls makes a later call fail.
theorem generate_total (numRelays i : ℕ) (state : Generation) (active : state.activeNetworks.Nonempty) (answers : List Draw)
    (calls : List RandomCall) :
    ∃ after more, generate numRelays i state answers calls = .ok (after, calls ++ more) ∧ (∀ call ∈ more, call.Possible) ∧
      (FairFrom numRelays i state answers → after = state.grow i answers) := by
  induction answers generalizing i state calls with
  | nil => exact ⟨state, [], by rw [List.append_nil]; rfl, by simp, fun _ => rfl⟩
  | cons answer answers ih =>
      obtain ⟨nets, first, turned, possible, drawn⟩ := turn_run numRelays answer i state calls active
      have grown : (state.add i answer.isMainMesh nets).activeNetworks.Nonempty := by
        unfold Generation.add
        split
        · exact active.mono Finset.subset_union_left
        · exact active
      obtain ⟨after, rest, generated, onward, same⟩ := ih (i + 1) (state.add i answer.isMainMesh nets) grown (calls ++ first)
      refine ⟨after, first ++ rest, ?_, fun call member => ?_, fun fair => ?_⟩
      · rw [generate, random_bind _ _ _ _ _ turned, generated, List.append_assoc]
      · exact (List.mem_append.mp member).elim (possible call) (onward call)
      · obtain ⟨here, later⟩ := fair
        obtain rfl := drawn here
        exact same later

theorem generate_run (numRelays : ℕ) (draws : List Draw) (fair : FairDraws numRelays draws) :
    ∃ calls, generate numRelays 1 .start draws [] = .ok (Generation.start.grow 1 draws, calls) ∧ ∀ call ∈ calls, call.Possible := by
  obtain ⟨after, calls, generated, possible, grown⟩ :=
    generate_total numRelays 1 .start ⟨1, Finset.mem_singleton_self 1⟩ draws []
  obtain rfl := grown fair.fair
  exact ⟨calls, generated, possible⟩

theorem grow_length (i : ℕ) (state : Generation) (draws : List Draw) :
    (state.grow i draws).relays.length = state.relays.length + draws.length := by
  induction draws generalizing i state with
  | nil => rfl
  | cons draw draws ih =>
      have added : (state.add i draw.isMainMesh draw.nets).relays.length = state.relays.length + 1 := by simp [Generation.add]
      rw [Generation.grow, ih, added, List.length_cons, Nat.add_assoc, Nat.add_comm 1]

theorem grow_networks (i : ℕ) (state : Generation) (draws : List Draw) :
    (state.grow i draws).relays.map Relay.networks = state.relays.map Relay.networks ++ draws.map Draw.nets := by
  induction draws generalizing i state with
  | nil => exact (List.append_nil _).symm
  | cons draw draws ih =>
      rw [Generation.grow, ih]
      simp [Generation.add]

theorem mem_grow (field : Generation → Finset ℕ) (part : Draw → Prop) (n : ℕ)
    (adds : ∀ i state draw, n ∈ field (Generation.add state i draw.isMainMesh draw.nets) ↔ n ∈ field state ∨ part draw)
    (i : ℕ) (state : Generation) (draws : List Draw) : n ∈ field (state.grow i draws) ↔ n ∈ field state ∨ ∃ draw ∈ draws, part draw := by
  induction draws generalizing i state with
  | nil => simp [Generation.grow]
  | cons draw draws ih =>
      rw [Generation.grow, ih, adds, or_assoc]
      simp only [List.mem_cons, exists_eq_or_imp]

theorem mem_grow_active (i : ℕ) (state : Generation) (draws : List Draw) (n : ℕ) :
    n ∈ (state.grow i draws).activeNetworks ↔ n ∈ state.activeNetworks ∨ ∃ draw ∈ draws, draw.isMainMesh = true ∧ n ∈ draw.nets := by
  apply mem_grow Generation.activeNetworks (fun draw => draw.isMainMesh = true ∧ n ∈ draw.nets)
  intro i state draw
  cases kind : draw.isMainMesh <;> simp [Generation.add]

theorem mem_grow_generated (i : ℕ) (state : Generation) (draws : List Draw) (n : ℕ) :
    n ∈ (state.grow i draws).allGeneratedNetworks ↔ n ∈ state.allGeneratedNetworks ∨ ∃ draw ∈ draws, n ∈ draw.nets := by
  apply mem_grow Generation.allGeneratedNetworks (fun draw => n ∈ draw.nets)
  intro i state draw
  simp [Generation.add]

-- An island and a main relay that avoids it.
def islandDraws : List Draw := [⟨false, 1, 0, [2, 3]⟩, ⟨true, 1, 1, [4]⟩]

theorem island_draws_fair : FairDraws 2 islandDraws := ⟨rfl, by decide⟩

end BeaconMesh.Generator
