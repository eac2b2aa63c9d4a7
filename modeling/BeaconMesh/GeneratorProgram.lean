import BeaconMesh.GeneratorCompose
import BeaconMesh.GeneratorReach

set_option autoImplicit false

namespace BeaconMesh.Generator

open BreadthFirst Flood RoundRobin

def warningLimit : ℕ := 50

-- int(text), none when it raises ValueError, and text.strip().lower().
structure Console where
  int : String → Option ℤ
  normalise : String → String

-- str.isspace
def isSpace (char : Char) : Bool :=
  let code := char.toNat
  (0x09 ≤ code && code ≤ 0x0D) || (0x1C ≤ code && code ≤ 0x20) || code == 0x85 || code == 0xA0 || code == 0x1680 ||
    (0x2000 ≤ code && code ≤ 0x200A) || code == 0x2028 || code == 0x2029 || code == 0x202F || code == 0x205F || code == 0x3000

def trim (blank : Char → Bool) (text : List Char) : List Char := ((text.dropWhile blank).reverse.dropWhile blank).reverse

def strip (text : String) : String := .ofList (trim isSpace text.toList)

-- str.lower as far as a comparison with "y" goes: nothing but Y and y becomes
-- that letter.
def lower (text : String) : String := text.map Char.toLower

-- The zeros of the decimal digits of Unicode; each is followed by its nine.
def decimalZeros : List ℕ :=
  [0x30, 0x660, 0x6F0, 0x7C0, 0x966, 0x9E6, 0xA66, 0xAE6, 0xB66, 0xBE6, 0xC66, 0xCE6,
    0xD66, 0xDE6, 0xE50, 0xED0, 0xF20, 0x1040, 0x1090, 0x17E0, 0x1810, 0x1946, 0x19D0, 0x1A80,
    0x1A90, 0x1B50, 0x1BB0, 0x1C40, 0x1C50, 0xA620, 0xA8D0, 0xA900, 0xA9D0, 0xA9F0, 0xAA50, 0xABF0,
    0xFF10, 0x104A0, 0x10D30, 0x11066, 0x110F0, 0x11136, 0x111D0, 0x112F0, 0x11450, 0x114D0, 0x11650, 0x116C0,
    0x11730, 0x118E0, 0x11950, 0x11C50, 0x11D50, 0x11DA0, 0x16A60, 0x16AC0, 0x16B50, 0x1D7CE, 0x1D7D8, 0x1D7E2,
    0x1D7EC, 0x1D7F6, 0x1E140, 0x1E2F0, 0x1E950, 0x1FBF0]

def decimal (char : Char) : Option ℕ :=
  (decimalZeros.find? fun base => decide (base ≤ char.toNat ∧ char.toNat < base + 10)).map fun base => char.toNat - base

-- One underscore may stand between two digits.
def digits : List Char → Option (List ℕ)
  | [] => none
  | [last] => (decimal last).map fun value => [value]
  | first :: '_' :: later => do return (← decimal first) :: (← digits later)
  | first :: later => do return (← decimal first) :: (← digits later)

-- sys.get_int_max_str_digits()
def maxStrDigits : ℕ := 4300

def magnitude (text : List Char) : Option ℤ :=
  (digits text).bind fun values => if values.length ≤ maxStrDigits then some (values.foldl (fun total value => total * 10 + value) 0) else none

-- int drops the space around the number, but not the separators 0x1C to 0x1F.
def int (text : String) : Option ℤ :=
  match trim (fun char => isSpace char && !(0x1C ≤ char.toNat && char.toNat ≤ 0x1F)) text.toList with
  | '-' :: number => (magnitude number).map (- ·)
  | '+' :: number => magnitude number
  | number => magnitude number

def python : Console := ⟨int, fun text => lower (strip text)⟩

example : int " -1_0\t" = some (-10) := by decide +kernel

example : int "1__0" = none := by decide +kernel

-- What get_user_input printed, and the count it returned with the lines still
-- to be read. There is none when the input ends before.
abbrev Prompted := List String × Option (ℕ × List String)

def printFirst (printed : List String) (prompted : Prompted) : Prompted := (printed ++ prompted.1, prompted.2)

def getUserInput (console : Console) (promptText : String) : List String → Prompted
  | [] => ([promptText], none)
  | line :: rest =>
      match console.int line with
      | none => printFirst [promptText, "Invalid input. Please enter an integer."] (getUserInput console promptText rest)
      | some count =>
          if count ≤ 0 then printFirst [promptText, "Please enter a number greater than 0."] (getUserInput console promptText rest)
          else ([promptText], some (count.toNat, rest))

inductive Ending where
  | endOfInput
  | aborted
  | failed (error : PyError)
  | noTemplate
  | written (file : Compose)

structure Session where
  printed : List String
  ending : Ending

def relaysPrompt : String := "How many relays do you want to generate? "

def exitsPrompt : String := "How many exit nodes do you want? "

def warning (numRelays : ℕ) : String :=
  s!"WARNING: Generating {numRelays} relays might consume significant system resources. Proceed? [y/n]: "

-- depths.get(reachable_networks[0], 0)
def maximumDepth (order : SetOrder) (relays : List Relay) : ℕ :=
  match breadthFirst order relays with
  | none => 0
  | some search => ((reachableNetworks search.depths).head?.bind fun furthest => search.depths.lookup furthest).getD 0

def summary (order : SetOrder) (numRelays numExits : ℕ) (mesh : GeneratedMesh) : List String :=
  [s!"Success! Generated mesh with {numRelays} relays and {numExits} exits.",
    s!"Total active subnets created: {mesh.networks.length}",
    s!"Maximum network depth from victim: {maximumDepth order mesh.relays} hops"]

-- The random calls answer with draws, which may depend on the number of
-- relays. templateFound is false when open raises FileNotFoundError.
structure Surroundings where
  order : SetOrder
  draws : ℕ → List Draw
  templateFound : Bool
  path : String

def generateMesh (around : Surroundings) (printed : List String) (numRelays numExits : ℕ) : Session :=
  match buildMesh around.order numRelays numExits (around.draws numRelays) [] with
  | .error error => ⟨printed, .failed error⟩
  | .ok (mesh, _) =>
      if around.templateFound then ⟨printed ++ summary around.order numRelays numExits mesh, .written (compose mesh)⟩
      else ⟨printed ++ [s!"Error: Could not find the template at {around.path}"], .noTemplate⟩

def askExits (console : Console) (around : Surroundings) (printed : List String) (numRelays : ℕ) (lines : List String) : Session :=
  match getUserInput console exitsPrompt lines with
  | (asked, none) => ⟨printed ++ asked, .endOfInput⟩
  | (asked, some (numExits, _)) => generateMesh around (printed ++ asked) numRelays numExits

def session (console : Console) (around : Surroundings) (lines : List String) : Session :=
  match getUserInput console relaysPrompt lines with
  | (asked, none) => ⟨asked, .endOfInput⟩
  | (asked, some (numRelays, rest)) =>
      if warningLimit < numRelays then
        match rest with
        | [] => ⟨asked ++ [warning numRelays], .endOfInput⟩
        | proceed :: rest =>
            if console.normalise proceed ≠ "y" then ⟨asked ++ [warning numRelays, "Aborting generation."], .aborted⟩
            else askExits console around (asked ++ [warning numRelays]) numRelays rest
      else askExits console around asked numRelays rest

section Prompts

variable (console : Console) (promptText : String)

-- The count is the first positive number among the lines.
theorem user_input_count (lines : List String) (count : ℕ) (rest : List String)
    (answered : (getUserInput console promptText lines).2 = some (count, rest)) :
    1 ≤ count ∧ ∃ skipped line, lines = skipped ++ line :: rest ∧ console.int line = some (count : ℤ) ∧
      ∀ other ∈ skipped, ∀ value, console.int other = some value → value ≤ 0 := by
  induction lines with
  | nil => cases answered
  | cons first lines ih =>
      rw [getUserInput] at answered
      cases parsed : console.int first with
      | none =>
          rw [parsed] at answered
          obtain ⟨positive, skipped, line, split, value, others⟩ := ih answered
          refine ⟨positive, first :: skipped, line, by rw [split]; rfl, value, fun other member number found => ?_⟩
          cases List.mem_cons.mp member with
          | inl same =>
              rw [same, parsed] at found
              cases found
          | inr later => exact others other later number found
      | some number =>
          rw [parsed] at answered
          dsimp only at answered
          by_cases small : number ≤ 0
          · rw [if_pos small] at answered
            obtain ⟨positive, skipped, line, split, value, others⟩ := ih answered
            refine ⟨positive, first :: skipped, line, by rw [split]; rfl, value, fun other member value found => ?_⟩
            cases List.mem_cons.mp member with
            | inl same =>
                rw [same, parsed] at found
                rw [← Option.some.inj found]
                exact small
            | inr later => exact others other later value found
          · rw [if_neg small] at answered
            simp only [Option.some.injEq, Prod.mk.injEq] at answered
            obtain ⟨rfl, rfl⟩ := answered
            have whole : (number.toNat : ℤ) = number := Int.toNat_of_nonneg (by omega)
            exact ⟨by omega, [], first, rfl, by rw [parsed, whole], fun other member => absurd member List.not_mem_nil⟩

end Prompts

section Names

theorem names_injective (label : String) : Function.Injective fun k : ℕ => label ++ toString k := by
  intro a b same
  have digits : (toString a).toList = (toString b).toList := by
    have lists := congrArg String.toList same
    simpa using lists
  have values := congrArg (fun chars => Nat.ofDigitChars 10 chars 0) digits
  simpa [Nat.toString_eq_repr, Nat.repr_eq_ofList_toDigits] using values

theorem relay_names (i : ℕ) (state : Generation) (draws : List Draw) :
    (state.grow i draws).relays.map Relay.name =
      state.relays.map Relay.name ++ (List.range' i draws.length).map fun k => s!"relay_{k}" := by
  induction draws generalizing i state with
  | nil => simp [Generation.grow]
  | cons draw draws ih =>
      rw [Generation.grow, ih, List.length_cons, List.range'_succ]
      simp [Generation.add]

theorem exit_names (targets : List ℕ) (count : ℕ) (exits : List Exit) (placed : placeExits targets count = .ok exits) :
    exits.map Exit.name = (List.range' 1 count).map fun k => s!"exit_{k}" := by
  induction count generalizing exits with
  | zero =>
      obtain rfl := Except.ok.inj placed
      rfl
  | succ count ih =>
      rw [placeExits] at placed
      cases before : placeExits targets count with
      | error error =>
          rw [before] at placed
          cases placed
      | ok earlier =>
          rw [before] at placed
          cases target : targets[count % targets.length]? with
          | none =>
              simp only [bind, Except.bind, target] at placed
              cases placed
          | some net =>
              simp only [bind, Except.bind, target] at placed
              obtain rfl := Except.ok.inj placed
              rw [List.map_append, ih earlier before, List.range'_1_concat, List.map_append]
              simp [Nat.add_comm]

theorem exits_named (order : SetOrder) (relays : List Relay) (numExits : ℕ) (exits : List Exit)
    (placed : exitNodes order relays numExits = .ok exits) :
    exits.map Exit.name = (List.range' 1 numExits).map fun k => s!"exit_{k}" := by
  rw [exitNodes] at placed
  cases searched : breadthFirst order relays with
  | none =>
      rw [searched] at placed
      cases placed
  | some search =>
      rw [searched] at placed
      exact exit_names _ numExits exits placed

theorem names_distinct (numRelays numExits : ℕ) :
    ("victim" :: ((List.range' 1 numRelays).map fun k => s!"relay_{k}") ++ (List.range' 1 numExits).map fun k => s!"exit_{k}").Nodup := by
  have first : ∀ (label : String) (k : ℕ), (label ++ toString k).toList.head? = (label.toList ++ (toString k).toList).head? :=
    fun label k => by rw [String.toList_append]
  have relay : ∀ k : ℕ, (s!"relay_{k}").toList.head? = some 'r' := fun k => first "relay_" k
  have exit : ∀ k : ℕ, (s!"exit_{k}").toList.head? = some 'e' := fun k => first "exit_" k
  have relays : ((List.range' 1 numRelays).map fun k => s!"relay_{k}").Nodup :=
    List.Nodup.map (names_injective "relay_") List.nodup_range'
  have exits : ((List.range' 1 numExits).map fun k => s!"exit_{k}").Nodup :=
    List.Nodup.map (names_injective "exit_") List.nodup_range'
  rw [List.cons_append, List.nodup_cons, List.nodup_append]
  refine ⟨fun member => ?_, relays, exits, fun name inRelays other inExits same => ?_⟩
  · cases List.mem_append.mp member with
    | inl inside =>
        obtain ⟨k, _, same⟩ := List.mem_map.mp inside
        have head := relay k
        rw [same] at head
        exact absurd head (by decide)
    | inr inside =>
        obtain ⟨k, _, same⟩ := List.mem_map.mp inside
        have head := exit k
        rw [same] at head
        exact absurd head (by decide)
  · obtain ⟨k, _, rfl⟩ := List.mem_map.mp inRelays
    obtain ⟨j, _, rfl⟩ := List.mem_map.mp inExits
    have heads := (relay k).symm.trans ((congrArg (fun name : String => name.toList.head?) same).trans (exit j))
    exact absurd heads (by decide)

end Names

section Bounds

variable (numRelays : ℕ)

theorem potential_bounds (n : ℕ) (member : n ∈ potentialNetworks numRelays) : n ∈ Finset.Icc 1 (2 * numRelays) := by
  obtain ⟨low, high⟩ := Finset.mem_Ico.mp member
  rw [totalNetworks] at high
  exact Finset.mem_Icc.mpr ⟨by omega, by omega⟩

theorem island_pool_potential (activeNetworks : Finset ℕ) (numExtra : ℕ) :
    islandPool numRelays activeNetworks numExtra ⊆ potentialNetworks numRelays := by
  unfold islandPool
  split
  · exact Finset.Subset.refl _
  · exact Finset.sdiff_subset

theorem draw_bounds (activeNetworks : Finset ℕ) (draw : Draw) (fair : FairDraw numRelays activeNetworks draw)
    (active : activeNetworks ⊆ Finset.Icc 1 (2 * numRelays)) :
    draw.nets ⊆ Finset.Icc 1 (2 * numRelays) ∧ draw.nets.card ≤ maxExtraInterfaces numRelays + 1 := by
  have extra := fair.numExtra.2
  have few : draw.sample.toFinset.card ≤ draw.sample.length := draw.sample.toFinset_card_le
  unfold Draw.nets
  cases kind : draw.isMainMesh with
  | true =>
      have sample := fair.extras kind
      rw [if_pos rfl]
      constructor
      · refine Finset.union_subset (Finset.singleton_subset_iff.mpr (active (fair.anchor kind))) fun n member => ?_
        exact potential_bounds numRelays n (Finset.sdiff_subset (sample.drawn n (List.mem_toFinset.mp member)))
      · calc ({draw.anchor} ∪ draw.sample.toFinset).card ≤ 1 + draw.sample.toFinset.card := Finset.card_union_le _ _
          _ ≤ maxExtraInterfaces numRelays + 1 := by
            have length := sample.length
            omega
  | false =>
      have sample := fair.island kind
      rw [if_neg Bool.false_ne_true]
      constructor
      · intro n member
        exact potential_bounds numRelays n
          (island_pool_potential numRelays activeNetworks draw.numExtra (sample.drawn n (List.mem_toFinset.mp member)))
      · have length := sample.length
        omega

theorem grow_bounds (i : ℕ) (state : Generation) (draws : List Draw) (fair : FairFrom numRelays i state draws)
    (active : state.activeNetworks ⊆ Finset.Icc 1 (2 * numRelays)) :
    ∀ draw ∈ draws, draw.nets ⊆ Finset.Icc 1 (2 * numRelays) ∧ draw.nets.card ≤ maxExtraInterfaces numRelays + 1 := by
  induction draws generalizing i state with
  | nil => exact fun draw member => absurd member List.not_mem_nil
  | cons first draws ih =>
      obtain ⟨here, later⟩ := fair
      have bounds := draw_bounds numRelays state.activeNetworks first here active
      have grown : (state.add i first.isMainMesh first.nets).activeNetworks ⊆ Finset.Icc 1 (2 * numRelays) := by
        unfold Generation.add
        split
        · exact Finset.union_subset active bounds.1
        · exact active
      intro draw member
      cases List.mem_cons.mp member with
      | inl same => exact same ▸ bounds
      | inr rest => exact ih (i + 1) _ later grown draw rest

-- The pool of networks is large enough for every outcome: two subnets for
-- each relay, and no relay with more interfaces than the ratio allows.
theorem subnets_bounded (order : SetOrder) (numExits : ℕ) (relays : 1 ≤ numRelays) (exits : 1 ≤ numExits) (draws : List Draw)
    (fair : FairDraws numRelays draws) :
    ∃ mesh calls, buildMesh order numRelays numExits draws [] = .ok (mesh, calls) ∧
      (∀ relay ∈ mesh.relays, relay.networks.Nonempty ∧ relay.networks ⊆ Finset.Icc 1 (2 * numRelays) ∧
        relay.networks.card ≤ max 2 (numRelays / 10) + 1) ∧
      mesh.networks.length ≤ 2 * numRelays := by
  obtain ⟨mesh, calls, depths, built, _, grown, final, _, distances, networks⟩ := build_mesh_run order numRelays numExits draws exits fair
  have start : Generation.start.activeNetworks ⊆ Finset.Icc 1 (2 * numRelays) :=
    Finset.singleton_subset_iff.mpr (Finset.mem_Icc.mpr ⟨Nat.le_refl 1, by omega⟩)
  have shape : mesh.relays.map Relay.networks = draws.map Draw.nets := by
    rw [grown, grow_networks]
    rfl
  have drawn : ∀ relay ∈ mesh.relays, ∃ draw ∈ draws, draw.nets = relay.networks := fun relay member =>
    List.mem_map.mp (shape ▸ List.mem_map_of_mem member)
  have bounds := grow_bounds numRelays 1 .start draws fair.fair start
  refine ⟨mesh, calls, built, fun relay member => ?_, ?_⟩
  · obtain ⟨draw, origin, same⟩ := drawn relay member
    obtain ⟨activeNetworks, here⟩ := fair_draw numRelays 1 .start draws fair.fair draw origin
    rw [← same]
    exact ⟨drawn_nets_some numRelays relays activeNetworks draw here, bounds draw origin⟩
  · have inside : ∀ n ∈ mesh.networks, n ∈ Finset.Icc 1 (2 * numRelays) := by
      intro n member
      rw [final, mem_final_networks, ← grown] at member
      cases member with
      | inl attached =>
          obtain ⟨relay, used, on⟩ := attached
          obtain ⟨draw, origin, same⟩ := drawn relay used
          exact (bounds draw origin).1 (same ▸ on)
      | inr placed =>
          rw [networks] at placed
          obtain ⟨depth, recorded⟩ := exit_recorded depths numExits distances.rooted n placed
          have walk := distances.walked (n, depth) recorded
          have attached := walk_attached order mesh.relays depth n walk
          cases (mem_attached mesh.relays n).mp attached with
          | inl one => exact one ▸ start (Finset.mem_singleton_self 1)
          | inr used =>
              obtain ⟨relay, used, on⟩ := used
              obtain ⟨draw, origin, same⟩ := drawn relay used
              exact (bounds draw origin).1 (same ▸ on)
    have distinct : mesh.networks.Nodup := by
      rw [final]
      exact Finset.sort_nodup _ _
    calc mesh.networks.length = mesh.networks.toFinset.card := (List.toFinset_card_of_nodup distinct).symm
      _ ≤ (Finset.Icc 1 (2 * numRelays)).card := Finset.card_le_card fun n member => inside n (List.mem_toFinset.mp member)
      _ = 2 * numRelays := by rw [Nat.card_Icc, Nat.add_sub_cancel]

end Bounds

-- An island on zones 2 and 3, then a main relay on zones 1 and 4.
theorem island_draws_bounded : ∃ mesh calls, buildMesh ascending 2 2 islandDraws [] = .ok (mesh, calls) ∧
    (∀ relay ∈ mesh.relays, relay.networks.Nonempty ∧ relay.networks ⊆ Finset.Icc 1 (2 * 2) ∧ relay.networks.card ≤ max 2 (2 / 10) + 1) ∧
    mesh.networks.length ≤ 2 * 2 :=
  subnets_bounded 2 ascending 2 (by decide) (by decide) islandDraws island_draws_fair

section Outcome

variable (order : SetOrder) (numRelays numExits : ℕ) (draws : List Draw) (positive : 1 ≤ numExits) (fair : FairDraws numRelays draws)

-- What the last line of the summary shows.
theorem maximum_depth_greatest (relays : List Relay) :
    IsGreatest { depth | ∃ n, Depth (services relays []) n depth } (maximumDepth order relays) := by
  obtain ⟨depths, searched, distances⟩ := breadth_first_distances order relays
  obtain ⟨furthest, first⟩ : ∃ furthest, (reachableNetworks depths).head? = some furthest := by
    have known : 1 ∈ reachableNetworks depths := (mem_reachable depths 1).mpr (List.mem_map_of_mem distances.rooted)
    exact ⟨_, List.head?_eq_some_head (List.ne_nil_of_mem known)⟩
  have target : (targetNetworks depths 1)[0]? = some furthest := by
    rw [targets_taken depths 1 distances.rooted, List.getElem?_take_of_lt (by decide), ← List.head?_eq_getElem?]
    exact first
  obtain ⟨deepest, recorded, below⟩ := first_target depths 1 distances.rooted distances.distinct furthest target
  have shown : maximumDepth order relays = deepest := by
    rw [maximumDepth, searched]
    simp only [first, Option.bind_some, lookup_entry depths distances.distinct furthest deepest recorded, Option.getD_some]
  rw [shown]
  constructor
  · exact ⟨furthest, recorded_depth order relays [] depths distances furthest deepest recorded⟩
  · intro depth least
    obtain ⟨n, reached⟩ := least
    exact below (n, depth) (depth_recorded order relays [] depths distances n depth reached)

include positive fair

theorem built_names : ∃ mesh calls, buildMesh order numRelays numExits draws [] = .ok (mesh, calls) ∧
    (compose mesh).services.length = 1 + numRelays + numExits ∧ ((compose mesh).services.map Service.name).Nodup := by
  obtain ⟨calls, generated, possible⟩ := generate_run numRelays draws fair
  obtain ⟨exits, depths, _, placed, distances, networks⟩ :=
    exit_nodes_placed order (Generation.start.grow 1 draws).relays numExits positive
  have built : buildMesh order numRelays numExits draws [] =
      .ok (⟨(Generation.start.grow 1 draws).relays, exits, finalNetworks (Generation.start.grow 1 draws) exits⟩, calls) := by
    rw [buildMesh, random_bind _ _ _ _ _ generated]
    simp only [placed]
    rfl
  have relays : (Generation.start.grow 1 draws).relays.map Relay.name = (List.range' 1 numRelays).map fun k => s!"relay_{k}" := by
    rw [relay_names, fair.length]
    rfl
  have names := exits_named order _ numExits exits placed
  have listed : (compose ⟨(Generation.start.grow 1 draws).relays, exits, finalNetworks (Generation.start.grow 1 draws) exits⟩).services.map
      Service.name = "victim" :: ((List.range' 1 numRelays).map fun k => s!"relay_{k}") ++ (List.range' 1 numExits).map fun k => s!"exit_{k}" := by
    rw [← names, ← relays]
    simp [compose]
    rfl
  refine ⟨_, calls, built, ?_, ?_⟩
  · rw [← List.length_map Service.name, listed]
    simp
    omega
  · rw [listed]
    exact names_distinct numRelays numExits

end Outcome

-- A file for the counts, whose services have different names, and a summary
-- that shows the greatest depth of a network.
def Written (around : Surroundings) (numRelays numExits : ℕ) (printed : List String) (file : Compose) : Prop :=
  ∃ mesh calls earlier depth, buildMesh around.order numRelays numExits (around.draws numRelays) [] = .ok (mesh, calls) ∧
    file = compose mesh ∧ file.services.length = 1 + numRelays + numExits ∧ (file.services.map Service.name).Nodup ∧
    IsGreatest { depth | ∃ n, Depth (services mesh.relays []) n depth } depth ∧
    printed = earlier ++ [s!"Success! Generated mesh with {numRelays} relays and {numExits} exits.",
      s!"Total active subnets created: {file.networks.length}", s!"Maximum network depth from victim: {depth} hops"]

section Sessions

variable (console : Console) (around : Surroundings) (fair : ∀ numRelays, 1 ≤ numRelays → FairDraws numRelays (around.draws numRelays))

include fair

theorem generate_mesh_outcome (printed : List String) (numRelays numExits : ℕ) (relays : 1 ≤ numRelays) (exits : 1 ≤ numExits) :
    (∀ error, (generateMesh around printed numRelays numExits).ending ≠ .failed error) ∧
      ∀ file, (generateMesh around printed numRelays numExits).ending = .written file →
        Written around numRelays numExits (generateMesh around printed numRelays numExits).printed file := by
  obtain ⟨mesh, calls, built, length, names⟩ :=
    built_names around.order numRelays numExits (around.draws numRelays) exits (fair numRelays relays)
  simp only [generateMesh, built]
  cases around.templateFound with
  | false => exact ⟨fun error never => Ending.noConfusion never, fun file never => Ending.noConfusion never⟩
  | true =>
      refine ⟨fun error never => Ending.noConfusion never, fun file same => ?_⟩
      obtain rfl := Ending.written.inj same
      exact ⟨mesh, calls, printed, _, built, rfl, length, names, maximum_depth_greatest around.order mesh.relays, rfl⟩

theorem ask_exits_outcome (printed : List String) (numRelays : ℕ) (relays : 1 ≤ numRelays) (lines : List String) :
    (∀ error, (askExits console around printed numRelays lines).ending ≠ .failed error) ∧
      ∀ file, (askExits console around printed numRelays lines).ending = .written file →
        ∃ numExits, 1 ≤ numExits ∧ Written around numRelays numExits (askExits console around printed numRelays lines).printed file := by
  have counted := user_input_count console exitsPrompt lines
  rw [askExits]
  generalize getUserInput console exitsPrompt lines = prompted at counted
  obtain ⟨asked, answered⟩ := prompted
  cases answered with
  | none => exact ⟨fun error never => Ending.noConfusion never, fun file never => Ending.noConfusion never⟩
  | some answer =>
      obtain ⟨numExits, rest⟩ := answer
      have exits := (counted numExits rest rfl).1
      obtain ⟨sound, written⟩ := generate_mesh_outcome around fair (printed ++ asked) numRelays numExits relays exits
      exact ⟨sound, fun file same => ⟨numExits, exits, written file same⟩⟩

-- Whatever is typed and however the random calls turn out, the generator ends
-- without an exception of its own; it writes a file for positive counts only,
-- and for more than 50 relays only after a yes.
theorem session_outcome (lines : List String) :
    (∀ error, (session console around lines).ending ≠ .failed error) ∧
      ∀ file, (session console around lines).ending = .written file →
        ∃ numRelays numExits, 1 ≤ numRelays ∧ 1 ≤ numExits ∧ (50 < numRelays → ∃ line ∈ lines, console.normalise line = "y") ∧
          Written around numRelays numExits (session console around lines).printed file := by
  have counted := user_input_count console relaysPrompt lines
  rw [session]
  generalize getUserInput console relaysPrompt lines = prompted at counted
  obtain ⟨asked, answered⟩ := prompted
  cases answered with
  | none => exact ⟨fun error never => Ending.noConfusion never, fun file never => Ending.noConfusion never⟩
  | some answer =>
      obtain ⟨numRelays, rest⟩ := answer
      obtain ⟨relays, skipped, first, split, _⟩ := counted numRelays rest rfl
      by_cases many : warningLimit < numRelays
      · dsimp only
        rw [if_pos many]
        cases rest with
        | nil => exact ⟨fun error never => Ending.noConfusion never, fun file never => Ending.noConfusion never⟩
        | cons proceed rest =>
            dsimp only
            by_cases refused : console.normalise proceed ≠ "y"
            · rw [if_pos refused]
              exact ⟨fun error never => Ending.noConfusion never, fun file never => Ending.noConfusion never⟩
            · rw [if_neg refused]
              obtain ⟨sound, written⟩ := ask_exits_outcome console around fair (asked ++ [warning numRelays]) numRelays relays rest
              refine ⟨sound, fun file same => ?_⟩
              obtain ⟨numExits, exits, result⟩ := written file same
              refine ⟨numRelays, numExits, relays, exits, fun _ => ⟨proceed, ?_, not_not.mp refused⟩, result⟩
              rw [split]
              exact List.mem_append_right _ (List.mem_cons_of_mem first List.mem_cons_self)
      · dsimp only
        rw [if_neg many]
        obtain ⟨sound, written⟩ := ask_exits_outcome console around fair asked numRelays relays rest
        refine ⟨sound, fun file same => ?_⟩
        obtain ⟨numExits, exits, result⟩ := written file same
        exact ⟨numRelays, numExits, relays, exits, fun large => absurd large many, result⟩

end Sessions

def sampleSurroundings : Surroundings where
  order := ascending
  draws numRelays := lineFrom 1 numRelays
  templateFound := true
  path := "docker-compose.yml.j2"

-- The first answer is no number, the second not positive.
def sampleLines : List String := ["many", "0", " 2", "+1"]

def sampleMesh : GeneratedMesh :=
  let relays : List Relay := [⟨"relay_1", {1, 2}⟩, ⟨"relay_2", {2, 3}⟩]
  let exits : List Exit := [⟨"exit_1", 3⟩]
  ⟨relays, exits, finalNetworks ⟨relays, {1, 2, 3}, {1, 2, 3}⟩ exits⟩

theorem sample_session_outcome :
    ∃ numRelays numExits, 1 ≤ numRelays ∧ 1 ≤ numExits ∧ (50 < numRelays → ∃ line ∈ sampleLines, python.normalise line = "y") ∧
      Written sampleSurroundings numRelays numExits (session python sampleSurroundings sampleLines).printed (compose sampleMesh) := by
  refine (session_outcome python sampleSurroundings ?_ sampleLines).2 (compose sampleMesh) ?_
  · intro numRelays some
    have first : Generation.start.activeNetworks = Finset.Icc 1 1 := Finset.Icc_self 1 |>.symm
    exact ⟨line_length 1 numRelays, line_fair numRelays 1 1 numRelays .start (Nat.le_refl 1) (by omega) first⟩
  · have many : int "many" = none := by decide +kernel
    have zero : int "0" = some 0 := by decide +kernel
    have two : int " 2" = some 2 := by decide +kernel
    have one : int "+1" = some 1 := by decide +kernel
    have relays : getUserInput python relaysPrompt sampleLines = ([relaysPrompt, "Invalid input. Please enter an integer.", relaysPrompt,
        "Please enter a number greater than 0.", relaysPrompt], some (2, ["+1"])) := by
      simp only [sampleLines, getUserInput, python, many, zero, two]
      rfl
    have exits : getUserInput python exitsPrompt ["+1"] = ([exitsPrompt], some (1, [])) := by
      simp only [getUserInput, python, one]
      rfl
    simp only [session, relays, askExits, exits]
    rfl

end BeaconMesh.Generator
