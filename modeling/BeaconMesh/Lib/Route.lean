import BeaconMesh.Lib.Flood

set_option autoImplicit false

namespace BeaconMesh.Flood

variable {ν ζ : Type}

section Shortening

variable (w : Wiring ν ζ)

-- A chain may be cut at each of its relays, and go on from there to any
-- network of that relay.
theorem chain_cut (path : List ν) (z : ζ) (chain : Chain w path z) (r : ν) (member : r ∈ path) :
    ∃ earlier, (r :: earlier) <:+ path ∧ ∀ there ∈ w.networks r, Chain w (r :: earlier) there := by
  induction chain with
  | source => cases member
  | hop path here there last chain passes hears speaks ih =>
      cases List.mem_cons.mp member with
      | inl same =>
          subst same
          exact ⟨path, List.suffix_rfl, fun other attached => .hop path here other r chain passes hears attached⟩
      | inr inside =>
          obtain ⟨earlier, suffix, onward⟩ := ih inside
          exact ⟨earlier, suffix.trans (List.suffix_cons last path), onward⟩

theorem chain_shorten (path : List ν) (z : ζ) (chain : Chain w path z) :
    ∃ short, Chain w short z ∧ short.Nodup ∧ short.length ≤ path.length := by
  induction chain with
  | source => exact ⟨[], .source, List.nodup_nil, Nat.le_refl 0⟩
  | hop path here there r chain passes hears speaks ih =>
      obtain ⟨short, direct, distinct, length⟩ := ih
      by_cases member : r ∈ short
      · obtain ⟨earlier, suffix, onward⟩ := chain_cut w short here direct r member
        refine ⟨r :: earlier, onward there speaks, distinct.sublist suffix.sublist, ?_⟩
        exact suffix.length_le.trans (length.trans (Nat.le_succ path.length))
      · exact ⟨r :: short, .hop short here there r direct passes hears speaks, List.nodup_cons.mpr ⟨member, distinct⟩,
          Nat.succ_le_succ length⟩

end Shortening

-- One relay is on both networks.
def Bridged (w : Wiring ν ζ) (here there : ζ) : Prop := ∃ r, w.relay r = true ∧ here ∈ w.networks r ∧ there ∈ w.networks r

theorem reached_bridged (w : Wiring ν ζ) (z : ζ) : Reached w z ↔ Relation.ReflTransGen (Bridged w) w.source z := by
  constructor
  · intro reached
    obtain ⟨path, chain⟩ := reached
    induction chain with
    | source => exact .refl
    | hop path here there r chain passes hears speaks ih => exact ih.tail ⟨r, passes, hears, speaks⟩
  · intro bridges
    induction bridges with
    | refl => exact ⟨[], .source⟩
    | @tail here there earlier bridge ih =>
        obtain ⟨path, chain⟩ := ih
        obtain ⟨r, passes, hears, speaks⟩ := bridge
        exact ⟨r :: path, .hop path here there r chain passes hears speaks⟩

-- The fewest relays on a chain from the source to a network.
def Depth (w : Wiring ν ζ) (z : ζ) (depth : Nat) : Prop := IsLeast { length | ∃ path, Chain w path z ∧ path.length = length } depth

theorem depth_few [Fintype ν] (w : Wiring ν ζ) (z : ζ) (depth : Nat) (least : Depth w z depth) :
    depth ≤ (Finset.univ.filter fun n => w.relay n = true).card := by
  classical
  obtain ⟨⟨path, chain, _⟩, below⟩ := least
  obtain ⟨short, direct, distinct, _⟩ := chain_shorten w path z chain
  have relays : short.toFinset ⊆ Finset.univ.filter fun n => w.relay n = true := by
    intro member inside
    exact Finset.mem_filter.mpr ⟨Finset.mem_univ member, chain_relays w short z direct member (List.mem_toFinset.mp inside)⟩
  calc depth ≤ short.length := below ⟨short, direct, rfl⟩
    _ = short.toFinset.card := (List.toFinset_card_of_nodup distinct).symm
    _ ≤ _ := Finset.card_le_card relays

section Budget

variable [Fintype ν] [DecidableEq ν] [DecidableEq ζ] (w : Wiring ν ζ) (budget : Nat)

theorem near_run (positive : 0 < budget) (state : State ν) (run : Relation.ReflTransGen (Step w budget) .start state) :
    ∀ n ∈ state.accepted, ∃ path z, Chain w path z ∧ path.length < budget ∧ z ∈ w.networks n := by
  induction run with
  | refl => exact fun n member => absurd member (Finset.notMem_empty n)
  | @tail before after reached step ih =>
      cases step with
      | emit => exact ih
      | deliver copy flying =>
          intro n member
          by_cases known : n ∈ before.accepted
          · exact ih n known
          · obtain ⟨bound, path, z, chain, _, length, _, hears⟩ :=
              (spread_run w budget positive before reached).flights copy.1 copy.2 flying
            have same : n = copy.1 := by
              have effect := deliver_effect w budget before copy.1 copy.2
              rw [Prod.mk.eta] at effect
              generalize before.deliver w budget copy = after at effect member
              cases effect with
              | known accepted => exact absurd member known
              | passed fresh passes more => exact (Finset.mem_insert.mp member).resolve_right known
              | kept fresh last => exact (Finset.mem_insert.mp member).resolve_right known
            subst same
            exact ⟨path, z, chain, by omega, hears⟩

-- The copies along one chain are delivered first: the message then is in
-- flight to everybody on the network the chain leads to.
theorem carried (path : List ν) (z : ζ) (chain : Chain w path z) (distinct : path.Nodup)
    (within : path.length < budget) :
    ∃ state, Relation.ReflTransGen (Step w budget) .start state ∧ state.accepted = path.toFinset ∧
      ∀ n, z ∈ w.networks n → (n, path.length) ∈ state.inFlight := by
  induction chain with
  | source =>
      refine ⟨State.start.emit w, .single (.emit .start), rfl, fun n hears => ?_⟩
      exact Multiset.mem_add.mpr (Or.inr ((mem_broadcast w w.source 0 0 n).mpr ⟨hears, rfl⟩))
  | hop path here there r chain passes hears speaks ih =>
      obtain ⟨new, rest⟩ := List.nodup_cons.mp distinct
      rw [List.length_cons] at within
      obtain ⟨state, run, accepted, flying⟩ := ih rest (Nat.lt_of_succ_lt within)
      have fresh : r ∉ state.accepted := by
        rw [accepted, List.mem_toFinset]
        exact new
      have step := run.tail (.deliver state (r, path.length) (flying r hears))
      have effect := deliver_effect w budget state r path.length
      generalize state.deliver w budget (r, path.length) = after at effect step
      cases effect with
      | known member => exact absurd member fresh
      | passed _ _ more =>
          refine ⟨_, step, ?_, fun n attached => ?_⟩
          · rw [accepted, List.toFinset_cons]
          · exact Multiset.mem_add.mpr (Or.inr ((mem_send w r _ _ n).mpr ⟨⟨there, speaks, attached⟩, rfl⟩))
      | kept _ last => exact absurd (last passes) (not_le.mpr within)

-- A node can get the message exactly when it hears a network that fewer
-- relays than the budget lead to.
theorem accepted_in_some_run (positive : 0 < budget) (n : ν) :
    (∃ state, Relation.ReflTransGen (Step w budget) .start state ∧ n ∈ state.accepted) ↔
      ∃ path z, Chain w path z ∧ path.length < budget ∧ z ∈ w.networks n := by
  constructor
  · rintro ⟨state, run, accepted⟩
    exact near_run w budget positive state run n accepted
  · rintro ⟨long, z, winding, bound, hears⟩
    obtain ⟨path, chain, distinct, shorter⟩ := chain_shorten w long z winding
    obtain ⟨state, run, _, flying⟩ := carried w budget path z chain distinct (by omega)
    refine ⟨state.deliver w budget (n, path.length), run.tail (.deliver state _ (flying n hears)), ?_⟩
    have effect := deliver_effect w budget state n path.length
    generalize state.deliver w budget (n, path.length) = after at effect
    cases effect with
    | known accepted => exact accepted
    | passed fresh passes more => exact Finset.mem_insert_self n _
    | kept fresh last => exact Finset.mem_insert_self n _

end Budget

end BeaconMesh.Flood
