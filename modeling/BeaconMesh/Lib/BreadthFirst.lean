import Mathlib.Data.Finset.Card
import Mathlib.Order.Bounds.Basic

set_option autoImplicit false

namespace BeaconMesh.BreadthFirst

variable {ζ : Type}

inductive Walk (neighbours : ζ → List ζ) (source : ζ) : Nat → ζ → Prop where
  | source : Walk neighbours source 0 source
  | step (length : Nat) (here there : ζ) (walk : Walk neighbours source length here) (edge : there ∈ neighbours here) :
      Walk neighbours source (length + 1) there

-- The depths stand in the order of their discovery.
structure Search (ζ : Type) where
  depths : List (ζ × Nat)
  queue : List ζ

def Search.known (search : Search ζ) : List ζ := search.depths.map Prod.fst

def Search.start (source : ζ) : Search ζ := ⟨[(source, 0)], [source]⟩

section Loop

variable [DecidableEq ζ] (neighbours : ζ → List ζ)

-- A missing depth of the current node makes the search fail.
def Search.discover (current : ζ) (search : Search ζ) (neighbour : ζ) : Option (Search ζ) :=
  if neighbour ∈ search.known then some search
  else match search.depths.lookup current with
    | none => none
    | some depth => some ⟨search.depths ++ [(neighbour, depth + 1)], search.queue ++ [neighbour]⟩

def Search.turn (search : Search ζ) : Option (Search ζ) :=
  match search.queue with
  | [] => some search
  | current :: queue => (neighbours current).foldlM (Search.discover current) { search with queue := queue }

def Search.explore : Nat → Search ζ → Option (Search ζ)
  | 0, search => some search
  | fuel + 1, search => (search.turn neighbours).bind (explore fuel)

end Loop

-- The nodes already taken from the queue, and those that wait in it. The
-- depths in the queue never decrease and differ by at most one.
structure Frontier (neighbours : ζ → List ζ) (source : ζ) (done waiting : List (ζ × Nat)) : Prop where
  rooted : (source, 0) ∈ done ++ waiting
  distinct : ((done ++ waiting).map Prod.fst).Nodup
  walked : ∀ entry ∈ done ++ waiting, Walk neighbours source entry.2 entry.1
  ordered : (done ++ waiting).Pairwise fun first later => first.2 ≤ later.2
  narrow : ∀ first ∈ waiting, ∀ entry ∈ done ++ waiting, entry.2 ≤ first.2 + 1
  expanded : ∀ entry ∈ done, ∀ neighbour ∈ neighbours entry.1, ∃ depth, (neighbour, depth) ∈ done ++ waiting ∧ depth ≤ entry.2 + 1

theorem frontier_start (neighbours : ζ → List ζ) (source : ζ) : Frontier neighbours source [] [(source, 0)] := by
  refine ⟨by simp, by simp, fun entry member => ?_, by simp, fun first front entry member => ?_, by simp⟩
  · obtain rfl := List.mem_singleton.mp member
    exact .source
  · obtain rfl := List.mem_singleton.mp member
    exact Nat.zero_le _

section Turns

variable (neighbours : ζ → List ζ) (source : ζ)

def discovered (depth : Nat) (fresh : List ζ) : List (ζ × Nat) := fresh.map fun node => (node, depth + 1)

@[simp] theorem discovered_nil (depth : Nat) : discovered depth ([] : List ζ) = [] := rfl

@[simp] theorem discovered_cons (depth : Nat) (node : ζ) (fresh : List ζ) :
    discovered depth (node :: fresh) = (node, depth + 1) :: discovered depth fresh := rfl

theorem discovered_depth (depth : Nat) (fresh : List ζ) (entry : ζ × Nat) (member : entry ∈ discovered depth fresh) :
    entry.2 = depth + 1 ∧ entry.1 ∈ fresh := by
  obtain ⟨node, inside, rfl⟩ := List.mem_map.mp member
  exact ⟨rfl, inside⟩

@[simp] theorem discovered_nodes (depth : Nat) (fresh : List ζ) : (discovered depth fresh).map Prod.fst = fresh := by
  simp [discovered, Function.comp_def]

section Turn

variable (done waiting : List (ζ × Nat)) (current : ζ) (depth : Nat) (fresh : List ζ)
  (frontier : Frontier neighbours source done ((current, depth) :: waiting))

include frontier

theorem frontier_behind : ∀ first ∈ waiting, depth ≤ first.2 := by
  intro first front
  exact List.rel_of_pairwise_cons (List.pairwise_append.mp frontier.ordered).2.1 front

theorem turn_ordered (distinct : fresh.Nodup) :
    ((done ++ (current, depth) :: waiting) ++ discovered depth fresh).Pairwise fun first later => first.2 ≤ later.2 := by
  rw [List.pairwise_append]
  refine ⟨frontier.ordered, ?_, fun old member added inside => ?_⟩
  · exact List.pairwise_map.mpr (List.Pairwise.imp (fun _ => Nat.le_refl _) distinct)
  · rw [(discovered_depth depth fresh added inside).1]
    exact frontier.narrow (current, depth) List.mem_cons_self old member

theorem turn_narrow (first entry : ζ × Nat) (front : first ∈ waiting ++ discovered depth fresh)
    (member : entry ∈ (done ++ (current, depth) :: waiting) ++ discovered depth fresh) : entry.2 ≤ first.2 + 1 := by
  have low : depth ≤ first.2 := by
    cases List.mem_append.mp front with
    | inl old => exact frontier_behind neighbours source done waiting current depth frontier first old
    | inr added => exact (discovered_depth depth fresh first added).1 ▸ Nat.le_succ depth
  cases List.mem_append.mp member with
  | inl old => exact (frontier.narrow (current, depth) List.mem_cons_self entry old).trans (Nat.succ_le_succ low)
  | inr added => exact (discovered_depth depth fresh entry added).1 ▸ Nat.succ_le_succ low

theorem turn_expanded
    (covered : ∀ node ∈ neighbours current, node ∈ (done ++ (current, depth) :: waiting).map Prod.fst ∨ node ∈ fresh)
    (neighbour : ζ) (edge : neighbour ∈ neighbours current) :
    ∃ length, (neighbour, length) ∈ (done ++ (current, depth) :: waiting) ++ discovered depth fresh ∧ length ≤ depth + 1 := by
  cases covered neighbour edge with
  | inl known =>
      obtain ⟨found, inside, rfl⟩ := List.mem_map.mp known
      exact ⟨found.2, List.mem_append_left _ inside, frontier.narrow (current, depth) List.mem_cons_self found inside⟩
  | inr added => exact ⟨depth + 1, List.mem_append_right _ (List.mem_map.mpr ⟨neighbour, added, rfl⟩), Nat.le_refl _⟩

-- The current node joins the done ones; what it discovers is one step
-- further away, which the last nodes in the queue are at most.
theorem frontier_turn (distinct : fresh.Nodup)
    (new : ∀ node ∈ fresh, node ∈ neighbours current ∧ node ∉ (done ++ (current, depth) :: waiting).map Prod.fst)
    (covered : ∀ node ∈ neighbours current, node ∈ (done ++ (current, depth) :: waiting).map Prod.fst ∨ node ∈ fresh) :
    Frontier neighbours source (done ++ [(current, depth)]) (waiting ++ discovered depth fresh) := by
  have shape : done ++ [(current, depth)] ++ (waiting ++ discovered depth fresh) =
      (done ++ (current, depth) :: waiting) ++ discovered depth fresh := by simp
  constructor
  · rw [shape]
    exact List.mem_append_left _ frontier.rooted
  · rw [shape, List.map_append, discovered_nodes, List.nodup_append]
    refine ⟨frontier.distinct, distinct, fun old member node inside same => ?_⟩
    subst same
    exact (new old inside).2 member
  · rw [shape]
    intro entry member
    cases List.mem_append.mp member with
    | inl old => exact frontier.walked entry old
    | inr added =>
        obtain ⟨length, inside⟩ := discovered_depth depth fresh entry added
        rw [length]
        exact .step depth current entry.1 (frontier.walked (current, depth) (by simp)) (new entry.1 inside).1
  · rw [shape]
    exact turn_ordered neighbours source done waiting current depth fresh frontier distinct
  · rw [shape]
    exact fun first front entry => turn_narrow neighbours source done waiting current depth fresh frontier first entry front
  · rw [shape]
    intro entry member neighbour edge
    cases List.mem_append.mp member with
    | inl old =>
        obtain ⟨length, found, near⟩ := frontier.expanded entry old neighbour edge
        exact ⟨length, List.mem_append_left _ found, near⟩
    | inr last =>
        obtain rfl := List.mem_singleton.mp last
        exact turn_expanded neighbours source done waiting current depth fresh frontier covered neighbour edge

end Turn

variable [DecidableEq ζ]

theorem lookup_entry (depths : List (ζ × Nat)) (distinct : (depths.map Prod.fst).Nodup) (node : ζ) (depth : Nat)
    (member : (node, depth) ∈ depths) : depths.lookup node = some depth := by
  obtain ⟨earlier, later, rfl⟩ := List.append_of_mem member
  apply List.lookup_eq_some_iff.mpr
  refine ⟨earlier, later, rfl, fun entry before => bne_iff_ne.mpr fun same => ?_⟩
  rw [List.map_append] at distinct
  exact (List.nodup_append.mp distinct).2.2 entry.1 (List.mem_map_of_mem before) node (by simp) same.symm

theorem discover_all (current : ζ) (depth : Nat) (edges : List ζ) (search : Search ζ)
    (found : search.depths.lookup current = some depth) :
    ∃ fresh : List ζ, edges.foldlM (Search.discover current) search =
        some ⟨search.depths ++ discovered depth fresh, search.queue ++ fresh⟩ ∧
      fresh.Nodup ∧ (∀ node ∈ fresh, node ∈ edges ∧ node ∉ search.known) ∧
      ∀ node ∈ edges, node ∈ search.known ∨ node ∈ fresh := by
  induction edges generalizing search with
  | nil => exact ⟨[], by simp, List.nodup_nil, by simp, by simp⟩
  | cons neighbour edges ih =>
      by_cases old : neighbour ∈ search.known
      · obtain ⟨fresh, result, distinct, new, covered⟩ := ih search found
        refine ⟨fresh, ?_, distinct, fun node member => ⟨List.mem_cons_of_mem neighbour (new node member).1, (new node member).2⟩,
          fun node member => ?_⟩
        · rw [List.foldlM_cons, Search.discover, if_pos old]
          exact result
        · cases List.mem_cons.mp member with
          | inl same => exact Or.inl (same ▸ old)
          | inr later => exact covered node later
      · have kept : (search.depths ++ [(neighbour, depth + 1)]).lookup current = some depth := by
          rw [List.lookup_append, found, Option.some_or]
        have known : ∀ node, node ∈ (Search.mk (search.depths ++ [(neighbour, depth + 1)]) (search.queue ++ [neighbour])).known ↔
            node ∈ search.known ∨ node = neighbour := by simp [Search.known]
        obtain ⟨fresh, result, distinct, new, covered⟩ := ih ⟨search.depths ++ [(neighbour, depth + 1)], search.queue ++ [neighbour]⟩ kept
        refine ⟨neighbour :: fresh, ?_, List.nodup_cons.mpr ⟨fun member => ?_, distinct⟩, fun node member => ?_, fun node member => ?_⟩
        · rw [List.foldlM_cons, Search.discover, if_neg old, found]
          simpa using result
        · exact (new neighbour member).2 ((known neighbour).mpr (Or.inr rfl))
        · cases List.mem_cons.mp member with
          | inl same =>
              subst same
              exact ⟨List.mem_cons_self, old⟩
          | inr later =>
              obtain ⟨edge, unknown⟩ := new node later
              exact ⟨List.mem_cons_of_mem neighbour edge, fun member => unknown ((known node).mpr (Or.inl member))⟩
        · cases List.mem_cons.mp member with
          | inl same => exact Or.inr (same ▸ List.mem_cons_self)
          | inr later =>
              cases covered node later with
              | inr member => exact Or.inr (List.mem_cons_of_mem neighbour member)
              | inl member =>
                  cases (known node).mp member with
                  | inl before => exact Or.inl before
                  | inr same => exact Or.inr (same ▸ List.mem_cons_self)

theorem frontier_lookup (done waiting : List (ζ × Nat)) (current : ζ) (depth : Nat)
    (frontier : Frontier neighbours source done ((current, depth) :: waiting)) :
    (done ++ (current, depth) :: waiting).lookup current = some depth :=
  lookup_entry _ frontier.distinct current depth (by simp)

theorem turn_frontier (done waiting : List (ζ × Nat)) (current : ζ) (depth : Nat)
    (frontier : Frontier neighbours source done ((current, depth) :: waiting)) :
    ∃ found : List (ζ × Nat),
      Search.turn neighbours ⟨done ++ (current, depth) :: waiting, current :: waiting.map Prod.fst⟩ =
        some ⟨done ++ [(current, depth)] ++ (waiting ++ found), (waiting ++ found).map Prod.fst⟩ ∧
      Frontier neighbours source (done ++ [(current, depth)]) (waiting ++ found) := by
  obtain ⟨fresh, result, distinct, new, covered⟩ := discover_all current depth (neighbours current)
    ⟨done ++ (current, depth) :: waiting, waiting.map Prod.fst⟩ (frontier_lookup neighbours source done waiting current depth frontier)
  refine ⟨discovered depth fresh, ?_, frontier_turn neighbours source done waiting current depth fresh frontier distinct new covered⟩
  simpa [Search.turn] using result

theorem discover_extends (current : ζ) (edges : List ζ) (before after : Search ζ)
    (ran : edges.foldlM (Search.discover current) before = some after) : before.depths <+: after.depths := by
  induction edges generalizing before with
  | nil =>
      obtain rfl := Option.some.inj ran
      exact List.prefix_rfl
  | cons neighbour edges ih =>
      rw [List.foldlM_cons] at ran
      by_cases old : neighbour ∈ before.known
      · rw [Search.discover, if_pos old] at ran
        exact ih before ran
      · rw [Search.discover, if_neg old] at ran
        cases found : before.depths.lookup current with
        | none =>
            rw [found] at ran
            cases ran
        | some depth =>
            rw [found] at ran
            exact (List.prefix_append _ _).trans (ih _ ran)

theorem turn_extends (before after : Search ζ) (ran : before.turn neighbours = some after) : before.depths <+: after.depths := by
  unfold Search.turn at ran
  cases waiting : before.queue with
  | nil =>
      rw [waiting] at ran
      obtain rfl := Option.some.inj ran
      exact List.prefix_rfl
  | cons current queue =>
      rw [waiting] at ran
      exact discover_extends current (neighbours current) ⟨before.depths, queue⟩ after ran

theorem explore_extends (fuel : Nat) (before after : Search ζ) (ran : Search.explore neighbours fuel before = some after) :
    before.depths <+: after.depths := by
  induction fuel generalizing before with
  | zero =>
      obtain rfl := Option.some.inj ran
      exact List.prefix_rfl
  | succ fuel ih =>
      obtain ⟨next, turned, onward⟩ := Option.bind_eq_some_iff.mp ran
      exact (turn_extends neighbours before next turned).trans (ih next onward)

theorem explore_add (first more : Nat) (search : Search ζ) :
    Search.explore neighbours (first + more) search = (Search.explore neighbours first search).bind (Search.explore neighbours more) := by
  induction first generalizing search with
  | zero => rw [Nat.zero_add, Search.explore, Option.bind_some]
  | succ first ih =>
      rw [Nat.succ_add, Search.explore, Search.explore, Option.bind_assoc]
      exact congrArg (Option.bind (search.turn neighbours)) (funext ih)

theorem explore_empty (fuel : Nat) (depths : List (ζ × Nat)) :
    Search.explore neighbours fuel ⟨depths, []⟩ = some ⟨depths, []⟩ := by
  induction fuel with
  | zero => rfl
  | succ fuel ih => exact ih

-- Every turn takes a node of the region out of the queue, and no node twice.
theorem explore_ends (region : Finset ζ) (inside : ∀ length node, Walk neighbours source length node → node ∈ region) (fuel : Nat)
    (done waiting : List (ζ × Nat)) (frontier : Frontier neighbours source done waiting) (enough : region.card ≤ done.length + fuel) :
    ∃ depths, Search.explore neighbours fuel ⟨done ++ waiting, waiting.map Prod.fst⟩ = some ⟨depths, []⟩ ∧
      Frontier neighbours source depths [] := by
  induction fuel generalizing done waiting with
  | zero =>
      have bound : ((done ++ waiting).map Prod.fst).toFinset.card ≤ region.card := by
        apply Finset.card_le_card
        intro node member
        obtain ⟨entry, known, rfl⟩ := List.mem_map.mp (List.mem_toFinset.mp member)
        exact inside entry.2 entry.1 (frontier.walked entry known)
      rw [List.toFinset_card_of_nodup frontier.distinct, List.length_map, List.length_append] at bound
      obtain rfl := List.eq_nil_of_length_eq_zero (show waiting.length = 0 by omega)
      exact ⟨done, by simp [Search.explore], frontier⟩
  | succ fuel ih =>
      cases waiting with
      | nil => exact ⟨done, by rw [List.append_nil, List.map_nil, explore_empty], frontier⟩
      | cons head waiting =>
          obtain ⟨found, result, next⟩ := turn_frontier neighbours source done waiting head.1 head.2 frontier
          obtain ⟨depths, explored, ended⟩ := ih (done ++ [head]) (waiting ++ found) next (by
            rw [List.length_append, List.length_singleton]
            omega)
          refine ⟨depths, ?_, ended⟩
          rw [List.map_cons, Search.explore, result]
          exact explored

end Turns

-- What a finished search has found: exactly the nodes that can be reached,
-- each once, with the length of a shortest walk.
structure Distances (neighbours : ζ → List ζ) (source : ζ) (depths : List (ζ × Nat)) : Prop where
  rooted : (source, 0) ∈ depths
  distinct : (depths.map Prod.fst).Nodup
  ordered : depths.Pairwise fun first later => first.2 ≤ later.2
  walked : ∀ entry ∈ depths, Walk neighbours source entry.2 entry.1
  shortest : ∀ length node, Walk neighbours source length node → ∃ depth, (node, depth) ∈ depths ∧ depth ≤ length

section Results

variable (neighbours : ζ → List ζ) (source : ζ)

theorem frontier_distances (depths : List (ζ × Nat)) (frontier : Frontier neighbours source depths []) :
    Distances neighbours source depths := by
  obtain ⟨rooted, distinct, walked, ordered, _, expanded⟩ := frontier
  rw [List.append_nil] at rooted distinct walked ordered expanded
  refine ⟨rooted, distinct, ordered, walked, fun length node walk => ?_⟩
  induction walk with
  | source => exact ⟨0, rooted, Nat.le_refl 0⟩
  | step length here there walk edge ih =>
      obtain ⟨depth, known, near⟩ := ih
      obtain ⟨next, found, bound⟩ := expanded (here, depth) known there edge
      exact ⟨next, found, bound.trans (Nat.succ_le_succ near)⟩

theorem distances_least (depths : List (ζ × Nat)) (distances : Distances neighbours source depths) (node : ζ) (depth : Nat)
    (member : (node, depth) ∈ depths) : IsLeast { length | Walk neighbours source length node } depth := by
  refine ⟨distances.walked (node, depth) member, fun length walk => ?_⟩
  obtain ⟨least, found, bound⟩ := distances.shortest length node walk
  have same := List.inj_on_of_nodup_map distances.distinct member found rfl
  rwa [(Prod.mk.inj same).2]

variable [DecidableEq ζ]

theorem search_distances (region : Finset ζ) (inside : ∀ length node, Walk neighbours source length node → node ∈ region) :
    ∃ depths, Search.explore neighbours region.card (Search.start source) = some ⟨depths, []⟩ ∧
      Distances neighbours source depths := by
  obtain ⟨depths, result, frontier⟩ := explore_ends neighbours source region inside region.card [] [(source, 0)]
    (frontier_start neighbours source) (by rw [List.length_nil, Nat.zero_add])
  exact ⟨depths, result, frontier_distances neighbours source depths frontier⟩

-- Any number of turns stops short of the end or leaves the queue empty.
theorem search_settles (region : Finset ζ) (inside : ∀ length node, Walk neighbours source length node → node ∈ region) :
    ∃ depths, (∀ fuel, region.card ≤ fuel → Search.explore neighbours fuel (Search.start source) = some ⟨depths, []⟩) ∧
      (∀ fuel, ∃ search, Search.explore neighbours fuel (Search.start source) = some search ∧ search.depths <+: depths) ∧
      Distances neighbours source depths := by
  obtain ⟨depths, explored, distances⟩ := search_distances neighbours source region inside
  have settled : ∀ fuel, region.card ≤ fuel → Search.explore neighbours fuel (Search.start source) = some ⟨depths, []⟩ := by
    intro fuel enough
    obtain ⟨more, rfl⟩ := Nat.exists_eq_add_of_le enough
    rw [explore_add, explored, Option.bind_some, explore_empty]
  refine ⟨depths, settled, fun fuel => ?_, distances⟩
  have whole := settled (fuel + region.card) (Nat.le_add_left _ _)
  rw [explore_add] at whole
  obtain ⟨search, begun, finished⟩ := Option.bind_eq_some_iff.mp whole
  exact ⟨search, begun, explore_extends neighbours region.card search ⟨depths, []⟩ finished⟩

end Results

end BeaconMesh.BreadthFirst
