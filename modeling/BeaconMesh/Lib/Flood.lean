import Mathlib.Data.Fintype.Card
import Mathlib.Data.Multiset.Bind
import Mathlib.Logic.Hydra
import Mathlib.Logic.Relation

set_option autoImplicit false

namespace BeaconMesh.Flood

variable {ν ζ μ : Type}

-- Nodes on shared networks; some of them pass on what they hear.
structure Wiring (ν ζ : Type) where
  relay : ν → Bool
  networks : ν → Finset ζ
  source : ζ

-- Relays that share networks one after the other, from the source to a
-- network of the last. The latest relay comes first.
inductive Chain (w : Wiring ν ζ) : List ν → ζ → Prop where
  | source : Chain w [] w.source
  | hop (path : List ν) (here there : ζ) (r : ν) (chain : Chain w path here) (passes : w.relay r = true)
      (hears : here ∈ w.networks r) (speaks : there ∈ w.networks r) : Chain w (r :: path) there

def Reached (w : Wiring ν ζ) (z : ζ) : Prop := ∃ path, Chain w path z

theorem chain_relays (w : Wiring ν ζ) (path : List ν) (z : ζ) (chain : Chain w path z) : ∀ r ∈ path, w.relay r = true := by
  induction chain with
  | source => simp
  | hop path here there r chain passes hears speaks ih =>
      intro member inside
      cases List.mem_cons.mp inside with
      | inl same => exact same ▸ passes
      | inr later => exact ih member later

section Copies

variable [Fintype ν] [DecidableEq ζ]

def Wiring.audience (w : Wiring ν ζ) (z : ζ) : Finset ν := Finset.univ.filter fun n => z ∈ w.networks n

def Wiring.broadcast (w : Wiring ν ζ) (z : ζ) (message : μ) : Multiset (ν × μ) := (w.audience z).val.map fun n => (n, message)

def Wiring.send (w : Wiring ν ζ) (r : ν) (message : μ) : Multiset (ν × μ) :=
  (w.networks r).val.bind fun z => w.broadcast z message

@[simp] theorem mem_broadcast (w : Wiring ν ζ) (z : ζ) (message other : μ) (n : ν) :
    (n, other) ∈ w.broadcast z message ↔ z ∈ w.networks n ∧ other = message := by
  simp [Wiring.broadcast, Wiring.audience, eq_comm]

@[simp] theorem mem_send (w : Wiring ν ζ) (r : ν) (message other : μ) (n : ν) :
    (n, other) ∈ w.send r message ↔ (∃ z, z ∈ w.networks r ∧ z ∈ w.networks n) ∧ other = message := by
  simp only [Wiring.send, Multiset.mem_bind, Finset.mem_val, mem_broadcast]
  constructor
  · rintro ⟨z, speaks, hears, same⟩
    exact ⟨⟨z, speaks, hears⟩, same⟩
  · rintro ⟨⟨z, speaks, hears⟩, same⟩
    exact ⟨z, speaks, hears, same⟩

theorem map_broadcast {κ : Type} (w : Wiring ν ζ) (z : ζ) (message : μ) (f : μ → κ) :
    (w.broadcast z message).map (Prod.map id f) = w.broadcast z (f message) := by
  simp [Wiring.broadcast, Multiset.map_map]

theorem map_send {κ : Type} (w : Wiring ν ζ) (r : ν) (message : μ) (f : μ → κ) :
    (w.send r message).map (Prod.map id f) = w.send r (f message) := by
  simp [Wiring.send, Multiset.map_bind, map_broadcast]

end Copies

-- One message that every relay passes on once, within a budget of hops. A
-- copy in flight knows its receiver and the relays it has crossed.
structure State (ν : Type) where
  sent : Bool
  accepted : Finset ν
  passed : Finset ν
  inFlight : Multiset (ν × Nat)

def State.start : State ν := ⟨false, ∅, ∅, 0⟩

-- A relay that the budget can run out at: it ends a chain of that many
-- distinct relays.
def LastOf (w : Wiring ν ζ) (budget : Nat) (r : ν) : Prop :=
  ∃ path z, Chain w (r :: path) z ∧ (r :: path).Nodup ∧ (r :: path).length = budget

-- The route of a copy that a node hears: distinct relays, all of which have
-- accepted the message before.
def Travelled (w : Wiring ν ζ) (accepted : Finset ν) (n : ν) (hops : Nat) : Prop :=
  ∃ path z, Chain w path z ∧ path.Nodup ∧ path.length = hops ∧ (∀ r ∈ path, r ∈ accepted) ∧ z ∈ w.networks n

def Promised (accepted : Finset ν) (inFlight : Multiset (ν × Nat)) (n : ν) : Prop :=
  n ∈ accepted ∨ ∃ hops, (n, hops) ∈ inFlight

structure Spread (w : Wiring ν ζ) (budget : Nat) (state : State ν) : Prop where
  flights : ∀ n hops, (n, hops) ∈ state.inFlight → hops < budget ∧ Travelled w state.accepted n hops
  reached : ∀ n ∈ state.accepted, ∃ z, Reached w z ∧ z ∈ w.networks n
  passed : ∀ r ∈ state.passed, r ∈ state.accepted ∧ w.relay r = true
  stopped : ∀ r ∈ state.accepted, w.relay r = true → r ∉ state.passed → LastOf w budget r
  offered : state.sent = true → ∀ n, w.source ∈ w.networks n → Promised state.accepted state.inFlight n
  covered : ∀ r ∈ state.passed, ∀ z ∈ w.networks r, ∀ n, z ∈ w.networks n → Promised state.accepted state.inFlight n

section Routes

variable (w : Wiring ν ζ) (budget : Nat)

theorem travelled_mono (fewer more : Finset ν) (inside : fewer ⊆ more) (n : ν) (hops : Nat)
    (travelled : Travelled w fewer n hops) : Travelled w more n hops := by
  obtain ⟨path, z, chain, distinct, length, accepted, hears⟩ := travelled
  exact ⟨path, z, chain, distinct, length, fun r member => inside (accepted r member), hears⟩

theorem travelled_reached (accepted : Finset ν) (n : ν) (hops : Nat) (travelled : Travelled w accepted n hops) :
    ∃ z, Reached w z ∧ z ∈ w.networks n := by
  obtain ⟨path, z, chain, _, _, _, hears⟩ := travelled
  exact ⟨z, ⟨path, chain⟩, hears⟩

theorem travelled_extend (accepted : Finset ν) (r : ν) (hops : Nat) (fresh : r ∉ accepted) (passes : w.relay r = true)
    (travelled : Travelled w accepted r hops) :
    ∃ path, (r :: path).Nodup ∧ path.length = hops ∧ (∀ other ∈ path, other ∈ accepted) ∧
      (∃ here, Chain w (r :: path) here) ∧ ∀ there ∈ w.networks r, Chain w (r :: path) there := by
  obtain ⟨path, here, chain, distinct, length, known, hears⟩ := travelled
  have new : r ∉ path := fun member => fresh (known r member)
  exact ⟨path, List.nodup_cons.mpr ⟨new, distinct⟩, length, known, ⟨here, .hop path here here r chain passes hears hears⟩,
    fun there speaks => .hop path here there r chain passes hears speaks⟩

theorem travelled_last (accepted : Finset ν) (r : ν) (hops : Nat) (fresh : r ∉ accepted) (passes : w.relay r = true)
    (travelled : Travelled w accepted r hops) (last : hops + 1 = budget) : LastOf w budget r := by
  obtain ⟨path, distinct, length, _, ⟨here, chain⟩, _⟩ := travelled_extend w accepted r hops fresh passes travelled
  exact ⟨path, here, chain, distinct, by rw [List.length_cons, length, last]⟩

theorem few_relays [Fintype ν] (few : (Finset.univ.filter fun n => w.relay n = true).card < budget) (r : ν) :
    ¬ LastOf w budget r := by
  classical
  rintro ⟨path, z, chain, distinct, length⟩
  have relays : (r :: path).toFinset ⊆ Finset.univ.filter fun n => w.relay n = true := by
    intro member inside
    exact Finset.mem_filter.mpr ⟨Finset.mem_univ member, chain_relays w _ z chain member (List.mem_toFinset.mp inside)⟩
  have bound := Finset.card_le_card relays
  rw [List.toFinset_card_of_nodup distinct, length] at bound
  exact absurd few (not_lt.mpr bound)

theorem spread_start : Spread w budget State.start := by
  constructor <;> simp [State.start]

end Routes

section Promises

variable [DecidableEq ν] (w : Wiring ν ζ) (budget : Nat)

theorem promised_taken (accepted grown : Finset ν) (inFlight added : Multiset (ν × Nat)) (n : ν) (hops : Nat)
    (inside : accepted ⊆ grown) (taken : n ∈ grown) (other : ν) (promise : Promised accepted inFlight other) :
    Promised grown (inFlight.erase (n, hops) + added) other := by
  cases promise with
  | inl known => exact Or.inl (inside known)
  | inr flying =>
      obtain ⟨more, copy⟩ := flying
      by_cases same : other = n
      · exact Or.inl (same ▸ taken)
      · have different : (other, more) ≠ (n, hops) := fun equal => same (congrArg Prod.fst equal)
        exact Or.inr ⟨more, Multiset.mem_add.mpr (Or.inl ((Multiset.mem_erase_of_ne different).mpr copy))⟩

theorem spread_known (state : State ν) (spread : Spread w budget state) (n : ν) (hops : Nat) (known : n ∈ state.accepted) :
    Spread w budget { state with inFlight := state.inFlight.erase (n, hops) } := by
  have kept : ∀ other, Promised state.accepted state.inFlight other →
      Promised state.accepted (state.inFlight.erase (n, hops)) other := fun other promise => by
    simpa using promised_taken state.accepted state.accepted state.inFlight 0 n hops (Finset.Subset.refl _) known other promise
  exact ⟨fun other more flying => spread.flights other more (Multiset.mem_of_mem_erase flying), spread.reached, spread.passed,
    spread.stopped, fun sent other hears => kept other (spread.offered sent other hears),
    fun r passed z speaks other hears => kept other (spread.covered r passed z speaks other hears)⟩

theorem reached_insert (state : State ν) (spread : Spread w budget state) (n : ν) (hops : Nat)
    (travelled : Travelled w state.accepted n hops) (other : ν) (member : other ∈ insert n state.accepted) :
    ∃ z, Reached w z ∧ z ∈ w.networks other := by
  cases Finset.mem_insert.mp member with
  | inl same =>
      rw [same]
      exact travelled_reached w _ n hops travelled
  | inr old => exact spread.reached other old

theorem spread_kept (state : State ν) (spread : Spread w budget state) (n : ν) (hops : Nat)
    (flying : (n, hops) ∈ state.inFlight) (fresh : n ∉ state.accepted) (last : w.relay n = true → budget ≤ hops + 1) :
    Spread w budget { state with accepted := insert n state.accepted, inFlight := state.inFlight.erase (n, hops) } := by
  have grown : state.accepted ⊆ insert n state.accepted := Finset.subset_insert n state.accepted
  have here : n ∈ insert n state.accepted := Finset.mem_insert_self n state.accepted
  obtain ⟨bound, travelled⟩ := spread.flights n hops flying
  have kept : ∀ other, Promised state.accepted state.inFlight other →
      Promised (insert n state.accepted) (state.inFlight.erase (n, hops)) other := fun other promise => by
    simpa using promised_taken state.accepted (insert n state.accepted) state.inFlight 0 n hops grown here other promise
  refine ⟨fun other more copy => ?_, reached_insert w budget state spread n hops travelled, fun r passed => ?_,
    fun r member passes stopped => ?_, fun sent other hears => kept other (spread.offered sent other hears),
    fun r passed z speaks other hears => kept other (spread.covered r passed z speaks other hears)⟩
  · have old := spread.flights other more (Multiset.mem_of_mem_erase copy)
    exact ⟨old.1, travelled_mono w _ _ grown other more old.2⟩
  · exact ⟨grown (spread.passed r passed).1, (spread.passed r passed).2⟩
  · cases Finset.mem_insert.mp member with
    | inl same =>
        subst same
        exact travelled_last w budget _ r hops fresh passes travelled (by have := last passes; omega)
    | inr old => exact spread.stopped r old passes stopped

-- Once nothing is in flight, the message has crossed every chain of relays
-- that the budget cannot run out at.
theorem quiet_chain (state : State ν) (spread : Spread w budget state) (sent : state.sent = true) (quiet : state.inFlight = 0)
    (path : List ν) (z : ζ) (chain : Chain w path z) (safe : ∀ r ∈ path, ¬ LastOf w budget r) :
    ∀ n, z ∈ w.networks n → n ∈ state.accepted := by
  have settled : ∀ n, Promised state.accepted state.inFlight n → n ∈ state.accepted := by
    intro n promise
    cases promise with
    | inl known => exact known
    | inr flying =>
        obtain ⟨hops, copy⟩ := flying
        rw [quiet] at copy
        exact absurd copy (Multiset.notMem_zero _)
  induction chain with
  | source => exact fun n hears => settled n (spread.offered sent n hears)
  | hop path here there r chain passes hears speaks ih =>
      intro n attached
      have accepted := ih (fun other member => safe other (List.mem_cons_of_mem r member)) r hears
      have passed : r ∈ state.passed := by
        by_contra stopped
        exact safe r List.mem_cons_self (spread.stopped r accepted passes stopped)
      exact settled n (spread.covered r passed there speaks n attached)

end Promises

section Emission

variable [Fintype ν] [DecidableEq ζ] (w : Wiring ν ζ) (budget : Nat)

def State.emit (state : State ν) : State ν :=
  { state with sent := true, inFlight := state.inFlight + w.broadcast w.source 0 }

theorem spread_emit (positive : 0 < budget) (state : State ν) (spread : Spread w budget state) :
    Spread w budget (state.emit w) := by
  refine ⟨fun n hops flying => ?_, spread.reached, spread.passed, spread.stopped, fun _ n hears => ?_, fun r passed z speaks n hears => ?_⟩
  · cases Multiset.mem_add.mp flying with
    | inl old => exact spread.flights n hops old
    | inr new =>
        obtain ⟨hears, rfl⟩ := (mem_broadcast w w.source 0 hops n).mp new
        exact ⟨positive, [], w.source, .source, List.nodup_nil, rfl, by simp, hears⟩
  · exact Or.inr ⟨0, Multiset.mem_add.mpr (Or.inr ((mem_broadcast w w.source 0 0 n).mpr ⟨hears, rfl⟩))⟩
  · cases spread.covered r passed z speaks n hears with
    | inl known => exact Or.inl known
    | inr flying =>
        obtain ⟨hops, copy⟩ := flying
        exact Or.inr ⟨hops, Multiset.mem_add.mpr (Or.inl copy)⟩

end Emission

section Steps

variable [Fintype ν] [DecidableEq ν] [DecidableEq ζ] (w : Wiring ν ζ) (budget : Nat)

-- The first copy decides what a node does with the message.
def State.deliver (state : State ν) (copy : ν × Nat) : State ν :=
  let inFlight := state.inFlight.erase copy
  if copy.1 ∈ state.accepted then { state with inFlight := inFlight }
  else if w.relay copy.1 = true ∧ copy.2 + 1 < budget then
    { state with
      accepted := insert copy.1 state.accepted
      passed := insert copy.1 state.passed
      inFlight := inFlight + w.send copy.1 (copy.2 + 1) }
  else { state with accepted := insert copy.1 state.accepted, inFlight := inFlight }

inductive Step : State ν → State ν → Prop where
  | emit (state : State ν) : Step state (state.emit w)
  | deliver (state : State ν) (copy : ν × Nat) (flying : copy ∈ state.inFlight) : Step state (state.deliver w budget copy)

inductive DeliverEffect (before : State ν) (n : ν) (hops : Nat) : State ν → Prop where
  | known (accepted : n ∈ before.accepted) :
      DeliverEffect before n hops { before with inFlight := before.inFlight.erase (n, hops) }
  | passed (fresh : n ∉ before.accepted) (passes : w.relay n = true) (more : hops + 1 < budget) :
      DeliverEffect before n hops
        { before with
          accepted := insert n before.accepted
          passed := insert n before.passed
          inFlight := before.inFlight.erase (n, hops) + w.send n (hops + 1) }
  | kept (fresh : n ∉ before.accepted) (last : w.relay n = true → budget ≤ hops + 1) :
      DeliverEffect before n hops
        { before with accepted := insert n before.accepted, inFlight := before.inFlight.erase (n, hops) }

theorem deliver_effect (state : State ν) (n : ν) (hops : Nat) :
    DeliverEffect w budget state n hops (state.deliver w budget (n, hops)) := by
  by_cases known : n ∈ state.accepted
  · simp only [State.deliver, if_pos known]
    exact .known known
  · by_cases more : w.relay n = true ∧ hops + 1 < budget
    · simp only [State.deliver, if_neg known, if_pos more]
      exact .passed known more.1 more.2
    · simp only [State.deliver, if_neg known, if_neg more]
      exact .kept known fun passes => not_lt.mp fun less => more ⟨passes, less⟩

theorem spread_passed (state : State ν) (spread : Spread w budget state) (n : ν) (hops : Nat)
    (flying : (n, hops) ∈ state.inFlight) (fresh : n ∉ state.accepted) (passes : w.relay n = true) (more : hops + 1 < budget) :
    Spread w budget
      { state with
        accepted := insert n state.accepted
        passed := insert n state.passed
        inFlight := state.inFlight.erase (n, hops) + w.send n (hops + 1) } := by
  have grown : state.accepted ⊆ insert n state.accepted := Finset.subset_insert n state.accepted
  have here : n ∈ insert n state.accepted := Finset.mem_insert_self n state.accepted
  have travelled := (spread.flights n hops flying).2
  have kept : ∀ other, Promised state.accepted state.inFlight other →
      Promised (insert n state.accepted) (state.inFlight.erase (n, hops) + w.send n (hops + 1)) other :=
    promised_taken state.accepted (insert n state.accepted) state.inFlight _ n hops grown here
  refine ⟨fun other crossed copy => ?_, reached_insert w budget state spread n hops travelled, fun r passed => ?_,
    fun r member passes stopped => ?_, fun sent other hears => kept other (spread.offered sent other hears),
    fun r passed z speaks other hears => ?_⟩
  · cases Multiset.mem_add.mp copy with
    | inl old =>
        have before := spread.flights other crossed (Multiset.mem_of_mem_erase old)
        exact ⟨before.1, travelled_mono w _ _ grown other crossed before.2⟩
    | inr new =>
        obtain ⟨⟨z, speaks, hears⟩, rfl⟩ := (mem_send w n (hops + 1) crossed other).mp new
        obtain ⟨path, distinct, length, known, _, chain⟩ := travelled_extend w state.accepted n hops fresh passes travelled
        refine ⟨more, n :: path, z, chain z speaks, distinct, by rw [List.length_cons, length], fun r member => ?_, hears⟩
        cases List.mem_cons.mp member with
        | inl same => exact same ▸ here
        | inr earlier => exact grown (known r earlier)
  · cases Finset.mem_insert.mp passed with
    | inl same =>
        rw [same]
        exact ⟨here, passes⟩
    | inr old => exact ⟨grown (spread.passed r old).1, (spread.passed r old).2⟩
  · have other : r ≠ n := fun same => stopped (Finset.mem_insert.mpr (Or.inl same))
    exact spread.stopped r (Finset.mem_of_mem_insert_of_ne member other) passes fun old => stopped (Finset.mem_insert_of_mem old)
  · cases Finset.mem_insert.mp passed with
    | inl same =>
        subst same
        exact Or.inr ⟨hops + 1, Multiset.mem_add.mpr (Or.inr ((mem_send w r _ _ other).mpr ⟨⟨z, speaks, hears⟩, rfl⟩))⟩
    | inr old => exact kept other (spread.covered r old z speaks other hears)

theorem spread_step (positive : 0 < budget) (before after : State ν) (step : Step w budget before after)
    (spread : Spread w budget before) : Spread w budget after := by
  cases step with
  | emit => exact spread_emit w budget positive before spread
  | deliver copy flying =>
      obtain ⟨n, hops⟩ := copy
      have effect := deliver_effect w budget before n hops
      generalize before.deliver w budget (n, hops) = after at effect
      cases effect with
      | known accepted => exact spread_known w budget before spread n hops accepted
      | passed fresh passes more => exact spread_passed w budget before spread n hops flying fresh passes more
      | kept fresh last => exact spread_kept w budget before spread n hops flying fresh last

theorem spread_run (positive : 0 < budget) (state : State ν) (run : Relation.ReflTransGen (Step w budget) .start state) :
    Spread w budget state := by
  induction run with
  | refl => exact spread_start w budget
  | tail _ step spread => exact spread_step w budget positive _ _ step spread

theorem drain (state : State ν) (known : ∀ copy ∈ state.inFlight, copy.1 ∈ state.accepted) :
    Relation.ReflTransGen (Step w budget) state { state with inFlight := 0 } := by
  obtain ⟨sent, accepted, passed, inFlight⟩ := state
  induction inFlight using Multiset.induction with
  | empty => exact .refl
  | cons copy rest ih =>
      have member : copy ∈ copy ::ₘ rest := Multiset.mem_cons_self copy rest
      have step : Step w budget ⟨sent, accepted, passed, copy ::ₘ rest⟩ ⟨sent, accepted, passed, rest⟩ := by
        have delivered : Step w budget ⟨sent, accepted, passed, copy ::ₘ rest⟩ _ := .deliver _ copy member
        simpa only [State.deliver, if_pos (known copy member), Multiset.erase_cons_head] using delivered
      exact .head step (ih fun other inside => known other (Multiset.mem_cons_of_mem inside))

def State.follow (state : State ν) : List (ν × Nat) → Option (State ν)
  | [] => some state
  | copy :: rest => if copy ∈ state.inFlight then (state.deliver w budget copy).follow rest else none

theorem follow_run (state last : State ν) (copies : List (ν × Nat)) (followed : state.follow w budget copies = some last) :
    Relation.ReflTransGen (Step w budget) state last := by
  induction copies generalizing state with
  | nil =>
      obtain rfl := Option.some.inj followed
      exact .refl
  | cons copy rest ih =>
      by_cases flying : copy ∈ state.inFlight
      · rw [State.follow, if_pos flying] at followed
        exact .head (.deliver state copy flying) (ih _ followed)
      · rw [State.follow, if_neg flying] at followed
        cases followed

end Steps

-- Steps that take one message away and add only messages of lower rank come
-- to an end.
theorem consuming_ends {σ : Type} [DecidableEq μ] (flights : σ → Multiset μ) (rank : μ → Nat) (step : σ → σ → Prop)
    (consumes : ∀ before after, step before after → ∃ copy ∈ flights before, ∃ added,
      flights after = (flights before).erase copy + added ∧ ∀ other ∈ added, rank other < rank copy) :
    WellFounded fun after before => step before after := by
  have ranks : WellFounded (Relation.CutExpand (· < ·) : Multiset Nat → Multiset Nat → Prop) := wellFounded_lt.cutExpand
  refine Subrelation.wf ?_ (InvImage.wf (fun state => (flights state).map rank) ranks)
  intro after before taken
  obtain ⟨copy, flying, added, after_eq, smaller⟩ := consumes before after taken
  refine ⟨added.map rank, rank copy, fun value member => ?_, ?_⟩
  · obtain ⟨other, inside, rfl⟩ := Multiset.mem_map.mp member
    exact smaller other inside
  · calc (flights after).map rank + {rank copy}
        = ((flights before).erase copy).map rank + added.map rank + {rank copy} := by rw [after_eq, Multiset.map_add]
      _ = (copy ::ₘ (flights before).erase copy).map rank + added.map rank := by
          rw [Multiset.map_cons, ← Multiset.singleton_add]
          ac_rfl
      _ = (flights before).map rank + added.map rank := by rw [Multiset.cons_erase flying]

-- Steps that come to an end can be taken until none is left.
theorem ending_reached {σ : Type} (step : σ → σ → Prop) (ends : WellFounded fun after before => step before after) (state : σ) :
    ∃ last, Relation.ReflTransGen step state last ∧ ∀ next, ¬ step last next := by
  induction state using ends.induction with
  | _ state ih =>
      by_cases more : ∃ next, step state next
      · obtain ⟨next, taken⟩ := more
        obtain ⟨last, reached, stuck⟩ := ih next taken
        exact ⟨last, .head taken reached, stuck⟩
      · exact ⟨state, .refl, fun next taken => more ⟨next, taken⟩⟩

end BeaconMesh.Flood
