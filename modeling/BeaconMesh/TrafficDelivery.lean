import BeaconMesh.Traffic

set_option autoImplicit false

namespace BeaconMesh.Simulator

open Flood

variable {ν ζ : Type}

-- What a container did with the packets of one signature.
def turnsFor (sig : HmacSig) (history : List Handled) : List Turn :=
  (history.filter fun handled => handled.1.hmacSig == sig).map fun handled => handled.2

theorem turns_for_same (sig : HmacSig) (history : List Handled) (packet : EmergencyPacket) (turn : Turn)
    (same : packet.hmacSig = sig) : turnsFor sig (history ++ [(packet, turn)]) = turnsFor sig history ++ [turn] := by
  simp [turnsFor, same]

theorem turns_for_other (sig : HmacSig) (history : List Handled) (packet : EmergencyPacket) (turn : Turn)
    (other : packet.hmacSig ≠ sig) : turnsFor sig (history ++ [(packet, turn)]) = turnsFor sig history := by
  simp [turnsFor, other]

theorem turns_for_none (sig : HmacSig) (history : List Handled) (absent : sig ∉ signaturesOf history) : turnsFor sig history = [] := by
  rw [turnsFor, List.map_eq_nil_iff, List.filter_eq_nil_iff]
  intro handled member matched
  exact absent (List.mem_map.mpr ⟨handled, member, eq_of_beq matched⟩)

section Effects

variable (w : Wiring ν ζ) (n : ν) (packet : EmergencyPacket) (before after : NodeState) (turn : Turn)

theorem repeat_turn (effect : TurnEffect w n before packet after turn) (present : containsBuff before.cache packet.hmacSig ≠ none) :
    forwardedPacket turn = none ∧ finishedBytes turn = none := by
  cases effect with
  | duplicate => exact ⟨rfl, rfl⟩
  | dropped _ _ absent => exact absurd absent present
  | forwarded _ absent => exact absurd absent present
  | finished _ _ absent => exact absurd absent present

theorem first_turn (hops : Nat) (effect : TurnEffect w n before (aged packet hops) after turn)
    (absent : containsBuff before.cache packet.hmacSig = none) :
    (w.relay n = true ∧ hops + 1 < 20 → forwardedPacket turn = some (aged packet (hops + 1))) ∧
      (¬ (w.relay n = true ∧ hops + 1 < 20) → forwardedPacket turn = none) ∧
      (w.relay n = false → finishedBytes turn = some EmergencyPacket.size) := by
  have left : (ttlOf (aged packet hops).flags).toNat = 20 - hops := aged_ttl packet hops
  cases effect with
  | duplicate location present => exact absurd (present.symm.trans absent) (Option.some_ne_none location)
  | dropped _ passes _ spent silent =>
      have stays : forwardedPacket turn = none := by
        cases silent with
        | inl expired =>
            rw [expired]
            rfl
        | inr zero =>
            rw [zero]
            rfl
      refine ⟨fun more => absurd more.2 (by omega), fun _ => stays, fun ends => ?_⟩
      exact absurd passes (ne_true_of_eq_false ends)
  | forwarded passes _ two =>
      rw [hop_aged packet hops two]
      refine ⟨fun _ => rfl, fun stop => ?_, fun ends => ?_⟩
      · exact absurd ⟨passes, by omega⟩ stop
      · exact absurd passes (ne_true_of_eq_false ends)
  | finished kept ends _ => exact ⟨fun more => absurd more.1 (ne_true_of_eq_false ends), fun _ => rfl, fun _ => rfl⟩

end Effects

-- One packet's flood among the others, at one container.
structure NodeCarries (w : Wiring ν ζ) (packet : EmergencyPacket) (flood : Flood.State ν) (n : ν) (history : List Handled) : Prop where
  known : n ∈ flood.accepted ↔ packet.hmacSig ∈ signaturesOf history
  forwarded : n ∈ flood.passed →
    n ∈ flood.accepted ∧ ∃ hops, 1 ≤ hops ∧ hops ≤ 19 ∧ forwards (turnsFor packet.hmacSig history) = [aged packet hops]
  finished : n ∈ flood.accepted → w.relay n = false → finishes (turnsFor packet.hmacSig history) = [EmergencyPacket.size]

structure Carries (w : Wiring ν ζ) (packet : EmergencyPacket) (traffic : Traffic ν) (flood : Flood.State ν) : Prop where
  flights : traffic.inFlight.filter (fun copy => copy.2.hmacSig = packet.hmacSig) = flood.inFlight.map (Prod.map id (aged packet))
  sent : flood.sent = true ↔ packet ∈ traffic.sent
  nodes : ∀ n, NodeCarries w packet flood n (traffic.history n)

section Nodes

variable (w : Wiring ν ζ) (packet : EmergencyPacket) (n : ν)

theorem carries_start : Carries w packet (.start : Traffic ν) .start := by
  refine ⟨rfl, by simp [Traffic.start, Flood.State.start], fun n => ⟨?_, fun member => ?_, fun member => ?_⟩⟩
  · simp [Traffic.start, Flood.State.start, signaturesOf]
  · exact absurd member (Finset.notMem_empty n)
  · exact absurd member (Finset.notMem_empty n)

theorem node_same (before after : Flood.State ν) (history : List Handled) (accepted : n ∈ after.accepted ↔ n ∈ before.accepted)
    (passed : n ∈ after.passed ↔ n ∈ before.passed) (carries : NodeCarries w packet before n history) :
    NodeCarries w packet after n history := by
  constructor
  · rw [accepted]
    exact carries.known
  · rw [passed, accepted]
    exact carries.forwarded
  · rw [accepted]
    exact carries.finished

theorem node_other (flood : Flood.State ν) (history : List Handled) (received : EmergencyPacket) (turn : Turn)
    (other : received.hmacSig ≠ packet.hmacSig) (carries : NodeCarries w packet flood n history) :
    NodeCarries w packet flood n (history ++ [(received, turn)]) := by
  constructor
  · rw [signatures_snoc, carries.known, List.mem_append, List.mem_singleton]
    exact ⟨Or.inl, fun member => member.resolve_right fun same => other same.symm⟩
  · rw [turns_for_other _ _ _ _ other]
    exact carries.forwarded
  · rw [turns_for_other _ _ _ _ other]
    exact carries.finished

theorem node_known (flood : Flood.State ν) (history : List Handled) (hops : Nat) (turn : Turn) (accepted : n ∈ flood.accepted)
    (nothing : forwardedPacket turn = none ∧ finishedBytes turn = none) (carries : NodeCarries w packet flood n history) :
    NodeCarries w packet flood n (history ++ [(aged packet hops, turn)]) := by
  have grown : turnsFor packet.hmacSig (history ++ [(aged packet hops, turn)]) = turnsFor packet.hmacSig history ++ [turn] :=
    turns_for_same _ _ _ _ rfl
  constructor
  · rw [signatures_snoc]
    exact iff_of_true accepted (List.mem_append_right _ (List.mem_singleton.mpr rfl))
  · rw [grown, forwards_snoc, nothing.1, Option.toList_none, List.append_nil]
    exact carries.forwarded
  · rw [grown, finishes_snoc, nothing.2, Option.toList_none, List.append_nil]
    exact carries.finished

theorem node_fresh (flood : Flood.State ν) (grown : Finset ν) (history : List Handled) (hops : Nat) (turn : Turn)
    (absent : n ∉ flood.accepted) (finished : w.relay n = false → finishedBytes turn = some EmergencyPacket.size)
    (passed : n ∈ grown → ∃ next, 1 ≤ next ∧ next ≤ 19 ∧ forwardedPacket turn = some (aged packet next))
    (carries : NodeCarries w packet flood n history) (inFlight : Multiset (ν × Nat)) [DecidableEq ν] :
    NodeCarries w packet ⟨flood.sent, insert n flood.accepted, grown, inFlight⟩ n (history ++ [(aged packet hops, turn)]) := by
  have silent : turnsFor packet.hmacSig history = [] :=
    turns_for_none _ _ fun member => absent (carries.known.mpr member)
  have first : turnsFor packet.hmacSig (history ++ [(aged packet hops, turn)]) = [turn] := by
    rw [turns_for_same packet.hmacSig history (aged packet hops) turn rfl, silent, List.nil_append]
  constructor
  · rw [signatures_snoc]
    exact iff_of_true (Finset.mem_insert_self n _) (List.mem_append_right _ (List.mem_singleton.mpr rfl))
  · intro member
    obtain ⟨next, positive, bound, sent⟩ := passed member
    refine ⟨Finset.mem_insert_self n _, next, positive, bound, ?_⟩
    rw [first, forwards, List.filterMap_cons_some sent, List.filterMap_nil]
  · intro _ ends
    rw [first, finishes, List.filterMap_cons_some (finished ends), List.filterMap_nil]

end Nodes

-- The flood of a packet starts on its victim's network.
def sourced (w : Wiring ν ζ) (z : ζ) : Wiring ν ζ := { w with source := z }

section Sends

variable [Fintype ν] [DecidableEq ζ] (w : Wiring ν ζ) (packet : EmergencyPacket)

theorem carries_sos (z : ζ) (full : (ttlOf packet.flags).toNat = 20) (traffic : Traffic ν) (flood : Flood.State ν)
    (carries : Carries w packet traffic flood) : Carries w packet (traffic.sos w z packet) (flood.emit (sourced w z)) := by
  refine ⟨?_, ?_, fun n => node_same w packet n flood _ _ Iff.rfl Iff.rfl (carries.nodes n)⟩
  · have own : (w.broadcast z packet).filter (fun copy => copy.2.hmacSig = packet.hmacSig) = w.broadcast z packet := by
      refine Multiset.filter_eq_self.mpr fun copy member => ?_
      rw [((mem_broadcast w z packet copy.2 copy.1).mp member).2]
    calc (traffic.inFlight + w.broadcast z packet).filter (fun copy => copy.2.hmacSig = packet.hmacSig)
        = flood.inFlight.map (Prod.map id (aged packet)) + w.broadcast z packet := by
          rw [Multiset.filter_add, carries.flights, own]
      _ = (flood.emit (sourced w z)).inFlight.map (Prod.map id (aged packet)) := by
          rw [Flood.State.emit, Multiset.map_add, map_broadcast, aged_start packet full]
          rfl
  · exact iff_of_true rfl (List.mem_append_right _ (List.mem_singleton.mpr rfl))

theorem carries_other_sos (z : ζ) (other : EmergencyPacket) (different : other.hmacSig ≠ packet.hmacSig) (traffic : Traffic ν)
    (flood : Flood.State ν) (carries : Carries w packet traffic flood) : Carries w packet (traffic.sos w z other) flood := by
  refine ⟨?_, ?_, carries.nodes⟩
  · have none : (w.broadcast z other).filter (fun copy => copy.2.hmacSig = packet.hmacSig) = 0 := by
      refine Multiset.filter_eq_nil.mpr fun copy member => ?_
      rw [((mem_broadcast w z other copy.2 copy.1).mp member).2]
      exact different
    rw [Traffic.sos, Multiset.filter_add, carries.flights, none, add_zero]
  · rw [carries.sent, Traffic.sos, List.mem_append, List.mem_singleton]
    exact ⟨Or.inl, fun member => member.resolve_right fun same => different (congrArg EmergencyPacket.hmacSig same.symm)⟩

end Sends

section Simulation

variable [Fintype ν] [DecidableEq ν] [DecidableEq ζ] (w : Wiring ν ζ) (packet : EmergencyPacket)

-- Each victim repeats its packet on its own network.
inductive TrafficStep (home : EmergencyPacket → ζ) (packets : Finset EmergencyPacket) : Traffic ν → Traffic ν → Prop where
  | sos (traffic : Traffic ν) (packet : EmergencyPacket) (member : packet ∈ packets) :
      TrafficStep home packets traffic (traffic.sos w (home packet) packet)
  | delivery (traffic : Traffic ν) (copy : ν × EmergencyPacket) (flying : copy ∈ traffic.inFlight) :
      TrafficStep home packets traffic (traffic.deliver w copy)

theorem flights_own (sig : HmacSig) (traffic : Traffic ν) (copy : ν × EmergencyPacket) (same : copy.2.hmacSig = sig) :
    (traffic.deliver w copy).inFlight.filter (fun other => other.2.hmacSig = sig) =
      (traffic.inFlight.filter fun other => other.2.hmacSig = sig).erase copy +
        rebroadcasts w copy.1 (forwardedPacket (turnOf w copy.1 (traffic.node copy.1) copy.2.toBytes).2) := by
  have added := rebroadcast_signature w copy.1 _ _ copy.2 _ (turn_effect w copy.1 (traffic.node copy.1) copy.2)
  have taken : ({copy} : Multiset (ν × EmergencyPacket)).filter (fun other => other.2.hmacSig = sig) = {copy} :=
    Multiset.filter_eq_self.mpr fun other member => by rw [Multiset.mem_singleton.mp member, same]
  have sent := Multiset.filter_eq_self.mpr fun other member => (added other member).trans same
  rw [Traffic.deliver, Multiset.filter_add, ← Multiset.sub_singleton, Multiset.filter_sub, taken, sent, Multiset.sub_singleton]

theorem flights_other (sig : HmacSig) (traffic : Traffic ν) (copy : ν × EmergencyPacket) (different : copy.2.hmacSig ≠ sig) :
    (traffic.deliver w copy).inFlight.filter (fun other => other.2.hmacSig = sig) =
      traffic.inFlight.filter fun other => other.2.hmacSig = sig := by
  have added := rebroadcast_signature w copy.1 _ _ copy.2 _ (turn_effect w copy.1 (traffic.node copy.1) copy.2)
  have taken : ({copy} : Multiset (ν × EmergencyPacket)).filter (fun other => other.2.hmacSig = sig) = 0 := by
    refine Multiset.filter_eq_nil.mpr fun other member => ?_
    rw [Multiset.mem_singleton.mp member]
    exact different
  have sent := Multiset.filter_eq_nil.mpr fun other member => fun matched => different ((added other member).symm.trans matched)
  rw [Traffic.deliver, Multiset.filter_add, ← Multiset.sub_singleton, Multiset.filter_sub, taken, sent, Multiset.sub_zero, add_zero]

theorem carries_other_deliver (copy : ν × EmergencyPacket) (different : copy.2.hmacSig ≠ packet.hmacSig) (traffic : Traffic ν)
    (flood : Flood.State ν) (carries : Carries w packet traffic flood) : Carries w packet (traffic.deliver w copy) flood := by
  refine ⟨?_, carries.sent, fun n => ?_⟩
  · rw [flights_other w packet.hmacSig traffic copy different]
    exact carries.flights
  · by_cases here : n = copy.1
    · subst here
      simp only [Traffic.deliver, Function.update_self]
      exact node_other w packet copy.1 flood _ copy.2 _ different (carries.nodes copy.1)
    · simp only [Traffic.deliver, Function.update_of_ne here]
      exact carries.nodes n

theorem carries_elsewhere (traffic : Traffic ν) (before after : Flood.State ν) (n : ν) (received : EmergencyPacket)
    (carries : Carries w packet traffic before) (sent : after.sent = before.sent)
    (flights : (traffic.deliver w (n, received)).inFlight.filter (fun copy => copy.2.hmacSig = packet.hmacSig) =
      after.inFlight.map (Prod.map id (aged packet)))
    (here : NodeCarries w packet after n
      (traffic.history n ++ [(received, (turnOf w n (traffic.node n) received.toBytes).2)]))
    (accepted : ∀ other, other ≠ n → (other ∈ after.accepted ↔ other ∈ before.accepted))
    (elsewhere : ∀ other, other ≠ n → (other ∈ after.passed ↔ other ∈ before.passed)) :
    Carries w packet (traffic.deliver w (n, received)) after := by
  refine ⟨flights, ?_, fun other => ?_⟩
  · rw [sent]
    exact carries.sent
  · by_cases same : other = n
    · subst same
      simp only [Traffic.deliver, Function.update_self]
      exact here
    · simp only [Traffic.deliver, Function.update_of_ne same]
      exact node_same w packet other before after _ (accepted other same) (elsewhere other same) (carries.nodes other)

theorem carries_deliver (z : ζ) (traffic : Traffic ν) (flood : Flood.State ν) (n : ν) (hops : Nat)
    (flying : (n, hops) ∈ flood.inFlight)
    (knows : containsBuff (traffic.node n).cache packet.hmacSig ≠ none ↔ packet.hmacSig ∈ signaturesOf (traffic.history n))
    (carries : Carries w packet traffic flood) :
    Carries w packet (traffic.deliver w (n, aged packet hops)) (flood.deliver (sourced w z) 20 (n, hops)) := by
  have turn := turn_effect w n (traffic.node n) (aged packet hops)
  have flights := flights_own w packet.hmacSig traffic (n, aged packet hops) rfl
  have taken : (flood.inFlight.map (Prod.map id (aged packet))).erase (n, aged packet hops) =
      (flood.inFlight.erase (n, hops)).map (Prod.map id (aged packet)) :=
    (Multiset.map_erase_of_mem (Prod.map id (aged packet)) flood.inFlight flying).symm
  rw [carries.flights, taken] at flights
  have node := carries.nodes n
  have effect := deliver_effect (sourced w z) 20 flood n hops
  generalize flood.deliver (sourced w z) 20 (n, hops) = after at effect
  cases effect with
  | known accepted =>
      have nothing := repeat_turn w n (aged packet hops) _ _ _ turn (knows.mpr (node.known.mp accepted))
      apply carries_elsewhere w packet traffic flood _ n (aged packet hops) carries
      · rfl
      · rw [flights, nothing.1, rebroadcasts, add_zero]
      · exact node_same w packet n flood _ _ Iff.rfl Iff.rfl (node_known w packet n flood _ hops _ accepted nothing node)
      · exact fun other _ => Iff.rfl
      · exact fun other _ => Iff.rfl
  | passed fresh passes more =>
      have absent := not_not.mp fun present => fresh (node.known.mpr (knows.mp present))
      obtain ⟨sends, _, finished⟩ := first_turn w n packet _ _ _ hops turn absent
      have sent := sends ⟨passes, more⟩
      apply carries_elsewhere w packet traffic flood _ n (aged packet hops) carries
      · rfl
      · rw [flights, sent, rebroadcasts, Multiset.map_add, map_send]
        rfl
      · exact node_fresh w packet n flood _ _ hops _ fresh finished
          (fun _ => ⟨hops + 1, Nat.succ_pos hops, Nat.le_of_lt_succ more, sent⟩) node _
      · exact fun other different => by simp [different]
      · exact fun other different => by simp [different]
  | kept fresh last =>
      have absent := not_not.mp fun present => fresh (node.known.mpr (knows.mp present))
      obtain ⟨_, stays, finished⟩ := first_turn w n packet _ _ _ hops turn absent
      have nothing := stays fun more => absurd (last more.1) (not_le.mpr more.2)
      apply carries_elsewhere w packet traffic flood _ n (aged packet hops) carries
      · rfl
      · rw [flights, nothing, rebroadcasts, add_zero]
      · exact node_fresh w packet n flood _ _ hops _ fresh finished (fun passed => absurd (node.forwarded passed).1 fresh) node _
      · exact fun other different => by simp [different]
      · exact fun other _ => Iff.rfl

end Simulation

-- With at most 256 signatures a cache never forgets what it has received.
theorem tracked_knows (w : Wiring ν ζ) (signatures : Finset HmacSig) (real : 0 ∉ signatures) (few : signatures.card ≤ hashes) (traffic : Traffic ν)
    (tracked : Tracked w signatures traffic) (n : ν) (sig : HmacSig) (positive : sig ≠ 0) :
    containsBuff (traffic.node n).cache sig ≠ none ↔ sig ∈ signaturesOf (traffic.history n) := by
  obtain ⟨new, bound⟩ := history_few (traffic.history n) signatures real few (tracked.handled n)
  rw [(tracked.nodes n).cache]
  exact few_contained_iff _ new bound sig positive

section Runs

variable [Fintype ν] [DecidableEq ν] [DecidableEq ζ] (w : Wiring ν ζ) (home : EmergencyPacket → ζ) (packets : Finset EmergencyPacket)

theorem traffic_unreliable (signatures : Finset HmacSig) (known : ∀ packet ∈ packets, packet.hmacSig ∈ signatures) (traffic : Traffic ν)
    (run : Relation.ReflTransGen (TrafficStep w home packets) .start traffic) :
    Relation.ReflTransGen (UnreliableStep w signatures) .start traffic := by
  refine Relation.ReflTransGen.mono (fun before after step => ?_) _ _ run
  cases step with
  | sos packet member => exact .sos before (home packet) packet (known packet member)
  | delivery copy flying => exact .delivery before copy flying

theorem carries_step (packet : EmergencyPacket) (full : (ttlOf packet.flags).toNat = 20) (before after : Traffic ν)
    (flood : Flood.State ν) (step : TrafficStep w home packets before after)
    (apart : ∀ other ∈ packets, other.hmacSig = packet.hmacSig → other = packet)
    (knows : ∀ n, containsBuff (before.node n).cache packet.hmacSig ≠ none ↔ packet.hmacSig ∈ signaturesOf (before.history n))
    (carries : Carries w packet before flood) :
    ∃ next, Relation.ReflTransGen (Flood.Step (sourced w (home packet)) 20) flood next ∧ Carries w packet after next := by
  cases step with
  | sos other member =>
      by_cases same : other.hmacSig = packet.hmacSig
      · have own := apart other member same
        subst own
        exact ⟨_, .single (.emit flood), carries_sos w other (home other) full before flood carries⟩
      · exact ⟨flood, .refl, carries_other_sos w packet (home other) other same before flood carries⟩
  | delivery copy flying =>
      by_cases same : copy.2.hmacSig = packet.hmacSig
      · have own : copy ∈ before.inFlight.filter fun other => other.2.hmacSig = packet.hmacSig := Multiset.mem_filter.mpr ⟨flying, same⟩
        rw [carries.flights] at own
        obtain ⟨⟨n, hops⟩, member, rfl⟩ := Multiset.mem_map.mp own
        exact ⟨_, .single (.deliver flood (n, hops) member),
          carries_deliver w packet (home packet) before flood n hops member (knows n) carries⟩
      · exact ⟨flood, .refl, carries_other_deliver w packet copy same before flood carries⟩

variable (real : ∀ packet ∈ packets, packet.hmacSig ≠ 0) (full : ∀ packet ∈ packets, (ttlOf packet.flags).toNat = 20)
  (apart : ∀ one ∈ packets, ∀ other ∈ packets, one.hmacSig = other.hmacSig → one = other) (few : packets.card ≤ 256)

include real full apart few

-- The floods of the packets do not disturb each other.
theorem carries_run (traffic : Traffic ν) (run : Relation.ReflTransGen (TrafficStep w home packets) .start traffic)
    (packet : EmergencyPacket) (member : packet ∈ packets) :
    ∃ flood, Relation.ReflTransGen (Flood.Step (sourced w (home packet)) 20) .start flood ∧ Carries w packet traffic flood := by
  have known : ∀ other ∈ packets, other.hmacSig ∈ packets.image EmergencyPacket.hmacSig := fun other inside =>
    Finset.mem_image_of_mem EmergencyPacket.hmacSig inside
  have positive : 0 ∉ packets.image EmergencyPacket.hmacSig := by
    intro zero
    obtain ⟨other, inside, same⟩ := Finset.mem_image.mp zero
    exact real other inside same
  induction run with
  | refl => exact ⟨.start, .refl, carries_start w packet⟩
  | tail earlier step ih =>
      obtain ⟨flood, reached, carries⟩ := ih
      have tracked := tracked_run w _ _ (traffic_unreliable w home packets _ known _ earlier)
      have knows := fun n => tracked_knows w _ positive (Finset.card_image_le.trans few) _ tracked n packet.hmacSig (real packet member)
      obtain ⟨next, taken, after⟩ := carries_step w home packets packet (full packet member) _ _ flood step
        (fun other inside same => apart other inside packet member same) knows carries
      exact ⟨next, reached.trans taken, after⟩

theorem quiet_traffic (traffic : Traffic ν) (run : Relation.ReflTransGen (TrafficStep w home packets) .start traffic)
    (quiet : traffic.inFlight = 0) (packet : EmergencyPacket) (member : packet ∈ packets) (sent : packet ∈ traffic.sent) :
    ∃ flood, Carries w packet traffic flood ∧ Spread (sourced w (home packet)) 20 flood ∧ flood.sent = true ∧ flood.inFlight = 0 := by
  obtain ⟨flood, reached, carries⟩ := carries_run w home packets real full apart few traffic run packet member
  have flights := carries.flights
  rw [quiet, Multiset.filter_zero] at flights
  exact ⟨flood, carries, spread_run (sourced w (home packet)) 20 (by decide) flood reached, carries.sent.mpr sent,
    Multiset.map_eq_zero.mp flights.symm⟩

variable (relays : (Finset.univ.filter fun n => w.relay n = true).card ≤ 19) (traffic : Traffic ν)
  (run : Relation.ReflTransGen (TrafficStep w home packets) .start traffic) (quiet : traffic.inFlight = 0)
  (packet : EmergencyPacket) (member : packet ∈ packets) (sent : packet ∈ traffic.sent) (n : ν)

include run quiet member sent

theorem apart_idle (disconnected : ¬ ∃ z, Reached (sourced w (home packet)) z ∧ z ∈ w.networks n) :
    turnsFor packet.hmacSig (traffic.history n) = [] := by
  obtain ⟨flood, carries, spread, _⟩ := quiet_traffic w home packets real full apart few traffic run quiet packet member sent
  exact turns_for_none _ _ fun handled => disconnected (spread.reached n ((carries.nodes n).known.mpr handled))

include relays

theorem connected_works (z : ζ) (reached : Reached (sourced w (home packet)) z) (attached : z ∈ w.networks n) :
    (w.relay n = true → ∃ hops, 1 ≤ hops ∧ hops ≤ 19 ∧
      forwards (turnsFor packet.hmacSig (traffic.history n)) = [aged packet hops]) ∧
    (w.relay n = false → finishes (turnsFor packet.hmacSig (traffic.history n)) = [EmergencyPacket.size]) := by
  obtain ⟨flood, carries, spread, emitted, silent⟩ :=
    quiet_traffic w home packets real full apart few traffic run quiet packet member sent
  obtain ⟨path, chain⟩ := reached
  have unlimited : ∀ r, ¬ LastOf (sourced w (home packet)) 20 r := few_relays (sourced w (home packet)) 20 (Nat.lt_succ_of_le relays)
  have accepted := quiet_chain (sourced w (home packet)) 20 flood spread emitted silent path z chain (fun r _ => unlimited r) n attached
  refine ⟨fun passes => ((carries.nodes n).forwarded ?_).2, (carries.nodes n).finished accepted⟩
  by_contra stopped
  exact unlimited n (spread.stopped n accepted passes stopped)

-- Up to 256 emergencies under way at once, in any order of deliveries: in
-- every quiet state the containers connected to a packet's victim have done
-- their work for it once, and the others have never handled it.
theorem traffic_delivered :
    ((∃ z, Reached (sourced w (home packet)) z ∧ z ∈ w.networks n) →
      (w.relay n = true → ∃ hops, 1 ≤ hops ∧ hops ≤ 19 ∧
        forwards (turnsFor packet.hmacSig (traffic.history n)) = [aged packet hops]) ∧
      (w.relay n = false → finishes (turnsFor packet.hmacSig (traffic.history n)) = [EmergencyPacket.size])) ∧
    ((¬ ∃ z, Reached (sourced w (home packet)) z ∧ z ∈ w.networks n) → turnsFor packet.hmacSig (traffic.history n) = []) := by
  constructor
  · intro connected
    obtain ⟨z, reached, attached⟩ := connected
    exact connected_works w home packets real full apart few relays traffic run quiet packet member sent n z reached attached
  · exact apart_idle w home packets real full apart few traffic run quiet packet member sent n

end Runs

-- A second victim on the network of the exit.
def exitPacket : EmergencyPacket := ⟨5, 6, 20, 7, 8⟩

def corridorHome (packet : EmergencyPacket) : Nat := if packet = exitPacket then 1 else 0

def crossings (relay exit : Fin 3) : List (Fin 3 × EmergencyPacket) :=
  [(relay, exitPacket), (relay, sosPacket), (exit, exitPacket), (exit, aged exitPacket 1), (exit, aged sosPacket 1),
    (relay, aged exitPacket 1), (relay, aged sosPacket 1), (relay, aged sosPacket 1), (relay, aged exitPacket 1)]

def corridorSent : Traffic (Fin 3) := (Traffic.start.sos corridor 0 sosPacket).sos corridor 1 exitPacket

def crossed (relay exit : Fin 3) (count : Nat) : Traffic (Fin 3) :=
  ((crossings relay exit).take count).foldl (Traffic.deliver corridor) corridorSent

theorem crossed_run (count : Nat) (short : count ≤ 9) :
    Relation.ReflTransGen (TrafficStep corridor corridorHome {sosPacket, exitPacket}) .start (crossed 0 1 count) := by
  induction count with
  | zero =>
      have sent : Relation.ReflTransGen (TrafficStep corridor corridorHome {sosPacket, exitPacket}) .start
          (Traffic.start.sos corridor 0 sosPacket) := .single (.sos .start sosPacket (by decide))
      exact sent.tail (.sos _ exitPacket (by decide))
  | succ count ih =>
      have inside : count < (crossings 0 1).length := short
      have next : crossed 0 1 (count + 1) = (crossed 0 1 count).deliver corridor (crossings 0 1)[count] := by
        rw [crossed, List.take_add_one, List.getElem?_eq_getElem inside, Option.toList_some, List.foldl_append]
        rfl
      have flying : ∀ k : Fin 9, (crossings 0 1)[k] ∈ (crossed 0 1 k).inFlight := by decide +kernel
      rw [next]
      exact (ih (Nat.le_of_succ_le short)).tail (.delivery _ _ (flying ⟨count, short⟩))

end BeaconMesh.Simulator
