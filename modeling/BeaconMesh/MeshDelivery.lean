import BeaconMesh.Mesh

set_option autoImplicit false

namespace BeaconMesh.Simulator

open Flood

variable {ν ζ : Type}

def forwards (turns : List Turn) : List EmergencyPacket := turns.filterMap forwardedPacket

def finishedBytes : Turn → Option Nat
  | .finished recvBytes => some recvBytes
  | _ => none

def finishes (turns : List Turn) : List Nat := turns.filterMap finishedBytes

theorem forwards_snoc (turns : List Turn) (output : Turn) :
    forwards (turns ++ [output]) = forwards turns ++ (forwardedPacket output).toList := by
  rw [forwards, List.filterMap_append, forwards]
  cases sent : forwardedPacket output <;> simp [sent]

theorem finishes_snoc (turns : List Turn) (output : Turn) :
    finishes (turns ++ [output]) = finishes turns ++ (finishedBytes output).toList := by
  rw [finishes, List.filterMap_append, finishes]
  cases printed : finishedBytes output <;> simp [printed]

section Nodes

structure NodeFollows (w : Wiring ν ζ) (packet : EmergencyPacket) (flood : Flood.State ν) (n : ν) (node : NodeState)
    (turns : List Turn) : Prop where
  fresh : n ∉ flood.accepted → node.cache = .zero ∧ turns = []
  known : n ∈ flood.accepted → containsBuff node.cache packet.hmacSig ≠ none
  forwarded : n ∈ flood.passed → ∃ hops, 1 ≤ hops ∧ hops ≤ 19 ∧ forwards turns = [aged packet hops]
  finished : n ∈ flood.accepted → w.relay n = false → finishes turns = [EmergencyPacket.size]

variable (w : Wiring ν ζ) (packet : EmergencyPacket)

theorem zero_absent (val : HmacSig) (real : val ≠ 0) : containsBuff CircularBuffer.zero val = none := by
  by_contra present
  have member := (contains_inserted CircularBuffer.zero [] val real inserted_zero).mp present
  simp at member

theorem zero_added (val : HmacSig) (real : val ≠ 0) : containsBuff (addToBuff CircularBuffer.zero val).2 val ≠ none := by
  have inserted := inserted_add CircularBuffer.zero [] val inserted_zero (zero_absent val real)
  rw [contains_inserted _ _ val real inserted]
  simp [hashes]

theorem hop_aged (hops : Nat) (left : 2 ≤ (ttlOf (aged packet hops).flags).toNat) :
    hopPacket (aged packet hops) = aged packet (hops + 1) := aged_next packet hops left

theorem follows_same (before after : Flood.State ν) (n : ν) (node : NodeState) (turns : List Turn)
    (accepted : n ∈ after.accepted ↔ n ∈ before.accepted) (passed : n ∈ after.passed ↔ n ∈ before.passed)
    (follows : NodeFollows w packet before n node turns) : NodeFollows w packet after n node turns := by
  constructor
  · rw [accepted]
    exact follows.fresh
  · rw [accepted]
    exact follows.known
  · rw [passed]
    exact follows.forwarded
  · rw [accepted]
    exact follows.finished

theorem follows_known (flood : Flood.State ν) (n : ν) (before after : NodeState) (turns : List Turn) (output : Turn) (hops : Nat)
    (effect : TurnEffect w n before (aged packet hops) after output) (accepted : n ∈ flood.accepted)
    (follows : NodeFollows w packet flood n before turns) :
    NodeFollows w packet flood n after (turns ++ [output]) ∧ forwardedPacket output = none := by
  have known := follows.known accepted
  cases effect with
  | duplicate location present =>
      refine ⟨⟨fun fresh => absurd accepted fresh, fun _ => known, fun passed => ?_, fun _ ends => ?_⟩, rfl⟩
      · obtain ⟨crossed, positive, bound, sent⟩ := follows.forwarded passed
        refine ⟨crossed, positive, bound, ?_⟩
        rw [forwards_snoc, sent]
        rfl
      · rw [finishes_snoc, follows.finished accepted ends]
        rfl
  | dropped _ passes absent => exact absurd absent known
  | forwarded passes absent => exact absurd absent known
  | finished kept ends absent => exact absurd absent known

-- The first copy is kept, and passed on exactly when two hops were left.
theorem follows_fresh (real : packet.hmacSig ≠ 0) (flood : Flood.State ν) (n : ν) (before after : NodeState) (turns : List Turn)
    (output : Turn) (hops : Nat) (effect : TurnEffect w n before (aged packet hops) after output) (new : n ∉ flood.accepted)
    (follows : NodeFollows w packet flood n before turns) :
    containsBuff after.cache packet.hmacSig ≠ none ∧
      (w.relay n = true ∧ hops + 1 < 20 →
        forwardedPacket output = some (aged packet (hops + 1)) ∧ forwards (turns ++ [output]) = [aged packet (hops + 1)]) ∧
      (¬ (w.relay n = true ∧ hops + 1 < 20) → forwardedPacket output = none) ∧
      (w.relay n = false → finishes (turns ++ [output]) = [EmergencyPacket.size]) := by
  obtain ⟨zero, silent⟩ := follows.fresh new
  have left : (ttlOf (aged packet hops).flags).toNat = 20 - hops := aged_ttl packet hops
  have absent : containsBuff before.cache packet.hmacSig = none := by
    rw [zero]
    exact zero_absent packet.hmacSig real
  have added : containsBuff (addToBuff before.cache packet.hmacSig).2 packet.hmacSig ≠ none := by
    rw [zero]
    exact zero_added packet.hmacSig real
  subst silent
  cases effect with
  | duplicate location present => exact absurd (present.symm.trans absent) (Option.some_ne_none location)
  | dropped _ passes _ spent quiet =>
      have stays : forwardedPacket output = none := by
        cases quiet with
        | inl expired =>
            rw [expired]
            rfl
        | inr zeroTtl =>
            rw [zeroTtl]
            rfl
      refine ⟨added, fun more => ?_, fun _ => stays, fun ends => ?_⟩
      · exact absurd more.2 (by omega)
      · exact absurd passes (ne_true_of_eq_false ends)
  | forwarded passes _ two =>
      rw [hop_aged packet hops two]
      refine ⟨added, fun _ => ⟨rfl, rfl⟩, fun stop => ?_, fun ends => ?_⟩
      · exact absurd ⟨passes, by omega⟩ stop
      · exact absurd passes (ne_true_of_eq_false ends)
  | finished kept ends _ =>
      refine ⟨added, fun more => ?_, fun _ => rfl, fun _ => rfl⟩
      exact absurd more.1 (ne_true_of_eq_false ends)

end Nodes

section Simulation

-- The containers follow the flood: the same copies are in flight, each with
-- the TTL of its hops.
structure Follows (w : Wiring ν ζ) (packet : EmergencyPacket) (mesh : MeshState ν) (flood : Flood.State ν) : Prop where
  flights : mesh.inFlight = flood.inFlight.map (Prod.map id (aged packet))
  sent : flood.sent = true ↔ 0 < mesh.broadcasts
  nodes : ∀ n, NodeFollows w packet flood n (mesh.node n) (mesh.turns n)
  passed : ∀ n ∈ flood.passed, n ∈ flood.accepted

theorem follows_start (w : Wiring ν ζ) (packet : EmergencyPacket) : Follows w packet MeshState.start Flood.State.start := by
  refine ⟨rfl, by simp [MeshState.start, Flood.State.start], fun n => ?_, by simp [Flood.State.start]⟩
  exact ⟨fun _ => ⟨rfl, rfl⟩, fun member => absurd member (Finset.notMem_empty n),
    fun member => absurd member (Finset.notMem_empty n), fun member => absurd member (Finset.notMem_empty n)⟩

theorem follows_sos [Fintype ν] [DecidableEq ζ] (w : Wiring ν ζ) (packet : EmergencyPacket)
    (full : (ttlOf packet.flags).toNat = 20) (mesh : MeshState ν) (flood : Flood.State ν) (follows : Follows w packet mesh flood) :
    Follows w packet (mesh.broadcast w packet) (flood.emit w) := by
  refine ⟨?_, ?_, fun n => follows_same w packet flood _ n _ _ Iff.rfl Iff.rfl (follows.nodes n), follows.passed⟩
  · simp only [MeshState.broadcast, Flood.State.emit]
    rw [Multiset.map_add, map_broadcast, aged_start packet full, follows.flights]
  · exact iff_of_true rfl (Nat.succ_pos mesh.broadcasts)

variable [Fintype ν] [DecidableEq ν] [DecidableEq ζ] (w : Wiring ν ζ) (packet : EmergencyPacket)

theorem follows_elsewhere (mesh : MeshState ν) (before after : Flood.State ν) (n : ν) (received : EmergencyPacket)
    (follows : Follows w packet mesh before) (sent : after.sent = before.sent)
    (flights : (mesh.deliver w (n, received)).inFlight = after.inFlight.map (Prod.map id (aged packet)))
    (here : NodeFollows w packet after n (turnOf w n (mesh.node n) received.toBytes).1
      (mesh.turns n ++ [(turnOf w n (mesh.node n) received.toBytes).2]))
    (accepted : ∀ other, other ≠ n → (other ∈ after.accepted ↔ other ∈ before.accepted))
    (elsewhere : ∀ other, other ≠ n → (other ∈ after.passed ↔ other ∈ before.passed))
    (passed : ∀ r ∈ after.passed, r ∈ after.accepted) : Follows w packet (mesh.deliver w (n, received)) after := by
  refine ⟨flights, ?_, fun other => ?_, passed⟩
  · rw [sent]
    exact follows.sent
  · by_cases same : other = n
    · subst same
      simp only [MeshState.deliver, Function.update_self]
      exact here
    · simp only [MeshState.deliver, Function.update_of_ne same]
      exact follows_same w packet before after other _ _ (accepted other same) (elsewhere other same) (follows.nodes other)

theorem follows_deliver (real : packet.hmacSig ≠ 0) (mesh : MeshState ν) (flood : Flood.State ν) (n : ν) (hops : Nat)
    (flying : (n, hops) ∈ flood.inFlight) (follows : Follows w packet mesh flood) :
    Follows w packet (mesh.deliver w (n, aged packet hops)) (flood.deliver w 20 (n, hops)) := by
  have turn := turn_effect w n (mesh.node n) (aged packet hops)
  have taken : mesh.inFlight.erase (n, aged packet hops) = (flood.inFlight.erase (n, hops)).map (Prod.map id (aged packet)) := by
    rw [follows.flights]
    exact (Multiset.map_erase_of_mem (Prod.map id (aged packet)) flood.inFlight flying).symm
  have effect := deliver_effect w 20 flood n hops
  generalize flood.deliver w 20 (n, hops) = after at effect
  cases effect with
  | known accepted =>
      obtain ⟨here, nothing⟩ := follows_known w packet flood n _ _ _ _ hops turn accepted (follows.nodes n)
      apply follows_elsewhere w packet mesh flood _ n (aged packet hops) follows
      · rfl
      · simp only [MeshState.deliver, nothing, taken, rebroadcasts, add_zero]
      · exact follows_same w packet flood _ n _ _ Iff.rfl Iff.rfl here
      · exact fun other _ => Iff.rfl
      · exact fun other _ => Iff.rfl
      · exact follows.passed
  | passed fresh passes more =>
      obtain ⟨known, sends, _, finished⟩ := follows_fresh w packet real flood n _ _ _ _ hops turn fresh (follows.nodes n)
      obtain ⟨sent, once⟩ := sends ⟨passes, more⟩
      apply follows_elsewhere w packet mesh flood _ n (aged packet hops) follows
      · rfl
      · simp only [MeshState.deliver, sent, taken, rebroadcasts, Multiset.map_add, map_send]
      · exact ⟨fun absent => absurd (Finset.mem_insert_self n _) absent, fun _ => known,
          fun _ => ⟨hops + 1, Nat.succ_pos hops, Nat.le_of_lt_succ more, once⟩, fun _ => finished⟩
      · exact fun other different => by simp [different]
      · exact fun other different => by simp [different]
      · exact fun r member => Finset.insert_subset_insert n follows.passed member
  | kept fresh last =>
      obtain ⟨known, _, stays, finished⟩ := follows_fresh w packet real flood n _ _ _ _ hops turn fresh (follows.nodes n)
      have nothing := stays fun more => absurd (last more.1) (not_le.mpr more.2)
      apply follows_elsewhere w packet mesh flood _ n (aged packet hops) follows
      · rfl
      · simp only [MeshState.deliver, nothing, taken, rebroadcasts, add_zero]
      · exact ⟨fun absent => absurd (Finset.mem_insert_self n _) absent, fun _ => known,
          fun passed => absurd (follows.passed n passed) fresh, fun _ => finished⟩
      · exact fun other different => by simp [different]
      · exact fun other _ => Iff.rfl
      · exact fun r member => Finset.mem_insert_of_mem (follows.passed r member)

theorem follows_step (real : packet.hmacSig ≠ 0) (full : (ttlOf packet.flags).toNat = 20) (before after : MeshState ν)
    (flood : Flood.State ν) (follows : Follows w packet before flood) (step : MeshStep w packet before after) :
    ∃ next, Flood.Step w 20 flood next ∧ Follows w packet after next := by
  cases step with
  | sos => exact ⟨flood.emit w, .emit flood, follows_sos w packet full before flood follows⟩
  | delivery delivered =>
      cases delivered with
      | deliver copy flying =>
          rw [follows.flights] at flying
          obtain ⟨⟨n, hops⟩, member, rfl⟩ := Multiset.mem_map.mp flying
          exact ⟨flood.deliver w 20 (n, hops), .deliver flood (n, hops) member,
            follows_deliver w packet real before flood n hops member follows⟩

theorem follows_back (real : packet.hmacSig ≠ 0) (full : (ttlOf packet.flags).toNat = 20) (mesh : MeshState ν)
    (before after : Flood.State ν) (follows : Follows w packet mesh before) (step : Flood.Step w 20 before after) :
    ∃ next, MeshStep w packet mesh next ∧ Follows w packet next after := by
  cases step with
  | emit => exact ⟨mesh.broadcast w packet, .sos mesh, follows_sos w packet full mesh before follows⟩
  | deliver copy flying =>
      have member : (copy.1, aged packet copy.2) ∈ mesh.inFlight := by
        rw [follows.flights]
        exact Multiset.mem_map.mpr ⟨copy, flying, rfl⟩
      exact ⟨mesh.deliver w (copy.1, aged packet copy.2), .delivery (.deliver mesh _ member),
        follows_deliver w packet real mesh before copy.1 copy.2 flying follows⟩

theorem mesh_refines_flood (real : packet.hmacSig ≠ 0) (full : (ttlOf packet.flags).toNat = 20) (mesh : MeshState ν)
    (run : Relation.ReflTransGen (MeshStep w packet) .start mesh) :
    ∃ flood, Relation.ReflTransGen (Flood.Step w 20) .start flood ∧ Follows w packet mesh flood := by
  induction run with
  | refl => exact ⟨.start, .refl, follows_start w packet⟩
  | tail _ step ih =>
      obtain ⟨flood, reached, follows⟩ := ih
      obtain ⟨next, taken, after⟩ := follows_step w packet real full _ _ flood follows step
      exact ⟨next, reached.tail taken, after⟩

theorem flood_has_mesh (real : packet.hmacSig ≠ 0) (full : (ttlOf packet.flags).toNat = 20) (flood : Flood.State ν)
    (run : Relation.ReflTransGen (Flood.Step w 20) .start flood) :
    ∃ mesh, Relation.ReflTransGen (MeshStep w packet) .start mesh ∧ Follows w packet mesh flood := by
  induction run with
  | refl => exact ⟨.start, .refl, follows_start w packet⟩
  | tail _ step ih =>
      obtain ⟨mesh, reached, follows⟩ := ih
      obtain ⟨next, taken, after⟩ := follows_back w packet real full mesh _ _ follows step
      exact ⟨next, reached.tail taken, after⟩

theorem quiet_flood (real : packet.hmacSig ≠ 0) (full : (ttlOf packet.flags).toNat = 20) (mesh : MeshState ν)
    (run : Relation.ReflTransGen (MeshStep w packet) .start mesh) (sent : 0 < mesh.broadcasts) (quiet : mesh.inFlight = 0) :
    ∃ flood, Follows w packet mesh flood ∧ Spread w 20 flood ∧ flood.sent = true ∧ flood.inFlight = 0 := by
  obtain ⟨flood, reached, follows⟩ := mesh_refines_flood w packet real full mesh run
  have spread := spread_run w 20 (by decide) flood reached
  exact ⟨flood, follows, spread, follows.sent.mpr sent, Multiset.map_eq_zero.mp (follows.flights.symm.trans quiet)⟩

-- In a mesh of at most 19 relays every container that a chain of relays
-- connects to the victim does its work once, and the others stay idle.
theorem delivered_exactly_once (real : packet.hmacSig ≠ 0) (full : (ttlOf packet.flags).toNat = 20)
    (few : (Finset.univ.filter fun n => w.relay n = true).card ≤ 19) (mesh : MeshState ν)
    (run : Relation.ReflTransGen (MeshStep w packet) .start mesh) (sent : 0 < mesh.broadcasts) (quiet : mesh.inFlight = 0)
    (n : ν) :
    ((∃ z, Reached w z ∧ z ∈ w.networks n) →
      (w.relay n = true → ∃ hops, 1 ≤ hops ∧ hops ≤ 19 ∧ forwards (mesh.turns n) = [aged packet hops]) ∧
      (w.relay n = false → finishes (mesh.turns n) = [EmergencyPacket.size])) ∧
    ((¬ ∃ z, Reached w z ∧ z ∈ w.networks n) → mesh.turns n = []) := by
  obtain ⟨flood, follows, spread, emitted, silent⟩ := quiet_flood w packet real full mesh run sent quiet
  have unlimited : ∀ r, ¬ LastOf w 20 r := few_relays w 20 (Nat.lt_succ_of_le few)
  constructor
  · rintro ⟨z, ⟨path, chain⟩, attached⟩
    have accepted := quiet_chain w 20 flood spread emitted silent path z chain (fun r _ => unlimited r) n attached
    refine ⟨fun passes => (follows.nodes n).forwarded ?_, (follows.nodes n).finished accepted⟩
    by_contra stopped
    exact unlimited n (spread.stopped n accepted passes stopped)
  · intro apart
    exact ((follows.nodes n).fresh fun accepted => apart (spread.reached n accepted)).2

end Simulation

-- A relay between the victim and an exit, and a stranded relay.
def corridor : Wiring (Fin 3) Nat where
  relay n := n ≠ 1
  networks n := if n = 0 then {0, 1} else if n = 1 then {1} else {2}
  source := 0

def sosPacket : EmergencyPacket := ⟨1, 2, 20, 3, 4⟩

def corridorRelayed : MeshState (Fin 3) := (MeshState.start.broadcast corridor sosPacket).deliver corridor (0, sosPacket)

-- The relay hears itself on both of its networks.
def corridorQuiet : MeshState (Fin 3) :=
  ((corridorRelayed.deliver corridor (0, aged sosPacket 1)).deliver corridor (1, aged sosPacket 1)).deliver corridor
    (0, aged sosPacket 1)

theorem corridor_run : Relation.ReflTransGen (MeshStep corridor sosPacket) .start corridorQuiet := by
  have sent : Relation.ReflTransGen (MeshStep corridor sosPacket) .start (MeshState.start.broadcast corridor sosPacket) :=
    .single (.sos .start)
  have relayed := sent.tail (.delivery (.deliver _ (0, sosPacket) (by decide +kernel)))
  have echoed := relayed.tail (.delivery (.deliver _ (0, aged sosPacket 1) (by decide +kernel)))
  have arrived := echoed.tail (.delivery (.deliver _ (1, aged sosPacket 1) (by decide +kernel)))
  exact arrived.tail (.delivery (.deliver _ (0, aged sosPacket 1) (by decide +kernel)))

theorem corridor_chain : Chain corridor [0] 1 := .hop [] 0 1 0 .source rfl (by decide) (by decide)

theorem corridor_apart (path : List (Fin 3)) (z : Nat) (chain : Chain corridor path z) : z ∉ corridor.networks 2 := by
  have disjoint : ∀ r : Fin 3, r ≠ 2 → ∀ z ∈ corridor.networks r, z ∉ corridor.networks 2 := by decide
  induction chain with
  | source => decide
  | hop path here there r chain passes hears speaks ih =>
      have other : r ≠ 2 := fun stranded => ih (stranded ▸ hears)
      exact disjoint r other there speaks

theorem corridor_delivered :
    (∃ hops, 1 ≤ hops ∧ hops ≤ 19 ∧ forwards (corridorQuiet.turns 0) = [aged sosPacket hops]) ∧
      finishes (corridorQuiet.turns 1) = [25] ∧ corridorQuiet.turns 2 = [] := by
  have delivered := delivered_exactly_once corridor sosPacket (by decide) (by decide) (by decide) corridorQuiet corridor_run
    (by decide) (by decide +kernel)
  refine ⟨?_, ?_, ?_⟩
  · exact ((delivered 0).1 ⟨0, ⟨[], .source⟩, by decide⟩).1 rfl
  · exact ((delivered 1).1 ⟨1, ⟨[0], corridor_chain⟩, by decide⟩).2 rfl
  · exact (delivered 2).2 fun ⟨z, ⟨path, chain⟩, attached⟩ => corridor_apart path z chain attached

section Reach

variable [Fintype ν] [DecidableEq ν] [DecidableEq ζ] (w : Wiring ν ζ) (packet : EmergencyPacket)

-- A chain that the TTL cannot run out on brings the packet to its exits in
-- every order.
theorem exit_reached (real : packet.hmacSig ≠ 0) (full : (ttlOf packet.flags).toNat = 20) (mesh : MeshState ν)
    (run : Relation.ReflTransGen (MeshStep w packet) .start mesh) (sent : 0 < mesh.broadcasts) (quiet : mesh.inFlight = 0)
    (path : List ν) (z : ζ) (chain : Chain w path z) (safe : ∀ r ∈ path, ¬ LastOf w 20 r) (n : ν) (ends : w.relay n = false)
    (attached : z ∈ w.networks n) : finishes (mesh.turns n) = [EmergencyPacket.size] := by
  obtain ⟨flood, follows, spread, emitted, silent⟩ := quiet_flood w packet real full mesh run sent quiet
  have accepted := quiet_chain w 20 flood spread emitted silent path z chain safe n attached
  exact (follows.nodes n).finished accepted ends

end Reach

theorem corridor_reached : finishes (corridorQuiet.turns 1) = [25] :=
  exit_reached corridor sosPacket (by decide) (by decide) corridorQuiet corridor_run (by decide) (by decide +kernel) [0] 1
    corridor_chain (fun r _ => few_relays corridor 20 (by decide) r) 1 rfl (by decide)

section Braid

-- Eighteen relays in a row from network 0 to network 18; relay 18 joins both
-- ends to network 19, relay 19 leads on to network 20 and its exit.
def braid : Wiring (Fin 21) Nat where
  relay n := n.val < 20
  networks n := if n.val = 18 then {0, 18, 19} else if n.val = 20 then {20} else {n.val, n.val + 1}
  source := 0

-- The packet takes the long way round before the short one.
def longWay : List (Fin 21 × Nat) := (List.finRange 20).map fun k => (k.castSucc, k.val)

theorem long_way_shadows :
    ∃ last, (Flood.State.start.emit braid).follow braid 20 longWay = some last ∧ last.sent = true ∧
      (∀ copy ∈ last.inFlight, copy.1 ∈ last.accepted) ∧ 20 ∉ last.accepted := by
  have check : ((Flood.State.start.emit braid).follow braid 20 longWay).any (fun last =>
      last.sent && decide (∀ copy ∈ last.inFlight, copy.1 ∈ last.accepted) && decide (20 ∉ last.accepted)) = true := by
    decide +kernel
  obtain ⟨last, found, checks⟩ := (Option.any_eq_true _ _).mp check
  simp only [Bool.and_eq_true, decide_eq_true_eq] at checks
  exact ⟨last, found, checks.1.1, checks.1.2, checks.2⟩

theorem braid_chain : Chain braid [19, 18] 20 := by
  have short : Chain braid [18] 19 := .hop [] 0 19 18 .source rfl (by decide) (by decide)
  exact .hop [18] 19 20 19 short rfl (by decide) (by decide)

-- The exit behind two relays never hears of the emergency.
theorem long_way_starves_exit : sosPacket.hmacSig ≠ 0 ∧ (ttlOf sosPacket.flags).toNat = 20 ∧
    ∃ mesh : MeshState (Fin 21), Relation.ReflTransGen (MeshStep braid sosPacket) .start mesh ∧ 0 < mesh.broadcasts ∧
      mesh.inFlight = 0 ∧ Chain braid [19, 18] 20 ∧ 20 ∈ braid.networks 20 ∧ braid.relay 20 = false ∧ mesh.turns 20 = [] := by
  obtain ⟨last, found, sent, known, missed⟩ := long_way_shadows
  have reached : Relation.ReflTransGen (Flood.Step braid 20) .start { last with inFlight := 0 } :=
    .head (.emit .start) ((follow_run braid 20 _ _ longWay found).trans (drain braid 20 last known))
  obtain ⟨mesh, run, follows⟩ := flood_has_mesh braid sosPacket (by decide) (by decide) _ reached
  exact ⟨by decide, by decide, mesh, run, follows.sent.mp sent, follows.flights, braid_chain, by decide, by decide,
    ((follows.nodes 20).fresh missed).2⟩

end Braid

end BeaconMesh.Simulator
