import BeaconMesh.WaveDelivery

set_option autoImplicit false

namespace BeaconMesh.Arduino

open Sweep History

section Bursts

variable {ι : Type} [DecidableEq ι] (emergency : Emergency)

def isBurst (i : ι) (entry : Option ι × Copy) : Bool :=
  decide (entry.1 = some i) && decide (entry.2.lineage.map Prod.fst = some emergency)

-- The bursts of an emergency that a relay has started.
def burstsBy (watched : Watched ι) (i : ι) : Nat := (watched.sentBy.zip watched.network.onAir).countP (isBurst emergency i)

theorem bursts_appended (before after : Watched ι) (paired : before.sentBy.length = before.network.onAir.length) (sender : Option ι) (copy : Copy)
    (sentBy : after.sentBy = before.sentBy ++ [sender]) (onAir : after.network.onAir = before.network.onAir ++ [copy]) (i : ι) :
    burstsBy emergency after i = burstsBy emergency before i + if isBurst emergency i (sender, copy) = true then 1 else 0 := by
  rw [burstsBy, sentBy, onAir, List.zip_append paired, List.countP_append]
  exact congrArg _ (List.countP_singleton)

theorem bursts_unchanged (before after : Watched ι) (sentBy : after.sentBy = before.sentBy) (onAir : after.network.onAir = before.network.onAir) (i : ι) :
    burstsBy emergency after i = burstsBy emergency before i := by
  rw [burstsBy, sentBy, onAir, burstsBy]

theorem sent_out_counted (watched : Watched ι) (i : ι) (sent : SentOut emergency watched i) : 0 < burstsBy emergency watched i := by
  obtain ⟨c, copy, hops, sender, air, lineage⟩ := sent
  have entry : (watched.sentBy.zip watched.network.onAir)[c]? = some (some i, copy) := List.getElem?_zip_eq_some.mpr ⟨sender, air⟩
  refine List.countP_pos_iff.mpr ⟨_, List.mem_of_getElem? entry, ?_⟩
  simp [isBurst, lineage]

end Bursts

-- A burst starts on an idle relay only, and its end marks its slot.
structure Switches (before after : RelayState) (output : Output) : Prop where
  begun : ∀ row frame, startedBurst output = some (row, frame) →
    before.isBroadcasting = false ∧ after.isBroadcasting = true ∧ after.currentBroadcastIndex = row.val
  held : ∀ k : Slot, before.isBroadcasting = true → before.currentBroadcastIndex = k.val →
    (after.isBroadcasting = true ∧ after.currentBroadcastIndex = k.val) ∨ (read after.cache k).broadcasted = true
  marked : ∀ k, (read before.cache k).broadcasted = true → (read after.cache k).broadcasted = true

theorem loop_switches_burst (before after : RelayState) (now : Millis) (output : Output) (effect : LoopEffect before now after output) :
    Switches before after output := by
  have marked : ∀ k, (read before.cache k).broadcasted = true → (read after.cache k).broadcasted = true := by
    intro k already
    cases loop_entry before after now output effect k with
    | inl same => rw [same]; exact already
    | inr marks => rw [marks]; rfl
  cases effect with
  | transmitting busy early =>
      exact ⟨fun row frame never => absurd never.symm (Option.some_ne_none _), fun k _ index => Or.inl ⟨busy, index⟩, marked⟩
  | ended busy late =>
      refine ⟨fun row frame never => absurd never.symm (Option.some_ne_none _), fun k _ index => Or.inr ?_, marked⟩
      rw [indexed_write_entry, if_pos index]
      rfl
  | started row cancelled _ idle due unheard earlier rows cells broadcasting endTime index =>
      refine ⟨fun other frame same => ?_, fun k busy => absurd (busy.symm.trans idle) (by decide), marked⟩
      obtain rfl : row = other := (Prod.mk.inj (Option.some.inj same)).1
      exact ⟨idle, broadcasting, index⟩
  | quiet cancelled _ idle covered rows cells burst =>
      exact ⟨fun row frame never => absurd never.symm (Option.some_ne_none _), fun k busy => absurd (busy.symm.trans idle) (by decide), marked⟩

section Once

variable {ι : Type} [DecidableEq ι] (hmac : Bytes → Bytes → Digest) (wave : Wave ι) (emergency : Emergency)

-- A relay that has started a burst of the emergency keeps its slot, on air or
-- done with.
structure SpentSlot (state : RelayState) : Prop where
  slot : ∃ k : Slot, (read state.cache k).active = true ∧ (read state.cache k).hmac = sig hmac emergency ∧
    ((read state.cache k).broadcasted = true ∨ (state.isBroadcasting = true ∧ state.currentBroadcastIndex = k.val))

structure Once (watched : Watched ι) : Prop where
  once : ∀ i, burstsBy emergency watched i ≤ 1
  relays : ∀ i, 0 < burstsBy emergency watched i → wave.online i = false
  spent : ∀ i, 0 < burstsBy emergency watched i → SpentSlot hmac emergency (watched.network.relay i)

theorem once_same (before after : Watched ι) (bursts : ∀ i, burstsBy emergency after i = burstsBy emergency before i)
    (spent : ∀ i, SpentSlot hmac emergency (before.network.relay i) → SpentSlot hmac emergency (after.network.relay i))
    (once : Once hmac wave emergency before) : Once hmac wave emergency after := by
  refine ⟨fun i => ?_, fun i counted => ?_, fun i counted => ?_⟩
  · rw [bursts i]
    exact once.once i
  · rw [bursts i] at counted
    exact once.relays i counted
  · rw [bursts i] at counted
    exact spent i (once.spent i counted)

variable [Fintype ι] (before : Watched ι) (spread : Spread hmac wave emergency before) (once : Once hmac wave emergency before)

include spread

theorem loop_spent (i r : ι) (now : Millis) (spent : SpentSlot hmac emergency (before.network.relay r)) :
    SpentSlot hmac emergency ((before.step hmac (.loop i now)).network.relay r) := by
  by_cases here : r = i
  · subst here
    obtain ⟨k, active, key, state⟩ := spent.slot
    have turned := turned_active hmac wave emergency before spread r now k
    have switches := loop_switches_burst _ _ now _ (loop_effect (before.network.relay r) now)
    have relay : (before.step hmac (.loop r now)).network.relay r = (Arduino.loop (before.network.relay r) now).1 := Function.update_self _ _ _
    refine ⟨k, turned.1.trans active, turned.2.trans key, ?_⟩
    rw [relay]
    cases state with
    | inl marked => exact Or.inl (switches.marked k marked)
    | inr busy => exact (switches.held k busy.1 busy.2).symm
  · have relay : (before.step hmac (.loop i now)).network.relay r = before.network.relay r := Function.update_of_ne here _ _
    rw [relay]
    exact spent

-- An idle relay has marked what it sent, so a packet that waits is no such.
theorem waiting_unsent (i : ι) (row : Slot) (idle : (before.network.relay i).isBroadcasting = false)
    (pending : Pending (read (before.network.relay i).cache row)) (key : (read (before.network.relay i).cache row).hmac = sig hmac emergency)
    (once : Once hmac wave emergency before) : burstsBy emergency before i = 0 := by
  by_contra counted
  obtain ⟨k, active, same, state⟩ := (once.spent i (Nat.pos_of_ne_zero counted)).slot
  obtain rfl : k = row := (spread.invariant i).keys k row active pending.1 (same.trans key.symm)
  cases state with
  | inl marked => exact absurd (marked.symm.trans pending.2) (by decide)
  | inr busy => exact absurd (busy.1.symm.trans idle) (by decide)

include once

theorem loop_once (traced : Traced hmac before.network) (i : ι) (now : Millis) : Once hmac wave emergency (before.step hmac (.loop i now)) := by
  have spent := fun r => loop_spent hmac wave emergency before spread i r now
  cases burst : startedBurst (Arduino.loop (before.network.relay i) now).2 with
  | none =>
      have sentBy : (before.step hmac (.loop i now)).sentBy = before.sentBy := by simp [Watched.step, burst]
      have onAir : (before.step hmac (.loop i now)).network.onAir = before.network.onAir := by
        simp [Watched.step, Network.step, Network.loop, burst]
      exact once_same hmac wave emergency before _ (bursts_unchanged emergency before _ sentBy onAir) spent once
  | some started =>
      obtain ⟨row, frame⟩ := started
      have sentBy : (before.step hmac (.loop i now)).sentBy = before.sentBy ++ [some i] := by simp [Watched.step, burst]
      have onAir : (before.step hmac (.loop i now)).network.onAir =
          before.network.onAir ++ [⟨frame, oneMoreHop (before.network.carried i row)⟩] := by
        simp [Watched.step, Network.step, Network.loop, burst]
      have bursts := bursts_appended emergency before _ spread.paired _ _ sentBy onAir
      have pending := (relay_turns hmac wave emergency before spread i now).started row frame burst
      obtain ⟨source, hops, carried, _, packet⟩ := traced.slots i row pending
      have signed := ((spread.invariant i).entries row).signed pending.1
      rw [packet] at signed
      by_cases same : source = emergency
      · have key : (read (before.network.relay i).cache row).hmac = sig hmac emergency := by
          rw [← same]
          exact signed.symm
        have switches := loop_switches_burst _ _ now _ (loop_effect (before.network.relay i) now)
        obtain ⟨idle, broadcasting, index⟩ := switches.begun row frame burst
        have unsent := waiting_unsent hmac wave emergency before spread i row idle pending key once
        have turned := turned_active hmac wave emergency before spread i now row
        have relay : (before.step hmac (.loop i now)).network.relay i = (Arduino.loop (before.network.relay i) now).1 :=
          Function.update_self _ _ _
        have others : ∀ r, r ≠ i → burstsBy emergency (before.step hmac (.loop i now)) r = burstsBy emergency before r := by
          intro r other
          rw [bursts r, if_neg (by simp [isBurst, Ne.symm other]), Nat.add_zero]
        refine ⟨fun r => ?_, fun r counted => ?_, fun r counted => ?_⟩ <;> by_cases here : r = i
        · rw [here, bursts i, unsent]
          split <;> decide
        · rw [others r here]
          exact once.once r
        · rw [here]
          exact spread.waits i row pending
        · rw [others r here] at counted
          exact once.relays r counted
        · rw [here]
          exact ⟨row, turned.1.trans pending.1, turned.2.trans key, Or.inr (relay ▸ ⟨broadcasting, index⟩)⟩
        · rw [others r here] at counted
          exact spent r (once.spent r counted)
      · refine once_same hmac wave emergency before _ (fun r => ?_) spent once
        rw [bursts r, if_neg (by simp [isBurst, oneMoreHop, carried, same]), Nat.add_zero]

end Once

section Run

variable {ι : Type} [DecidableEq ι] [Fintype ι] (hmac : Bytes → Bytes → Digest) (wave : Wave ι) (emergency : Emergency)

theorem sos_once (before : Watched ι) (spread : Spread hmac wave emergency before) (once : Once hmac wave emergency before) (other : Emergency) :
    Once hmac wave emergency (before.step hmac (.sos other)) := by
  refine once_same hmac wave emergency before _ (fun r => ?_) (fun _ spent => spent) once
  rw [bursts_appended emergency before (before.step hmac (.sos other)) spread.paired none ⟨payloadData (built hmac other), some (other, 0)⟩ rfl rfl r,
    if_neg (by simp [isBurst]), Nat.add_zero]

theorem hear_once (before : Watched ι) (spread : Spread hmac wave emergency before) (once : Once hmac wave emergency before) (i : ι) (c : Nat)
    (copy : Copy) (address : Mac) (now jitter : Millis) (window : InWindow (wave.start i) now) (source : Emergency) (crossed : Nat)
    (good : CopyOf hmac source crossed copy) (known : source ∈ wave.known) :
    Once hmac wave emergency (afterHearing wave before i c copy address now jitter) := by
  have absorbs := relay_absorbs hmac wave emergency before spread i c copy address now jitter window source crossed good known
  refine once_same hmac wave emergency before _ (fun r => bursts_unchanged emergency before _ rfl rfl r) (fun r spent => ?_) once
  by_cases here : r = i
  · subst here
    obtain ⟨k, active, key, state⟩ := spent.slot
    have carries := absorbs.kept k active
    refine ⟨k, carries.active, carries.hmac.trans key, ?_⟩
    rw [carries.broadcasted, absorbs.burst.broadcasting, absorbs.burst.index]
    exact state
  · have relay : (afterHearing wave before i c copy address now jitter).network.relay r = before.network.relay r := Function.update_of_ne here _ _
    rw [relay]
    exact spent

variable (small : (Finset.univ.filter fun i => wave.online i = false).card ≤ 19)
  (own : ∀ other ∈ wave.known, sig hmac other = sig hmac emergency → other = emergency)

include small own

theorem step_once (before : Watched ι) (action : Action ι) (allowed : wave.Allows action) (traced : Traced hmac before.network)
    (origin : FromVictims (· ∈ wave.known) before.network)
    (both : Spread hmac wave emergency before ∧ Once hmac wave emergency before) :
    Spread hmac wave emergency (before.step hmac action) ∧ Once hmac wave emergency (before.step hmac action) := by
  obtain ⟨spread, once⟩ := both
  refine ⟨step_spread hmac wave emergency small own before action allowed traced origin spread, ?_⟩
  cases action with
  | sos other => exact sos_once hmac wave emergency before spread once other
  | loop i now => exact loop_once hmac wave emergency before spread once traced i now
  | hear i c address now wifi jitter =>
      obtain ⟨window, sender, rfl⟩ := allowed
      cases hear_step hmac wave before i c address now jitter with
      | inl same =>
          rw [same]
          exact once
      | inr heard =>
          obtain ⟨copy, found, same⟩ := heard
          have member := List.mem_of_getElem? found
          obtain ⟨source, crossed, good⟩ := traced.onAir copy member
          rw [same]
          exact hear_once hmac wave emergency before spread once i c copy address now jitter window source crossed good
            (origin.onAir copy member source crossed good.1)

theorem run_once (actions : List (Action ι)) (allowed : ∀ action ∈ actions, wave.Allows action) :
    Once hmac wave emergency (Watched.run hmac actions) := by
  have none : ∀ i, burstsBy emergency (Watched.start : Watched ι) i = 0 := fun _ => rfl
  have start : Once hmac wave emergency .start := by
    refine ⟨fun i => Nat.zero_le 1, fun i counted => ?_, fun i counted => ?_⟩
    · exact absurd (none i) (Nat.ne_of_gt counted)
    · exact absurd (none i) (Nat.ne_of_gt counted)
  exact (wave_invariant hmac wave (fun watched => Spread hmac wave emergency watched ∧ Once hmac wave emergency watched)
    ⟨start_spread hmac wave emergency, start⟩
    (fun before action allows traced origin both => step_once hmac wave emergency small own before action allows traced origin both) actions allowed).2

end Run

-- No storm: in a wave every relay sends an emergency at most once and every
-- gateway never; those that relays connect to one which heard the victim have
-- sent it exactly once when the wave has settled.
theorem wave_bursts_once {ι : Type} [DecidableEq ι] [Fintype ι] (hmac : Bytes → Bytes → Digest) (wave : Wave ι)
    (small : (Finset.univ.filter fun i => wave.online i = false).card ≤ 19) (emergency : Emergency)
    (own : ∀ other ∈ wave.known, sig hmac other = sig hmac emergency → other = emergency)
    (actions : List (Action ι)) (allowed : ∀ action ∈ actions, wave.Allows action) (i : ι) :
    burstsBy emergency (Watched.run hmac actions) i ≤ (if wave.online i = true then 0 else 1) ∧
    ∀ reach first, SettledRun hmac wave reach actions → HeardSos hmac emergency actions first →
      Relation.ReflTransGen (Link wave reach) first i →
      burstsBy emergency (Watched.run hmac actions) i = if wave.online i = true then 0 else 1 := by
  have once := run_once hmac wave emergency small own actions allowed
  have most : burstsBy emergency (Watched.run hmac actions) i ≤ if wave.online i = true then 0 else 1 := by
    by_cases online : wave.online i = true
    · rw [if_pos online]
      refine Nat.le_of_not_lt fun counted => ?_
      exact absurd (online.symm.trans (once.relays i counted)) (by decide)
    · rw [if_neg online]
      exact once.once i
  refine ⟨most, fun reach first run sos path => Nat.le_antisymm most ?_⟩
  have served := reached_served hmac wave emergency small own reach actions run first sos i path
  by_cases online : wave.online i = true
  · rw [if_pos online]
    exact Nat.zero_le _
  · rw [if_neg online]
    exact sent_out_counted emergency _ i (served.relay (Bool.eq_false_iff.mpr online))

theorem pair_bursts_once : burstsBy (emergencyAt 10) (Watched.run Scanner.echoRuntime.hmac pairActions) false = 1 :=
  (wave_bursts_once Scanner.echoRuntime.hmac pairWave (by decide) (emergencyAt 10) (fun other member _ => Finset.mem_singleton.mp member)
    pairActions pair_settled.allowed false).2 _ false pair_settled pair_heard .refl

end BeaconMesh.Arduino
