import BeaconMesh.EmergencyReports
import BeaconMesh.RelayWave

set_option autoImplicit false

namespace BeaconMesh.Arduino

open Sweep History

-- A wave of traffic: what each relay hears of it falls into one lifetime of
-- its entries, whose deadlines do not wrap, and comes from too few senders to
-- be suppressed, and the emergencies fit into a cache.
structure Wave (ι : Type) where
  online : ι → Bool
  start : ι → Nat
  macs : ι → Finset Mac
  known : Finset Emergency
  fits : ∀ i, start i + 4000 < 2 ^ 32
  few : ∀ i, (macs i).card ≤ 3
  room : known.card ≤ cacheSize

def Wave.Allows {ι : Type} (wave : Wave ι) : Action ι → Prop
  | .sos emergency => emergency ∈ wave.known
  | .hear i _ address now wifi _ => InWindow (wave.start i) now ∧ address ∈ wave.macs i ∧ wifi = wave.online i
  | .loop _ _ => True

-- The network, with the sender of each copy on air (none for a victim), the
-- gateway of each datagram and the copies each relay has heard.
structure Watched (ι : Type) where
  network : Network ι
  sentBy : List (Option ι)
  uploadedBy : List ι
  heard : List (ι × Nat)

section Watching

variable {ι : Type} [DecidableEq ι] (hmac : Bytes → Bytes → Digest)

def Watched.start : Watched ι := ⟨.start, [], [], []⟩

def Watched.step (watched : Watched ι) (action : Action ι) : Watched ι where
  network := watched.network.step hmac action
  sentBy := match action with
    | .sos _ => watched.sentBy ++ [none]
    | .hear .. => watched.sentBy
    | .loop i now => match startedBurst (Arduino.loop (watched.network.relay i) now).2 with
      | some _ => watched.sentBy ++ [some i]
      | none => watched.sentBy
  uploadedBy := match action with
    | .hear i copy address now wifi jitter => match watched.network.onAir[copy]? with
      | some heard => watched.uploadedBy ++
          (sentDatagrams (onResult (watched.network.relay i) ⟨some heard.frame, address⟩ now wifi jitter).2).map fun _ => i
      | none => watched.uploadedBy
    | .sos _ => watched.uploadedBy
    | .loop _ _ => watched.uploadedBy
  heard := match action with
    | .hear i copy .. => if copy < watched.network.onAir.length then watched.heard ++ [(i, copy)] else watched.heard
    | .sos _ => watched.heard
    | .loop _ _ => watched.heard

def Watched.run (actions : List (Action ι)) : Watched ι := actions.foldl (Watched.step hmac) .start

theorem watched_network (actions : List (Action ι)) : (Watched.run hmac actions).network = Network.run hmac actions := by
  induction actions using List.reverseRecOn with
  | nil => rfl
  | append_singleton past action ih =>
      rw [Watched.run, Network.run, List.foldl_append, List.foldl_append]
      exact congrArg (fun network => network.step hmac action) ih

end Watching

def sig (hmac : Bytes → Bytes → Digest) (emergency : Emergency) : HmacSig := (built hmac emergency).hmacSig

def Wave.keys {ι : Type} (hmac : Bytes → Bytes → Digest) (wave : Wave ι) : Finset HmacSig := wave.known.image (sig hmac)

def Holds (key : HmacSig) (state : RelayState) : Prop := ∃ k, (read state.cache k).active = true ∧ (read state.cache k).hmac = key

instance (key : HmacSig) (state : RelayState) : Decidable (Holds key state) := inferInstanceAs (Decidable (∃ _, _))

section Spreading

variable {ι : Type} [Fintype ι] (hmac : Bytes → Bytes → Digest) (wave : Wave ι) (emergency : Emergency)

-- The relays that have taken the emergency in.
def holders (network : Network ι) : Finset ι :=
  Finset.univ.filter fun i => wave.online i = false ∧ Holds (sig hmac emergency) (network.relay i)

def SentOut (watched : Watched ι) (i : ι) : Prop :=
  ∃ (c : Nat) (copy : Copy) (hops : Nat), watched.sentBy[c]? = some (some i) ∧ watched.network.onAir[c]? = some copy ∧
    copy.lineage = some (emergency, hops)

def Uploaded (watched : Watched ι) (i : ι) : Prop :=
  ∃ (d : Nat) (datagram : Copy) (hops : Nat), watched.uploadedBy[d]? = some i ∧ watched.network.datagrams[d]? = some datagram ∧
    datagram.lineage = some (emergency, hops)

structure Served (watched : Watched ι) (i : ι) : Prop where
  gateway : wave.online i = true → Uploaded emergency watched i
  relay : wave.online i = false → SentOut emergency watched i

structure Spread (watched : Watched ι) : Prop where
  paired : watched.sentBy.length = watched.network.onAir.length
  uploads : watched.uploadedBy.length = watched.network.datagrams.length
  invariant : ∀ i, CacheInvariant (watched.network.relay i)
  unspoilt : ∀ i, Unspoilt (wave.start i) (wave.macs i) (wave.keys hmac) (watched.network.relay i).cache
  waits : ∀ i k, Pending (read (watched.network.relay i).cache k) → wave.online i = false
  served : ∀ i k, (read (watched.network.relay i).cache k).active = true → (read (watched.network.relay i).cache k).hmac = sig hmac emergency →
    (read (watched.network.relay i).cache k).broadcasted = true → Served wave emergency watched i
  busy : ∀ i, (watched.network.relay i).isBroadcasting = true → ∃ k : Slot, (watched.network.relay i).currentBroadcastIndex = k.val ∧
    (read (watched.network.relay i).cache k).active = true ∧ wave.online i = false ∧
    ((read (watched.network.relay i).cache k).hmac = sig hmac emergency → SentOut emergency watched i)
  onAir : ∀ copy ∈ watched.network.onAir, ∀ hops, copy.lineage = some (emergency, hops) → hops ≤ (holders hmac wave emergency watched.network).card
  slots : ∀ i k hops, Pending (read (watched.network.relay i).cache k) → watched.network.carried i k = some (emergency, hops) →
    hops + 1 ≤ (holders hmac wave emergency watched.network).card
  heard : ∀ i c, (i, c) ∈ watched.heard → ∃ copy, watched.network.onAir[c]? = some copy ∧
    ∀ hops, copy.lineage = some (emergency, hops) → Holds (sig hmac emergency) (watched.network.relay i)

structure Grows (before after : Watched ι) : Prop where
  onAir : before.network.onAir <+: after.network.onAir
  sentBy : before.sentBy <+: after.sentBy
  datagrams : before.network.datagrams <+: after.network.datagrams
  uploadedBy : before.uploadedBy <+: after.uploadedBy
  holds : ∀ i key, Holds key (before.network.relay i) → Holds key (after.network.relay i)

theorem entry_kept {α : Type} (old new : List α) (grown : old <+: new) (c : Nat) (entry : α) (found : old[c]? = some entry) :
    new[c]? = some entry := by
  obtain ⟨rest, rfl⟩ := grown
  rw [List.getElem?_append_left (List.getElem?_eq_some_iff.mp found).1]
  exact found

end Spreading

section Growth

variable {ι : Type} (hmac : Bytes → Bytes → Digest) (wave : Wave ι) (emergency : Emergency) (before after : Watched ι) (grows : Grows before after)

include grows

theorem sent_out_kept (i : ι) (sent : SentOut emergency before i) : SentOut emergency after i := by
  obtain ⟨c, copy, hops, sender, air, lineage⟩ := sent
  exact ⟨c, copy, hops, entry_kept _ _ grows.sentBy c _ sender, entry_kept _ _ grows.onAir c _ air, lineage⟩

theorem served_kept (i : ι) (served : Served wave emergency before i) : Served wave emergency after i := by
  refine ⟨fun online => ?_, fun offline => sent_out_kept emergency before after grows i (served.relay offline)⟩
  obtain ⟨d, datagram, hops, gateway, uploaded, lineage⟩ := served.gateway online
  exact ⟨d, datagram, hops, entry_kept _ _ grows.uploadedBy d _ gateway, entry_kept _ _ grows.datagrams d _ uploaded, lineage⟩

theorem holders_grow [Fintype ι] : holders hmac wave emergency before.network ⊆ holders hmac wave emergency after.network := by
  intro i member
  obtain ⟨_, offline, holds⟩ := Finset.mem_filter.mp member
  exact Finset.mem_filter.mpr ⟨Finset.mem_univ i, offline, grows.holds i _ holds⟩

theorem heard_kept (i : ι) (c : Nat)
    (heard : ∃ copy, before.network.onAir[c]? = some copy ∧ ∀ hops, copy.lineage = some (emergency, hops) →
      Holds (sig hmac emergency) (before.network.relay i)) :
    ∃ copy, after.network.onAir[c]? = some copy ∧ ∀ hops, copy.lineage = some (emergency, hops) →
      Holds (sig hmac emergency) (after.network.relay i) := by
  obtain ⟨copy, air, held⟩ := heard
  exact ⟨copy, entry_kept _ _ grows.onAir c _ air, fun hops lineage => grows.holds i _ (held hops lineage)⟩

end Growth

section Steps

variable {ι : Type} [DecidableEq ι] [Fintype ι] (hmac : Bytes → Bytes → Digest) (wave : Wave ι) (emergency : Emergency) (before : Watched ι)
  (spread : Spread hmac wave emergency before)

include spread

theorem sos_spread (other : Emergency) : Spread hmac wave emergency (before.step hmac (.sos other)) := by
  have grows : Grows before (before.step hmac (.sos other)) :=
    ⟨List.prefix_append _ _, List.prefix_append _ _, List.prefix_refl _, List.prefix_refl _, fun _ _ holds => holds⟩
  refine ⟨?_, spread.uploads, spread.invariant, spread.unspoilt, spread.waits, fun i k active key marked => ?_, fun i busy => ?_, fun copy member hops lineage => ?_,
    spread.slots, fun i c member => ?_⟩
  · simpa [Watched.step, Network.step] using spread.paired
  · exact served_kept wave emergency before _ grows i (spread.served i k active key marked)
  · obtain ⟨k, index, active, offline, sent⟩ := spread.busy i busy
    exact ⟨k, index, active, offline, fun key => sent_out_kept emergency before _ grows i (sent key)⟩
  · cases List.mem_append.mp member with
    | inl old => exact spread.onAir copy old hops lineage
    | inr new =>
        rw [List.mem_singleton.mp new] at lineage
        obtain rfl : 0 = hops := (Prod.mk.inj (Option.some.inj lineage)).2
        exact Nat.zero_le _
  · exact heard_kept hmac emergency before _ grows i c (spread.heard i c member)

end Steps

theorem good_received (hmac : Bytes → Bytes → Digest) (copy : Copy) (address : Mac) (emergency : Emergency) (hops : Nat)
    (good : CopyOf hmac emergency hops copy) :
    receivedPacket ⟨some copy.frame, address⟩ = some (copy.frame, aged (built hmac emergency) hops) := by
  have intact := aged_intact hmac emergency hops good.2.1
  have body : (rebroadcastData (aged (built hmac emergency) hops)).drop 2 = (aged (built hmac emergency) hops).toBytes :=
    List.drop_left' (by simp)
  rw [← good.2.2] at intact body
  refine (received_packet_iff _ _ _).mpr ⟨rfl, intact.length, intact.company, ?_⟩
  rw [body, EmergencyPacket.of_bytes_to_bytes]

section Hear

variable {ι : Type} [DecidableEq ι] [Fintype ι] (hmac : Bytes → Bytes → Digest) (wave : Wave ι) (emergency : Emergency) (before : Watched ι)
  (spread : Spread hmac wave emergency before) (i : ι) (c : Nat) (copy : Copy) (address : Mac) (now jitter : Millis)
  (found : before.network.onAir[c]? = some copy) (window : InWindow (wave.start i) now) (sender : address ∈ wave.macs i)
  (source : Emergency) (crossed : Nat) (good : CopyOf hmac source crossed copy) (known : source ∈ wave.known)

def afterHearing : Watched ι :=
  ⟨before.network.hear i copy address now (wave.online i) jitter, before.sentBy,
    before.uploadedBy ++ (sentDatagrams (onResult (before.network.relay i) ⟨some copy.frame, address⟩ now (wave.online i) jitter).2).map fun _ => i,
    before.heard ++ [(i, c)]⟩

include spread window good known

theorem relay_absorbs : Absorbs (before.network.relay i) ((afterHearing wave before i c copy address now jitter).network.relay i)
    (aged (built hmac source) crossed) (wave.online i)
    (onResult (before.network.relay i) ⟨some copy.frame, address⟩ now (wave.online i) jitter).2 := by
  have relay : (afterHearing wave before i c copy address now jitter).network.relay i =
      (onResult (before.network.relay i) ⟨some copy.frame, address⟩ now (wave.online i) jitter).1 := Function.update_self _ _ _
  rw [relay]
  have few : (wave.keys hmac).card ≤ cacheSize := Finset.card_image_le.trans wave.room
  exact callback_absorbs (wave.start i) (wave.macs i) (wave.keys hmac) _ _ _ now (wave.online i) jitter _ copy.frame _
    (on_result_effect _ _ _ _ _) (good_received hmac copy address source crossed good) (spread.unspoilt i) (spread.invariant i).keys window
    (wave.fits i) few (Finset.mem_image_of_mem _ known)

theorem hear_grows : Grows before (afterHearing wave before i c copy address now jitter) := by
  have absorbs := relay_absorbs hmac wave emergency before spread i c copy address now jitter window source crossed good known
  refine ⟨List.prefix_refl _, List.prefix_refl _, List.prefix_append _ _, List.prefix_append _ _, fun r key holds => ?_⟩
  by_cases here : r = i
  · subst here
    obtain ⟨k, active, same⟩ := holds
    have carries := absorbs.kept k active
    exact ⟨k, carries.active, carries.hmac.trans same⟩
  · have relay : (afterHearing wave before i c copy address now jitter).network.relay r = before.network.relay r := Function.update_of_ne here _ _
    rw [relay]
    exact holds

theorem stored_holders (k : Slot) (same : source = emergency) (offline : wave.online i = false)
    (stored : storedSlot (onResult (before.network.relay i) ⟨some copy.frame, address⟩ now (wave.online i) jitter).2 = some k)
    (active : (read ((afterHearing wave before i c copy address now jitter).network.relay i).cache k).active = true) :
    (holders hmac wave emergency before.network).card + 1 ≤
      (holders hmac wave emergency (afterHearing wave before i c copy address now jitter).network).card := by
  have absorbs := relay_absorbs hmac wave emergency before spread i c copy address now jitter window source crossed good known
  have grows := hear_grows hmac wave emergency before spread i c copy address now jitter window source crossed good known
  have key : (aged (built hmac source) crossed).hmacSig = sig hmac emergency := by
    rw [← same]
    rfl
  refine Finset.card_lt_card (Finset.ssubset_iff_subset_ne.mpr ⟨holders_grow hmac wave emergency before _ grows, fun unchanged => ?_⟩)
  have holdsNow : Holds (sig hmac emergency) ((afterHearing wave before i c copy address now jitter).network.relay i) :=
    ⟨k, active, (absorbs.fresh k (absorbs.stored k stored) active).2.1.trans key⟩
  have inside : i ∈ holders hmac wave emergency before.network := by
    rw [unchanged]
    exact Finset.mem_filter.mpr ⟨Finset.mem_univ i, offline, holdsNow⟩
  obtain ⟨_, _, j, there, held⟩ := Finset.mem_filter.mp inside
  exact absorbs.absent k stored j there (held.trans key.symm)

variable (own : sig hmac source = sig hmac emergency → source = emergency)

include own in
theorem hear_served (k : Slot) (active : (read ((afterHearing wave before i c copy address now jitter).network.relay i).cache k).active = true)
    (key : (read ((afterHearing wave before i c copy address now jitter).network.relay i).cache k).hmac = sig hmac emergency)
    (marked : (read ((afterHearing wave before i c copy address now jitter).network.relay i).cache k).broadcasted = true) :
    Served wave emergency (afterHearing wave before i c copy address now jitter) i := by
  have absorbs := relay_absorbs hmac wave emergency before spread i c copy address now jitter window source crossed good known
  have grows := hear_grows hmac wave emergency before spread i c copy address now jitter window source crossed good known
  cases held : (read (before.network.relay i).cache k).active with
  | true =>
      have carries := absorbs.kept k held
      exact served_kept wave emergency before _ grows i
        (spread.served i k held (carries.hmac.symm.trans key) (carries.broadcasted.symm.trans marked))
  | false =>
      obtain ⟨stored, newKey, online⟩ := absorbs.fresh k held active
      have connected : wave.online i = true := online.symm.trans marked
      refine ⟨fun _ => ?_, fun offline => absurd (connected.symm.trans offline) (by decide)⟩
      obtain ⟨first, rest, sent⟩ := List.exists_cons_of_ne_nil (absorbs.sent k stored connected)
      refine ⟨before.network.datagrams.length, ⟨first, copy.lineage⟩, crossed, ?_, ?_, ?_⟩
      · rw [← spread.uploads]
        simp [afterHearing, sent]
      · simp [afterHearing, Network.hear, sent]
      · rw [good.1, own (newKey.symm.trans key)]

variable (small : (Finset.univ.filter fun i => wave.online i = false).card ≤ 19)

-- A relay that does not know the emergency yet hears it with hops to spare.
include small found in
theorem hear_holds (hops : Nat) (lineage : copy.lineage = some (emergency, hops)) :
    Holds (sig hmac emergency) ((afterHearing wave before i c copy address now jitter).network.relay i) := by
  have absorbs := relay_absorbs hmac wave emergency before spread i c copy address now jitter window source crossed good known
  obtain ⟨same, count⟩ := Prod.mk.inj (Option.some.inj (good.1.symm.trans lineage))
  have key : (aged (built hmac source) crossed).hmacSig = sig hmac emergency := by
    rw [same]
    rfl
  have holds := absorbs.holds
  rw [key, aged_ttl] at holds
  refine holds ?_
  cases online : wave.online i with
  | true => exact Or.inl (Or.inl rfl)
  | false =>
      by_cases already : Holds (sig hmac emergency) (before.network.relay i)
      · exact Or.inr already
      · left
        right
        have bound := spread.onAir copy (List.mem_of_getElem? found) hops lineage
        have outside : holders hmac wave emergency before.network ⊂ Finset.univ.filter fun i => wave.online i = false := by
          refine Finset.ssubset_iff_subset_ne.mpr ⟨fun r member => ?_, fun all => ?_⟩
          · exact Finset.mem_filter.mpr ⟨Finset.mem_univ r, (Finset.mem_filter.mp member).2.1⟩
          · have inside : i ∈ holders hmac wave emergency before.network := by
              rw [all]
              exact Finset.mem_filter.mpr ⟨Finset.mem_univ i, online⟩
            exact already (Finset.mem_filter.mp inside).2.2
        have fewer := Finset.card_lt_card outside
        omega

include sender own small found in
theorem hear_spread : Spread hmac wave emergency (afterHearing wave before i c copy address now jitter) := by
  have absorbs := relay_absorbs hmac wave emergency before spread i c copy address now jitter window source crossed good known
  have grows := hear_grows hmac wave emergency before spread i c copy address now jitter window source crossed good known
  have here : (afterHearing wave before i c copy address now jitter).network.relay i =
      (onResult (before.network.relay i) ⟨some copy.frame, address⟩ now (wave.online i) jitter).1 := Function.update_self _ _ _
  have elsewhere : ∀ r, r ≠ i → (afterHearing wave before i c copy address now jitter).network.relay r = before.network.relay r :=
    fun r other => Function.update_of_ne other _ _
  have effect := on_result_effect (before.network.relay i) ⟨some copy.frame, address⟩ now (wave.online i) jitter
  have waits : ∀ k, Pending (read ((afterHearing wave before i c copy address now jitter).network.relay i).cache k) → wave.online i = false := by
    intro k pending
    cases held : (read (before.network.relay i).cache k).active with
    | true => exact spread.waits i k ⟨held, (absorbs.kept k held).broadcasted.symm.trans pending.2⟩
    | false => exact (absorbs.fresh k held pending.1).2.2.symm.trans pending.2
  refine ⟨spread.paired, ?_, fun r => ?_, fun r => ?_, fun r k => ?_, fun r k => ?_, fun r => ?_, fun air member hops lineage => ?_,
    fun r k hops => ?_, fun r d member => ?_⟩
  · simp [afterHearing, Network.hear, spread.uploads]
  · by_cases at_r : r = i
    · rw [at_r, here]
      exact callback_invariant _ _ _ _ _ _ _ (spread.invariant i) effect
    · rw [elsewhere r at_r]
      exact spread.invariant r
  · by_cases at_r : r = i
    · rw [at_r, here]
      refine callback_unspoilt _ _ _ _ _ _ now _ jitter _ effect (fun payloadRaw packet received => ?_) (spread.unspoilt i) window (wave.fits i) sender
      rw [good_received hmac copy address source crossed good] at received
      obtain ⟨_, rfl⟩ := Prod.mk.inj (Option.some.inj received)
      exact Finset.mem_image_of_mem _ known
    · rw [elsewhere r at_r]
      exact spread.unspoilt r
  · by_cases at_r : r = i
    · rw [at_r]
      exact waits k
    · rw [elsewhere r at_r]
      exact spread.waits r k
  · by_cases at_r : r = i
    · rw [at_r]
      exact hear_served hmac wave emergency before spread i c copy address now jitter window source crossed good known own k
    · rw [elsewhere r at_r]
      exact fun active key marked => served_kept wave emergency before _ grows r (spread.served r k active key marked)
  · by_cases at_r : r = i
    · rw [at_r]
      intro busy
      obtain ⟨k, index, active, offline, sent⟩ := spread.busy i (absorbs.burst.broadcasting.symm.trans busy)
      have carries := absorbs.kept k active
      exact ⟨k, absorbs.burst.index.trans index, carries.active, offline,
        fun key => sent_out_kept emergency before _ grows i (sent (carries.hmac.symm.trans key))⟩
    · rw [elsewhere r at_r]
      intro busy
      obtain ⟨k, index, active, offline, sent⟩ := spread.busy r busy
      exact ⟨k, index, active, offline, fun key => sent_out_kept emergency before _ grows r (sent key)⟩
  · exact (spread.onAir air member hops lineage).trans (Finset.card_le_card (holders_grow hmac wave emergency before _ grows))
  · have grown := Finset.card_le_card (holders_grow hmac wave emergency before _ grows)
    intro pending lineage
    by_cases new : r = i ∧ storedSlot (onResult (before.network.relay i) ⟨some copy.frame, address⟩ now (wave.online i) jitter).2 = some k
    · obtain ⟨rfl, stored⟩ := new
      have carried : (afterHearing wave before r c copy address now jitter).network.carried r k = copy.lineage := by
        dsimp only [afterHearing, Network.hear]
        rw [stored, record_lineage_here]
      rw [carried] at lineage
      have same := (Prod.mk.inj (Option.some.inj (good.1.symm.trans lineage))).1
      have more := stored_holders hmac wave emergency before spread r c copy address now jitter window source crossed good known k same
        (waits k pending) stored pending.1
      have bound := spread.onAir copy (List.mem_of_getElem? found) hops lineage
      omega
    · have carried : (afterHearing wave before i c copy address now jitter).network.carried r k = before.network.carried r k :=
        record_lineage_elsewhere _ _ _ _ _ _ fun same stored => new ⟨same, stored⟩
      rw [carried] at lineage
      refine (spread.slots r k hops ?_ lineage).trans grown
      by_cases at_r : r = i
      · subst at_r
        cases held : (read (before.network.relay r).cache k).active with
        | true => exact ⟨held, (absorbs.kept k held).broadcasted.symm.trans pending.2⟩
        | false => exact absurd ⟨rfl, (absorbs.fresh k held pending.1).1⟩ new
      · rw [elsewhere r at_r] at pending
        exact pending
  · cases List.mem_append.mp member with
    | inl old => exact heard_kept hmac emergency before _ grows r d (spread.heard r d old)
    | inr new =>
        obtain ⟨rfl, rfl⟩ := Prod.mk.inj (List.mem_singleton.mp new)
        exact ⟨copy, found, fun hops lineage =>
          hear_holds hmac wave emergency before spread r d copy address now jitter found window source crossed good known small hops lineage⟩

end Hear

section Loop

variable {ι : Type} [DecidableEq ι]

theorem loop_grown (hmac : Bytes → Bytes → Digest) (before : Watched ι) (i : ι) (now : Millis) :
    before.network.onAir <+: (before.network.loop i now).onAir ∧ before.sentBy <+: (before.step hmac (.loop i now)).sentBy := by
  dsimp only [Watched.step, Network.loop]
  cases startedBurst (Arduino.loop (before.network.relay i) now).2 with
  | none => exact ⟨List.prefix_refl _, List.prefix_refl _⟩
  | some started => exact ⟨List.prefix_append _ _, List.prefix_append _ _⟩

variable [Fintype ι] (hmac : Bytes → Bytes → Digest) (wave : Wave ι) (emergency : Emergency) (before : Watched ι)
  (spread : Spread hmac wave emergency before) (i : ι) (now : Millis)

include spread

theorem relay_turns : Turns (before.network.relay i) ((before.step hmac (.loop i now)).network.relay i)
    (Arduino.loop (before.network.relay i) now).2 := by
  have here : (before.step hmac (.loop i now)).network.relay i = (Arduino.loop (before.network.relay i) now).1 := Function.update_self _ _ _
  rw [here]
  exact loop_turns _ _ _ _ _ now _ (loop_effect _ now) (spread.unspoilt i) (spread.invariant i) (wave.few i)

theorem turned_active (k : Slot) :
    (read ((before.step hmac (.loop i now)).network.relay i).cache k).active = (read (before.network.relay i).cache k).active ∧
    (read ((before.step hmac (.loop i now)).network.relay i).cache k).hmac = (read (before.network.relay i).cache k).hmac := by
  cases (relay_turns hmac wave emergency before spread i now).cells k with
  | inl same => rw [same]; exact ⟨rfl, rfl⟩
  | inr marked => rw [marked.1]; exact ⟨rfl, rfl⟩

theorem turned_pending (k : Slot) (pending : Pending (read ((before.step hmac (.loop i now)).network.relay i).cache k)) :
    Pending (read (before.network.relay i).cache k) := by
  cases (relay_turns hmac wave emergency before spread i now).cells k with
  | inl same => exact same ▸ pending
  | inr marked =>
      rw [marked.1] at pending
      exact absurd pending.2 (by simp [markBroadcasted])

theorem loop_grows : Grows before (before.step hmac (.loop i now)) := by
  obtain ⟨onAir, sentBy⟩ := loop_grown hmac before i now
  refine ⟨onAir, sentBy, List.prefix_refl _, List.prefix_refl _, fun r key holds => ?_⟩
  by_cases here : r = i
  · subst here
    obtain ⟨k, active, same⟩ := holds
    have turned := turned_active hmac wave emergency before spread r now k
    exact ⟨k, turned.1.trans active, turned.2.trans same⟩
  · have relay : (before.step hmac (.loop i now)).network.relay r = before.network.relay r := Function.update_of_ne here _ _
    rw [relay]
    exact holds

variable (traced : Traced hmac before.network) (origin : FromVictims (· ∈ wave.known) before.network)
  (own : ∀ other ∈ wave.known, sig hmac other = sig hmac emergency → other = emergency)

include traced origin own in
-- A burst of the emergency's key carries the emergency itself.
theorem burst_sent (row : Slot) (frame : Bytes) (started : startedBurst (Arduino.loop (before.network.relay i) now).2 = some (row, frame))
    (key : (read (before.network.relay i).cache row).hmac = sig hmac emergency) :
    SentOut emergency (before.step hmac (.loop i now)) i := by
  have pending := (relay_turns hmac wave emergency before spread i now).started row frame started
  obtain ⟨source, hops, carried, bound, packet⟩ := traced.slots i row pending
  have signed := ((spread.invariant i).entries row).signed pending.1
  rw [packet, key] at signed
  have same : source = emergency := own source (origin.slots i row source hops carried) signed
  refine ⟨before.network.onAir.length, ⟨frame, oneMoreHop (before.network.carried i row)⟩, hops + 1, ?_, ?_, ?_⟩
  · rw [← spread.paired]
    simp [Watched.step, started]
  · simp [Watched.step, Network.step, Network.loop, started]
  · rw [carried, same]
    rfl

include traced origin own in
theorem loop_spread : Spread hmac wave emergency (before.step hmac (.loop i now)) := by
  have turns := relay_turns hmac wave emergency before spread i now
  have grows := loop_grows hmac wave emergency before spread i now
  have here : (before.step hmac (.loop i now)).network.relay i = (Arduino.loop (before.network.relay i) now).1 := Function.update_self _ _ _
  have elsewhere : ∀ r, r ≠ i → (before.step hmac (.loop i now)).network.relay r = before.network.relay r :=
    fun r other => Function.update_of_ne other _ _
  have effect := loop_effect (before.network.relay i) now
  have active := turned_active hmac wave emergency before spread i now
  have pending := turned_pending hmac wave emergency before spread i now
  have grown := Finset.card_le_card (holders_grow hmac wave emergency before _ grows)
  refine ⟨?_, spread.uploads, fun r => ?_, fun r => ?_, fun r k => ?_, fun r k => ?_, fun r => ?_, fun air member hops lineage => ?_,
    fun r k hops waits lineage => ?_, fun r d member => heard_kept hmac emergency before _ grows r d (spread.heard r d member)⟩
  · dsimp only [Watched.step, Network.step, Network.loop]
    cases startedBurst (Arduino.loop (before.network.relay i) now).2 with
    | none => exact spread.paired
    | some started => simp [spread.paired]
  · by_cases at_r : r = i
    · rw [at_r, here]
      exact loop_invariant _ _ now _ (spread.invariant i) effect
    · rw [elsewhere r at_r]
      exact spread.invariant r
  · by_cases at_r : r = i
    · rw [at_r, here]
      exact loop_unspoilt _ _ _ _ _ now _ effect (spread.unspoilt i)
    · rw [elsewhere r at_r]
      exact spread.unspoilt r
  · by_cases at_r : r = i
    · rw [at_r]
      exact fun waits => spread.waits i k (pending k waits)
    · rw [elsewhere r at_r]
      exact spread.waits r k
  · by_cases at_r : r = i
    · rw [at_r, (active k).1, (active k).2]
      intro held key marked
      cases turns.cells k with
      | inl same => exact served_kept wave emergency before _ grows i (spread.served i k held key (same ▸ marked))
      | inr ended =>
          obtain ⟨_, busy, index⟩ := ended
          obtain ⟨row, rowIndex, _, offline, sent⟩ := spread.busy i busy
          obtain rfl : row = k := Fin.ext (by omega)
          exact ⟨fun online => absurd (online.symm.trans offline) (by decide), fun _ => sent_out_kept emergency before _ grows i (sent key)⟩
    · rw [elsewhere r at_r]
      exact fun held key marked => served_kept wave emergency before _ grows r (spread.served r k held key marked)
  · by_cases at_r : r = i
    · rw [at_r]
      intro busy
      cases turns.busy busy with
      | inl still =>
          obtain ⟨k, index, held, offline, sent⟩ := spread.busy i still.1
          exact ⟨k, still.2.trans index, (active k).1.trans held, offline,
            fun key => sent_out_kept emergency before _ grows i (sent ((active k).2.symm.trans key))⟩
      | inr begun =>
          obtain ⟨row, frame, started, index⟩ := begun
          have waiting := turns.started row frame started
          exact ⟨row, index, (active row).1.trans waiting.1, spread.waits i row waiting,
            fun key => burst_sent hmac wave emergency before spread i now traced origin own row frame started ((active row).2.symm.trans key)⟩
    · rw [elsewhere r at_r]
      intro busy
      obtain ⟨k, index, held, offline, sent⟩ := spread.busy r busy
      exact ⟨k, index, held, offline, fun key => sent_out_kept emergency before _ grows r (sent key)⟩
  · cases burst : startedBurst (Arduino.loop (before.network.relay i) now).2 with
    | none =>
        have same : (before.step hmac (.loop i now)).network.onAir = before.network.onAir := by
          simp [Watched.step, Network.step, Network.loop, burst]
        rw [same] at member
        exact (spread.onAir air member hops lineage).trans grown
    | some started =>
        obtain ⟨row, frame⟩ := started
        have same : (before.step hmac (.loop i now)).network.onAir =
            before.network.onAir ++ [⟨frame, oneMoreHop (before.network.carried i row)⟩] := by
          simp [Watched.step, Network.step, Network.loop, burst]
        rw [same] at member
        cases List.mem_append.mp member with
        | inl old => exact (spread.onAir air old hops lineage).trans grown
        | inr new =>
            rw [List.mem_singleton.mp new] at lineage
            obtain ⟨earlier, carried, value⟩ := Option.map_eq_some_iff.mp lineage
            obtain ⟨same, rfl⟩ := Prod.mk.inj value
            refine (spread.slots i row earlier.2 (turns.started row frame burst) ?_).trans grown
            rw [carried, ← same]
  · refine (spread.slots r k hops ?_ lineage).trans grown
    by_cases at_r : r = i
    · subst at_r
      exact pending k waits
    · rw [elsewhere r at_r] at waits
      exact waits

end Loop

section Invariants

variable {ι : Type} [DecidableEq ι] (hmac : Bytes → Bytes → Digest) (wave : Wave ι)

theorem hear_step (before : Watched ι) (i : ι) (c : Nat) (address : Mac) (now jitter : Millis) :
    before.step hmac (.hear i c address now (wave.online i) jitter) = before ∨
      ∃ copy, before.network.onAir[c]? = some copy ∧
        before.step hmac (.hear i c address now (wave.online i) jitter) = afterHearing wave before i c copy address now jitter := by
  cases found : before.network.onAir[c]? with
  | none =>
      have outside : ¬ c < before.network.onAir.length := Nat.not_lt.mpr (List.getElem?_eq_none_iff.mp found)
      left
      simp only [Watched.step, Network.step, found, if_neg outside]
  | some copy =>
      have inside : c < before.network.onAir.length := (List.getElem?_eq_some_iff.mp found).1
      right
      refine ⟨copy, rfl, ?_⟩
      simp only [Watched.step, Network.step, found, if_pos inside, afterHearing]

-- What every step of a wave keeps holds throughout.
theorem wave_invariant (holds : Watched ι → Prop) (initial : holds .start)
    (preserved : ∀ before action, wave.Allows action → Traced hmac before.network → FromVictims (· ∈ wave.known) before.network →
      holds before → holds (before.step hmac action))
    (actions : List (Action ι)) (allowed : ∀ action ∈ actions, wave.Allows action) : holds (Watched.run hmac actions) := by
  induction actions using List.reverseRecOn with
  | nil => exact initial
  | append_singleton past action ih =>
      have earlier : ∀ action ∈ past, wave.Allows action := fun action member => allowed action (List.mem_append_left _ member)
      have origin := run_origin hmac past
      have known : ∀ other, .sos other ∈ past → other ∈ wave.known := fun other member => earlier (.sos other) member
      rw [Watched.run, List.foldl_append]
      refine preserved _ action (allowed action (by simp)) ?_ ?_ (ih earlier)
      · exact (watched_network hmac past).symm ▸ run_traced hmac past
      · rw [← Watched.run, watched_network]
        exact ⟨fun copy member other hops lineage => known other (origin.onAir copy member other hops lineage),
          fun copy member other hops lineage => known other (origin.datagrams copy member other hops lineage),
          fun i k other hops lineage => known other (origin.slots i k other hops lineage)⟩

end Invariants

-- A run of a wave to its end: no packet waits any more, and every burst was
-- heard by all in reach of its sender.
structure SettledRun {ι : Type} [DecidableEq ι] (hmac : Bytes → Bytes → Digest) (wave : Wave ι) (reach : ι → ι → Prop)
    (actions : List (Action ι)) : Prop where
  allowed : ∀ action ∈ actions, wave.Allows action
  quiet : ∀ i k, ¬ Pending (read ((Watched.run hmac actions).network.relay i).cache k)
  overheard : ∀ (c : Nat) i j, (Watched.run hmac actions).sentBy[c]? = some (some i) → reach i j → (j, c) ∈ (Watched.run hmac actions).heard

def HeardSos {ι : Type} [DecidableEq ι] (hmac : Bytes → Bytes → Digest) (emergency : Emergency) (actions : List (Action ι)) (first : ι) : Prop :=
  ∃ c copy hops, (first, c) ∈ (Watched.run hmac actions).heard ∧ (Watched.run hmac actions).network.onAir[c]? = some copy ∧
    copy.lineage = some (emergency, hops)

-- Gateways do not pass packets on over the air.
structure Link {ι : Type} (wave : Wave ι) (reach : ι → ι → Prop) (i j : ι) : Prop where
  offline : wave.online i = false
  near : reach i j

section Run

variable {ι : Type} [Fintype ι] (hmac : Bytes → Bytes → Digest) (wave : Wave ι) (emergency : Emergency)

theorem start_spread : Spread hmac wave emergency .start := by
  have cell : ∀ (i : ι) (k : Slot), read ((Watched.start : Watched ι).network.relay i).cache k = CacheEntry.zero := fun _ k => read_blank k _
  have unused : ∀ (i : ι) (k : Slot), ¬ (read ((Watched.start : Watched ι).network.relay i).cache k).active = true := by
    intro i k
    rw [cell i k]
    exact Bool.false_ne_true
  exact ⟨rfl, rfl, fun _ => start_invariant,
    fun i => ⟨fun k active => absurd active (unused i k), fun k active => absurd active (unused i k), fun k active => absurd active (unused i k)⟩,
    fun i k pending => absurd pending.1 (unused i k), fun i k active => absurd active (unused i k), fun _ never => absurd never Bool.false_ne_true,
    fun _ member => absurd member List.not_mem_nil, fun i k _ pending => absurd pending.1 (unused i k),
    fun _ _ member => absurd member List.not_mem_nil⟩

variable [DecidableEq ι] (small : (Finset.univ.filter fun i => wave.online i = false).card ≤ 19)
  (own : ∀ other ∈ wave.known, sig hmac other = sig hmac emergency → other = emergency)

include small own

theorem step_spread (before : Watched ι) (action : Action ι) (allowed : wave.Allows action) (traced : Traced hmac before.network)
    (origin : FromVictims (· ∈ wave.known) before.network) (spread : Spread hmac wave emergency before) :
    Spread hmac wave emergency (before.step hmac action) := by
  cases action with
  | sos other => exact sos_spread hmac wave emergency before spread other
  | loop i now => exact loop_spread hmac wave emergency before spread i now traced origin own
  | hear i c address now wifi jitter =>
      obtain ⟨window, sender, rfl⟩ := allowed
      cases hear_step hmac wave before i c address now jitter with
      | inl same =>
          rw [same]
          exact spread
      | inr heard =>
          obtain ⟨copy, found, same⟩ := heard
          have member := List.mem_of_getElem? found
          obtain ⟨source, crossed, good⟩ := traced.onAir copy member
          have known := origin.onAir copy member source crossed good.1
          rw [same]
          exact hear_spread hmac wave emergency before spread i c copy address now jitter found window sender source crossed good known
            (own source known) small

theorem run_spread (actions : List (Action ι)) (allowed : ∀ action ∈ actions, wave.Allows action) :
    Spread hmac wave emergency (Watched.run hmac actions) :=
  wave_invariant hmac wave (Spread hmac wave emergency) (start_spread hmac wave emergency)
    (fun before action allows traced origin spread => step_spread hmac wave emergency small own before action allows traced origin spread)
    actions allowed

variable (reach : ι → ι → Prop) (actions : List (Action ι)) (run : SettledRun hmac wave reach actions) (first : ι)

include run

theorem reached_served (sos : HeardSos hmac emergency actions first) (i : ι) (path : Relation.ReflTransGen (Link wave reach) first i) :
    Served wave emergency (Watched.run hmac actions) i := by
  have spread := run_spread hmac wave emergency small own actions run.allowed
  have serves : ∀ r, Holds (sig hmac emergency) ((Watched.run hmac actions).network.relay r) → Served wave emergency (Watched.run hmac actions) r := by
    intro r holds
    obtain ⟨k, active, key⟩ := holds
    exact spread.served r k active key (Bool.not_eq_false _ ▸ fun waiting => run.quiet r k ⟨active, waiting⟩)
  have heard : ∀ (r : ι) (c : Nat) (copy : Copy) (hops : Nat), (r, c) ∈ (Watched.run hmac actions).heard →
      (Watched.run hmac actions).network.onAir[c]? = some copy → copy.lineage = some (emergency, hops) →
      Holds (sig hmac emergency) ((Watched.run hmac actions).network.relay r) := by
    intro r c copy hops member air lineage
    obtain ⟨itself, there, holds⟩ := spread.heard r c member
    obtain rfl : copy = itself := Option.some.inj (air.symm.trans there)
    exact holds hops lineage
  refine serves i ?_
  induction path with
  | refl =>
      obtain ⟨c, copy, hops, member, air, lineage⟩ := sos
      exact heard first c copy hops member air lineage
  | tail _ link ih =>
      obtain ⟨c, copy, hops, sender, air, lineage⟩ := (serves _ ih).relay link.offline
      exact heard _ c copy hops (run.overheard c _ _ sender link.near) air lineage

end Run

-- What a gateway has uploaded of an emergency the server reads as the victim
-- meant it.
theorem uploaded_report {ι : Type} [DecidableEq ι] (hmac : Bytes → Bytes → Digest) (actions : List (Action ι)) (emergency : Emergency) (i : ι)
    (uploaded : Uploaded emergency (Watched.run hmac actions) i) :
    ∃ (d : Nat) (datagram : Copy) (hops : Nat), (Watched.run hmac actions).uploadedBy[d]? = some i ∧
      (Network.run hmac actions).datagrams[d]? = some datagram ∧ CopyOf hmac emergency hops datagram ∧
      Scanner.decodeDatagram hmac datagram.frame = some (trueReport emergency hops) := by
  obtain ⟨d, datagram, hops, gateway, found, lineage⟩ := uploaded
  rw [watched_network] at found
  obtain ⟨source, crossed, good⟩ := (run_traced hmac actions).datagrams datagram (List.mem_of_getElem? found)
  obtain ⟨rfl, rfl⟩ := Prod.mk.inj (Option.some.inj (good.1.symm.trans lineage))
  have intact := aged_intact hmac source crossed good.2.1
  rw [← good.2.2] at intact
  exact ⟨d, datagram, crossed, gateway, found, good, intact.forwarded⟩

-- In a mesh of at most nineteen relays, each in reach of at most three
-- senders, a wave that has settled has brought every emergency to all that
-- relays connect to one which heard the victim: the relays among them have
-- sent it on, and each gateway has uploaded it, as the victim meant.
theorem wave_delivered {ι : Type} [DecidableEq ι] [Fintype ι] (hmac : Bytes → Bytes → Digest) (wave : Wave ι) (reach : ι → ι → Prop)
    (small : (Finset.univ.filter fun i => wave.online i = false).card ≤ 19) (emergency : Emergency)
    (own : ∀ other ∈ wave.known, sig hmac other = sig hmac emergency → other = emergency)
    (actions : List (Action ι)) (run : SettledRun hmac wave reach actions) (first : ι) (sos : HeardSos hmac emergency actions first)
    (i : ι) (path : Relation.ReflTransGen (Link wave reach) first i) :
    (wave.online i = false → SentOut emergency (Watched.run hmac actions) i) ∧
    (wave.online i = true → ∃ (d : Nat) (datagram : Copy) (hops : Nat), (Watched.run hmac actions).uploadedBy[d]? = some i ∧
      (Network.run hmac actions).datagrams[d]? = some datagram ∧ CopyOf hmac emergency hops datagram ∧
      Scanner.decodeDatagram hmac datagram.frame = some (trueReport emergency hops)) := by
  have served := reached_served hmac wave emergency small own reach actions run first sos i path
  exact ⟨served.relay, fun online => uploaded_report hmac actions emergency i (served.gateway online)⟩

-- A relay (false) between the victim and a gateway (true).
def pairWave : Wave Bool where
  online := id
  start := fun _ => 0
  macs := fun _ => {0xA1B2C3D4E5F6}
  known := {emergencyAt 10}
  fits := by decide
  few := by decide
  room := by decide

def pairActions : List (Action Bool) :=
  [.sos (emergencyAt 10), .hear false 0 0xA1B2C3D4E5F6 100 false 50, .loop false 150, .hear true 1 0xA1B2C3D4E5F6 200 true 50, .loop false 650]

theorem pair_copies : (Watched.run Scanner.echoRuntime.hmac pairActions).heard = [(false, 0), (true, 1)] := by decide +kernel

theorem pair_settled : SettledRun Scanner.echoRuntime.hmac pairWave (fun i j => i = false ∧ j = true) pairActions := by
  have senders : (Watched.run Scanner.echoRuntime.hmac pairActions).sentBy = [none, some false] := by decide +kernel
  refine ⟨by simp [pairActions, Wave.Allows, pairWave, InWindow], by decide +kernel, fun c i j sender near => ?_⟩
  obtain ⟨rfl, rfl⟩ := near
  rw [senders] at sender
  rw [pair_copies]
  rcases c with _ | _ | c
  · simp at sender
  · decide
  · simp at sender

theorem pair_heard : HeardSos Scanner.echoRuntime.hmac (emergencyAt 10) pairActions false := by
  have sos : ((Watched.run Scanner.echoRuntime.hmac pairActions).network.onAir[0]?).map Copy.lineage = some (some (emergencyAt 10, 0)) := by
    decide +kernel
  obtain ⟨copy, air, lineage⟩ := Option.map_eq_some_iff.mp sos
  exact ⟨0, copy, 0, by rw [pair_copies]; decide, air, lineage⟩

theorem pair_delivered :
    ∃ (d : Nat) (datagram : Copy) (hops : Nat), (Watched.run Scanner.echoRuntime.hmac pairActions).uploadedBy[d]? = some true ∧
      (Network.run Scanner.echoRuntime.hmac pairActions).datagrams[d]? = some datagram ∧
      CopyOf Scanner.echoRuntime.hmac (emergencyAt 10) hops datagram ∧
      Scanner.decodeDatagram Scanner.echoRuntime.hmac datagram.frame = some (trueReport (emergencyAt 10) hops) :=
  (wave_delivered Scanner.echoRuntime.hmac pairWave (fun i j => i = false ∧ j = true) (by decide) (emergencyAt 10)
    (fun other member _ => Finset.mem_singleton.mp member) pairActions pair_settled false pair_heard true (.single ⟨rfl, rfl, rfl⟩)).2 rfl

end BeaconMesh.Arduino
