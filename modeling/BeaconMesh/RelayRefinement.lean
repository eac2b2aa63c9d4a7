import BeaconMesh.RedundancyCount
import BeaconMesh.RelayBoard

set_option autoImplicit false

namespace BeaconMesh.Arduino

open Sweep History Refinement

def noteOf (entry : CacheEntry) : Note :=
  ⟨entry.packet, entry.expiresAt, entry.broadcastTime, recordedMacs entry, !entry.broadcasted⟩

def holder (cache : TimeAwareCache) (sig : HmacSig) : Option Slot := first (fun entry => entry.active && decide (entry.hmac = sig)) cache

def keyOf (entry : CacheEntry) : Option HmacSig := if entry.active then some entry.hmac else none

def shownSig (state : RelayState) : Option HmacSig :=
  if inside : 0 ≤ state.currentBroadcastIndex ∧ state.currentBroadcastIndex.toNat < cacheSize then
    keyOf (read state.cache ⟨state.currentBroadcastIndex.toNat, inside.2⟩)
  else none

def boardOf (state : RelayState) : Board :=
  { notes := fun sig => (holder state.cache sig).map fun k => noteOf (read state.cache k)
    onAir := if state.isBroadcasting then some (state.broadcastEndTime, shownSig state) else none }

-- The row carries this note.
structure Noted (entry : CacheEntry) (sig : HmacSig) (note : Note) : Prop where
  active : entry.active = true
  key : entry.hmac = sig
  shown : noteOf entry = note

theorem unfaded_iff (now : Millis) (notes : Notes) (sig : HmacSig) (note : Note) :
    unfaded now notes sig = some note ↔ notes sig = some note ∧ now < note.fades := by
  rw [unfaded, Option.filter_eq_some_iff, decide_eq_true_eq]

theorem purge_noted (now : Millis) (entry : CacheEntry) (sig : HmacSig) (note : Note) :
    Noted (purge now entry) sig note ↔ Noted entry sig note ∧ now < note.fades := by
  by_cases live : Live now entry
  · rw [purge_live now entry live]
    refine ⟨fun noted => ⟨noted, ?_⟩, And.left⟩
    rw [← noted.shown]
    exact live.2
  · rw [purge_dead now entry live]
    constructor
    · intro noted
      exact absurd noted.active Bool.false_ne_true
    · intro both
      obtain ⟨noted, fresh⟩ := both
      rw [← noted.shown] at fresh
      exact absurd ⟨noted.active, fresh⟩ live

section Notes

variable (state : RelayState) (keys : DistinctKeys state.cache)

include keys

theorem noted_iff (sig : HmacSig) (note : Note) :
    (boardOf state).notes sig = some note ↔ ∃ k, Noted (read state.cache k) sig note := by
  have holds : ∀ k, (read state.cache k).active = true → (read state.cache k).hmac = sig →
      ((read state.cache k).active && decide ((read state.cache k).hmac = sig)) = true := by
    intro k active key
    rw [active, decide_eq_true key]
    rfl
  rw [boardOf, Option.map_eq_some_iff]
  constructor
  · intro found
    obtain ⟨k, here, rfl⟩ := found
    obtain ⟨test, _⟩ := (first_some_iff _ _ _).mp here
    rw [Bool.and_eq_true, decide_eq_true_eq] at test
    exact ⟨k, test.1, test.2, rfl⟩
  · intro found
    obtain ⟨k, noted⟩ := found
    cases here : holder state.cache sig with
    | none =>
        have nowhere := (first_none_iff _ _).mp here k
        rw [holds k noted.active noted.key] at nowhere
        exact absurd nowhere.symm Bool.false_ne_true
    | some j =>
        obtain ⟨test, _⟩ := (first_some_iff _ _ _).mp here
        rw [Bool.and_eq_true, decide_eq_true_eq] at test
        obtain rfl : j = k := keys j k test.1 noted.active (test.2.trans noted.key.symm)
        exact ⟨j, rfl, noted.shown⟩

theorem noted_row (k : Slot) (active : (read state.cache k).active = true) :
    (boardOf state).notes (read state.cache k).hmac = some (noteOf (read state.cache k)) :=
  (noted_iff state keys _ _).mpr ⟨k, active, rfl, rfl⟩

theorem unfaded_noted_iff (now : Millis) (sig : HmacSig) (note : Note) :
    unfaded now (boardOf state).notes sig = some note ↔ ∃ k, Noted (purge now (read state.cache k)) sig note := by
  rw [unfaded_iff, noted_iff state keys]
  simp only [purge_noted]
  exact exists_and_right.symm

theorem absent_iff (now : Millis) (sig : HmacSig) :
    unfaded now (boardOf state).notes sig = none ↔ NoMatch now sig state.cache := by
  rw [Option.eq_none_iff_forall_not_mem]
  constructor
  · intro none k match_
    exact none _ ((unfaded_noted_iff state keys now sig _).mpr
      ⟨k, by rw [purge_live now _ match_.1]; exact ⟨match_.1.1, match_.2, rfl⟩⟩)
  · intro absent note some
    obtain ⟨k, noted⟩ := (unfaded_noted_iff state keys now sig note).mp some
    exact absent k ⟨(purge_active now _).mp noted.active, (purge_hmac now _).symm.trans noted.key⟩

end Notes

theorem shown_at (state : RelayState) (k : Slot) (index : state.currentBroadcastIndex = k.val) :
    shownSig state = keyOf (read state.cache k) := by
  have bound : k.val < cacheSize := k.isLt
  have inside : 0 ≤ state.currentBroadcastIndex ∧ state.currentBroadcastIndex.toNat < cacheSize := by omega
  have slot : (⟨state.currentBroadcastIndex.toNat, inside.2⟩ : Slot) = k := Fin.ext (by simp only; omega)
  rw [shownSig, dif_pos inside, slot]

-- The burst goes with its row: what is shown stays as long as the row keeps
-- its entry.
structure Succeeds (before after : RelayState) (left : Slot → Prop) (kept : Notes) (added : Option HmacSig) : Prop where
  was : ∀ k, left k → (read before.cache k).active = true
  survive : ∀ sig, (kept sig).isSome = true ↔ ∃ k, left k ∧ (read before.cache k).hmac = sig
  stays : ∀ k, left k → keyOf (read after.cache k) = keyOf (read before.cache k)
  goes : ∀ k, ¬ left k → keyOf (read after.cache k) = none ∨ keyOf (read after.cache k) = added

theorem key_some (entry : CacheEntry) (sig : HmacSig) : keyOf entry = some sig ↔ entry.active = true ∧ entry.hmac = sig := by
  rw [keyOf, Option.ite_none_right_eq_some, Option.some.injEq]

theorem burst_follows (before after : RelayState) (inv : CacheInvariant before) (burst : SameBurst before after)
    (left : Slot → Prop) (kept : Notes) (added : Option HmacSig) (succeeds : Succeeds before after left kept added) :
    Follows kept added (boardOf before).onAir (boardOf after).onAir := by
  cases busy : before.isBroadcasting with
  | false =>
      have idle := burst.broadcasting.trans busy
      simp [boardOf, busy, idle, Follows]
  | true =>
      obtain ⟨low, high⟩ := inv.index busy
      obtain ⟨k, index⟩ : ∃ k : Slot, before.currentBroadcastIndex = k.val :=
        ⟨⟨before.currentBroadcastIndex.toNat, by omega⟩, by simp only; omega⟩
      have onAir : (boardOf before).onAir = some (before.broadcastEndTime, keyOf (read before.cache k)) := by
        rw [boardOf, busy, shown_at before k index]
        rfl
      have next : (boardOf after).onAir = some (before.broadcastEndTime, keyOf (read after.cache k)) := by
        rw [boardOf, burst.broadcasting, busy, burst.endTime, shown_at after k (burst.index.trans index)]
        rfl
      rw [onAir, next]
      refine ⟨_, rfl, ?_⟩
      by_cases here : left k
      · have active := succeeds.was k here
        have shown : keyOf (read before.cache k) = some (read before.cache k).hmac := (key_some _ _).mpr ⟨active, rfl⟩
        rw [succeeds.stays k here, shown, Option.bind_some, if_pos ((succeeds.survive _).mpr ⟨k, here, rfl⟩)]
      · rw [if_neg]
        · exact succeeds.goes k here
        · intro lasting
          cases shown : keyOf (read before.cache k) with
          | none =>
              rw [shown] at lasting
              exact Bool.false_ne_true lasting
          | some sig =>
              rw [shown, Option.bind_some] at lasting
              obtain ⟨j, there, key⟩ := (succeeds.survive sig).mp lasting
              obtain ⟨active, own⟩ := (key_some _ _).mp shown
              obtain rfl := inv.keys j k (succeeds.was j there) active (key.trans own.symm)
              exact here there

section Purges

variable (before after : RelayState) (inv : CacheInvariant before) (next : CacheInvariant after) (now : Millis)

include inv

theorem purged_survive (sig : HmacSig) :
    (unfaded now (boardOf before).notes sig).isSome = true ↔ ∃ k, Live now (read before.cache k) ∧ (read before.cache k).hmac = sig := by
  rw [Option.isSome_iff_exists]
  constructor
  · intro found
    obtain ⟨note, some⟩ := found
    obtain ⟨k, noted⟩ := (unfaded_noted_iff before inv.keys now sig note).mp some
    exact ⟨k, (purge_active now _).mp noted.active, (purge_hmac now _).symm.trans noted.key⟩
  · intro found
    obtain ⟨k, live, key⟩ := found
    have noted : Noted (purge now (read before.cache k)) sig (noteOf (read before.cache k)) := by
      rw [purge_live now _ live]
      exact ⟨live.1, key, rfl⟩
    exact ⟨_, (unfaded_noted_iff before inv.keys now sig _).mpr ⟨k, noted⟩⟩

include next

theorem purged_notes (cells : ∀ k, read after.cache k = purge now (read before.cache k)) :
    (boardOf after).notes = unfaded now (boardOf before).notes := by
  funext sig
  refine Option.ext fun note => ?_
  rw [noted_iff after next.keys, unfaded_noted_iff before inv.keys]
  simp only [cells]

theorem drop_move (device : Advertisement) (jitter : Millis) (payloadRaw : Bytes) (packet : EmergencyPacket)
    (room : Millis → Notes → Notes → Prop) (received : receivedPacket device = some (payloadRaw, packet))
    (absent : NoMatch now packet.hmacSig before.cache) (spent : (ttlOf packet.flags).toNat ≤ 1)
    (purged : after.cache = mapCells (purge now) before.cache) (burst : SameBurst before after) :
    BoardMove room (boardOf before) (.onResult device now false jitter) .dropped (boardOf after) := by
  have cells : ∀ k, read after.cache k = purge now (read before.cache k) := fun k => by rw [purged, read_map]
  have notes := purged_notes before after inv next now cells
  refine .dropped device now jitter payloadRaw packet _ received ((absent_iff before inv.keys now _).mpr absent) spent notes ?_
  refine burst_follows before after inv burst (fun k => Live now (read before.cache k)) _ _ ⟨fun k live => live.1, ?_, ?_, ?_⟩
  · rw [notes]
    exact purged_survive before inv now
  · intro k live
    rw [cells k, purge_live now _ live]
  · intro k dead
    rw [cells k, purge_dead now _ dead]
    exact Or.inl rfl

end Purges

theorem note_hear (entry : CacheEntry) (mac : Mac) (good : GoodEntry entry) (active : entry.active = true) :
    noteOf (recordMac entry mac) = (noteOf entry).hear mac := by
  have card := recorded_card entry good active
  have senders : recordedMacs (recordMac entry mac) =
      if (recordedMacs entry).card < 4 then insert mac (recordedMacs entry) else recordedMacs entry := by
    rw [card]
    cases known : macKnown entry mac with
    | true =>
        have member := (mem_recorded entry mac).mpr known
        rw [recordMac, if_pos known, Finset.insert_eq_self.mpr member, ite_self]
    | false =>
        by_cases room : entry.rxCount.toNat < maxTrackedMacs
        · rw [recorded_record entry mac known room, if_pos room]
        · rw [recordMac, if_neg (by simp [known]), dif_neg room, if_neg room]
  rw [noteOf, noteOf, Note.hear, senders, record_packet, record_expires, record_time, record_broadcasted]

section Hit

variable (before after : RelayState) (inv : CacheInvariant before) (next : CacheInvariant after) (device : Advertisement) (now : Millis)
  (location : Slot) (live : Live now (read before.cache location))
  (recorded : read after.cache location = recordMac (read before.cache location) device.address)
  (others : ∀ i, i ≠ location → read after.cache i = read before.cache i ∨ read after.cache i = purge now (read before.cache i))

include inv recorded others

theorem hit_rows (k : Slot) (active : (read after.cache k).active = true) :
    (read before.cache k).active = true ∧ (read after.cache k).hmac = (read before.cache k).hmac :=
  (hit_cells before after device now location inv recorded others k).2 active

include next

-- Every other note stays, or has faded and may be gone.
theorem hit_elsewhere (sig : HmacSig) (other : sig ≠ (read before.cache location).hmac) :
    (boardOf after).notes sig = (boardOf before).notes sig ∨ (boardOf after).notes sig = unfaded now (boardOf before).notes sig := by
  have rows := hit_rows before after inv device now location recorded others
  cases found : (boardOf before).notes sig with
  | none =>
      left
      refine Option.eq_none_iff_forall_not_mem.mpr fun note member => ?_
      obtain ⟨k, noted⟩ := (noted_iff after next.keys sig note).mp member
      obtain ⟨active, key⟩ := rows k noted.active
      have there := noted_row before inv.keys k active
      rw [← key, noted.key, found] at there
      exact absurd there.symm (Option.some_ne_none _)
  | some note =>
      obtain ⟨k, noted⟩ := (noted_iff before inv.keys sig note).mp found
      have elsewhere : k ≠ location := fun same => other (same ▸ noted.key.symm)
      cases others k elsewhere with
      | inl same =>
          left
          refine (noted_iff after next.keys sig note).mpr ⟨k, ?_⟩
          rw [same]
          exact noted
      | inr purged =>
          right
          refine Option.ext fun shown => ?_
          rw [noted_iff after next.keys, unfaded_noted_iff before inv.keys]
          constructor
          · intro there
            obtain ⟨j, itself⟩ := there
            obtain ⟨active, key⟩ := rows j itself.active
            obtain rfl := inv.keys j k active noted.active (key.symm.trans (itself.key.trans noted.key.symm))
            exact ⟨j, purged ▸ itself⟩
          · intro there
            obtain ⟨j, itself⟩ := there
            have before_ := ((purge_noted now _ sig shown).mp itself).1
            obtain rfl := inv.keys j k before_.active noted.active (before_.key.trans noted.key.symm)
            exact ⟨j, purged ▸ itself⟩

include live

omit others in
theorem hit_noted : (boardOf after).notes (read before.cache location).hmac = some ((noteOf (read before.cache location)).hear device.address) := by
  have row := noted_row after next.keys location (by rw [recorded, record_active]; exact live.1)
  rw [recorded, record_hmac, note_hear _ _ (inv.entries location) live.1] at row
  exact row

theorem hit_follows (burst : SameBurst before after) :
    Follows (Function.update (boardOf after).notes (read before.cache location).hmac (some (noteOf (read before.cache location)))) none
      (boardOf before).onAir (boardOf after).onAir := by
  have rows := hit_rows before after inv device now location recorded others
  have stands : (read after.cache location).active = true := by rw [recorded, record_active]; exact live.1
  refine burst_follows before after inv burst (fun k => (read after.cache k).active = true) _ _
    ⟨fun k active => (rows k active).1, fun sig => ?_, fun k active => ?_, fun k inactive => ?_⟩
  · by_cases own : sig = (read before.cache location).hmac
    · rw [own, Function.update_self]
      exact iff_of_true rfl ⟨location, stands, rfl⟩
    · rw [Function.update_of_ne own, Option.isSome_iff_exists]
      constructor
      · intro found
        obtain ⟨note, some⟩ := found
        obtain ⟨k, noted⟩ := (noted_iff after next.keys sig note).mp some
        exact ⟨k, noted.active, (rows k noted.active).2.symm.trans noted.key⟩
      · intro found
        obtain ⟨k, active, key⟩ := found
        have row := noted_row after next.keys k active
        rw [(rows k active).2, key] at row
        exact ⟨_, row⟩
  · rw [keyOf, keyOf, if_pos active, if_pos (rows k active).1, (rows k active).2]
  · rw [keyOf, if_neg inactive]
    exact Or.inl rfl

theorem hit_move (jitter : Millis) (wifi : Bool) (payloadRaw : Bytes) (packet : EmergencyPacket) (room : Millis → Notes → Notes → Prop)
    (received : receivedPacket device = some (payloadRaw, packet)) (key : (read before.cache location).hmac = packet.hmacSig)
    (burst : SameBurst before after) :
    BoardMove room (boardOf before) (.onResult device now wifi jitter) .repeated (boardOf after) := by
  have known := noted_row before inv.keys location live.1
  have heard := hit_noted before after inv next device now location live recorded
  have follows := hit_follows before after inv next device now location live recorded others burst
  rw [key] at known heard follows
  refine .repeated device now wifi jitter payloadRaw packet (noteOf (read before.cache location)) _ _ received
    ((unfaded_iff now _ _ _).mpr ⟨known, live.2⟩) (fun sig => ?_) ?_ follows
  · by_cases own : sig = packet.hmacSig
    · left
      rw [own, Function.update_self, known]
    · rw [Function.update_of_ne own]
      exact hit_elsewhere before after inv next device now location recorded others sig (key ▸ own)
  · rw [Function.update_idem, ← heard, Function.update_eq_self]

end Hit

-- What the board keeps when a note is put up.
def roomFor (now : Millis) (state : RelayState) : Notes :=
  let oldest := read state.cache (targetSlot state.cache now)
  if Live now oldest then Function.update (unfaded now (boardOf state).notes) oldest.hmac none
  else unfaded now (boardOf state).notes

section Room

variable (state : RelayState) (inv : CacheInvariant state) (now : Millis)

include inv

theorem room_iff (sig : HmacSig) (note : Note) :
    roomFor now state sig = some note ↔ ∃ k, k ≠ targetSlot state.cache now ∧ Noted (purge now (read state.cache k)) sig note := by
  have whole := unfaded_noted_iff state inv.keys now sig note
  rw [roomFor]
  by_cases live : Live now (read state.cache (targetSlot state.cache now))
  · rw [if_pos live]
    by_cases own : sig = (read state.cache (targetSlot state.cache now)).hmac
    · rw [own, Function.update_self]
      refine iff_of_false (Option.some_ne_none note).symm fun found => ?_
      obtain ⟨k, other, noted⟩ := found
      have held := ((purge_noted now _ _ _).mp noted).1
      exact other (inv.keys k _ held.active live.1 held.key)
    · rw [Function.update_of_ne own, whole]
      refine ⟨fun found => ?_, fun found => ?_⟩
      · obtain ⟨k, noted⟩ := found
        have key := ((purge_noted now _ _ _).mp noted).1.key
        exact ⟨k, fun same => own (same ▸ key.symm), noted⟩
      · obtain ⟨k, _, noted⟩ := found
        exact ⟨k, noted⟩
  · rw [if_neg live, whole]
    refine ⟨fun found => ?_, fun found => ?_⟩
    · obtain ⟨k, noted⟩ := found
      have stands := (purge_active now _).mp noted.active
      exact ⟨k, fun same => live (same ▸ stands), noted⟩
    · obtain ⟨k, _, noted⟩ := found
      exact ⟨k, noted⟩

theorem live_signatures :
    {sig | (unfaded now (boardOf state).notes sig).isSome = true} =
      ((Finset.univ.filter fun k => Live now (read state.cache k)).image fun k => (read state.cache k).hmac : Finset HmacSig) := by
  ext sig
  simp [purged_survive state inv now sig]

theorem room_made : MadeRoom now (boardOf state).notes (roomFor now state) := by
  rw [MadeRoom, Full, live_signatures state inv now, Set.ncard_coe_finset, roomFor]
  cases target_free_or_oldest state.cache now with
  | inl free =>
      left
      rw [if_neg free]
      refine ⟨not_le.mpr ?_, rfl⟩
      have outside : targetSlot state.cache now ∉ Finset.univ.filter fun k => Live now (read state.cache k) := fun member =>
        free (Finset.mem_filter.mp member).2
      calc _ ≤ (Finset.univ.filter fun k => Live now (read state.cache k)).card := Finset.card_image_le
        _ < Fintype.card Slot := Finset.card_lt_univ_of_notMem outside
        _ = 256 := Fintype.card_fin 256
  | inr full =>
      obtain ⟨all, least⟩ := full
      have live := all (targetSlot state.cache now)
      right
      rw [if_pos live]
      refine ⟨?_, _, noteOf (read state.cache (targetSlot state.cache now)), ?_, fun sig other found => ?_, rfl⟩
      · have every : (Finset.univ.filter fun k => Live now (read state.cache k)) = Finset.univ :=
          Finset.filter_true_of_mem fun k _ => all k
        have distinct : Function.Injective fun k => (read state.cache k).hmac := fun i j same =>
          inv.keys i j (all i).1 (all j).1 same
        rw [every, Finset.card_image_of_injective _ distinct, Finset.card_univ]
        exact (Fintype.card_fin 256).ge
      · exact (unfaded_iff now _ _ _).mpr ⟨noted_row state inv.keys _ live.1, live.2⟩
      · obtain ⟨k, noted⟩ := (unfaded_noted_iff state inv.keys now sig other).mp found
        have held := ((purge_noted now _ _ _).mp noted).1
        rw [← held.shown]
        exact least k

end Room

section Store

variable (before after : RelayState) (inv : CacheInvariant before) (next : CacheInvariant after) (now : Millis) (sig : HmacSig)
  (absent : NoMatch now sig before.cache) (key : (read after.cache (targetSlot before.cache now)).hmac = sig)
  (others : ∀ i, i ≠ targetSlot before.cache now → read after.cache i = purge now (read before.cache i))

include inv others

theorem store_follows (burst : SameBurst before after) :
    Follows (roomFor now before) (keyOf (read after.cache (targetSlot before.cache now))) (boardOf before).onAir (boardOf after).onAir := by
  refine burst_follows before after inv burst (fun k => k ≠ targetSlot before.cache now ∧ Live now (read before.cache k)) _ _
    ⟨fun k left => left.2.1, fun other => ?_, fun k left => ?_, fun k gone => ?_⟩
  · rw [Option.isSome_iff_exists]
    simp only [room_iff before inv now]
    constructor
    · intro found
      obtain ⟨note, k, elsewhere, noted⟩ := found
      exact ⟨k, ⟨elsewhere, (purge_active now _).mp noted.active⟩, (purge_hmac now _).symm.trans noted.key⟩
    · intro found
      obtain ⟨k, left, own⟩ := found
      refine ⟨noteOf (read before.cache k), k, left.1, ?_⟩
      rw [purge_live now _ left.2]
      exact ⟨left.2.1, own, rfl⟩
  · rw [others k left.1, purge_live now _ left.2]
  · by_cases here : k = targetSlot before.cache now
    · right
      rw [here]
    · left
      rw [others k here, purge_dead now _ fun live => gone ⟨here, live⟩]
      rfl

include next absent key

theorem store_notes :
    (boardOf after).notes = Function.update (roomFor now before) sig
      (if (read after.cache (targetSlot before.cache now)).active = true then some (noteOf (read after.cache (targetSlot before.cache now)))
      else none) := by
  funext other
  refine Option.ext fun note => ?_
  rw [noted_iff after next.keys]
  by_cases own : other = sig
  · rw [own, Function.update_self, Option.ite_none_right_eq_some, Option.some.injEq]
    constructor
    · intro found
      obtain ⟨k, noted⟩ := found
      have here : k = targetSlot before.cache now := by
        by_contra elsewhere
        rw [others k elsewhere] at noted
        exact absent k ⟨(purge_active now _).mp noted.active, (purge_hmac now _).symm.trans noted.key⟩
      rw [here] at noted
      exact ⟨noted.active, noted.shown⟩
    · intro shown
      exact ⟨_, shown.1, key, shown.2⟩
  · rw [Function.update_of_ne own, room_iff before inv now]
    constructor
    · intro found
      obtain ⟨k, noted⟩ := found
      have elsewhere : k ≠ targetSlot before.cache now := fun here => own (noted.key.symm.trans (here ▸ key))
      exact ⟨k, elsewhere, others k elsewhere ▸ noted⟩
    · intro found
      obtain ⟨k, elsewhere, noted⟩ := found
      exact ⟨k, (others k elsewhere).symm ▸ noted⟩

end Store

theorem fresh_note (old : CacheEntry) (hmac : HmacSig) (packet : EmergencyPacket) (now jitter : Millis) (mac : Mac) :
    noteOf (freshEntry old hmac packet now jitter mac) = ⟨packet, now + cacheTtlMs, now + jitter, {mac}, true⟩ := by
  have senders := recorded_fresh (freshEntry old hmac packet now jitter mac) mac rfl (read_write_self _ _ _)
  rw [noteOf, senders]
  rfl

theorem note_marked (entry : CacheEntry) : noteOf (markBroadcasted entry) = (noteOf entry).done := rfl

section Callback

variable (before after : RelayState) (inv : CacheInvariant before) (next : CacheInvariant after) (device : Advertisement)
  (now jitter : Millis) (payloadRaw : Bytes) (packet : EmergencyPacket)
  (received : receivedPacket device = some (payloadRaw, packet)) (absent : NoMatch now packet.hmacSig before.cache)
  (burst : SameBurst before after)

include inv next received absent burst

theorem accept_move (hops : 2 ≤ (ttlOf packet.flags).toNat)
    (stored : after.cache = (addToCache before.cache packet.hmacSig (relayedPacket packet) now jitter device.address).2) :
    BoardMove MadeRoom (boardOf before) (.onResult device now false jitter) .accepted (boardOf after) := by
  have target := add_entry_target before.cache packet.hmacSig (relayedPacket packet) now jitter device.address
  have others : ∀ i, i ≠ targetSlot before.cache now → read after.cache i = purge now (read before.cache i) := fun i other => by
    rw [stored, add_entry_other _ _ _ _ _ _ i other]
  rw [← stored] at target
  have key : (read after.cache (targetSlot before.cache now)).hmac = packet.hmacSig := by rw [target]; rfl
  have noted := store_notes before after inv next now packet.hmacSig absent key others
  have follows := store_follows before after inv now others burst
  rw [target] at noted follows
  rw [fresh_note] at noted
  exact .accepted device now jitter payloadRaw packet _ _ received ((absent_iff before inv.keys now _).mpr absent) hops
    (room_made before inv now) noted follows

theorem upload_move
    (stored : after.cache = write (addToCache before.cache packet.hmacSig packet now 0 device.address).2 (targetSlot before.cache now)
      (gatewayEntry now (freshEntry (purge now (read before.cache (targetSlot before.cache now))) packet.hmacSig packet now 0 device.address))) :
    BoardMove MadeRoom (boardOf before) (.onResult device now true jitter) (.uploaded (udpBurst payloadRaw)) (boardOf after) := by
  have target := read_write_self (addToCache before.cache packet.hmacSig packet now 0 device.address).2
    (targetSlot before.cache now) (gatewayEntry now
      (freshEntry (purge now (read before.cache (targetSlot before.cache now))) packet.hmacSig packet now 0 device.address))
  rw [← stored] at target
  have others : ∀ i, i ≠ targetSlot before.cache now → read after.cache i = purge now (read before.cache i) := fun i other => by
    rw [stored, read_write_ne _ _ _ _ other, add_entry_other _ _ _ _ _ _ i other]
  have key : (read after.cache (targetSlot before.cache now)).hmac = packet.hmacSig := by
    rw [target, gatewayEntry]
    split <;> rfl
  have noted := store_notes before after inv next now packet.hmacSig absent key others
  have follows := store_follows before after inv now others burst
  have gone := (absent_iff before inv.keys now _).mpr absent
  rw [target, gatewayEntry] at noted follows
  refine .uploaded device now jitter payloadRaw packet _ _ received gone (room_made before inv now) ?_ ?_
  · by_cases lasting : now < now + cacheTtlMs
    · rw [if_pos lasting] at noted ⊢
      have atOnce : now + 0 = now := BitVec.add_zero now
      rw [note_marked, fresh_note, atOnce] at noted
      exact noted
    · rw [if_neg lasting] at noted ⊢
      exact noted
  · by_cases lasting : now < now + cacheTtlMs
    · rw [if_pos lasting] at follows ⊢
      exact follows
    · rw [if_neg lasting] at follows ⊢
      exact follows

end Callback

section Loop

variable (before after : RelayState) (inv : CacheInvariant before) (next : CacheInvariant after)

include inv next

theorem marked_notes (rows : Slot → Prop) (sigs : Finset HmacSig)
    (marks : ∀ k, (read before.cache k).active = true → ((read before.cache k).hmac ∈ sigs ↔ rows k))
    (marked : ∀ k, rows k → read after.cache k = markBroadcasted (read before.cache k))
    (kept : ∀ k, ¬ rows k → read after.cache k = read before.cache k) :
    (boardOf after).notes = doneAt sigs (boardOf before).notes := by
  funext sig
  refine Option.ext fun note => ?_
  rw [noted_iff after next.keys, doneAt]
  by_cases chosen : sig ∈ sigs
  · rw [if_pos chosen, Option.map_eq_some_iff]
    simp only [noted_iff before inv.keys]
    constructor
    · intro found
      obtain ⟨k, noted⟩ := found
      by_cases row : rows k
      · rw [marked k row] at noted
        exact ⟨noteOf (read before.cache k), ⟨k, noted.active, noted.key, rfl⟩, (note_marked _).symm.trans noted.shown⟩
      · rw [kept k row] at noted
        exact absurd ((marks k noted.active).mp (noted.key.symm ▸ chosen)) row
    · intro found
      obtain ⟨old, ⟨k, noted⟩, rfl⟩ := found
      have row := (marks k noted.active).mp (noted.key.symm ▸ chosen)
      refine ⟨k, ?_⟩
      rw [marked k row]
      exact ⟨noted.active, noted.key, (note_marked _).trans (congrArg Note.done noted.shown)⟩
  · rw [if_neg chosen, noted_iff before inv.keys]
    refine exists_congr fun k => ?_
    by_cases row : rows k
    · rw [marked k row]
      constructor
      · intro noted
        exact absurd (noted.key ▸ (marks k noted.active).mpr row) chosen
      · intro noted
        exact absurd (noted.key ▸ (marks k noted.active).mpr row) chosen
    · rw [kept k row]

theorem ended_move (now : Millis) (busy : before.isBroadcasting = true) (late : before.broadcastEndTime ≤ now)
    (ended : after = { before with
      isBroadcasting := false
      cache := indexedWrite before.cache before.currentBroadcastIndex }) :
    BoardMove MadeRoom (boardOf before) (.loop now) .ended (boardOf after) := by
  obtain ⟨low, high⟩ := inv.index busy
  obtain ⟨row, index⟩ : ∃ k : Slot, before.currentBroadcastIndex = k.val :=
    ⟨⟨before.currentBroadcastIndex.toNat, by omega⟩, by simp only; omega⟩
  have cells : ∀ k, read after.cache k = if row = k then markBroadcasted (read before.cache k) else read before.cache k := by
    intro k
    rw [ended]
    dsimp only
    rw [indexed_write_entry, index]
    simp only [Int.natCast_inj, Fin.val_inj]
  have onAir : (boardOf before).onAir = some (before.broadcastEndTime, keyOf (read before.cache row)) := by
    rw [boardOf, busy, shown_at before row index]
    rfl
  have notes := marked_notes before after inv next (row = ·) (keyOf (read before.cache row)).toFinset
    (fun k active => by
      rw [Option.mem_toFinset, Option.mem_def, key_some]
      refine ⟨fun shown => inv.keys row k shown.1 active shown.2, ?_⟩
      rintro rfl
      exact ⟨active, rfl⟩)
    (fun k here => by rw [cells k, if_pos here]) (fun k other => by rw [cells k, if_neg other])
  have quiet : (boardOf after).onAir = none := by rw [ended]; rfl
  have board : boardOf after = ⟨doneAt (keyOf (read before.cache row)).toFinset (boardOf before).notes, none⟩ := by
    rw [← notes, ← quiet]
  rw [board]
  exact .ended now _ _ onAir late

omit next in
theorem ready_row (now : Millis) (k : Slot) (due : Due now (read before.cache k)) :
    (noteOf (read before.cache k)).Ready now ∧
      ((noteOf (read before.cache k)).senders.card < 4 ↔ (read before.cache k).rxCount < redundancy) := by
  have card := recorded_card _ (inv.entries k) due.1.1
  refine ⟨⟨?_, due.2⟩, ?_⟩
  · rw [noteOf, due.1.2]
    rfl
  · have below : (read before.cache k).rxCount < redundancy ↔ (read before.cache k).rxCount.toNat < 4 := UInt8.lt_iff_toNat_lt
    rw [noteOf, card]
    exact below.symm

omit next in
theorem crowded_iff (now : Millis) (sig : HmacSig) :
    Crowded now (boardOf before).notes sig ↔
      ∃ k, (Due now (read before.cache k) ∧ ¬ (read before.cache k).rxCount < redundancy) ∧ (read before.cache k).hmac = sig := by
  constructor
  · intro crowded
    obtain ⟨note, found, ready, many⟩ := crowded
    obtain ⟨k, noted⟩ := (noted_iff before inv.keys sig note).mp found
    obtain rfl := noted.shown
    have due : Due now (read before.cache k) := ⟨⟨noted.active, by simpa [noteOf] using ready.1⟩, ready.2⟩
    exact ⟨k, ⟨due, fun few => not_lt.mpr many ((ready_row before inv now k due).2.mpr few)⟩, noted.key⟩
  · intro found
    obtain ⟨k, ⟨due, heard⟩, rfl⟩ := found
    obtain ⟨ready, few⟩ := ready_row before inv now k due
    exact ⟨_, noted_row before inv.keys k due.1.1, ready, not_lt.mp fun less => heard (few.mp less)⟩

-- The rows a scan cancels, as signatures.
def signaturesAt (cache : TimeAwareCache) (rows : List Slot) : Finset HmacSig := rows.toFinset.image fun k => (read cache k).hmac

omit next in
theorem signatures_card (rows : List Slot) (distinct : rows.Nodup) (active : ∀ k ∈ rows, (read before.cache k).active = true) :
    (signaturesAt before.cache rows).card = rows.length := by
  rw [signaturesAt, Finset.card_image_of_injOn, List.toFinset_card_of_nodup distinct]
  intro i first j second same
  exact inv.keys i j (active i (by simpa using first)) (active j (by simpa using second)) same

theorem cancelled_notes (rows : List Slot) (active : ∀ k ∈ rows, (read before.cache k).active = true)
    (cells : ∀ k, read after.cache k = if k ∈ rows then markBroadcasted (read before.cache k) else read before.cache k) :
    (boardOf after).notes = doneAt (signaturesAt before.cache rows) (boardOf before).notes := by
  refine marked_notes before after inv next (· ∈ rows) _ (fun k stands => ?_) (fun k here => by rw [cells k, if_pos here])
    (fun k other => by rw [cells k, if_neg other])
  simp only [signaturesAt, Finset.mem_image, List.mem_toFinset]
  constructor
  · intro found
    obtain ⟨j, here, same⟩ := found
    exact inv.keys j k (active j here) stands same ▸ here
  · intro here
    exact ⟨k, here, rfl⟩

end Loop

theorem cancelled_distinct (now : Millis) (cache : TimeAwareCache) (location : Option Slot) : (cancelledRows now cache location).Nodup := by
  rw [cancelledRows, filter_indexed]
  exact (List.nodup_finRange cacheSize).filter _

theorem scanned_distinct (state : RelayState) (now : Millis) (cancelled : List Slot) (burst : Option (Slot × Bytes))
    (scanned : (loop state now).2 = .scanned cancelled burst) : cancelled.Nodup := by
  unfold loop at scanned
  split at scanned
  · split at scanned <;> exact Output.noConfusion scanned
  · dsimp only at scanned
    split at scanned
    · rw [← (Output.scanned.inj scanned).1]
      exact cancelled_distinct _ _ _
    · rw [← (Output.scanned.inj scanned).1]
      exact cancelled_distinct _ _ _

theorem loop_move (state : RelayState) (inv : CacheInvariant state) (now : Millis) :
    BoardMove MadeRoom (boardOf state) (.loop now) (effectOf (loop state now).2) (boardOf (loop state now).1) := by
  have effect := loop_effect state now
  have next := loop_invariant _ _ now _ inv effect
  have distinct := scanned_distinct state now
  generalize (loop state now).1 = after at effect next
  generalize (loop state now).2 = output at effect distinct
  cases effect with
  | transmitting busy early =>
      refine .transmitting now state.broadcastEndTime (shownSig state) ?_ early
      rw [boardOf, busy]
      rfl
  | ended busy late => exact ended_move state _ inv next now busy late rfl
  | started row cancelled _ idle due unheard earlier rows cells broadcasting endTime index =>
      have active : ∀ k ∈ cancelled, (read state.cache k).active = true := fun k member => ((rows k).mp member).1.1.1.1
      have card := signatures_card state inv cancelled (distinct _ _ rfl) active
      have notes := cancelled_notes state after inv next cancelled active cells
      have same : read after.cache row = read state.cache row := by
        rw [cells row, if_neg fun member => lt_irrefl row ((rows row).mp member).2]
      have onAir : (boardOf after).onAir = some (now + broadcastBurst, some (read state.cache row).hmac) := by
        rw [boardOf, broadcasting, endTime, shown_at after row index, same, (key_some _ _).mpr ⟨due.1.1, rfl⟩]
        rfl
      have board : boardOf after = ⟨doneAt (signaturesAt state.cache cancelled) (boardOf state).notes,
          some (now + broadcastBurst, some (read state.cache row).hmac)⟩ := by
        rw [← notes, ← onAir]
      obtain ⟨ready, few⟩ := ready_row state inv now row due
      rw [board, effectOf, ← card]
      refine .started now ?_ _ _ (noted_row state inv.keys row due.1.1) ready (few.mpr unheard) _ fun sig member => ?_
      · rw [boardOf, idle]
        rfl
      · obtain ⟨k, here, rfl⟩ := Finset.mem_image.mp member
        exact (crowded_iff state inv now _).mpr ⟨k, ((rows k).mp (List.mem_toFinset.mp here)).1, rfl⟩
  | quiet cancelled _ idle covered rows cells burst =>
      have active : ∀ k ∈ cancelled, (read state.cache k).active = true := fun k member => ((rows k).mp member).1.1.1
      have card := signatures_card state inv cancelled (distinct _ _ rfl) active
      have notes := cancelled_notes state after inv next cancelled active cells
      have onAir : (boardOf after).onAir = none := by
        rw [boardOf, burst.broadcasting, idle]
        rfl
      have board : boardOf after = ⟨doneAt (signaturesAt state.cache cancelled) (boardOf state).notes, none⟩ := by
        rw [← notes, ← onAir]
      rw [board, effectOf, ← card]
      refine .quiet now ?_ _ (fun sig => ?_) fun sig note found ready => ?_
      · rw [boardOf, idle]
        rfl
      · rw [crowded_iff state inv now, signaturesAt, Finset.mem_image]
        simp only [List.mem_toFinset, rows]
      · obtain ⟨k, noted⟩ := (noted_iff state inv.keys sig note).mp found
        obtain rfl := noted.shown
        have due : Due now (read state.cache k) := ⟨⟨noted.active, by simpa [noteOf] using ready.1⟩, ready.2⟩
        exact not_lt.mp fun few => covered k due ((ready_row state inv now k due).2.mp few)

theorem callback_move (state : RelayState) (inv : CacheInvariant state) (device : Advertisement) (now : Millis) (wifi : Bool) (jitter : Millis) :
    BoardMove MadeRoom (boardOf state) (.onResult device now wifi jitter) (effectOf (onResult state device now wifi jitter).2)
      (boardOf (onResult state device now wifi jitter).1) := by
  have effect := on_result_effect state device now wifi jitter
  have next := callback_invariant _ _ _ _ _ _ _ inv effect
  generalize (onResult state device now wifi jitter).1 = after at effect next
  generalize (onResult state device now wifi jitter).2 = output at effect
  cases effect with
  | ignored filtered => exact .ignored device now wifi jitter filtered
  | duplicate payloadRaw packet location _ received live key recorded others burst =>
      exact hit_move state after inv next device now location live recorded others jitter wifi payloadRaw packet _ received key burst
  | dropped payloadRaw packet _ _ received offline absent spent purged burst silent =>
      subst offline
      have move := drop_move state after inv next now device jitter payloadRaw packet MadeRoom received absent spent purged burst
      cases silent with
      | inl expired => exact expired.symm ▸ move
      | inr zero => exact zero.symm ▸ move
  | queued payloadRaw packet _ received offline absent hops stored burst =>
      subst offline
      exact accept_move state after inv next device now jitter payloadRaw packet received absent burst hops stored
  | forwarded payloadRaw packet _ newLoc received online absent stored lookedUp burst =>
      subst online
      exact upload_move state after inv next device now jitter payloadRaw packet received absent burst stored

theorem start_board : boardOf .start = .blank := by
  have blank : (boardOf .start).notes = fun _ => none := by
    funext sig
    refine Option.eq_none_iff_forall_not_mem.mpr fun note member => ?_
    obtain ⟨k, noted⟩ := (noted_iff .start start_invariant.keys sig note).mp member
    have cell : read RelayState.start.cache k = CacheEntry.zero := read_blank k _
    have active := noted.active
    rw [cell] at active
    exact Bool.false_ne_true active
  have idle : (boardOf .start).onAir = none := rfl
  exact Board.ext blank idle

theorem run_trace (events : List Event) :
    Trace (BoardMove MadeRoom) .blank ((relayLog events).map fun entry => (entry.1, effectOf entry.2)) (boardOf (relayState events)) := by
  rw [← start_board]
  refine run_refines step .start CacheInvariant start_invariant step_invariant boardOf effectOf (BoardMove MadeRoom)
    (fun state event inv => ?_) events
  cases event with
  | onResult device now wifi jitter => exact callback_move state inv device now wifi jitter
  | loop now => exact loop_move state inv now

-- Whatever the clock, the radio and the Wi-Fi do, the rows in use are the
-- notes of a board, and each run of the relay is a trace of the board.
theorem relay_refines_board (events : List Event) :
    (∀ sig note, (boardOf (relayState events)).notes sig = some note ↔ ∃ k, Noted (read (relayState events).cache k) sig note) ∧
    Trace (BoardMove MadeRoom) .blank ((relayLog events).map fun entry => (entry.1, effectOf entry.2)) (boardOf (relayState events)) :=
  ⟨noted_iff _ (reachable_invariant events).keys, run_trace events⟩

end BeaconMesh.Arduino
