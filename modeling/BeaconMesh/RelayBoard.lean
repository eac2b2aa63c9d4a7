import BeaconMesh.BurstJustification
import BeaconMesh.Lib.Refinement
import Mathlib.Data.Set.Card

set_option autoImplicit false

namespace BeaconMesh.Arduino

-- What a relay is for, without its rows: a board that keeps one note for each
-- signature it has lately accepted.
structure Note where
  packet : EmergencyPacket
  fades : Millis
  due : Millis
  senders : Finset Mac
  waiting : Bool

abbrev Notes := HmacSig → Option Note

-- While a burst is on air, until when, and whose note it is of: none once that
-- note has gone.
@[ext] structure Board where
  notes : Notes
  onAir : Option (Millis × Option HmacSig)

def Board.blank : Board := ⟨fun _ => none, none⟩

-- The first four senders count.
def Note.hear (note : Note) (mac : Mac) : Note :=
  { note with senders := if note.senders.card < 4 then insert mac note.senders else note.senders }

def Note.done (note : Note) : Note := { note with waiting := false }

def Note.Ready (now : Millis) (note : Note) : Prop := note.waiting = true ∧ note.due ≤ now

def unfaded (now : Millis) (notes : Notes) : Notes := fun sig => (notes sig).filter fun note => decide (now < note.fades)

-- Some of the faded notes have been taken down.
def Fading (now : Millis) (before after : Notes) : Prop := ∀ sig, after sig = before sig ∨ after sig = unfaded now before sig

def Full (now : Millis) (notes : Notes) : Prop := 256 ≤ Set.ncard {sig | (unfaded now notes sig).isSome = true}

-- All faded notes are taken down and, from a full board, one of those that
-- fade first.
def MadeRoom (now : Millis) (before kept : Notes) : Prop :=
  (¬ Full now before ∧ kept = unfaded now before) ∨
    Full now before ∧ ∃ victim note, unfaded now before victim = some note ∧
      (∀ sig other, unfaded now before sig = some other → note.fades ≤ other.fades) ∧
      kept = Function.update (unfaded now before) victim none

-- A board without bounds.
def Unbounded (now : Millis) (before kept : Notes) : Prop := kept = unfaded now before

-- A burst stays with its note. Once the note is gone the burst may come to
-- stand for one that is put up later.
def Follows (kept : Notes) (added : Option HmacSig) (before after : Option (Millis × Option HmacSig)) : Prop :=
  match before with
  | none => after = none
  | some (ends, sig) =>
      ∃ next, after = some (ends, next) ∧ if (sig.bind kept).isSome = true then next = sig else next = none ∨ next = added

inductive Effect where
  | ignored
  | repeated
  | dropped
  | accepted
  | uploaded (datagrams : List Bytes)
  | transmitting
  | ended
  | scanned (cancelled : Nat) (burst : Option Bytes)
deriving DecidableEq

def effectOf : Output → Effect
  | .ignored => .ignored
  | .duplicate _ => .repeated
  | .forwarded datagrams _ _ => .uploaded datagrams
  | .queued _ _ => .accepted
  | .ttlExpired => .dropped
  | .ttlZero => .dropped
  | .transmitting => .transmitting
  | .burstEnded _ => .ended
  | .scanned cancelled burst => .scanned cancelled.length (burst.map Prod.snd)

def doneAt (sigs : Finset HmacSig) (notes : Notes) : Notes := fun sig => if sig ∈ sigs then (notes sig).map Note.done else notes sig

def Crowded (now : Millis) (notes : Notes) (sig : HmacSig) : Prop :=
  ∃ note, notes sig = some note ∧ note.Ready now ∧ 4 ≤ note.senders.card

-- The moves of a board that makes room in a given way.
inductive BoardMove (room : Millis → Notes → Notes → Prop) (before : Board) : Event → Effect → Board → Prop where
  | ignored (device : Advertisement) (now : Millis) (wifi : Bool) (jitter : Millis) (filtered : receivedPacket device = none) :
      BoardMove room before (.onResult device now wifi jitter) .ignored before
  | repeated (device : Advertisement) (now : Millis) (wifi : Bool) (jitter : Millis) (payloadRaw : Bytes) (packet : EmergencyPacket)
      (note : Note) (kept : Notes) (after : Board) (received : receivedPacket device = some (payloadRaw, packet))
      (known : unfaded now before.notes packet.hmacSig = some note) (fading : Fading now before.notes kept)
      (heard : after.notes = Function.update kept packet.hmacSig (some (note.hear device.address)))
      (follows : Follows kept none before.onAir after.onAir) :
      BoardMove room before (.onResult device now wifi jitter) .repeated after
  | dropped (device : Advertisement) (now : Millis) (jitter : Millis) (payloadRaw : Bytes) (packet : EmergencyPacket)
      (after : Board) (received : receivedPacket device = some (payloadRaw, packet))
      (absent : unfaded now before.notes packet.hmacSig = none) (spent : (ttlOf packet.flags).toNat ≤ 1)
      (gone : after.notes = unfaded now before.notes) (follows : Follows after.notes none before.onAir after.onAir) :
      BoardMove room before (.onResult device now false jitter) .dropped after
  | accepted (device : Advertisement) (now : Millis) (jitter : Millis) (payloadRaw : Bytes) (packet : EmergencyPacket)
      (kept : Notes) (after : Board) (received : receivedPacket device = some (payloadRaw, packet))
      (absent : unfaded now before.notes packet.hmacSig = none) (hops : 2 ≤ (ttlOf packet.flags).toNat)
      (made : room now before.notes kept)
      (noted : after.notes = Function.update kept packet.hmacSig
        (some ⟨relayedPacket packet, now + cacheTtlMs, now + jitter, {device.address}, true⟩))
      (follows : Follows kept (some packet.hmacSig) before.onAir after.onAir) :
      BoardMove room before (.onResult device now false jitter) .accepted after
  | uploaded (device : Advertisement) (now : Millis) (jitter : Millis) (payloadRaw : Bytes) (packet : EmergencyPacket)
      (kept : Notes) (after : Board) (received : receivedPacket device = some (payloadRaw, packet))
      (absent : unfaded now before.notes packet.hmacSig = none) (made : room now before.notes kept)
      -- A deadline that wraps has passed already.
      (noted : after.notes = Function.update kept packet.hmacSig
        (if now < now + cacheTtlMs then some ⟨packet, now + cacheTtlMs, now, {device.address}, false⟩ else none))
      (follows : Follows kept (if now < now + cacheTtlMs then some packet.hmacSig else none) before.onAir after.onAir) :
      BoardMove room before (.onResult device now true jitter) (.uploaded (udpBurst payloadRaw)) after
  | transmitting (now ends : Millis) (sig : Option HmacSig) (busy : before.onAir = some (ends, sig)) (early : now < ends) :
      BoardMove room before (.loop now) .transmitting before
  | ended (now ends : Millis) (sig : Option HmacSig) (busy : before.onAir = some (ends, sig)) (late : ends ≤ now) :
      BoardMove room before (.loop now) .ended ⟨doneAt sig.toFinset before.notes, none⟩
  | started (now : Millis) (idle : before.onAir = none) (sig : HmacSig) (note : Note) (found : before.notes sig = some note)
      (ready : note.Ready now) (few : note.senders.card < 4) (cancelled : Finset HmacSig)
      (crowded : ∀ other ∈ cancelled, Crowded now before.notes other) :
      BoardMove room before (.loop now) (.scanned cancelled.card (some (rebroadcastData note.packet)))
        ⟨doneAt cancelled before.notes, some (now + broadcastBurst, some sig)⟩
  | quiet (now : Millis) (idle : before.onAir = none) (cancelled : Finset HmacSig)
      (crowded : ∀ sig, sig ∈ cancelled ↔ Crowded now before.notes sig)
      (all : ∀ sig note, before.notes sig = some note → note.Ready now → 4 ≤ note.senders.card) :
      BoardMove room before (.loop now) (.scanned cancelled.card none) ⟨doneAt cancelled before.notes, none⟩

end BeaconMesh.Arduino
