import BeaconMesh.PacketBuffer

set_option autoImplicit false

namespace BeaconMesh.Simulator

open Sweep History

def exitState (datagrams : List Bytes) : NodeState := final exitTurn .zero datagrams

def signature (datagram : Bytes) : HmacSig := (EmergencyPacket.ofBytes datagram).hmacSig

theorem exit_calls_add : CallsAdd exitTurn where
  cache state datagram := by
    cases found : containsBuff state.cache (recvInto state.packet datagram).hmacSig with
    | none => simp only [exitTurn, found]
    | some location =>
        rw [add_present _ _ (by simp [found])]
        simp only [exitTurn, found]
  packet state datagram := by
    cases found : containsBuff state.cache (recvInto state.packet datagram).hmacSig with
    | none => simp only [exitTurn, found]
    | some location => simp only [exitTurn, found]

section Runs

variable (datagrams : List Bytes) (full : ∀ datagram ∈ datagrams, datagram.length = 25)

include full

theorem full_signatures : receivedSignatures datagrams = datagrams.map signature := by
  induction datagrams using List.reverseRecOn with
  | nil => rfl
  | append_singleton past datagram ih =>
      have earlier := ih fun other member => full other (List.mem_append_left _ member)
      rw [receivedSignatures] at earlier ⊢
      rw [log_snoc, List.map_append, earlier, List.map_append, receive, recv_complete _ datagram (full datagram (by simp))]
      rfl

-- Both programs call addToBuff with the signatures in the order of arrival.
theorem node_cache : (nodeState datagrams).cache = bufferAfter (datagrams.map signature) := by
  rw [← full_signatures datagrams full]
  exact (run_receives nodeTurn node_calls_add datagrams).1

theorem exit_cache : (exitState datagrams).cache = bufferAfter (datagrams.map signature) := by
  rw [← full_signatures datagrams full]
  exact (run_receives exitTurn exit_calls_add datagrams).1

end Runs

-- The next datagram is not in the cache, takes the branch that caches it, and
-- is not dropped as a duplicate; the exit prints FINISH.
structure NodeAccepts (past : List Bytes) (datagram : Bytes) : Prop where
  absent : containsBuff (nodeState past).cache (signature datagram) = none
  cached : containsBuff (nodeState (past ++ [datagram])).cache (signature datagram) ≠ none
  kept : ∀ location, (nodeTurn (nodeState past) datagram).2 ≠ .alreadyProcessed location

structure ExitAccepts (past : List Bytes) (datagram : Bytes) : Prop where
  absent : containsBuff (exitState past).cache (signature datagram) = none
  cached : containsBuff (exitState (past ++ [datagram])).cache (signature datagram) ≠ none
  finished : (exitTurn (exitState past) datagram).2 = .finished 25

def FirstCopiesAccepted (datagrams : List Bytes) : Prop :=
  ∀ past datagram later, datagrams = past ++ datagram :: later → signature datagram ∉ past.map signature →
    NodeAccepts past datagram ∧ ExitAccepts past datagram

-- The signature zero first comes after 256 different ones.
def ZeroLate (datagrams : List Bytes) : Prop :=
  ∀ past datagram later, datagrams = past ++ datagram :: later → signature datagram ∉ past.map signature →
    signature datagram = 0 → 256 ≤ (past.map signature).toFinset.card

theorem first_copy_cached (past : List Bytes) (datagram : Bytes)
    (absent : containsBuff (bufferAfter (past.map signature)) (signature datagram) = none) :
    containsBuff (bufferAfter ((past ++ [datagram]).map signature)) (signature datagram) ≠ none := by
  rw [List.map_append, List.map_singleton, buffer_after_snoc]
  exact add_contains _ _ absent

section Accept

variable (past : List Bytes) (datagram : Bytes) (full : ∀ other ∈ past ++ [datagram], other.length = 25)

include full

theorem full_past : (∀ other ∈ past, other.length = 25) ∧ datagram.length = 25 :=
  ⟨fun other member => full other (List.mem_append_left _ member), full datagram (by simp)⟩

variable (absent : containsBuff (bufferAfter (past.map signature)) (signature datagram) = none)

include absent

theorem node_accepts : NodeAccepts past datagram := by
  obtain ⟨earlier, complete⟩ := full_past past datagram full
  have missing : containsBuff (nodeState past).cache (signature datagram) = none := by
    rw [node_cache past earlier]
    exact absent
  refine ⟨missing, ?_, fun location dropped => ?_⟩
  · rw [node_cache _ full]
    exact first_copy_cached past datagram absent
  · have effect := recv_effect (nodeState past) datagram
    rw [recv_complete _ datagram complete, dropped] at effect
    generalize (nodeTurn (nodeState past) datagram).1 = after at effect
    cases effect with
    | duplicate _ present => exact Option.some_ne_none location (present.symm.trans missing)
    | dropped _ _ _ silent => simp at silent

theorem exit_accepts : ExitAccepts past datagram := by
  obtain ⟨earlier, complete⟩ := full_past past datagram full
  have missing : containsBuff (exitState past).cache (signature datagram) = none := by
    rw [exit_cache past earlier]
    exact absent
  refine ⟨missing, ?_, ?_⟩
  · rw [exit_cache _ full]
    exact first_copy_cached past datagram absent
  · have unseen : containsBuff (exitState past).cache (EmergencyPacket.ofBytes datagram).hmacSig = none := missing
    simp only [exitTurn, recv_complete _ datagram complete, unseen, complete]
    rfl

end Accept

theorem accepts_iff_absent (past : List Bytes) (datagram : Bytes) (full : ∀ other ∈ past ++ [datagram], other.length = 25) :
    NodeAccepts past datagram ∧ ExitAccepts past datagram ↔
      containsBuff (bufferAfter (past.map signature)) (signature datagram) = none := by
  constructor
  · intro accepts
    rw [← node_cache past (full_past past datagram full).1]
    exact accepts.1.absent
  · exact fun absent => ⟨node_accepts past datagram full absent, exit_accepts past datagram full absent⟩

-- The ring has no count of its rows: the rows that are still zero answer for
-- a packet whose signature is zero, and for no other.
theorem first_copies_accepted_iff (datagrams : List Bytes) (full : ∀ datagram ∈ datagrams, datagram.length = 25) :
    FirstCopiesAccepted datagrams ↔ ZeroLate datagrams := by
  have accepted : ∀ past datagram later, datagrams = past ++ datagram :: later → signature datagram ∉ past.map signature →
      (NodeAccepts past datagram ∧ ExitAccepts past datagram ↔
        (signature datagram = 0 → 256 ≤ (past.map signature).toFinset.card)) := by
    intro past datagram later split new
    rw [accepts_iff_absent past datagram]
    · exact unseen_absent_iff (past.map signature) (signature datagram) new
    · intro other member
      apply full
      rw [split, List.append_cons]
      exact List.mem_append_left later member
  constructor
  · intro first past datagram later split new
    exact (accepted past datagram later split new).mp (first past datagram later split new)
  · intro late past datagram later split new
    exact (accepted past datagram later split new).mpr (late past datagram later split new)

theorem two_packets_first_copies : FirstCopiesAccepted [sampleDatagram 20 1 7, sampleDatagram 20 1 9] ↔
    ZeroLate [sampleDatagram 20 1 7, sampleDatagram 20 1 9] :=
  first_copies_accepted_iff [sampleDatagram 20 1 7, sampleDatagram 20 1 9] (by decide)

-- A signature of eight zero bytes is "already processed" in an empty cache.
theorem zero_signature_dropped : ¬ ∀ datagrams, (∀ datagram ∈ datagrams, datagram.length = 25) → FirstCopiesAccepted datagrams := by
  intro claimed
  have accepts := claimed [sampleDatagram 20 0 0] (by decide) [] (sampleDatagram 20 0 0) [] rfl (by simp)
  have dropped : (nodeTurn (nodeState []) (sampleDatagram 20 0 0)).2 = .alreadyProcessed 0 := by decide +kernel
  exact accepts.1.kept 0 dropped

end BeaconMesh.Simulator
