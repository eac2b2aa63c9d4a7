import BeaconMesh.FifoBuffer
import BeaconMesh.Mesh

set_option autoImplicit false

namespace BeaconMesh.Simulator

open Fifo

section Few

variable (calls : List HmacSig)

-- The buffer forgets nothing while it has a row for every signature.
theorem few_remembered (new : 0 ∉ calls) (few : calls.toFinset.card ≤ hashes) :
    (insertions calls).length ≤ hashes ∧ ∀ val ∈ calls, val ∈ insertions calls := by
  induction calls using List.reverseRecOn with
  | nil => exact ⟨Nat.zero_le _, fun val member => absurd member List.not_mem_nil⟩
  | append_singleton past last ih =>
      have inside : past.toFinset ⊆ (past ++ [last]).toFinset := fun val member =>
        List.mem_toFinset.mpr (List.mem_append_left [last] (List.mem_toFinset.mp member))
      obtain ⟨bound, known⟩ := ih (fun zero => new (List.mem_append_left [last] zero)) ((Finset.card_le_card inside).trans few)
      have real : last ≠ 0 := fun zero => new (List.mem_append_right past (by simp [zero]))
      have all : recent hashes (insertions past) = insertions past := by
        rw [recent, Nat.sub_eq_zero_of_le bound, List.drop_zero]
      have contained := contains_inserted _ _ last real (queued past).inserted
      rw [insertions_snoc]
      by_cases absent : containsBuff (bufferAfter past) last = none
      · have fresh : last ∉ insertions past := by
          rw [← all]
          exact fun member => contained.mpr member absent
        have distinct : (insertions past ++ [last]).Nodup := by
          refine List.nodup_append.mpr ⟨?_, List.nodup_singleton last, fun val member other single => ?_⟩
          · rw [← all]
            exact recent_nodup hashes _ (queued past).fresh
          · rw [List.mem_singleton.mp single]
            exact fun same => fresh (same ▸ member)
        have values : (insertions past ++ [last]).toFinset ⊆ (past ++ [last]).toFinset := by
          intro val member
          cases List.mem_append.mp (List.mem_toFinset.mp member) with
          | inl old => exact inside (List.mem_toFinset.mpr (insertions_subset past old))
          | inr here => exact List.mem_toFinset.mpr (List.mem_append_right past here)
        rw [if_pos absent]
        constructor
        · calc (insertions past ++ [last]).length = (insertions past ++ [last]).toFinset.card := (List.toFinset_card_of_nodup distinct).symm
            _ ≤ hashes := (Finset.card_le_card values).trans few
        · intro val member
          cases List.mem_append.mp member with
          | inl old => exact List.mem_append_left [last] (known val old)
          | inr here => exact List.mem_append_right _ here
      · rw [if_neg absent]
        refine ⟨bound, fun val member => ?_⟩
        cases List.mem_append.mp member with
        | inl old => exact known val old
        | inr here =>
            rw [List.mem_singleton.mp here, ← all]
            exact contained.mp absent

theorem few_recent (new : 0 ∉ calls) (few : calls.toFinset.card ≤ hashes) : recent hashes (insertions calls) = insertions calls := by
  rw [recent, Nat.sub_eq_zero_of_le (few_remembered calls new few).1, List.drop_zero]

theorem few_contained_iff (new : 0 ∉ calls) (few : calls.toFinset.card ≤ hashes) (val : HmacSig) (real : val ≠ 0) :
    containsBuff (bufferAfter calls) val ≠ none ↔ val ∈ calls := by
  have contained := contains_inserted _ _ val real (queued calls).inserted
  have all := few_recent calls new few
  rw [recent] at all
  rw [contained, all]
  exact ⟨fun member => insertions_subset calls member, (few_remembered calls new few).2 val⟩

theorem few_distinct (new : 0 ∉ calls) (few : calls.toFinset.card ≤ hashes) : (insertions calls).Nodup := by
  rw [← few_recent calls new few]
  exact recent_nodup hashes _ (queued calls).fresh

end Few

-- What a container received, each packet with the turn it led to.
abbrev Handled := EmergencyPacket × Turn

def signaturesOf (history : List Handled) : List HmacSig := history.map fun handled => handled.1.hmacSig

def accepts : Turn → Bool
  | .alreadyProcessed _ => false
  | .forwarded _ => true
  | .finished _ => true
  | .ttlExpired => true
  | .ttlZero => true

def acceptedSignatures (history : List Handled) : List HmacSig :=
  signaturesOf (history.filter fun handled => accepts handled.2)

theorem signatures_snoc (history : List Handled) (packet : EmergencyPacket) (turn : Turn) :
    signaturesOf (history ++ [(packet, turn)]) = signaturesOf history ++ [packet.hmacSig] := by
  simp [signaturesOf]

theorem accepted_snoc (history : List Handled) (packet : EmergencyPacket) (turn : Turn) :
    acceptedSignatures (history ++ [(packet, turn)]) =
      if accepts turn then acceptedSignatures history ++ [packet.hmacSig] else acceptedSignatures history := by
  cases accepted : accepts turn <;> simp [acceptedSignatures, signaturesOf, accepted]

-- The cache is the buffer after the received signatures, and the turns that
-- accepted a packet are its effective insertions.
structure KeepsTrack {ν ζ : Type} (w : Flood.Wiring ν ζ) (n : ν) (state : NodeState) (history : List Handled) : Prop where
  cache : state.cache = bufferAfter (signaturesOf history)
  accepted : acceptedSignatures history = insertions (signaturesOf history)
  honest : ∀ handled ∈ history, ∀ sent, handled.2 = .forwarded sent →
    w.relay n = true ∧ 2 ≤ (ttlOf handled.1.flags).toNat ∧ sent = hopPacket handled.1

section Turns

variable {ν ζ : Type} (w : Flood.Wiring ν ζ) (n : ν)

theorem keeps_track_start : KeepsTrack w n .zero [] :=
  ⟨rfl, rfl, fun _ member => absurd member List.not_mem_nil⟩

theorem honest_snoc (history : List Handled) (packet : EmergencyPacket) (turn : Turn)
    (honest : ∀ handled ∈ history, ∀ sent, handled.2 = .forwarded sent →
      w.relay n = true ∧ 2 ≤ (ttlOf handled.1.flags).toNat ∧ sent = hopPacket handled.1)
    (last : ∀ sent, turn = .forwarded sent → w.relay n = true ∧ 2 ≤ (ttlOf packet.flags).toNat ∧ sent = hopPacket packet) :
    ∀ handled ∈ history ++ [(packet, turn)], ∀ sent, handled.2 = .forwarded sent →
      w.relay n = true ∧ 2 ≤ (ttlOf handled.1.flags).toNat ∧ sent = hopPacket handled.1 := by
  intro handled member
  cases List.mem_append.mp member with
  | inl old => exact honest handled old
  | inr new =>
      rw [List.mem_singleton.mp new]
      exact last

theorem track_accepted (before after : NodeState) (history : List Handled) (packet : EmergencyPacket) (turn : Turn)
    (tracks : KeepsTrack w n before history) (absent : containsBuff before.cache packet.hmacSig = none)
    (stored : after.cache = (addToBuff before.cache packet.hmacSig).2) (accepted : accepts turn = true)
    (last : ∀ sent, turn = .forwarded sent → w.relay n = true ∧ 2 ≤ (ttlOf packet.flags).toNat ∧ sent = hopPacket packet) :
    KeepsTrack w n after (history ++ [(packet, turn)]) := by
  rw [tracks.cache] at absent stored
  refine ⟨?_, ?_, honest_snoc w n history packet turn tracks.honest last⟩
  · rw [signatures_snoc, buffer_after_snoc, stored]
  · rw [accepted_snoc, if_pos accepted, signatures_snoc, insertions_snoc, if_pos absent, tracks.accepted]

theorem track_turn (state : NodeState) (history : List Handled) (packet : EmergencyPacket) (tracks : KeepsTrack w n state history) :
    KeepsTrack w n (turnOf w n state packet.toBytes).1 (history ++ [(packet, (turnOf w n state packet.toBytes).2)]) := by
  have effect := turn_effect w n state packet
  generalize (turnOf w n state packet.toBytes).1 = after, (turnOf w n state packet.toBytes).2 = turn at effect
  cases effect with
  | duplicate location present =>
      have contained : containsBuff (bufferAfter (signaturesOf history)) packet.hmacSig ≠ none := by
        rw [← tracks.cache, present]
        exact Option.some_ne_none location
      refine ⟨?_, ?_, honest_snoc w n history packet _ tracks.honest fun sent never => by cases never⟩
      · rw [signatures_snoc, buffer_after_snoc, add_present _ _ contained, tracks.cache]
      · rw [accepted_snoc, if_neg (by exact Bool.false_ne_true), signatures_snoc, insertions_snoc, if_neg contained, tracks.accepted]
  | dropped _ passes absent spent silent =>
      have quiet : accepts turn = true ∧ ∀ sent, turn ≠ .forwarded sent := by
        cases silent with
        | inl expired =>
            rw [expired]
            exact ⟨rfl, fun sent never => by cases never⟩
        | inr zero =>
            rw [zero]
            exact ⟨rfl, fun sent never => by cases never⟩
      exact track_accepted w n state _ history packet turn tracks absent rfl quiet.1 fun sent same => absurd same (quiet.2 sent)
  | forwarded passes absent hops =>
      exact track_accepted w n state _ history packet _ tracks absent rfl rfl fun sent same => ⟨passes, hops, (Turn.forwarded.inj same).symm⟩
  | finished kept ends absent =>
      exact track_accepted w n state _ history packet _ tracks absent rfl rfl fun sent never => by cases never

end Turns

-- How often a container accepted a signature.
def acceptances (sig : HmacSig) (history : List Handled) : Nat :=
  history.countP fun handled => accepts handled.2 && handled.1.hmacSig == sig

theorem acceptances_count (sig : HmacSig) (history : List Handled) : acceptances sig history = (acceptedSignatures history).count sig := by
  rw [acceptedSignatures, signaturesOf, List.count, List.countP_map, List.countP_filter, acceptances]
  congr 1
  funext handled
  exact Bool.and_comm _ _

def sentBy (history : List Handled) : List EmergencyPacket := history.filterMap fun handled => forwardedPacket handled.2

section Bounds

variable {ν ζ : Type} (w : Flood.Wiring ν ζ) (n : ν) (state : NodeState) (history : List Handled) (tracks : KeepsTrack w n state history)
  (signatures : Finset HmacSig) (real : 0 ∉ signatures) (few : signatures.card ≤ hashes)
  (inside : ∀ sig ∈ signaturesOf history, sig ∈ signatures)

include real few inside

theorem history_few : 0 ∉ signaturesOf history ∧ (signaturesOf history).toFinset.card ≤ hashes := by
  refine ⟨fun zero => real (inside 0 zero), (Finset.card_le_card fun sig member => ?_).trans few⟩
  exact inside sig (List.mem_toFinset.mp member)

include tracks

theorem accepted_distinct : (acceptedSignatures history).Nodup := by
  obtain ⟨new, bound⟩ := history_few history signatures real few inside
  rw [tracks.accepted]
  exact few_distinct _ new bound

theorem accepted_once (sig : HmacSig) : acceptances sig history ≤ 1 := by
  rw [acceptances_count]
  exact List.nodup_iff_count_le_one.mp (accepted_distinct w n state history tracks signatures real few inside) sig

theorem accepted_few : (acceptedSignatures history).length ≤ signatures.card := by
  rw [← List.toFinset_card_of_nodup (accepted_distinct w n state history tracks signatures real few inside)]
  apply Finset.card_le_card
  intro sig member
  rw [tracks.accepted] at member
  exact inside sig (insertions_subset _ (List.mem_toFinset.mp member))

end Bounds

theorem sent_accepted (history : List Handled) : (sentBy history).length ≤ (acceptedSignatures history).length := by
  induction history with
  | nil => exact Nat.le_refl _
  | cons handled rest ih =>
      obtain ⟨packet, turn⟩ := handled
      cases turn <;> simp [sentBy, acceptedSignatures, signaturesOf, forwardedPacket, accepts] at ih ⊢ <;> omega

end BeaconMesh.Simulator
