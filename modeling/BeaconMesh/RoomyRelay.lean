import BeaconMesh.RelayRefinement

set_option autoImplicit false

namespace BeaconMesh.Arduino

open Sweep History Refinement

def signatureOf : Event → Option HmacSig
  | .onResult device _ _ _ => (receivedPacket device).map fun received => received.2.hmacSig
  | .loop _ => none

-- What was heard of late: less than two seconds ago, as the relay counts.
def lately (past : List Event) (now : Millis) : Finset HmacSig :=
  ((past.filter fun event => decide (now < event.now + cacheTtlMs)).filterMap signatureOf).toFinset

def Roomy (events : List Event) : Prop :=
  ∀ past device now wifi jitter later, events = past ++ .onResult device now wifi jitter :: later → (lately past now).card < 256

theorem short_roomy (events : List Event) (short : events.length ≤ 256) : Roomy events := by
  intro past device now wifi jitter later split
  have size := congrArg List.length split
  rw [List.length_append, List.length_cons] at size
  calc (lately past now).card ≤ ((past.filter fun event => decide (now < event.now + cacheTtlMs)).filterMap signatureOf).length :=
        List.toFinset_card_le _
    _ ≤ (past.filter fun event => decide (now < event.now + cacheTtlMs)).length := List.length_filterMap_le _ _
    _ ≤ past.length := List.length_filter_le _ _
    _ < 256 := by omega

-- Every note was put up for an event of the past and fades two seconds after it.
def Backed (past : List Event) (board : Board) : Prop :=
  ∀ sig note, board.notes sig = some note → ∃ event ∈ past, signatureOf event = some sig ∧ note.fades = event.now + cacheTtlMs

theorem backed_later (past : List Event) (event : Event) (before : Board) (backed : Backed past before) (sig : HmacSig) (old note : Note)
    (found : before.notes sig = some old) (fades : note.fades = old.fades) :
    ∃ source ∈ past ++ [event], signatureOf source = some sig ∧ note.fades = source.now + cacheTtlMs := by
  obtain ⟨source, member, same, deadline⟩ := backed sig old found
  exact ⟨source, List.mem_append_left _ member, same, fades.trans deadline⟩

theorem room_kept (now : Millis) (before kept : Notes) (made : MadeRoom now before kept) (sig : HmacSig) (note : Note)
    (found : kept sig = some note) : before sig = some note := by
  cases made with
  | inl roomy =>
      rw [roomy.2] at found
      exact ((unfaded_iff now before sig note).mp found).1
  | inr full =>
      obtain ⟨_, victim, _, _, _, evicted⟩ := full
      rw [evicted] at found
      by_cases own : sig = victim
      · rw [own, Function.update_self] at found
        exact absurd found.symm (Option.some_ne_none note)
      · rw [Function.update_of_ne own] at found
        exact ((unfaded_iff now before sig note).mp found).1

theorem done_kept (sigs : Finset HmacSig) (notes : Notes) (sig : HmacSig) (note : Note) (found : doneAt sigs notes sig = some note) :
    ∃ old, notes sig = some old ∧ note.fades = old.fades := by
  rw [doneAt] at found
  split at found
  · obtain ⟨old, here, rfl⟩ := Option.map_eq_some_iff.mp found
    exact ⟨old, here, rfl⟩
  · exact ⟨note, found, rfl⟩

theorem move_backed (past : List Event) (before after : Board) (event : Event) (effect : Effect) (backed : Backed past before)
    (move : BoardMove MadeRoom before event effect after) : Backed (past ++ [event]) after := by
  intro sig note found
  cases move with
  | ignored device now wifi jitter filtered => exact backed_later past _ before backed sig note note found rfl
  | repeated device now wifi jitter payloadRaw packet old kept _ received known fading heard follows =>
      rw [heard] at found
      by_cases own : sig = packet.hmacSig
      · rw [own, Function.update_self, Option.some.injEq] at found
        subst found
        rw [own]
        exact backed_later past _ before backed _ old _ ((unfaded_iff now _ _ _).mp known).1 rfl
      · rw [Function.update_of_ne own] at found
        cases fading sig with
        | inl same => exact backed_later past _ before backed sig note note (same ▸ found) rfl
        | inr rest =>
            rw [rest] at found
            exact backed_later past _ before backed sig note note ((unfaded_iff now _ _ _).mp found).1 rfl
  | dropped device now jitter payloadRaw packet _ received absent spent gone follows =>
      rw [gone] at found
      exact backed_later past _ before backed sig note note ((unfaded_iff now _ _ _).mp found).1 rfl
  | accepted device now jitter payloadRaw packet kept _ received absent hops made noted follows =>
      rw [noted] at found
      by_cases own : sig = packet.hmacSig
      · rw [own, Function.update_self, Option.some.injEq] at found
        subst found
        exact ⟨_, List.mem_append_right _ (List.mem_singleton.mpr rfl), by rw [signatureOf, received, own]; rfl, rfl⟩
      · rw [Function.update_of_ne own] at found
        exact backed_later past _ before backed sig note note (room_kept now _ _ made sig note found) rfl
  | uploaded device now jitter payloadRaw packet kept _ received absent made noted follows =>
      rw [noted] at found
      by_cases own : sig = packet.hmacSig
      · rw [own, Function.update_self, Option.ite_none_right_eq_some, Option.some.injEq] at found
        obtain ⟨_, rfl⟩ := found
        exact ⟨_, List.mem_append_right _ (List.mem_singleton.mpr rfl), by rw [signatureOf, received, own]; rfl, rfl⟩
      · rw [Function.update_of_ne own] at found
        exact backed_later past _ before backed sig note note (room_kept now _ _ made sig note found) rfl
  | transmitting now ends shown busy early => exact backed_later past _ before backed sig note note found rfl
  | ended now ends shown busy late =>
      obtain ⟨old, here, fades⟩ := done_kept _ _ sig note found
      exact backed_later past _ before backed sig old note here fades
  | started now idle own old here ready few cancelled crowded =>
      obtain ⟨old, there, fades⟩ := done_kept _ _ sig note found
      exact backed_later past _ before backed sig old note there fades
  | quiet now idle cancelled crowded all =>
      obtain ⟨old, here, fades⟩ := done_kept _ _ sig note found
      exact backed_later past _ before backed sig old note here fades

theorem roomy_made (past : List Event) (now : Millis) (board : Board) (backed : Backed past board) (roomy : (lately past now).card < 256)
    (kept : Notes) (made : MadeRoom now board.notes kept) : Unbounded now board.notes kept := by
  have few : Set.ncard {sig | (unfaded now board.notes sig).isSome = true} < 256 := by
    refine lt_of_le_of_lt ?_ roomy
    rw [← Set.ncard_coe_finset]
    refine Set.ncard_le_ncard (fun sig stands => ?_) (Finset.finite_toSet _)
    obtain ⟨note, found⟩ := Option.isSome_iff_exists.mp stands
    obtain ⟨here, fresh⟩ := (unfaded_iff now _ _ _).mp found
    obtain ⟨event, member, same, fades⟩ := backed sig note here
    rw [fades] at fresh
    refine List.mem_toFinset.mpr (List.mem_filterMap.mpr ⟨event, List.mem_filter.mpr ⟨member, decide_eq_true fresh⟩, same⟩)
  cases made with
  | inl kept => exact kept.2
  | inr full => exact absurd full.1 (not_le.mpr few)

theorem move_unbounded (before after : Board) (event : Event) (effect : Effect) (move : BoardMove MadeRoom before event effect after)
    (roomy : ∀ device now wifi jitter, event = .onResult device now wifi jitter →
      ∀ kept, MadeRoom now before.notes kept → Unbounded now before.notes kept) : BoardMove Unbounded before event effect after := by
  cases move with
  | ignored device now wifi jitter filtered => exact .ignored device now wifi jitter filtered
  | repeated device now wifi jitter payloadRaw packet note kept _ received known fading heard follows =>
      exact .repeated device now wifi jitter payloadRaw packet note kept after received known fading heard follows
  | dropped device now jitter payloadRaw packet _ received absent spent gone follows =>
      exact .dropped device now jitter payloadRaw packet after received absent spent gone follows
  | accepted device now jitter payloadRaw packet kept _ received absent hops made noted follows =>
      exact .accepted device now jitter payloadRaw packet kept after received absent hops (roomy _ now _ _ rfl kept made) noted follows
  | uploaded device now jitter payloadRaw packet kept _ received absent made noted follows =>
      exact .uploaded device now jitter payloadRaw packet kept after received absent (roomy _ now _ _ rfl kept made) noted follows
  | transmitting now ends shown busy early => exact .transmitting now ends shown busy early
  | ended now ends shown busy late => exact .ended now ends shown busy late
  | started now idle own note found ready few cancelled crowded => exact .started now idle own note found ready few cancelled crowded
  | quiet now idle cancelled crowded all => exact .quiet now idle cancelled crowded all

-- As long as fewer than 256 signatures were heard of late whenever a frame
-- comes in, the relay is one whose memory has no bound.
theorem roomy_run_unbounded (events : List Event) (roomy : Roomy events) :
    Trace (BoardMove Unbounded) .blank ((relayLog events).map fun entry => (entry.1, effectOf entry.2)) (boardOf (relayState events)) := by
  have taken : ((relayLog events).map fun entry => (entry.1, effectOf entry.2)).map Prod.fst = events := by
    rw [List.map_map]
    exact log_events step .start events
  refine (trace_within (BoardMove MadeRoom) (BoardMove Unbounded) .blank _ _ (run_trace events)
    (fun entries board => Backed (entries.map Prod.fst) board) (fun sig note never => absurd never.symm (Option.some_ne_none note)) ?_ ?_).1
  · intro past before event answer after backed move
    rw [List.map_append]
    exact move_backed _ before after event answer backed move
  · intro past event answer later before after split backed move
    refine move_unbounded before after event answer move fun device now wifi jitter itself kept made => ?_
    rw [split, List.map_append, List.map_cons, itself] at taken
    exact roomy_made _ now before backed (roomy _ device now wifi jitter _ taken.symm) kept made

-- Two packets, one of them heard again, and the bursts of both.
def boardRun : List Event :=
  [.onResult ⟨some (sampleFrame 20 1), 1⟩ 0 false 50, .onResult ⟨some (sampleFrame 19 1), 2⟩ 10 false 60,
    .onResult ⟨some (sampleFrame 20 2), 1⟩ 20 false 70, .loop 100, .loop 650, .loop 700]

theorem board_run_unbounded :
    Trace (BoardMove Unbounded) .blank ((relayLog boardRun).map fun entry => (entry.1, effectOf entry.2)) (boardOf (relayState boardRun)) :=
  roomy_run_unbounded boardRun (short_roomy boardRun (by decide))

end BeaconMesh.Arduino
