import BeaconMesh.Lib.History

set_option autoImplicit false

namespace BeaconMesh.Refinement

open History

variable {σ ε ω α η : Type*}

-- What a system described by its labelled moves can answer to a sequence of
-- events.
inductive Trace (moves : α → ε → η → α → Prop) (start : α) : List (ε × η) → α → Prop where
  | nil : Trace moves start [] start
  | snoc (past : List (ε × η)) (event : ε) (answer : η) (last next : α) (earlier : Trace moves start past last)
      (move : moves last event answer next) : Trace moves start (past ++ [(event, answer)]) next

-- A machine whose every step, seen through an abstraction, is a move of the
-- system refines it: each of its runs is a trace.
theorem run_refines (step : σ → ε → σ × ω) (start : σ) (holds : σ → Prop) (base : holds start)
    (preserved : ∀ state event, holds state → holds (step state event).1) (abstraction : σ → α) (shown : ω → η)
    (moves : α → ε → η → α → Prop)
    (simulates : ∀ state event, holds state →
      moves (abstraction state) event (shown (step state event).2) (abstraction (step state event).1))
    (events : List ε) :
    Trace moves (abstraction start) ((log step start events).map fun entry => (entry.1, shown entry.2))
      (abstraction (final step start events)) := by
  induction events using List.reverseRecOn with
  | nil => exact .nil
  | append_singleton past event ih =>
      have held := state_invariant step start holds base preserved past
      rw [log_snoc, List.map_append, List.map_singleton, final_snoc]
      exact .snoc _ event _ _ _ ih (simulates _ event held)

-- A trace whose moves keep a fact about the past is a trace of any system
-- that allows these moves where the fact holds.
theorem trace_within (moves other : α → ε → η → α → Prop) (start last : α) (entries : List (ε × η)) (trace : Trace moves start entries last)
    (holds : List (ε × η) → α → Prop) (base : holds [] start)
    (preserved : ∀ past before event answer after, holds past before → moves before event answer after →
      holds (past ++ [(event, answer)]) after)
    (allows : ∀ past event answer later before after, entries = past ++ (event, answer) :: later → holds past before →
      moves before event answer after → other before event answer after) :
    Trace other start entries last ∧ holds entries last := by
  induction trace with
  | nil => exact ⟨.nil, base⟩
  | snoc past event answer before after earlier move ih =>
      obtain ⟨sofar, held⟩ := ih fun front some itsAnswer rest one two split =>
        allows front some itsAnswer (rest ++ [(event, answer)]) one two (by rw [split, List.append_assoc, List.cons_append])
      exact ⟨.snoc past event answer before after sofar (allows past event answer [] before after rfl held move),
        preserved past before event answer after held move⟩

end BeaconMesh.Refinement
