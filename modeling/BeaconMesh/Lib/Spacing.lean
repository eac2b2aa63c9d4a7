import Mathlib.Algebra.Order.Monoid.Defs
import Mathlib.Algebra.Order.Monoid.Unbundled.Basic

set_option autoImplicit false

namespace BeaconMesh.Spacing

variable {τ : Type*} [AddCommMonoid τ] [PartialOrder τ]

-- Instants of which any two are at least a gap apart, in the order of their
-- list.
def Spaced (gap : τ) (times : List τ) : Prop := times.Pairwise fun earlier later => earlier + gap ≤ later

theorem spaced_snoc (gap : τ) (times : List τ) (next : τ) (spaced : Spaced gap times) (after : ∀ time ∈ times, time + gap ≤ next) :
    Spaced gap (times ++ [next]) := by
  refine List.pairwise_append.mpr ⟨spaced, List.pairwise_singleton _ next, fun time member other last => ?_⟩
  obtain rfl := List.mem_singleton.mp last
  exact after time member

variable [IsOrderedAddMonoid τ]

theorem spaced_span (gap first hi : τ) (rest : List τ) (spaced : Spaced gap (first :: rest)) (inside : ∀ time ∈ first :: rest, time ≤ hi) :
    first + rest.length • gap ≤ hi := by
  induction rest generalizing first with
  | nil => simpa using inside
  | cons next rest ih =>
      obtain ⟨after, later⟩ := List.pairwise_cons.mp spaced
      calc
        first + (next :: rest).length • gap = first + gap + rest.length • gap := by
          rw [List.length_cons, succ_nsmul', add_assoc]
        _ ≤ next + rest.length • gap := add_le_add_left (after next List.mem_cons_self) _
        _ ≤ hi := ih next later fun time member => inside time (List.mem_cons_of_mem first member)

-- A window that holds n + 1 of the instants is at least n gaps long.
theorem window_span [DecidableLE τ] (gap lo hi : τ) (times : List τ) (spaced : Spaced gap times) (n : Nat)
    (count : (times.filter fun time => decide (lo ≤ time ∧ time ≤ hi)).length = n + 1) : lo + n • gap ≤ hi := by
  have within : ∀ time ∈ times.filter fun time => decide (lo ≤ time ∧ time ≤ hi), lo ≤ time ∧ time ≤ hi :=
    fun time member => of_decide_eq_true (List.mem_filter.mp member).2
  have kept : Spaced gap (times.filter fun time => decide (lo ≤ time ∧ time ≤ hi)) := List.Pairwise.filter _ spaced
  generalize times.filter (fun time => decide (lo ≤ time ∧ time ≤ hi)) = window at count within kept
  cases window with
  | nil => exact absurd count (Nat.succ_ne_zero n).symm
  | cons first rest =>
      have length : rest.length = n := Nat.succ.inj count
      have span := spaced_span gap first hi rest kept fun time member => (within time member).2
      rw [length] at span
      exact (add_le_add_left (within first List.mem_cons_self).1 _).trans span

end BeaconMesh.Spacing
