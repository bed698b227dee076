import Mathlib.Data.List.DropRight

/-!
# Streaks

A counter that goes up while a condition holds, and back to zero when it does not.
After a sequence it is the length of the longest end of the sequence on which
the condition holds throughout (`length_rtakeWhile_concat`), and it has reached
`n` when the last `n` entries are there and the condition holds of each
(`le_length_rtakeWhile_iff`).
-/

namespace Streak

variable {α : Type} {p : α → Bool} {entries : List α} {n : ℕ}

/-- The counter after one more entry. -/
def next (p : α → Bool) (count : ℕ) (entry : α) : ℕ := if p entry then count + 1 else 0

theorem length_rtakeWhile_concat (entry : α) :
    ((entries ++ [entry]).rtakeWhile p).length = next p (entries.rtakeWhile p).length entry := by
  rw [List.rtakeWhile_concat, next]
  split
  · exact List.length_append
  · rfl

theorem forall_mem_rtake_concat (entry : α) :
    (∀ x ∈ (entries ++ [entry]).rtake (n + 1), p x = true) ↔
      (∀ x ∈ entries.rtake n, p x = true) ∧ p entry = true := by
  rw [List.rtake_concat_succ]
  simp [or_imp, forall_and]

/-- By induction on the sequence: an entry of which the condition does not hold is among the last
`n` unless `n` is zero. -/
theorem le_length_rtakeWhile_iff :
    n ≤ (entries.rtakeWhile p).length ↔
      n ≤ entries.length ∧ ∀ x ∈ entries.rtake n, p x = true := by
  induction entries using List.reverseRecOn generalizing n with
  | nil => simp
  | append_singleton entries entry ih =>
      cases n with
      | zero => simp
      | succ n =>
          rw [length_rtakeWhile_concat, forall_mem_rtake_concat, List.length_append, next]
          cases hp : p entry with
          | true => simp [ih]
          | false => simp

end Streak
