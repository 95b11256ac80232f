namespace ApiPrep.Text

abbrev Ranges := List (Nat × Nat)

def Ranges.has : Ranges → Nat → Bool
  | [], _ => false
  | (lo, hi) :: rest, n => (decide (lo ≤ n) && decide (n ≤ hi)) || Ranges.has rest n

theorem Ranges.has_iff {rs : Ranges} {n : Nat} :
    rs.has n = true ↔ ∃ r ∈ rs, r.1 ≤ n ∧ n ≤ r.2 := by
  induction rs with
  | nil => simp [has]
  | cons r rest ih => simp [has, ih]

end ApiPrep.Text
