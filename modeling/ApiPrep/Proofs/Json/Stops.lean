import ApiPrep.Json.Reader
import ApiPrep.Proofs.Outcome

namespace ApiPrep.Json

open Outcome

variable {α : Type}

def Stop.Sound : Stop → Prop
  | .because _ _ | .tooDeep => True
  | .tooManyDigits count => Decimal.mostDigits < count

abbrev Stops (x : Except Stop α) : Prop := Ends (fun _ => True) Stop.Sound x

/-! ### Texts and numbers -/

theorem pairUp_stops (unit : Nat) (s : List Rune) : Stops (pairUp unit s) := by
  unfold pairUp
  extract_lets alone
  refine .ite ?_ trivial
  split
  · refine .ite trivial ?_
    split
    · exact trivial
    · exact .ite trivial trivial
  · exact trivial

theorem escaped_stops (start : Nat) (s : List Rune) : Stops (escaped start s) := by
  unfold escaped
  split
  · exact trivial
  · refine .ite trivial ?_
    split
    · exact trivial
    · exact pairUp_stops _ _
  · split <;> exact trivial

theorem textBody_stops (start fuel : Nat) (s : List Rune) : Stops (textBody start fuel s) := by
  fun_induction textBody start fuel s with
  | case1 => exact trivial
  | case2 => exact trivial
  | case3 => exact trivial
  | case4 fuel rest ih =>
    refine (escaped_stops _ _).bind fun r _ => ?_
    exact (ih r.2).bind fun _ _ => trivial
  | case5 => exact trivial
  | case6 fuel c rest _ _ _ ih => exact ih.bind fun _ _ => trivial

theorem quotedText_stops (s : List Rune) : Stops (quotedText s) :=
  (textBody_stops _ _ _).bind fun _ _ => trivial

theorem number_stops (place : List Rune) (negative : Bool) (s : List Rune) :
    Stops (number place negative s) := by
  unfold number
  split
  · exact trivial
  split
  split
  · split
    · next hmany => exact hmany
    · exact trivial
  · exact trivial

theorem plainValue_stops (s : List Rune) : Stops (plainValue s) := by
  unfold plainValue
  split
  iterate 6 exact trivial
  · exact number_stops _ _ _
  · exact number_stops _ _ _

/-! ### Values -/

/-- Every reader comes to a value or to a sound stop with some fuel. -/
structure StopsAll (fuel : Nat) : Prop where
  value (depth : Nat) (s : List Rune) : Stops (value fuel depth s)
  items (depth : Nat) (s : List Rune) : Stops (items fuel depth s)
  members (depth : Nat) (s : List Rune) : Stops (members fuel depth s)

namespace StopsAll

variable {fuel : Nat}

theorem value_succ (ih : StopsAll fuel) (depth : Nat) (s : List Rune) :
    Stops (Json.value (fuel + 1) depth s) := by
  unfold Json.value
  split
  · exact trivial
  · exact (quotedText_stops _).bind fun _ _ => trivial
  · exact trivial
  · exact trivial
  · next heq =>
    cases heq
    split
    · exact trivial
    · exact (ih.items _ _).bind fun _ _ => trivial
  · next heq =>
    cases heq
    split
    · exact trivial
    · exact (ih.members _ _).bind fun _ _ => trivial
  · exact plainValue_stops _

theorem items_succ (ih : StopsAll fuel) (depth : Nat) (s : List Rune) :
    Stops (Json.items (fuel + 1) depth s) := by
  rw [Json.items]
  refine (ih.value depth s).bind ?_
  rintro ⟨item, rest⟩ -
  simp only
  split
  · exact trivial
  · exact (ih.items _ _).bind fun _ _ => trivial
  · exact trivial

theorem members_succ (ih : StopsAll fuel) (depth : Nat) (s : List Rune) :
    Stops (Json.members (fuel + 1) depth s) := by
  unfold Json.members
  split
  · exact trivial
  · next heq =>
    cases heq
    refine (quotedText_stops _).bind ?_
    rintro ⟨key, rest⟩ -
    simp only
    split
    · refine (ih.value _ _).bind ?_
      rintro ⟨held, rest⟩ -
      simp only
      split
      · exact trivial
      · exact (ih.members _ _).bind fun _ _ => trivial
      · exact trivial
    · exact trivial
  · exact trivial

end StopsAll

theorem stopsAll (fuel : Nat) : StopsAll fuel := by
  induction fuel with
  | zero =>
    exact
      { value := fun _ _ => trivial
        items := fun _ _ => trivial
        members := fun _ _ => trivial }
  | succ fuel ih =>
    exact { value := ih.value_succ, items := ih.items_succ, members := ih.members_succ }

theorem whole?_stops (s : List Rune) : Stops (whole? s) := by
  refine .ite trivial (((stopsAll _).value _ _).bind ?_)
  rintro ⟨v, rest⟩ -
  simp only
  split <;> exact trivial

theorem lt_of_read {text : Text} {count : Nat} (h : read text = .error (.tooManyDigits count)) :
    Decimal.mostDigits < count := by
  have hstops := whole?_stops text.toList
  rw [read] at h
  cases hwhole : whole? text.toList with
  | ok v =>
    rw [hwhole] at h
    cases h
  | error stop =>
    rw [hwhole] at h hstops
    cases stop with
    | because reason left => cases h
    | tooDeep => cases h
    | tooManyDigits count =>
      cases h
      exact hstops

end ApiPrep.Json
