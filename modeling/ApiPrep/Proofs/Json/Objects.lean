import ApiPrep.Json.Reader
import ApiPrep.Proofs.Outcome
import ApiPrep.Proofs.Value.Merged

namespace ApiPrep.Json

open Outcome

variable {α : Type} {entries : Entries}

abbrev Makes (post : α → Prop) (x : Except Stop α) : Prop := Ends post (fun _ => True) x

def HasTexts (v : Value) : Prop := ∀ entries, v = .map entries → Entries.Keyed entries

theorem makes_true (x : Except Stop α) : Makes (fun _ => True) x := by
  cases x <;> exact trivial

theorem members_makes (fuel depth : Nat) (s : List Rune) :
    Makes (fun r => ∀ pair ∈ r.1, ∃ t, pair.1 = .text t) (members fuel depth s) := by
  induction fuel generalizing depth s with
  | zero => exact trivial
  | succ fuel ih =>
    unfold members
    split
    · exact trivial
    · next heq =>
      cases heq
      refine (makes_true _).bind ?_
      rintro ⟨key, rest⟩ -
      simp only
      split
      · refine (makes_true _).bind ?_
        rintro ⟨held, rest⟩ -
        simp only
        split
        · exact List.forall_mem_singleton.2 ⟨key, rfl⟩
        · refine (ih _ _).bind fun r hr => ?_
          exact List.forall_mem_cons.2 ⟨⟨key, rfl⟩, hr⟩
        · exact trivial
      · exact trivial
    · exact trivial

theorem number_makes (place : List Rune) (negative : Bool) (s : List Rune) :
    Makes (fun r => HasTexts r.1) (number place negative s) := by
  unfold number
  split
  · exact trivial
  split
  split
  · split
    · exact trivial
    · exact nofun
  · exact nofun

theorem plainValue_makes (s : List Rune) : Makes (fun r => HasTexts r.1) (plainValue s) := by
  unfold plainValue
  split
  iterate 6 exact nofun
  · exact number_makes _ _ _
  · exact number_makes _ _ _

theorem value_makes (fuel depth : Nat) (s : List Rune) :
    Makes (fun r => HasTexts r.1) (value fuel depth s) := by
  unfold value
  split
  · exact trivial
  · exact (makes_true _).bind fun _ _ => nofun
  · exact trivial
  · exact trivial
  · split
    · exact nofun
    · exact (makes_true _).bind fun _ _ => nofun
  · split
    · rintro _ he
      cases he
      exact .nil
    · refine (members_makes _ _ _).bind ?_
      rintro ⟨pairs, rest⟩ hpairs _ he
      cases he
      exact .ofList hpairs
  · exact plainValue_makes _

/-- An object that has been read has distinct texts for keys. -/
theorem keyed_of_read {text : Text} (h : read text = .ok (.map entries)) :
    Entries.Keyed entries := by
  have hmakes : Makes HasTexts (whole? text.toList) := by
    refine .ite trivial ((value_makes _ _ _).bind ?_)
    rintro ⟨v, rest⟩ hv
    simp only
    split
    · exact hv
    · exact trivial
  rw [read] at h
  cases hwhole : whole? text.toList with
  | ok v =>
    rw [hwhole] at h hmakes
    exact hmakes entries (Except.ok.inj h)
  | error stop =>
    rw [hwhole] at h
    cases stop <;> cases h

end ApiPrep.Json
