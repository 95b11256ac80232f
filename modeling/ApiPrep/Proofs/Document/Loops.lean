import ApiPrep.Document.Read
import ApiPrep.Proofs.Outcome
import ApiPrep.Proofs.Record.Reading
import ApiPrep.Proofs.Value.Assigned

namespace ApiPrep.InputDocument

open Record

variable {step : Value → Attempt (Value × List Assignment)} {made more : List Assignment}
  {values items out : List Value} {v w collection : Value} {entries filled : Entries} {key : Text}

def assigned (step : Value → Attempt (Value × List Assignment)) (v : Value) : List Assignment :=
  match (step v).run.value with
  | .ok (_, made) => made
  | .error _ => []

/-- The values of a loop as the step meets them: with all that it has assigned before. -/
def met (step : Value → Attempt (Value × List Assignment)) (made : List Assignment) :
    List Value → List Value
  | [] => []
  | v :: rest => v.after made :: met step (made ++ assigned step (v.after made)) rest

theorem met_of_assigned_nil (h : ∀ v ∈ values, assigned step v = []) :
    met step [] values = values := by
  induction values with
  | nil => rfl
  | cons v rest ih =>
    obtain ⟨hv, hrest⟩ := List.forall_mem_cons.1 h
    change v :: met step ([] ++ assigned step v) rest = v :: rest
    rw [hv, List.append_nil, ih hrest]

theorem length_met (made : List Assignment) (values : List Value) :
    (met step made values).length = values.length := by
  induction values generalizing made with
  | nil => rfl
  | cons v rest ih => exact congrArg Nat.succ (ih _)

theorem forEach_cons_iff {rest : List Value} :
    (forEach step made (v :: rest)).run.value = .ok (out, more) ↔
      ∃ w ws, (step (v.after made)).run.value = .ok (w, assigned step (v.after made)) ∧
        (forEach step (made ++ assigned step (v.after made)) rest).run.value = .ok (ws, more) ∧
        w :: ws = out := by
  rw [forEach, Traced.value_run_bind, assigned]
  cases (step (v.after made)).run.value with
  | error e => exact iff_of_false nofun fun ⟨_, _, h, _⟩ => nomatch h
  | ok r =>
    obtain ⟨w, own⟩ := r
    change (forEach step (made ++ own) rest >>= fun r => pure (w :: r.1, r.2)).run.value = _ ↔ _
    rw [Traced.value_run_bind, Outcome.bind_eq_ok_iff]
    constructor
    · rintro ⟨⟨ws, all⟩, hws, he⟩
      cases he
      exact ⟨w, ws, rfl, hws, rfl⟩
    · rintro ⟨w', ws, hw, hws, rfl⟩
      cases hw
      exact ⟨(ws, more), hws, rfl⟩

theorem forEach_forall₂ (h : (forEach step made values).run.value = .ok (out, more)) :
    List.Forall₂ (fun v w => (step v).run.value = .ok (w, assigned step v)) (met step made values)
      out := by
  induction values generalizing made out with
  | nil =>
    cases h
    exact .nil
  | cons v rest ih =>
    obtain ⟨w, ws, hw, hws, rfl⟩ := forEach_cons_iff.1 h
    exact .cons hw (ih hws)

theorem length_forEach (h : (forEach step made values).run.value = .ok (out, more)) :
    out.length = values.length := by
  rw [← (forEach_forall₂ h).length_eq, length_met]

theorem forEach_made (h : (forEach step made values).run.value = .ok (out, more)) :
    more = made ++ (met step made values).flatMap (assigned step) := by
  induction values generalizing made out with
  | nil =>
    cases h
    exact (List.append_nil _).symm
  | cons v rest ih =>
    obtain ⟨w, ws, hw, hws, rfl⟩ := forEach_cons_iff.1 h
    rw [ih hws, met, List.flatMap_cons, List.append_assoc]

theorem forall₂_through {α β γ : Type} {R : α → β → Prop} {S : β → γ → Prop} {T : α → γ → Prop}
    {as : List α} {bs : List β} {cs : List γ} (hR : List.Forall₂ R as bs)
    (hS : List.Forall₂ S bs cs) (hRS : ∀ a b c, R a b → S b c → T a c) : List.Forall₂ T as cs := by
  induction hR generalizing cs with
  | nil =>
    cases hS
    exact .nil
  | cons hab _ ih =>
    cases hS with
    | cons hbc hS => exact .cons (hRS _ _ _ hab hbc) (ih hS)

def itemsUnder (key : Text) (entries : Entries) : List Value :=
  match (entries.get? key).map Value.opened with
  | some (.list items) => items
  | some (.pair first second) => [first, second]
  | _ => []

def sequenceUnder? (key : Text) (entries : Entries) : Option (List Value) :=
  (entries.get? key).bind fun v => v.opened.sequence?

def holdsItems : Value → Bool
  | .list _ | .map _ | .set _ | .pair .. => true
  | .text _ | .scalar (.bytes _) => true
  | _ => false

/-- What is under a key is given, but one cannot go over it. -/
def NoSequence (key : Text) (entries : Entries) : Prop :=
  ∃ v, (entries.get? key).map Value.opened = some v ∧ v.given = true ∧ holdsItems v = false

theorem NoSequence.sequenceUnder? (h : NoSequence key entries) :
    sequenceUnder? key entries = none := by
  obtain ⟨v, hv, -, hholds⟩ := h
  obtain ⟨u, hget, rfl⟩ := Option.map_eq_some_iff.1 hv
  rw [InputDocument.sequenceUnder?, hget, Option.bind_some]
  cases hu : u.opened with
  | list | pair =>
    rw [hu] at hholds
    cases hholds
  | _ => rfl

theorem itemsUnder_eq (key : Text) (entries : Entries) :
    itemsUnder key entries = (sequenceUnder? key entries).getD [] := by
  rw [itemsUnder, sequenceUnder?]
  cases entries.get? key with
  | none => rfl
  | some v =>
    rw [Option.map_some, Option.bind_some]
    cases v.opened <;> rfl

theorem sequence?_withItems (h : collection.sequence? = some items)
    (hlength : out.length = items.length) :
    (withItems collection out).opened.sequence? = some out := by
  cases collection with
  | list => rfl
  | pair =>
    cases h
    obtain ⟨a, b, rfl⟩ := List.length_eq_two.1 hlength
    rfl
  | _ => cases h

theorem sequenceUnder?_withItems (h : collection.sequence? = some items)
    (hlength : out.length = items.length) :
    sequenceUnder? key (entries.put (.text key) (withItems collection out)) = some out := by
  rw [sequenceUnder?, Entries.get?_put, if_pos rfl]
  exact sequence?_withItems h hlength

theorem forEachUnder_of_some (hget : entries.get? key = some v)
    (hitems : v.opened.sequence? = some items) :
    forEachUnder key step entries = forItems key step v.opened items entries := by
  rw [forEachUnder, hget, Option.map_some]
  cases hv : v.opened with
  | list | pair =>
    rw [hv] at hitems
    cases hitems
    rfl
  | _ =>
    rw [hv] at hitems
    cases hitems

theorem forEachUnder_of_noSequence (h : NoSequence key entries) :
    forEachUnder key step entries = Attempt.broken .noSequence := by
  obtain ⟨v, hv, hgiven, hholds⟩ := h
  rw [forEachUnder, hv]
  cases v with
  | list | map | set | pair => cases hholds
  | marked | again => exact if_pos hgiven
  | scalar s =>
    cases s with
    | text | bytes => cases hholds
    | _ => exact if_pos hgiven

theorem forEachUnder_of_none (h : sequenceUnder? key entries = none)
    (hno : ¬NoSequence key entries) : forEachUnder key step entries = pure (entries, []) := by
  rw [forEachUnder]
  cases hget : entries.get? key with
  | none => rfl
  | some v =>
    have hv : v.opened.sequence? = none := by
      rw [sequenceUnder?, hget] at h
      exact h
    have hfree : holdsItems v.opened = false → ¬v.opened.given = true := by
      intro hholds hgiven
      exact hno ⟨v.opened, by rw [hget, Option.map_some], hgiven, hholds⟩
    rw [Option.map_some]
    generalize v.opened = u at hv hfree
    cases u with
    | list | pair => cases hv
    | map | set => rfl
    | marked | again => exact if_neg (hfree rfl)
    | scalar s =>
      cases s with
      | text | bytes => rfl
      | _ => exact if_neg (hfree rfl)

theorem not_noSequence_of_ok (h : (forEachUnder key step entries).run.value = .ok (filled, more)) :
    ¬NoSequence key entries := by
  intro hno
  rw [forEachUnder_of_noSequence hno] at h
  cases h

theorem forItems_eq_ok_iff :
    (forItems key step collection items entries).run.value = .ok (filled, more) ↔
      ∃ out, (forEach step [] items).run.value = .ok (out, more) ∧ out.length = items.length ∧
        entries.put (.text key) (withItems collection out) = filled := by
  rw [forItems, Traced.value_run_bind, Outcome.bind_eq_ok_iff]
  constructor
  · rintro ⟨⟨out, made⟩, hout, he⟩
    cases he
    exact ⟨out, hout, length_forEach hout, rfl⟩
  · rintro ⟨out, hout, -, rfl⟩
    exact ⟨(out, more), hout, rfl⟩

/-- What is under a key has other items once a loop is done, or there was nothing to go over. -/
theorem forEachUnder_cases (h : (forEachUnder key step entries).run.value = .ok (filled, more)) :
    (sequenceUnder? key entries = none ∧ filled = entries ∧ more = []) ∨
      ∃ v items out, entries.get? key = some v ∧ v.opened.sequence? = some items ∧
        (forEach step [] items).run.value = .ok (out, more) ∧ out.length = items.length ∧
        entries.put (.text key) (withItems v.opened out) = filled := by
  cases hsequence : sequenceUnder? key entries with
  | none =>
    rw [forEachUnder_of_none hsequence (not_noSequence_of_ok h)] at h
    cases h
    exact .inl ⟨rfl, rfl, rfl⟩
  | some items =>
    obtain ⟨v, hget, hitems⟩ := Option.bind_eq_some_iff.1 hsequence
    rw [forEachUnder_of_some hget hitems] at h
    obtain ⟨out, hout⟩ := forItems_eq_ok_iff.1 h
    exact .inr ⟨v, items, out, hget, hitems, hout⟩

theorem forEachUnder_forEach (h : (forEachUnder key step entries).run.value = .ok (filled, more)) :
    (forEach step [] (itemsUnder key entries)).run.value = .ok (itemsUnder key filled, more) := by
  rw [itemsUnder_eq, itemsUnder_eq]
  rcases forEachUnder_cases h with ⟨hnone, rfl, rfl⟩ | ⟨v, items, out, hget, hv, hout, hlength, rfl⟩
  · rw [hnone]
    rfl
  · rw [sequenceUnder?, hget, Option.bind_some, hv, sequenceUnder?_withItems hv hlength]
    exact hout

theorem forEachUnder_forall₂ (h : (forEachUnder key step entries).run.value = .ok (filled, more)) :
    List.Forall₂ (fun v w => (step v).run.value = .ok (w, assigned step v))
      (met step [] (itemsUnder key entries)) (itemsUnder key filled) :=
  forEach_forall₂ (forEachUnder_forEach h)

theorem forEachUnder_made (h : (forEachUnder key step entries).run.value = .ok (filled, more)) :
    more = (met step [] (itemsUnder key entries)).flatMap (assigned step) :=
  forEach_made (forEachUnder_forEach h)

theorem read_itemsUnder {α : Type} {f : Form α} {as : List α}
    (hf : ∀ s a, f.read (.scalar s) ≠ .ok a) (h : (Member.list key key f).read entries = .ok as) :
    List.Forall₂ (fun v a => f.read v = .ok a) (itemsUnder key entries) as := by
  rw [itemsUnder]
  cases hget : entries.get? key with
  | none =>
    have hread : (Member.list key key f).read entries = .ok [] := Member.read_absent rfl hget hget
    rw [hread] at h
    cases h
    exact .nil
  | some v =>
    have hread : (Member.list key key f).read entries = ((Form.list f).read v).within (.key key) :=
      Member.read_wire hget
    rw [hread, Checked.within_eq_ok_iff] at h
    simp only [Form.list, Form.sequence] at h
    rw [Option.map_some]
    cases hv : v.opened with
    | list items =>
      rw [hv] at h
      exact Form.readItems_iff.1 h
    | pair first second =>
      rw [hv] at h
      exact Form.readItems_iff.1 h
    | set members =>
      -- A set is read member by member, but has only scalars.
      rw [hv] at h
      cases members with
      | nil =>
        cases h
        exact .nil
      | cons s rest =>
        cases Form.readItems_iff.1 h with
        | cons hs _ => exact absurd hs (hf s _)
    | _ =>
      rw [hv] at h
      cases h

end ApiPrep.InputDocument
