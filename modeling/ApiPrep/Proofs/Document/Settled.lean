import ApiPrep.Proofs.Document.Respelled

namespace ApiPrep.InputDocument

open Naming Record

variable {step : Value → Attempt (Value × List Assignment)} {rule : IdRule}
  {values items out : List Value} {v w : Value} {entries filled : Entries} {key k : Text}
  {made more : List Assignment} {d : InputDocument}

/-- Whether a step that assigns nothing leaves alone what it has made of a value. -/
def Settles (step : Value → Attempt (Value × List Assignment)) : Prop :=
  ∀ v w, (step v).run.value = .ok (w, []) → (step w).run.value = .ok (w, [])

/-! ### Loops -/

theorem forEach_again (hstep : Settles step)
    (h : (forEach step [] values).run.value = .ok (out, [])) :
    (forEach step [] out).run.value = .ok (out, []) := by
  induction values generalizing out with
  | nil =>
    cases h
    rfl
  | cons v rest ih =>
    obtain ⟨w, ws, hw, hws, rfl⟩ := forEach_cons_iff.1 h
    -- Nothing is assigned in the end, so that nothing is assigned here.
    have hnone : [] ++ assigned step (v.after []) = [] :=
      (List.append_eq_nil_iff.1 (forEach_made hws).symm).1
    rw [List.nil_append] at hnone hws
    rw [hnone] at hw hws
    have hagain : (step (w.after [])).run.value = .ok (w, []) := hstep _ _ hw
    have hassigned : assigned step (w.after []) = [] := by rw [assigned, hagain]
    refine forEach_cons_iff.2 ⟨w, ws, ?_, ?_, rfl⟩
    · rw [hassigned]
      exact hagain
    · rw [hassigned]
      exact ih hws

theorem withItems_again {collection : Value} (h : collection.sequence? = some items)
    (hlength : out.length = items.length) :
    withItems (withItems collection out).opened out = withItems collection out := by
  cases collection with
  | list => rfl
  | pair first second =>
    cases h
    obtain ⟨a, b, rfl⟩ := List.length_eq_two.1 hlength
    rfl
  | _ => cases h

theorem forEachUnder_again (hstep : Settles step)
    (h : (forEachUnder key step entries).run.value = .ok (filled, [])) :
    (forEachUnder key step filled).run.value = .ok (filled, []) := by
  rcases forEachUnder_cases h with ⟨-, rfl, -⟩ | ⟨v, items, out, -, hitems, hout, hlength, rfl⟩
  · exact h
  · let later := entries.put (.text key) (withItems v.opened out)
    have hlater : later.get? key = some (withItems v.opened out) := by
      rw [Entries.get?_put, if_pos rfl]
    rw [forEachUnder_of_some hlater (sequence?_withItems hitems hlength)]
    refine forItems_eq_ok_iff.2 ⟨out, forEach_again hstep hout, rfl, ?_⟩
    rw [withItems_again hitems hlength, Entries.put_put]

theorem has_of_forEachUnder (h : (forEachUnder key step entries).run.value = .ok (filled, more))
    (k : Text) : filled.has k = entries.has k := by
  rcases forEachUnder_cases h with ⟨-, rfl, -⟩ | ⟨v, items, out, hget, -, -, -, rfl⟩
  · rfl
  · rw [Entries.has, Entries.has, Entries.get?_put]
    split
    · next hk => rw [← hk, hget, Option.isSome_some, Option.isSome_some]
    · rfl

/-! ### Operations -/

theorem idKey_put (entries : Entries) (v : Value) :
    idKey (entries.put (.text (idKey entries)) v) = idKey entries := by
  rw [idKey, Entries.has, Entries.get?_put]
  unfold idKey Entries.has
  cases entries.get? "operation_id" <;> rfl

theorem firstGiven_put {keys : List Text} (hkey : key ∉ keys) (v : Value) (otherwise : Text) :
    firstGiven (entries.put (.text key) v) keys otherwise = firstGiven entries keys otherwise := by
  have hget : keys.filterMap (entries.put (.text key) v).get? = keys.filterMap entries.get? := by
    refine List.filterMap_congr fun k hk => ?_
    rw [Entries.get?_put, if_neg fun he : key = k => hkey (he ▸ hk)]
  rw [firstGiven, firstGiven, hget]

theorem madeUpId_put (rule : IdRule) (entries : Entries) (v : Value) :
    madeUpId rule (entries.put (.text (idKey entries)) v) = madeUpId rule entries := by
  have hkey : idKey entries = "operation_id" ∨ idKey entries = "operationId" := by
    rw [idKey]
    split
    · exact .inl rfl
    · exact .inr rfl
  have hnone {keys : List Text} (h : ↑"operation_id" ∉ keys ∧ ↑"operationId" ∉ keys) :
      idKey entries ∉ keys := by
    rcases hkey with hkey | hkey
    · exact hkey ▸ h.1
    · exact hkey ▸ h.2
  rw [madeUpId, madeUpId, firstGiven_put (hnone (by decide)), firstGiven_put (hnone (by decide))]

theorem fillOperation_settles (rule : IdRule) : Settles (fillOperation rule) := by
  intro v w h
  rcases fillOperation_cases h with ⟨rfl, -, -⟩ | ⟨entries, id, hv, -, hmade, hput⟩
  · exact h
  · cases v with
    | map es =>
      cases hv
      cases hput
      let later := Entries.put entries (.text (idKey entries)) (.text id)
      have hkey : idKey later = idKey entries := idKey_put entries _
      have hget : later.get? (idKey later) = some (.text id) := by
        rw [hkey, Entries.get?_put, if_pos rfl]
      have hcheck : (checkId later).run.value = .ok () := by
        rw [value_checkId, hget]
        rfl
      refine (fillOperation_eq_ok_iff (v := .map later) rfl).2 ⟨hcheck, ?_⟩
      cases hid : hasId later with
      | true => exact .inl ⟨rfl, rfl⟩
      | false =>
        refine .inr ⟨rfl, id, (madeUpId_put rule entries _).symm ▸ hmade, ?_⟩
        rw [hkey]
        exact congrArg (fun e => (Value.map e, [])) (Entries.put_put _ _ _ _)
    | marked mark collection => cases hput
    | _ => cases hv

theorem fillGroup_settles (rule : IdRule) : Settles (fillGroup rule) := by
  intro v w h
  rcases fillGroup_cases h with ⟨rfl, -, -⟩ | ⟨entries, filled, hv, rfl, hloop⟩
  · exact h
  · have hagain := forEachUnder_again (fillOperation_settles rule) hloop
    have hentries : (Value.map filled).entries? = some filled := rfl
    rw [fillGroup, hentries, Traced.value_run_bind, hagain]
    rfl

/-- A document whose ids have been filled in without an assignment is read again as the same. -/
theorem ofEntries_again (h : (ofEntries rule entries).run.value = .ok d)
    (hfill : (forEachUnder "groups" (fillGroup rule) entries).run.value = .ok (filled, [])) :
    (ofEntries rule filled).run.value = .ok d := by
  obtain ⟨hsections, left, made, hloop, hread⟩ := ofEntries_eq_ok_iff.1 h
  rw [hfill] at hloop
  cases hloop
  refine ofEntries_eq_ok_iff.2 ⟨?_, filled, [], ?_, hread⟩
  · rwa [has_of_forEachUnder hfill, has_of_forEachUnder hfill]
  · exact forEachUnder_again (fillGroup_settles rule) hfill

end ApiPrep.InputDocument
