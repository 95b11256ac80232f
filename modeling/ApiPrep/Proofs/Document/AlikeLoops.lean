import ApiPrep.Proofs.Document.IdSpelling

namespace ApiPrep

theorem Value.sequence?_onWire (labels : List Record.Label) (v : Value) :
    (v.onWire labels).sequence? = v.sequence?.map (List.map (Value.onWire labels)) := by
  cases v with
  | list items =>
    rw [onWire_list]
    rfl
  | map entries =>
    rw [onWire_map]
    rfl
  | _ => rfl

namespace InputDocument

open Naming Record

theorem holdsItems_onWire (labels : List Label) (v : Value) :
    holdsItems (v.onWire labels) = holdsItems v := by
  cases v with
  | list items =>
    rw [Value.onWire_list]
    rfl
  | map entries =>
    rw [Value.onWire_map]
    rfl
  | _ => rfl

variable {key : Text} {entries entries' filled : Entries} {l : Label}
  {items values values' out : List Value} {v v' w : Value} {made made' more : List Assignment}
  {step : Value → Attempt (Value × List Assignment)} {ids ids' : Nat → Option Text}
  {a : Assignment}

theorem withItems_onWire (labels : List Label) (v : Value) (out : List Value) :
    (withItems v out).onWire labels =
      withItems (v.onWire labels) (out.map (Value.onWire labels)) := by
  cases v with
  | list items =>
    rw [Value.onWire_list labels items]
    exact Value.onWire_list labels out
  | map entries =>
    rw [Value.onWire_map labels entries]
    exact Value.onWire_list labels out
  | pair first second =>
    match out with
    | [] | [_] | _ :: _ :: _ :: _ => exact Value.onWire_list labels _
    | [_, _] => rfl
  | _ => exact Value.onWire_list labels out

/-! ### Parts of values that are alike -/

theorem Spells.mono (h : Spells ids v) (hsub : w.places ⊆ v.places) : Spells ids w :=
  fun p hp => h p (hsub hp)

theorem doubled_of_onWire (h : entries.onWire labels = entries'.onWire labels) (hl : l ∈ labels) :
    l.Doubled entries ↔ l.Doubled entries' := by
  rw [← Entries.doubled_onWire labels_distinct hl, h, Entries.doubled_onWire labels_distinct hl]

theorem Single.of_onWire (h : Single v) (hw : v.onWire labels = v'.onWire labels) : Single v' := by
  intro entries' hentries'
  have hmap := Value.entries?_onWire labels v
  rw [hw, Value.entries?_onWire, hentries'] at hmap
  obtain ⟨entries, hentries, hsame⟩ := Option.map_eq_some_iff.1 hmap.symm
  have hone := h entries hentries
  rwa [doubled_of_onWire hsame idLabel_mem, doubled_of_onWire hsame methodLabel_mem] at hone

theorem Alike.entries? (h : Alike ids ids' v v') (hv : v.entries? = some entries) :
    ∃ entries', v'.entries? = some entries' ∧ Alike ids ids' (.map entries) (.map entries') := by
  have hmap := Value.entries?_onWire labels v
  rw [h.onWire, Value.entries?_onWire, hv] at hmap
  obtain ⟨entries', hv', hsame⟩ := Option.map_eq_some_iff.1 hmap
  refine ⟨entries', hv', h.left.mono (Value.places_entries? hv),
    h.right.mono (Value.places_entries? hv'), ?_⟩
  rw [Value.onWire_map, Value.onWire_map, hsame]

theorem Alike.entries_onWire (h : Alike ids ids' (.map entries) (.map entries')) :
    entries.onWire labels = entries'.onWire labels := by
  have hwire := h.onWire
  rw [Value.onWire_map, Value.onWire_map] at hwire
  exact Value.map.inj hwire

theorem value?_of_onWire (h : entries.onWire labels = entries'.onWire labels) (hl : l ∈ labels) :
    (l.value? entries).map (Value.onWire labels) =
      (l.value? entries').map (Value.onWire labels) := by
  rw [← Entries.value?_onWire labels_distinct hl, h, Entries.value?_onWire labels_distinct hl]

theorem get?_of_onWire (h : entries.onWire labels = entries'.onWire labels)
    (hkey : (⟨key, key⟩ : Label) ∈ labels) :
    (entries.get? key).map (Value.onWire labels) =
      (entries'.get? key).map (Value.onWire labels) := by
  have hvalue := value?_of_onWire h hkey
  rwa [Entries.value?_eq_get? rfl, Entries.value?_eq_get? rfl] at hvalue

theorem noSequence_of_onWire (h : entries.onWire labels = entries'.onWire labels)
    (hkey : (⟨key, key⟩ : Label) ∈ labels) (hno : NoSequence key entries) :
    NoSequence key entries' := by
  obtain ⟨v, hv, hgiven, hholds⟩ := hno
  obtain ⟨u, hu, rfl⟩ := Option.map_eq_some_iff.1 hv
  have hget := get?_of_onWire h hkey
  rw [hu] at hget
  obtain ⟨u', hu', hsame⟩ := Option.map_eq_some_iff.1 hget.symm
  refine ⟨u'.opened, by rw [hu', Option.map_some], ?_, ?_⟩
  · rw [← Value.given_onWire labels, ← Value.opened_onWire, hsame, Value.opened_onWire,
      Value.given_onWire, hgiven]
  · rw [← holdsItems_onWire labels, ← Value.opened_onWire, hsame, Value.opened_onWire,
      holdsItems_onWire, hholds]

theorem places_sequenceUnder? (h : sequenceUnder? key entries = some items) (hv : v ∈ items) :
    v.places ⊆ (Value.map entries).places := by
  obtain ⟨u, hget, hu⟩ := Option.bind_eq_some_iff.1 h
  exact fun p hp => Value.places_get? hget (u.places_opened (Value.places_sequence? hu hv hp))

theorem sequenceUnder?_of_onWire (h : entries.onWire labels = entries'.onWire labels)
    (hkey : (⟨key, key⟩ : Label) ∈ labels) :
    (sequenceUnder? key entries).map (List.map (Value.onWire labels)) =
      (sequenceUnder? key entries').map (List.map (Value.onWire labels)) := by
  have hthrough (entries : Entries) :
      (sequenceUnder? key entries).map (List.map (Value.onWire labels)) =
        ((entries.get? key).map (Value.onWire labels)).bind fun v => v.opened.sequence? := by
    rw [sequenceUnder?]
    cases entries.get? key with
    | none => rfl
    | some v =>
      rw [Option.map_some, Option.bind_some, Option.bind_some, Value.opened_onWire,
        Value.sequence?_onWire]
  rw [hthrough, hthrough, get?_of_onWire h hkey]

theorem sequenceUnder?_eq_none (h : entries.onWire labels = entries'.onWire labels)
    (hkey : (⟨key, key⟩ : Label) ∈ labels) (hnone : sequenceUnder? key entries = none) :
    sequenceUnder? key entries' = none := by
  have hmap := sequenceUnder?_of_onWire h hkey
  rwa [hnone, Option.map_none, eq_comm, Option.map_eq_none_iff] at hmap

theorem alike_of_map_onWire (hleft : ∀ v ∈ values, Spells ids v)
    (hright : ∀ v ∈ values', Spells ids' v)
    (h : values.map (Value.onWire labels) = values'.map (Value.onWire labels)) :
    List.Forall₂ (Alike ids ids') values values' := by
  induction values generalizing values' with
  | nil =>
    rw [List.map_nil, eq_comm, List.map_eq_nil_iff] at h
    rw [h]
    exact .nil
  | cons v rest ih =>
    cases values' with
    | nil => cases h
    | cons v' rest' =>
      obtain ⟨hv, hrest⟩ := List.forall_mem_cons.1 hleft
      obtain ⟨hv', hrest'⟩ := List.forall_mem_cons.1 hright
      obtain ⟨hhead, htail⟩ := List.cons.inj h
      exact .cons ⟨hv, hv', hhead⟩ (ih hrest hrest' htail)

theorem Alike.sequenceUnder? (h : Alike ids ids' (.map entries) (.map entries'))
    (hkey : (⟨key, key⟩ : Label) ∈ labels) (hitems : sequenceUnder? key entries = some items) :
    ∃ items', sequenceUnder? key entries' = some items' ∧
      List.Forall₂ (Alike ids ids') items items' := by
  have hmap := sequenceUnder?_of_onWire h.entries_onWire hkey
  rw [hitems] at hmap
  obtain ⟨items', hitems', hsame⟩ := Option.map_eq_some_iff.1 hmap.symm
  refine ⟨items', hitems', alike_of_map_onWire ?_ ?_ hsame.symm⟩
  · intro v hv
    exact h.left.mono (places_sequenceUnder? hitems hv)
  · intro v hv
    exact h.right.mono (places_sequenceUnder? hitems' hv)

theorem Alike.symm (h : Alike ids ids' v v') : Alike ids' ids v' v :=
  ⟨h.right, h.left, h.onWire.symm⟩

theorem Alike.itemsUnder (h : Alike ids ids' (.map entries) (.map entries'))
    (hkey : (⟨key, key⟩ : Label) ∈ labels) :
    List.Forall₂ (Alike ids ids') (itemsUnder key entries) (itemsUnder key entries') := by
  rw [itemsUnder_eq, itemsUnder_eq]
  cases hsequence : InputDocument.sequenceUnder? key entries with
  | none =>
    rw [sequenceUnder?_eq_none h.entries_onWire hkey hsequence]
    exact .nil
  | some items =>
    obtain ⟨items', hitems', hall⟩ := h.sequenceUnder? hkey hsequence
    rw [hitems']
    exact hall

theorem Alike.operationsIn (h : Alike ids ids' v v') :
    List.Forall₂ (Alike ids ids') (operationsIn v) (operationsIn v') := by
  rw [InputDocument.operationsIn, InputDocument.operationsIn]
  cases hv : v.entries? with
  | none =>
    have hmap := Value.entries?_onWire labels v
    rw [h.onWire, Value.entries?_onWire, hv, Option.map_none, Option.map_eq_none_iff] at hmap
    rw [hmap]
    exact .nil
  | some entries =>
    obtain ⟨entries', hv', halike⟩ := h.entries? hv
    rw [hv']
    exact halike.itemsUnder (by decide)

theorem Alike.givenOperations (h : Alike ids ids' (.map entries) (.map entries')) :
    List.Forall₂ (Alike ids ids') (givenOperations entries) (givenOperations entries') :=
  List.rel_flatMap (h.itemsUnder (by decide)) fun _ _ hgroup => hgroup.operationsIn

theorem operationsIn_eq (v : Value) :
    operationsIn v = (v.entries?.bind (sequenceUnder? "operations")).getD [] := by
  rw [operationsIn]
  cases v.entries? with
  | none => rfl
  | some entries => exact itemsUnder_eq _ _

theorem places_operationsIn (hop : v ∈ operationsIn w) : v.places ⊆ w.places := by
  rw [operationsIn_eq] at hop
  cases hsequence : w.entries?.bind (sequenceUnder? "operations") with
  | none =>
    rw [hsequence] at hop
    cases hop
  | some items =>
    obtain ⟨entries, hentries, hitems⟩ := Option.bind_eq_some_iff.1 hsequence
    rw [hsequence] at hop
    exact fun p hp => Value.places_entries? hentries (places_sequenceUnder? hitems hop hp)

theorem operationsIn_assign {s : Scalar} (hkey : a.key = .text key) (hheld : a.held = .scalar s)
    (hne : "operations" ≠ key) (v : Value) :
    operationsIn (v.assign a) = (operationsIn v).map (Value.assign a) := by
  rw [operationsIn_eq, operationsIn_eq]
  cases hv : v.entries? with
  | none =>
    cases hassigned : (v.assign a).entries? with
    | none => rfl
    | some entries =>
      have hkeys : (v.assign a).keys? = some entries.keys := by
        rw [Value.keys?, hassigned, Option.map_some]
      obtain ⟨_, hbefore, -⟩ := Value.exists_keys?_assign hkey hkeys
      rw [Value.keys?, hv] at hbefore
      cases hbefore
  | some entries =>
    obtain ⟨assigned, hassigned, hget⟩ := Value.entries?_assign hkey hheld hv
    rw [hassigned, Option.bind_some, Option.bind_some, sequenceUnder?, sequenceUnder?,
      hget "operations" hne]
    cases entries.get? "operations" with
    | none => rfl
    | some operations =>
      rw [Option.map_some, Option.bind_some, Option.bind_some,
        Value.opened_sequence?_assign hkey hheld]
      cases operations.opened.sequence? <;> rfl

/-! ### Loops over values that are alike -/

def Kept (ids ids' : Nat → Option Text) (Fit : Value → Prop) : Prop :=
  ∀ v a a', Fit v → Spells ids v → SameId ids ids' a a' → Fit (v.assign a)

/-- Whether a step does the same to fit values that are alike, as far as good ones come of it. -/
def StepsAlike (ids ids' : Nat → Option Text) (Fit Good : Value → Prop)
    (step : Value → Attempt (Value × List Assignment)) : Prop :=
  ∀ v v' w more, Fit v → Alike ids ids' v v' → (step v).run.value = .ok (w, more) → Good w →
    ∃ w' more', (step v').run.value = .ok (w', more') ∧
      w.onWire labels = w'.onWire labels ∧ List.Forall₂ (SameId ids ids') more more'

section

variable {Fit Good : Value → Prop}

theorem Kept.after (hkept : Kept ids ids' Fit) (hmade : List.Forall₂ (SameId ids ids') made made')
    (hfit : Fit v) (h : Alike ids ids' v v') :
    Fit (v.after made) ∧ Alike ids ids' (v.after made) (v'.after made') := by
  induction hmade generalizing v v' with
  | nil => exact ⟨hfit, h⟩
  | cons ha _ ih => exact ih (hkept _ _ _ hfit h.left ha) (h.assign ha)

theorem forEach_alike (hkept : Kept ids ids' Fit) (hstep : StepsAlike ids ids' Fit Good step)
    (hfit : ∀ v ∈ values, Fit v) (hvalues : List.Forall₂ (Alike ids ids') values values')
    (hmade : List.Forall₂ (SameId ids ids') made made')
    (h : (forEach step made values).run.value = .ok (out, more)) (hout : ∀ w ∈ out, Good w) :
    ∃ out' more', (forEach step made' values').run.value = .ok (out', more') ∧
      out.map (Value.onWire labels) = out'.map (Value.onWire labels) ∧
      List.Forall₂ (SameId ids ids') more more' := by
  -- The loops go on in step: so far they have given the same ids to the same mappings.
  induction hvalues generalizing made made' out with
  | nil =>
    cases h
    exact ⟨[], made', rfl, rfl, hmade⟩
  | @cons v v' rest rest' hv _ ih =>
    obtain ⟨w, ws, hw, hws, rfl⟩ := forEach_cons_iff.1 h
    obtain ⟨hfit, hfits⟩ := List.forall_mem_cons.1 hfit
    obtain ⟨hgood, hgoods⟩ := List.forall_mem_cons.1 hout
    obtain ⟨hmet, halike⟩ := hkept.after hmade hfit hv
    obtain ⟨w', own', hw', hsame, hown⟩ := hstep _ _ _ _ hmet halike hw hgood
    have hassigned : assigned step (v'.after made') = own' := by rw [assigned, hw']
    obtain ⟨ws', more', hws', hall, hmore⟩ := ih hfits (List.rel_append hmade hown) hws hgoods
    refine ⟨w' :: ws', more', forEach_cons_iff.2 ?_, congrArg₂ List.cons hsame hall, hmore⟩
    rw [hassigned]
    exact ⟨w', ws', hw', hws', rfl⟩

/-- A loop over what is under a key does the same in mappings that are alike. -/
theorem forEachUnder_alike (hkept : Kept ids ids' Fit) (hstep : StepsAlike ids ids' Fit Good step)
    (h : Alike ids ids' (.map entries) (.map entries')) (hkey : (⟨key, key⟩ : Label) ∈ labels)
    (hfit : ∀ v ∈ itemsUnder key entries, Fit v)
    (hloop : (forEachUnder key step entries).run.value = .ok (filled, more))
    (hout : ∀ w ∈ itemsUnder key filled, Good w) :
    ∃ filled' more', (forEachUnder key step entries').run.value = .ok (filled', more') ∧
      filled.onWire labels = filled'.onWire labels ∧ List.Forall₂ (SameId ids ids') more more' := by
  have hwire := h.entries_onWire
  rcases forEachUnder_cases hloop with
    ⟨hsequence, rfl, rfl⟩ | ⟨u, items, out, hget, hitems, hforEach, hlength, rfl⟩
  · have hno : ¬NoSequence key entries' := fun hno =>
      not_noSequence_of_ok hloop (noSequence_of_onWire hwire.symm hkey hno)
    rw [forEachUnder_of_none (sequenceUnder?_eq_none hwire hkey hsequence) hno]
    exact ⟨entries', [], rfl, hwire, .nil⟩
  · have hsequence : sequenceUnder? key entries = some items :=
      Option.bind_eq_some_iff.2 ⟨u, hget, hitems⟩
    obtain ⟨items', hsequence', halike⟩ := h.sequenceUnder? hkey hsequence
    obtain ⟨u', hget', hitems'⟩ := Option.bind_eq_some_iff.1 hsequence'
    have hopened : u.opened.onWire labels = u'.opened.onWire labels := by
      have hsame := get?_of_onWire hwire hkey
      rw [hget, hget', Option.map_some, Option.map_some] at hsame
      rw [← Value.opened_onWire, ← Value.opened_onWire, Option.some.inj hsame]
    rw [itemsUnder_eq, hsequence] at hfit
    rw [itemsUnder_eq, sequenceUnder?_withItems hitems hlength] at hout
    obtain ⟨out', more', hforEach', hsame, hmore⟩ :=
      forEach_alike hkept hstep hfit halike .nil hforEach hout
    have honly : ∀ entries : Entries, ∀ other, (⟨key, key⟩ : Label).Names other →
        entries.has other = true → other = key := fun _ _ hother _ => or_self_iff.1 hother
    refine ⟨entries'.put (.text key) (withItems u'.opened out'), more', ?_, ?_, hmore⟩
    · rw [forEachUnder_of_some hget' hitems']
      exact forItems_eq_ok_iff.2 ⟨out', hforEach', length_forEach hforEach', rfl⟩
    · rw [Entries.onWire_put labels_distinct hkey (.inl rfl) (honly entries),
        Entries.onWire_put labels_distinct hkey (.inl rfl) (honly entries'), hwire,
        withItems_onWire, withItems_onWire, hopened, hsame]

end

end InputDocument

end ApiPrep
