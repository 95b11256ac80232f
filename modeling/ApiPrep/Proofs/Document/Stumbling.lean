import ApiPrep.Proofs.Document.Ids

namespace ApiPrep

open Naming Outcome

theorem Value.given_text {s : Text} : (Value.text s).given = true ↔ s ≠ "" := by
  rw [Value.given, decide_eq_true_iff]

theorem Value.plain_ne_empty {v : Value} (h : v.given = true) : v.plain ≠ "" := by
  intro he
  rw [Value.plain_eq_empty_iff.1 he, Value.given_text] at h
  exact h rfl

namespace InputDocument

variable {step : Value → Attempt (Value × List Assignment)} {made : List Assignment}
  {values : List Value} {v : Value} {entries : Entries} {key : Text} {rule : IdRule}
  {f : Failure}

theorem firstGiven_given {otherwise : Text} (h : otherwise ≠ "") (keys : List Text) :
    (firstGiven entries keys otherwise).given = true := by
  rw [firstGiven]
  cases hfind : (keys.filterMap entries.get?).find? Value.given with
  | none => exact Value.given_text.2 h
  | some v => exact List.find?_some hfind

/-! ### Loops -/

theorem exists_met_of_forEach_error (h : (forEach step made values).run.value = .error f) :
    ∃ v ∈ met step made values, (step v).run.value = .error f := by
  induction values generalizing made with
  | nil => cases h
  | cons v rest ih =>
    rw [forEach, Traced.value_run_bind, bind_eq_error_iff] at h
    rcases h with h | ⟨⟨w, own⟩, hw, h⟩
    · exact ⟨v.after made, List.mem_cons_self, h⟩
    · have hown : assigned step (v.after made) = own := by rw [assigned, hw]
      rw [Traced.value_run_bind] at h
      obtain ⟨u, hu, hf⟩ := ih ((bind_eq_error_iff_left fun _ => ⟨_, rfl⟩).1 h)
      exact ⟨u, List.mem_cons_of_mem _ (hown ▸ hu), hf⟩

theorem exists_of_forall₂_mem {α β : Type} {R : α → β → Prop} {as : List α} {bs : List β}
    (h : List.Forall₂ R as bs) {a : α} (ha : a ∈ as) : ∃ b, R a b := by
  induction h with
  | nil => exact absurd ha List.not_mem_nil
  | cons hab _ ih =>
    rcases List.mem_cons.1 ha with rfl | ha
    · exact ⟨_, hab⟩
    · exact ih ha

theorem forEach_error_of_met (hv : v ∈ met step made values)
    (h : (step v).run.value = .error f) :
    ∃ g, (forEach step made values).run.value = .error g := by
  cases hloop : (forEach step made values).run.value with
  | error g => exact ⟨g, rfl⟩
  | ok out =>
    obtain ⟨out, more⟩ := out
    obtain ⟨w, hw⟩ := exists_of_forall₂_mem (forEach_forall₂ hloop) hv
    rw [h] at hw
    cases hw

theorem forItems_eq_error_iff {collection : Value} {items : List Value} :
    (forItems key step collection items entries).run.value = .error f ↔
      (forEach step [] items).run.value = .error f := by
  rw [forItems, Traced.value_run_bind]
  exact bind_eq_error_iff_left fun _ => ⟨_, rfl⟩

theorem forEachUnder_eq_error_iff :
    (forEachUnder key step entries).run.value = .error f ↔
      NoSequence key entries ∧ f = .broken .noSequence ∨
        (forEach step [] (itemsUnder key entries)).run.value = .error f := by
  rw [itemsUnder_eq]
  cases hsequence : sequenceUnder? key entries with
  | some items =>
    obtain ⟨v, hget, hitems⟩ := Option.bind_eq_some_iff.1 hsequence
    have hno : ¬NoSequence key entries := fun hno => by
      rw [hno.sequenceUnder?] at hsequence
      cases hsequence
    rw [forEachUnder_of_some hget hitems, forItems_eq_error_iff]
    exact (or_iff_right fun h => hno h.1).symm
  | none =>
    have hnone : ¬(forEach step [] []).run.value = .error f := nofun
    rw [Option.getD_none, or_iff_left hnone]
    by_cases hno : NoSequence key entries
    · rw [forEachUnder_of_noSequence hno, and_iff_right hno]
      exact ⟨fun h => (Except.error.inj h).symm, fun h => congrArg Except.error h.symm⟩
    · rw [forEachUnder_of_none hsequence hno]
      exact iff_of_false nofun fun h => hno h.1

/-! ### Operations -/

def textObstacle? (entries : Entries) : Option Breakdown :=
  ((entries.get? (idKey entries)).bind Value.obstacle?).or <|
    if hasId entries then none
    else
      (firstGiven entries ["http_method", "httpMethod"] "get").obstacle?.or
        (firstGiven entries ["path"] "").obstacle?

theorem value_checkId (entries : Entries) :
    (checkId entries).run.value = match (entries.get? (idKey entries)).bind Value.obstacle? with
      | some b => .error (.broken b)
      | none => .ok () := by
  rw [checkId]
  cases entries.get? (idKey entries) with
  | none => rfl
  | some id => exact Attempt.value_spellable id

theorem fault?_madeUpId (entries : Entries) :
    fault? (madeUpId .usual entries).run.value =
      ((firstGiven entries ["http_method", "httpMethod"] "get").obstacle?.or
        (firstGiven entries ["path"] "").obstacle?).map .broken := by
  have hmethod : (firstGiven entries ["http_method", "httpMethod"] "get").plain ≠ "" :=
    Value.plain_ne_empty (firstGiven_given (by decide) _)
  have hname (path : Text) : (idOrFallback none path
      (firstGiven entries ["http_method", "httpMethod"] "get").plain).value ≠ "" :=
    ofList_ne_empty (fallbackId_ne_nil (fun he => hmethod (Text.toList_eq_nil_iff.1 he)) _)
  simp only [madeUpId, Traced.value_run_bind, Attempt.value_spelled, Traced.value_run_lift]
  cases (firstGiven entries ["http_method", "httpMethod"] "get").obstacle? with
  | some b => rfl
  | none =>
    cases (firstGiven entries ["path"] "").obstacle? with
    | some b => rfl
    | none =>
      simp only [ok_bind, Option.or_none, Option.map_none]
      refine Option.eq_none_iff_forall_ne_some.2 fun f hf => ?_
      exact hname _ (IdRule.usual_eq_error_iff.1 (fault?_eq_some_iff.1 hf)).1

theorem fault?_fillOperation (v : Value) :
    fault? (fillOperation .usual v).run.value = (v.entries?.bind textObstacle?).map .broken := by
  rw [fillOperation]
  cases v.entries? with
  | none => rfl
  | some entries =>
    rw [Option.bind_some, textObstacle?, Traced.value_run_bind, value_checkId]
    cases (entries.get? (idKey entries)).bind Value.obstacle? with
    | some b => rfl
    | none =>
      change fault? (if hasId entries then _ else _ : Attempt _).run.value = _
      split
      · rfl
      · rw [Option.none_or, ← fault?_madeUpId, Traced.value_run_bind]
        cases (madeUpId .usual entries).run.value <;> rfl

/-! ### Documents -/

theorem fillGroup_eq_error_iff :
    (fillGroup rule v).run.value = .error f ↔ ∃ entries, v.entries? = some entries ∧
      (forEachUnder "operations" (fillOperation rule) entries).run.value = .error f := by
  rw [fillGroup]
  cases hv : v.entries? with
  | none =>
    constructor
    · intro h
      cases h
    · rintro ⟨entries, h, -⟩
      cases h
  | some entries =>
    simp only [Option.some.injEq, exists_eq_left', Traced.value_run_bind]
    exact bind_eq_error_iff_left fun _ => ⟨_, rfl⟩

theorem has_of_forEachUnder_error
    (h : (forEachUnder key step entries).run.value = .error f) : entries.has key = true := by
  rw [Entries.has]
  cases hget : entries.get? key with
  | some v => rfl
  | none =>
    rw [forEachUnder, hget] at h
    cases h

theorem sections_of_forEachUnder_error
    (h : (forEachUnder "groups" step entries).run.value = .error f) :
    ¬(!entries.has "groups" && !entries.has "models") = true := by
  rw [has_of_forEachUnder_error h]
  exact Bool.false_ne_true

/-- A document without sections or with faulty ones is refused; besides, only the loops over it
can fail. -/
theorem ofEntries_eq_error (h : (ofEntries rule entries).run.value = .error f) :
    (∃ i, f = .refused (.input i)) ∨
      (forEachUnder "groups" (fillGroup rule) entries).run.value = .error f := by
  rw [ofEntries] at h
  split at h
  · exact .inl ⟨_, (Except.error.inj h).symm⟩
  · rw [Traced.value_run_bind, bind_eq_error_iff] at h
    rcases h with h | ⟨filled, -, h⟩
    · rw [fillIds, Traced.value_run_bind] at h
      exact .inr ((bind_eq_error_iff_left fun _ => ⟨_, rfl⟩).1 h)
    · split at h
      · cases h
      · exact .inl ⟨_, (Except.error.inj h).symm⟩

theorem ofEntries_error_of_loop
    (h : (forEachUnder "groups" (fillGroup rule) entries).run.value = .error f) :
    (ofEntries rule entries).run.value = .error f := by
  rw [ofEntries, if_neg (sections_of_forEachUnder_error h), Traced.value_run_bind, fillIds,
    Traced.value_run_bind, h]
  rfl

/-- What breaks the reading of a document down. -/
inductive Stumble (entries : Entries) : Breakdown → Prop
  /-- One cannot go over the groups. -/
  | groups (stuck : NoSequence "groups" entries) : Stumble entries .noSequence
  /-- One cannot go over the operations of a group. -/
  | operations (group : Value) (fields : Entries)
      (found : group ∈ met (fillGroup .usual) [] (itemsUnder "groups" entries))
      (holds : group.entries? = some fields) (stuck : NoSequence "operations" fields) :
      Stumble entries .noSequence
  /-- The id of an operation, its method or its path cannot be spelled out. -/
  | text (operation : Value) (fields : Entries) (b : Breakdown)
      (found : operation ∈ metOperations .usual entries)
      (holds : operation.entries? = some fields) (stuck : textObstacle? fields = some b) :
      Stumble entries b

theorem fillOperation_eq_error_iff :
    (fillOperation .usual v).run.value = .error f ↔
      ∃ fields b, v.entries? = some fields ∧ textObstacle? fields = some b ∧ f = .broken b := by
  rw [← fault?_eq_some_iff, fault?_fillOperation, Option.map_eq_some_iff]
  simp only [Option.bind_eq_some_iff]
  constructor
  · rintro ⟨b, ⟨fields, hv, hb⟩, rfl⟩
    exact ⟨fields, b, hv, hb, rfl⟩
  · rintro ⟨fields, b, hv, hb, rfl⟩
    exact ⟨b, ⟨fields, hv, hb⟩, rfl⟩

theorem stumble_of_loop
    (h : (forEachUnder "groups" (fillGroup .usual) entries).run.value = .error f) :
    ∃ b, f = .broken b ∧ Stumble entries b := by
  rcases forEachUnder_eq_error_iff.1 h with ⟨hno, rfl⟩ | h
  · exact ⟨_, rfl, .groups hno⟩
  obtain ⟨group, hgroup, h⟩ := exists_met_of_forEach_error h
  obtain ⟨fields, hfields, h⟩ := fillGroup_eq_error_iff.1 h
  rcases forEachUnder_eq_error_iff.1 h with ⟨hno, rfl⟩ | h
  · exact ⟨_, rfl, .operations group fields hgroup hfields hno⟩
  obtain ⟨operation, hop, h⟩ := exists_met_of_forEach_error h
  obtain ⟨texts, b, htexts, hb, rfl⟩ := fillOperation_eq_error_iff.1 h
  refine ⟨b, rfl, .text operation texts b (List.mem_flatMap.2 ⟨group, hgroup, ?_⟩) htexts hb⟩
  rwa [operationsIn, hfields]

theorem loop_error_of_group {group : Value} {fields : Entries}
    (hgroup : group ∈ met (fillGroup rule) [] (itemsUnder "groups" entries))
    (hfields : group.entries? = some fields)
    (h : (forEachUnder "operations" (fillOperation rule) fields).run.value = .error f) :
    ∃ g, (forEachUnder "groups" (fillGroup rule) entries).run.value = .error g := by
  obtain ⟨g, hg⟩ := forEach_error_of_met hgroup (fillGroup_eq_error_iff.2 ⟨fields, hfields, h⟩)
  exact ⟨g, forEachUnder_eq_error_iff.2 (.inr hg)⟩

theorem Stumble.loop_error {b : Breakdown} (h : Stumble entries b) :
    ∃ g, (forEachUnder "groups" (fillGroup .usual) entries).run.value = .error g := by
  cases h with
  | groups stuck => exact ⟨_, forEachUnder_eq_error_iff.2 (.inl ⟨stuck, rfl⟩)⟩
  | operations group fields found holds stuck =>
    exact loop_error_of_group found holds (forEachUnder_eq_error_iff.2 (.inl ⟨stuck, rfl⟩))
  | text operation fields b found holds stuck =>
    obtain ⟨group, hgroup, hop⟩ := List.mem_flatMap.1 found
    rw [operationsIn] at hop
    cases hentries : group.entries? with
    | none =>
      rw [hentries] at hop
      exact absurd hop List.not_mem_nil
    | some texts =>
      rw [hentries] at hop
      obtain ⟨g, hg⟩ :=
        forEach_error_of_met hop (fillOperation_eq_error_iff.2 ⟨fields, b, holds, stuck, rfl⟩)
      exact loop_error_of_group hgroup hentries (forEachUnder_eq_error_iff.2 (.inr hg))

/-- A document that is not read is reported as bad input, but for the ones that the loops over it
stumble on: these break the run down. -/
theorem ofEntries_breaks_iff_stumbles (entries : Entries) :
    (∀ f, (ofEntries .usual entries).run.value = .error f →
      (∃ i, f = .refused (.input i)) ∨ ∃ b, f = .broken b ∧ Stumble entries b) ∧
    ((∃ b, (ofEntries .usual entries).run.value = .error (.broken b)) ↔
      ∃ b, Stumble entries b) := by
  refine ⟨fun f h => (ofEntries_eq_error h).imp_right stumble_of_loop, ?_⟩
  constructor
  · rintro ⟨b, h⟩
    rcases ofEntries_eq_error h with ⟨i, hi⟩ | h
    · cases hi
    · obtain ⟨b, -, hb⟩ := stumble_of_loop h
      exact ⟨b, hb⟩
  · rintro ⟨b, hb⟩
    obtain ⟨g, hg⟩ := hb.loop_error
    obtain ⟨b, rfl, -⟩ := stumble_of_loop hg
    exact ⟨b, ofEntries_error_of_loop hg⟩

/-- A number in place of the groups is no reported fault. -/
theorem ofEntries_stumbles_on_number :
    ∃ f, (ofEntries .usual [(.text "groups", .scalar (.int 5))]).run.value = .error f ∧
      ∀ i, f ≠ .refused (.input i) :=
  ⟨.broken .noSequence, by decide +kernel, nofun⟩

end InputDocument

end ApiPrep
