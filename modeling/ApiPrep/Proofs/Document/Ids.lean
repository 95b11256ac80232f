import ApiPrep.Proofs.Document.Loops
import ApiPrep.Proofs.Naming.Identifier
import ApiPrep.Proofs.Value.Spelled

namespace ApiPrep.InputDocument

open Naming Record

variable {rule : IdRule} {more : List Assignment} {v w : Value} {entries : Entries} {id : Text}
  {op : Operation} {g : OperationGroup} {d : InputDocument}

/-! ### Operations -/

def hasBoth (entries : Entries) : Bool := entries.has "operation_id" && entries.has "operationId"

/-- Where the id of an operation is from once it has been read. -/
inductive IdSource (rule : IdRule) (entries : Entries) (id : Text) : Prop
  | wire (v : Value) (both : hasBoth entries = true) (found : entries.get? "operationId" = some v)
      (read : Form.readText v = .ok id)
  | kept (v : Value) (single : hasBoth entries = false) (given : hasId entries = true)
      (found : entries.get? (idKey entries) = some v) (read : Form.readText v = .ok id)
  | madeUp (single : hasBoth entries = false) (missing : hasId entries = false)
      (made : (madeUpId rule entries).run.value = .ok id)

theorem operationId_of_ofEntries (h : Operation.ofEntries entries = .ok op) :
    Operation.operationIdMember.read entries = .ok op.operationId := by
  rw [Operation.ofEntries] at h
  -- One field after the other, from the last to the second.
  iterate 14
    rw [Checked.ap_eq_ok_iff] at h
    obtain ⟨_, _, h, -, rfl⟩ := h
  obtain ⟨id, hid, rfl⟩ := Checked.fmap_eq_ok_iff.1 h
  exact hid

theorem read_operationId_iff :
    Operation.operationIdMember.read entries = .ok id ↔
      (((entries.get? "operationId").map Form.readText).or
        ((entries.get? "operation_id").map Form.readText)).getD (.ok "") = .ok id := by
  cases hwire : entries.get? "operationId" with
  | some v =>
    rw [Member.read_wire (m := Operation.operationIdMember) hwire]
    exact Checked.within_eq_ok_iff
  | none =>
    cases hplain : entries.get? "operation_id" with
    | some v =>
      rw [Member.read_plain (m := Operation.operationIdMember) hwire hplain]
      exact Checked.within_eq_ok_iff
    | none =>
      rw [Member.read_absent (m := Operation.operationIdMember) rfl hwire hplain]
      exact Iff.rfl

theorem hasBoth_cases (entries : Entries) :
    (hasBoth entries = true ∧ idKey entries = "operation_id" ∧
        ∃ v, entries.get? "operationId" = some v) ∨
      hasBoth entries = false ∧
        (idKey entries = "operationId" ∧ entries.get? "operation_id" = none ∨
          idKey entries = "operation_id" ∧ entries.get? "operationId" = none) := by
  unfold hasBoth idKey Entries.has
  cases entries.get? "operation_id" with
  | none => exact .inr ⟨rfl, .inl ⟨rfl, rfl⟩⟩
  | some p =>
    cases entries.get? "operationId" with
    | none => exact .inr ⟨rfl, .inr ⟨rfl, rfl⟩⟩
    | some v => exact .inl ⟨rfl, rfl, v, rfl⟩

theorem hasId_iff : hasId entries = true ↔
    ∃ v, entries.get? (idKey entries) = some v ∧ v.given = true ∧
      Text.blank v.plain.toList = false := by
  rw [hasId]
  cases entries.get? (idKey entries) with
  | none => exact iff_of_false nofun fun ⟨_, h, _⟩ => nomatch h
  | some v => simp only [Bool.and_eq_true, Bool.not_eq_true', Option.some.injEq, exists_eq_left']

theorem fillOperation_cases (h : (fillOperation rule v).run.value = .ok (w, more)) :
    (w = v ∧ more = [] ∧ ∀ entries, v.entries? = some entries → hasId entries = true) ∨
      ∃ entries id, v.entries? = some entries ∧ hasId entries = false ∧
        (madeUpId rule entries).run.value = .ok id ∧
        v.put (.text (idKey entries)) (.text id) = (w, more) := by
  rw [fillOperation] at h
  cases hv : v.entries? with
  | none =>
    rw [hv] at h
    cases h
    exact .inl ⟨rfl, rfl, nofun⟩
  | some entries =>
    simp only [hv, Traced.value_run_bind, Outcome.bind_eq_ok_iff] at h
    obtain ⟨⟨⟩, -, h⟩ := h
    split at h
    · next hid =>
      cases h
      exact .inl ⟨rfl, rfl, fun _ he => Option.some.inj he ▸ hid⟩
    · next hid =>
      rw [Traced.value_run_bind, Outcome.bind_eq_ok_iff] at h
      obtain ⟨id, hmade, he⟩ := h
      exact .inr ⟨entries, id, rfl, Bool.eq_false_iff.2 hid, hmade, Except.ok.inj he⟩

def HasIdFrom (rule : IdRule) (v : Value) (op : Operation) : Prop :=
  ∃ entries, v.entries? = some entries ∧ IdSource rule entries op.operationId

theorem fillOperation_hasIdFrom (h : (fillOperation rule v).run.value = .ok (w, more))
    (hr : Operation.form.read w = .ok op) : HasIdFrom rule v op := by
  obtain ⟨after, hw, hread⟩ := Form.record_read_iff.1 hr
  have hid := read_operationId_iff.1 (operationId_of_ofEntries hread)
  rcases fillOperation_cases h with ⟨rfl, -, hgiven⟩ | ⟨entries, id, hv, hmissing, hmade, hput⟩
  · have hgiven := hgiven after hw
    obtain ⟨v, hget, -⟩ := hasId_iff.1 hgiven
    refine ⟨after, hw, ?_⟩
    rcases hasBoth_cases after with ⟨hboth, -, u, hwire⟩ | ⟨hsingle, ⟨hkey, -⟩ | ⟨hkey, hnone⟩⟩
    · rw [hwire] at hid
      exact .wire u hboth hwire hid
    · refine .kept v hsingle hgiven hget ?_
      rw [hkey] at hget
      rw [hget] at hid
      exact hid
    · refine .kept v hsingle hgiven hget ?_
      rw [hkey] at hget
      rw [hnone, hget] at hid
      exact hid
  · obtain ⟨filled, hfilled, htexts⟩ := Value.readText_put hv (idKey entries) id
    rw [hput] at hfilled
    obtain rfl : filled = after := Option.some.inj (hfilled.symm.trans hw)
    rw [htexts, htexts] at hid
    refine ⟨entries, hv, ?_⟩
    rcases hasBoth_cases entries with ⟨hboth, hkey, u, hwire⟩ | ⟨hsingle, ⟨hkey, -⟩ | ⟨hkey, hnone⟩⟩
    · rw [hkey, if_neg (by decide), hwire] at hid
      exact .wire u hboth hwire hid
    · rw [hkey, if_pos rfl] at hid
      cases hid
      exact .madeUp hsingle hmissing hmade
    · rw [hkey, if_neg (by decide), hnone, if_pos rfl] at hid
      cases hid
      exact .madeUp hsingle hmissing hmade

/-! ### Blank ids -/

def fallbackName (entries : Entries) : List Rune :=
  fallbackId (firstGiven entries ["path"] "").plain.toList
    (firstGiven entries ["http_method", "httpMethod"] "get").plain.toList

theorem usual_value {name : Text} (h : (IdRule.usual name).run.value = .ok id) :
    id = Text.ofList (operationId name.toList).1 := by
  by_cases hname : name = ""
  · rw [IdRule.usual, if_pos hname] at h
    cases h
  · exact Except.ok.inj (h.symm.trans (IdRule.usual_eq_ok hname))

theorem madeUpId_usual (h : (madeUpId .usual entries).run.value = .ok id) :
    id.toList = (operationId (fallbackName entries)).1 := by
  simp only [madeUpId, Traced.value_run_bind, Outcome.bind_eq_ok_iff] at h
  obtain ⟨method, hmethod, path, hpath, name, hname, h⟩ := h
  rw [← (Attempt.spelled_eq_ok_iff.1 hmethod).2, ← (Attempt.spelled_eq_ok_iff.1 hpath).2] at hname
  obtain rfl : Text.ofList (fallbackName entries) = name := Except.ok.inj hname
  rw [usual_value h, Text.toList_ofList, Text.toList_ofList]

/-- The ways for an operation to come out of reading with a blank id. -/
inductive Nameless (entries : Entries) : Prop
  /-- Both spellings are there, and the one that is read is blank. -/
  | overridden (v : Value) (s : Text) (both : hasBoth entries = true)
      (found : entries.get? "operationId" = some v) (read : Form.readText v = .ok s)
      (blank : Text.blank s.toList = true)
  /-- The id is given as bytes, which stand for a blank text. -/
  | bytes (content : List UInt8) (s : Text) (single : hasBoth entries = false)
      (given : hasId entries = true)
      (found : entries.get? (idKey entries) = some (.scalar (.bytes content)))
      (read : Form.readText (.scalar (.bytes content)) = .ok s) (blank : Text.blank s.toList = true)
  /-- There is no id, and no letter or digit of ASCII to make one from. -/
  | unnamed (single : hasBoth entries = false) (missing : hasId entries = false)
      (bare : ∀ c ∈ fallbackName entries, c.isAlphanum = false)

theorem IdSource.blank_iff (h : IdSource .usual entries id) :
    Text.blank id.toList = true ↔ Nameless entries := by
  cases h with
  | wire v both found read =>
    refine ⟨fun hblank => .overridden v id both found read hblank, fun hn => ?_⟩
    cases hn with
    | overridden u s _ hfound hread hblank =>
      rw [found, Option.some.injEq] at hfound
      rw [← hfound, read] at hread
      exact Checked.ok.inj hread ▸ hblank
    | bytes _ _ single => exact absurd both (Bool.eq_false_iff.1 single)
    | unnamed single => exact absurd both (Bool.eq_false_iff.1 single)
  | kept v single given found read =>
    obtain ⟨u, hu, -, hplain⟩ := hasId_iff.1 given
    obtain rfl : v = u := Option.some.inj (found.symm.trans hu)
    constructor
    · intro hblank
      match v, read with
      | .text s, read =>
        obtain rfl : s = id := Checked.ok.inj read
        exact absurd hblank (Bool.eq_false_iff.1 hplain)
      | .scalar (.bytes content), read => exact .bytes content id single given found read hblank
    · intro hn
      cases hn with
      | overridden _ _ both => exact absurd both (Bool.eq_false_iff.1 single)
      | bytes content s _ _ hfound hread hblank =>
        rw [found, Option.some.injEq] at hfound
        rw [← hfound, read] at hread
        exact Checked.ok.inj hread ▸ hblank
      | unnamed _ missing => exact absurd given (Bool.eq_false_iff.1 missing)
  | madeUp single missing made =>
    rw [madeUpId_usual made, blank_operationId_iff]
    refine ⟨fun hbare => .unnamed single missing hbare, fun hn => ?_⟩
    cases hn with
    | overridden _ _ both => exact absurd both (Bool.eq_false_iff.1 single)
    | bytes _ _ _ given => exact absurd given (Bool.eq_false_iff.1 missing)
    | unnamed _ _ bare => exact bare

/-! ### Documents -/

def operationsIn (group : Value) : List Value :=
  match group.entries? with
  | some entries => itemsUnder "operations" entries
  | none => []

def givenOperations (entries : Entries) : List Value :=
  (itemsUnder "groups" entries).flatMap operationsIn

/-- The operations of a document as the loops meet them: each with the ids that have been put into
it where it has stood before. -/
def metOperations (rule : IdRule) (entries : Entries) : List Value :=
  (met (fillGroup rule) [] (itemsUnder "groups" entries)).flatMap fun group =>
    met (fillOperation rule) [] (operationsIn group)

theorem operations_of_read (h : OperationGroup.form.read (.map entries) = .ok g) :
    OperationGroup.operationsMember.read entries = .ok g.operations := by
  obtain ⟨_, he, hread⟩ := Form.record_read_iff.1 h
  obtain rfl := Option.some.inj he
  obtain ⟨_, imports, hgroup, -, hg⟩ := Checked.ap_eq_ok_iff.1 hread
  obtain ⟨_, operations, hname, hoperations, rfl⟩ := Checked.ap_eq_ok_iff.1 hgroup
  obtain ⟨classname, -, rfl⟩ := Checked.fmap_eq_ok_iff.1 hname
  rw [hoperations, ← hg]

theorem groups_of_read (h : form.read (.map entries) = .ok d) :
    groupsMember.read entries = .ok d.groups := by
  obtain ⟨_, he, hread⟩ := Form.record_read_iff.1 h
  obtain rfl := Option.some.inj he
  obtain ⟨_, models, hpart, -, hd⟩ := Checked.ap_eq_ok_iff.1 hread
  obtain ⟨groups, hgroups, rfl⟩ := Checked.fmap_eq_ok_iff.1 hpart
  rw [hgroups, ← hd]

theorem fillGroup_cases (h : (fillGroup rule v).run.value = .ok (w, more)) :
    (w = v ∧ more = [] ∧ v.entries? = none) ∨
      ∃ entries filled, v.entries? = some entries ∧ w = .map filled ∧
        (forEachUnder "operations" (fillOperation rule) entries).run.value =
          .ok (filled, more) := by
  rw [fillGroup] at h
  cases hv : v.entries? with
  | none =>
    rw [hv] at h
    cases h
    exact .inl ⟨rfl, rfl, rfl⟩
  | some entries =>
    simp only [hv] at h
    rw [Traced.value_run_bind, Outcome.bind_eq_ok_iff] at h
    obtain ⟨⟨filled, made⟩, hloop, he⟩ := h
    cases he
    exact .inr ⟨entries, filled, rfl, rfl, hloop⟩

def FilledAs (rule : IdRule) (v : Value) (op : Operation) : Prop :=
  ∃ w more, (fillOperation rule v).run.value = .ok (w, more) ∧ Operation.form.read w = .ok op

theorem fillGroup_forall₂ (h : (fillGroup rule v).run.value = .ok (w, more))
    (hr : OperationGroup.form.read w = .ok g) :
    List.Forall₂ (FilledAs rule) (met (fillOperation rule) [] (operationsIn v)) g.operations := by
  rcases fillGroup_cases h with ⟨rfl, -, hv⟩ | ⟨entries, filled, hv, rfl, hloop⟩
  · obtain ⟨_, hw, _⟩ := Form.record_read_iff.1 hr
    rw [hv] at hw
    cases hw
  · have hread : List.Forall₂ (fun v op => Operation.form.read v = .ok op)
        (itemsUnder "operations" filled) g.operations :=
      read_itemsUnder (fun _ _ => Form.record_read_scalar) (operations_of_read hr)
    rw [operationsIn, hv]
    exact forall₂_through (forEachUnder_forall₂ hloop) hread
      fun _ w _ hfill hop => ⟨w, _, hfill, hop⟩

theorem ofEntries_eq_ok (h : (ofEntries rule entries).run.value = .ok d) :
    ∃ filled made, (forEachUnder "groups" (fillGroup rule) entries).run.value = .ok (filled, made) ∧
      form.read (.map filled) = .ok d := by
  rw [ofEntries] at h
  split at h
  · cases h
  · rw [Traced.value_run_bind, Outcome.bind_eq_ok_iff] at h
    obtain ⟨filled, hfilled, h⟩ := h
    rw [fillIds, Traced.value_run_bind, Outcome.bind_eq_ok_iff] at hfilled
    obtain ⟨⟨out, made⟩, hloop, he⟩ := hfilled
    obtain rfl : out = filled := Except.ok.inj he
    refine ⟨out, made, hloop, ?_⟩
    rw [Form.validate] at h
    cases hform : form.read (.map out) with
    | ok d' =>
      rw [hform] at h
      exact congrArg Checked.ok (Except.ok.inj h)
    | faulty issues =>
      rw [hform] at h
      cases h

theorem ofEntries_filledAs (h : (ofEntries rule entries).run.value = .ok d) :
    List.Forall₂ (FilledAs rule) (metOperations rule entries)
      (d.groups.flatMap OperationGroup.operations) := by
  obtain ⟨filled, made, hloop, hread⟩ := ofEntries_eq_ok h
  have hgroups : List.Forall₂ (fun v g => OperationGroup.form.read v = .ok g)
      (itemsUnder "groups" filled) d.groups :=
    read_itemsUnder (fun _ _ => Form.record_read_scalar) (groups_of_read hread)
  have hmet := forall₂_through (forEachUnder_forall₂ hloop) hgroups
    fun _ _ _ hfill hgroup => fillGroup_forall₂ hfill hgroup
  exact List.rel_flatMap hmet fun _ _ hg => hg

theorem ofEntries_forall₂ (h : (ofEntries rule entries).run.value = .ok d) :
    List.Forall₂ (HasIdFrom rule) (metOperations rule entries)
      (d.groups.flatMap OperationGroup.operations) :=
  (ofEntries_filledAs h).imp fun _ _ ⟨_, _, hfill, hop⟩ => fillOperation_hasIdFrom hfill hop

/-- An operation of a document is left with a blank id iff the one that was met in its place is
nameless. -/
theorem ofEntries_blank_id_iff (h : (ofEntries .usual entries).run.value = .ok d) :
    List.Forall₂
      (fun v op => Text.blank op.operationId.toList = true ↔
        ∃ entries, v.entries? = some entries ∧ Nameless entries)
      (metOperations .usual entries) (d.groups.flatMap OperationGroup.operations) := by
  refine (ofEntries_forall₂ h).imp fun v op => ?_
  rintro ⟨entries, hv, hid⟩
  rw [hid.blank_iff, hv]
  exact ⟨fun hn => ⟨entries, rfl, hn⟩, fun ⟨_, he, hn⟩ => Option.some.inj he ▸ hn⟩

def sparse : Entries :=
  let operation (fields : Entries) : Value := .map ((.text "httpMethod", .text "get") :: fields)
  let operations : List Value :=
    [operation [(.text "path", .text "/Api/_")],
      operation [(.text "operation_id", .text "list"), (.text "operationId", .text ""),
        (.text "path", .text "/Api/widgets")],
      operation [(.text "path", .text "/Api/widgets")]]
  [(.text "groups", .list [.map [(.text "operations", .list operations)]])]

def sparseDocument : InputDocument where
  groups := [{
    operations :=
      [{ httpMethod := "get", path := "/Api/_" }, { httpMethod := "get", path := "/Api/widgets" },
        { operationId := "widgets", httpMethod := "get", path := "/Api/widgets" }] }]

theorem ofEntries_sparse : (ofEntries .usual sparse).run.value = .ok sparseDocument := by
  decide +kernel

theorem ofEntries_blank_id_iff_sparse :
    (ofEntries .usual sparse).run.value = .ok sparseDocument ∧
      List.Forall₂
        (fun v op => Text.blank op.operationId.toList = true ↔
          ∃ entries, v.entries? = some entries ∧ Nameless entries)
        (metOperations .usual sparse) (sparseDocument.groups.flatMap OperationGroup.operations) :=
  ⟨ofEntries_sparse, ofEntries_blank_id_iff ofEntries_sparse⟩

theorem ofEntries_leaves_blank_ids :
    ∃ d, (ofEntries .usual sparse).run.value = .ok d ∧
      ∃ op ∈ d.groups.flatMap OperationGroup.operations,
        Text.blank op.operationId.toList = true :=
  ⟨sparseDocument, ofEntries_sparse, { httpMethod := "get", path := "/Api/_" }, by decide,
    by decide⟩

/-! ### Documents without shared operations -/

theorem assigned_fillOperation (hv : ∀ mark collection, v ≠ .marked mark collection) :
    assigned (fillOperation rule) v = [] := by
  cases h : (fillOperation rule v).run.value with
  | error e => rw [assigned, h]
  | ok r =>
    obtain ⟨w, more⟩ := r
    rw [assigned, h]
    rcases fillOperation_cases h with ⟨-, rfl, -⟩ | ⟨entries, id, -, -, -, hput⟩
    · rfl
    · cases v with
      | marked mark collection => exact absurd rfl (hv mark collection)
      | _ => exact (congrArg Prod.snd hput).symm

theorem assigned_fillGroup (hops : ∀ op ∈ operationsIn v, assigned (fillOperation rule) op = []) :
    assigned (fillGroup rule) v = [] := by
  cases h : (fillGroup rule v).run.value with
  | error e => rw [assigned, h]
  | ok r =>
    obtain ⟨w, more⟩ := r
    rw [assigned, h]
    rcases fillGroup_cases h with ⟨-, rfl, -⟩ | ⟨entries, filled, hv, -, hloop⟩
    · rfl
    · rw [operationsIn, hv] at hops
      change more = []
      rw [forEachUnder_made hloop, met_of_assigned_nil hops]
      exact List.flatMap_eq_nil_iff.2 hops

/-- Where no operation stands in several places, the operations are met as they are given. -/
theorem metOperations_eq_given
    (h : ∀ v ∈ givenOperations entries, ∀ mark collection, v ≠ .marked mark collection) :
    metOperations rule entries = givenOperations entries := by
  have hops : ∀ group ∈ itemsUnder "groups" entries, ∀ op ∈ operationsIn group,
      assigned (fillOperation rule) op = [] := fun group hgroup op hop =>
    assigned_fillOperation (h op (List.mem_flatMap.2 ⟨group, hgroup, hop⟩))
  rw [metOperations, met_of_assigned_nil fun group hgroup => assigned_fillGroup (hops group hgroup)]
  exact List.flatMap_congr fun group hgroup => met_of_assigned_nil (hops group hgroup)

end ApiPrep.InputDocument
