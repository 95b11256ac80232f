import ApiPrep.Proofs.Document.Settled
import ApiPrep.Proofs.Value.Trees

namespace ApiPrep.InputDocument

open Naming Record

/-! ### What becomes of a document -/

def spelledOr (l : Label) (otherwise : Text) (entries : Entries) : Text :=
  (((l.value? entries).filter Value.given).map Value.plain).getD otherwise

def ownPath (entries : Entries) : Text := spelledOr pathLabel "" entries

def ownMethod (entries : Entries) : Text := spelledOr methodLabel "get" entries

def ownName (entries : Entries) : Text :=
  (idOrFallback none (ownPath entries) (ownMethod entries)).value

def lacksId (entries : Entries) : Bool :=
  match idLabel.value? entries with
  | none => true
  | some (.text id) => Text.blank id.toList
  | some id => !id.given

def missingId (entries : Entries) : Note where
  level := .warning
  text := "Empty operationId found for path: " ++ ownMethod entries ++ " " ++ ownPath entries ++
    ". Renamed to auto-generated operationId: " ++ ownName entries

def notesOn (rule : IdRule) : Value → List Note
  | .map (entries : Entries) =>
    if lacksId entries then missingId entries :: (rule (ownName entries)).run.notes else []
  | _ => []

def withId (rule : IdRule) : Value → Value
  | .map (entries : Entries) =>
    if lacksId entries then
      match (rule (ownName entries)).run.value with
      | .ok id => .map (entries.put (.text (idKey entries)) (.text id))
      | .error _ => .map entries
    else .map entries
  | other => other

def groupWithIds (rule : IdRule) : Value → Value
  | .map (entries : Entries) => .map (entries.change "operations" (.changeItems (withId rule)))
  | other => other

def withIds (rule : IdRule) (entries : Entries) : Entries :=
  entries.change "groups" (.changeItems (groupWithIds rule))

/-- Whether an operation has kept its id, or has got one that is made up from its own path and
method. A path or a method in bytes is spelled out. -/
structure RightId (rule : IdRule) (entries : Entries) (op : Operation) : Prop where
  path : (∃ s, pathLabel.value? entries = some (.text s)) → ownPath entries = op.path
  method : (∃ s, methodLabel.value? entries = some (.text s)) →
    ownMethod entries = if op.httpMethod = "" then ↑"get" else op.httpMethod
  kept : ∀ id, idLabel.value? entries = some (.text id) → Text.blank id.toList = false →
    op.operationId = id
  madeUp : lacksId entries = true → (rule (ownName entries)).run.value = .ok op.operationId

/-- What comes of reading a document whose operations may lack their ids. -/
structure Filled (rule : IdRule) (entries : Entries) (d : InputDocument) : Prop where
  operations : List.Forall₂ (fun v op => ∃ fields, v = .map fields ∧ RightId rule fields op)
    (givenOperations entries) (d.groups.flatMap OperationGroup.operations)
  /-- There is one warning for each operation that lacks an id, in their order. -/
  notes : (ofEntries rule entries).run.notes = (givenOperations entries).flatMap (notesOn rule)
  /-- Only the ids that are lacking are put in. -/
  left : (fillIds rule entries).run.value = .ok (withIds rule entries)
  again : (ofEntries rule (withIds rule entries)).run.value = .ok d

variable {rule : IdRule} {entries : Entries} {v w : Value} {values : List Value} {op : Operation}
  {d : InputDocument} {key id : Text} {step : Value → Attempt (Value × List Assignment)}
  {f : Value → Value} {notes : Value → List Note} {items out : List Value} {filled later : Entries}
  {more : List Assignment}

/-! ### Ids and names -/

theorem hasId_eq (h : ¬idLabel.Doubled entries) : hasId entries = !lacksId entries := by
  have hother {v : Value} (h : ∀ s, v ≠ .text s) :
      (v.given && !Text.blank v.plain.toList) = !!v.given := by
    have hplain : ¬Text.blank v.plain.toList = true := fun hblank => by
      obtain ⟨s, hs, -⟩ := Value.blank_plain_iff.1 hblank
      exact h s hs
    rw [Bool.eq_false_iff.2 hplain, Bool.not_false, Bool.and_true, Bool.not_not]
  rw [hasId, lacksId, get?_idKey h]
  cases idLabel.value? entries with
  | none => rfl
  | some v =>
    cases v with
    | scalar s =>
      cases s with
      | text id =>
        change (decide (id ≠ "") && !Text.blank id.toList) = !Text.blank id.toList
        by_cases hid : id = ""
        · rw [hid]
          rfl
        · rw [decide_eq_true hid, Bool.true_and]
      | _ => exact hother (by rintro s ⟨⟩)
    | _ => exact hother (by rintro s ⟨⟩)

theorem not_hasBoth (h : ¬idLabel.Doubled entries) : hasBoth entries = false := by
  rw [← Bool.not_eq_true, hasBoth, Bool.and_eq_true]
  exact fun hboth => h ⟨by decide, hboth.2, hboth.1⟩

theorem plain_firstGiven_path (entries : Entries) :
    (firstGiven entries ["path"] "").plain = ownPath entries := by
  rw [firstGiven_path, ownPath, spelledOr]
  cases (pathLabel.value? entries).filter Value.given <;> rfl

theorem plain_firstGiven_method (h : ¬methodLabel.Doubled entries) :
    (firstGiven entries ["http_method", "httpMethod"] "get").plain = ownMethod entries := by
  rw [firstGiven_method h, ownMethod, spelledOr]
  cases (methodLabel.value? entries).filter Value.given <;> rfl

theorem run_madeUpId (hmethod : ¬methodLabel.Doubled entries)
    (h : (madeUpId rule entries).run.value = .ok id) :
    (rule (ownName entries)).run.value = .ok id ∧
      (madeUpId rule entries).run =
        ⟨.ok id, missingId entries :: (rule (ownName entries)).run.notes⟩ := by
  have hspelled := h
  simp only [madeUpId, Traced.value_run_bind, Outcome.bind_eq_ok_iff] at hspelled
  obtain ⟨_, hm, _, hp, -⟩ := hspelled
  have heq : madeUpId rule entries =
      liftM (idOrFallback none (ownPath entries) (ownMethod entries)) >>= rule := by
    rw [madeUpId, Attempt.spelled_of_none (Attempt.spelled_eq_ok_iff.1 hm).1, pure_bind,
      Attempt.spelled_of_none (Attempt.spelled_eq_ok_iff.1 hp).1, pure_bind,
      plain_firstGiven_path, plain_firstGiven_method hmethod]
  have hname : (liftM (idOrFallback none (ownPath entries) (ownMethod entries)) :
      Attempt Text).run = ⟨.ok (ownName entries), [missingId entries]⟩ := rfl
  rw [heq, Traced.run_bind_of_ok hname] at h ⊢
  have hid : (rule (ownName entries)).run.value = .ok id := h
  rw [hid]
  exact ⟨rfl, rfl⟩

/-! ### Loops -/

/-- Whether a step that comes to an end at a value makes of it what a function does, assigns nothing
and takes the given notes. -/
def Does (step : Value → Attempt (Value × List Assignment)) (f : Value → Value)
    (notes : Value → List Note) (v : Value) : Prop :=
  ∀ r, (step v).run.value = .ok r → (step v).run = ⟨.ok (f v, []), notes v⟩

theorem withItems_map (h : v.sequence? = some items) :
    withItems v (items.map f) = v.changeItems f := by
  cases v with
  | list | pair =>
    cases h
    rfl
  | _ => cases h

theorem run_forEach (hstep : ∀ v ∈ values, Does step f notes v)
    (h : (forEach step [] values).run.value = .ok (out, more)) :
    (forEach step [] values).run = ⟨.ok (values.map f, []), values.flatMap notes⟩ := by
  induction values generalizing out with
  | nil => rfl
  | cons v rest ih =>
    obtain ⟨hv, hrest⟩ := List.forall_mem_cons.1 hstep
    obtain ⟨w, ws, hw, hws, -⟩ := forEach_cons_iff.1 h
    have hrun : (step (v.after [])).run = ⟨.ok (f v, []), notes v⟩ := hv _ hw
    have hassigned : assigned step (v.after []) = [] := by rw [assigned, hrun]
    rw [hassigned] at hws
    rw [forEach, Traced.run_bind_of_ok hrun]
    dsimp only
    rw [List.append_nil, Traced.run_bind_of_ok (ih hrest hws)]
    exact congrArg (Traced.mk _) (congrArg (notes v ++ ·) (List.append_nil _))

theorem run_forEachUnder (htree : (Value.map entries).isTree = true)
    (hstep : ∀ v ∈ itemsUnder key entries, Does step f notes v)
    (h : (forEachUnder key step entries).run.value = .ok (filled, more)) :
    (forEachUnder key step entries).run =
      ⟨.ok (entries.change key (.changeItems f), []), (itemsUnder key entries).flatMap notes⟩ := by
  rcases forEachUnder_cases h with ⟨hnone, -, -⟩ | ⟨v, items, out, hget, hitems, hout, -, -⟩
  · have hsame : entries.change key (.changeItems f) = entries := by
      refine Entries.change_eq_self fun v hget => Value.changeItems_of_none ?_
      rw [sequenceUnder?, hget, Option.bind_some] at hnone
      rwa [Value.opened_of_isTree (Value.isTree_get? htree hget)] at hnone
    rw [forEachUnder_of_none hnone (not_noSequence_of_ok h), itemsUnder_eq, hnone, hsame]
    rfl
  · have hsequence : sequenceUnder? key entries = some items :=
      Option.bind_eq_some_iff.2 ⟨v, hget, hitems⟩
    rw [itemsUnder_eq, hsequence, Option.getD_some] at hstep ⊢
    rw [forEachUnder_of_some hget hitems]
    rw [Value.opened_of_isTree (Value.isTree_get? htree hget)] at hitems ⊢
    rw [Entries.change_eq_put hget, ← withItems_map hitems]
    exact Traced.run_bind_of_pure (run_forEach hstep hout) rfl

/-! ### Operations and groups -/

theorem checkId_of_ok (h : (checkId entries).run.value = .ok ()) : checkId entries = pure () := by
  rw [value_checkId] at h
  rw [checkId]
  cases hget : entries.get? (idKey entries) with
  | none => rfl
  | some id =>
    rw [hget, Option.bind_some] at h
    cases hob : id.obstacle? with
    | none => exact Attempt.spellable_of_none hob
    | some b =>
      rw [hob] at h
      cases h

theorem fillOperation_does (htree : v.isTree = true) (hsingle : Single v) :
    Does (fillOperation rule) (withId rule) (notesOn rule) v := by
  intro r h
  cases hv : v.entries? with
  | none =>
    have hother : withId rule v = v ∧ notesOn rule v = [] := by
      cases v with
      | map => cases hv
      | _ => exact ⟨rfl, rfl⟩
    rw [fillOperation, hv, hother.1, hother.2]
    rfl
  | some entries =>
    obtain ⟨hid, hmethod⟩ := hsingle entries hv
    obtain ⟨hcheck, hcases⟩ := (fillOperation_eq_ok_iff hv).1 h
    obtain rfl := Value.eq_map_of_isTree htree hv
    rw [fillOperation, hv, withId, notesOn]
    dsimp only
    rw [checkId_of_ok hcheck, pure_bind]
    rw [hasId_eq hid] at hcases ⊢
    cases hlacks : lacksId entries with
    | false => rfl
    | true =>
      rw [hlacks] at hcases
      obtain ⟨-, id, hmade, -⟩ := hcases.resolve_left fun h => Bool.false_ne_true h.1
      obtain ⟨hrule, hrun⟩ := run_madeUpId hmethod hmade
      rw [Bool.not_true, if_neg Bool.false_ne_true, if_pos rfl, if_pos rfl, hrule]
      exact Traced.run_bind_of_pure hrun rfl

theorem isTree_itemsUnder (key : Text) (htree : (Value.map entries).isTree = true) :
    ∀ item ∈ itemsUnder key entries, item.isTree = true := by
  rw [itemsUnder_eq, sequenceUnder?]
  cases hget : entries.get? key with
  | none => exact List.forall_mem_nil _
  | some v =>
    have hv := Value.isTree_get? htree hget
    rw [Option.bind_some, Value.opened_of_isTree hv]
    cases hitems : v.sequence? with
    | none => exact List.forall_mem_nil _
    | some items => exact Value.isTree_sequence? hv hitems

theorem isTree_operationsIn (htree : v.isTree = true) :
    ∀ op ∈ operationsIn v, op.isTree = true := by
  rw [operationsIn]
  cases hv : v.entries? with
  | none => exact List.forall_mem_nil _
  | some entries =>
    rw [Value.eq_map_of_isTree htree hv] at htree
    exact isTree_itemsUnder _ htree

theorem isTree_givenOperations (htree : (Value.map entries).isTree = true) :
    ∀ op ∈ givenOperations entries, op.isTree = true := by
  intro op hop
  obtain ⟨group, hgroup, hop⟩ := List.mem_flatMap.1 hop
  exact isTree_operationsIn (isTree_itemsUnder _ htree group hgroup) op hop

theorem fillGroup_does (htree : v.isTree = true) (hsingle : ∀ op ∈ operationsIn v, Single op) :
    Does (fillGroup rule) (groupWithIds rule)
      (fun group => (operationsIn group).flatMap (notesOn rule)) v := by
  intro r h
  cases hv : v.entries? with
  | none =>
    have hother : groupWithIds rule v = v := by
      cases v with
      | map => cases hv
      | _ => rfl
    have hnone : operationsIn v = [] := by rw [operationsIn, hv]
    dsimp only
    rw [fillGroup, hv, hnone, hother]
    rfl
  | some entries =>
    obtain rfl := Value.eq_map_of_isTree htree hv
    have hops := isTree_itemsUnder "operations" htree
    rcases fillGroup_cases h with ⟨-, -, hnone⟩ | ⟨es, filled, hes, -, hloop⟩
    · cases hnone
    · cases hes
      have hrun := run_forEachUnder htree
        (fun op hop => fillOperation_does (hops op hop) (hsingle op hop)) hloop
      rw [fillGroup, hv]
      exact Traced.run_bind_of_pure hrun rfl

/-! ### Documents -/

theorem run_loop (htree : (Value.map entries).isTree = true)
    (hsingle : ∀ op ∈ givenOperations entries, Single op)
    (h : (forEachUnder "groups" (fillGroup rule) entries).run.value = .ok (filled, more)) :
    (forEachUnder "groups" (fillGroup rule) entries).run =
      ⟨.ok (withIds rule entries, []), (givenOperations entries).flatMap (notesOn rule)⟩ := by
  have hgroups := isTree_itemsUnder "groups" htree
  rw [givenOperations, List.flatMap_assoc]
  exact run_forEachUnder htree (fun group hgroup => fillGroup_does (hgroups group hgroup)
    fun op hop => hsingle op (List.mem_flatMap.2 ⟨group, hgroup, hop⟩)) h

theorem spelledOr_text {l : Label} {s otherwise : Text}
    (h : l.value? entries = some (.text s)) :
    spelledOr l otherwise entries = if s = "" then otherwise else s := by
  rw [spelledOr, h, Option.filter_some]
  by_cases hs : s = ""
  · rw [if_pos hs, hs]
    rfl
  · rw [if_neg hs, if_pos (Value.given_text.2 hs)]
    rfl

theorem readText_own {l : Label} {s : Text} (hv : v.entries? = some entries)
    (hw : w.entries? = some later) (hfill : (fillOperation rule v).run.value = .ok (w, more))
    (hl : ¬l.Names (idKey entries)) (hread : (l.value? later).map Form.readText = some (.ok s)) :
    (∃ t, l.value? entries = some (.text t)) → l.value? entries = some (.text s) := by
  rintro ⟨t, ht⟩
  rw [readText_filled hv hw hfill hl, ht] at hread
  obtain rfl : t = s := Checked.ok.inj (Option.some.inj hread)
  exact ht

theorem FilledAs.rightId (hsingle : Single (.map entries)) (h : FilledAs rule (.map entries) op) :
    RightId rule entries op := by
  obtain ⟨w, more, hfill, hread⟩ := h
  obtain ⟨later, hw, hop⟩ := Form.record_read_iff.1 hread
  obtain ⟨hid, hmethod⟩ := hsingle entries rfl
  obtain ⟨hreadMethod, hreadPath⟩ := texts_of_ofEntries hop
  have hnames := names_of_idSpelling (idSpelling_keys hid)
  have hlacks := hasId_eq hid
  obtain ⟨_, he, hsource⟩ := fillOperation_hasIdFrom hfill hread
  cases he
  constructor
  case path =>
    intro htext
    rw [ownPath, spelledOr_text (readText_own rfl hw hfill (apart_path.not_names hnames)
      (value?_of_read_required hreadPath) htext)]
    split
    · next h => exact h.symm
    · rfl
  case method =>
    intro htext
    exact spelledOr_text (readText_own rfl hw hfill (apart_method.not_names hnames)
      (value?_of_read_required hreadMethod) htext)
  case kept =>
    intro id hget hblank
    have hgiven : lacksId entries = false := by
      rw [lacksId, hget]
      exact hblank
    rw [hgiven] at hlacks
    cases hsource with
    | wire _ both => exact absurd both (Bool.eq_false_iff.1 (not_hasBoth hid))
    | kept v _ _ found read =>
      rw [get?_idKey hid, hget] at found
      cases found
      exact (Checked.ok.inj read).symm
    | madeUp _ missing =>
      rw [missing] at hlacks
      cases hlacks
  case madeUp =>
    intro hmissing
    rw [hmissing] at hlacks
    cases hsource with
    | wire _ both => exact absurd both (Bool.eq_false_iff.1 (not_hasBoth hid))
    | kept _ _ given =>
      rw [given] at hlacks
      cases hlacks
    | madeUp _ _ made => exact (run_madeUpId hmethod made).1

/-- Where no mapping of a document stands in several places and no operation has its id or its
method in both spellings, each operation keeps its id or gets one that is made up for it, nothing
else changes, and what is left is read again as the same document. -/
theorem ofEntries_filled (rule : IdRule) (htree : (Value.map entries).isTree = true)
    (hsingle : ∀ op ∈ givenOperations entries, Single op)
    (h : (ofEntries rule entries).run.value = .ok d) : Filled rule entries d := by
  obtain ⟨hsections, filled, made, hloop, hread⟩ := ofEntries_eq_ok_iff.1 h
  have hrun := run_loop htree hsingle hloop
  have hfill : (fillIds rule entries).run =
      ⟨.ok (withIds rule entries), (givenOperations entries).flatMap (notesOn rule)⟩ :=
    Traced.run_bind_of_pure hrun rfl
  rw [hrun] at hloop
  cases hloop
  constructor
  case operations =>
    have hgiven : ∀ v ∈ givenOperations entries, v.isTree = true ∧ Single v := fun v hv =>
      ⟨isTree_givenOperations htree v hv, hsingle v hv⟩
    have hmet : metOperations rule entries = givenOperations entries := by
      refine metOperations_eq_given fun v hv mark collection he => ?_
      have hv := (hgiven v hv).1
      rw [he] at hv
      cases hv
    have hall := ofEntries_filledAs h
    rw [hmet] at hall
    have hall := (List.forall₂_and_left _ _).2 ⟨hgiven, hall⟩
    refine hall.imp ?_
    rintro v op ⟨⟨hv, hone⟩, w, more, hfillOne, hreadOne⟩
    obtain ⟨fields, hfields, -⟩ := fillOperation_hasIdFrom hfillOne hreadOne
    obtain rfl := Value.eq_map_of_isTree hv hfields
    exact ⟨fields, rfl, FilledAs.rightId hone ⟨w, more, hfillOne, hreadOne⟩⟩
  case notes =>
    rw [ofEntries_of_sections hsections, Traced.run_bind_of_ok hfill]
    dsimp only
    rw [Form.validate, hread]
    exact List.append_nil _
  case left => rw [hfill]
  case again => exact ofEntries_again h (by rw [hrun])

def partlyNamed : Entries :=
  let named : Entries :=
    [(.text "operationId", .text "list"), (.text "httpMethod", .text "get"),
      (.text "path", .text "/Api/widgets")]
  let blank : Entries :=
    [(.text "operation_id", .text " "), (.text "http_method", .text ""), (.text "path", .text "/")]
  let unnamed : Entries :=
    [(.text "path", .text "/Api/widgets/\x7bid\x7d/History"), (.text "httpMethod", .text "GET")]
  [(.text "groups", .list
    [.map [(.text "operations", .list [.map named, .map blank])],
      .map [(.text "operations", .list [.map unnamed])]])]

def partlyNamedDocument : InputDocument where
  groups := [
    { operations := [{ operationId := "list", httpMethod := "get", path := "/Api/widgets" },
        { operationId := "get", httpMethod := "", path := "/" }] },
    { operations := [{ operationId := "history", httpMethod := "GET",
                       path := "/Api/widgets/\x7bid\x7d/History" }] }]

theorem ofEntries_filled_partlyNamed :
    (Value.map partlyNamed).isTree = true ∧ (∀ op ∈ givenOperations partlyNamed, Single op) ∧
      (ofEntries .usual partlyNamed).run.value = .ok partlyNamedDocument ∧
      Filled .usual partlyNamed partlyNamedDocument := by
  have htree : (Value.map partlyNamed).isTree = true := by decide
  have hsingle : ∀ op ∈ givenOperations partlyNamed, Single op := by decide
  have hread : (ofEntries .usual partlyNamed).run.value = .ok partlyNamedDocument := by
    decide +kernel
  exact ⟨htree, hsingle, hread, ofEntries_filled .usual htree hsingle hread⟩

end ApiPrep.InputDocument
