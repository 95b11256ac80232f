import ApiPrep.Proofs.Document.AlikeLoops

namespace ApiPrep.InputDocument

open Naming Record

variable {rule : IdRule} {entries entries' later : Entries} {l : Label} {v v' w : Value}
  {op : Operation} {g : OperationGroup} {more : List Assignment} {ids ids' : Nat → Option Text}
  {mark : Nat} {collection : Value} {key id s : Text} {d : InputDocument}

/-! ### Operations -/

theorem fillOperation_eq_ok_iff (hv : v.entries? = some entries) :
    (fillOperation rule v).run.value = .ok (w, more) ↔ (checkId entries).run.value = .ok () ∧
      (hasId entries = true ∧ (v, []) = (w, more) ∨ hasId entries = false ∧
        ∃ id, (madeUpId rule entries).run.value = .ok id ∧
          v.put (.text (idKey entries)) (.text id) = (w, more)) := by
  rw [fillOperation, hv, Traced.value_run_bind, Outcome.bind_eq_ok_iff]
  cases hid : hasId entries with
  | true =>
    simp only [true_and, Bool.true_eq_false, false_and, or_false]
    constructor
    · rintro ⟨⟨⟩, hcheck, h⟩
      exact ⟨hcheck, Except.ok.inj h⟩
    · rintro ⟨hcheck, h⟩
      exact ⟨(), hcheck, congrArg Except.ok h⟩
  | false =>
    simp only [Bool.false_eq_true, false_and, true_and, false_or, if_false]
    rw [Traced.value_run_bind]
    simp only [Outcome.bind_eq_ok_iff]
    constructor
    · rintro ⟨⟨⟩, hcheck, id, hmade, h⟩
      exact ⟨hcheck, id, hmade, Except.ok.inj h⟩
    · rintro ⟨hcheck, id, hmade, h⟩
      exact ⟨(), hcheck, id, hmade, congrArg Except.ok h⟩

section

variable (h : entries.onWire labels = entries'.onWire labels) (hid : ¬idLabel.Doubled entries)
  (hid' : ¬idLabel.Doubled entries')

include h hid hid'

theorem get?_idKey_of_onWire :
    (entries.get? (idKey entries)).map (Value.onWire labels) =
      (entries'.get? (idKey entries')).map (Value.onWire labels) := by
  rw [get?_idKey hid, get?_idKey hid', value?_of_onWire h idLabel_mem]

theorem checkId_of_onWire : (checkId entries).run.value = (checkId entries').run.value := by
  have hthrough (held : Option Value) :
      held.bind Value.obstacle? = (held.map (Value.onWire labels)).bind Value.obstacle? := by
    cases held with
    | none => rfl
    | some v => exact (Value.obstacle?_onWire labels v).symm
  rw [value_checkId, value_checkId, hthrough, get?_idKey_of_onWire h hid hid', ← hthrough]

theorem hasId_of_onWire : hasId entries = hasId entries' := by
  have hthrough (entries : Entries) : hasId entries =
      ((entries.get? (idKey entries)).map (Value.onWire labels)).any fun id =>
        id.given && !Text.blank id.plain.toList := by
    rw [hasId]
    cases entries.get? (idKey entries) with
    | none => rfl
    | some id =>
      rw [Option.map_some, Option.any_some, Value.given_onWire, Value.blank_plain_onWire]
  rw [hthrough, hthrough, get?_idKey_of_onWire h hid hid']

end

theorem texts_of_ofEntries (h : Operation.ofEntries entries = .ok op) :
    Operation.httpMethodMember.read entries = .ok op.httpMethod ∧
      Operation.pathMember.read entries = .ok op.path := by
  rw [Operation.ofEntries] at h
  iterate 12
    rw [Checked.ap_eq_ok_iff] at h
    obtain ⟨_, _, h, -, rfl⟩ := h
  rw [Checked.ap_eq_ok_iff] at h
  obtain ⟨_, path, h, hpath, rfl⟩ := h
  rw [Checked.ap_eq_ok_iff] at h
  obtain ⟨_, method, h, hmethod, rfl⟩ := h
  obtain ⟨id, -, rfl⟩ := Checked.fmap_eq_ok_iff.1 h
  exact ⟨hmethod, hpath⟩

theorem value?_of_read_required {wire plain : Text}
    (h : (Member.required wire plain Form.text).read entries = .ok s) :
    (Label.value? ⟨wire, plain⟩ entries).map Form.readText = some (.ok s) := by
  rw [Member.read] at h
  rw [Label.value?]
  cases hfind : Label.find? ⟨wire, plain⟩ entries with
  | none =>
    have hlabel : (Member.required wire plain Form.text).label.find? entries = none := hfind
    rw [hlabel] at h
    cases h
  | some found =>
    have hlabel : (Member.required wire plain Form.text).label.find? entries = some found := hfind
    rw [hlabel] at h
    exact congrArg some (Checked.within_eq_ok_iff.1 h)

theorem value?_eq_of_readText (h : (l.value? entries).map Form.readText = some (.ok s))
    (hwire : (l.value? entries).map (Value.onWire labels) =
      (l.value? entries').map (Value.onWire labels)) : l.value? entries = l.value? entries' := by
  obtain ⟨u, hu, hread⟩ := Option.map_eq_some_iff.1 h
  rw [hu] at hwire
  obtain ⟨u', hu', hsame⟩ := Option.map_eq_some_iff.1 hwire.symm
  rw [hu, hu']
  cases u with
  | scalar r => rw [Value.onWire_eq_scalar_iff.1 hsame]
  | _ => cases hread

theorem readText_filled (hv : v.entries? = some entries) (hw : w.entries? = some later)
    (hfill : (fillOperation rule v).run.value = .ok (w, more)) (hl : ¬l.Names (idKey entries)) :
    (l.value? later).map Form.readText = (l.value? entries).map Form.readText := by
  rcases ((fillOperation_eq_ok_iff hv).1 hfill).2 with ⟨-, he⟩ | ⟨-, id, -, hput⟩
  · cases he
    rw [Option.some.inj (hv.symm.trans hw)]
  · obtain ⟨filled, hfilled, htexts⟩ := Value.readText_put hv (idKey entries) id
    rw [hput] at hfilled
    obtain rfl : filled = later := Option.some.inj (hfilled.symm.trans hw)
    rw [Entries.value?_eq_or, Entries.value?_eq_or, Option.map_or, Option.map_or, htexts, htexts,
      if_neg fun he => hl (.inl he), if_neg fun he => hl (.inr he)]

theorem madeUpId_congr (rule : IdRule) (hmethod : ¬methodLabel.Doubled entries)
    (hmethod' : ¬methodLabel.Doubled entries')
    (hm : methodLabel.value? entries = methodLabel.value? entries')
    (hp : pathLabel.value? entries = pathLabel.value? entries') :
    madeUpId rule entries = madeUpId rule entries' := by
  rw [madeUpId, madeUpId, firstGiven_method hmethod, firstGiven_method hmethod', firstGiven_path,
    firstGiven_path, hm, hp]

theorem Spells.eq_idKey (h : Spells ids (.marked mark collection))
    (hv : (Value.marked mark collection).entries? = some entries)
    (hid : ¬idLabel.Doubled entries) : ids mark = some (idKey entries) := by
  have hkeys : collection.ownKeys? = some entries.keys := by
    rw [← Value.keys?_marked mark, Value.keys?, hv, Option.map_some]
  have hplace := h (mark, entries.keys) (Value.mem_places_marked.2 (.inl ⟨_, hkeys, rfl⟩))
  rw [← hplace, idSpelling_keys hid]

/-- An id that is put into operations that are alike leaves them alike. -/
theorem put_alike (h : Alike ids ids' v v') (hv : v.entries? = some entries)
    (hv' : v'.entries? = some entries') (hid : ¬idLabel.Doubled entries)
    (hid' : ¬idLabel.Doubled entries') (id : Text) :
    (v.put (.text (idKey entries)) (.text id)).1.onWire labels =
        (v'.put (.text (idKey entries')) (.text id)).1.onWire labels ∧
      List.Forall₂ (SameId ids ids') (v.put (.text (idKey entries)) (.text id)).2
        (v'.put (.text (idKey entries')) (.text id)).2 := by
  have hnames := names_of_idSpelling (idSpelling_keys hid)
  have hnames' := names_of_idSpelling (idSpelling_keys hid')
  have hwire := h.onWire
  -- Neither has a mark, or both have the same: spelled as on the wire they are one value.
  cases v with
  | map es =>
    cases v' with
    | map es' =>
      cases hv
      cases hv'
      refine ⟨?_, .nil⟩
      change (Value.map (Entries.put entries _ _)).onWire labels =
        (Value.map (Entries.put entries' _ _)).onWire labels
      rw [Value.onWire_map, Value.onWire_map,
        Entries.onWire_put labels_distinct idLabel_mem hnames fun _ => idKey_single hid,
        Entries.onWire_put labels_distinct idLabel_mem hnames' fun _ => idKey_single hid',
        h.entries_onWire]
    | marked mark collection =>
      rw [Value.onWire_map] at hwire
      cases hwire
    | _ => cases hv'
  | marked mark collection =>
    cases v' with
    | marked mark' collection' =>
      obtain ⟨rfl, -⟩ := Value.marked.inj hwire
      have hsame : SameId ids ids' ⟨mark, .text (idKey entries), .text id⟩
          ⟨mark, .text (idKey entries'), .text id⟩ :=
        .mk mark _ _ id (h.left.eq_idKey hv hid) (h.right.eq_idKey hv' hid') hnames hnames'
      exact ⟨(h.assign hsame).onWire, .cons hsame .nil⟩
    | map es' =>
      rw [Value.onWire_map] at hwire
      cases hwire
    | _ => cases hv'
  | _ => cases hv

theorem fillOperation_alike (rule : IdRule) :
    StepsAlike ids ids' Single (fun w => ∃ op, Operation.form.read w = .ok op)
      (fillOperation rule) := by
  rintro v v' w more hsingle h hfill ⟨op, hread⟩
  obtain ⟨later, hw, hop⟩ := Form.record_read_iff.1 hread
  cases hv : v.entries? with
  | none =>
    rw [fillOperation, hv] at hfill
    cases hfill
    rw [hv] at hw
    cases hw
  | some entries =>
    obtain ⟨entries', hv', halike⟩ := h.entries? hv
    have hwire := halike.entries_onWire
    obtain ⟨hid, hmethod⟩ := hsingle entries hv
    have hnames := names_of_idSpelling (idSpelling_keys hid)
    obtain ⟨hid', hmethod'⟩ := hsingle.of_onWire h.onWire entries' hv'
    obtain ⟨hcheck, hcases⟩ := (fillOperation_eq_ok_iff hv).1 hfill
    rw [checkId_of_onWire hwire hid hid'] at hcheck
    rw [hasId_of_onWire hwire hid hid'] at hcases
    rcases hcases with ⟨hgiven, he⟩ | ⟨hmissing, id, hmade, hput⟩
    · cases he
      exact ⟨v', [], (fillOperation_eq_ok_iff hv').2 ⟨hcheck, .inl ⟨hgiven, rfl⟩⟩, h.onWire, .nil⟩
    · -- The id is made up from what is read as text, and this has no keys that could differ.
      have hread (l : Label) {s : Text} (hl : idLabel.Apart l) (hmem : l ∈ labels)
          (hread : (l.value? later).map Form.readText = some (.ok s)) :
          l.value? entries = l.value? entries' := by
        rw [readText_filled hv hw hfill (hl.not_names hnames)] at hread
        exact value?_eq_of_readText hread (value?_of_onWire hwire hmem)
      obtain ⟨hreadMethod, hreadPath⟩ := texts_of_ofEntries hop
      have hm := hread _ apart_method methodLabel_mem (value?_of_read_required hreadMethod)
      have hp := hread _ apart_path pathLabel_mem (value?_of_read_required hreadPath)
      rw [madeUpId_congr rule hmethod hmethod' hm hp] at hmade
      obtain ⟨hsame, hmore⟩ := put_alike h hv hv' hid hid' id
      rw [hput] at hsame hmore
      exact ⟨_, _, (fillOperation_eq_ok_iff hv').2 ⟨hcheck, .inr ⟨hmissing, id, hmade, rfl⟩⟩,
        hsame, hmore⟩

/-! ### Groups -/

theorem kept_single : Kept ids ids' Single := fun _ _ _ hsingle hspells ha =>
  hsingle.assign hspells ha

theorem kept_operations :
    Kept ids ids' fun group => ∀ operation ∈ operationsIn group, Single operation := by
  intro group a a' hsingle hspells ha operation hoperation
  have hassign : operationsIn (group.assign a) = (operationsIn group).map (Value.assign a) := by
    obtain ⟨mark, key, key', id, -, -, names, -⟩ := ha
    apply operationsIn_assign rfl rfl
    rintro rfl
    rcases names with h | h
    · exact absurd h (by decide)
    · exact absurd h (by decide)
  rw [hassign] at hoperation
  obtain ⟨before, hbefore, rfl⟩ := List.mem_map.1 hoperation
  exact (hsingle before hbefore).assign (hspells.mono (places_operationsIn hbefore)) ha

theorem fillGroup_alike (rule : IdRule) :
    StepsAlike ids ids' (fun group => ∀ operation ∈ operationsIn group, Single operation)
      (fun w => ∃ g, OperationGroup.form.read w = .ok g) (fillGroup rule) := by
  rintro v v' w more hsingle h hfill ⟨g, hread⟩
  rcases fillGroup_cases hfill with ⟨rfl, -, hnone⟩ | ⟨entries, filled, hv, rfl, hloop⟩
  · obtain ⟨_, hw, -⟩ := Form.record_read_iff.1 hread
    rw [hnone] at hw
    cases hw
  · obtain ⟨entries', hv', halike⟩ := h.entries? hv
    rw [operationsIn, hv] at hsingle
    have hgood : ∀ w ∈ itemsUnder "operations" filled, ∃ op, Operation.form.read w = .ok op := by
      have hall := read_itemsUnder (fun _ _ => Form.record_read_scalar) (operations_of_read hread)
      intro w hw
      exact exists_of_forall₂_mem hall hw
    obtain ⟨filled', more', hloop', hsame, hmore⟩ := forEachUnder_alike kept_single
      (fillOperation_alike rule) halike (by decide) hsingle hloop hgood
    refine ⟨.map filled', more', ?_, ?_, hmore⟩
    · rw [fillGroup, hv', Traced.value_run_bind, hloop']
      rfl
    · rw [Value.onWire_map, Value.onWire_map, hsame]

/-! ### Documents -/

theorem has_of_onWire (h : entries.onWire labels = entries'.onWire labels)
    (hkey : (⟨key, key⟩ : Label) ∈ labels) : entries.has key = entries'.has key := by
  have hget := congrArg Option.isSome (get?_of_onWire h hkey)
  rwa [Option.isSome_map, Option.isSome_map] at hget

theorem ofEntries_of_sections
    (h : entries.has "groups" = true ∨ entries.has "models" = true) :
    ofEntries rule entries = (do
      let filled ← fillIds rule entries
      match form.validate title (.map filled) with
      | .ok d => return d
      | .error report => Attempt.refused (.input (.invalid report))) := by
  have hpass : ¬(!entries.has "groups" && !entries.has "models") = true := by
    rcases h with h | h
    · rw [h]
      exact Bool.false_ne_true
    · rw [h, Bool.not_true, Bool.and_false]
      exact Bool.false_ne_true
  rw [ofEntries]
  exact if_neg hpass

theorem ofEntries_eq_ok_iff : (ofEntries rule entries).run.value = .ok d ↔
    (entries.has "groups" = true ∨ entries.has "models" = true) ∧
      ∃ filled made, (forEachUnder "groups" (fillGroup rule) entries).run.value =
        .ok (filled, made) ∧ form.read (.map filled) = .ok d := by
  constructor
  · intro h
    refine ⟨?_, ofEntries_eq_ok h⟩
    by_contra! hnone
    have hgroups := Bool.eq_false_iff.2 hnone.1
    have hmodels := Bool.eq_false_iff.2 hnone.2
    rw [ofEntries, if_pos (by rw [hgroups, hmodels]; rfl)] at h
    cases h
  · rintro ⟨hsections, filled, made, hloop, hread⟩
    have hfill : (fillIds rule entries).run.value = .ok filled := by
      rw [fillIds, Traced.value_run_bind, hloop]
      rfl
    rw [ofEntries_of_sections hsections, Traced.value_run_bind, hfill, Outcome.ok_bind,
      Form.validate, hread]
    rfl

theorem ofEntries_alike (h : Alike ids ids' (.map entries) (.map entries'))
    (hsingle : ∀ operation ∈ givenOperations entries, Single operation)
    (hok : (ofEntries rule entries).run.value = .ok d) :
    (ofEntries rule entries').run.value = .ok d := by
  have hwire := h.entries_onWire
  obtain ⟨hsections, filled, made, hloop, hread⟩ := ofEntries_eq_ok_iff.1 hok
  have hfit : ∀ group ∈ itemsUnder "groups" entries, ∀ op ∈ operationsIn group, Single op := by
    intro group hgroup op hop
    exact hsingle op (List.mem_flatMap.2 ⟨group, hgroup, hop⟩)
  have hgood : ∀ w ∈ itemsUnder "groups" filled, ∃ g, OperationGroup.form.read w = .ok g := by
    have hall := read_itemsUnder (fun _ _ => Form.record_read_scalar) (groups_of_read hread)
    intro w hw
    exact exists_of_forall₂_mem hall hw
  obtain ⟨filled', made', hloop', hsame, -⟩ := forEachUnder_alike kept_operations
    (fillGroup_alike rule) h (by decide) hfit hloop hgood
  rw [has_of_onWire hwire (by decide), has_of_onWire hwire (by decide)] at hsections
  refine ofEntries_eq_ok_iff.2 ⟨hsections, filled', made', hloop', ?_⟩
  rw [← form_indifferent, Value.onWire_map, ← hsame, ← Value.onWire_map, form_indifferent]
  exact hread

def idsOf (v : Value) (mark : Nat) : Option Text :=
  (v.places.find? fun p => p.1 = mark).bind fun p => idSpelling p.2

theorem spells_idsOf (h : v.Coherent) : Spells (idsOf v) v := by
  intro p hp
  rw [idsOf]
  cases hfind : v.places.find? fun q => q.1 = p.1 with
  | none => exact absurd (decide_eq_true rfl) (List.find?_eq_none.1 hfind p hp)
  | some q =>
    have hmark : q.1 = p.1 := of_decide_eq_true (List.find?_some hfind :)
    rw [Option.bind_some, h q (List.mem_of_find?_eq_some hfind) p hp hmark]

/-- However the keys of a document are spelled, those of a shared mapping alike in all its places,
it is read as the same document, with the same ids, unless an operation has its id or its method
in both spellings. -/
theorem ofEntries_respelled (rule : IdRule) (hsame : entries.onWire labels = entries'.onWire labels)
    (hentries : (Value.map entries).Coherent) (hentries' : (Value.map entries').Coherent)
    (hsingle : ∀ operation ∈ givenOperations entries, Single operation) (d : InputDocument) :
    (ofEntries rule entries).run.value = .ok d ↔ (ofEntries rule entries').run.value = .ok d := by
  have halike :
      Alike (idsOf (.map entries)) (idsOf (.map entries')) (.map entries) (.map entries') :=
    ⟨spells_idsOf hentries, spells_idsOf hentries',
      by rw [Value.onWire_map, hsame, Value.onWire_map]⟩
  have hsingle' : ∀ operation ∈ givenOperations entries', Single operation := by
    intro operation hoperation
    have hall := (List.forall₂_and_left _ _).2 ⟨hsingle, halike.givenOperations⟩
    obtain ⟨other, hother, hone⟩ := exists_of_forall₂_mem hall.flip hoperation
    exact hother.of_onWire hone.onWire
  exact ⟨ofEntries_alike halike hsingle, ofEntries_alike halike.symm hsingle'⟩

def sharedOperation (id method : Text) : Value :=
  .marked 1 (.map [(.text id, .text " "), (.text method, .text "get"),
    (.text "path", .text "/Api/widgets")])

def twice (id method imported : Text) : Entries :=
  let operation := sharedOperation id method
  [(.text "groups", .list [.map [(.text "operations", .list [operation, operation]),
    (.text "imports", .list [.map [(.text imported, .text "Widget")]])]])]

def twiceDocument : InputDocument :=
  let operation : Operation :=
    { operationId := "widgets", httpMethod := "get", path := "/Api/widgets" }
  { groups := [{ operations := [operation, operation], imports := [{ source := "Widget" }] }] }

theorem coherent_twice (id method imported : Text) :
    (Value.map (twice id method imported)).Coherent := by
  let keys : List Scalar := [.text id, .text method, .text "path"]
  have hplaces : (Value.map (twice id method imported)).places = [(1, keys), (1, keys)] := rfl
  intro p hp q hq _
  rw [hplaces, List.mem_cons, List.mem_singleton, or_self] at hp hq
  rw [hp, hq]

theorem single_twice : ∀ operation ∈ givenOperations (twice "operationId" "httpMethod" "import"),
    Single operation := by
  decide

theorem ofEntries_respelled_twice :
    (twice "operationId" "httpMethod" "import").onWire labels =
        (twice "operation_id" "http_method" "import_").onWire labels ∧
      (ofEntries .usual (twice "operation_id" "http_method" "import_")).run.value =
        .ok twiceDocument := by
  have hsame : (twice "operationId" "httpMethod" "import").onWire labels =
      (twice "operation_id" "http_method" "import_").onWire labels := rfl
  have hwire : (ofEntries .usual (twice "operationId" "httpMethod" "import")).run.value =
      .ok twiceDocument := by
    decide +kernel
  exact ⟨hsame, (ofEntries_respelled .usual hsame (coherent_twice _ _ _) (coherent_twice _ _ _)
    single_twice twiceDocument).1 hwire⟩

end ApiPrep.InputDocument
