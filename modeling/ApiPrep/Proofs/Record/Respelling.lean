import ApiPrep.Proofs.Record.Lossless
import ApiPrep.Proofs.Value.Places

namespace ApiPrep

open Record

/-- Whether no two of some labels have a spelling in common. -/
def Record.Distinct (labels : List Label) : Prop := ∀ l ∈ labels, ∀ m ∈ labels, l ≠ m → l.Apart m

namespace Record.Label

def Names (l : Label) (key : Text) : Prop := key = l.wire ∨ key = l.plain

def value? (l : Label) (entries : Entries) : Option Value := (l.find? entries).map Prod.snd

/-- Whether both spellings are among the keys. -/
def Doubled (l : Label) (entries : Entries) : Prop :=
  l.wire ≠ l.plain ∧ entries.has l.wire = true ∧ entries.has l.plain = true

instance (l : Label) (entries : Entries) : Decidable (l.Doubled entries) :=
  inferInstanceAs (Decidable (_ ∧ _ ∧ _))

end Record.Label

def Record.SameField (labels : List Label) (s t : Scalar) : Prop :=
  s = t ∨ ∃ l ∈ labels, ∃ key other, l.Names key ∧ l.Names other ∧
    s = .text key ∧ t = .text other

namespace Entries

/-- A key as it is spelled on the wire, unless this spelling is there as well. -/
def wireKey (labels : List Label) (entries : Entries) : Scalar → Scalar
  | .text key =>
    match labels.find? fun l => l.plain = key with
    | some l => if entries.has l.wire then .text key else .text l.wire
    | none => .text key
  | s => s

def mapKeys (f : Scalar → Scalar) (entries : Entries) : Entries :=
  entries.map fun entry => (f entry.1, entry.2)

def wireKeys (labels : List Label) (entries : Entries) : Entries :=
  entries.mapKeys (wireKey labels entries)

end Entries

mutual

/-- A value with all keys of all its mappings as they are spelled on the wire. -/
def Value.onWire (labels : List Label) : Value → Value
  | .scalar s => .scalar s
  | .list items => .list (itemsOnWire labels items)
  | .map entries => .map (Entries.wireKeys labels (entriesOnWire labels entries))
  | .set members => .set members
  | .pair key held => .pair (key.onWire labels) (held.onWire labels)
  | .marked mark v => .marked mark (v.onWire labels)
  | .again mark => .again mark

def itemsOnWire (labels : List Label) : List Value → List Value
  | [] => []
  | item :: rest => item.onWire labels :: itemsOnWire labels rest

def entriesOnWire (labels : List Label) : List (Scalar × Value) → List (Scalar × Value)
  | [] => []
  | (key, v) :: rest => (key, v.onWire labels) :: entriesOnWire labels rest

end

def Entries.onWire (labels : List Label) (entries : Entries) : Entries :=
  Entries.wireKeys labels (entries.mapValues (Value.onWire labels))

variable {labels : List Label} {l m : Label} {entries other : Entries} {key k : Text} {s t : Scalar}
  {v w held : Value} {mark : Nat} {f g : Scalar → Scalar}

/-! ### Keys -/

theorem Record.Label.Apart.not_names (h : l.Apart m) (hl : l.Names key) : ¬m.Names key := by
  rintro (hm | hm)
  · rcases hl with hl | hl
    · exact h.wire (hl.symm.trans hm)
    · exact h.plain_wire (hl.symm.trans hm)
  · rcases hl with hl | hl
    · exact h.wire_plain (hl.symm.trans hm)
    · exact h.plain (hl.symm.trans hm)

theorem Record.Distinct.eq_of_wire (hd : Distinct labels) (hl : l ∈ labels) (hm : m ∈ labels)
    (h : l.wire = m.wire) : l = m := by
  by_contra hne
  exact (hd l hl m hm hne).wire h

theorem Record.Distinct.eq_of_plain (hd : Distinct labels) (hl : l ∈ labels) (hm : m ∈ labels)
    (h : l.plain = m.plain) : l = m := by
  by_contra hne
  exact (hd l hl m hm hne).plain h

theorem Record.Distinct.eq_of_wire_plain (hd : Distinct labels) (hl : l ∈ labels)
    (hm : m ∈ labels) (h : l.wire = m.plain) : l = m := by
  by_contra hne
  exact (hd l hl m hm hne).wire_plain h

namespace Entries

theorem wireKey_cases (labels : List Label) (entries : Entries) (key : Text) :
    (∃ l ∈ labels, l.plain = key ∧ wireKey labels entries (.text key) =
        if entries.has l.wire then .text key else .text l.wire) ∨
      (∀ l ∈ labels, l.plain ≠ key) ∧ wireKey labels entries (.text key) = .text key := by
  rw [wireKey]
  cases hfind : labels.find? fun l => l.plain = key with
  | some l =>
    have hplain := List.find?_some hfind
    exact .inl ⟨l, List.mem_of_find?_eq_some hfind, of_decide_eq_true hplain, rfl⟩
  | none =>
    refine .inr ⟨?_, rfl⟩
    intro l hl hplain
    exact List.find?_eq_none.1 hfind l hl (decide_eq_true hplain)

theorem wireKey_eq_wire_iff (hd : Distinct labels) (hl : l ∈ labels) :
    wireKey labels entries s = .text l.wire ↔
      s = .text l.wire ∨ s = .text l.plain ∧ entries.has l.wire = false := by
  cases s with
  | text key =>
    rw [Scalar.text.injEq, Scalar.text.injEq]
    rcases wireKey_cases labels entries key with ⟨m, hm, rfl, he⟩ | ⟨hnone, he⟩
    · rw [he]
      split
      · next hwire =>
        rw [Scalar.text.injEq]
        refine ⟨.inl, ?_⟩
        rintro (h | ⟨h, hno⟩)
        · exact h
        · obtain rfl := hd.eq_of_plain hm hl h
          rw [hwire] at hno
          cases hno
      · next hwire =>
        rw [Scalar.text.injEq]
        constructor
        · intro h
          obtain rfl := hd.eq_of_wire hm hl h
          exact .inr ⟨rfl, Bool.eq_false_iff.2 hwire⟩
        · rintro (h | ⟨h, -⟩)
          · obtain rfl := hd.eq_of_wire_plain hl hm h.symm
            rfl
          · obtain rfl := hd.eq_of_plain hm hl h
            rfl
    · rw [he, Scalar.text.injEq, or_iff_left]
      rintro ⟨h, -⟩
      exact hnone l hl h.symm
  | _ =>
    refine ⟨.inl, ?_⟩
    rintro (h | ⟨h, -⟩)
    · exact h
    · cases h

theorem wireKey_eq_plain_iff (hd : Distinct labels) (hl : l ∈ labels) (hne : l.wire ≠ l.plain) :
    wireKey labels entries s = .text l.plain ↔ s = .text l.plain ∧ entries.has l.wire = true := by
  cases s with
  | text key =>
    rw [Scalar.text.injEq]
    rcases wireKey_cases labels entries key with ⟨m, hm, rfl, he⟩ | ⟨hnone, he⟩
    · rw [he]
      split
      · next hwire =>
        rw [Scalar.text.injEq]
        constructor
        · intro h
          obtain rfl := hd.eq_of_plain hm hl h
          exact ⟨rfl, hwire⟩
        · exact And.left
      · next hwire =>
        rw [Scalar.text.injEq]
        constructor
        · intro h
          obtain rfl := hd.eq_of_wire_plain hm hl h
          exact absurd h hne
        · rintro ⟨h, hyes⟩
          obtain rfl := hd.eq_of_plain hm hl h
          exact absurd hyes hwire
    · rw [he, Scalar.text.injEq]
      refine iff_of_false (fun h => hnone l hl h.symm) ?_
      rintro ⟨h, -⟩
      exact hnone l hl h.symm
  | _ =>
    refine iff_of_false nofun ?_
    rintro ⟨h, -⟩
    cases h

theorem wireKey_congr (h : ∀ l ∈ labels, entries.has l.wire = other.has l.wire) :
    wireKey labels entries = wireKey labels other := by
  funext s
  cases s with
  | text key =>
    rw [wireKey, wireKey]
    split
    · next l hfind => rw [h l (List.mem_of_find?_eq_some hfind)]
    · rfl
  | _ => rfl

/-! ### Lookups -/

theorem get?_mapKeys (h : ∀ s ∈ entries.keys, f s = .text key ↔ s = .text k) :
    (entries.mapKeys f).get? key = entries.get? k := by
  induction entries with
  | nil => rfl
  | cons entry rest ih =>
    obtain ⟨s, v⟩ := entry
    obtain ⟨hs, hrest⟩ := List.forall_mem_cons.1 h
    change get? ((f s, v) :: mapKeys f rest) key = get? ((s, v) :: rest) k
    by_cases hk : s = .text k
    · rw [hs.2 hk, hk, get?_cons_text, get?_cons_text, if_pos rfl, if_pos rfl]
    · have hother {r : Scalar} {t : Text} {es : Entries} (hr : r ≠ .text t) :
          get? ((r, v) :: es) t = get? es t := by
        cases r with
        | text u => rw [get?_cons_text, if_neg fun he => hr (congrArg Scalar.text he)]
        | _ => rfl
      rw [hother (mt hs.1 hk), hother hk, ih hrest]

theorem keys_mapKeys (f : Scalar → Scalar) (entries : Entries) :
    (entries.mapKeys f).keys = entries.keys.map f := by
  rw [keys, keys, mapKeys, List.map_map, List.map_map]
  rfl

theorem value?_eq_or (l : Label) (entries : Entries) :
    l.value? entries = (entries.get? l.wire).or (entries.get? l.plain) := by
  rw [Label.value?, Label.find?]
  cases entries.get? l.wire with
  | some v => rfl
  | none => cases entries.get? l.plain <;> rfl

theorem value?_eq_get? (h : l.wire = l.plain) (entries : Entries) :
    l.value? entries = entries.get? l.wire := by
  rw [value?_eq_or, h, Option.or_self]

theorem get?_wireKeys (hd : Distinct labels) (hl : l ∈ labels) :
    (wireKeys labels entries).get? l.wire = l.value? entries := by
  rw [value?_eq_or]
  cases hwire : entries.get? l.wire with
  | some v =>
    have hhas : entries.has l.wire = true := by rw [has, hwire]; rfl
    rw [wireKeys, get?_mapKeys, hwire, Option.some_or]
    intro s _
    rw [wireKey_eq_wire_iff hd hl, hhas]
    refine or_iff_left ?_
    rintro ⟨-, h⟩
    cases h
  | none =>
    have hhas : entries.has l.wire = false := by rw [has, hwire]; rfl
    rw [wireKeys, get?_mapKeys (k := l.plain), Option.none_or]
    intro s hs
    rw [wireKey_eq_wire_iff hd hl, hhas, and_iff_left rfl]
    refine or_iff_right ?_
    rintro rfl
    rw [has_iff.2 hs] at hhas
    cases hhas

theorem value?_wireKeys (hd : Distinct labels) (hl : l ∈ labels) :
    l.value? (wireKeys labels entries) = l.value? entries := by
  rw [value?_eq_or, get?_wireKeys hd hl]
  cases hfound : l.value? entries with
  | some v => rfl
  | none =>
    rw [Option.none_or]
    by_cases hne : l.wire = l.plain
    · rw [← hne, get?_wireKeys hd hl, hfound]
    · -- What keeps the plain spelling would have been found beside the one on the wire.
      by_contra hplain
      have hhas : (wireKeys labels entries).has l.plain = true :=
        Option.isSome_iff_ne_none.2 hplain
      rw [has_iff, wireKeys, keys_mapKeys, List.mem_map] at hhas
      obtain ⟨s, -, hs⟩ := hhas
      have hwire := ((wireKey_eq_plain_iff hd hl hne).1 hs).2
      rw [value?_eq_or, Option.or_eq_none_iff] at hfound
      rw [has, hfound.1] at hwire
      cases hwire

theorem doubled_wireKeys (hd : Distinct labels) (hl : l ∈ labels) :
    l.Doubled (wireKeys labels entries) ↔ l.Doubled entries := by
  apply and_congr_right
  intro hne
  simp only [has_iff, wireKeys, keys_mapKeys, List.mem_map]
  constructor
  · rintro ⟨-, s, hs, hplain⟩
    obtain ⟨rfl, hwire⟩ := (wireKey_eq_plain_iff hd hl hne).1 hplain
    exact ⟨has_iff.1 hwire, hs⟩
  · rintro ⟨hwire, hplain⟩
    exact ⟨⟨_, hwire, (wireKey_eq_wire_iff hd hl).2 (.inl rfl)⟩,
      _, hplain, (wireKey_eq_plain_iff hd hl hne).2 ⟨rfl, has_iff.2 hwire⟩⟩

/-! ### Keys that are put in -/

theorem mapKeys_put (hfg : ∀ s ∈ entries.keys, f s = g s) (hk : f (.text k) = .text key)
    (hne : ∀ s ∈ entries.keys, g s = .text key → s = .text k) :
    mapKeys f (entries.put (.text k) v) = (mapKeys g entries).put (.text key) v := by
  induction entries with
  | nil =>
    change [(f (.text k), v)] = [(.text key, v)]
    rw [hk]
  | cons entry rest ih =>
    obtain ⟨s, w⟩ := entry
    obtain ⟨hs, hrest⟩ := List.forall_mem_cons.1 hfg
    obtain ⟨hsk, hne⟩ := List.forall_mem_cons.1 hne
    change mapKeys f (put ((s, w) :: rest) (.text k) v) =
      put ((g s, w) :: mapKeys g rest) (.text key) v
    rw [put, put]
    by_cases he : s = .text k
    · have hg : g s = .text key := by rw [← hs, he, hk]
      rw [if_pos (Scalar.same_text_iff.2 he), if_pos (Scalar.same_text_iff.2 hg)]
      change (f s, v) :: mapKeys f rest = (g s, v) :: mapKeys g rest
      rw [hs]
      refine congrArg _ (List.map_congr_left fun entry hentry => ?_)
      rw [hrest entry.1 (List.mem_map_of_mem hentry)]
    · rw [if_neg (mt Scalar.same_text_iff.1 he),
        if_neg (mt Scalar.same_text_iff.1 (mt hsk he))]
      change (f s, w) :: mapKeys f (put rest (.text k) v) = _
      rw [hs, ih hrest hne]

theorem wireKey_single (hd : Distinct labels) (hl : l ∈ labels) (hk : l.Names k)
    (hsingle : ∀ other, l.Names other → entries.has other = true → other = k) :
    wireKey labels entries (.text k) = .text l.wire := by
  rw [wireKey_eq_wire_iff hd hl, Scalar.text.injEq, Scalar.text.injEq]
  by_cases hkw : k = l.wire
  · exact .inl hkw
  · refine .inr ⟨hk.resolve_left hkw, Bool.eq_false_iff.2 fun h => ?_⟩
    exact hkw (hsingle _ (.inl rfl) h).symm

theorem wireKeys_put (hd : Distinct labels) (hl : l ∈ labels) (hk : l.Names k)
    (hsingle : ∀ other, l.Names other → entries.has other = true → other = k) :
    wireKeys labels (entries.put (.text k) v) =
      (wireKeys labels entries).put (.text l.wire) v := by
  have hhas (t : Text) :
      (entries.put (.text k) v).has t = true ↔ t = k ∨ entries.has t = true := by
    rw [has_iff, mem_keys_put, has_iff, Scalar.text.injEq]
  have hput : wireKey labels (entries.put (.text k) v) (.text k) = .text l.wire := by
    apply wireKey_single hd hl hk
    intro other hother h
    exact ((hhas other).1 h).elim id (hsingle other hother)
  have honly : ∀ s ∈ entries.keys, wireKey labels entries s = .text l.wire → s = .text k := by
    intro s hs hsw
    rcases (wireKey_eq_wire_iff hd hl).1 hsw with rfl | ⟨rfl, -⟩
    · rw [hsingle _ (.inl rfl) (has_iff.2 hs)]
    · rw [hsingle _ (.inr rfl) (has_iff.2 hs)]
  refine mapKeys_put ?_ hput honly
  -- All other keys come out as before: what is put in is the wire spelling of none of them.
  intro s hs
  by_cases he : s = .text k
  · rw [he, hput, wireKey_single hd hl hk hsingle]
  · cases s with
    | text key =>
      rw [wireKey, wireKey]
      split
      · next m hfind =>
        have hm := List.mem_of_find?_eq_some hfind
        have hplain : m.plain = key := of_decide_eq_true (List.find?_some hfind :)
        have hml : m ≠ l := by
          rintro rfl
          exact he (congrArg Scalar.text (hsingle key (.inr hplain.symm) (has_iff.2 hs)))
        have hmk : m.wire ≠ k := by
          rintro rfl
          rcases hk with h | h
          · exact hml (hd.eq_of_wire hm hl h)
          · exact hml (hd.eq_of_wire_plain hm hl h)
        have hsame : (entries.put (.text k) v).has m.wire = entries.has m.wire := by
          rw [Bool.eq_iff_iff, hhas, or_iff_right hmk]
        rw [hsame]
      · rfl
    | _ => rfl

theorem wireKeys_mapValues (labels : List Label) (f : Value → Value) (entries : Entries) :
    wireKeys labels (entries.mapValues f) = (wireKeys labels entries).mapValues f := by
  have hkey : wireKey labels (entries.mapValues f) = wireKey labels entries := by
    apply wireKey_congr
    intro l _
    rw [Bool.eq_iff_iff, has_iff, has_iff, keys_mapValues]
  rw [wireKeys, hkey, wireKeys, mapKeys, mapValues, mapKeys, mapValues, List.map_map, List.map_map]
  rfl

/-! ### Entries as they are on the wire -/

theorem value?_mapValues (f : Value → Value) (l : Label) (entries : Entries) :
    l.value? (entries.mapValues f) = (l.value? entries).map f := by
  rw [value?_eq_or, value?_eq_or, get?_mapValues, get?_mapValues, Option.map_or]

theorem value?_onWire (hd : Distinct labels) (hl : l ∈ labels) (entries : Entries) :
    l.value? (entries.onWire labels) = (l.value? entries).map (Value.onWire labels) := by
  rw [onWire, value?_wireKeys hd hl, value?_mapValues]

theorem doubled_mapValues (f : Value → Value) :
    l.Doubled (entries.mapValues f) ↔ l.Doubled entries := by
  rw [Label.Doubled, Label.Doubled]
  simp only [has_iff, keys_mapValues]

theorem doubled_onWire (hd : Distinct labels) (hl : l ∈ labels) :
    l.Doubled (entries.onWire labels) ↔ l.Doubled entries := by
  rw [onWire, doubled_wireKeys hd hl, doubled_mapValues]

theorem onWire_put (hd : Distinct labels) (hl : l ∈ labels) (hk : l.Names k)
    (hsingle : ∀ other, l.Names other → entries.has other = true → other = k) (v : Value) :
    onWire labels (entries.put (.text k) v) =
      (entries.onWire labels).put (.text l.wire) (v.onWire labels) := by
  rw [onWire, put_mapValues, wireKeys_put hd hl hk]
  · rfl
  · intro other hother h
    rw [has_iff, keys_mapValues, ← has_iff] at h
    exact hsingle other hother h

/-! ### Keys that spell the same field -/

theorem wireKey_of_not_doubled (h : ∀ l ∈ labels, ¬l.Doubled entries) (hs : s ∈ entries.keys) :
    wireKey labels entries s = wireKey labels [] s := by
  cases s with
  | text key =>
    rw [wireKey, wireKey]
    cases hfind : labels.find? fun l => l.plain = key with
    | none => rfl
    | some l =>
      have hplain : l.plain = key := of_decide_eq_true (List.find?_some hfind :)
      subst hplain
      change (if _ then _ else _) = Scalar.text l.wire
      split
      · next hwire =>
        by_contra hne
        apply h l (List.mem_of_find?_eq_some hfind)
        exact ⟨fun he => hne (congrArg Scalar.text he.symm), hwire, has_iff.2 hs⟩
      · rfl
  | _ => rfl

theorem wireKey_names (hd : Distinct labels) (hl : l ∈ labels) (hk : l.Names key) :
    wireKey labels [] (.text key) = .text l.wire :=
  wireKey_single hd hl hk fun _ _ h => absurd h Bool.false_ne_true

theorem wireKey_nil_cases (labels : List Label) (s : Scalar) : wireKey labels [] s = s ∨
    ∃ l ∈ labels, s = .text l.plain ∧ wireKey labels [] s = .text l.wire := by
  cases s with
  | text key =>
    rcases wireKey_cases labels [] key with ⟨l, hl, rfl, he⟩ | ⟨-, he⟩
    · exact .inr ⟨l, hl, rfl, he⟩
    · exact .inl he
  | _ => exact .inl rfl

theorem wireKey_eq_wireKey_iff (hd : Distinct labels) :
    wireKey labels [] s = wireKey labels [] t ↔ SameField labels s t := by
  constructor
  · intro h
    rcases wireKey_nil_cases labels s with hs | ⟨l, hl, rfl, hs⟩
    · rcases wireKey_nil_cases labels t with ht | ⟨m, hm, rfl, ht⟩
      · exact .inl (hs.symm.trans (h.trans ht))
      · exact .inr ⟨m, hm, m.wire, m.plain, .inl rfl, .inr rfl, hs.symm.trans (h.trans ht), rfl⟩
    · rcases wireKey_nil_cases labels t with ht | ⟨m, hm, rfl, ht⟩
      · exact .inr ⟨l, hl, l.plain, l.wire, .inr rfl, .inl rfl, rfl,
          ht.symm.trans (h.symm.trans hs)⟩
      · obtain rfl := hd.eq_of_wire hl hm (Scalar.text.inj (hs.symm.trans (h.trans ht)))
        exact .inl rfl
  · rintro (rfl | ⟨l, hl, key, other, hkey, hother, rfl, rfl⟩)
    · rfl
    · rw [wireKey_names hd hl hkey, wireKey_names hd hl hother]

/-- On the wire two mappings without doubled fields are the same iff they hold the same under keys
that spell the same fields. -/
theorem onWire_eq_iff (hd : Distinct labels) (h : ∀ l ∈ labels, ¬l.Doubled entries)
    (h' : ∀ l ∈ labels, ¬l.Doubled other) :
    entries.onWire labels = other.onWire labels ↔
      List.Forall₂ (fun e e' => SameField labels e.1 e'.1 ∧
        e.2.onWire labels = e'.2.onWire labels) entries other := by
  have hmap {entries : Entries} (h : ∀ l ∈ labels, ¬l.Doubled entries) :
      entries.onWire labels =
        entries.map fun e => (wireKey labels [] e.1, e.2.onWire labels) := by
    rw [onWire, wireKeys, mapKeys, mapValues, List.map_map]
    refine List.map_congr_left fun e he => congrArg (·, e.2.onWire labels) ?_
    change wireKey labels (mapValues (Value.onWire labels) entries) e.1 = _
    apply wireKey_of_not_doubled
    · intro l hl
      rw [doubled_mapValues]
      exact h l hl
    · rw [keys_mapValues]
      exact List.mem_map_of_mem he
  rw [hmap h, hmap h', ← List.forall₂_eq_eq_eq, List.forall₂_map_left_iff,
    List.forall₂_map_right_iff]
  simp only [Prod.mk.injEq, wireKey_eq_wireKey_iff hd]

end Entries

/-! ### Values as they are on the wire -/

theorem itemsOnWire_eq (labels : List Label) (items : List Value) :
    itemsOnWire labels items = items.map (Value.onWire labels) := by
  induction items with
  | nil => rfl
  | cons item rest ih => rw [itemsOnWire, ih, List.map_cons]

theorem entriesOnWire_eq (labels : List Label) (entries : Entries) :
    entriesOnWire labels entries = entries.mapValues (Value.onWire labels) := by
  induction entries with
  | nil => rfl
  | cons entry rest ih =>
    rw [entriesOnWire, ih]
    rfl

namespace Value

theorem onWire_list (labels : List Label) (items : List Value) :
    onWire labels (.list items) = .list (items.map (onWire labels)) := by
  rw [onWire, itemsOnWire_eq]

theorem onWire_map (labels : List Label) (entries : Entries) :
    onWire labels (.map entries) = .map (entries.onWire labels) := by
  rw [onWire, entriesOnWire_eq, Entries.onWire]

theorem onWire_tie (labels : List Label) (mark : Nat) (whole v : Value) :
    onWire labels (tie mark whole v) = tie mark (whole.onWire labels) (v.onWire labels) := by
  induction v using partwise with
  | scalar s => rfl
  | set members => rfl
  | list items ih =>
    rw [tie_list, onWire_list, onWire_list, tie_list, List.map_map, List.map_map]
    exact congrArg Value.list (List.map_congr_left ih)
  | map entries ih =>
    rw [tie_map, onWire_map, onWire_map, tie_map, Entries.onWire, Entries.onWire,
      ← Entries.wireKeys_mapValues, Entries.mapValues_mapValues, Entries.mapValues_mapValues]
    exact congrArg (fun es => map (Entries.wireKeys labels es)) (Entries.mapValues_congr ih)
  | pair key held ihk ihh => rw [tie, onWire, onWire, tie, ihk, ihh]
  | marked other v ih =>
    rw [tie, onWire, onWire, tie]
    split
    · rfl
    · rw [ih]
  | again other =>
    rw [tie, onWire, tie]
    split <;> rfl

theorem opened_onWire (labels : List Label) (v : Value) :
    (v.onWire labels).opened = v.opened.onWire labels := by
  cases v with
  | marked mark collection => exact (onWire_tie labels mark (.marked mark collection) _).symm
  | _ => rfl

theorem entries?_onWire (labels : List Label) (v : Value) :
    (v.onWire labels).entries? = v.entries?.map (Entries.onWire labels) := by
  rw [entries?, entries?, opened_onWire]
  cases v.opened with
  | map entries => rw [onWire_map]; rfl
  | _ => rfl

theorem onWire_withEntry (hd : Distinct labels) (hl : l ∈ labels) (hk : l.Names key)
    (hsingle : ∀ keys, v.ownKeys? = some keys →
      ∀ other, l.Names other → .text other ∈ keys → other = key) (s : Scalar) :
    onWire labels (v.withEntry (.text key) (.scalar s)) =
      (v.onWire labels).withEntry (.text l.wire) (.scalar s) := by
  cases v with
  | map entries =>
    change onWire labels (.map (Entries.put entries (.text key) (.scalar s))) = _
    rw [onWire_map, onWire_map, Entries.onWire_put hd hl hk]
    · rfl
    · intro other hother h
      exact hsingle _ rfl other hother (Entries.has_iff.1 h)
  | _ => rfl

/-- What is assigned under the only spelling of a label, wherever the mapping stands, is assigned
under the one on the wire. -/
theorem onWire_assign (hd : Distinct labels) (hl : l ∈ labels) (hk : l.Names key)
    (hplaces : ∀ p ∈ v.places, p.1 = mark →
      ∀ other, l.Names other → .text other ∈ p.2 → other = key) (s : Scalar) :
    onWire labels (v.assign ⟨mark, .text key, .scalar s⟩) =
      (v.onWire labels).assign ⟨mark, .text l.wire, .scalar s⟩ := by
  induction v using partwise with
  | scalar r => rfl
  | set members => rfl
  | again other => rfl
  | list items ih =>
    rw [assign_list, onWire_list, onWire_list, assign_list, List.map_map, List.map_map]
    refine congrArg Value.list (List.map_congr_left fun v hv => ih v hv fun p hp => ?_)
    exact hplaces p (places_item hv hp)
  | map entries ih =>
    rw [assign_map, onWire_map, onWire_map, assign_map, Entries.onWire, Entries.onWire,
      ← Entries.wireKeys_mapValues, Entries.mapValues_mapValues, Entries.mapValues_mapValues]
    refine congrArg (fun es => map (Entries.wireKeys labels es)) (Entries.mapValues_congr ?_)
    intro entry hentry
    exact ih entry hentry fun p hp => hplaces p (mem_places_map.2 ⟨entry, hentry, hp⟩)
  | pair key held ihk ihh =>
    rw [assign, onWire, onWire, assign, ihk fun p hp => hplaces p (mem_places_pair.2 (.inl hp)),
      ihh fun p hp => hplaces p (mem_places_pair.2 (.inr hp))]
  | marked other v ih =>
    have ih := ih fun p hp => hplaces p (mem_places_marked.2 (.inr hp))
    rw [assign, onWire, onWire, assign]
    split
    · next hmark =>
      have hsingle : ∀ keys, (v.assign ⟨mark, .text key, .scalar s⟩).ownKeys? = some keys →
          ∀ other, l.Names other → .text other ∈ keys → other = key := by
        intro keys hkeys
        rw [ownKeys?_assign] at hkeys
        exact hplaces (other, keys) (mem_places_marked.2 (.inl ⟨keys, hkeys, rfl⟩)) hmark
      rw [onWire_withEntry hd hl hk hsingle, ih]
    · rw [ih]

end Value

end ApiPrep
