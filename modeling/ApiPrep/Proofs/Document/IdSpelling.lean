import ApiPrep.Proofs.Document.Spellings
import ApiPrep.Proofs.Document.Stumbling
import ApiPrep.Proofs.Value.Assigned

namespace ApiPrep.InputDocument

open Naming Record

def idLabel : Label := Operation.operationIdMember.label

def methodLabel : Label := Operation.httpMethodMember.label

def pathLabel : Label := Operation.pathMember.label

def idSpelling (keys : List Scalar) : Option Text :=
  if .text "operation_id" ∈ keys then
    if .text "operationId" ∈ keys then none else some "operation_id"
  else some "operationId"

/-- Whether an operation has neither its id nor its method in both spellings. -/
def Single (operation : Value) : Prop :=
  ∀ entries, operation.entries? = some entries →
    ¬idLabel.Doubled entries ∧ ¬methodLabel.Doubled entries

instance : DecidablePred Single := fun operation =>
  decidable_of_iff (∀ entries ∈ operation.entries?,
    ¬idLabel.Doubled entries ∧ ¬methodLabel.Doubled entries) Iff.rfl

/-- Whether an id has or gets the given spellings at the places of mappings that have a mark. -/
def Spells (ids : Nat → Option Text) (v : Value) : Prop :=
  ∀ p ∈ v.places, idSpelling p.2 = ids p.1

/-- Whether two values differ in the spelling of their keys only, where ids have or get the given
spellings. -/
structure Alike (ids ids' : Nat → Option Text) (v v' : Value) : Prop where
  left : Spells ids v
  right : Spells ids' v'
  onWire : v.onWire labels = v'.onWire labels

inductive SameId (ids ids' : Nat → Option Text) : Assignment → Assignment → Prop
  | mk (mark : Nat) (key key' id : Text) (left : ids mark = some key)
      (right : ids' mark = some key') (names : idLabel.Names key) (names' : idLabel.Names key') :
      SameId ids ids' ⟨mark, .text key, .text id⟩ ⟨mark, .text key', .text id⟩

variable {keys later : List Scalar} {key id : Text} {entries entries' : Entries} {l : Label}
  {ids ids' : Nat → Option Text} {v v' : Value} {a a' : Assignment} {made made' : List Assignment}
  {mark : Nat}

theorem idLabel_mem : idLabel ∈ labels := by decide

theorem methodLabel_mem : methodLabel ∈ labels := by decide

theorem pathLabel_mem : pathLabel ∈ labels := by decide

theorem apart_method : idLabel.Apart methodLabel := by decide

theorem apart_path : idLabel.Apart pathLabel := by decide

/-! ### The spelling of an id -/

theorem names_of_idSpelling (h : idSpelling keys = some key) : idLabel.Names key := by
  unfold idSpelling at h
  split_ifs at h
  · exact .inr (Option.some.inj h).symm
  · exact .inl (Option.some.inj h).symm

theorem eq_of_idSpelling (h : idSpelling keys = some key) {other : Text}
    (hother : idLabel.Names other) (hmem : .text other ∈ keys) : other = key := by
  unfold idSpelling at h
  split_ifs at h with hplain hwire
  · rw [← Option.some.inj h]
    rcases hother with rfl | rfl
    · exact absurd hmem hwire
    · rfl
  · rw [← Option.some.inj h]
    rcases hother with rfl | rfl
    · rfl
    · exact absurd hmem hplain

theorem idSpelling_put (h : idSpelling keys = some key)
    (hafter : ∀ s, s ∈ later ↔ s = .text key ∨ s ∈ keys) : idSpelling later = some key := by
  unfold idSpelling at h ⊢
  simp only [hafter, Scalar.text.injEq]
  split_ifs at h with hplain hwire
  · cases h
    rw [if_pos (.inl rfl), if_neg (not_or.2 ⟨by decide, hwire⟩)]
  · cases h
    rw [if_neg (not_or.2 ⟨by decide, hplain⟩)]

theorem idSpelling_keys (h : ¬idLabel.Doubled entries) :
    idSpelling entries.keys = some (idKey entries) := by
  have hnot (hplain : entries.has "operation_id" = true) : .text "operationId" ∉ entries.keys :=
    fun hwire => h ⟨by decide, Entries.has_iff.2 hwire, hplain⟩
  unfold idSpelling idKey
  simp only [← Entries.has_iff] at hnot ⊢
  split_ifs with hplain hwire
  · exact absurd hwire (hnot hplain)
  · rfl
  · rfl

theorem idKey_single (h : ¬idLabel.Doubled entries) {other : Text} (hother : idLabel.Names other)
    (hhas : entries.has other = true) : other = idKey entries :=
  eq_of_idSpelling (idSpelling_keys h) hother (Entries.has_iff.1 hhas)

theorem get?_idKey (h : ¬idLabel.Doubled entries) :
    entries.get? (idKey entries) = idLabel.value? entries := by
  rw [Entries.value?_eq_or]
  change _ = (entries.get? "operationId").or (entries.get? "operation_id")
  rcases hasBoth_cases entries with ⟨hboth, -⟩ | ⟨-, ⟨hkey, hnone⟩ | ⟨hkey, hnone⟩⟩
  · rw [hasBoth, Bool.and_eq_true] at hboth
    exact absurd ⟨by decide, hboth.2, hboth.1⟩ h
  · rw [hkey, hnone, Option.or_none]
  · rw [hkey, hnone, Option.none_or]

/-! ### What an id is made up from -/

theorem firstGiven_cons (entries : Entries) (k : Text) (keys : List Text) (otherwise : Text) :
    firstGiven entries (k :: keys) otherwise =
      ((entries.get? k).filter Value.given).getD (firstGiven entries keys otherwise) := by
  rw [firstGiven, List.filterMap_cons]
  cases entries.get? k with
  | none => rfl
  | some v =>
    rw [List.find?_cons, Option.filter_some]
    cases v.given <;> rfl

theorem firstGiven_path (entries : Entries) : firstGiven entries ["path"] "" =
    ((pathLabel.value? entries).filter Value.given).getD (.text "") := by
  rw [Entries.value?_eq_get? (l := pathLabel) rfl, firstGiven_cons]
  rfl

theorem firstGiven_method (h : ¬methodLabel.Doubled entries) :
    firstGiven entries ["http_method", "httpMethod"] "get" =
      ((methodLabel.value? entries).filter Value.given).getD (.text "get") := by
  have hnot : entries.get? "httpMethod" = none ∨ entries.get? "http_method" = none := by
    by_contra! hboth
    exact h ⟨by decide, Option.isSome_iff_ne_none.2 hboth.1, Option.isSome_iff_ne_none.2 hboth.2⟩
  rw [Entries.value?_eq_or, firstGiven_cons, firstGiven_cons]
  change _ = (((entries.get? "httpMethod").or (entries.get? "http_method")).filter _).getD _
  rcases hnot with hnone | hnone
  · rw [hnone, Option.none_or]
    rfl
  · rw [hnone, Option.or_none]
    rfl

/-! ### Assignments of ids -/

theorem Spells.assign (h : Spells ids v) (hids : ids mark = some key) :
    Spells ids (v.assign ⟨mark, .text key, .text id⟩) := by
  intro p hp
  obtain ⟨q, hq, hmark, hkeys | ⟨hassigned, hkeys⟩⟩ := Value.exists_becomes rfl rfl hp
  · rw [← hkeys, ← hmark, h q hq]
  · have hq := h q hq
    rw [hassigned, hids] at hq
    rw [← hmark, hassigned, hids, idSpelling_put hq hkeys]

theorem Spells.onWire_assign (h : Spells ids v) (hids : ids mark = some key)
    (hnames : idLabel.Names key) :
    (v.assign ⟨mark, .text key, .text id⟩).onWire labels =
      (v.onWire labels).assign ⟨mark, .text idLabel.wire, .text id⟩ := by
  apply Value.onWire_assign labels_distinct idLabel_mem hnames
  intro p hp hmark other hother hmem
  have hkey : idSpelling p.2 = some key := by rw [h p hp, hmark, hids]
  exact eq_of_idSpelling hkey hother hmem

theorem Alike.assign (h : Alike ids ids' v v') (ha : SameId ids ids' a a') :
    Alike ids ids' (v.assign a) (v'.assign a') := by
  obtain ⟨mark, key, key', id, left, right, names, names'⟩ := ha
  refine ⟨h.left.assign left, h.right.assign right, ?_⟩
  rw [h.left.onWire_assign left names, h.right.onWire_assign right names', h.onWire]

theorem doubled_of_keys (h : ∀ k, l.Names k → .text k ∈ entries.keys → .text k ∈ entries'.keys)
    (hdoubled : l.Doubled entries) : l.Doubled entries' := by
  obtain ⟨hne, hwire, hplain⟩ := hdoubled
  refine ⟨hne, Entries.has_iff.2 ?_, Entries.has_iff.2 ?_⟩
  · exact h l.wire (.inl rfl) (Entries.has_iff.1 hwire)
  · exact h l.plain (.inr rfl) (Entries.has_iff.1 hplain)

theorem not_doubled_of_idSpelling (h : idSpelling entries.keys = some key) :
    ¬idLabel.Doubled entries := by
  rintro ⟨hne, hwire, hplain⟩
  have hw := eq_of_idSpelling h (.inl rfl) (Entries.has_iff.1 hwire)
  have hp := eq_of_idSpelling h (.inr rfl) (Entries.has_iff.1 hplain)
  exact hne (hw.trans hp.symm)

theorem Single.assign (h : Single v) (hv : Spells ids v) (ha : SameId ids ids' a a') :
    Single (v.assign a) := by
  obtain ⟨mark, key, -, id, left, -, names, -⟩ := ha
  intro entries hentries
  have hkeys : (v.assign ⟨mark, .text key, .text id⟩).keys? = some entries.keys := by
    rw [Value.keys?, hentries, Option.map_some]
  obtain ⟨before, hbefore, hafter⟩ := Value.exists_keys?_assign rfl hkeys
  obtain ⟨fields, hfields, rfl⟩ := Option.map_eq_some_iff.1 hbefore
  obtain ⟨hid, hmethod⟩ := h fields hfields
  rcases hafter with hsame | ⟨⟨collection, rfl⟩, hput⟩
  · have hmem {l : Label} (k : Text) (_ : l.Names k) (h : .text k ∈ entries.keys) :
        .text k ∈ fields.keys := hsame ▸ h
    exact ⟨mt (doubled_of_keys hmem) hid, mt (doubled_of_keys hmem) hmethod⟩
  · have hown := hbefore
    rw [Value.keys?_marked] at hown
    have hplace := hv (mark, fields.keys) (Value.mem_places_marked.2 (.inl ⟨_, hown, rfl⟩))
    rw [left] at hplace
    refine ⟨not_doubled_of_idSpelling (idSpelling_put hplace hput), mt ?_ hmethod⟩
    apply doubled_of_keys
    intro k hk hmem
    refine ((hput _).1 hmem).resolve_left ?_
    rintro ⟨⟩
    exact apart_method.not_names names hk

end ApiPrep.InputDocument
