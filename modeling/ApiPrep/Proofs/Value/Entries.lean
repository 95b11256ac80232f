import ApiPrep.Record.Form
import ApiPrep.Value.Opened

namespace ApiPrep

open Record

variable {entries : Entries} {key k : Text} {v collection : Value} {s : Scalar} {mark : Nat}

theorem Scalar.same_text_iff : s.same (.text key) = true ↔ s = .text key := by
  have hfloat (x y : Float) (_ : s = .float x) (h : Scalar.text key = .float y) : False := nomatch h
  have hmoment (x y : Moment) (_ : s = .moment x) (h : Scalar.text key = .moment y) : False :=
    nomatch h
  rw [same.eq_3 _ _ hfloat hmoment]
  split
  · next hn => cases hn
  · exact beq_iff_eq
  · next hn =>
    refine iff_of_false Bool.false_ne_true ?_
    rintro rfl
    exact hn rfl rfl

namespace Entries

theorem get?_cons_text (t : Text) (v : Value) (rest : Entries) (k : Text) :
    get? ((.text t, v) :: rest) k = if t = k then some v else get? rest k := rfl

theorem get?_cons_other (hs : ∀ t, s ≠ .text t) (v : Value) (rest : Entries) (k : Text) :
    get? ((s, v) :: rest) k = get? rest k := by
  cases s with
  | text t => exact absurd rfl (hs t)
  | _ => rfl

theorem get?_put (entries : Entries) (key k : Text) (v : Value) :
    (entries.put (.text key) v).get? k = if key = k then some v else entries.get? k := by
  induction entries with
  | nil => rfl
  | cons entry rest ih =>
    obtain ⟨s, w⟩ := entry
    rw [put]
    split
    · next hs =>
      rw [Scalar.same_text_iff.1 hs, get?_cons_text, get?_cons_text]
      by_cases hk : key = k
      · rw [if_pos hk, if_pos hk]
      · rw [if_neg hk, if_neg hk, if_neg hk]
    · next hs =>
      by_cases ht : ∃ t, s = .text t
      · obtain ⟨t, rfl⟩ := ht
        have hne : t ≠ key := fun he => hs (Scalar.same_text_iff.2 (he ▸ rfl))
        rw [get?_cons_text, get?_cons_text, ih]
        by_cases hk : t = k
        · rw [if_pos hk, if_pos hk, if_neg fun he => hne (hk.trans he.symm)]
        · rw [if_neg hk, if_neg hk]
      · have ht := not_exists.1 ht
        rw [get?_cons_other ht, get?_cons_other ht, ih]

theorem put_put (entries : Entries) (key : Text) (v w : Value) :
    (entries.put (.text key) v).put (.text key) w = entries.put (.text key) w := by
  induction entries with
  | nil =>
    change put [(.text key, v)] (.text key) w = [(.text key, w)]
    rw [put, if_pos (Scalar.same_text_iff.2 rfl)]
  | cons entry rest ih =>
    obtain ⟨s, u⟩ := entry
    by_cases hs : s.same (.text key) = true
    · rw [put, put, if_pos hs, if_pos hs, put, if_pos hs]
    · rw [put, put, if_neg hs, if_neg hs, put, if_neg hs, ih]

def mapValues (f : Value → Value) (entries : Entries) : Entries :=
  entries.map fun entry => (entry.1, f entry.2)

theorem get?_mapValues (f : Value → Value) (entries : Entries) (k : Text) :
    get? (mapValues f entries) k = (entries.get? k).map f := by
  induction entries with
  | nil => rfl
  | cons entry rest ih =>
    obtain ⟨s, w⟩ := entry
    change get? ((s, f w) :: mapValues f rest) k = _
    cases s with
    | text t =>
      rw [get?_cons_text, get?_cons_text, ih]
      split <;> rfl
    | _ => exact ih

theorem tieEntries_eq (mark : Nat) (whole : Value) (entries : Entries) :
    tieEntries mark whole entries = entries.mapValues (Value.tie mark whole) := by
  induction entries with
  | nil => rfl
  | cons entry rest ih =>
    rw [tieEntries, ih]
    rfl

theorem get?_tie (mark : Nat) (whole : Value) (entries : Entries) (k : Text) :
    get? (tieEntries mark whole entries) k = (entries.get? k).map (Value.tie mark whole) := by
  rw [tieEntries_eq, get?_mapValues]

theorem assignEntries_eq (a : Assignment) (entries : Entries) :
    assignEntries a entries = entries.mapValues (Value.assign a) := by
  induction entries with
  | nil => rfl
  | cons entry rest ih =>
    rw [assignEntries, ih]
    rfl

theorem get?_assign (a : Assignment) (entries : Entries) (k : Text) :
    get? (assignEntries a entries) k = (entries.get? k).map (Value.assign a) := by
  rw [assignEntries_eq, get?_mapValues]

end Entries

namespace Value

theorem readText_tie (mark : Nat) (collection v : Value) :
    Form.readText (.tie mark (.marked mark collection) v) = Form.readText v := by
  cases v with
  | again other =>
    rw [tie]
    split <;> rfl
  | scalar | set => rw [tie]
  | _ => rw [tie]; rfl

theorem readText_assign (a : Assignment) (v : Value) :
    Form.readText (v.assign a) = Form.readText v := by
  cases v <;> rfl

theorem put_marked (mark : Nat) (es : Entries) (key : Scalar) (held : Value) :
    ((Value.marked mark (.map es)).put key held).1 =
      .marked mark (.map (Entries.put (assignEntries ⟨mark, key, held⟩ es) key held)) := by
  rw [Value.put, assign, if_pos rfl, assign]
  rfl

theorem entries?_marked (h : (Value.marked mark collection).entries? = some entries) :
    ∃ es : Entries, collection = .map es ∧
      tieEntries mark (.marked mark (.map es)) es = entries := by
  cases collection with
  | map es => exact ⟨es, rfl, Option.some.inj h⟩
  | again other =>
    rw [entries?, opened, tie] at h
    by_cases ho : other = mark
    · rw [if_pos ho] at h
      cases h
    · rw [if_neg ho] at h
      cases h
  | _ => cases h

theorem readText_put (h : v.entries? = some entries) (key text : Text) :
    ∃ after : Entries, (v.put (.text key) (.text text)).1.entries? = some after ∧
      ∀ k, (after.get? k).map Form.readText =
        if key = k then some (.ok text) else (entries.get? k).map Form.readText := by
  cases v with
  | map es =>
    obtain rfl : es = entries := Option.some.inj h
    refine ⟨Entries.put es (.text key) (.text text), rfl, fun k => ?_⟩
    rw [Entries.get?_put]
    split <;> rfl
  | marked mark collection =>
    obtain ⟨es, rfl, rfl⟩ := entries?_marked h
    let a : Assignment := ⟨mark, .text key, .text text⟩
    let put := Entries.put (assignEntries a es) (.text key) (.text text)
    have hread (w : Value) : Form.readText (.tie mark (.marked mark (.map put)) (w.assign a)) =
        Form.readText (.tie mark (.marked mark (.map es)) w) := by
      rw [readText_tie, readText_assign, readText_tie]
    refine ⟨tieEntries mark (.marked mark (.map put)) put, by rw [put_marked]; rfl, fun k => ?_⟩
    rw [Entries.get?_tie, Entries.get?_tie, Entries.get?_put, Entries.get?_assign]
    split
    · rfl
    · rw [Option.map_map, Option.map_map, Option.map_map]
      exact congrArg (Option.map · (Entries.get? es k)) (funext hread)
  | _ => cases h

end Value

end ApiPrep
