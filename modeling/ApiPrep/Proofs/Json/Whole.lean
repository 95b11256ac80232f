import ApiPrep.Json.Writer
import ApiPrep.Proofs.Json.Exact
import ApiPrep.Proofs.Text.Utf8

namespace ApiPrep.Json

variable {v : Value} {s t : List Rune} {c : Rune}

/-- A value whose texts, the keys of mappings among them, are made of characters alone. -/
inductive Whole : Value → Prop
  | null : Whole .null
  | bool (b : Bool) : Whole (.bool b)
  | int (n : Int) : Whole (.int n)
  | text {s : Text} (whole : s.isWhole = true) : Whole (.text s)
  | list {values : List Value} (each : ∀ v ∈ values, Whole v) : Whole (.list values)
  | map {fields : List (Text × Value)} (keys : ∀ field ∈ fields, field.1.isWhole = true)
      (each : ∀ field ∈ fields, Whole field.2) : Whole (.map (textEntries fields))

def Unbroken (s : List Rune) : Prop := ∀ c ∈ s, c.isHalf = false

theorem unbroken_append : Unbroken (s ++ t) ↔ Unbroken s ∧ Unbroken t := List.forall_mem_append

theorem unbroken_cons : Unbroken (c :: s) ↔ c.isHalf = false ∧ Unbroken s := List.forall_mem_cons

theorem unbroken_map_char (s : List Char) : Unbroken (s.map .char) := by
  intro c hc
  obtain ⟨d, -, rfl⟩ := List.mem_map.1 hc
  rfl

theorem unbroken_replicate (n : Nat) (d : Char) : Unbroken (List.replicate n (.char d)) := by
  intro c hc
  rw [List.eq_of_mem_replicate hc]
  rfl

theorem unbroken_newLine (depth : Nat) : Unbroken (newLine depth) :=
  unbroken_cons.2 ⟨rfl, unbroken_replicate _ ' '⟩

theorem unbroken_writtenChar (hc : c.isHalf = false) : Unbroken (writtenChar c) := by
  unfold writtenChar
  iterate 7
    split
    · exact unbroken_cons.2 ⟨rfl, unbroken_cons.2 ⟨rfl, nofun⟩⟩
  split
  · refine unbroken_cons.2 ⟨rfl, unbroken_cons.2 ⟨rfl, ?_⟩⟩
    exact unbroken_append.2 ⟨unbroken_replicate _ '0', unbroken_map_char _⟩
  · exact unbroken_cons.2 ⟨hc, nofun⟩

theorem unbroken_writtenText {k : Text} (h : k.isWhole = true) : Unbroken (writtenText k) := by
  refine unbroken_cons.2 ⟨rfl, unbroken_append.2 ⟨?_, unbroken_cons.2 ⟨rfl, nofun⟩⟩⟩
  intro d hd
  obtain ⟨c, hc, hd⟩ := List.mem_flatMap.1 hd
  exact unbroken_writtenChar (Text.isWhole_iff.1 h c hc) d hd

theorem unbroken_writtenItems {values : List Value} {depth : Nat}
    (each : ∀ v ∈ values, Unbroken (written depth v)) : Unbroken (writtenItems depth values) := by
  induction values with
  | nil => exact nofun
  | cons item rest ih =>
    obtain ⟨hitem, hrest⟩ := List.forall_mem_cons.1 each
    rw [writtenItems, unbroken_cons, unbroken_append, unbroken_append]
    exact ⟨rfl, ⟨unbroken_newLine _, hitem⟩, ih hrest⟩

theorem unbroken_writtenMembers {fields : List (Text × Value)} {depth : Nat}
    (keys : ∀ field ∈ fields, field.1.isWhole = true)
    (each : ∀ field ∈ fields, Unbroken (written depth field.2)) :
    Unbroken (writtenMembers depth (textEntries fields)) := by
  induction fields with
  | nil => exact nofun
  | cons field rest ih =>
    obtain ⟨hkey, hkeys⟩ := List.forall_mem_cons.1 keys
    obtain ⟨hheld, hrest⟩ := List.forall_mem_cons.1 each
    change Unbroken (writtenMembers depth ((.text field.1, field.2) :: textEntries rest))
    rw [writtenMembers]
    simp only [unbroken_cons, unbroken_append]
    exact ⟨rfl, ⟨⟨⟨unbroken_newLine _, unbroken_writtenText hkey⟩, rfl, rfl, nofun⟩, hheld⟩,
      ih hkeys hrest⟩

/-- A value without halves is written without halves. -/
theorem Whole.unbroken (h : Whole v) (depth : Nat) : Unbroken (written depth v) := by
  induction h generalizing depth with
  | null => exact unbroken_map_char _
  | bool b => exact unbroken_map_char _
  | int n => exact unbroken_map_char _
  | text whole => exact unbroken_writtenText whole
  | @list values _ ih =>
    cases values with
    | nil => exact unbroken_map_char ['[', ']']
    | cons item rest =>
      obtain ⟨hitem, hrest⟩ := List.forall_mem_cons.1 ih
      rw [written]
      simp only [unbroken_cons, unbroken_append]
      exact ⟨rfl, ⟨⟨⟨unbroken_newLine _, hitem _⟩,
        unbroken_writtenItems fun v hv => hrest v hv _⟩, unbroken_newLine _⟩, rfl, nofun⟩
  | @map fields keys _ ih =>
    cases fields with
    | nil => exact unbroken_map_char ['{', '}']
    | cons field rest =>
      obtain ⟨hkey, hkeys⟩ := List.forall_mem_cons.1 keys
      obtain ⟨hheld, hrest⟩ := List.forall_mem_cons.1 ih
      change Unbroken (written depth (.map ((.text field.1, field.2) :: textEntries rest)))
      rw [written]
      simp only [unbroken_cons, unbroken_append]
      exact ⟨rfl, ⟨⟨⟨⟨⟨unbroken_newLine _, unbroken_writtenText hkey⟩, rfl, rfl, nofun⟩, hheld _⟩,
        unbroken_writtenMembers hkeys fun f hf => hrest f hf _⟩, unbroken_newLine _⟩, rfl, nofun⟩

theorem Whole.isWhole_write (h : Whole v) : (write v).isWhole = true :=
  Text.isWhole_iff.2 (h.unbroken 0)

end ApiPrep.Json
