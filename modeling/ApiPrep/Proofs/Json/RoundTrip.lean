import ApiPrep.Proofs.Json.Exact
import ApiPrep.Proofs.Json.Scalars

namespace ApiPrep.Json

variable {v : Value} {values : List Value} {fields : List (Text × Value)} {s rest : List Rune}
  {c : Rune} {depth indent fuel : Nat}

theorem skip_of_not_blank (hc : isBlank c = false) : skip (c :: s) = c :: s := by
  rw [skip, List.dropWhile_cons, hc]
  rfl

theorem skip_newLine (indent : Nat) (s : List Rune) : skip (newLine indent ++ s) = skip s := by
  have hblank : ∀ c ∈ newLine indent, isBlank c = true := by
    intro c hc
    rcases List.mem_cons.1 hc with rfl | hc
    · rfl
    · rw [List.eq_of_mem_replicate hc]
      rfl
  exact List.dropWhile_append_of_pos hblank

theorem closes_newLine (indent : Nat) (s : List Rune) : Closes (newLine indent ++ s) := by
  intro c hc
  exact .inr (Option.some.inj hc).symm

theorem closes_comma (s : List Rune) : Closes (',' :: s) := by
  intro c hc
  exact .inl (Option.some.inj hc).symm

theorem value_plain (h : ∀ d ∈ s.head?, d ≠ '"' ∧ d ≠ '[' ∧ d ≠ '{') :
    value (fuel + 1) depth s = plainValue s := by
  unfold value
  split
  · next heq => cases heq
  · exact absurd rfl (h ('"') rfl).1
  · exact absurd rfl (h ('[') rfl).2.1
  · exact absurd rfl (h ('{') rfl).2.2
  · next heq => exact absurd rfl (h ('[') rfl).2.1
  · next heq => exact absurd rfl (h ('{') rfl).2.2
  · rfl

theorem written_head (h : Exact v) (indent : Nat) :
    ∃ c s, written indent v = c :: s ∧ isBlank c = false ∧ c ≠ ']' ∧ c ≠ '\ufeff' := by
  cases h with
  | null => exact ⟨_, _, rfl, rfl, by decide⟩
  | bool b => cases b <;> exact ⟨_, _, rfl, rfl, by decide⟩
  | int n =>
    obtain ⟨c, s, hs, hc⟩ := toString_head n
    have hne {d : Rune} (hminus : d ≠ '-') (hdigit : d.isDigit = false) : c ≠ d := by
      rintro rfl
      rcases hc with hc | hc
      · exact hminus hc
      · rw [hdigit] at hc
        cases hc
    refine ⟨c, s, hs, ?_, hne (by decide) rfl, hne (by decide) rfl⟩
    simp only [isBlank, Bool.or_eq_false_iff, beq_eq_false_iff_ne]
    exact ⟨⟨⟨hne (by decide) rfl, hne (by decide) rfl⟩, hne (by decide) rfl⟩, hne (by decide) rfl⟩
  | text s => exact ⟨_, _, rfl, rfl, by decide⟩
  | @list values _ => cases values <;> exact ⟨_, _, rfl, rfl, by decide⟩
  | @map fields _ _ => cases fields <;> exact ⟨_, _, rfl, rfl, by decide⟩

/-- A value is read as it was written, whatever follows it. -/
def ReadsBack (depth : Nat) (v : Value) : Prop :=
  ∀ indent fuel rest, 2 * (written indent v).length ≤ fuel → Closes rest →
    value fuel depth (written indent v ++ rest) = .ok (v, rest)

theorem skip_written (h : Exact v) (indent : Nat) (rest : List Rune) :
    skip (written indent v ++ rest) = written indent v ++ rest := by
  obtain ⟨c, s, hs, hc, -, -⟩ := written_head h indent
  rw [hs, List.cons_append, skip_of_not_blank hc]

theorem length_written_pos (h : Exact v) (indent : Nat) : 0 < (written indent v).length := by
  obtain ⟨c, s, hs, -⟩ := written_head h indent
  rw [hs]
  exact Nat.succ_pos _

theorem items_written {item : Value} {others : List Value} {outer : Nat}
    (hexact : ∀ v ∈ item :: others, Exact v) (hback : ∀ v ∈ item :: others, ReadsBack depth v)
    (hfuel : 2 * (written indent item ++ writtenItems indent others).length < fuel) :
    items fuel depth (written indent item ++
      (writtenItems indent others ++ (newLine outer ++ .char ']' :: rest))) =
        .ok (item :: others, rest) := by
  induction others generalizing item fuel with
  | nil =>
    obtain ⟨fuel, rfl⟩ := Nat.exists_eq_add_of_le' (Nat.one_le_of_lt hfuel)
    rw [writtenItems, List.append_nil] at hfuel
    have hitem := hback item List.mem_cons_self indent fuel (newLine outer ++ .char ']' :: rest)
      (Nat.le_of_lt_succ hfuel) (closes_newLine outer _)
    rw [writtenItems, List.nil_append, items, hitem, Outcome.ok_bind]
    simp only [skip_newLine, skip_of_not_blank (c := .char ']') rfl]
    rfl
  | cons second others ih =>
    obtain ⟨fuel, rfl⟩ := Nat.exists_eq_add_of_le' (Nat.one_le_of_lt hfuel)
    rw [writtenItems] at hfuel ⊢
    simp only [List.length_append, List.length_cons] at hfuel
    have hpos := length_written_pos (hexact item List.mem_cons_self) indent
    have hitem := hback item List.mem_cons_self indent fuel
      ((.char ',' :: (newLine indent ++ written indent second ++ writtenItems indent others)) ++
        (newLine outer ++ .char ']' :: rest)) (by omega) (closes_comma _)
    have hothers : items fuel depth (written indent second ++
        (writtenItems indent others ++ (newLine outer ++ .char ']' :: rest))) =
          .ok (second :: others, rest) := by
      apply ih
      · intro v hv
        exact hexact v (List.mem_cons_of_mem _ hv)
      · intro v hv
        exact hback v (List.mem_cons_of_mem _ hv)
      · rw [List.length_append]
        omega
    rw [items, hitem, Outcome.ok_bind]
    simp only [List.cons_append, skip_of_not_blank (c := ',') rfl, List.append_assoc, skip_newLine,
      skip_written (hexact second (List.mem_cons_of_mem _ List.mem_cons_self)), hothers,
      Outcome.ok_bind]
    rfl

theorem writtenText_append (k : Text) (s : List Rune) :
    writtenText k ++ s = .char '"' :: (k.toList.flatMap writtenChar ++ .char '"' :: s) := by
  rw [writtenText, List.cons_append, List.append_assoc]
  rfl

theorem writtenMembers_append (indent : Nat) (field : Text × Value)
    (others : List (Text × Value)) (s : List Rune) :
    writtenMembers indent (textEntries (field :: others)) ++ s =
      .char ',' :: (newLine indent ++ (writtenText field.1 ++ (.char ':' :: .char ' ' ::
        (written indent field.2 ++ (writtenMembers indent (textEntries others) ++ s))))) := by
  change writtenMembers indent ((.text field.1, field.2) :: textEntries others) ++ s = _
  simp only [writtenMembers, writtenKey, List.cons_append, List.append_assoc, List.nil_append]

theorem members_written {field : Text × Value} {others : List (Text × Value)} {outer : Nat}
    (hexact : ∀ f ∈ field :: others, Exact f.2) (hback : ∀ f ∈ field :: others, ReadsBack depth f.2)
    (hfuel : 2 * (written indent field.2 ++ writtenMembers indent (textEntries others)).length <
      fuel) :
    members fuel depth (writtenText field.1 ++ (.char ':' :: .char ' ' :: (written indent field.2 ++
      (writtenMembers indent (textEntries others) ++ (newLine outer ++ .char '}' :: rest))))) =
        .ok (textEntries (field :: others), rest) := by
  have hspace (s : List Rune) : skip (' ' :: (written indent field.2 ++ s)) =
      written indent field.2 ++ s := skip_written (hexact field List.mem_cons_self) indent s
  induction others generalizing field fuel with
  | nil =>
    obtain ⟨fuel, rfl⟩ := Nat.exists_eq_add_of_le' (Nat.one_le_of_lt hfuel)
    have hnone : writtenMembers indent (textEntries []) = [] := rfl
    rw [hnone, List.append_nil] at hfuel
    have hheld := hback field List.mem_cons_self indent fuel (newLine outer ++ .char '}' :: rest)
      (Nat.le_of_lt_succ hfuel) (closes_newLine outer _)
    rw [hnone, List.nil_append, writtenText_append, members, quotedText_written, Outcome.ok_bind]
    simp only [skip_of_not_blank (c := ':') rfl, hspace, hheld, Outcome.ok_bind, skip_newLine,
      skip_of_not_blank (c := '}') rfl]
    rfl
  | cons second others ih =>
    obtain ⟨fuel, rfl⟩ := Nat.exists_eq_add_of_le' (Nat.one_le_of_lt hfuel)
    have hlength := congrArg List.length (writtenMembers_append indent second others [])
    have hpos := length_written_pos (hexact field List.mem_cons_self) indent
    simp only [List.length_append, List.length_cons, List.append_nil] at hfuel hlength
    have hheld := hback field List.mem_cons_self indent fuel _ (by omega)
      (closes_comma (newLine indent ++ (writtenText second.1 ++ (.char ':' :: .char ' ' ::
        (written indent second.2 ++ (writtenMembers indent (textEntries others) ++
          (newLine outer ++ .char '}' :: rest)))))))
    have hothers : members fuel depth (writtenText second.1 ++ (.char ':' :: .char ' ' ::
        (written indent second.2 ++ (writtenMembers indent (textEntries others) ++
          (newLine outer ++ .char '}' :: rest))))) =
            .ok (textEntries (second :: others), rest) := by
      apply ih
      · intro f hf
        exact hexact f (List.mem_cons_of_mem _ hf)
      · intro f hf
        exact hback f (List.mem_cons_of_mem _ hf)
      · rw [List.length_append]
        omega
      · intro s
        exact skip_written (hexact second (List.mem_cons_of_mem _ List.mem_cons_self)) indent s
    have hquote (s : List Rune) : skip (writtenText second.1 ++ s) = writtenText second.1 ++ s :=
      skip_of_not_blank (c := '"') rfl
    rw [writtenMembers_append, writtenText_append, members, quotedText_written, Outcome.ok_bind]
    simp only [skip_of_not_blank (c := ':') rfl, hspace, hheld, Outcome.ok_bind,
      skip_of_not_blank (c := .char ',') rfl, skip_newLine, hquote, hothers]
    rfl

theorem readsBack_plain (h : Exact v)
    (hhead : ∀ indent, ∀ d ∈ (written indent v).head?, d ≠ '"' ∧ d ≠ '[' ∧ d ≠ '{')
    (hplain : ∀ indent rest, Closes rest → plainValue (written indent v ++ rest) = .ok (v, rest)) :
    ReadsBack depth v := by
  intro indent fuel rest hfuel hrest
  have hpos := length_written_pos h indent
  obtain ⟨fuel, rfl⟩ := Nat.exists_eq_add_of_le' (n := fuel) (m := 1) (by omega)
  rw [value_plain, hplain indent rest hrest]
  intro d hd
  rw [List.head?_append_of_ne_nil _ (List.length_pos_iff.1 hpos)] at hd
  exact hhead indent d hd

theorem value_list (hs : skip s = c :: rest) (hc : c ≠ ']') :
    value (fuel + 1) (depth + 1) ('[' :: s) =
      (items fuel depth (c :: rest)).map fun r => (.list r.1, r.2) := by
  rw [value, hs]
  split
  · next heq => exact absurd (List.cons.inj heq).1 hc
  · cases items fuel depth (c :: rest) <;> rfl

theorem value_map (hs : skip s = c :: rest) (hc : c ≠ '}') :
    value (fuel + 1) (depth + 1) ('{' :: s) =
      (members fuel depth (c :: rest)).map fun r => (.map (Entries.ofList r.1), r.2) := by
  rw [value, hs]
  split
  · next heq => exact absurd (List.cons.inj heq).1 hc
  · cases members fuel depth (c :: rest) <;> rfl

theorem readsBack_list {values : List Value} (each : ∀ v ∈ values, Exact v)
    (ih : ∀ v ∈ values, ReadsBack depth v) : ReadsBack (depth + 1) (.list values) := by
  intro indent fuel rest hfuel hrest
  have hpos := length_written_pos (Exact.list each) indent
  obtain ⟨fuel, rfl⟩ := Nat.exists_eq_add_of_le' (n := fuel) (m := 1) (by omega)
  cases values with
  | nil => rfl
  | cons item others =>
    have hitem := each item List.mem_cons_self
    obtain ⟨c, s, hs, -, hc, -⟩ := written_head hitem (indent + 1)
    have hskip := skip_written hitem (indent + 1)
      (writtenItems (indent + 1) others ++ (newLine indent ++ .char ']' :: rest))
    simp only [written, List.length_append, List.length_cons, List.cons_append, List.append_assoc,
      List.nil_append] at hfuel ⊢
    have hitems : items fuel depth (written (indent + 1) item ++
        (writtenItems (indent + 1) others ++ (newLine indent ++ .char ']' :: rest))) =
          .ok (item :: others, rest) := by
      apply items_written
      · exact each
      · exact ih
      · rw [List.length_append]
        omega
    rw [hs, List.cons_append] at hskip hitems ⊢
    rw [value_list ((skip_newLine _ _).trans hskip) hc, hitems]
    rfl

theorem readsBack_map {fields : List (Text × Value)} (distinct : (fields.map Prod.fst).Nodup)
    (each : ∀ field ∈ fields, Exact field.2) (ih : ∀ field ∈ fields, ReadsBack depth field.2) :
    ReadsBack (depth + 1) (.map (textEntries fields)) := by
  intro indent fuel rest hfuel hrest
  have hpos := length_written_pos (Exact.map distinct each) indent
  obtain ⟨fuel, rfl⟩ := Nat.exists_eq_add_of_le' (n := fuel) (m := 1) (by omega)
  cases fields with
  | nil => rfl
  | cons field others =>
    change 2 * (written indent (.map ((.text field.1, field.2) :: textEntries others))).length ≤ _
      at hfuel
    change value _ _ (written indent (.map ((.text field.1, field.2) :: textEntries others)) ++ _)
      = _
    simp only [written, writtenKey, List.length_append, List.length_cons, List.cons_append,
      List.append_assoc, List.nil_append] at hfuel ⊢
    have hmembers : members fuel depth (writtenText field.1 ++ (.char ':' :: .char ' ' ::
        (written (indent + 1) field.2 ++ (writtenMembers (indent + 1) (textEntries others) ++
          (newLine indent ++ .char '}' :: rest))))) =
            .ok (textEntries (field :: others), rest) := by
      apply members_written
      · exact each
      · exact ih
      · rw [List.length_append]
        omega
    rw [writtenText_append] at hmembers ⊢
    have hskip := skip_of_not_blank (c := .char '"')
      (s := field.1.toList.flatMap writtenChar ++ .char '"' ::
      .char ':' :: .char ' ' :: (written (indent + 1) field.2 ++ (writtenMembers (indent + 1)
        (textEntries others) ++ (newLine indent ++ .char '}' :: rest)))) rfl
    rw [value_map ((skip_newLine _ _).trans hskip) (by decide), hmembers]
    change Except.ok (Value.map (Entries.ofList _), rest) = _
    rw [ofList_textEntries distinct]

/-- What fits is read as it was written. -/
theorem Fits.readsBack (h : Fits depth v) : ReadsBack depth v := by
  induction h with
  | null =>
    apply readsBack_plain .null
    · intro indent d hd
      cases hd
      decide
    · intro indent rest _
      rfl
  | bool b =>
    apply readsBack_plain (.bool b)
    · intro indent d hd
      cases b <;> (cases hd; decide)
    · intro indent rest _
      cases b <;> rfl
  | @int _ n short =>
    apply readsBack_plain (.int n)
    · intro indent d hd
      obtain ⟨c, s, hs, hc⟩ := toString_head n
      change d ∈ (toString n).runes.head? at hd
      rw [hs] at hd
      cases hd
      refine ⟨?_, ?_, ?_⟩ <;> (rintro rfl; rcases hc with hc | hc <;> cases hc)
    · intro indent rest hrest
      exact plainValue_int n short hrest
  | text s =>
    intro indent fuel rest hfuel hrest
    have hpos := length_written_pos (.text s) indent
    obtain ⟨fuel, rfl⟩ := Nat.exists_eq_add_of_le' (n := fuel) (m := 1) (by omega)
    change value (fuel + 1) _ (writtenText s ++ rest) = _
    rw [writtenText_append, value, quotedText_written]
    rfl
  | list each ih => exact readsBack_list (fun v hv => (each v hv).exact) ih
  | map distinct each ih => exact readsBack_map distinct (fun f hf => (each f hf).exact) ih

/-- A written value with the line end after it is read as this value. -/
theorem read_write (h : Fits mostOpen v) : read (write v ++ "\n") = .ok v := by
  have hlist : (write v ++ "\n").toList = written 0 v ++ [Rune.char '\n'] := by
    rw [Text.toList_append, write, Text.toList_ofList]
    rfl
  have hmark : (written 0 v ++ [Rune.char '\n']).head? ≠ some (Rune.char '\ufeff') := by
    obtain ⟨c, s, hs, -, -, hc⟩ := written_head h.exact 0
    rw [hs]
    exact fun hhead => hc (Option.some.inj hhead)
  have hvalue : value (2 * (written 0 v ++ [Rune.char '\n']).length + 2) mostOpen
      (written 0 v ++ [Rune.char '\n']) =
      .ok (v, ['\n']) := by
    apply h.readsBack
    · rw [List.length_append]
      omega
    · exact closes_newLine 0 []
  have hwhole : whole? (written 0 v ++ [Rune.char '\n']) = .ok v := by
    rw [whole?, if_neg hmark, skip_written h.exact, hvalue]
    rfl
  rw [read, hlist, hwhole]

end ApiPrep.Json
