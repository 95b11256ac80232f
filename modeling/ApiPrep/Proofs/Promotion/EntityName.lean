import ApiPrep.Normalized
import ApiPrep.Promotion.Detect
import ApiPrep.Proofs.Path.Segments

namespace ApiPrep.Promotion

open ApiPrep.Path ApiPrep.Text

variable {lead more path : List Rune} {segments : List (List Rune)}

/-- The segments that name an entity: those of the path but `Api` in front and then `Add` at the
end. -/
def entitySegments (segments : List (List Rune)) : List (List Rune) :=
  withoutLast "Add".runes
    (if segments.head? = some "Api".runes then segments.tail else segments)

theorem toList_affixes : ({} : Affixes).lead.toList = .char '/' :: "Api".runes ∧
    ({} : Affixes).ending.toList = .char '/' :: "Add".runes := by decide

theorem entityNameOf_of_dropLead (hlead : .char '/' ∉ lead)
    (h : ∀ s ∈ segments, s ≠ [] ∧ .char '/' ∉ s)
    (hpath : dropLead (.char '/' :: "Api".runes) path = lead ++ slashed segments) :
    entityNameOf {} (Text.ofList path) = Text.ofList ([Rune.char '/'].intercalate
      (if lead = [] then withoutLast "Add".runes segments
        else lead :: withoutLast "Add".runes segments)) := by
  have hkept : ∀ s ∈ withoutLast "Add".runes segments, s ≠ [] ∧ .char '/' ∉ s := by
    intro s hs
    exact h s (withoutLast_subset _ _ hs)
  rw [entityNameOf, Naming.respell, toList_affixes.1, toList_affixes.2,
    Text.toList_ofList (l := path), hpath,
    dropEnding_slashed (by decide) hlead fun s hs => (h s hs).2]
  generalize withoutLast "Add".runes segments = kept at hkept
  by_cases hnil : lead = []
  · rw [if_pos hnil, hnil, List.nil_append, trimBy_slashed hkept]
  · rw [if_neg hnil, ← intercalate_slashed,
      trimBy_intercalate (List.forall_mem_cons.2 ⟨⟨hnil, hlead⟩, hkept⟩)]

theorem entityNameOf_api (h : ∀ s ∈ ("Api".runes ++ more) :: segments, s ≠ [] ∧ .char '/' ∉ s) :
    entityNameOf {} (Text.ofList (slashed (("Api".runes ++ more) :: segments))) =
      Text.ofList ([Rune.char '/'].intercalate
        (if more = [] then withoutLast "Add".runes segments
          else more :: withoutLast "Add".runes segments)) := by
  obtain ⟨⟨-, hfirst⟩, hrest⟩ := List.forall_mem_cons.1 h
  refine entityNameOf_of_dropLead (fun hm => hfirst (List.mem_append_right _ hm)) hrest ?_
  rw [slashed_cons, ← List.cons_append, List.append_assoc, dropLead_append]

theorem entityNameOf_of_not_api (h : ∀ s ∈ segments, s ≠ [] ∧ .char '/' ∉ s)
    (hapi : ∀ more, firstSegment? (slashed segments) ≠ some ("Api".runes ++ more)) :
    entityNameOf {} (Text.ofList (slashed segments)) =
      Text.ofList ([Rune.char '/'].intercalate (withoutLast "Add".runes segments)) := by
  have hlead : ¬ .char '/' :: "Api".runes <+: slashed segments := by
    rintro ⟨rest, hrest⟩
    rw [← hrest, firstSegment?_append (by decide)] at hapi
    exact hapi _ rfl
  exact entityNameOf_of_dropLead List.not_mem_nil h (dropLead_eq_self hlead)

theorem entityNameOf_ne_of_outgrown
    (h : ∀ s ∈ ("Api".runes ++ more) :: segments, s ≠ [] ∧ .char '/' ∉ s) (hmore : more ≠ []) :
    entityNameOf {} (Text.ofList (slashed (("Api".runes ++ more) :: segments))) ≠
      Text.ofList
        ([Rune.char '/'].intercalate (entitySegments (("Api".runes ++ more) :: segments))) := by
  have hadd : "Api".runes ++ more ≠ "Add".runes := by
    intro he
    have hsecond : some (Rune.char 'p') = some ('d') := congrArg (·[1]?) he
    exact absurd hsecond (by decide)
  have hentity : entitySegments (("Api".runes ++ more) :: segments) =
      ("Api".runes ++ more) :: withoutLast "Add".runes segments := by
    rw [entitySegments, List.head?_cons, if_neg (mt append_eq_self_iff.1 hmore),
      withoutLast_cons hadd]
  rw [entityNameOf_api h, if_neg hmore, hentity]
  intro he
  have hlist := Text.ofList_inj.1 he
  rw [intercalate_slashed, intercalate_slashed, List.append_assoc, List.self_eq_append_left]
    at hlist
  exact absurd hlist (by decide)

theorem entityNameOf_eq_segments_iff (h : ∀ s ∈ segments, s ≠ [] ∧ .char '/' ∉ s) :
    entityNameOf {} (Text.ofList ('/' :: [Rune.char '/'].intercalate segments)) =
        Text.ofList ([Rune.char '/'].intercalate (entitySegments segments)) ↔
      ¬Outgrows "Api".runes segments.head? := by
  cases segments with
  | nil =>
    refine iff_of_true (by decide +kernel) (not_outgrows fun more => ?_)
    exact (Option.some_ne_none _).symm
  | cons first rest =>
    rw [← slashed_eq_intercalate (List.cons_ne_nil first rest), List.head?_cons]
    by_cases hapi : ∃ more, first = "Api".runes ++ more
    · obtain ⟨more, rfl⟩ := hapi
      rw [outgrows_append_iff, not_not]
      by_cases hmore : more = []
      · refine iff_of_true ?_ hmore
        rw [entityNameOf_api h, if_pos hmore, entitySegments, List.head?_cons,
          if_pos (append_eq_self_iff.2 hmore), List.tail_cons]
      · exact iff_of_false (entityNameOf_ne_of_outgrown h hmore) hmore
    · have hnone (more : List Rune) : some first ≠ some ("Api".runes ++ more) := by
        intro he
        exact hapi ⟨more, Option.some.inj he⟩
      have hself : some first ≠ some "Api".runes := hnone []
      have hslash : .char '/' ∉ first := (h first List.mem_cons_self).2
      refine iff_of_true ?_ (not_outgrows hnone)
      rw [entityNameOf_of_not_api h, entitySegments, List.head?_cons, if_neg hself]
      intro more
      rw [firstSegment?_slashed hslash]
      exact hnone more

theorem pathNoApi_eq_withoutFirst_iff (op : ClientOperation) :
    op.pathNoApi = Text.ofList (withoutFirst "Api".runes op.path.toList) ↔
      ¬Outgrows "Api".runes (firstSegment? op.path.toList) := by
  have hlead : "/Api".runes = .char '/' :: "Api".runes := by decide
  rw [ClientOperation.pathNoApi, hlead, Text.ofList_inj]
  exact dropLead_eq_withoutFirst_iff (by decide) _

/-- Both the name of an entity and the path of a rendered operation without `/Api` leave out whole
segments, unless the first segment begins with `Api` and goes on: then it is cut in two. -/
theorem segments_left_whole_iff (h : ∀ s ∈ segments, s ≠ [] ∧ .char '/' ∉ s)
    (op : ClientOperation) :
    (entityNameOf {} (Text.ofList ('/' :: [Rune.char '/'].intercalate segments)) =
        Text.ofList ([Rune.char '/'].intercalate (entitySegments segments)) ↔
      ¬Outgrows "Api".runes segments.head?) ∧
    (op.pathNoApi = Text.ofList (withoutFirst "Api".runes op.path.toList) ↔
      ¬Outgrows "Api".runes (firstSegment? op.path.toList)) :=
  ⟨entityNameOf_eq_segments_iff h, pathNoApi_eq_withoutFirst_iff op⟩

theorem segments_left_whole_stock :
    (∀ s ∈ ["Api".runes, "stock".runes, "items".runes, "Add".runes], s ≠ [] ∧ .char '/' ∉ s) ∧
    entityNameOf {} (Text.ofList ('/' :: [Rune.char '/'].intercalate
      ["Api".runes, "stock".runes, "items".runes, "Add".runes])) = "stock/items" ∧
    ({ httpMethod := "get", path := "/Api/stock" } : ClientOperation).pathNoApi = "/stock" := by
  have h : ∀ s ∈ ["Api".runes, "stock".runes, "items".runes, "Add".runes],
      s ≠ [] ∧ .char '/' ∉ s := by decide
  have hwhole := not_outgrows_self "Api".runes
  obtain ⟨hname, hpath⟩ :=
    segments_left_whole_iff h { httpMethod := "get", path := "/Api/stock" }
  exact ⟨h, (hname.2 hwhole).trans (by decide +kernel), (hpath.2 hwhole).trans (by decide +kernel)⟩

/-- A first segment that only begins with `Api` loses its beginning. -/
theorem segments_cut_in_apiary :
    (∀ s ∈ ["Apiary".runes, "Add".runes], s ≠ [] ∧ .char '/' ∉ s) ∧
    .char '/' :: [Rune.char '/'].intercalate ["Apiary".runes, "Add".runes] = "/Apiary/Add".runes ∧
    entityNameOf {} "/Apiary/Add" = "ary" ∧
    Text.ofList ([Rune.char '/'].intercalate (entitySegments ["Apiary".runes, "Add".runes])) =
      "Apiary" ∧
    ({ httpMethod := "get", path := "/Apiary/list" } : ClientOperation).pathNoApi = "ary/list" ∧
    withoutFirst "Api".runes "/Apiary/list".runes = "/Apiary/list".runes := by
  decide +kernel

end ApiPrep.Promotion
