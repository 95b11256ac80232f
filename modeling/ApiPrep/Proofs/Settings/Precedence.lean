import ApiPrep.Proofs.Json.RoundTrip
import ApiPrep.Proofs.Record.Reading
import ApiPrep.Proofs.Settings.Layers
import ApiPrep.Proofs.Store.Files

namespace ApiPrep.Settings

open Record Outcome

/-- A setting: how it stands in a layer, and where it stands in the settings. -/
structure Field where
  {α : Type}
  member : Member α
  get : Settings → α

def fields : List Field :=
  [⟨kebabFileNamingMember, (·.kebabFileNaming)⟩, ⟨modelPackageMember, (·.modelPackage)⟩,
    ⟨apiPackageMember, (·.apiPackage)⟩, ⟨apiPathLeadMember, (·.apiPathLead)⟩,
    ⟨creationPathEndingMember, (·.creationPathEnding)⟩, ⟨envelopeTypesMember, (·.envelopeTypes)⟩,
    ⟨catalogFileMember, (·.catalogFile)⟩, ⟨outputFormatMember, (·.outputFormat)⟩]

/-- The layers that settings are made from: the command line, the environment, and what the files
of the project and of the user hold, where they are there. -/
structure Layers where
  command : Overrides
  host : Host
  store : Store
  project : Option Entries
  user : Option Entries
  project_eq : ofProject host store = .ok project
  user_eq : ofUser host store = .ok user

variable {f : Field} {entries : Entries} {s : Settings} {l : Layers}

/-! ### Settings read from one layer -/

namespace Field

def name (f : Field) : Text := f.member.label.wire

def Single (f : Field) : Prop :=
  f.member.label.plain = f.name ∧ f.member.absent = some (f.get {})

theorem single_of_mem (hf : f ∈ fields) : f.Single := by
  have hall : fields.Forall Single :=
    ⟨⟨rfl, rfl⟩, ⟨rfl, rfl⟩, ⟨rfl, rfl⟩, ⟨rfl, rfl⟩, ⟨rfl, rfl⟩, ⟨rfl, rfl⟩, ⟨rfl, rfl⟩, rfl, rfl⟩
  exact List.forall_iff_forall_mem.1 hall f hf

def Takes (f : Field) (given? : Text → Option Value) (s : Settings) : Prop :=
  match given? f.name with
  | some v => f.member.form.read v = .ok (f.get s)
  | none => f.get s = f.get {}

def Refuses (f : Field) (given? : Text → Option Value) : Prop :=
  ∃ v issues, given? f.name = some v ∧ f.member.form.read v = .faulty issues

theorem Takes.not_refuses {given? : Text → Option Value} (h : f.Takes given? s) :
    ¬f.Refuses given? := by
  rintro ⟨v, issues, hv, hfaulty⟩
  rw [Takes, hv] at h
  cases h.symm.trans hfaulty

theorem read_eq (hf : f.Single) (entries : Entries) :
    f.member.read entries = match entries.get? f.name with
      | some v => (f.member.form.read v).within (.key f.name)
      | none => .ok (f.get {}) := by
  rw [Member.read, Label.find?, hf.1, hf.2, name]
  cases entries.get? f.member.label.wire <;> rfl

theorem read_eq_ok_iff (hf : f.Single) :
    f.member.read entries = .ok (f.get s) ↔ f.Takes entries.get? s := by
  rw [read_eq hf, Takes]
  cases entries.get? f.name with
  | none => exact ⟨fun h => (Checked.ok.inj h).symm, fun h => congrArg Checked.ok h.symm⟩
  | some v => exact Checked.within_eq_ok_iff

theorem read_faulty_iff (hf : f.Single) :
    (∃ issues, f.member.read entries = .faulty issues) ↔ f.Refuses entries.get? := by
  rw [read_eq hf, Refuses]
  cases entries.get? f.name with
  | none =>
    refine iff_of_false ?_ ?_
    · rintro ⟨issues, hfaulty⟩
      cases hfaulty
    · rintro ⟨v, issues, hv, -⟩
      cases hv
  | some v =>
    dsimp only
    cases hv : f.member.form.read v with
    | ok a =>
      refine iff_of_false nofun ?_
      rintro ⟨w, issues, hw, hfaulty⟩
      rw [← Option.some.inj hw, hv] at hfaulty
      cases hfaulty
    | faulty issues => exact iff_of_true ⟨_, rfl⟩ ⟨v, issues, rfl, hv⟩

end Field

theorem read_eq_ok_iff :
    form.read (.map entries) = .ok s ↔ ∀ f ∈ fields, f.Takes entries.get? s := by
  have hmembers : form.read (.map entries) = .ok s ↔
      ∀ f ∈ fields, f.member.read entries = .ok (f.get s) := by
    rw [← List.forall_iff_forall_mem]
    change _ <*> _ = Checked.ok s ↔ _
    simp only [Checked.ap_eq_ok_iff, Checked.fmap_eq_ok_iff]
    constructor
    · rintro ⟨_, _, ⟨_, _, ⟨_, _, ⟨_, _, ⟨_, _, ⟨_, _, ⟨_, _, ⟨_, h₁, rfl⟩, h₂, rfl⟩, h₃, rfl⟩,
        h₄, rfl⟩, h₅, rfl⟩, h₆, rfl⟩, h₇, rfl⟩, h₈, rfl⟩
      exact ⟨h₁, h₂, h₃, h₄, h₅, h₆, h₇, h₈⟩
    · rintro ⟨h₁, h₂, h₃, h₄, h₅, h₆, h₇, h₈⟩
      exact ⟨_, _, ⟨_, _, ⟨_, _, ⟨_, _, ⟨_, _, ⟨_, _, ⟨_, _, ⟨_, h₁, rfl⟩, h₂, rfl⟩, h₃, rfl⟩,
        h₄, rfl⟩, h₅, rfl⟩, h₆, rfl⟩, h₇, rfl⟩, h₈, rfl⟩
  rw [hmembers]
  exact forall₂_congr fun f hf => Field.read_eq_ok_iff (Field.single_of_mem hf)

theorem read_faulty_iff :
    (∃ issues, form.read (.map entries) = .faulty issues) ↔
      ∃ f ∈ fields, f.Refuses entries.get? := by
  have hmembers : (∃ issues, form.read (.map entries) = .faulty issues) ↔
      ∃ f ∈ fields, ∃ issues, f.member.read entries = .faulty issues := by
    change (∃ issues, _ <*> _ = Checked.faulty issues) ↔ _
    simp only [Checked.ap_faulty_iff, Checked.fmap_faulty_iff, fields, List.mem_cons,
      List.not_mem_nil, or_false, exists_eq_or_imp, exists_eq_left, or_assoc]
  rw [hmembers]
  refine exists_congr fun f => and_congr_right fun hf => ?_
  exact Field.read_faulty_iff (Field.single_of_mem hf)

theorem read_congr {others : Entries}
    (h : ∀ f ∈ fields, others.get? f.name = entries.get? f.name) :
    form.read (.map others) = form.read (.map entries) := by
  have hread : ∀ f ∈ fields, f.member.read others = f.member.read entries := fun f hf => by
    rw [Field.read_eq (Field.single_of_mem hf), Field.read_eq (Field.single_of_mem hf), h f hf]
  simp only [fields, List.forall_mem_cons] at hread
  simp only [form, Form.record, Value.opened, hread]

/-! ### Settings made from layers -/

namespace Layers

/-- The value that the first of the layers gives a setting that gives it one. -/
def winner? (l : Layers) (name : Text) : Option Value :=
  (l.command.value? name).or <| (environmentValue? l.host name).or <|
    (l.project.bind (·.get? name)).or (l.user.bind (·.get? name))

def resolved (l : Layers) : Except Failure Settings :=
  (resolve l.host l.store l.command.entries).run.value

def merged (l : Layers) : Entries :=
  [l.user.getD [], l.project.getD [], environmentLayer l.host, l.command.entries].foldl
    Entries.merge []

theorem get?_merged (l : Layers) (name : Text) : l.merged.get? name = l.winner? name := by
  have hget (layer : Option Entries) :
      (layer.getD []).get? name = layer.bind (·.get? name) := by
    cases layer <;> rfl
  have hkeyed {h : Host} {store : Store} {label : Text} {p : Place} {layer : Option Entries}
      (hl : ofFile h store label p = .ok layer) : (layer.getD []).Keyed := by
    cases layer with
    | none => exact .nil
    | some found => exact keyed_of_file hl
  simp only [merged, List.foldl_cons, List.foldl_nil]
  rw [Entries.get?_merge _ l.command.keyed_entries,
    Entries.get?_merge _ (keyed_environmentLayer l.host),
    Entries.get?_merge _ (hkeyed l.project_eq), Entries.get?_merge _ (hkeyed l.user_eq),
    Overrides.get?_entries, get?_environmentLayer, hget, hget]
  exact congrArg _ (congrArg _ (congrArg _ Option.or_none))

theorem resolved_of_badFlag (hb : BadFlag l.host) : ∃ value,
    l.host.given? kebabVariable = some value ∧
      l.resolved = .error (.refused (.settings (.badFlag kebabVariable value))) := by
  obtain ⟨value, hgiven, he⟩ := ofEnvironment_of_badFlag hb
  refine ⟨value, hgiven, ?_⟩
  simp only [resolved, resolve, Traced.value_run_bind, Attempt.ofExcept, Traced.value_run_mk,
    l.user_eq, l.project_eq, Outcome.ok_bind, he]
  rfl

theorem resolved_of_not_badFlag (hb : ¬BadFlag l.host) :
    l.resolved = match form.read (.map l.merged) with
      | .ok s => .ok s
      | .faulty issues => .error (.refused (.settings (.invalid ⟨title, issues⟩))) := by
  cases hread : form.read (.map l.merged) with
  | _ =>
    rw [merged] at hread
    simp only [resolved, resolve, Traced.value_run_bind, Attempt.ofExcept, Traced.value_run_mk,
      l.user_eq, l.project_eq, Outcome.ok_bind, ofEnvironment_of_not_badFlag hb, ofLayers,
      Form.validate, hread]
    rfl

theorem resolved_eq_ok_iff :
    l.resolved = .ok s ↔ ¬BadFlag l.host ∧ ∀ f ∈ fields, f.Takes l.winner? s := by
  have hwinner : (fun name => l.merged.get? name) = l.winner? := funext l.get?_merged
  by_cases hb : BadFlag l.host
  · obtain ⟨value, -, he⟩ := resolved_of_badFlag hb
    rw [he]
    exact iff_of_false nofun fun h => h.1 hb
  · rw [and_iff_right hb, ← hwinner, ← read_eq_ok_iff, resolved_of_not_badFlag hb]
    cases form.read (.map l.merged) with
    | ok s' => exact ⟨fun h => congrArg _ (Except.ok.inj h), fun h => congrArg _ (Checked.ok.inj h)⟩
    | faulty issues => exact iff_of_false nofun nofun

theorem resolved_refused_iff :
    (∃ fault, l.resolved = .error (.refused (.settings fault))) ↔
      BadFlag l.host ∨ ∃ f ∈ fields, f.Refuses l.winner? := by
  have hwinner : (fun name => l.merged.get? name) = l.winner? := funext l.get?_merged
  by_cases hb : BadFlag l.host
  · obtain ⟨value, -, he⟩ := resolved_of_badFlag hb
    exact iff_of_true ⟨_, he⟩ (.inl hb)
  · rw [or_iff_right hb, ← hwinner, ← read_faulty_iff, resolved_of_not_badFlag hb]
    cases form.read (.map l.merged) with
    | ok s' => exact iff_of_false nofun nofun
    | faulty issues => exact iff_of_true ⟨_, rfl⟩ ⟨issues, rfl⟩

/-- Settings are resolved one by one, from the first layer that gives them. Besides a bad truth
value in the environment only a value that wins can be refused; what no setting is called, and
what is given below another layer, changes nothing. -/
theorem resolve_precedence (l : Layers) :
    ((∃ fault, l.resolved = .error (.refused (.settings fault))) ↔
      BadFlag l.host ∨ ∃ f ∈ fields, f.Refuses l.winner?) ∧
    (¬BadFlag l.host → (∀ f ∈ fields, ¬f.Refuses l.winner?) →
      ∃ s, l.resolved = .ok s ∧ ∀ f ∈ fields, f.Takes l.winner? s) ∧
    ∀ other : Layers, other.host.given? kebabVariable = l.host.given? kebabVariable →
      (∀ f ∈ fields, other.winner? f.name = l.winner? f.name) → other.resolved = l.resolved := by
  refine ⟨resolved_refused_iff, fun hb hf => ?_, fun other hflag hsame => ?_⟩
  · have hnone : ¬∃ issues, form.read (.map l.merged) = .faulty issues := by
      rw [read_faulty_iff]
      rintro ⟨f, hmem, v, issues, hv, hfaulty⟩
      exact hf f hmem ⟨v, issues, (l.get?_merged f.name).symm.trans hv, hfaulty⟩
    cases hread : form.read (.map l.merged) with
    | ok s =>
      have hs : l.resolved = .ok s := by rw [resolved_of_not_badFlag hb, hread]
      exact ⟨s, hs, (resolved_eq_ok_iff.1 hs).2⟩
    | faulty issues => exact absurd ⟨issues, hread⟩ hnone
  · have hbad : BadFlag other.host ↔ BadFlag l.host := by rw [BadFlag, BadFlag, hflag]
    by_cases hb : BadFlag l.host
    · obtain ⟨value, hgiven, he⟩ := resolved_of_badFlag hb
      obtain ⟨value', hgiven', he'⟩ := resolved_of_badFlag (hbad.2 hb)
      obtain rfl := Option.some.inj (hgiven'.symm.trans (hflag.trans hgiven))
      rw [he, he']
    · rw [resolved_of_not_badFlag hb, resolved_of_not_badFlag (mt hbad.1 hb),
        read_congr fun f hf => ?_]
      rw [get?_merged, get?_merged, hsame f hf]

def homely (bad : Bool) : Host where
  environment := [("HOME", "/u"), (kebabVariable, if bad then "maybe" else "on"),
    ("OPNORM_MODEL_PACKAGE", "environment")]
  workDir := []
  platform := "Linux"
  terminal := false
  inputTerminal := false
  fetch _ := .failed ""
  usage _ := ""
  stamp := ""

def misplaced : List (Text × Value) := [("model_package", .list []), ("x", .list [])]

def misplacedText : Text := Json.write (.map (Json.textEntries misplaced)) ++ "\n"

def misplacedBytes : List UInt8 := misplacedText.bytes.toOption.getD []

def filed (project : Bool) : Store :=
  ⟨if project then [(["opnorm.json"], .file misplacedBytes)] else []⟩

theorem file?_filed (project : Bool) : (filed project).file? [] "/opnorm.json" =
    .ok (if project then some misplacedBytes else none) := by
  revert project
  decide +kernel

theorem read_misplacedText : Json.read misplacedText = .ok (.map (Json.textEntries misplaced)) := by
  have hfits : Json.Fits Json.mostOpen (.map (Json.textEntries misplaced)) := by
    apply Json.Fits.map
    · decide
    · intro field hfield
      rcases List.mem_pair.1 hfield with rfl | rfl <;> exact .list nofun
  exact Json.read_write hfits

theorem ofProject_filed (bad : Bool) :
    ofProject (homely bad) (filed true) = .ok (some (Json.textEntries misplaced)) := by
  have hplace : ((homely bad).inWorkDir "opnorm.json").text = "/opnorm.json" := by
    revert bad
    decide +kernel
  have htext : Store.textOf misplacedBytes = .ok misplacedText := by
    decide +kernel
  have hfile := file?_filed true
  rw [if_pos rfl, ← hplace] at hfile
  refine (ofFile_of_some (h := homely bad) "project config" hfile).trans ?_
  rw [ofContent, htext]
  dsimp only
  rw [read_misplacedText]
  rfl

theorem ofProject_filed_none (bad : Bool) : ofProject (homely bad) (filed false) = .ok none := by
  have hplace : ((homely bad).inWorkDir "opnorm.json").text = "/opnorm.json" := by
    revert bad
    decide +kernel
  have hfile := file?_filed false
  rw [if_neg Bool.false_ne_true, ← hplace] at hfile
  exact ofFile_of_none (h := homely bad) "project config" hfile

theorem ofUser_filed (bad project : Bool) : ofUser (homely bad) (filed project) = .ok none := by
  have hplace : ((homely bad).settingsFolder.within "config.json").text =
      "/u/.config/opnorm/config.json" := by
    revert bad
    decide +kernel
  have hfile : (filed project).file? [] "/u/.config/opnorm/config.json" = .ok none := by
    revert project
    decide +kernel
  rw [← hplace] at hfile
  exact ofFile_of_none (h := homely bad) "user config" hfile

def crowded : Layers where
  command := { kebab := some false }
  host := homely false
  store := filed true
  project := some (Json.textEntries misplaced)
  user := none
  project_eq := ofProject_filed false
  user_eq := ofUser_filed false true

def sparse (bad : Bool) : Layers where
  command := { kebab := some false }
  host := homely bad
  store := filed false
  project := none
  user := none
  project_eq := ofProject_filed_none bad
  user_eq := ofUser_filed bad false

theorem resolve_precedence_layered :
    (∃ s, crowded.resolved = .ok s ∧ s.kebabFileNaming = false ∧
      s.modelPackage = "environment") ∧
    (sparse false).resolved = crowded.resolved ∧
    ∃ fault, (sparse true).resolved = .error (.refused (.settings fault)) := by
  have hgiven : ∀ bad, (homely bad).given? kebabVariable =
      some (if bad then ↑"maybe" else ↑"on") := by
    decide +kernel
  have hgood : ¬BadFlag crowded.host := by
    rintro ⟨value, hvalue, hword⟩
    obtain rfl := Option.some.inj ((hgiven false).symm.trans hvalue)
    exact hword (by decide +kernel)
  have hbad : BadFlag (sparse true).host := ⟨_, hgiven true, by decide +kernel⟩
  have htakes : ∀ f ∈ fields, f.Takes crowded.winner?
      { kebabFileNaming := false, modelPackage := "environment" } := by
    rw [← List.forall_iff_forall_mem]
    exact ⟨rfl, rfl, rfl, rfl, rfl, rfl, rfl, rfl⟩
  have hsame : ∀ f ∈ fields, (sparse false).winner? f.name = crowded.winner? f.name := by
    rw [← List.forall_iff_forall_mem]
    exact ⟨rfl, rfl, rfl, rfl, rfl, rfl, rfl, rfl⟩
  obtain ⟨-, hok, hother⟩ := resolve_precedence crowded
  obtain ⟨s, hs, htaken⟩ := hok hgood fun f hf => (htakes f hf).not_refuses
  obtain ⟨hkebab, hmodel, -⟩ := List.forall_iff_forall_mem.2 htaken
  exact ⟨⟨s, hs, (Checked.ok.inj hkebab).symm, (Checked.ok.inj hmodel).symm⟩,
    hother (sparse false) rfl hsame, (resolve_precedence (sparse true)).1.2 (.inl hbad)⟩

end Layers

end ApiPrep.Settings
