import ApiPrep.Document.Content
import ApiPrep.Output
import ApiPrep.Proofs.Json.RoundTrip
import ApiPrep.Proofs.Json.Whole
import ApiPrep.Proofs.Normalized.Fitting
import ApiPrep.Proofs.Store.Writing

namespace ApiPrep

open Json (Exact Fits Whole)

theorem readContent_write {entries : Entries} (h : Fits Json.mostOpen (.map entries)) {hint : Hint}
    (hhint : hint ≠ .yaml) :
    readContent hint (Json.write (.map entries) ++ "\n") = .ok entries := by
  rw [readContent, if_neg hhint, Json.read_write h]
  rfl

namespace Output

/-- Whether an output is for programs and its file, if it has one, can be written. -/
structure Ready (o : Output) (h : Host) (t : Traces) : Prop where
  format : o.format = .plain ∨ o.format = .json
  file : ∀ path ∈ o.file, ∃ names, t.store.target h.workDir path = .ok names

/-- Whether a text has come out as a document: at the end of what is written, or as all that the
file holds. -/
def Shows (o : Output) (h : Host) (before after : Traces) (text : Text) : Prop :=
  match o.file with
  | none => after = { before with out := before.out ++ text }
  | some path => after.out = before.out ∧ ∃ names bytes,
      before.store.target h.workDir path = .ok names ∧ text.bytes = .ok bytes ∧
      after.store.get? names = some (.file bytes)

variable {h : Host} {o : Output} {t : Traces} {v : Value}

theorem document_done (hready : o.Ready h t) (hv : v.obstacle? = none) (hwhole : Whole v) :
    ∃ after, t.apply h (o.document v) = (after, none) ∧
      o.Shows h t after (Json.write v ++ "\n") := by
  obtain ⟨format, quiet, file⟩ := o
  have hline : (Json.write v ++ "\n").isWhole = true := by
    rw [Text.isWhole_append, hwhole.isWhole_write]
    rfl
  obtain ⟨bytes, hbytes⟩ := Text.isWhole_iff_bytes.1 hline
  cases file with
  | none =>
    refine ⟨_, ?_, rfl⟩
    rw [document, hv]
    simp only [Traces.apply, Traces.print, hbytes]
  | some path =>
    obtain ⟨names, hnames⟩ := hready.file path rfl
    have hheld (e : Entry) := Store.get?_put_self (s := t.store) (Store.ne_nil_of_target hnames) e
    refine ⟨{ t with store := t.store.put names _ }, ?_, rfl, names, bytes, hnames, hbytes, hheld _⟩
    rw [document, hv]
    simp only [Traces.apply, Store.replace, Store.write_of_bytes hnames hbytes]
    rfl

theorem document_fails {b : Breakdown} (hv : v.obstacle? = some b) :
    t.apply h (o.document v) = (t, some b) := by
  rw [document, hv]
  rfl

theorem fits_write_normalized (d : NormalizedDocument) :
    Fits Json.mostOpen (NormalizedDocument.form.write .wire d) :=
  NormalizedDocument.form_fitting.mono (by decide) .wire d

def bareHost : Host where
  environment := []
  workDir := []
  platform := "Linux"
  terminal := false
  inputTerminal := false
  fetch _ := .failed ""
  usage _ := ""
  stamp := ""

theorem ready_bare : Ready ⟨.plain, false, none⟩ bareHost ⟨⟨[]⟩, "", ""⟩ := ⟨.inl rfl, nofun⟩

def nest : (around : Nat) → Value
  | 0 => .list []
  | around + 1 => .list [nest around]

theorem exact_nest (around : Nat) : Exact (nest around) := by
  induction around with
  | zero => exact .list nofun
  | succ around ih => exact .list (List.forall_mem_singleton.2 ih)

theorem obstacleWithin_nest {marks : List Nat} {depth around : Nat} (h : depth ≤ around) :
    (nest around).obstacleWithin marks depth = some .tooDeep := by
  induction around generalizing depth with
  | zero =>
    obtain rfl := Nat.le_zero.1 h
    rfl
  | succ around ih =>
    cases depth with
    | zero => rfl
    | succ depth =>
      rw [nest, Value.obstacleWithin, Value.opening, itemsObstacle, ih (Nat.le_of_succ_le_succ h)]
      rfl

def long : Entries := [(.text "a", .int (.ofNat (Nat.pow 10 4300)))]

def deep : Entries := [(.text "a", nest 979)]

end Output

end ApiPrep
