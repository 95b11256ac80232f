import ApiPrep.Proofs.Json.Stops
import ApiPrep.Proofs.Text.Utf8
import ApiPrep.Proofs.Yaml.Values
import ApiPrep.Source

namespace ApiPrep

open Outcome

variable {hint : Hint} {content : Text} {f : Failure} {b : Breakdown} {json : Option Json.Fault}

/-! ### Contents -/

def Json.Malformed (content : Text) : Prop :=
  ∃ reason line column offset, Json.read content = .error (.malformed reason line column offset)

/-- How the reading of a content can break down. -/
inductive ContentBreak (hint : Hint) (content : Text) : Breakdown → Prop
  | tooDeep (known : hint ≠ .yaml) (read : Json.read content = .error .tooDeep) :
      ContentBreak hint content .tooDeep
  | tooManyDigits (count : Nat) (known : hint ≠ .yaml)
      (read : Json.read content = .error (.tooManyDigits count))
      (many : Decimal.mostDigits < count) :
      ContentBreak hint content (.tooManyDigits (some count))
  /-- What may be YAML breaks down as such, in one of the ways that YAML has. -/
  | yaml (b : Breakdown) (known : hint = .yaml ∨ hint = .unknown ∧ Json.Malformed content)
      (read : Yaml.read content = .error (.broken b)) (way : Yaml.ReadBreak b) :
      ContentBreak hint content b

def Failure.IsInput (f : Failure) : Prop := ∃ i, f = .refused (.input i)

theorem entriesOf_error {v : Value} (h : entriesOf v = .error f) : f.IsInput := by
  rw [entriesOf] at h
  split at h
  · cases h
  · exact ⟨_, (Except.error.inj h).symm⟩

theorem readYaml_error (h : readYaml json content = .error f) :
    f.IsInput ∨ ∃ b, f = .broken b ∧ Yaml.read content = .error (.broken b) := by
  rw [readYaml] at h
  split at h
  · exact .inl ⟨_, (Except.error.inj h).symm⟩
  · exact .inl (entriesOf_error h)
  · exact .inl ⟨_, (Except.error.inj h).symm⟩
  · next b hb => exact .inr ⟨b, (Except.error.inj h).symm, hb⟩

theorem readYaml_breaks (h : Yaml.read content = .error (.broken b)) :
    readYaml json content = .error (.broken b) := by
  rw [readYaml, h]

theorem readContent_error (h : readContent hint content = .error f) :
    f.IsInput ∨ ∃ b, f = .broken b ∧ ContentBreak hint content b := by
  have hyaml {json : Option Json.Fault}
      (known : hint = .yaml ∨ hint = .unknown ∧ Json.Malformed content)
      (h : readYaml json content = .error f) :
      f.IsInput ∨ ∃ b, f = .broken b ∧ ContentBreak hint content b := by
    refine (readYaml_error h).imp_right ?_
    rintro ⟨b, rfl, hb⟩
    exact ⟨b, rfl, .yaml b known hb ((Yaml.read_ends content).of_eq_error hb)⟩
  rw [readContent] at h
  split at h
  · next hknown => exact hyaml (.inl hknown) h
  next hknown =>
  split at h
  · exact .inl (entriesOf_error h)
  · next hread => exact .inr ⟨_, (Except.error.inj h).symm, .tooDeep hknown hread⟩
  · next count hread =>
    exact .inr ⟨_, (Except.error.inj h).symm,
      .tooManyDigits count hknown hread (Json.lt_of_read hread)⟩
  · next reason line column offset hread =>
    split at h
    · exact .inl ⟨_, (Except.error.inj h).symm⟩
    · next hjson =>
      refine hyaml (.inr ⟨?_, reason, line, column, offset, hread⟩) h
      cases hint with
      | json => exact absurd rfl hjson
      | yaml => exact absurd rfl hknown
      | unknown => rfl

theorem ContentBreak.breaks (h : ContentBreak hint content b) :
    readContent hint content = .error (.broken b) := by
  rw [readContent]
  cases h with
  | tooDeep known read => rw [if_neg known, read]
  | tooManyDigits count known read many => rw [if_neg known, read]
  | yaml b known read way =>
    rcases known with rfl | ⟨rfl, reason, line, column, offset, hjson⟩
    · rw [if_pos rfl]
      exact readYaml_breaks read
    · rw [if_neg (by decide), hjson]
      exact readYaml_breaks read

/-! ### Files -/

/-- How the reading of a file can break down. -/
inductive FileBreak (hint : Hint) (bytes : List UInt8) : Breakdown → Prop
  | undecodable (f : Text.Utf8.Fault) (decoded : Text.Utf8.decode bytes = .error f)
      (noText : ∀ text, Text.Utf8.encode text ≠ bytes) : FileBreak hint bytes (.undecodable f)
  | content (text : List Char) (b : Breakdown) (encoded : Text.Utf8.encode text = bytes)
      (given : Text.blank ((Text.unifyLines text).map .char) = false)
      (read : ContentBreak hint (Text.ofList ((Text.unifyLines text).map .char)) b) :
      FileBreak hint bytes b

namespace Source

variable {s : Source} {name : Text} {bytes : List UInt8}

/-- A name that is neither that of the input nor a web address, under which a file is found. -/
structure LocalFile (s : Source) (name : Text) (bytes : List UInt8) : Prop where
  noInput : name ≠ "-"
  noAddress : (name.startsWith "http://" || name.startsWith "https://") = false
  found : s.store.file? s.host.workDir (Place.ofText name).text = .ok (some bytes)

def hintOf (name : Text) : Hint := hintOfEnding (Place.ofText name).ending

theorem LocalFile.entries_undecodable (h : s.LocalFile name bytes) {fault : Text.Utf8.Fault}
    (hb : Text.Utf8.decode bytes = .error fault) :
    s.entries name = .error (.broken (.undecodable fault)) := by
  rw [entries, if_neg h.noInput, if_neg (Bool.eq_false_iff.1 h.noAddress), ofFile, h.found]
  simp only [Store.textOf, hb]

theorem LocalFile.entries_text (h : s.LocalFile name bytes) {text : List Char}
    (hb : Text.Utf8.encode text = bytes) :
    s.entries name =
      if Text.blank ((Text.unifyLines text).map .char) then refuse (.emptyFile name)
      else readContent (hintOf name) (Text.ofList ((Text.unifyLines text).map .char)) := by
  rw [entries, if_neg h.noInput, if_neg (Bool.eq_false_iff.1 h.noAddress), ofFile, h.found]
  simp only [Store.textOf, Text.Utf8.decode_eq_ok_iff.2 hb, hintOf]

theorem LocalFile.entries_error (h : s.LocalFile name bytes) (hf : s.entries name = .error f) :
    f.IsInput ∨ ∃ b, f = .broken b ∧ FileBreak (hintOf name) bytes b := by
  cases hb : Text.Utf8.decode bytes with
  | error fault =>
    rw [h.entries_undecodable hb] at hf
    have hnone : ∀ text, Text.Utf8.encode text ≠ bytes := fun text htext => by
      rw [Text.Utf8.decode_eq_ok_iff.2 htext] at hb
      cases hb
    exact .inr ⟨_, (Except.error.inj hf).symm, .undecodable fault hb hnone⟩
  | ok text =>
    have hencoded := Text.Utf8.decode_eq_ok_iff.1 hb
    rw [h.entries_text hencoded] at hf
    split at hf
    · exact .inl ⟨_, (Except.error.inj hf).symm⟩
    · next hgiven =>
      refine (readContent_error hf).imp_right ?_
      rintro ⟨b, rfl, hread⟩
      exact ⟨b, rfl, .content text b hencoded (Bool.eq_false_iff.2 hgiven) hread⟩

theorem LocalFile.breaks (h : s.LocalFile name bytes) (hb : FileBreak (hintOf name) bytes b) :
    s.entries name = .error (.broken b) := by
  cases hb with
  | undecodable fault decoded noText => exact h.entries_undecodable decoded
  | content text b encoded given read =>
    rw [h.entries_text encoded, if_neg (Bool.eq_false_iff.1 given)]
    exact read.breaks

/-- A file that is not read is reported as bad input, but for the ones at which the decoder or a
parser breaks down: their bytes are no text, or the JSON or the YAML in them cannot be read to its
end. -/
theorem entries_breaks_iff_fileBreak (h : s.LocalFile name bytes) :
    (∀ f, s.entries name = .error f → (∃ i, f = .refused (.input i)) ∨ ∃ b, f = .broken b) ∧
      ∀ b, s.entries name = .error (.broken b) ↔ FileBreak (hintOf name) bytes b := by
  constructor
  · intro f hf
    refine (h.entries_error hf).imp_right ?_
    rintro ⟨b, hb, -⟩
    exact ⟨b, hb⟩
  · intro b
    refine ⟨fun hf => ?_, h.breaks⟩
    rcases h.entries_error hf with ⟨i, hi⟩ | ⟨b', hb', hbreak⟩
    · cases hi
    · exact Failure.broken.inj hb' ▸ hbreak

def lone (name : String) (bytes : List UInt8) : Source where
  host :=
    { environment := [], workDir := [], platform := "Linux", terminal := false,
      inputTerminal := false, fetch := fun _ => .failed "",
      usage := fun _ => "", stamp := "" }
  store := ⟨[([↑name], .file bytes)]⟩
  input := ""

theorem lone_localFile : (lone "a.json" [0xFF]).LocalFile "a.json" [0xFF] where
  noInput := by decide
  noAddress := by decide +kernel
  found := by decide +kernel

theorem entries_breaks_iff_fileBreak_lone :
    (lone "a.json" [0xFF]).LocalFile "a.json" [0xFF] ∧
      ((∀ f, (lone "a.json" [0xFF]).entries "a.json" = .error f →
        (∃ i, f = .refused (.input i)) ∨ ∃ b, f = .broken b) ∧
      ∀ b, (lone "a.json" [0xFF]).entries "a.json" = .error (.broken b) ↔
        FileBreak (hintOf "a.json") [0xFF] b) :=
  ⟨lone_localFile, entries_breaks_iff_fileBreak lone_localFile⟩

/-- A byte that starts no character is no reported fault. -/
theorem entries_breaks_on_byte :
    ∃ f, (lone "a.json" [0xFF]).entries "a.json" = .error f ∧ ∀ i, f ≠ .refused (.input i) :=
  have hdecode : Text.Utf8.decode [0xFF] = .error ⟨.start, 0xFF, 0, 1⟩ := by decide
  ⟨_, lone_localFile.entries_undecodable hdecode, nofun⟩

end Source

end ApiPrep
