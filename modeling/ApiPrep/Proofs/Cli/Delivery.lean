import ApiPrep.Cli.Run
import ApiPrep.Proofs.Output.Document
import ApiPrep.Proofs.Store.Files

namespace ApiPrep

variable {h : Host} {o : Output} {t : Traces} {v : Value}

/-! ### One document after the diagnostics -/

theorem Output.applyAll_info (o : Output) (t : Traces) (message : Text) (effects : List Effect) :
    ∃ told : Traces, told.store = t.store ∧ told.out = t.out ∧
      t.applyAll h (o.info message ++ effects) = told.applyAll h effects := by
  rw [info]
  split
  · exact ⟨t, rfl, rfl, rfl⟩
  · exact ⟨t.tell (message ++ "\n"), rfl, rfl, rfl⟩

/-- How it ends when a text is to come out as a document. -/
inductive Output.Documents (o : Output) (h : Host) (t : Traces) (text : Text) :
    Traces × Option Breakdown → Prop
  | withheld {b : Breakdown}
      (closed : ∀ path names, o.file = some path → t.store.target h.workDir path ≠ .ok names) :
      Documents o h t text (t, some b)
  | shown (file : o.file = none) (whole : text.isWhole = true) :
      Documents o h t text ({ t with out := t.out ++ text }, none)
  | filed {path : Text} {names : List Name} {bytes : List UInt8} {store : Store}
      (file : o.file = some path) (encoded : text.bytes = .ok bytes)
      (rewritten : t.store.Rewritten h.workDir path bytes names store) :
      Documents o h t text ({ t with store }, none)
  /-- The file has been opened, but the text has no bytes. -/
  | emptied {path : Text} {names : List Name} {store : Store} {b : Breakdown}
      (file : o.file = some path) (half : text.isWhole = false)
      (opened : t.store.target h.workDir path = .ok names)
      (rewritten : t.store.Rewritten h.workDir path [] names store) :
      Documents o h t text ({ t with store }, some b)

theorem Output.documents (o : Output) (h : Host) (t : Traces) (hv : v.obstacle? = none) :
    o.Documents h t (Json.write v ++ "\n") (t.apply h (o.document v)) := by
  have hfile (path : Text) := t.store.replace_cases h.workDir path (Json.write v ++ "\n")
  have hwhole := Text.isWhole_iff_bytes (s := Json.write v ++ "\n")
  rw [document, hv]
  generalize Json.write v ++ "\n" = text at hfile hwhole
  dsimp only
  split
  · next path hpath =>
    rw [Traces.apply]
    rcases hfile path with ⟨b, htarget, hreplace⟩ | ⟨names, after, htarget, hafter⟩
    · rw [hreplace]
      refine .withheld fun path' names hpath' he => ?_
      obtain rfl := Option.some.inj (hpath.symm.trans hpath')
      rw [htarget] at he
      cases he
    · rcases hafter with ⟨bytes, hbytes, hreplace, hrewritten⟩ | ⟨l, hl, hreplace, hrewritten⟩
      · rw [hreplace]
        exact .filed hpath hbytes hrewritten
      · rw [hreplace]
        refine .emptied hpath (Bool.eq_false_iff.2 fun hw => ?_) htarget hrewritten
        obtain ⟨bytes, hbytes⟩ := hwhole.1 hw
        rw [hl] at hbytes
        cases hbytes
  · next hnone =>
    rw [Traces.apply, Traces.print]
    split
    · next bytes hbytes => exact .shown hnone (hwhole.2 ⟨bytes, hbytes⟩)
    · exact .withheld fun path _ hpath _ => by rw [hnone] at hpath; cases hpath

theorem NormalizedDocument.obstacle?_write (d : NormalizedDocument) :
    (form.write .wire d).obstacle? = none := by
  have hfits := Output.fits_write_normalized d
  exact hfits.exact.fits_iff.1 hfits

theorem Output.file_of_make {options : Options} (ho : make h options = .ok o) :
    o.file = options.file.filter (· ≠ ("" : Text)) := by
  obtain ⟨format, -, ho⟩ := Outcome.bind_eq_ok_iff.1 ho
  rw [← Except.ok.inj ho]

theorem Settings.bytes?_prepare {store after : Store} (hs : prepare h store = .ok after) :
    after.bytes? = store.bytes? :=
  Store.bytes?_makeDirectory (Outcome.mapError_eq_ok_iff.1 hs)

namespace Cli

def crashLog (h : Host) : Text :=
  ((h.dataFolder.within "logs").within ("crash-" ++ h.stamp ++ ".log")).text

namespace Outcome

/-- Whether names lead to the log of the crash in which a run has ended. -/
def Logs (r : Outcome) (h : Host) (names : List Name) : Prop :=
  (∃ f, r.crash = some ⟨f, .ok (crashLog h)⟩) ∧
    r.traces.store.target h.workDir (crashLog h) = .ok names

structure Leaves (r : Outcome) (h : Host) (files : List Name → Option (List UInt8)) : Prop where
  out : r.traces.out = ""
  files : ∀ names, ¬r.Logs h names → r.traces.store.bytes? names = files names

/-- A run that has written nothing: no file has changed, but for the log of its crash. -/
def Silent (r : Outcome) (s : Source) : Prop := r.Leaves s.host s.store.bytes?

/-- A run that has made a file empty, and has written nothing else but the log of its crash. -/
def Empties (r : Outcome) (s : Source) (names : List Name) : Prop :=
  r.Leaves s.host fun other => if other = names then some [] else s.store.bytes? other

/-- Whether a text is all that a run has written: to the output, or to a file, whatever that
held. -/
def Delivers (r : Outcome) (s : Source) (file : Option Text) (text : Text) : Prop :=
  match file with
  | none => r.traces.out = text ∧ r.traces.store.bytes? = s.store.bytes?
  | some path => r.traces.out = "" ∧ ∃ names bytes, text.bytes = .ok bytes ∧
      s.store.Rewritten s.host.workDir path bytes names r.traces.store

end Outcome

variable {s : Source} {notes : List Note} {f : Failure} {args rest : List Text} {g : General}

/-! ### Runs that fail -/

theorem log_eq_ok {store after : Store} {place : Text} (hlog : log h store f = .ok (after, place)) :
    place = crashLog h ∧ ∃ names bytes, store.Rewritten h.workDir place bytes names after := by
  obtain ⟨withData, hdata, hlog⟩ := Outcome.bind_eq_ok_iff.1 hlog
  obtain ⟨withLogs, hlogs, hlog⟩ := Outcome.bind_eq_ok_iff.1 hlog
  have hfiles := (Store.bytes?_makeDirectory hlogs).trans (Store.bytes?_makeDirectory hdata)
  dsimp only at hlog
  split at hlog
  · next withLog hreplace =>
    obtain ⟨rfl, rfl⟩ := Prod.mk.inj (Except.ok.inj hlog)
    rcases withLogs.replace_cases h.workDir (crashLog h) (account f) with
      ⟨b, -, he⟩ | ⟨names, after, -, ⟨bytes, -, he, hwritten⟩ | ⟨l, -, he, -⟩⟩
    · cases hreplace.symm.trans he
    · obtain ⟨rfl, -⟩ := Prod.mk.inj (hreplace.symm.trans he)
      refine ⟨rfl, names, bytes, hwritten.target, hwritten.held, fun other hother => ?_⟩
      rw [hwritten.others other hother, hfiles]
    · cases hreplace.symm.trans he
  · cases hlog

theorem failed_exitCode (h : Host) (t : Traces) (notes : List Note) (f : Failure) :
    (failed h t notes f).exitCode ≠ 0 := by
  unfold failed
  split
  · next r => cases r <;> exact nofun
  · split <;> exact nofun

theorem failed_broken_exitCode (h : Host) (t : Traces) (notes : List Note) (b : Breakdown) :
    (failed h t notes (.broken b)).exitCode = 1 := by
  unfold failed
  dsimp only
  split <;> rfl

theorem failed_leaves (h : Host) (notes : List Note) (f : Failure) (hout : t.out = "") :
    (failed h t notes f).Leaves h t.store.bytes? := by
  unfold failed
  split
  · exact ⟨hout, fun _ _ => rfl⟩
  · split
    · next hlog =>
      obtain ⟨rfl, place, bytes, hwritten⟩ := log_eq_ok hlog
      refine ⟨hout, fun names hnames => hwritten.others names ?_⟩
      rintro rfl
      exact hnames ⟨⟨_, rfl⟩, hwritten.target⟩
    · exact ⟨hout, fun _ _ => rfl⟩

theorem failed_silent (hout : t.out = "") (hfiles : t.store.bytes? = s.store.bytes?) :
    (failed s.host t notes f).Silent s := by
  rw [Outcome.Silent, ← hfiles]
  exact failed_leaves s.host notes f hout

theorem misused_silent {m : Misuse} (hout : t.out = "") (hfiles : t.store.bytes? = s.store.bytes?) :
    (misused s.host t m).Silent s := ⟨hout, fun names _ => congrFun hfiles names⟩

/-! ### What a run does -/

/-- A run ends in one of two ways: it fails and has written nothing, or it succeeds and has written
a text that belongs where it stands, and nothing else. -/
def Outcome.Atomic (r : Outcome) (s : Source) (belongs : Option Text → Text → Prop) : Prop :=
  (r.exitCode ≠ 0 ∧ r.Silent s) ∨
    r.exitCode = 0 ∧ ∃ file text, belongs file text ∧ r.Delivers s file text

/-- Whether a result is what the document of a source is normalised to, by the settings and the
catalog that the run goes by. Nothing is read from a terminal. -/
structure Normalizes (s : Source) (source : Text) (catalog : Option Text) (kebab : Option Bool)
    (result : NormalizedDocument) : Prop where
  piped : ¬(source = "-" ∧ s.host.inputTerminal = true)
  normalized : ∃ settings c document,
    (Settings.resolve s.host s.store (Settings.Overrides.entries { kebab, catalog })).run.value =
      .ok settings ∧
    (activeCatalog s settings).run.value = .ok c ∧
    ((s.after (settings.catalogFile.getD "")).document source).run.value = .ok document ∧
    (document.normalize c settings).run.value = .ok result

variable {source : Text} {catalog : Option Text} {kebab : Option Bool}
  {result : NormalizedDocument}

theorem normalize_value (s : Source) (o : Output) (source : Text) (catalog : Option Text)
    (kebab : Option Bool) :
    (normalize s o source catalog kebab).run.value =
      if source = "-" ∧ s.host.inputTerminal then .error (.refused (.usage noDocument)) else do
        let settings ←
          (Settings.resolve s.host s.store
            (Settings.Overrides.entries { kebab, catalog })).run.value
        let c ← (activeCatalog s settings).run.value
        let document ← ((s.after (settings.catalogFile.getD "")).document source).run.value
        let result ← (document.normalize c settings).run.value.mapError fun f => .refused (.path f)
        return o.info (tally result) ++
          [o.document (NormalizedDocument.form.write .wire result)] := by
  unfold normalize
  dsimp only
  split
  · rfl
  · simp only [Traced.value_run_bind, Traced.value_run_adapt, Traced.value_run_pure]
    rfl

theorem normalize_eq_ok_iff {effects : List Effect} :
    (normalize s o source catalog kebab).run.value = .ok effects ↔
      ∃ result, Normalizes s source catalog kebab result ∧
        effects = o.info (tally result) ++
          [o.document (NormalizedDocument.form.write .wire result)] := by
  rw [normalize_value]
  constructor
  · intro h
    split at h
    · cases h
    · next hpiped =>
      obtain ⟨settings, hsettings, h⟩ := Outcome.bind_eq_ok_iff.1 h
      obtain ⟨c, hc, h⟩ := Outcome.bind_eq_ok_iff.1 h
      obtain ⟨document, hdocument, h⟩ := Outcome.bind_eq_ok_iff.1 h
      obtain ⟨result, hresult, h⟩ := Outcome.bind_eq_ok_iff.1 h
      exact ⟨result, ⟨hpiped, settings, c, document, hsettings, hc, hdocument,
        Outcome.mapError_eq_ok_iff.1 hresult⟩, (Except.ok.inj h).symm⟩
  · rintro ⟨result, ⟨hpiped, settings, c, document, hsettings, hc, hdocument, hresult⟩, rfl⟩
    rw [if_neg hpiped, hsettings, Outcome.ok_bind, hc, Outcome.ok_bind, hdocument,
      Outcome.ok_bind, Outcome.mapError_eq_ok_iff.2 hresult]
    rfl

theorem perform_of_error {task : Task} (hf : (effects s o task).run.value = .error f) :
    ∃ notes, perform s g o task = failed s.host { store := s.store } notes f := by
  unfold perform
  dsimp only
  rw [hf]
  exact ⟨_, rfl⟩

theorem perform_of_ok {task : Task} {done : List Effect}
    (hdone : (effects s o task).run.value = .ok done) :
    ∃ notes, perform s g o task = match Traces.applyAll s.host { store := s.store } done with
      | (t, none) => { exitCode := 0, traces := t, notes }
      | (t, some b) => failed s.host t notes (.broken b) := by
  unfold perform
  dsimp only
  rw [hdone]
  exact ⟨_, rfl⟩

theorem perform_normalizes (g : General) (o : Output)
    (hresult : Normalizes s source catalog kebab result) :
    ∃ (told : Traces) (notes : List Note), told.store = s.store ∧ told.out = "" ∧
      perform s g o (.normalize source catalog kebab) =
        match told.apply s.host (o.document (NormalizedDocument.form.write .wire result)) with
        | (t, none) => { exitCode := 0, traces := t, notes }
        | (t, some b) => failed s.host t notes (.broken b) := by
  have heffects : (effects s o (.normalize source catalog kebab)).run.value = .ok _ :=
    normalize_eq_ok_iff.2 ⟨result, hresult, rfl⟩
  obtain ⟨notes, hperform⟩ := perform_of_ok (g := g) heffects
  obtain ⟨told, hstore, hout, htold⟩ := o.applyAll_info (h := s.host) { store := s.store }
    (tally result) [o.document (NormalizedDocument.form.write .wire result)]
  refine ⟨told, notes, hstore, hout, ?_⟩
  rw [hperform, htold, Traces.applyAll]
  cases told.apply s.host (o.document (NormalizedDocument.form.write .wire result)) with
  | mk t fault => cases fault <;> rfl

end Cli

end ApiPrep
