import ApiPrep.Proofs.Cli.Delivery

namespace ApiPrep.Cli

variable {s : Source} {args rest : List Text} {g : General} {store : Store} {file : Option Text}
  {result : NormalizedDocument} {names : List Name}

def documentText (result : NormalizedDocument) : Text :=
  Json.write (NormalizedDocument.form.write .wire result) ++ "\n"

/-- A run that comes as far as to write its result, to a file if one is named: its command line,
its settings and its document are in order. -/
inductive Comes (s : Source) (args : List Text) :
    Store → Option Text → NormalizedDocument → Prop
  | normalize {g : General} {rest : List Text} {store : Store} {settings : Settings} {o : Output}
      {source : Text} {catalog : Option Text} {kebab : Option Bool} {result : NormalizedDocument}
      (asked : Request.ofArguments args = .ok (.command g .normalize rest))
      (prepared : Settings.prepare s.host s.store = .ok store)
      (resolved : (Settings.resolve s.host store
        (Settings.Overrides.entries { format := g.format })).run.value = .ok settings)
      (made : Output.make s.host ⟨settings.outputFormat, g.noColor, g.quiet, g.file⟩ = .ok o)
      (task : Command.task .normalize rest = .ok (.normalize source catalog kebab))
      (normalized : Normalizes { s with store } source catalog kebab result) :
      Comes s args store (g.file.filter (· ≠ ("" : Text))) result

/-- The text that a command line is to be answered with, and the file that is to get it, if one is:
what it asks about the program, or else what a document is normalised to. -/
inductive Answer (s : Source) (args : List Text) : Option Text → Text → Prop
  | version (asked : Request.ofArguments args = .ok .version) :
      Answer s args none (Host.program ++ " " ++ version ++ "\n")
  | help (asked : Request.ofArguments args = .ok .help) : Answer s args none (s.host.usage none)
  | helpWith {g : General} {rest : List Text}
      (asked : Request.ofArguments args = .ok (.command g .normalize rest))
      (task : Command.task .normalize rest = .ok (.help .normalize)) :
      Answer s args none (s.host.usage (some "normalize"))
  | document {store : Store} {file : Option Text} {result : NormalizedDocument}
      (comes : Comes s args store file result) : Answer s args file (documentText result)

/-- A run that opens the file for its result, which has no bytes. -/
inductive Torn (s : Source) (args : List Text) : List Name → Prop
  | open_ {store : Store} {path : Text} {result : NormalizedDocument} {names : List Name}
      (comes : Comes s args store (some path) result)
      (half : (documentText result).isWhole = false)
      (opened : store.target s.host.workDir path = .ok names) : Torn s args names

theorem task_normalize {task : Task} (h : Command.task .normalize rest = .ok task) :
    task = .help .normalize ∨ ∃ source catalog kebab, task = .normalize source catalog kebab := by
  obtain ⟨line, -, h⟩ := Outcome.bind_eq_ok_iff.1 h
  split at h
  · exact .inl (Except.ok.inj h).symm
  · obtain ⟨options, arguments⟩ := line
    match arguments, h with
    | [], h => cases h
    | [source], h => exact .inr ⟨_, _, _, (Except.ok.inj h).symm⟩
    | _ :: _ :: _, h => cases h

theorem runCommand_eq {settings : Settings} {o : Output} {c : Command} {task : Task}
    (hprepare : Settings.prepare s.host s.store = .ok store)
    (hresolve : (Settings.resolve s.host store
      (Settings.Overrides.entries { format := g.format })).run.value = .ok settings)
    (hmake : Output.make s.host ⟨settings.outputFormat, g.noColor, g.quiet, g.file⟩ = .ok o)
    (htask : c.task rest = .ok task) :
    runCommand s g c rest = perform { s with store } g o task := by
  rw [runCommand, hprepare]
  dsimp only
  rw [hresolve]
  dsimp only
  rw [hmake]
  dsimp only
  rw [htask]

theorem runCommand_cases (s : Source) (g : General) (c : Command) (rest : List Text) :
    ((runCommand s g c rest).exitCode ≠ 0 ∧ (runCommand s g c rest).Silent s) ∨
    ∃ store settings o task, Settings.prepare s.host s.store = .ok store ∧
      (Settings.resolve s.host store
        (Settings.Overrides.entries { format := g.format })).run.value = .ok settings ∧
      Output.make s.host ⟨settings.outputFormat, g.noColor, g.quiet, g.file⟩ = .ok o ∧
      c.task rest = .ok task ∧ runCommand s g c rest = perform { s with store } g o task := by
  rw [runCommand]
  split
  · exact .inl ⟨failed_exitCode _ _ _ _, failed_silent rfl rfl⟩
  · next store hprepare =>
    have hfiles : store.bytes? = s.store.bytes? := Settings.bytes?_prepare hprepare
    dsimp only
    split
    · exact .inl ⟨failed_exitCode _ _ _ _, failed_silent rfl hfiles⟩
    · next settings hresolve =>
      split
      · exact .inl ⟨failed_exitCode _ _ _ _, failed_silent rfl hfiles⟩
      · next o hmake =>
        split
        · exact .inl ⟨nofun, misused_silent rfl hfiles⟩
        · next task htask =>
          exact .inr ⟨store, settings, o, task, hprepare, hresolve, hmake, htask, rfl⟩

theorem perform_help (s : Source) (g : General) (o : Output) (c : Command) :
    ∃ notes, perform s g o (.help c) =
      ⟨0, { store := s.store, out := s.host.usage (some c.name) }, notes, none⟩ := by
  have heffects : (effects s o (.help c)).run.value = .ok [.out (s.host.usage (some c.name))] := rfl
  obtain ⟨notes, hperform⟩ := perform_of_ok (g := g) heffects
  refine ⟨notes, ?_⟩
  rw [hperform, Traces.applyAll, Traces.apply, Traces.print, Text.bytes_ofString]
  rfl

/-- A run fails before it has a result, or it has been asked about the program, or it comes to write
its result. -/
theorem run_cases (s : Source)
    (hargs : ∀ g c rest, Request.ofArguments args = .ok (.command g c rest) → c = .normalize) :
    ((run s args).exitCode ≠ 0 ∧ (run s args).Silent s) ∨
    ((run s args).exitCode = 0 ∧
      ∃ text, Answer s args none text ∧ (run s args).Delivers s none text) ∨
    ∃ store file result, Comes s args store file result := by
  rw [run]
  split
  · exact .inl ⟨nofun, misused_silent rfl rfl⟩
  · next hasked => exact .inr (.inl ⟨rfl, _, .version hasked, rfl, rfl⟩)
  · next hasked => exact .inr (.inl ⟨rfl, _, .help hasked, rfl, rfl⟩)
  · next g c rest hasked =>
    obtain rfl := hargs g c rest hasked
    rcases runCommand_cases s g .normalize rest with
      hfails | ⟨store, settings, o, task, hprepare, hresolve, hmake, htask, hrun⟩
    · exact .inl hfails
    · have hfiles : store.bytes? = s.store.bytes? := Settings.bytes?_prepare hprepare
      rw [hrun]
      rcases task_normalize htask with rfl | ⟨source, catalog, kebab, rfl⟩
      · obtain ⟨notes, hperform⟩ := perform_help { s with store } g o .normalize
        rw [hperform]
        exact .inr (.inl ⟨rfl, _, .helpWith hasked htask, rfl, hfiles⟩)
      · let task : Task := .normalize source catalog kebab
        cases heffects : (effects { s with store } o task).run.value with
        | error f =>
          obtain ⟨notes, hperform⟩ := perform_of_error (g := g) heffects
          rw [hperform]
          exact .inl ⟨failed_exitCode _ _ _ _, failed_silent (s := s) rfl hfiles⟩
        | ok effects =>
          obtain ⟨result, hresult, -⟩ := normalize_eq_ok_iff.1 heffects
          exact .inr (.inr ⟨_, _, _, .normalize hasked hprepare hresolve hmake htask hresult⟩)

theorem run_of_comes (hcomes : Comes s args store file result) :
    ((run s args).exitCode ≠ 0 ∧ (run s args).Silent s ∧
      ∀ path names, file = some path → store.target s.host.workDir path ≠ .ok names) ∨
    ((run s args).exitCode = 0 ∧ (run s args).Delivers s file (documentText result) ∧
      (documentText result).isWhole = true) ∨
    ∃ path names, file = some path ∧ (documentText result).isWhole = false ∧
      store.target s.host.workDir path = .ok names ∧
      (run s args).exitCode = 1 ∧ (run s args).Empties s names := by
  cases hcomes with
  | @normalize g rest _ settings o source catalog kebab _ asked prepared resolved made task
      normalized =>
  have hfiles : store.bytes? = s.store.bytes? := Settings.bytes?_prepare prepared
  obtain ⟨told, notes, rfl, hout, hperform⟩ := perform_normalizes g o normalized
  have hrun : run s args = perform { s with store := told.store } g o
      (.normalize source catalog kebab) := by
    rw [run, asked]
    exact runCommand_eq prepared resolved made task
  have hends := o.documents s.host told result.obstacle?_write
  rw [← documentText] at hends
  rw [hrun, hperform, ← Output.file_of_make made]
  generalize told.apply s.host (o.document _) = ended at hends ⊢
  cases hends with
  | withheld closed => exact .inl ⟨failed_exitCode _ _ _ _, failed_silent hout hfiles, closed⟩
  | shown file whole =>
    rw [file]
    refine .inr (.inl ⟨rfl, ⟨?_, hfiles⟩, whole⟩)
    dsimp only
    rw [hout]
    rfl
  | @filed path names bytes after file encoded rewritten =>
    rw [file]
    refine .inr (.inl ⟨rfl, ⟨hout, names, bytes, encoded, ?_⟩, ?_⟩)
    · exact rewritten.of_bytes?_eq hfiles
    · exact Text.isWhole_iff_bytes.2 ⟨bytes, encoded⟩
  | @emptied path names after b file half opened rewritten =>
    refine .inr (.inr ⟨path, names, file, half, opened, failed_broken_exitCode _ _ _ _, ?_⟩)
    -- The failure leaves the files as they are after the opening, and not as before it.
    have hleaves := failed_leaves (t := { told with store := after }) s.host notes (.broken b) hout
    refine ⟨hleaves.out, fun other hother => (hleaves.files other hother).trans ?_⟩
    dsimp only
    split
    · next he => exact he ▸ rewritten.held
    · next hne => exact (rewritten.others other hne).trans (congrFun hfiles other)

theorem Torn.empties (h : Torn s args names) :
    (run s args).exitCode = 1 ∧ (run s args).Empties s names := by
  obtain ⟨hcomes, half, opened⟩ := h
  rcases run_of_comes hcomes with ⟨-, -, hclosed⟩ | ⟨-, -, hwhole⟩ |
    ⟨path, other, hpath, -, hopened, hends⟩
  · exact absurd opened (hclosed _ _ rfl)
  · rw [half] at hwhole
    cases hwhole
  · obtain rfl := Option.some.inj hpath
    obtain rfl := Except.ok.inj (opened.symm.trans hopened)
    exact hends

def held : List UInt8 := Text.Utf8.encode "old\n".toList

def piped (input : Text) : Source where
  host :=
    { environment := [("HOME", "/u")], workDir := [], platform := "Linux", terminal := false,
      inputTerminal := false, fetch := fun _ => .failed "", usage := fun _ => "", stamp := "now" }
  store := ⟨[(["out.json"], .file held)]⟩
  input

def toFile : List Text := ["-q", "-o", "/out.json", "normalize", "-"]

def noGroups : Text := "\x7b\"groups\": []\x7d"

def halved : Text := "\x7b\"groups\": [\x7b\"classname\": \"\\ud800\"\x7d]\x7d"

theorem toFile_normalizes : ∀ g c rest, Request.ofArguments toFile = .ok (.command g c rest) →
    c = .normalize := by
  intro g c rest h
  have hasked : Request.ofArguments toFile =
      .ok (.command ⟨none, false, true, false, some "/out.json"⟩ .normalize ["-"]) := by
    decide +kernel
  cases h.symm.trans hasked
  rfl

theorem halved_fails : (run (piped halved) toFile).exitCode = 1 ∧
    (run (piped halved) toFile).traces.store.bytes? ["out.json"] = some [] ∧
    ¬(run (piped halved) toFile).Logs (piped halved).host ["out.json"] := by
  have hrun : (run (piped halved) toFile).exitCode = 1 ∧
      (run (piped halved) toFile).traces.store.bytes? ["out.json"] = some [] ∧
      (run (piped halved) toFile).traces.store.target [] (crashLog (piped halved).host) ≠
        .ok ["out.json"] := by
    decide +kernel
  obtain ⟨hcode, hempty, hplace⟩ := hrun
  exact ⟨hcode, hempty, fun hlogs => hplace hlogs.2⟩

end ApiPrep.Cli
