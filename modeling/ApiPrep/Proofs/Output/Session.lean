import ApiPrep.Proofs.Output.Document

namespace ApiPrep

inductive Call where
  | data (text : Text)
  | document (v : Value)
  | table (headers : List Text) (rows : List (List Text))

inductive Written where
  | lines (text : Text)
  | document (text : Text)

namespace Written

def text : Written → Text
  | lines text | document text => text

def isDocument : Written → Bool
  | lines _ => false
  | document _ => true

def isWhole (w : Written) : Bool := w.text.isWhole

/-- What the output gets of a text: nothing if there are halves in it. -/
def shown (w : Written) : List Rune := if w.isWhole then (w.text ++ "\n").toList else []

def ended : Written → Text
  | lines text => Output.lineOf text
  | document text => text ++ "\n"

def filed (w : Written) : List Rune := if w.isWhole then w.ended.toList else []

/-- Whether a text ends a line itself, so that a file gets no line end after it. -/
def endsLine : Written → Bool
  | lines text => text.endsWith "\n"
  | document _ => false

def effect (file : Option Text) (w : Written) : Effect :=
  match file, w with
  | none, _ => .out (w.text ++ "\n")
  | some path, lines _ => .append path w.ended
  | some path, document _ => .replace path w.ended

/-- The texts that come up one after the other. None does behind one with halves. -/
def tried : List Written → List Written
  | [] => []
  | w :: rest => if w.isWhole then w :: tried rest else [w]

/-- What a file still tells of when all have come up: the last document and what follows it. -/
def kept : List Written → List Written
  | [] => []
  | w :: rest => if rest.any isDocument then kept rest else w :: rest

end Written

namespace Call

def effects (o : Output) : Call → List Effect
  | data text => [o.data text]
  | document v => [o.document v]
  | table headers rows => o.table headers rows

def unspelled? : Call → Option Breakdown
  | document v => v.obstacle?
  | _ => none

def written (format : Format) : Call → List Written
  | data text => [.lines text]
  | document v => if v.obstacle? = none then [.document (Json.write v)] else []
  | table headers rows =>
    match format with
    | .json => [.lines (Json.write (.list (rows.map (Output.record headers))))]
    | _ => (headers :: rows).map fun cells => .lines (Text.intercalate "\t" cells)

def obstacle? (format : Format) (c : Call) : Option Breakdown :=
  c.unspelled?.or ((c.written format).findSome? fun w => w.text.lone?)

end Call

namespace Output

/-- Makes calls one after the other. One that breaks down does not keep the next from being made. -/
def session (h : Host) (o : Output) (t : Traces) : List Call → Traces × List (Option Breakdown)
  | [] => (t, [])
  | c :: rest =>
    let done := t.applyAll h (c.effects o)
    let others := session h o done.1 rest
    (others.1, done.2 :: others.2)

/-- The texts that come up in calls, in their order. -/
def tries (o : Output) (calls : List Call) : List Written :=
  calls.flatMap fun c => Written.tried (c.written o.format)

end Output

variable {h : Host} {o : Output} {t : Traces} {c : Call} {w : Written} {ws : List Written}
  {calls : List Call} {path : Text} {names : List Name}

/-! ### What is kept -/

namespace Written

theorem kept_suffix (ws : List Written) : ∃ lost, ws = lost ++ kept ws := by
  induction ws with
  | nil => exact ⟨[], rfl⟩
  | cons w rest ih =>
    obtain ⟨lost, hlost⟩ := ih
    rw [kept]
    split
    · exact ⟨w :: lost, congrArg (w :: ·) hlost⟩
    · exact ⟨[], rfl⟩

theorem kept_append_document (ws : List Written) (text : Text) :
    kept (ws ++ [document text]) = [document text] := by
  induction ws with
  | nil => rfl
  | cons w rest ih =>
    have hany : (rest ++ [document text]).any isDocument = true :=
      List.any_eq_true.2 ⟨_, List.mem_append_right _ List.mem_cons_self, rfl⟩
    rw [List.cons_append, kept, if_pos hany, ih]

theorem kept_append_lines (ws : List Written) (text : Text) :
    kept (ws ++ [lines text]) = kept ws ++ [lines text] := by
  induction ws with
  | nil => rfl
  | cons w rest ih =>
    have hany : (rest ++ [lines text]).any isDocument = rest.any isDocument := by
      rw [List.any_append]
      exact Bool.or_false _
    rw [List.cons_append, kept, kept, hany]
    split
    · exact ih
    · rfl

/-! ### What is shown and filed -/

theorem shown_eq_nil_iff (w : Written) : shown w = [] ↔ w.isWhole = false := by
  rw [shown]
  split
  · next hw =>
    rw [Text.toList_append]
    exact iff_of_false (List.append_ne_nil_of_right_ne_nil _ nofun) (by rw [hw]; nofun)
  · next hw => exact iff_of_true rfl (Bool.eq_false_iff.2 hw)

theorem ended_of_endsLine (h : w.endsLine = true) : w.ended = w.text := by
  cases w with
  | lines text => exact if_pos h
  | document text => cases h

theorem ended_of_not_endsLine (h : w.endsLine = false) : w.ended = w.text ++ "\n" := by
  cases w with
  | lines text => exact if_neg (Bool.eq_false_iff.1 h)
  | document text => rfl

theorem isWhole_ended (w : Written) : w.ended.isWhole = w.isWhole := by
  cases h : w.endsLine with
  | true => exact congrArg Text.isWhole (ended_of_endsLine h)
  | false =>
    rw [ended_of_not_endsLine h, Text.isWhole_append]
    exact Bool.and_true _

theorem lone?_ended (w : Written) : w.ended.lone? = w.text.lone? := by
  cases h : w.endsLine with
  | true => exact congrArg Text.lone? (ended_of_endsLine h)
  | false => rw [ended_of_not_endsLine h, Text.lone?_append_line]

theorem shown_eq_filed_append (hw : w.isWhole = true) (h : w.endsLine = true) :
    shown w = filed w ++ [.char '\n'] := by
  rw [shown, filed, if_pos hw, if_pos hw, ended_of_endsLine h]
  rfl

theorem filed_eq_shown (h : ¬(w.isWhole && w.endsLine) = true) : filed w = shown w := by
  rw [shown, filed]
  split
  · next hw =>
    rw [hw, Bool.true_and] at h
    rw [ended_of_not_endsLine (Bool.eq_false_iff.2 h)]
  · rfl

theorem length_flatMap_shown (ws : List Written) :
    (ws.flatMap shown).length =
      (ws.flatMap filed).length + ws.countP fun w => w.isWhole && w.endsLine := by
  induction ws with
  | nil => rfl
  | cons w rest ih =>
    rw [List.flatMap_cons, List.flatMap_cons, List.length_append, List.length_append, ih,
      List.countP_cons]
    by_cases hend : (w.isWhole && w.endsLine) = true
    · obtain ⟨hw, hline⟩ := Bool.and_eq_true_iff.1 hend
      rw [shown_eq_filed_append hw hline, List.length_append, List.length_singleton, if_pos hend]
      omega
    · rw [filed_eq_shown hend, if_neg hend]
      omega

theorem isWhole_flatMap {f : Written → List Rune} (hf : ∀ w, ∀ c ∈ f w, c.isHalf = false)
    (ws : List Written) : (Text.ofList (ws.flatMap f)).isWhole = true := by
  refine Text.isWhole_iff.2 fun c hc => ?_
  obtain ⟨w, -, hc⟩ := List.mem_flatMap.1 hc
  exact hf w c hc

theorem isWhole_filed : (ws : List Written) → (Text.ofList (ws.flatMap filed)).isWhole = true := by
  refine isWhole_flatMap fun w => ?_
  rw [filed]
  split
  · next hw => exact Text.isWhole_iff.1 (w.isWhole_ended.trans hw)
  · exact nofun

theorem isWhole_shown : (ws : List Written) → (Text.ofList (ws.flatMap shown)).isWhole = true := by
  refine isWhole_flatMap fun w => ?_
  rw [shown]
  split
  · next hw =>
    apply Text.isWhole_iff.1
    rw [Text.isWhole_append]
    exact Bool.and_eq_true_iff.2 ⟨hw, rfl⟩
  · exact nofun

theorem length_kept_le (ws : List Written) :
    ((kept ws).flatMap shown).length ≤ (ws.flatMap shown).length := by
  obtain ⟨lost, hlost⟩ := kept_suffix ws
  rw [congrArg (List.flatMap shown) hlost, List.flatMap_append, List.length_append]
  exact Nat.le_add_left _ _

/-- Nothing that is shown is lost iff no document comes after a text that is shown. -/
theorem flatMap_kept_iff : (kept ws).flatMap shown = ws.flatMap shown ↔
    ws.Pairwise fun w d => w.isWhole = true → d.isDocument = false := by
  induction ws with
  | nil => exact iff_of_true rfl .nil
  | cons w rest ih =>
    rw [kept, List.pairwise_cons]
    split
    · next hany =>
      obtain ⟨d, hd, hdocument⟩ := List.any_eq_true.1 hany
      -- A document is still to come, so the first text must not have been shown.
      have hnone : (∀ d ∈ rest, w.isWhole = true → d.isDocument = false) ↔ shown w = [] := by
        rw [shown_eq_nil_iff]
        constructor
        · intro hall
          refine Bool.eq_false_iff.2 fun hw => ?_
          rw [hall d hd hw] at hdocument
          cases hdocument
        · intro hw _ _ hwhole
          rw [hw] at hwhole
          cases hwhole
      rw [hnone, ← ih, List.flatMap_cons]
      constructor
      · intro he
        have hlength := congrArg List.length he
        have hle := length_kept_le rest
        rw [List.length_append] at hlength
        have hnil : shown w = [] := List.length_eq_zero_iff.1 (by omega)
        exact ⟨hnil, by rwa [hnil] at he⟩
      · rintro ⟨hnil, he⟩
        rw [hnil, he]
        rfl
    · next hany =>
      have hplain : ∀ d ∈ rest, d.isDocument = false := fun d hd =>
        Bool.eq_false_iff.2 fun hdocument => hany (List.any_eq_true.2 ⟨d, hd, hdocument⟩)
      refine iff_of_true rfl ⟨fun d hd _ => hplain d hd, ?_⟩
      exact List.pairwise_of_forall_mem_list fun _ _ d hd _ => hplain d hd

/-- A file holds what the output shows iff no document has taken the place of what is shown and no
text that is shown has ended a line itself. -/
theorem flatMap_filed_kept_iff : (kept ws).flatMap filed = ws.flatMap shown ↔
    (ws.Pairwise fun w d => w.isWhole = true → d.isDocument = false) ∧
      ∀ w ∈ ws, w.isWhole = true → w.endsLine = false := by
  rw [← flatMap_kept_iff]
  have hcount : (kept ws).countP (fun w => w.isWhole && w.endsLine) = 0 ↔
      (kept ws).flatMap filed = (kept ws).flatMap shown := by
    constructor
    · intro hzero
      exact List.flatMap_congr fun w hw => filed_eq_shown (List.countP_eq_zero.1 hzero w hw)
    · intro he
      have hlength := length_flatMap_shown (kept ws)
      rw [he] at hlength
      omega
  constructor
  · intro he
    have hlength := length_flatMap_shown (kept ws)
    have hle := length_kept_le ws
    rw [he] at hlength
    have hzero : (kept ws).countP (fun w => w.isWhole && w.endsLine) = 0 := by omega
    have hkept := (hcount.1 hzero).symm.trans he
    refine ⟨hkept, fun w hw hwhole => ?_⟩
    obtain ⟨lost, hlost⟩ := kept_suffix ws
    rw [hlost] at hw
    rcases List.mem_append.1 hw with hw | hw
    · -- What is lost has not been shown.
      rw [congrArg (List.flatMap shown) hlost, List.flatMap_append] at hkept
      have hnil := List.self_eq_append_left.1 hkept
      have hshown := List.flatMap_eq_nil_iff.1 hnil w hw
      rw [(shown_eq_nil_iff w).1 hshown] at hwhole
      cases hwhole
    · have hnot := List.countP_eq_zero.1 hzero w hw
      rw [hwhole, Bool.true_and] at hnot
      exact Bool.eq_false_iff.2 hnot
  · rintro ⟨hkept, hends⟩
    rw [← hkept]
    apply hcount.1
    apply List.countP_eq_zero.2
    intro w hw hboth
    obtain ⟨lost, hlost⟩ := kept_suffix ws
    obtain ⟨hwhole, hline⟩ := Bool.and_eq_true_iff.1 hboth
    have hmem : w ∈ ws := hlost ▸ List.mem_append_right lost hw
    rw [hends w hmem hwhole] at hline
    cases hline

end Written

/-! ### One call -/

theorem Output.data_eq_effect (o : Output) (text : Text) :
    o.data text = (Written.lines text).effect o.file := by
  obtain ⟨format, quiet, file⟩ := o
  cases file <;> rfl

/-- A call does what its texts do one after the other, unless it comes to none. -/
theorem Call.effects_cases (o : Output) (c : Call) :
    (∃ b, c.unspelled? = some b ∧ c.effects o = [.fail b] ∧ c.written o.format = []) ∨
      c.unspelled? = none ∧ c.effects o = (c.written o.format).map (Written.effect o.file) := by
  cases c with
  | data text => exact .inr ⟨rfl, congrArg ([·]) (o.data_eq_effect text)⟩
  | document v =>
    obtain ⟨format, quiet, file⟩ := o
    rw [unspelled?, effects, written, Output.document]
    cases v.obstacle? with
    | some b => exact .inl ⟨b, rfl, rfl, rfl⟩
    | none => cases file <;> exact .inr ⟨rfl, rfl⟩
  | table headers rows =>
    have hjson := o.data_eq_effect (Json.write (.list (rows.map (Output.record headers))))
    have hlines := List.map_congr_left (l := headers :: rows) fun cells _ =>
      o.data_eq_effect (Text.intercalate "\t" cells)
    refine .inr ⟨rfl, ?_⟩
    unfold effects written Output.table
    cases o.format with
    | json => exact congrArg ([·]) hjson
    | plain | rich =>
      rw [List.map_map]
      exact hlines

/-! ### Sessions without a file -/

namespace Traces

def shows (t : Traces) (s : List Rune) : Traces := { t with out := t.out ++ Text.ofList s }

theorem shows_nil (t : Traces) : t.shows [] = t := by
  change { t with out := t.out ++ "" } = t
  rw [Text.append_empty]

theorem shows_append (t : Traces) (s r : List Rune) : t.shows (s ++ r) = (t.shows s).shows r := by
  rw [shows, Text.ofList_append, ← Text.append_assoc]
  rfl

theorem apply_shows (t : Traces) (w : Written) :
    t.apply h (w.effect none) = (t.shows w.shown, w.text.lone?) := by
  rw [Written.effect, apply, print, ← Text.lone?_append_line, Text.lone?, Written.shown]
  have hline : (w.text ++ "\n").isWhole = w.isWhole := by
    rw [Text.isWhole_append]
    exact Bool.and_true _
  cases hw : w.isWhole with
  | true =>
    rw [Text.bytes_of_isWhole (hline.trans hw), if_pos rfl]
    rfl
  | false =>
    obtain ⟨l, hl, -⟩ := Text.exists_lone (hline.trans hw)
    rw [hl, if_neg Bool.false_ne_true, shows_nil]

theorem applyAll_shows (t : Traces) (ws : List Written) :
    t.applyAll h (ws.map (Written.effect none)) =
      (t.shows ((Written.tried ws).flatMap Written.shown),
        ws.findSome? fun w => w.text.lone?) := by
  induction ws generalizing t with
  | nil =>
    rw [Written.tried, List.flatMap_nil, shows_nil]
    rfl
  | cons w rest ih =>
    rw [List.map_cons, applyAll, apply_shows, Written.tried, List.findSome?_cons]
    cases hw : w.isWhole with
    | true =>
      rw [Text.lone?_of_isWhole hw, if_pos rfl, List.flatMap_cons, shows_append]
      exact ih _
    | false =>
      obtain ⟨l, -, hl⟩ := Text.exists_lone hw
      rw [hl, if_neg Bool.false_ne_true, List.flatMap_singleton]

end Traces

theorem Call.applyAll_shows (hfile : o.file = none) (t : Traces) (c : Call) :
    t.applyAll h (c.effects o) =
      (t.shows ((Written.tried (c.written o.format)).flatMap Written.shown),
        c.obstacle? o.format) := by
  rcases effects_cases o c with ⟨b, hb, heffects, hwritten⟩ | ⟨hb, heffects⟩
  · rw [heffects, obstacle?, hb, hwritten, Written.tried, List.flatMap_nil, Traces.shows_nil]
    rfl
  · rw [heffects, hfile, Traces.applyAll_shows, obstacle?, hb, Option.none_or]

theorem Output.session_shows (hfile : o.file = none) (t : Traces) (calls : List Call) :
    o.session h t calls =
      (t.shows ((o.tries calls).flatMap Written.shown), calls.map (Call.obstacle? o.format)) := by
  induction calls generalizing t with
  | nil => exact congrArg (·, []) t.shows_nil.symm
  | cons c rest ih =>
    rw [session, c.applyAll_shows hfile, ih, ← Traces.shows_append, ← List.flatMap_append]
    rfl

/-! ### Sessions with a file -/

def Written.content (ws : List Written) : List Rune := (kept ws).flatMap filed

theorem Written.content_append_lines (ws : List Written) (text : Text) :
    content (ws ++ [lines text]) = content ws ++ filed (lines text) := by
  rw [content, kept_append_lines, List.flatMap_append, List.flatMap_singleton, content]

theorem Written.content_append_document (ws : List Written) (text : Text) :
    content (ws ++ [document text]) = filed (document text) := by
  rw [content, kept_append_document, List.flatMap_singleton]

/-- Whether a file can be written, and what it holds. It is there once any text has come up. -/
structure Traces.Holds (h : Host) (path : Text) (names : List Name) (out : Text)
    (ws : List Written) (t : Traces) : Prop where
  target : t.store.target h.workDir path = .ok names
  held : t.store.get? names =
    if ws = [] then none else some (.file (Text.solid (Written.content ws)))
  out : t.out = out

namespace Traces.Holds

variable {out : Text}

theorem bytes?_eq (ht : t.Holds h path names out ws) :
    (t.store.bytes? names).getD [] = Text.solid (Written.content ws) := by
  rw [Store.bytes?, ht.held]
  cases ws <;> rfl

theorem write (ht : t.Holds h path names out ws) (w : Written) (keep : List UInt8 → List UInt8)
    (hkeep : keep (Text.solid (Written.content ws)) ++ Text.solid w.filed =
      Text.solid (Written.content (ws ++ [w]))) :
    ∃ store, t.store.write h.workDir path keep w.ended = (store, w.text.lone?) ∧
      { t with store }.Holds h path names out (ws ++ [w]) := by
  have hgiven : ws ++ [w] ≠ [] := List.append_ne_nil_of_right_ne_nil ws (List.cons_ne_nil w [])
  refine ⟨t.store.put names (.file (Text.solid (Written.content (ws ++ [w])))), ?_, ?_⟩
  · rw [← hkeep, ← ht.bytes?_eq, ← w.lone?_ended]
    cases hw : w.isWhole with
    | true =>
      have hended := w.isWhole_ended.trans hw
      rw [Store.write_of_bytes ht.target (Text.bytes_of_isWhole hended),
        Text.lone?_of_isWhole hended, Written.filed, if_pos hw]
    | false =>
      obtain ⟨l, hl, hlone⟩ := Text.exists_lone (w.isWhole_ended.trans hw)
      rw [Store.write_of_lone ht.target hl, hlone, Written.filed, hw,
        if_neg Bool.false_ne_true, Text.solid, List.flatMap_nil, List.append_nil]
  · refine ⟨Store.target_put ht.target _, ?_, ht.out⟩
    rw [if_neg hgiven]
    exact Store.get?_put_self (Store.ne_nil_of_target ht.target) _

theorem apply (ht : t.Holds h path names out ws) (w : Written) :
    ∃ after, t.apply h (w.effect (some path)) = (after, w.text.lone?) ∧
      after.Holds h path names out (ws ++ [w]) := by
  cases w with
  | lines text =>
    have hkeep : id (Text.solid (Written.content ws)) ++ Text.solid (Written.lines text).filed =
        Text.solid (Written.content (ws ++ [.lines text])) := by
      rw [Written.content_append_lines, Text.solid_append, id]
    obtain ⟨store, hwrite, hholds⟩ := ht.write (.lines text) id hkeep
    refine ⟨_, ?_, hholds⟩
    rw [Written.effect, Traces.apply, Store.append, hwrite]
  | document text =>
    have hkeep : [] ++ Text.solid (Written.document text).filed =
        Text.solid (Written.content (ws ++ [.document text])) := by
      rw [Written.content_append_document, List.nil_append]
    obtain ⟨store, hwrite, hholds⟩ := ht.write (.document text) (fun _ => []) hkeep
    refine ⟨_, ?_, hholds⟩
    rw [Written.effect, Traces.apply, Store.replace, hwrite]

theorem applyAll (ht : t.Holds h path names out ws) (more : List Written) :
    ∃ after, t.applyAll h (more.map (Written.effect (some path))) =
        (after, more.findSome? fun w => w.text.lone?) ∧
      after.Holds h path names out (ws ++ Written.tried more) := by
  induction more generalizing t ws with
  | nil => exact ⟨t, rfl, by rwa [Written.tried, List.append_nil]⟩
  | cons w rest ih =>
    obtain ⟨next, hnext, hholds⟩ := ht.apply w
    rw [List.map_cons, Traces.applyAll, hnext, Written.tried, List.findSome?_cons]
    cases hw : w.isWhole with
    | true =>
      obtain ⟨after, hafter, hlast⟩ := ih hholds
      rw [Text.lone?_of_isWhole hw, if_pos rfl]
      rw [List.append_assoc] at hlast
      exact ⟨after, hafter, hlast⟩
    | false =>
      obtain ⟨l, -, hl⟩ := Text.exists_lone hw
      rw [hl, if_neg Bool.false_ne_true]
      exact ⟨next, rfl, hholds⟩

theorem call (ht : t.Holds h path names out ws) (hfile : o.file = some path) (c : Call) :
    ∃ after, t.applyAll h (c.effects o) = (after, c.obstacle? o.format) ∧
      after.Holds h path names out (ws ++ Written.tried (c.written o.format)) := by
  rcases Call.effects_cases o c with ⟨b, hb, heffects, hwritten⟩ | ⟨hb, heffects⟩
  · rw [heffects, Call.obstacle?, hb, hwritten, Written.tried, List.append_nil]
    exact ⟨t, rfl, ht⟩
  · rw [heffects, hfile, Call.obstacle?, hb, Option.none_or]
    exact ht.applyAll _

theorem session (ht : t.Holds h path names out ws) (hfile : o.file = some path)
    (calls : List Call) :
    ∃ after, o.session h t calls = (after, calls.map (Call.obstacle? o.format)) ∧
      after.Holds h path names out (ws ++ o.tries calls) := by
  -- What the file holds at each call is told by all texts that have come up before it.
  induction calls generalizing t ws with
  | nil => exact ⟨t, rfl, by rwa [Output.tries, List.flatMap_nil, List.append_nil]⟩
  | cons c rest ih =>
    obtain ⟨next, hnext, hholds⟩ := ht.call hfile c
    obtain ⟨after, hafter, hlast⟩ := ih hholds
    refine ⟨after, ?_, ?_⟩
    · rw [Output.session, hnext]
      exact congrArg (fun done : Traces × _ => (done.1, c.obstacle? o.format :: done.2)) hafter
    · rwa [List.append_assoc] at hlast

end Traces.Holds

namespace Output

/-- Whether an output is for programs and its file does not exist yet but can be written. -/
structure Fresh (o : Output) (h : Host) (t : Traces) (path : Text) (names : List Name) :
    Prop where
  format : o.format = .plain ∨ o.format = .json
  file : o.file = some path
  target : t.store.target h.workDir path = .ok names
  absent : t.store.get? names = none

def toOut : Output := ⟨.plain, false, some "out"⟩

theorem toOut_fresh : toOut.Fresh bareHost ⟨⟨[]⟩, "", ""⟩ "out" ["out"] where
  format := .inl rfl
  file := rfl
  target := by decide +kernel
  absent := rfl

end Output

end ApiPrep
