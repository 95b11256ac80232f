import ApiPrep.Trace
import Mathlib.Data.List.Forall2

namespace ApiPrep

namespace Outcome

variable {ε α β : Type} {x : Except ε α} {b : β}

@[simp] theorem ok_bind (a : α) (f : α → Except ε β) : Except.ok a >>= f = f a := rfl

theorem map_eq_ok_iff {f : α → β} : x.map f = .ok b ↔ ∃ a, x = .ok a ∧ f a = b := by
  cases x <;> simp only [Except.map, Except.ok.injEq, reduceCtorEq, exists_eq_left', false_and,
    exists_false]

theorem mapError_eq_ok_iff {ε' : Type} {f : ε → ε'} {a : α} : x.mapError f = .ok a ↔ x = .ok a := by
  cases x <;> simp only [Except.mapError, Except.ok.injEq, reduceCtorEq]

theorem bind_eq_ok_iff {f : α → Except ε β} : x >>= f = .ok b ↔ ∃ a, x = .ok a ∧ f a = .ok b := by
  cases x <;> simp only [bind, Except.bind, Except.ok.injEq, reduceCtorEq, exists_eq_left',
    false_and, exists_false]

theorem bind_eq_error_iff {f : α → Except ε β} {e : ε} :
    x >>= f = .error e ↔ x = .error e ∨ ∃ a, x = .ok a ∧ f a = .error e := by
  cases x <;> simp only [bind, Except.bind, Except.ok.injEq, Except.error.injEq, reduceCtorEq,
    exists_eq_left', false_and, exists_false, or_false, false_or]

theorem bind_eq_error_iff_left {f : α → Except ε β} {e : ε} (hf : ∀ a, ∃ b, f a = .ok b) :
    x >>= f = .error e ↔ x = .error e := by
  rw [bind_eq_error_iff]
  refine or_iff_left ?_
  rintro ⟨a, -, h⟩
  obtain ⟨b, hb⟩ := hf a
  cases hb.symm.trans h

theorem mapM_eq_ok_iff {f : α → Except ε β} {as : List α} {bs : List β} :
    as.mapM f = .ok bs ↔ List.Forall₂ (fun a b => f a = .ok b) as bs := by
  induction as generalizing bs with
  | nil =>
    rw [List.mapM_nil, List.forall₂_nil_left_iff]
    exact ⟨fun h => (Except.ok.inj h).symm, fun h => congrArg Except.ok h.symm⟩
  | cons a as ih =>
    rw [List.mapM_cons, bind_eq_ok_iff, List.forall₂_cons_left_iff]
    constructor
    · rintro ⟨b, hb, hrest⟩
      obtain ⟨rest, hr, he⟩ := bind_eq_ok_iff.1 hrest
      exact ⟨b, rest, hb, ih.1 hr, (Except.ok.inj he).symm⟩
    · rintro ⟨b, rest, hb, hr, rfl⟩
      exact ⟨b, hb, bind_eq_ok_iff.2 ⟨rest, ih.2 hr, rfl⟩⟩

def fault? : Except ε α → Option ε
  | .ok _ => none
  | .error e => some e

theorem fault?_eq_some_iff {e : ε} : fault? x = some e ↔ x = .error e := by
  cases x <;> simp only [fault?, reduceCtorEq, Option.some.injEq, Except.error.injEq]

theorem fault?_eq_none_iff : fault? x = none ↔ ∃ a, x = .ok a := by
  cases x <;> simp only [fault?, reduceCtorEq, Except.ok.injEq, exists_eq', exists_false]

theorem fault?_map (f : α → β) (x : Except ε α) : fault? (x.map f) = fault? x := by
  cases x <;> rfl

theorem fault?_mapM (f : α → Except ε β) (as : List α) :
    fault? (as.mapM f) = as.findSome? fun a => fault? (f a) := by
  induction as with
  | nil => rfl
  | cons a as ih =>
    rw [List.mapM_cons, List.findSome?_cons, ← ih]
    cases f a with
    | error e => rfl
    | ok b => exact fault?_map (b :: ·) (as.mapM f)

theorem exists_mapM_ok_iff {f : α → Except ε β} {as : List α} :
    (∃ bs, as.mapM f = .ok bs) ↔ ∀ a ∈ as, ∃ b, f a = .ok b := by
  simp only [← fault?_eq_none_iff, fault?_mapM, List.findSome?_eq_none_iff]

theorem mapM_eq_error_iff {f : α → Except ε β} {as : List α} {e : ε} :
    as.mapM f = .error e ↔ ∃ before a after, as = before ++ a :: after ∧
      (∀ earlier ∈ before, ∃ b, f earlier = .ok b) ∧ f a = .error e := by
  simp only [← fault?_eq_some_iff, ← fault?_eq_none_iff, fault?_mapM, List.findSome?_eq_some_iff]
  constructor
  · rintro ⟨before, a, after, he, hf, hb⟩
    exact ⟨before, a, after, he, hb, hf⟩
  · rintro ⟨before, a, after, he, hb, hf⟩
    exact ⟨before, a, after, he, hf, hb⟩

/-! ### Ways to end -/

variable {post mid : α → Prop} {result : β → Prop} {kind : ε → Prop}

/-- A computation that can only end in one way: well, with what has a property, or with a fault of
some kind. -/
def Ends (post : α → Prop) (kind : ε → Prop) : Except ε α → Prop
  | .ok a => post a
  | .error e => kind e

theorem Ends.bind {f : α → Except ε β} (hx : Ends mid kind x)
    (hf : ∀ a, mid a → Ends result kind (f a)) : Ends result kind (x >>= f) := by
  cases x with
  | ok a => exact hf a hx
  | error e => exact hx

theorem Ends.ok_bind {a : α} {f : α → Except ε β} (h : Ends result kind (f a)) :
    Ends result kind (.ok a >>= f) := h

theorem Ends.ite {c : Prop} [Decidable c] {y : Except ε α} (hx : Ends post kind x)
    (hy : Ends post kind y) : Ends post kind (if c then x else y) := by
  split
  · exact hx
  · exact hy

theorem Ends.map {f : α → β} (hx : Ends mid kind x) (hf : ∀ a, mid a → result (f a)) :
    Ends result kind (x.map f) := by
  cases x with
  | ok a => exact hf a hx
  | error e => exact hx

theorem Ends.mono {wider : ε → Prop} (hx : Ends post kind x) (h : ∀ e, kind e → wider e) :
    Ends post wider x := by
  cases x with
  | ok a => exact hx
  | error e => exact h e hx

theorem Ends.mapM {f : α → Except ε β} (hf : ∀ a, Ends result kind (f a)) (as : List α) :
    Ends (fun bs => ∀ b ∈ bs, result b) kind (as.mapM f) := by
  induction as with
  | nil => exact fun _ hb => absurd hb List.not_mem_nil
  | cons a as ih =>
    rw [List.mapM_cons]
    refine (hf a).bind fun b hb => ih.bind fun bs hbs => ?_
    exact List.forall_mem_cons.2 ⟨hb, hbs⟩

theorem Ends.foldlM {f : β → α → Except ε β} (hf : ∀ b a, result b → Ends result kind (f b a))
    (as : List α) {b : β} (hb : result b) : Ends result kind (as.foldlM f b) := by
  induction as generalizing b with
  | nil => exact hb
  | cons a as ih => exact (hf b a hb).bind fun _ h => ih h

theorem Ends.of_eq_error {e : ε} (hx : Ends post kind x) (he : x = .error e) : kind e := by
  rw [he] at hx
  exact hx

end Outcome

namespace Traced

variable {ε α β : Type}

instance : LawfulMonad Traced := LawfulMonad.mk' Traced
  (fun x => congrArg (mk x.value) (List.append_nil x.notes))
  (fun _ _ => rfl)
  (fun x f g => congrArg (mk (g (f x.value).value).value)
    (List.append_assoc x.notes (f x.value).notes (g (f x.value).value).notes))

/-- What steps that can fail come to does not depend on what they note. -/
@[simp] theorem value_run_bind (x : ExceptT ε Traced α) (f : α → ExceptT ε Traced β) :
    (x >>= f).run.value = x.run.value >>= fun a => (f a).run.value := by
  rw [ExceptT.run_bind, bind_eq]
  cases x.run.value <;> rfl

theorem run_bind_of_ok {x : ExceptT ε Traced α} {a : α} {notes : List Note}
    (h : x.run = ⟨.ok a, notes⟩) (f : α → ExceptT ε Traced β) :
    (x >>= f).run = ⟨(f a).run.value, notes ++ (f a).run.notes⟩ := by
  rw [ExceptT.run_bind, bind_eq, h]

theorem run_bind_of_pure {x : ExceptT ε Traced α} {a : α} {b : β} {notes : List Note}
    {f : α → ExceptT ε Traced β} (h : x.run = ⟨.ok a, notes⟩) (hf : f a = pure b) :
    (x >>= f).run = ⟨.ok b, notes⟩ := by
  rw [run_bind_of_ok h, hf]
  exact congrArg (mk _) (List.append_nil notes)

@[simp] theorem value_run_lift (x : Traced α) :
    (liftM x : ExceptT ε Traced α).run.value = .ok x.value := rfl

@[simp] theorem value_run_mk (x : Except ε α) :
    (ExceptT.mk (pure x : Traced (Except ε α))).run.value = x := rfl

@[simp] theorem value_run_pure (a : α) : (pure a : ExceptT ε Traced α).run.value = .ok a := rfl

theorem value_run_adapt {ε' : Type} (f : ε → ε') (x : ExceptT ε Traced α) :
    (x.adapt f).run.value = x.run.value.mapError f := rfl

theorem value_run_mapM (f : α → ExceptT ε Traced β) (as : List α) :
    (as.mapM f).run.value = as.mapM fun a => (f a).run.value := by
  induction as with
  | nil => rfl
  | cons a as ih =>
    rw [List.mapM_cons, List.mapM_cons]
    simp only [value_run_bind, value_run_pure, ih]
    rfl

end Traced

end ApiPrep
