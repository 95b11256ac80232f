import ApiPrep.Text

namespace ApiPrep

inductive Level where
  | debug
  | info
  | warning
deriving DecidableEq, Repr

def Level.name : Level → Text
  | .debug => "DEBUG"
  | .info => "INFO"
  | .warning => "WARNING"

structure Note where
  level : Level
  text : Text
deriving DecidableEq, Repr

def Note.line (n : Note) : Text := n.level.name ++ " " ++ n.text

/-- A value with the notes that were taken on the way to it, the earliest first. -/
structure Traced (α : Type) where
  value : α
  notes : List Note
deriving Repr

namespace Traced

variable {α β : Type}

def bind (x : Traced α) (f : α → Traced β) : Traced β :=
  let y := f x.value
  ⟨y.value, x.notes ++ y.notes⟩

instance : Monad Traced where
  pure a := ⟨a, []⟩
  bind := bind

def note (level : Level) (text : Text) : Traced Unit := ⟨(), [⟨level, text⟩]⟩

@[simp] theorem pure_eq (a : α) : (pure a : Traced α) = ⟨a, []⟩ := rfl

@[simp] theorem bind_eq (x : Traced α) (f : α → Traced β) :
    x >>= f = ⟨(f x.value).value, x.notes ++ (f x.value).notes⟩ := rfl

end Traced

end ApiPrep
