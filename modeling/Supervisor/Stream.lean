/-
  The two sides of a child's output.

  * `Stream` is the standard or the error side;
  * `PerStream` holds one value for each of them, read by `get` and changed by
    `set`, which leaves the other side alone (`get_set`).
-/
import Supervisor.Level

namespace Supervisor

/-- A side of the output. -/
inductive Stream where
  | out
  | err
  deriving DecidableEq

/-- The name of a stream in notices and in the log. -/
def Stream.name : Stream → String
  | out => "stdout"
  | err => "stderr"

/-- The level that lines of a stream have in the log. -/
def Stream.level : Stream → Level
  | out => .info
  | err => .warn

/-- Both streams, the standard side first. -/
def Stream.all : List Stream := [.out, .err]

/-- A value for each stream. -/
structure PerStream (α : Type) where
  out : α
  err : α
  deriving DecidableEq

namespace PerStream

variable {α : Type}

/-- The same value twice. -/
def both (a : α) : PerStream α := ⟨a, a⟩

/-- The value of a stream. -/
def get (p : PerStream α) : Stream → α
  | .out => p.out
  | .err => p.err

/-- Change the value of a stream. -/
def set (p : PerStream α) (s : Stream) (a : α) : PerStream α :=
  match s with
  | .out => { p with out := a }
  | .err => { p with err := a }

/-- Change both values. -/
def map {β : Type} (f : α → β) (p : PerStream α) : PerStream β := ⟨f p.out, f p.err⟩

theorem get_set (p : PerStream α) (s t : Stream) (a : α) :
    (p.set s a).get t = if t = s then a else p.get t := by
  cases s <;> cases t <;> rfl

@[simp] theorem get_both (a : α) (s : Stream) : (both a).get s = a := by cases s <;> rfl

@[simp] theorem get_map {β : Type} (f : α → β) (p : PerStream α) (s : Stream) :
    (p.map f).get s = f (p.get s) := by cases s <;> rfl

end PerStream

end Supervisor
