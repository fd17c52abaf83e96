/-! Append-only logs: what was written, traced or posted, oldest first in `toList`.
Pushing costs one cell however often the log is shared. -/

namespace TapeMachine

structure Log (α : Type) where
  newestFirst : List α := []
  deriving DecidableEq, Repr

namespace Log

variable {α : Type}

def empty : Log α := {}

def push (l : Log α) (a : α) : Log α := ⟨a :: l.newestFirst⟩

def append (l : Log α) (as : List α) : Log α := ⟨as.reverse ++ l.newestFirst⟩

def toList (l : Log α) : List α := l.newestFirst.reverse

def length (l : Log α) : Nat := l.newestFirst.length

@[simp] theorem toList_empty : (empty : Log α).toList = [] := rfl

@[simp] theorem toList_push (l : Log α) (a : α) : (l.push a).toList = l.toList ++ [a] := by
  simp [push, toList]

@[simp] theorem toList_append (l : Log α) (as : List α) :
    (l.append as).toList = l.toList ++ as := by
  simp [append, toList]

end Log
end TapeMachine
