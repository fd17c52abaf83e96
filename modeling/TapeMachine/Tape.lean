/-! The tape: a row of byte cells, never empty, with a pointer to one of them. It is kept split
at the pointer, so that the pointer is in range by construction, and both sides are counted, so
that no step has to walk along them. `cells` and `pointer` are what the rest of the library
reads. -/

namespace TapeMachine

/-- The cells left of the pointer, nearest first, the cell under it, and those right of it; and
how many there are on each side. -/
structure Tape where
  left : List UInt8
  cell : UInt8
  right : List UInt8
  before : Nat
  after : Nat
  before_eq : before = left.length
  after_eq : after = right.length
  deriving DecidableEq, Repr

namespace Tape

/-- One zero cell. -/
def blank : Tape := ⟨[], 0, [], 0, 0, rfl, rfl⟩

def cells (t : Tape) : List UInt8 := t.left.reverse ++ t.cell :: t.right

def pointer (t : Tape) : Nat := t.before

def length (t : Tape) : Nat := t.before + 1 + t.after

/-- A tape from its parts. -/
def split (left : List UInt8) (cell : UInt8) (right : List UInt8) : Tape :=
  ⟨left, cell, right, left.length, right.length, rfl, rfl⟩

/-- Cells with the pointer at a position, if there is such a cell. -/
def at? (cells : List UInt8) (pointer : Nat) : Option Tape :=
  match cells.drop pointer with
  | [] => none
  | cell :: right => some (split (cells.take pointer).reverse cell right)

/-- The pointer one to the right, onto a new zero cell where the tape has ended. -/
def moveRight : Tape → Tape
  | ⟨left, cell, [], before, _, left_eq, _⟩ =>
    ⟨cell :: left, 0, [], before + 1, 0, by simp [left_eq], rfl⟩
  | ⟨left, cell, c :: right, before, after, left_eq, right_eq⟩ =>
    ⟨cell :: left, c, right, before + 1, after - 1, by simp [left_eq], by simp [right_eq]⟩

/-- The pointer one to the left, unless it is at the first cell. -/
def moveLeft? : Tape → Option Tape
  | ⟨[], _, _, _, _, _, _⟩ => none
  | ⟨c :: left, cell, right, before, after, left_eq, right_eq⟩ =>
    some ⟨left, c, cell :: right, before - 1, after + 1, by simp [left_eq], by simp [right_eq]⟩

def write (t : Tape) (b : UInt8) : Tape := { t with cell := b }

def increment (t : Tape) : Tape := t.write (t.cell + 1)

def decrement (t : Tape) : Tape := t.write (t.cell - 1)

theorem pointer_eq (t : Tape) : t.pointer = t.left.length := t.before_eq

theorem length_eq (t : Tape) : t.length = t.cells.length := by
  simp [length, cells, t.before_eq, t.after_eq]; omega

theorem pointer_lt (t : Tape) : t.pointer < t.cells.length := by
  simp [pointer_eq, cells]

theorem cells_pointer (t : Tape) : t.cells[t.pointer]? = some t.cell := by
  simp [pointer_eq, cells]

@[simp] theorem cells_blank : blank.cells = [0] := rfl

@[simp] theorem pointer_blank : blank.pointer = 0 := rfl

/-- The counts follow from the rest. -/
theorem split_eq (t : Tape) : split t.left t.cell t.right = t := by
  obtain ⟨left, cell, right, before, after, rfl, rfl⟩ := t
  rfl

/-- A tape is its cells and its pointer. -/
theorem at?_cells (t : Tape) : at? t.cells t.pointer = some t := by
  simp [at?, cells, pointer_eq, split_eq]

theorem ext_cells {t u : Tape} (cells : t.cells = u.cells) (pointer : t.pointer = u.pointer) :
    t = u := by
  have h := at?_cells t
  rw [cells, pointer, at?_cells] at h
  exact (Option.some.inj h).symm

theorem cells_of_at? {cs : List UInt8} {p : Nat} {t : Tape} (h : at? cs p = some t) :
    t.cells = cs ∧ t.pointer = p := by
  unfold at? at h
  split at h
  · cases h
  · rename_i cell right drop
    cases h
    have lt : p < cs.length := by
      have := congrArg List.length drop
      simp at this
      omega
    refine ⟨?_, by simp [pointer_eq, split, Nat.min_eq_left (Nat.le_of_lt lt)]⟩
    simp only [cells, split, List.reverse_reverse, ← drop]
    exact List.take_append_drop p cs

theorem at?_isSome {cs : List UInt8} {p : Nat} (h : p < cs.length) : (at? cs p).isSome := by
  rw [at?, List.drop_eq_getElem_cons h]
  rfl

theorem cells_moveRight (t : Tape) :
    t.moveRight.cells = if t.right = [] then t.cells ++ [0] else t.cells := by
  obtain ⟨left, cell, right, before, after, _, _⟩ := t
  cases right <;> simp [moveRight, cells]

@[simp] theorem pointer_moveRight (t : Tape) : t.moveRight.pointer = t.pointer + 1 := by
  obtain ⟨left, cell, right, before, after, _, _⟩ := t
  cases right <;> rfl

theorem moveLeft?_eq_none {t : Tape} : t.moveLeft? = none ↔ t.pointer = 0 := by
  obtain ⟨left, cell, right, before, after, rfl, _⟩ := t
  cases left <;> simp [moveLeft?, pointer]

theorem cells_moveLeft? {t u : Tape} (h : t.moveLeft? = some u) :
    u.cells = t.cells ∧ u.pointer + 1 = t.pointer := by
  obtain ⟨left, cell, right, before, after, rfl, _⟩ := t
  cases left with
  | nil => cases h
  | cons c left =>
    cases h
    simp [cells, pointer]

theorem length_moveRight (t : Tape) : t.length ≤ t.moveRight.length := by
  obtain ⟨left, cell, right, before, after, rfl, rfl⟩ := t
  cases right with
  | nil => simp [moveRight, length]
  | cons c right =>
    simp [moveRight, length]
    omega

theorem length_moveLeft? {t u : Tape} (h : t.moveLeft? = some u) : u.length = t.length := by
  rw [length_eq, length_eq, (cells_moveLeft? h).1]

@[simp] theorem pointer_write (t : Tape) (b : UInt8) : (t.write b).pointer = t.pointer := rfl

theorem cells_write (t : Tape) (b : UInt8) : (t.write b).cells = t.cells.set t.pointer b := by
  simp [write, cells, pointer_eq]

end Tape
end TapeMachine
