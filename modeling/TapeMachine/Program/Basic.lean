import TapeMachine.Program.Op

/-! Programs: instructions in order, each with the place in the source it came from if it came
from one. A program grows by `emit`, is changed by `patch`, and is left as it is once frozen.
Indexes below zero count from the end. -/

namespace TapeMachine

/-- A place in a source text. Lines and columns count from 1, and columns count bytes. -/
structure Location where
  line : Int
  column : Int
  deriving DecidableEq, Repr

/-- An instruction and where it came from: one entry of a program, so that the two cannot
drift apart. -/
structure Entry where
  instruction : Instruction
  location : Option Location := none
  deriving DecidableEq, Repr

def Entry.retarget (e : Entry) (target : Option Int) : Entry :=
  { e with instruction := { e.instruction with target := target } }

structure Program where
  entries : Array Entry := #[]
  frozen : Bool := false
  deriving DecidableEq, Repr

namespace Program

def empty : Program := {}

def length (p : Program) : Nat := p.entries.size

def instructions (p : Program) : List Instruction := p.entries.toList.map (·.instruction)

def container (p : Program) : Container := if p.frozen then .frozen else .growing

/-- The position that an index stands for: itself, or counted from the end if negative. -/
def position? (p : Program) (i : Int) : Option Nat :=
  if 0 ≤ i then if i < p.length then some i.toNat else none
  else if -p.length ≤ i then some (i + p.length).toNat else none

/-- Why an index has no position: it lies outside the program, or has more than 64 bits. -/
def outside (p : Program) (i : Int) : Fault :=
  if -9223372036854775808 ≤ i ∧ i < 9223372036854775808 then .indexOutside p.container
  else .indexTooLarge

def get (p : Program) (i : Int) : Except Fault Instruction :=
  match p.position? i with
  | none => .error (p.outside i)
  | some k =>
    match p.entries[k]? with
    | none => .error (p.outside i)
    | some e => .ok e.instruction

/-- Appends an instruction and answers with its index. -/
def emit (p : Program) (i : Instruction) (loc : Option Location) : Except Fault Nat × Program :=
  match p with
  | ⟨entries, true⟩ => (.error .programFrozen, ⟨entries, true⟩)
  | ⟨entries, false⟩ => (.ok entries.size, ⟨entries.push ⟨i, loc⟩, false⟩)

/-- Gives the instruction at an index another target. -/
def patch (p : Program) (i : Int) (target : Option Int) : Except Fault Unit × Program :=
  if p.frozen then (.error .programFrozen, p)
  else
    match p.position? i with
    | none => (.error (p.outside i), p)
    | some k => (.ok (), ⟨p.entries.modify k fun e => e.retarget target, false⟩)

def freeze (p : Program) : Program := { p with frozen := true }

/-- Where an instruction came from. Here an index is never counted from the end. -/
def location (p : Program) (i : Int) : Option Location :=
  if 0 ≤ i then p.entries[i.toNat]? >>= Entry.location else none

/-- The symbols of all instructions, unless one has none. -/
def symbols (p : Program) : Except Fault (List Char) := p.instructions.mapM Instruction.symbol

def sourceText (p : Program) : Except Fault String := p.symbols.map String.ofList

/-- A frozen program of the given entries. -/
def ofEntries (entries : List Entry) : Program := ⟨entries.toArray, true⟩

@[simp] theorem length_empty : empty.length = 0 := rfl

theorem length_eq (p : Program) : p.length = p.instructions.length := by
  simp [length, instructions]

@[simp] theorem position?_natCast (p : Program) (k : Nat) :
    p.position? k = if k < p.length then some k else none := by
  simp [position?]

theorem get_natCast (p : Program) (k : Nat) :
    p.get k = match p.entries[k]? with
      | some e => .ok e.instruction
      | none => .error (p.outside k) := by
  unfold get
  rw [position?_natCast]
  split <;> rename_i h <;> split at h <;> simp_all [length]

theorem emit_growing {p : Program} (h : p.frozen = false) (i : Instruction)
    (loc : Option Location) :
    p.emit i loc = (.ok p.length, ⟨p.entries.push ⟨i, loc⟩, false⟩) := by
  obtain ⟨entries, frozen⟩ := p
  cases h
  rfl

theorem emit_frozen {p : Program} (h : p.frozen = true) (i : Instruction)
    (loc : Option Location) : p.emit i loc = (.error .programFrozen, p) := by
  obtain ⟨entries, frozen⟩ := p
  cases h
  rfl

theorem patch_frozen {p : Program} (h : p.frozen = true) (i : Int) (target : Option Int) :
    p.patch i target = (.error .programFrozen, p) := by
  simp [patch, h]

@[simp] theorem instructions_freeze (p : Program) :
    p.freeze.instructions = p.instructions := rfl

@[simp] theorem freeze_freeze (p : Program) : p.freeze.freeze = p.freeze := rfl

end Program
end TapeMachine
