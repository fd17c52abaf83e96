import TapeMachine.Program.Basic
import TapeMachine.Program.Scanner

/-! Where the bytes of a source stand. The scanner counts lines and columns as it goes; here both
are told from the bytes in front alone, and the places of the operations are listed in order. -/

namespace TapeMachine

/-- The line on which bytes end: one more than there are line feeds among them. -/
def lineBehind (bytes : List UInt8) : Nat := 1 + bytes.count 0x0A

/-- The column behind bytes: one more than there are since the last line feed, or since the
start. -/
def columnBehind (bytes : List UInt8) : Nat := 1 + (bytes.reverse.takeWhile (· ≠ 0x0A)).length

namespace Place

/-- The place behind bytes that start at this one. -/
def behind (p : Place) (bytes : List UInt8) : Place := bytes.foldl past p

@[simp] theorem behind_nil (p : Place) : p.behind [] = p := rfl

@[simp] theorem behind_cons (p : Place) (b : UInt8) (bytes : List UInt8) :
    p.behind (b :: bytes) = (p.past b).behind bytes := rfl

/-- Counted byte by byte from the start, or told from all the bytes at once. -/
theorem behind_start (bytes : List UInt8) :
    ({} : Place).behind bytes = ⟨bytes.length, lineBehind bytes, columnBehind bytes⟩ := by
  -- on the bytes from the last to the first, as each byte decides the place behind it
  obtain ⟨backward, rfl⟩ : ∃ backward, bytes = backward.reverse := ⟨bytes.reverse, by simp⟩
  induction backward with
  | nil => rfl
  | cons b backward ih =>
    rw [List.reverse_cons, behind, List.foldl_append]
    change (({} : Place).behind backward.reverse).past b = _
    rw [ih, past]
    by_cases feed : b = 0x0A
    · subst feed
      simp [lineBehind, columnBehind, Nat.add_assoc]
    · simp [lineBehind, columnBehind, feed, List.count_append]
      omega

end Place

namespace Scanner

/-- The places of the operations among bytes that start at a place. -/
def marks : List UInt8 → Place → List Location
  | [], _ => []
  | b :: rest, p =>
    match Op.ofByte? b with
    | some _ => ⟨p.line, p.column⟩ :: marks rest (p.past b)
    | none => marks rest (p.past b)

theorem marks_append (front more : List UInt8) (p : Place) :
    marks (front ++ more) p = marks front p ++ marks more (p.behind front) := by
  induction front generalizing p with
  | nil => rfl
  | cons b front ih =>
    rw [List.cons_append, marks, marks, ih]
    cases Op.ofByte? b <;> rfl

end Scanner

/-- Where each instruction of a program came from. -/
def Program.locations (p : Program) : List (Option Location) := p.entries.toList.map (·.location)

namespace Program

variable {p q : Program}

theorem location_eq (p : Program) (k : Nat) : p.location k = p.locations[k]?.join := by
  rw [location, if_pos (Int.natCast_nonneg k), locations, List.getElem?_map, Int.toNat_natCast,
    ← Array.getElem?_toList]
  cases p.entries.toList[k]? <;> rfl

/-- Emitting adds a place behind the others. -/
theorem locations_emit {i : Instruction} {loc : Option Location} {k : Nat}
    (emitted : p.emit i loc = (.ok k, q)) : q.locations = p.locations ++ [loc] := by
  obtain ⟨entries, frozen⟩ := p
  cases frozen with
  | true => cases emitted
  | false =>
    cases emitted
    simp [locations]

/-- A change of target leaves an entry where it came from. -/
theorem map_location_modify (es : List Entry) (k : Nat) (target : Option Int) :
    (es.modify k fun e => e.retarget target).map (·.location) = es.map (·.location) := by
  induction es generalizing k with
  | nil => simp
  | cons e es ih =>
    cases k with
    | zero => rfl
    | succ k => simp [ih]

theorem locations_patch {i : Int} {target : Option Int} {told : Unit}
    (patched : p.patch i target = (.ok told, q)) : q.locations = p.locations := by
  unfold patch at patched
  split at patched
  · cases patched
  · split at patched
    · cases patched
    · cases patched
      rw [locations, Array.toList_modify, map_location_modify, locations]

end Program
end TapeMachine
