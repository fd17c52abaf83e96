import TapeMachine.Machine.Config
import TapeMachine.Proofs.Compilation

/-! What instructions do to a configuration when nothing watches or traces: one tick hands out
the instruction at the index and executes it. Every way of driving a machine comes down to
ticks. -/

namespace TapeMachine

/-- Code that stands in a program from an index on. -/
def Program.Holds (p : Program) (k : Nat) (code : List Instruction) : Prop :=
  code <+: p.instructions.drop k

namespace Program.Holds

variable {p : Program} {k : Nat} {i : Instruction} {front back : List Instruction}

theorem left (h : p.Holds k (front ++ back)) : p.Holds k front :=
  (List.prefix_append front back).trans h

theorem right (h : p.Holds k (front ++ back)) : p.Holds (k + front.length) back := by
  obtain ⟨rest, whole⟩ := h
  have behind := congrArg (List.drop front.length) whole
  rw [List.append_assoc, List.drop_left, List.drop_drop] at behind
  exact ⟨rest, behind⟩

theorem tail (h : p.Holds k (i :: back)) : p.Holds (k + 1) back :=
  Program.Holds.right (show p.Holds k ([i] ++ back) from h)

theorem head (h : p.Holds k (i :: back)) : p.instructions[k]? = some i := by
  obtain ⟨rest, h⟩ := h
  rw [← Nat.add_zero k, ← List.getElem?_drop, ← h]
  rfl

end Program.Holds

theorem Program.Encodes.holds {p : Program} {b : Block} (h : p.Encodes b) :
    p.Holds 0 (b.code 0) := by
  refine ⟨[], ?_⟩
  rw [List.append_nil, List.drop_zero, h.code]

theorem Program.get_of_instruction {p : Program} {k : Nat} {i : Instruction}
    (h : p.instructions[k]? = some i) : p.get k = .ok i := by
  rw [instructions, List.getElem?_map, Option.map_eq_some_iff] at h
  obtain ⟨e, found, rfl⟩ := h
  rw [get_natCast, ← Array.getElem?_toList, found]

theorem Program.lt_length {p : Program} {k : Nat} {i : Instruction}
    (h : p.instructions[k]? = some i) : k < p.length := by
  rw [length_eq]
  exact (List.getElem?_eq_some_iff.1 h).1

/-- Every instruction of the program is known, and every jump leads to one. -/
structure Program.Sound (p : Program) : Prop where
  known : ∀ i ∈ p.instructions, ∃ o, i.opcode = .op o
  jumps : ∀ i ∈ p.instructions, i.opcode = .op .loopStart ∨ i.opcode = .op .loopEnd →
    ∃ k : Nat, i.target = some (k : Int) ∧ k < p.length

theorem Program.Linked.sound {p : Program} {ops : List Op} (h : p.Linked ops) : p.Sound := by
  constructor
  · intro i mem
    obtain ⟨k, found⟩ := List.getElem?_of_mem mem
    have opcode := h.opcode k
    rw [found, Option.map_some] at opcode
    obtain ⟨o, _, known⟩ := Option.map_eq_some_iff.1 opcode.symm
    exact ⟨o, known.symm⟩
  · intro i mem bracket
    obtain ⟨k, found⟩ := List.getElem?_of_mem mem
    obtain ⟨opcode, target⟩ := i
    rcases bracket with rfl | rfl
    · obtain ⟨e, rfl, _, inside, _⟩ := h.start k target found
      exact ⟨e, rfl, inside⟩
    · obtain ⟨s, rfl, _, back⟩ := h.finish k target found
      exact ⟨s, rfl, Program.lt_length back⟩

theorem compile_sound {source : Source} {p : Program} (compiled : compile source = .ok p) :
    p.Sound := by
  obtain ⟨_, b, _, _, encodes⟩ := compile_encodes compiled
  exact encodes.linked.sound

/-- What stands at an index of a sound program. -/
theorem Program.Sound.at {p : Program} (h : p.Sound) {k : Nat} (inside : k < p.length) :
    ∃ o t, p.instructions[k]? = some ⟨.op o, t⟩ ∧
      (o = .loopStart ∨ o = .loopEnd → ∃ j : Nat, t = some (j : Int) ∧ j < p.length) := by
  rw [length_eq] at inside
  have mem := List.getElem_mem inside
  obtain ⟨o, known⟩ := h.known _ mem
  refine ⟨o, p.instructions[k].target, ?_, fun bracket => h.jumps _ mem ?_⟩
  · rw [List.getElem?_eq_getElem inside, ← known]
  · rw [known]
    rcases bracket with rfl | rfl
    · exact .inl rfl
    · exact .inr rfl

namespace Config

/-- Hands out the instruction at the index and executes it. -/
def tick (c : Config) (p : Program) : Except Fault Unit × Config :=
  match c.ip with
  | none => (.error (.lostIndex p.container), c)
  | some i =>
    match p.get i with
    | .error f => (.error f, c)
    | .ok instruction => (c.jump (some (i + 1))).execute instruction i

/-- The configuration after `n` instructions, unless one of them fails. -/
def ticks (p : Program) : Nat → Config → Option Config
  | 0, c => some c
  | n + 1, c =>
    match c.tick p with
    | (.error _, _) => none
    | (.ok (), c) => ticks p n c

variable {p : Program} {c c' : Config}

theorem tick_at {k : Nat} {o : Op} {t : Option Int} (ip : c.ip = some (k : Int))
    (h : p.instructions[k]? = some ⟨.op o, t⟩) :
    c.tick p = (c.jump (some (k + 1))).perform o t k := by
  simp only [tick, ip, Program.get_of_instruction h, execute]

/-- At the end of the program there is nothing to tick. -/
theorem tick_end (ip : c.ip = some (p.length : Int)) :
    c.tick p = (.error (p.outside p.length), c) := by
  have none : p.get p.length = .error (p.outside p.length) := by
    rw [Program.get_natCast, Program.length, Array.getElem?_size]
  simp only [tick, ip, none]

theorem ticks_one (h : c.tick p = (.ok (), c')) : c.ticks p 1 = some c' := by
  simp only [ticks, h]

theorem ticks_add {n : Nat} (k : Nat) (h : c.ticks p n = some c') :
    c.ticks p (n + k) = c'.ticks p k := by
  induction n generalizing c with
  | zero =>
    cases h
    rw [Nat.zero_add]
  | succ n ih =>
    unfold ticks at h
    rw [Nat.succ_add, ticks]
    split at h
    · cases h
    · exact ih h

/-! ## The index stays in the program -/

/-- The index is that of an instruction, or stands at the end. -/
def Inside (c : Config) (p : Program) : Prop := ∃ k : Nat, c.ip = some (k : Int) ∧ k ≤ p.length

/-- Only a bracket changes the index, and only to its target. -/
theorem perform_ip (c : Config) (o : Op) (target : Option Int) (index : Int) :
    (c.perform o target index).2.ip = c.ip ∨
      (o = .loopStart ∨ o = .loopEnd) ∧ (c.perform o target index).2.ip = target := by
  cases o with
  | moveRight | increment | decrement | output => exact .inl rfl
  | moveLeft =>
    left
    rw [perform, moveLeft]
    split <;> rfl
  | input =>
    left
    rw [perform, readSymbol]
    split <;> rfl
  | loopStart =>
    rw [perform]
    by_cases zero : c.tape.cell = 0
    · rw [if_pos zero]
      exact .inr ⟨.inl rfl, rfl⟩
    · rw [if_neg zero]
      exact .inl rfl
  | loopEnd =>
    rw [perform]
    by_cases zero : c.tape.cell = 0
    · rw [if_pos zero]
      exact .inl rfl
    · rw [if_neg zero]
      exact .inr ⟨.inr rfl, rfl⟩

theorem tick_inside (sound : p.Sound) (inside : c.Inside p) : (c.tick p).2.Inside p := by
  obtain ⟨k, ip, le⟩ := inside
  rcases Nat.lt_or_eq_of_le le with lt | rfl
  · obtain ⟨o, t, found, target⟩ := sound.at lt
    rw [tick_at ip found]
    rcases perform_ip (c.jump (some (k + 1))) o t k with kept | ⟨bracket, jumped⟩
    · exact ⟨k + 1, by rw [kept]; rfl, lt⟩
    · obtain ⟨j, rfl, inside⟩ := target bracket
      exact ⟨j, jumped, Nat.le_of_lt inside⟩
  · rw [tick_end ip]
    exact ⟨p.length, ip, Nat.le_refl _⟩

end Config
end TapeMachine
