import TapeMachine.Program.Meaning
import TapeMachine.Proofs.Ticks

/-! The code of a block does what the block means. Where evaluation finishes, as many ticks as it
costs lead to the end of the code; where it stops, ticks lead to the operation it stops at, and
the next one fails; and as long as evaluation goes on, so do the ticks. -/

namespace TapeMachine

/-- The operation that meets an obstacle. -/
def Obstacle.op : Obstacle → Op
  | .leftEnd => .moveLeft
  | .endOfInput => .input

/-- The fault that reports an obstacle at an instruction. -/
def Obstacle.fault (why : Obstacle) (index : Nat) : Fault :=
  match why with
  | .leftEnd => .report ⟨.pointerUnderflow, none, none, some index⟩
  | .endOfInput => .report ⟨.readSymbol, none, some .endOfInput, some index⟩

/-- Only these two actions meet an obstacle, each its own. -/
theorem Store.perform_error {s : Store} {a : Action} {why : Obstacle}
    (h : s.perform a = .error why) : a.op = why.op := by
  cases a with
  | moveRight | increment | decrement | output => cases h
  | moveLeft =>
    rw [perform] at h
    split at h <;> cases h
    rfl
  | input =>
    rw [perform] at h
    split at h <;> cases h
    rfl

theorem Output.faultAt_writeSymbol (o : Output) (index : Int) (b : UInt8) :
    (o.writeSymbol index b).2.faultAt = o.faultAt := by
  simp only [writeSymbol, write]
  cases o.faultAt o.calls <;> rfl

/-- A configuration with the tape, the input left and the output of a store. Its input is a
stream of bytes, and its output never fails. -/
structure Config.Shows (c : Config) (s : Store) : Prop where
  cells : c.tape.cells = s.cells
  pointer : c.tape.pointer = s.pointer
  input : c.input = .ofBytes s.input
  written : c.output.written = s.output
  reliable : ∀ n, c.output.faultAt n = none

namespace Config.Shows

variable {c : Config} {s : Store}

theorem cell (h : c.Shows s) : c.tape.cell = s.cell := by
  have here := c.tape.cells_pointer
  rw [h.cells, h.pointer] at here
  rw [Store.cell, List.getD_eq_getElem?_getD, here]
  rfl

theorem jump (h : c.Shows s) (target : Option Int) : (c.jump target).Shows s :=
  ⟨h.cells, h.pointer, h.input, h.written, h.reliable⟩

theorem write (h : c.Shows s) (b : UInt8) :
    ({ c with tape := c.tape.write b } : Config).Shows (s.set b) := by
  refine ⟨?_, h.pointer, h.input, h.written, h.reliable⟩
  rw [Tape.cells_write, h.cells, h.pointer]
  rfl

/-- An action does to a configuration what it does to the store. -/
theorem perform (h : c.Shows s) (a : Action) (target : Option Int) (index : Nat) :
    match s.perform a with
    | .ok s' => ∃ c', c.perform a.op target index = (.ok (), c') ∧ c'.ip = c.ip ∧ c'.Shows s'
    | .error why => c.perform a.op target index = (.error (why.fault index), c) := by
  cases a with
  | moveRight =>
    refine ⟨_, rfl, rfl, ?_, ?_, h.input, h.written, h.reliable⟩
    · change c.tape.moveRight.cells = _
      have last : c.tape.right = [] ↔ s.pointer + 1 = s.cells.length := by
        rw [← h.cells, ← h.pointer, Tape.pointer_eq, Tape.cells]
        simp [← List.length_eq_zero_iff]
      rw [Tape.cells_moveRight, h.cells]
      simp only [last]
    · change c.tape.moveRight.pointer = _
      rw [Tape.pointer_moveRight, h.pointer]
  | moveLeft =>
    simp only [Store.perform, Action.op, Config.perform, Config.moveLeft]
    by_cases first : s.pointer = 0
    · have stuck := Tape.moveLeft?_eq_none.2 (h.pointer.trans first)
      rw [if_pos first, stuck]
      rfl
    · rw [if_neg first]
      cases moved : c.tape.moveLeft? with
      | none => exact absurd (h.pointer.symm.trans (Tape.moveLeft?_eq_none.1 moved)) first
      | some tape =>
        obtain ⟨cells, pointer⟩ := Tape.cells_moveLeft? moved
        refine ⟨_, rfl, rfl, cells.trans h.cells, ?_, h.input, h.written, h.reliable⟩
        have := h.pointer
        change tape.pointer = s.pointer - 1
        omega
  | increment => exact ⟨_, rfl, rfl, by rw [← h.cell]; exact h.write _⟩
  | decrement => exact ⟨_, rfl, rfl, by rw [← h.cell]; exact h.write _⟩
  | output =>
    have wrote := Output.written_writeSymbol h.reliable index c.tape.cell
    simp only [Store.perform, Action.op, Config.perform, Config.writeSymbol]
    rw [wrote.1]
    refine ⟨_, rfl, rfl, h.cells, h.pointer, h.input, ?_, ?_⟩
    · change (c.output.writeSymbol index c.tape.cell).2.written = _
      rw [wrote.2, h.written, h.cell]
    · change ∀ n, (c.output.writeSymbol index c.tape.cell).2.faultAt n = none
      rw [Output.faultAt_writeSymbol]
      exact h.reliable
  | input =>
    simp only [Store.perform, Action.op, Config.perform, Config.readSymbol, h.input,
      Input.ofBytes]
    cases left : s.input with
    | nil =>
      have same : { c with input := .bytes [] .ended } = c := by
        rw [show (Input.bytes [] .ended) = c.input by rw [h.input, left]; rfl]
      rw [Input.readSymbol_nil]
      simp only [same]
      rfl
    | cons b rest =>
      rw [Input.readSymbol_cons]
      exact ⟨_, rfl, rfl, (h.write b).cells, h.pointer, rfl, h.written, h.reliable⟩

end Config.Shows

/-- Where ticks lead from a configuration, for what evaluation comes to. While it goes on, there
are at least `fuel` ticks. -/
def Config.Follows (c : Config) (p : Program) (finish fuel : Nat) : Option Meaning → Prop
  | none => ∃ n c', fuel ≤ n ∧ c.ticks p n = some c'
  | some (.finished s cost) =>
    ∃ c', c.ticks p cost = some c' ∧ c'.ip = some (finish : Int) ∧ c'.Shows s
  | some (.stopped why index s) =>
    ∃ n c', c.ticks p n = some c' ∧ c'.ip = some (index : Int) ∧ c'.Shows s ∧
      p.instructions[index]? = some ⟨.op why.op, none⟩ ∧
      c'.tick p = (.error (why.fault index), c'.jump (some (index + 1)))

namespace Config.Follows

variable {p : Program} {c c' : Config} {finish fuel n : Nat}

/-- What follows some ticks follows them and the ticks before. -/
theorem before {r : Option Meaning} (some_ticks : 0 < n) (ticks : c.ticks p n = some c')
    (h : c'.Follows p finish fuel r) : c.Follows p finish (fuel + 1) (r.map (.after n)) := by
  cases r with
  | none =>
    obtain ⟨k, d, enough, reached⟩ := h
    exact ⟨n + k, d, by omega, by rw [ticks_add k ticks, reached]⟩
  | some meaning =>
    cases meaning with
    | finished s cost =>
      obtain ⟨d, reached, h⟩ := h
      exact ⟨d, by rw [ticks_add cost ticks, reached], h⟩
    | stopped why index s =>
      obtain ⟨k, d, reached, h⟩ := h
      exact ⟨n + k, d, by rw [ticks_add k ticks, reached], h⟩

end Config.Follows

namespace Block

variable {p : Program} {c : Config} {s : Store} {body rest : Block} {i : Nat}

/-- The start of a loop is one tick: into the body, or to the loop's end. -/
theorem start_tick (code : p.Holds i ((loop body rest).code i)) (ip : c.ip = some (i : Int))
    (shows : c.Shows s) :
    ∃ c', c.ticks p 1 = some c' ∧ c'.Shows s ∧
      c'.ip = some ((if s.cell = 0 then i + 1 + body.size else i + 1 : Nat) : Int) := by
  have tick := Config.tick_at ip code.head
  have entry := shows.jump (some ((i : Int) + 1))
  simp only [Config.perform, entry.cell] at tick
  by_cases zero : s.cell = 0
  · rw [if_pos zero] at tick ⊢
    refine ⟨_, Config.ticks_one tick, entry.jump _, ?_⟩
    rw [show i + 1 + body.size = i + body.size + 1 by omega]
    rfl
  · rw [if_neg zero] at tick ⊢
    exact ⟨_, Config.ticks_one tick, entry, rfl⟩

/-- The end of a loop is one tick: out of it, or back to its start. -/
theorem end_tick (code : p.Holds i ((loop body rest).code i))
    (ip : c.ip = some ((i + 1 + body.size : Nat) : Int)) (shows : c.Shows s) :
    ∃ c', c.ticks p 1 = some c' ∧ c'.Shows s ∧
      c'.ip = some ((if s.cell = 0 then i + body.size + 2 else i : Nat) : Int) := by
  have bracket := code.tail.right.head
  rw [length_code] at bracket
  have tick := Config.tick_at ip bracket
  have exit := shows.jump (some (((i + 1 + body.size : Nat) : Int) + 1))
  simp only [Config.perform, exit.cell] at tick
  by_cases zero : s.cell = 0
  · rw [if_pos zero] at tick ⊢
    refine ⟨_, Config.ticks_one tick, exit, ?_⟩
    rw [show i + body.size + 2 = i + 1 + body.size + 1 by omega]
    rfl
  · rw [if_neg zero] at tick ⊢
    exact ⟨_, Config.ticks_one tick, exit.jump _, rfl⟩

/-- Ticks through the code of a block follow its evaluation. -/
theorem eval_follows (fuel : Nat) (b : Block) (code : p.Holds i (b.code i))
    (ip : c.ip = some (i : Int)) (shows : c.Shows s) :
    c.Follows p (i + b.size) fuel (b.eval fuel i s) := by
  induction fuel generalizing b i c s with
  | zero => exact ⟨0, c, Nat.le_refl 0, rfl⟩
  | succ fuel ih =>
    cases b with
    | done => exact ⟨c, rfl, ip, shows⟩
    | act a rest =>
      have tick := Config.tick_at ip code.head
      have performed := (shows.jump (some ((i : Int) + 1))).perform a none i
      rw [eval]
      cases result : s.perform a with
      | error why =>
        rw [result] at performed
        rw [performed] at tick
        have found := code.head
        rw [Store.perform_error result] at found
        exact ⟨0, c, rfl, ip, shows, found, tick⟩
      | ok s' =>
        rw [result] at performed
        obtain ⟨c', performed, ip', shows'⟩ := performed
        rw [performed] at tick
        have further := ih rest code.tail ip' shows'
        rw [show i + 1 + rest.size = i + (act a rest).size by simp [size]; omega] at further
        exact further.before Nat.one_pos (Config.ticks_one tick)
    | loop body rest =>
      have code_rest := code.tail.right.tail
      rw [length_code, show i + 1 + body.size + 1 = i + body.size + 2 by omega] at code_rest
      have finish : i + body.size + 2 + rest.size = i + (loop body rest).size := by
        rw [size]
        omega
      obtain ⟨c₁, entered, shows₁, ip₁⟩ := start_tick code ip shows
      rw [eval]
      by_cases zero : s.cell = 0
      · -- not entered: both brackets, and what follows the loop
        rw [if_pos zero] at ip₁ ⊢
        obtain ⟨c₂, left, shows₂, ip₂⟩ := end_tick code ip₁ shows₁
        rw [if_pos zero] at ip₂
        have further := ih rest code_rest ip₂ shows₂
        rw [finish] at further
        have brackets : c.ticks p 2 = some c₂ := by rw [Config.ticks_add 1 entered, left]
        exact further.before Nat.two_pos brackets
      rw [if_neg zero] at ip₁ ⊢
      have inside := ih body code.tail.left ip₁ shows₁
      cases result : body.eval fuel (i + 1) s with
      | none =>
        rw [result] at inside
        exact inside.before Nat.one_pos entered
      | some meaning =>
        rw [result] at inside
        cases meaning with
        | stopped why index s' => exact inside.before Nat.one_pos entered
        | finished s' cost =>
          -- one round: the first bracket, the body, and the last bracket
          obtain ⟨c₂, ran, ip₂, shows₂⟩ := inside
          obtain ⟨c₃, turned, shows₃, ip₃⟩ := end_tick code ip₂ shows₂
          have round : c.ticks p (cost + 2) = some c₃ := by
            rw [show cost + 2 = 1 + (cost + 1) by omega, Config.ticks_add (cost + 1) entered,
              Config.ticks_add 1 ran, turned]
          have rounds : 0 < cost + 2 := Nat.succ_pos _
          by_cases done : s'.cell = 0
          · rw [if_pos done] at ip₃
            have further := ih rest code_rest ip₃ shows₃
            rw [finish] at further
            simp only [if_pos done]
            exact further.before rounds round
          · rw [if_neg done] at ip₃
            simp only [if_neg done]
            exact (ih (loop body rest) code ip₃ shows₃).before rounds round

end Block
end TapeMachine
