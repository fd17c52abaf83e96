import TapeMachine.Machine.Step
import TapeMachine.Proofs.Ticks

/-! Code that was moved. Behind other code, the code of a block is what it is on its own with
every jump moved by the same distance, and it does there what it does on its own, with every index
moved. So two sources, one behind the other, compile to the one's program and the other's behind
it. -/

namespace TapeMachine

def Instruction.shift (d : Nat) (i : Instruction) : Instruction :=
  { i with target := i.target.map (· + (d : Int)) }

/-- A fault with the index that it reports moved. -/
def Fault.shift (d : Nat) : Fault → Fault
  | .report r => .report { r with ip := r.ip.map (· + (d : Int)) }
  | f => f

theorem Fault.aftermath_shift (d : Nat) (f : Fault) : (f.shift d).aftermath = f.aftermath := by
  cases f <;> rfl

theorem Block.code_shift (b : Block) (i d : Nat) :
    b.code (i + d) = (b.code i).map (Instruction.shift d) := by
  induction b generalizing i with
  | done => rfl
  | act a rest ih =>
    rw [code, code, List.map_cons, ← ih, Nat.add_right_comm]
    rfl
  | loop body rest hb hr =>
    have start : ((i + d + body.size + 1 : Nat) : Int) = ((i + body.size + 1 : Nat) : Int) + d := by
      omega
    have finish : ((i + d : Nat) : Int) = (i : Int) + d := by omega
    rw [code, code, List.map_cons, List.map_append, List.map_cons, ← hb, ← hr, start, finish,
      Nat.add_right_comm i d 1, show i + d + body.size + 2 = i + body.size + 2 + d by omega]
    rfl

/-! ## Programs -/

/-- A program that is one program with another behind it. -/
def Program.Joins (p q w : Program) : Prop :=
  w.instructions = p.instructions ++ q.instructions.map (Instruction.shift p.length)

namespace Program.Joins

variable {p q w : Program} {k : Nat} {i : Instruction}

theorem length (joined : p.Joins q w) : w.length = p.length + q.length := by
  rw [length_eq, joined, List.length_append, List.length_map, ← length_eq, ← length_eq]

theorem front (joined : p.Joins q w) (found : p.instructions[k]? = some i) :
    w.instructions[k]? = some i := by
  have lt := Program.lt_length found
  rw [length_eq] at lt
  rw [joined, List.getElem?_append_left lt, found]

theorem back (joined : p.Joins q w) (found : q.instructions[k]? = some i) :
    w.instructions[k + p.length]? = some (i.shift p.length) := by
  have behind : p.instructions.length ≤ k + p.length := by
    rw [← length_eq]
    exact Nat.le_add_left _ _
  rw [joined, List.getElem?_append_right behind, ← length_eq, Nat.add_sub_cancel,
    List.getElem?_map, found]
  rfl

end Program.Joins

/-- Sources that compile, one behind the other, compile to their programs, one behind the
other. -/
theorem compile_joins {front back whole : Source} {p q : Program}
    (compiled : compile front = .ok p) (compiled' : compile back = .ok q)
    {bytes more : List UInt8} (read : front.read = .ok bytes) (read' : back.read = .ok more)
    (joined : whole.read = .ok (bytes ++ more)) :
    ∃ w, compile whole = .ok w ∧ p.Joins q w := by
  obtain ⟨_, b, again, spelled, encodes⟩ := compile_encodes compiled
  cases read.symm.trans again
  obtain ⟨_, b', again, spelled', encodes'⟩ := compile_encodes compiled'
  cases read'.symm.trans again
  have both : (b.append b').ops = opsOf (bytes ++ more) := by
    rw [Block.ops_append, opsOf_append, spelled, spelled']
  obtain ⟨w, compiled, whole_encodes⟩ := compile_block both
  refine ⟨w, ?_, ?_⟩
  · rw [compile_eq_bytes, joined]
    exact compiled
  · rw [Program.Joins, whole_encodes.code, Block.code_append, encodes.code, encodes'.code,
      Block.code_shift, encodes.length]

/-! ## Instructions -/

namespace Config

def shift (d : Nat) (c : Config) : Config := c.jump (c.ip.map (· + (d : Int)))

variable {c d : Config} {p q w : Program} {k : Nat}

theorem perform_shift (c : Config) (o : Op) (t : Option Int) (index : Int) (d : Nat) :
    (c.shift d).perform o (t.map (· + (d : Int))) (index + d) =
      ((c.perform o t index).1.mapError (Fault.shift d), (c.perform o t index).2.shift d) := by
  cases o with
  | moveRight | increment | decrement => rfl
  | moveLeft =>
    have same : (c.shift d).tape.moveLeft? = c.tape.moveLeft? := rfl
    unfold perform moveLeft
    rw [same]
    cases c.tape.moveLeft? <;> rfl
  | loopStart | loopEnd =>
    unfold perform
    by_cases zero : c.tape.cell = 0
    · have zero' : (c.shift d).tape.cell = 0 := zero
      simp only [if_pos zero, if_pos zero']
      rfl
    · have zero' : (c.shift d).tape.cell ≠ 0 := zero
      simp only [if_neg zero, if_neg zero']
      rfl
  | output =>
    have same : (c.shift d).output.write (c.shift d).tape.cell = c.output.write c.tape.cell := rfl
    unfold perform writeSymbol Output.writeSymbol
    rw [same]
    obtain ⟨why | _, output⟩ := c.output.write c.tape.cell
    · by_cases trouble : why.kind.isStreamFailure = true
      · simp only [if_pos trouble]
        rfl
      · simp only [if_neg trouble]
        rfl
    · rfl
  | input =>
    have same : (c.shift d).input.read = c.input.read := rfl
    unfold perform readSymbol Input.readSymbol
    rw [same]
    obtain ⟨why | (_ | ⟨b, bs⟩), input⟩ := c.input.read
    · by_cases trouble : why.kind.isStreamFailure = true
      · simp only [if_pos trouble]
        rfl
      · simp only [if_neg trouble]
        rfl
    · rfl
    · rfl

theorem tick_front (joined : p.Joins q w) (sound : p.Sound) (ip : c.ip = some (k : Int))
    (lt : k < p.length) : c.tick w = c.tick p := by
  obtain ⟨o, t, found, _⟩ := sound.at lt
  rw [tick_at ip found, tick_at ip (joined.front found)]

theorem tick_back (joined : p.Joins q w) (sound : q.Sound) (ip : c.ip = some (k : Int))
    (lt : k < q.length) :
    (c.shift p.length).tick w =
      ((c.tick q).1.mapError (Fault.shift p.length), (c.tick q).2.shift p.length) := by
  obtain ⟨o, t, found, _⟩ := sound.at lt
  have moved : (c.shift p.length).ip = some ((k + p.length : Nat) : Int) := by
    rw [shift, jump, ip]
    rfl
  have next : (c.shift p.length).jump (some (((k + p.length : Nat) : Int) + 1)) =
      (c.jump (some (k + 1))).shift p.length := by
    simp only [shift, jump, Option.map_some]
    congr 2
    omega
  rw [tick_at ip found, tick_at moved (joined.back found), next]
  exact perform_shift (c.jump (some ((k : Int) + 1))) o t k p.length

end Config
end TapeMachine
