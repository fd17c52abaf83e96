import TapeMachine.Program.Basic
import TapeMachine.Program.Block

/-! The code of a block: its operations as instructions, where the brackets of a loop point at
each other. What is stated of a program by indexes (which bracket points where, what stands
between two brackets) is derived here from the structure of the block. -/

namespace TapeMachine

/-- The action that an operation is, if it is no bracket. -/
def Op.action? : Op → Option Action
  | .moveRight => some .moveRight
  | .moveLeft => some .moveLeft
  | .increment => some .increment
  | .decrement => some .decrement
  | .output => some .output
  | .input => some .input
  | .loopStart | .loopEnd => none

theorem Op.eq_of_action? {o : Op} {a : Action} (h : o.action? = some a) : o = a.op := by
  cases o <;> cases h <;> rfl

/-- An operation is a bracket or an action. -/
theorem Op.bracket_or_action (o : Op) :
    o = .loopStart ∨ o = .loopEnd ∨ ∃ a : Action, o = a.op := by
  cases h : o.action? with
  | some a => exact .inr (.inr ⟨a, Op.eq_of_action? h⟩)
  | none => cases o <;> simp_all [Op.action?]

theorem Action.op_ne_loopStart (a : Action) : a.op ≠ .loopStart := by cases a <;> decide

theorem Action.op_ne_loopEnd (a : Action) : a.op ≠ .loopEnd := by cases a <;> decide

@[simp] theorem Action.delta_op (a : Action) : a.op.delta = 0 := by cases a <;> rfl

namespace Block

/-- The instructions of a block whose first has the given index. -/
def code : Nat → Block → List Instruction
  | _, done => []
  | i, act a rest => ⟨.op a.op, none⟩ :: code (i + 1) rest
  | i, loop body rest =>
    ⟨.op .loopStart, some ((i + body.size + 1 : Nat) : Int)⟩ :: (code (i + 1) body ++
      ⟨.op .loopEnd, some (i : Int)⟩ :: code (i + body.size + 2) rest)

@[simp] theorem length_code (b : Block) (i : Nat) : (b.code i).length = b.size := by
  induction b generalizing i with
  | done => rfl
  | act a rest ih => simp [code, size, ih]
  | loop body rest hb hr => simp [code, size, hb, hr]; omega

@[simp] theorem opcodes_code (b : Block) (i : Nat) :
    (b.code i).map (·.opcode) = b.ops.map .op := by
  induction b generalizing i with
  | done => rfl
  | act a rest ih => simp [code, ops, ih]
  | loop body rest hb hr => simp [code, ops, hb, hr]

theorem code_append (b c : Block) (i : Nat) :
    (b.append c).code i = b.code i ++ c.code (i + b.size) := by
  induction b generalizing i with
  | done => rfl
  | act a rest ih =>
    rw [append, code, ih, code, List.cons_append, size]
    congr 3
    omega
  | loop body rest hb hr =>
    rw [append, code, hr, code, size, List.cons_append, List.append_assoc, List.cons_append]
    congr 5
    omega

/-! ## Blocks are balanced -/

@[simp] theorem balance_ops (b : Block) : balance b.ops = 0 := by
  induction b with
  | done => rfl
  | act a rest ih => simp [ops, ih]
  | loop body rest hb hr => simp [ops, hb, hr, Op.delta]

/-- The front of an extended sequence is a front of the sequence, or goes beyond it. -/
theorem front_append_cases {front ops more : List Op} (h : front <+: ops ++ more) :
    front <+: ops ∨ ∃ rest, rest <+: more ∧ front = ops ++ rest := by
  rcases List.prefix_or_prefix_of_prefix h (List.prefix_append ops more) with short | long
  · exact .inl short
  · obtain ⟨rest, rfl⟩ := long
    exact .inr ⟨rest, (List.prefix_append_right_inj ops).1 h, rfl⟩

theorem balanced_ops (b : Block) : Balanced b.ops := by
  induction b with
  | done => exact balanced_nil
  | act a rest ih =>
    refine ⟨?_, balance_ops (act a rest)⟩
    intro front h
    rcases List.prefix_cons_iff.1 h with rfl | ⟨tail, rfl, inside⟩
    · exact Int.le_refl 0
    · have := ih.started tail inside
      simpa using this
  | loop body rest hb hr =>
    refine ⟨?_, balance_ops (loop body rest)⟩
    intro front h
    rcases List.prefix_cons_iff.1 h with rfl | ⟨tail, rfl, inside⟩
    · exact Int.le_refl 0
    rcases front_append_cases inside with short | ⟨behind, beyond, rfl⟩
    · have := hb.started tail short
      simp only [balance_cons, Op.delta]
      omega
    rcases List.prefix_cons_iff.1 beyond with rfl | ⟨last, rfl, behindLoop⟩
    · simp [Op.delta]
    · have := hr.started last behindLoop
      simp only [balance_cons, balance_append, balance_ops, Op.delta]
      omega

/-! ## Where the brackets of a block stand -/

/-- A loop stands at position `s` of a block whose first operation has index `i`. -/
structure LoopAt (b : Block) (i s : Nat) (body : Block) : Prop where
  code : ∃ front back, front.length = s ∧
    b.code i = front ++ ((Block.loop body done).code (i + s) ++ back)
  ops : ∃ front back, front.length = s ∧ b.ops = front ++ ((Block.loop body done).ops ++ back)

namespace LoopAt

variable {b body inner rest : Block} {i s : Nat}

theorem head (body rest : Block) (i : Nat) : LoopAt (loop body rest) i 0 body :=
  ⟨⟨[], rest.code (i + body.size + 2), rfl, by simp [Block.code]⟩,
    ⟨[], rest.ops, rfl, by simp [Block.ops]⟩⟩

theorem behindAct (a : Action) (h : LoopAt rest (i + 1) s body) :
    LoopAt (act a rest) i (s + 1) body := by
  obtain ⟨⟨front, back, hl, hc⟩, fops, bops, ho, hops⟩ := h
  refine ⟨⟨⟨.op a.op, none⟩ :: front, back, by simp [hl], ?_⟩,
    a.op :: fops, bops, by simp [ho], ?_⟩
  · rw [Block.code, hc, show i + 1 + s = i + (s + 1) by omega, List.cons_append]
  · rw [Block.ops, hops, List.cons_append]

theorem inBody (rest : Block) (h : LoopAt body (i + 1) s inner) :
    LoopAt (loop body rest) i (s + 1) inner := by
  obtain ⟨⟨front, back, hl, hc⟩, fops, bops, ho, hops⟩ := h
  refine ⟨⟨⟨.op .loopStart, some ((i + body.size + 1 : Nat) : Int)⟩ :: front,
    back ++ ⟨.op .loopEnd, some (i : Int)⟩ :: rest.code (i + body.size + 2), by simp [hl], ?_⟩,
    .loopStart :: fops, bops ++ .loopEnd :: rest.ops, by simp [ho], ?_⟩
  · rw [Block.code, hc, show i + 1 + s = i + (s + 1) by omega, List.cons_append,
      List.append_assoc, List.append_assoc]
  · rw [Block.ops, hops, List.cons_append, List.append_assoc, List.append_assoc]

theorem behindLoop (body : Block) (h : LoopAt rest (i + body.size + 2) s inner) :
    LoopAt (loop body rest) i (body.size + 2 + s) inner := by
  obtain ⟨⟨front, back, hl, hc⟩, fops, bops, ho, hops⟩ := h
  refine ⟨⟨(loop body done).code i ++ front, back, by simp [size, hl], ?_⟩,
    ⟨(loop body done).ops ++ fops, bops, by simp [length_ops, size, ho], ?_⟩⟩
  · rw [Block.code, hc, show i + body.size + 2 + s = i + (body.size + 2 + s) by omega]
    simp [Block.code]
  · rw [Block.ops, hops]
    simp [Block.ops]

/-- The first bracket of a loop that stands at `s`. -/
theorem start (h : LoopAt b i s body) :
    (b.code i)[s]? = some ⟨.op .loopStart, some ((i + s + body.size + 1 : Nat) : Int)⟩ := by
  obtain ⟨front, back, hl, hc⟩ := h.code
  rw [hc, List.getElem?_append_right (by omega), hl, Nat.sub_self, Block.code]
  rfl

/-- The last bracket of a loop that stands at `s`. -/
theorem finish (h : LoopAt b i s body) :
    (b.code i)[s + body.size + 1]? = some ⟨.op .loopEnd, some ((i + s : Nat) : Int)⟩ := by
  obtain ⟨front, back, hl, hc⟩ := h.code
  rw [hc, List.getElem?_append_right (by omega), Block.code,
    show s + body.size + 1 - front.length = body.size + 1 by omega]
  simp [Block.code]

theorem lt_size (h : LoopAt b i s body) : s + body.size + 1 < b.size := by
  have := (List.getElem?_eq_some_iff.1 h.finish).1
  rwa [length_code] at this

/-- What stands between the brackets of a loop. -/
theorem between (h : LoopAt b i s body) :
    (b.ops.take (s + body.size + 1)).drop (s + 1) = body.ops := by
  obtain ⟨front, back, hl, ho⟩ := h.ops
  rw [ho, List.drop_take, List.drop_append, hl, List.drop_eq_nil_of_le (by omega),
    show s + 1 - s = 1 by omega, show s + body.size + 1 - (s + 1) = body.size by omega]
  simp [Block.ops, ← length_ops]

end LoopAt

/-- Every bracket of a block belongs to a loop that stands in it. -/
theorem loopAt_of_bracket {b : Block} {i k : Nat} {o : Op} {t : Option Int}
    (h : (b.code i)[k]? = some ⟨.op o, t⟩) (bracket : o = .loopStart ∨ o = .loopEnd) :
    ∃ s body, LoopAt b i s body ∧
      (o = .loopStart ∧ k = s ∨ o = .loopEnd ∧ k = s + body.size + 1) := by
  induction b generalizing i k with
  | done => simp [code] at h
  | act a rest ih =>
    cases k with
    | zero =>
      simp only [code, List.getElem?_cons_zero, Option.some.injEq, Instruction.mk.injEq,
        Opcode.op.injEq] at h
      rcases bracket with rfl | rfl
      · exact absurd h.1 a.op_ne_loopStart
      · exact absurd h.1 a.op_ne_loopEnd
    | succ k =>
      rw [code, List.getElem?_cons_succ] at h
      obtain ⟨s, body, loop, place⟩ := ih h
      exact ⟨s + 1, body, loop.behindAct a, by grind⟩
  | loop body rest hb hr =>
    -- the first bracket, the body, the last bracket, or what follows the loop
    cases k with
    | zero =>
      simp only [code, List.getElem?_cons_zero, Option.some.injEq, Instruction.mk.injEq,
        Opcode.op.injEq] at h
      exact ⟨0, body, .head body rest i, .inl ⟨h.1.symm, rfl⟩⟩
    | succ k =>
      rw [code, List.getElem?_cons_succ] at h
      rcases Nat.lt_trichotomy k body.size with inside | rfl | behind
      · rw [List.getElem?_append_left (by simpa using inside)] at h
        obtain ⟨s, inner, loop, place⟩ := hb h
        exact ⟨s + 1, inner, loop.inBody rest, by grind⟩
      · rw [List.getElem?_append_right (by simp), length_code, Nat.sub_self,
          List.getElem?_cons_zero] at h
        simp only [Option.some.injEq, Instruction.mk.injEq, Opcode.op.injEq] at h
        exact ⟨0, body, .head body rest i, .inr ⟨h.1.symm, by omega⟩⟩
      · rw [List.getElem?_append_right (by simp; omega), length_code,
          show k - body.size = k - body.size - 1 + 1 by omega, List.getElem?_cons_succ] at h
        obtain ⟨s, inner, loop, place⟩ := hr h
        exact ⟨body.size + 2 + s, inner, loop.behindLoop body, by grind⟩

/-- Only brackets have a target. -/
theorem target_of_action {b : Block} {i : Nat} {ins : Instruction} (h : ins ∈ b.code i)
    (start : ins.opcode ≠ .op .loopStart) (finish : ins.opcode ≠ .op .loopEnd) :
    ins.target = none := by
  induction b generalizing i with
  | done => cases h
  | act a rest ih =>
    rcases List.mem_cons.1 h with rfl | h
    · rfl
    · exact ih h
  | loop body rest hb hr =>
    rcases List.mem_cons.1 h with rfl | h
    · exact absurd rfl start
    rcases List.mem_append.1 h with h | h
    · exact hb h
    rcases List.mem_cons.1 h with rfl | h
    · exact absurd rfl finish
    · exact hr h

end Block
end TapeMachine
