import TapeMachine.Proofs.Linking

/-! Compiled programs, seen by their indexes: which sources compile, what each instruction is,
where each jump goes, and what source text a program reads back as. -/

namespace TapeMachine

/-- A frozen program of the given operations, each loop of which is linked to its other end. -/
structure Program.Linked (p : Program) (ops : List Op) : Prop where
  frozen : p.frozen = true
  length : p.length = ops.length
  opcode : ∀ k : Nat, (p.instructions[k]?).map (·.opcode) = (ops[k]?).map .op
  /-- Only brackets have a target. -/
  target : ∀ i ∈ p.instructions, i.opcode ≠ .op .loopStart → i.opcode ≠ .op .loopEnd →
    i.target = none
  /-- The start of a loop points at its end, and what stands between them is balanced. -/
  start : ∀ (s : Nat) (t : Option Int), p.instructions[s]? = some ⟨.op .loopStart, t⟩ →
    ∃ e : Nat, t = some (e : Int) ∧ s < e ∧ e < p.length ∧
      p.instructions[e]? = some ⟨.op .loopEnd, some (s : Int)⟩ ∧
      Balanced ((ops.take e).drop (s + 1))
  /-- The end of a loop points back at its start. -/
  finish : ∀ (e : Nat) (t : Option Int), p.instructions[e]? = some ⟨.op .loopEnd, t⟩ →
    ∃ s : Nat, t = some (s : Int) ∧ s < e ∧
      p.instructions[s]? = some ⟨.op .loopStart, some (e : Int)⟩

namespace Program.Encodes

variable {p : Program} {b : Block}

theorem length (h : p.Encodes b) : p.length = b.size := by
  rw [length_eq, h.code, Block.length_code]

theorem opcodes (h : p.Encodes b) : p.instructions.map (·.opcode) = b.ops.map .op := by
  rw [h.code, Block.opcodes_code]

theorem linked (h : p.Encodes b) : p.Linked b.ops := by
  refine ⟨h.frozen, ?_, ?_, ?_, ?_, ?_⟩
  · rw [h.length, Block.length_ops]
  · intro k
    rw [← List.getElem?_map, ← List.getElem?_map, h.opcodes]
  · intro i mem start finish
    rw [h.code] at mem
    exact Block.target_of_action mem start finish
  · intro s t hs
    rw [h.code] at hs
    obtain ⟨s', body, loop, ⟨_, rfl⟩ | ⟨h', _⟩⟩ := Block.loopAt_of_bracket hs (.inl rfl)
    · have there := hs.symm.trans loop.start
      have back := loop.finish
      have inside := loop.lt_size
      simp only [Nat.zero_add, Option.some.injEq, Instruction.mk.injEq, true_and] at there back
      refine ⟨s + body.size + 1, there, by omega, by rw [h.length]; exact inside, ?_, ?_⟩
      · rw [h.code]
        exact back
      · rw [loop.between]
        exact body.balanced_ops
    · cases h'
  · intro e t he
    rw [h.code] at he
    obtain ⟨s, body, loop, ⟨h', _⟩ | ⟨_, rfl⟩⟩ := Block.loopAt_of_bracket he (.inr rfl)
    · cases h'
    · have there := he.symm.trans loop.finish
      have back := loop.start
      simp only [Nat.zero_add, Option.some.injEq, Instruction.mk.injEq, true_and] at there back
      refine ⟨s, there, by omega, ?_⟩
      rw [h.code]
      exact back

end Program.Encodes

/-! ## Reading a program back as source text -/

theorem symbols_of_opcodes {is : List Instruction} {ops : List Op}
    (h : is.map (·.opcode) = ops.map .op) :
    is.mapM Instruction.symbol = .ok (ops.map Op.symbol) := by
  induction is generalizing ops with
  | nil =>
    cases ops with
    | nil => rfl
    | cons o ops => cases h
  | cons i is ih =>
    cases ops with
    | nil => cases h
    | cons o ops =>
      obtain ⟨first, rest⟩ := List.cons.inj h
      have symbol : i.symbol = .ok o.symbol := by simp [Instruction.symbol, first]
      rw [List.mapM_cons, symbol, ih rest]
      rfl

/-- Instructions of known operations are spelled by a list of these. -/
theorem opcodes_known {is : List Instruction} (known : ∀ i ∈ is, ∃ o : Op, i.opcode = .op o) :
    ∃ ops : List Op, is.map (·.opcode) = ops.map .op := by
  induction is with
  | nil => exact ⟨[], rfl⟩
  | cons i is ih =>
    obtain ⟨ops, opcodes⟩ := ih fun j mem => known j (List.mem_cons_of_mem _ mem)
    obtain ⟨o, opcode⟩ := known i List.mem_cons_self
    exact ⟨o :: ops, by rw [List.map_cons, List.map_cons, opcode, opcodes]⟩

theorem Program.sourceText_of_opcodes {p : Program} {ops : List Op}
    (h : p.instructions.map (·.opcode) = ops.map .op) :
    p.sourceText = .ok (String.ofList (ops.map Op.symbol)) := by
  rw [sourceText, symbols, symbols_of_opcodes h]
  rfl

/-- The symbol of an operation is one byte long. -/
theorem Op.encode_symbol (o : Op) : String.utf8EncodeChar o.symbol = [o.byte] := by
  cases o <;> decide

theorem encode_symbols (ops : List Op) :
    Utf8.encode (String.ofList (ops.map Op.symbol)) = ops.map Op.byte := by
  rw [Utf8.encode, String.toList_ofList]
  induction ops with
  | nil => rfl
  | cons o ops ih => rw [List.map_cons, List.flatMap_cons, ih, Op.encode_symbol]; rfl

@[simp] theorem opsOf_bytes (ops : List Op) : opsOf (ops.map Op.byte) = ops := by
  induction ops with
  | nil => rfl
  | cons o ops ih => simp_all [opsOf]

/-- The bytes of the operations are what is left of a source without its commentary. -/
theorem bytes_opsOf (bytes : List UInt8) :
    (opsOf bytes).map Op.byte = bytes.filter fun b => (Op.ofByte? b).isSome := by
  induction bytes with
  | nil => rfl
  | cons b bytes ih =>
    cases read : Op.ofByte? b with
    | none => simpa [opsOf, read] using ih
    | some o =>
      have := Op.byte_of_ofByte? read
      simpa [opsOf, read, this] using ih

/-- Bytes compile if and only if their operations are balanced. The program is then linked; it
reads back as the bytes without their commentary, and these compile to its instructions, as does
every other source of the same operations. -/
theorem compiles_iff_balanced_and_linked (bytes : List UInt8) :
    ((∃ p, compile (.bytes bytes) = .ok p) ↔ Balanced (opsOf bytes)) ∧
    ∀ p, compile (.bytes bytes) = .ok p →
      p.Linked (opsOf bytes) ∧
      (∃ text, p.sourceText = .ok text ∧
        Utf8.encode text = bytes.filter (fun b => (Op.ofByte? b).isSome) ∧
        ∃ q, compile (.text text) = .ok q ∧ q.instructions = p.instructions) ∧
      ∀ more, opsOf more = opsOf bytes →
        ∃ q, compile (.bytes more) = .ok q ∧ q.instructions = p.instructions := by
  rcases compile_bytes bytes with ⟨p, b, compiled, spelled, encodes⟩ | ⟨⟨f, refused⟩, unbalanced⟩
  · refine ⟨⟨fun _ => spelled ▸ b.balanced_ops, fun _ => ⟨p, compiled⟩⟩, fun q again => ?_⟩
    cases compiled.symm.trans again
    have alike : ∀ more, opsOf more = opsOf bytes →
        ∃ q, compile (.bytes more) = .ok q ∧ q.instructions = p.instructions := by
      intro more same
      obtain ⟨q, compiled, same⟩ := compile_block (spelled.trans same.symm)
      exact ⟨q, compiled, by rw [same.code, encodes.code]⟩
    refine ⟨spelled ▸ encodes.linked, ?_, alike⟩
    refine ⟨_, Program.sourceText_of_opcodes encodes.opcodes, ?_, ?_⟩
    · rw [encode_symbols, spelled, bytes_opsOf]
    · rw [compile_eq_bytes]
      simp only [Source.read, encode_symbols]
      exact alike _ (by rw [opsOf_bytes, spelled])
  · refine ⟨⟨?_, ?_⟩, ?_⟩
    · rintro ⟨p, compiled⟩
      cases compiled.symm.trans refused
    · intro balanced
      exact absurd balanced unbalanced
    · intro p compiled
      cases compiled.symm.trans refused

/-- A loop in a loop, with commentary, compiles to linked instructions. -/
theorem nested_loops_linked :
    ∃ p, compile (.bytes [0x5B, 0x20, 0x5B, 0x2D, 0x5D, 0x0A, 0x5D]) = .ok p ∧
      p.Linked [.loopStart, .loopStart, .decrement, .loopEnd, .loopEnd] := by
  refine ⟨_, rfl, ?_⟩
  exact ((compiles_iff_balanced_and_linked [0x5B, 0x20, 0x5B, 0x2D, 0x5D, 0x0A, 0x5D]).2 _ rfl).1

end TapeMachine
