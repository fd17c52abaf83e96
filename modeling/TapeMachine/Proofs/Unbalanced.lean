import TapeMachine.Proofs.Compilation

/-! Sources that do not compile. The fault names the bracket that is wrong: the first loop end that
no loop start is left for, or, where there is none, the last loop start that is never closed. Both
are told here from the bytes alone, and so are the line and the column. -/

namespace TapeMachine

/-- More loops end among the bytes than start. -/
def Overclosed (bytes : List UInt8) : Prop :=
  bytes.count Op.loopStart.byte < bytes.count Op.loopEnd.byte

instance (bytes : List UInt8) : Decidable (Overclosed bytes) :=
  inferInstanceAs (Decidable (bytes.count _ < bytes.count _))

/-- The loop end behind `before` is the last byte of the shortest front of the bytes in which more
loops end than start. -/
structure FirstOverclosed (bytes before : List UInt8) : Prop where
  reached : before ++ [Op.loopEnd.byte] <+: bytes
  excess : Overclosed (before ++ [Op.loopEnd.byte])
  shortest : ∀ front, front <+: bytes → Overclosed front → before.length < front.length

/-- A loop that starts right in front of the bytes is ended by one of them: what lies between is
balanced. -/
def Closes (bytes : List UInt8) : Prop :=
  ∃ body rest, bytes = body ++ Op.loopEnd.byte :: rest ∧ Balanced (opsOf body)

/-- The loop start behind `before` is never closed, and every later one is. -/
structure LastUnclosed (bytes before : List UInt8) : Prop where
  after : ∃ after, bytes = before ++ Op.loopStart.byte :: after ∧ ¬ Closes after ∧
    ∀ between rest, after = between ++ Op.loopStart.byte :: rest → Closes rest

/-! ## Brackets among bytes -/

theorem opsOf_prefix {front bytes : List UInt8} (h : front <+: bytes) :
    opsOf front <+: opsOf bytes := by
  obtain ⟨rest, rfl⟩ := h
  exact ⟨opsOf rest, (opsOf_append front rest).symm⟩

/-- Brackets are counted among the bytes as among the operations. -/
theorem balance_opsOf (bytes : List UInt8) :
    balance (opsOf bytes) =
      (bytes.count Op.loopStart.byte : Int) - bytes.count Op.loopEnd.byte := by
  induction bytes with
  | nil => rfl
  | cons b bytes ih =>
    cases read : Op.ofByte? b with
    | none =>
      have other : ∀ o : Op, b ≠ o.byte := by
        rintro o rfl
        rw [Op.ofByte?_byte] at read
        cases read
      rw [List.count_cons_of_ne (other .loopStart), List.count_cons_of_ne (other .loopEnd), ← ih]
      simp [opsOf, read]
    | some o =>
      have byte := Op.byte_of_ofByte? read
      have spelled : opsOf (b :: bytes) = o :: opsOf bytes := by simp [opsOf, read]
      rw [spelled, balance_cons, ih, ← byte]
      cases o <;> simp [Op.delta, Op.byte] <;> omega

theorem overclosed_iff {bytes : List UInt8} : Overclosed bytes ↔ balance (opsOf bytes) < 0 := by
  rw [balance_opsOf, Overclosed]
  omega

/-- An operation among the operations of bytes is one of the bytes. -/
theorem split_of_opsOf {bytes : List UInt8} {front back : List Op} {o : Op}
    (h : opsOf bytes = front ++ o :: back) :
    ∃ before after, bytes = before ++ o.byte :: after ∧ opsOf before = front ∧
      opsOf after = back := by
  obtain ⟨before, more, rfl, spelled, rest⟩ := List.filterMap_eq_append_iff.mp h
  obtain ⟨comment, b, after, rfl, skipped, read, behind⟩ := List.filterMap_eq_cons_iff.mp rest
  have nothing : opsOf comment = [] := List.filterMap_eq_nil_iff.mpr skipped
  refine ⟨before ++ comment, after, ?_, ?_, behind⟩
  · rw [Op.byte_of_ofByte? read, List.append_assoc]
  · rw [opsOf_append, nothing, List.append_nil]
    exact spelled

namespace Block

/-- What follows the start of a loop in a block: the body, and the end. -/
theorem ops_behind_loopStart {b : Block} {front back : List Op}
    (h : b.ops = front ++ .loopStart :: back) :
    ∃ (body : Block) (rest : List Op), back = body.ops ++ .loopEnd :: rest := by
  have opcode : ((b.code 0)[front.length]?).map (·.opcode) = some (.op .loopStart) := by
    rw [← List.getElem?_map, opcodes_code, h]
    simp
  obtain ⟨⟨_, t⟩, found, rfl⟩ := Option.map_eq_some_iff.mp opcode
  obtain ⟨s, body, loop, ⟨_, place⟩ | ⟨end', _⟩⟩ := loopAt_of_bracket found (.inl rfl)
  · obtain ⟨before, rest, length, spelled⟩ := loop.ops
    rw [h, ops] at spelled
    obtain ⟨_, same⟩ := List.append_inj spelled (place.trans length.symm)
    refine ⟨body, rest, ?_⟩
    simpa [ops] using (List.cons.inj same).2
  · cases end'

end Block

/-- Behind a loop that is still open, the operations of a block close nothing. -/
theorem not_closes_of_block {after : List UInt8} {inner : Block} (h : opsOf after = inner.ops) :
    ¬ Closes after := by
  rintro ⟨body, rest, rfl, balanced⟩
  have front : opsOf body ++ [.loopEnd] <+: inner.ops := by
    rw [← h, opsOf_append]
    exact (List.prefix_append_right_inj _).mpr ⟨opsOf rest, rfl⟩
  have started := inner.balanced_ops.started _ front
  rw [balance_append, balanced.closed] at started
  exact absurd started (by decide)

/-- Every loop that starts in a block is closed in it. -/
theorem closes_of_block {after between rest : List UInt8} {inner : Block}
    (h : opsOf after = inner.ops) (split : after = between ++ Op.loopStart.byte :: rest) :
    Closes rest := by
  have spelled : inner.ops = opsOf between ++ .loopStart :: opsOf rest := by
    rw [← h, split, opsOf_append]
    rfl
  obtain ⟨body, back, behind⟩ := Block.ops_behind_loopStart spelled
  obtain ⟨inside, more, rfl, same, _⟩ := split_of_opsOf behind
  refine ⟨inside, more, rfl, ?_⟩
  rw [same]
  exact body.balanced_ops

/-! ## How far the compiler has come -/

namespace Nest

/-- Around open loops, no loop has ended that had not started. -/
theorem started_opsAround {outer : List Block} {front : List Op} (h : front <+: opsAround outer) :
    0 ≤ balance front := by
  induction outer generalizing front with
  | nil =>
    rw [List.prefix_nil.mp h]
    exact Int.le_refl 0
  | cons b outer ih =>
    rcases Block.front_append_cases h with short | ⟨rest, beyond, rfl⟩
    · exact ih short
    · have around : 0 ≤ balance (opsAround outer) := ih List.prefix_rfl
      rw [balance_append]
      rcases Block.front_append_cases beyond with inside | ⟨last, start, rfl⟩
      · have := b.balanced_ops.started rest inside
        omega
      · have opened : 0 ≤ balance last := by
          rcases List.prefix_cons_iff.mp start with rfl | ⟨tail, rfl, nothing⟩
          · exact Int.le_refl 0
          · rw [List.prefix_nil.mp nothing]
            decide
        rw [balance_append, Block.balance_ops]
        omega

theorem started {n : Nest} {front : List Op} (h : front <+: n.ops) : 0 ≤ balance front := by
  rcases Block.front_append_cases h with short | ⟨rest, inside, rfl⟩
  · exact started_opsAround short
  · have around : 0 ≤ balance (opsAround n.outer) := started_opsAround List.prefix_rfl
    have := n.inner.balanced_ops.started rest inside
    rw [balance_append]
    omega

theorem length_codeAround (outer : List Block) :
    (codeAround outer).length = (opsAround outer).length := by
  induction outer with
  | nil => rfl
  | cons b outer ih => simp [codeAround, opsAround, ih, Block.length_ops]

end Nest

theorem Scanner.length_marks (bytes : List UInt8) (place : Place) :
    (marks bytes place).length = (opsOf bytes).length := by
  induction bytes generalizing place with
  | nil => rfl
  | cons b bytes ih =>
    rw [marks, opsOf, List.filterMap_cons]
    cases Op.ofByte? b with
    | none => exact ih _
    | some o => exact congrArg (· + 1) (ih _)

/-- The place of the byte behind `before`, where that byte is an operation. -/
theorem Scanner.marks_split {before after : List UInt8} {b : UInt8} {o : Op}
    (read : Op.ofByte? b = some o) :
    (marks (before ++ b :: after) {})[(opsOf before).length]? =
      some ⟨lineBehind before, columnBehind before⟩ := by
  rw [marks_append, ← length_marks before {}, List.getElem?_append_right (Nat.le_refl _),
    Nat.sub_self, marks, read, Place.behind_start]
  rfl

variable {bytes : List UInt8}

/-- In no front of the bytes that the compiler has taken in do more loops end than start. -/
theorem not_overclosed {n : Nest} {front : List UInt8} (spelled : n.ops = opsOf bytes)
    (stands : front <+: bytes) : ¬ Overclosed front := by
  intro excess
  have inside : opsOf front <+: n.ops := by
    rw [spelled]
    exact opsOf_prefix stands
  exact absurd (overclosed_iff.mp excess) (Int.not_lt.mpr (Nest.started inside))

/-- Where the compiler meets a loop end and no loop is open, more loops have ended than started,
for the first time. -/
theorem firstOverclosed_of_refused {front rest : List UInt8} {n : Nest}
    (split : bytes = front ++ Op.loopEnd.byte :: rest) (spelled : n.ops = opsOf front)
    (closed : n.outer = []) : FirstOverclosed bytes front := by
  have reached : front ++ [Op.loopEnd.byte] <+: bytes := by
    rw [split]
    exact (List.prefix_append_right_inj _).mpr ⟨rest, rfl⟩
  have level : balance (opsOf front) = 0 := by
    rw [← spelled, Nest.balance_ops, closed]
    rfl
  refine ⟨reached, ?_, ?_⟩
  · rw [overclosed_iff, opsOf_append, balance_append, level]
    decide
  · intro shorter stands excess
    rcases Nat.lt_or_ge front.length shorter.length with longer | short
    · exact longer
    · have inside : shorter <+: front :=
        List.prefix_of_prefix_length_le stands ((List.prefix_append front _).trans reached) short
      exact absurd excess (not_overclosed spelled inside)

/-- Where the bytes have ended and loops are open, the compiler names the start of the innermost
one, which is the last that nothing closes. -/
theorem close_names_last {c : Compiler} {b inner : Block} {outer : List Block}
    (scanned : Compiler.fresh.Scanned {} bytes {} c ⟨inner, b :: outer⟩) :
    ∃ before, LastUnclosed bytes before ∧
      c.close = (.error (Compiler.unclosed (lineBehind before) (columnBehind before)), c) := by
  have spelled : opsOf bytes = (Nest.opsAround outer ++ b.ops) ++ .loopStart :: inner.ops := by
    have whole := scanned.spelled
    simp only [Nest.ops, Nest.opsAround, Block.ops, List.nil_append] at whole
    rw [← whole]
    simp
  obtain ⟨before, after, split, front, behind⟩ := split_of_opsOf spelled
  refine ⟨before, ⟨after, split, not_closes_of_block behind, ?_⟩, ?_⟩
  · intro between rest later
    exact closes_of_block behind later
  · have index : (Nest.codeAround outer).length + b.size = (opsOf before).length := by
      rw [front, List.length_append, Nest.length_codeAround, Block.length_ops]
    have located : c.program.location ((opsOf before).length : Nat) =
        some ⟨lineBehind before, columnBehind before⟩ := by
      have marks : c.program.locations = (Scanner.marks bytes {}).map some := scanned.located
      rw [Program.location_eq, marks, split, List.getElem?_map,
        Scanner.marks_split (Op.ofByte?_byte .loopStart)]
      rfl
    simp only [Compiler.close, scanned.stands.openLoops, Nest.starts, index, located]

/-- The bracket at fault, as the compiler finds it. -/
theorem compile_names_bracket (unbalanced : ¬ Balanced (opsOf bytes)) :
    (∃ before, FirstOverclosed bytes before ∧
      compile (.bytes bytes) =
        .error (Compiler.unmatched (lineBehind before) (columnBehind before))) ∨
    ((∀ front, front <+: bytes → ¬ Overclosed front) ∧ ∃ before, LastUnclosed bytes before ∧
      compile (.bytes bytes) =
        .error (Compiler.unclosed (lineBehind before) (columnBehind before))) := by
  simp only [compile, Compiler.compile, Source.read, Compiler.compileBytes, Scanner.tokens,
    Scanner.ofBytes]
  rcases Compiler.at_fresh.acceptAll bytes {} with
    ⟨c, n, run, scanned⟩ | ⟨front, rest, c, n, split, run, ⟨_, spelled, _⟩, closed⟩
  · right
    refine ⟨fun front => not_overclosed scanned.spelled, ?_⟩
    obtain ⟨inner, outer⟩ := n
    cases outer with
    | nil =>
      -- with no loop left open the bytes spell a block, which is balanced
      have spelled : inner.ops = opsOf bytes := scanned.spelled
      exact absurd (spelled ▸ inner.balanced_ops) unbalanced
    | cons b outer =>
      obtain ⟨before, last, closes⟩ := close_names_last scanned
      refine ⟨before, last, ?_⟩
      rw [run]
      simp only [closes]
  · left
    refine ⟨front, firstOverclosed_of_refused split spelled closed, ?_⟩
    rw [run, Place.behind_start]

/-- A source that can be read but does not compile is reported. -/
theorem report_of_refused {source : Source} {f : Fault} (read : source.read = .ok bytes)
    (refused : compile source = .error f) : f.isReport = true := by
  rw [compile_eq_bytes, read] at refused
  have unbalanced : ¬ Balanced (opsOf bytes) := by
    rcases compile_bytes bytes with ⟨p, _, compiled, _⟩ | ⟨_, unbalanced⟩
    · cases compiled.symm.trans refused
    · exact unbalanced
  rcases compile_names_bracket unbalanced with ⟨_, _, named⟩ | ⟨_, _, _, named⟩
  · cases named.symm.trans refused
    rfl
  · cases named.symm.trans refused
    rfl

/-- A source whose brackets do not match fails to compile, and the fault names a bracket. If more
loops end than start in some front of the bytes, it is the loop end that the shortest such front
ends with, whatever follows; otherwise it is the last loop start that is never closed. -/
theorem unbalanced_source_names_bracket (unbalanced : ¬ Balanced (opsOf bytes)) :
    ((∃ front, front <+: bytes ∧ Overclosed front) →
      ∃ before, FirstOverclosed bytes before ∧
        compile (.bytes bytes) = .error (.report ⟨.compilation,
          some ("unmatched ']' at line " ++ Numeral.text (lineBehind before) ++ ", col " ++
            Numeral.text (columnBehind before)), none, none⟩)) ∧
    ((∀ front, front <+: bytes → ¬ Overclosed front) →
      ∃ before, LastUnclosed bytes before ∧
        compile (.bytes bytes) = .error (.report ⟨.compilation,
          some ("unclosed '[' at line " ++ Numeral.text (lineBehind before) ++ ", col " ++
            Numeral.text (columnBehind before)), none, none⟩)) := by
  rcases compile_names_bracket unbalanced with
    ⟨before, first, named⟩ | ⟨within, before, last, named⟩
  · constructor
    · intro _
      exact ⟨before, first, named⟩
    · intro within
      exact absurd first.excess (within _ first.reached)
  · constructor
    · rintro ⟨front, stands, excess⟩
      exact absurd excess (within front stands)
    · intro _
      exact ⟨before, last, named⟩

/-- A loop end too many, on the second line, with an open loop behind it; and two loops left open,
of which the inner one starts on the third line. -/
theorem misplaced_brackets_named :
    (∃ before, FirstOverclosed [0x5B, 0x5D, 0x0A, 0x2D, 0x5D, 0x0A, 0x5B] before ∧
      compile (.bytes [0x5B, 0x5D, 0x0A, 0x2D, 0x5D, 0x0A, 0x5B]) =
        .error (Compiler.unmatched (lineBehind before) (columnBehind before)) ∧
      Compiler.unmatched (lineBehind before) (columnBehind before) = Compiler.unmatched 2 2) ∧
    ∃ before, LastUnclosed [0x5B, 0x0A, 0x5B, 0x2B, 0x5D, 0x0A, 0x20, 0x5B] before ∧
      compile (.bytes [0x5B, 0x0A, 0x5B, 0x2B, 0x5D, 0x0A, 0x20, 0x5B]) =
        .error (Compiler.unclosed (lineBehind before) (columnBehind before)) ∧
      Compiler.unclosed (lineBehind before) (columnBehind before) = Compiler.unclosed 3 2 := by
  constructor
  · have unbalanced : ¬ Balanced (opsOf [0x5B, 0x5D, 0x0A, 0x2D, 0x5D, 0x0A, 0x5B]) := by
      intro balanced
      have := balanced.started [.loopStart, .loopEnd, .decrement, .loopEnd] ⟨[.loopStart], rfl⟩
      exact absurd this (by decide)
    obtain ⟨before, first, compiled⟩ := (unbalanced_source_names_bracket unbalanced).1
      ⟨[0x5B, 0x5D, 0x0A, 0x2D, 0x5D], ⟨[0x0A, 0x5B], rfl⟩, by decide⟩
    refine ⟨before, first, compiled, ?_⟩
    exact Except.error.inj (compiled.symm.trans rfl)
  · have unbalanced : ¬ Balanced (opsOf [0x5B, 0x0A, 0x5B, 0x2B, 0x5D, 0x0A, 0x20, 0x5B]) := by
      intro balanced
      exact absurd balanced.closed (by decide)
    obtain ⟨before, last, compiled⟩ := (unbalanced_source_names_bracket unbalanced).2 <| by
      intro front stands
      have fronts : ∀ n ≤ 8,
          ¬ Overclosed ([0x5B, 0x0A, 0x5B, 0x2B, 0x5D, 0x0A, 0x20, 0x5B].take n) := by decide
      rw [List.prefix_iff_eq_take.mp stands]
      exact fronts front.length stands.length_le
    refine ⟨before, last, compiled, ?_⟩
    exact Except.error.inj (compiled.symm.trans rfl)

end TapeMachine
