import TapeMachine.Program.Compiler
import TapeMachine.Proofs.Code
import TapeMachine.Proofs.Places

/-! What the compiler makes of a source. While it scans, its program is the code of the blocks
met so far, save that the starts of the loops still open have no target yet, and its stack holds
just these starts. Hence it accepts the balanced sources and no others, and what it makes of one
is the code of the block that the source spells. Each instruction is kept with the place of its
byte. -/

namespace TapeMachine

namespace Program

/-- Appends, as far as instructions go. -/
theorem instructions_emit {p : Program} (growing : p.frozen = false) (i : Instruction)
    (loc : Option Location) :
    (p.emit i loc).2.instructions = p.instructions ++ [i] ∧ (p.emit i loc).2.frozen = false := by
  rw [emit_growing growing]
  simp [instructions]

/-- A change of target is a change of the instruction alone. -/
theorem map_modify_retarget (es : List Entry) (k : Nat) (target : Option Int) :
    (es.modify k fun e => e.retarget target).map (·.instruction) =
      (es.map (·.instruction)).modify k fun i => { i with target := target } := by
  induction es generalizing k with
  | nil => simp
  | cons e es ih =>
    cases k with
    | zero => rfl
    | succ k => simp [ih]

/-- Gives one instruction another target, as far as instructions go. -/
theorem patch_growing {p : Program} (growing : p.frozen = false) (front : List Instruction)
    (i : Instruction) (back : List Instruction) (h : p.instructions = front ++ i :: back)
    (target : Option Int) :
    ∃ q, p.patch front.length target = (.ok (), q) ∧ q.frozen = false ∧
      q.instructions = front ++ { i with target := target } :: back := by
  have inside : front.length < p.length := by
    rw [length_eq, h, List.length_append, List.length_cons]
    omega
  refine ⟨⟨p.entries.modify front.length fun e => e.retarget target, false⟩, ?_, rfl, ?_⟩
  · simp [patch, growing, inside]
  · rw [instructions, Array.toList_modify, map_modify_retarget]
    change p.instructions.modify _ _ = _
    rw [h, List.modify_eq_take_cons_drop (by simp)]
    simp

end Program

/-- How far scanning has come, in blocks: the innermost one, and those that a loop still open
has broken off, innermost first. -/
structure Nest where
  inner : Block := .done
  outer : List Block := []

namespace Nest

/-- The operations up to the start of the innermost open loop. -/
def opsAround : List Block → List Op
  | [] => []
  | b :: outer => opsAround outer ++ (b.ops ++ [.loopStart])

def ops (n : Nest) : List Op := opsAround n.outer ++ n.inner.ops

/-- The instructions up to the start of the innermost open loop. The starts of open loops have
no target. -/
def codeAround : List Block → List Instruction
  | [] => []
  | b :: outer =>
    codeAround outer ++ (b.code (codeAround outer).length ++ [⟨.op .loopStart, none⟩])

def code (n : Nest) : List Instruction :=
  codeAround n.outer ++ n.inner.code (codeAround n.outer).length

/-- The indexes of the starts of open loops, innermost first. -/
def starts : List Block → List Nat
  | [] => []
  | b :: outer => ((codeAround outer).length + b.size) :: starts outer

/-- The nest after one operation more; none if that ends a loop where none is open. -/
def accept (n : Nest) : Op → Option Nest
  | .loopStart => some ⟨.done, n.inner :: n.outer⟩
  | .loopEnd =>
    match n.outer with
    | [] => none
    | b :: outer => some ⟨b.append (.loop n.inner .done), outer⟩
  | o => o.action?.map fun a => ⟨n.inner.append (.act a .done), n.outer⟩

theorem accept_action (n : Nest) (a : Action) :
    n.accept a.op = some ⟨n.inner.append (.act a .done), n.outer⟩ := by
  cases a <;> rfl

theorem accept_loopEnd (b inner : Block) (outer : List Block) :
    (⟨inner, b :: outer⟩ : Nest).accept .loopEnd =
      some ⟨b.append (.loop inner .done), outer⟩ := rfl

/-- Only the end of a loop can be refused, and only where no loop is open. -/
theorem accept_eq_none {n : Nest} {o : Op} (h : n.accept o = none) :
    o = .loopEnd ∧ n.outer = [] := by
  rcases o.bracket_or_action with rfl | rfl | ⟨a, rfl⟩
  · cases h
  · obtain ⟨inner, outer⟩ := n
    cases outer with
    | nil => exact ⟨rfl, rfl⟩
    | cons b outer => cases h
  · rw [accept_action] at h
    cases h

theorem ops_accept {n n' : Nest} {o : Op} (h : n.accept o = some n') : n'.ops = n.ops ++ [o] := by
  rcases o.bracket_or_action with rfl | rfl | ⟨a, rfl⟩
  · cases h
    simp [ops, opsAround, Block.ops]
  · obtain ⟨inner, outer⟩ := n
    cases outer with
    | nil => cases h
    | cons b outer =>
      rw [accept_loopEnd] at h
      cases h
      simp [ops, opsAround, Block.ops]
  · rw [accept_action] at h
    cases h
    simp [ops, Block.ops]

theorem balance_opsAround (outer : List Block) : balance (opsAround outer) = outer.length := by
  induction outer with
  | nil => rfl
  | cons b outer ih => simp [opsAround, ih, Op.delta]

theorem balance_ops (n : Nest) : balance n.ops = n.outer.length := by
  simp [ops, balance_opsAround]

end Nest

namespace Compiler

/-- A compiler that has come as far as a nest. -/
structure At (c : Compiler) (n : Nest) : Prop where
  growing : c.program.frozen = false
  code : c.program.instructions = n.code
  openLoops : c.openLoops = Nest.starts n.outer

theorem at_fresh : fresh.At {} := ⟨rfl, rfl, rfl⟩

variable {c : Compiler} {n : Nest}

/-- Emitting appends to the program, whatever loops are open. -/
theorem emit_growing {p : Program} (growing : p.frozen = false) (openLoops : List Nat) (o : Op)
    (target : Option Int) (line column : Nat) :
    ∃ q, emit ⟨p, openLoops⟩ o target line column = (.ok p.length, ⟨q, openLoops⟩) ∧
      q.frozen = false ∧ q.instructions = p.instructions ++ [⟨.op o, target⟩] := by
  have emitted := Program.instructions_emit growing ⟨.op o, target⟩ (some ⟨line, column⟩)
  refine ⟨_, ?_, emitted.2, emitted.1⟩
  simp only [emit, Program.emit_growing growing]

/-- The instructions once a loop has been closed are those of the block that it completes. -/
theorem code_closed (b inner : Block) (outer : List Block) :
    (⟨b.append (.loop inner .done), outer⟩ : Nest).code =
      Nest.codeAround outer ++ b.code (Nest.codeAround outer).length ++
        ⟨.op .loopStart, some ((⟨inner, b :: outer⟩ : Nest).code.length : Int)⟩ ::
          (inner.code (Nest.codeAround (b :: outer)).length ++
            [⟨.op .loopEnd, some (((Nest.codeAround outer).length + b.size : Nat) : Int)⟩]) := by
  have finish : (⟨inner, b :: outer⟩ : Nest).code.length =
      (Nest.codeAround outer).length + b.size + inner.size + 1 := by
    simp [Nest.code, Nest.codeAround]
    omega
  have start : (Nest.codeAround (b :: outer)).length =
      (Nest.codeAround outer).length + b.size + 1 := by
    simp [Nest.codeAround]
    omega
  rw [finish, start]
  simp [Nest.code, Block.code_append, Block.code]

/-- One operation takes a compiler as far as it takes the nest, or is refused by both. -/
theorem At.accept (h : c.At n) (o : Op) (line column : Nat) :
    match n.accept o with
    | some n' => ∃ c', c.accept o line column = (.ok (), c') ∧ c'.At n'
    | none => c.accept o line column = (.error (unmatched line column), c) := by
  obtain ⟨program, openLoops⟩ := c
  obtain ⟨growing, code, rfl⟩ := h
  change program.frozen = false at growing
  change program.instructions = n.code at code
  have length : program.length = n.code.length := by rw [Program.length_eq, code]
  rcases o.bracket_or_action with rfl | rfl | ⟨a, rfl⟩
  · -- a loop starts: its index joins the stack, its start has no target yet
    obtain ⟨q, emitted, growing, added⟩ :=
      emit_growing growing (program.length :: Nest.starts n.outer) .loopStart none line column
    refine ⟨⟨q, _⟩, by simp only [Compiler.accept, emitted]; rfl, growing, ?_, ?_⟩
    · change q.instructions = _
      rw [added, code]
      simp [Nest.code, Nest.codeAround, Block.code]
    · change program.length :: _ = _
      rw [length]
      simp [Nest.code, Nest.starts]
  · obtain ⟨inner, outer⟩ := n
    cases outer with
    | nil => rfl
    | cons b outer =>
      -- a loop ends: its end is emitted, and its start, which the stack holds, is patched
      rw [Nest.accept_loopEnd]
      obtain ⟨q, emitted, growing, added⟩ :=
        emit_growing growing (Nest.starts outer) .loopEnd
          (some (((Nest.codeAround outer).length + b.size : Nat) : Int)) line column
      obtain ⟨r, patched, growing, linked⟩ :=
        Program.patch_growing growing
          (Nest.codeAround outer ++ b.code (Nest.codeAround outer).length)
          ⟨.op .loopStart, none⟩
          (inner.code (Nest.codeAround (b :: outer)).length ++
            [⟨.op .loopEnd, some (((Nest.codeAround outer).length + b.size : Nat) : Int)⟩])
          (by rw [added, code]; simp [Nest.code, Nest.codeAround])
          (some (program.length : Int))
      rw [List.length_append, Block.length_code] at patched
      refine ⟨⟨r, Nest.starts outer⟩, ?_, growing, ?_, rfl⟩
      · simp only [Compiler.accept, Nest.starts, emitted, link, patched]
      · change r.instructions = _
        rw [linked, code_closed, length]
  · rw [Nest.accept_action]
    obtain ⟨q, emitted, growing, added⟩ :=
      emit_growing growing (Nest.starts n.outer) a.op none line column
    refine ⟨⟨q, Nest.starts n.outer⟩, ?_, growing, ?_, rfl⟩
    · cases a <;> simp only [Compiler.accept, Action.op, emitted] at emitted ⊢ <;> rfl
    · change q.instructions = _
      rw [added, code]
      simp [Nest.code, Block.code_append, Block.code]

/-- An operation that is taken in is kept with its place, behind the others. -/
theorem accept_located {c' : Compiler} {o : Op} {line column : Nat}
    (accepted : c.accept o line column = (.ok (), c')) :
    c'.program.locations = c.program.locations ++ [some ⟨line, column⟩] := by
  obtain ⟨p, openLoops⟩ := c
  have placed : ∀ {o target stack k d}, emit ⟨p, stack⟩ o target line column = (.ok k, d) →
      d.program.locations = p.locations ++ [some ⟨line, column⟩] := by
    intro o target stack k d emitted
    generalize answer : p.emit ⟨.op o, target⟩ (some ⟨line, column⟩) = taken at emitted
    obtain ⟨result, q⟩ := taken
    simp only [emit, answer] at emitted
    cases emitted
    exact Program.locations_emit answer
  rcases o.bracket_or_action with rfl | rfl | ⟨a, rfl⟩
  · simp only [accept] at accepted
    generalize emitted : emit _ _ _ _ _ = answer at accepted
    obtain ⟨_ | k, d⟩ := answer
    · cases accepted
    · cases accepted
      exact placed emitted
  · cases openLoops with
    | nil => cases accepted
    | cons start outer =>
      simp only [accept] at accepted
      generalize emitted : emit _ _ _ _ _ = answer at accepted
      obtain ⟨_ | k, q, stack⟩ := answer
      · cases accepted
      · have emitted := placed emitted
        simp only [link] at accepted
        generalize patched : q.patch start (some k) = answer at accepted
        obtain ⟨_ | told, r⟩ := answer
        · cases accepted
        · cases accepted
          exact (Program.locations_patch patched).trans emitted
  · have accepts : accept ⟨p, openLoops⟩ a.op line column =
        (((emit ⟨p, openLoops⟩ a.op none line column).1).map fun _ => (),
          (emit ⟨p, openLoops⟩ a.op none line column).2) := by
      cases a <;> rfl
    rw [accepts] at accepted
    generalize emitted : emit _ _ _ _ _ = answer at accepted
    obtain ⟨_ | k, d⟩ := answer
    · cases accepted
    · cases accepted
      exact placed emitted

/-- What a compiler at a nest has become, and the nest with it, once bytes have been scanned that
start at a place. -/
structure Scanned (c : Compiler) (n : Nest) (bytes : List UInt8) (place : Place)
    (c' : Compiler) (n' : Nest) : Prop where
  stands : c'.At n'
  spelled : n'.ops = n.ops ++ opsOf bytes
  located : c'.program.locations = c.program.locations ++ (Scanner.marks bytes place).map some

/-- Scanning takes a compiler over all operations, unless it meets the end of a loop where none
is open. Then it has come to the byte of that end. -/
theorem At.acceptAll (h : c.At n) (bytes : List UInt8) (place : Place) :
    (∃ c' n', c.acceptAll (Scanner.tokensFrom bytes place) = (.ok (), c') ∧
      c.Scanned n bytes place c' n') ∨
    ∃ front rest c' n', bytes = front ++ Op.loopEnd.byte :: rest ∧
      c.acceptAll (Scanner.tokensFrom bytes place) =
        (.error (unmatched (place.behind front).line (place.behind front).column), c') ∧
      c.Scanned n front place c' n' ∧ n'.outer = [] := by
  induction bytes generalizing c n place with
  | nil =>
    exact .inl ⟨c, n, rfl, h, (List.append_nil _).symm, (List.append_nil _).symm⟩
  | cons byte rest ih =>
    cases read : Op.ofByte? byte with
    | none =>
      have spells : ∀ bytes, opsOf (byte :: bytes) = opsOf bytes := by
        intro bytes
        simp [opsOf, read]
      have marks : ∀ bytes, Scanner.marks (byte :: bytes) place =
          Scanner.marks bytes (place.past byte) := by
        intro bytes
        rw [Scanner.marks, read]
      have skip : ∀ {bytes c' n'}, c.Scanned n bytes (place.past byte) c' n' →
          c.Scanned n (byte :: bytes) place c' n' := by
        intro bytes c' n' scanned
        exact ⟨scanned.stands, by rw [spells, scanned.spelled], by rw [marks, scanned.located]⟩
      simp only [Scanner.tokensFrom, read]
      rcases ih h (place.past byte) with
        ⟨c', n', run, scanned⟩ | ⟨front, behind, c', n', rfl, run, scanned, closed⟩
      · exact .inl ⟨c', n', run, skip scanned⟩
      · exact .inr ⟨byte :: front, behind, c', n', rfl, run, skip scanned, closed⟩
    | some o =>
      have spells : ∀ bytes, opsOf (byte :: bytes) = o :: opsOf bytes := by
        intro bytes
        simp [opsOf, read]
      have marks : ∀ bytes, Scanner.marks (byte :: bytes) place =
          ⟨place.line, place.column⟩ :: Scanner.marks bytes (place.past byte) := by
        intro bytes
        rw [Scanner.marks, read]
      simp only [Scanner.tokensFrom, read, Compiler.acceptAll, Token.ofOp]
      have accepted := h.accept o place.line place.column
      cases further : n.accept o with
      | none =>
        rw [further] at accepted
        obtain ⟨rfl, closed⟩ := Nest.accept_eq_none further
        refine .inr ⟨[], rest, c, n, ?_, by rw [accepted]; rfl, ?_, closed⟩
        · rw [Op.byte_of_ofByte? read]
          rfl
        · exact ⟨h, (List.append_nil _).symm, (List.append_nil _).symm⟩
      | some n₁ =>
        rw [further] at accepted
        obtain ⟨c₁, accepted, holds⟩ := accepted
        have located := accept_located accepted
        have take : ∀ {bytes c' n'}, c₁.Scanned n₁ bytes (place.past byte) c' n' →
            c.Scanned n (byte :: bytes) place c' n' := by
          intro bytes c' n' scanned
          refine ⟨scanned.stands, ?_, ?_⟩
          · rw [scanned.spelled, Nest.ops_accept further, spells, List.append_assoc]
            rfl
          · rw [scanned.located, located, marks, List.append_assoc]
            rfl
        rw [accepted]
        rcases ih holds (place.past byte) with
          ⟨c', n', run, scanned⟩ | ⟨front, behind, c', n', rfl, run, scanned, closed⟩
        · exact .inl ⟨c', n', run, take scanned⟩
        · exact .inr ⟨byte :: front, behind, c', n', rfl, run, take scanned, closed⟩

end Compiler

/-- A program that is the code of a block, and will stay so. -/
structure Program.Encodes (p : Program) (b : Block) : Prop where
  frozen : p.frozen = true
  code : p.instructions = b.code 0

/-- Bytes complete the code of a block if what the compiler has taken in before and they together
spell one, and are refused if the whole is not balanced. -/
theorem Compiler.At.compileBytes {c : Compiler} {n : Nest} (h : c.At n) (bytes : List UInt8) :
    (∃ p c' b, c.compileBytes bytes = (.ok p, c') ∧ b.ops = n.ops ++ opsOf bytes ∧ p.Encodes b) ∨
      ((∃ f c', c.compileBytes bytes = (.error f, c')) ∧ ¬ Balanced (n.ops ++ opsOf bytes)) := by
  simp only [Compiler.compileBytes, Scanner.tokens, Scanner.ofBytes]
  rcases h.acceptAll bytes {} with
    ⟨c', n', run, holds, spelled, _⟩ | ⟨front, rest, c', n', split, run, ⟨_, spelled, _⟩, closed⟩
  · rw [run, ← spelled]
    obtain ⟨inner, outer⟩ := n'
    cases outer with
    | nil =>
      refine .inl ⟨c'.program.freeze, { c' with program := c'.program.freeze }, inner, ?_, rfl, rfl,
        ?_⟩
      · simp only [Compiler.close, holds.openLoops, Nest.starts]
      · simp [holds.code, Nest.code, Nest.codeAround]
    | cons b outer =>
      refine .inr ⟨?_, ?_⟩
      · simp only [Compiler.close, holds.openLoops, Nest.starts]
        split <;> exact ⟨_, _, rfl⟩
      · -- a loop is left open, so more loops start than end
        intro balanced
        have := balanced.closed
        rw [Nest.balance_ops, List.length_cons] at this
        omega
  · rw [run]
    refine .inr ⟨⟨_, _, rfl⟩, ?_⟩
    intro balanced
    -- up to the loop end that was refused, one more loop ends than starts
    have refused : n'.ops ++ [.loopEnd] <+: n.ops ++ opsOf bytes := by
      rw [spelled, split, opsOf_append, List.append_assoc]
      refine (List.prefix_append_right_inj _).2 ((List.prefix_append_right_inj _).2 ?_)
      exact ⟨opsOf rest, rfl⟩
    have := balanced.started _ refused
    rw [balance_append, Nest.balance_ops, closed] at this
    exact absurd this (by decide)

/-- Bytes compile to the code of the block that they spell, or do not compile and are not
balanced. -/
theorem compile_bytes (bytes : List UInt8) :
    (∃ p b, compile (.bytes bytes) = .ok p ∧ b.ops = opsOf bytes ∧ p.Encodes b) ∨
      ((∃ f, compile (.bytes bytes) = .error f) ∧ ¬ Balanced (opsOf bytes)) := by
  rcases Compiler.at_fresh.compileBytes bytes with
    ⟨p, c, b, compiled, spelled, encodes⟩ | ⟨⟨f, c, refused⟩, unbalanced⟩
  · exact .inl ⟨p, b, congrArg Prod.fst compiled, spelled, encodes⟩
  · exact .inr ⟨⟨f, congrArg Prod.fst refused⟩, unbalanced⟩

/-- A source compiles as the bytes that are read from it do. -/
theorem compile_eq_bytes (source : Source) :
    compile source =
      match source.read with
      | .error f => .error f
      | .ok bytes => compile (.bytes bytes) := by
  simp only [compile, Compiler.compile]
  cases source.read <;> rfl

/-- Whatever compiles is the code of the block that its source spells. -/
theorem compile_encodes {source : Source} {p : Program} (compiled : compile source = .ok p) :
    ∃ bytes b, source.read = .ok bytes ∧ b.ops = opsOf bytes ∧ p.Encodes b := by
  rw [compile_eq_bytes] at compiled
  cases read : source.read with
  | error f =>
    rw [read] at compiled
    cases compiled
  | ok bytes =>
    rw [read] at compiled
    rcases compile_bytes bytes with ⟨q, b, again, spelled, encodes⟩ | ⟨⟨f, refused⟩, _⟩
    · cases compiled.symm.trans again
      exact ⟨bytes, b, rfl, spelled, encodes⟩
    · cases compiled.symm.trans refused

/-- Bytes that spell a block compile to its code. -/
theorem compile_block {bytes : List UInt8} {b : Block} (spelled : b.ops = opsOf bytes) :
    ∃ p, compile (.bytes bytes) = .ok p ∧ p.Encodes b := by
  rcases compile_bytes bytes with ⟨p, b', compiled, again, encodes⟩ | ⟨_, unbalanced⟩
  · -- operations spell one block only
    have same := Block.ofOps?_ops b'
    rw [again, ← spelled, Block.ofOps?_ops] at same
    cases same
    exact ⟨p, compiled, encodes⟩
  · rw [← spelled] at unbalanced
    exact absurd b.balanced_ops unbalanced

end TapeMachine
