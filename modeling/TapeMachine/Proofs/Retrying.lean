import TapeMachine.Proofs.OpenLoops

/-! A compiler that has failed is used again. It goes on where it has stopped: what it has taken in
of the sources so far is one source to it, which the next one may complete. -/

namespace TapeMachine

/-- What a compiler becomes by calls that all fail, each with its source and the fault that it ends
in. -/
inductive Compiler.Refused : List (Source × Fault) → Compiler → Prop
  | fresh : Refused [] .fresh
  | again {calls : List (Source × Fault)} {c c' : Compiler} {source : Source} {f : Fault}
    (before : Refused calls c) (failed : c.compile source = (.error f, c')) :
    Refused (calls ++ [(source, f)]) c'

/-- The bytes of a source that a call leaves in the compiler, by the fault it ends in: none of a
source that could not be read, all up to the loop end at fault, or all if some loop is left
open. -/
inductive Contributes : Source → Fault → List UInt8 → Prop
  | unread {source : Source} {f : Fault} (read : source.read = .error f) : Contributes source f []
  | unmatched {source : Source} {front rest : List UInt8}
    (read : source.read = .ok (front ++ Op.loopEnd.byte :: rest)) :
    Contributes source (Compiler.unmatched (lineBehind front) (columnBehind front)) front
  | unclosed {source : Source} {bytes : List UInt8} {l : Location}
    (read : source.read = .ok bytes) : Contributes source (Compiler.unclosed l.line l.column) bytes

/-- What each of several calls contributes. -/
inductive Contributed : List (Source × Fault) → List (List UInt8) → Prop
  | none : Contributed [] []
  | more {calls : List (Source × Fault)} {parts : List (List UInt8)} {source : Source} {f : Fault}
    {part : List UInt8} (before : Contributed calls parts) (next : Contributes source f part) :
    Contributed (calls ++ [(source, f)]) (parts ++ [part])

/-- Each instruction comes from a byte of one of the sources, and is kept with the line and the
column of that byte in its own source. -/
def Program.Placed (p : Program) (parts : List (List UInt8)) : Prop :=
  ∀ (k : Nat) (i : Instruction), p.instructions[k]? = some i →
    ∃ earlier before o after later, parts = earlier ++ (before ++ o.byte :: after) :: later ∧
      k = (opsOf earlier.flatten).length + (opsOf before).length ∧ i.opcode = .op o ∧
      p.location k = some ⟨lineBehind before, columnBehind before⟩

/-! ## Places in several sources -/

/-- The places of all operations, each in its own source. -/
def Scanner.marksOf (parts : List (List UInt8)) : List Location :=
  parts.flatMap fun part => marks part {}

variable {parts : List (List UInt8)} {k : Nat} {o : Op}

theorem place_of_op (found : (opsOf parts.flatten)[k]? = some o) :
    ∃ earlier before after later, parts = earlier ++ (before ++ o.byte :: after) :: later ∧
      k = (opsOf earlier.flatten).length + (opsOf before).length ∧
      (Scanner.marksOf parts)[k]? = some ⟨lineBehind before, columnBehind before⟩ := by
  induction parts generalizing k with
  | nil => cases found
  | cons part parts ih =>
    rw [List.flatten_cons, opsOf_append] at found
    rcases found_append found with here | ⟨j, rfl, there⟩
    · obtain ⟨inside, same⟩ := List.getElem?_eq_some_iff.mp here
      have split : opsOf part = (opsOf part).take k ++ o :: (opsOf part).drop (k + 1) := by
        rw [← same, List.getElem_cons_drop, List.take_append_drop]
      obtain ⟨before, after, rfl, front, _⟩ := split_of_opsOf split
      have index : (opsOf before).length = k := by
        rw [front, List.length_take]
        omega
      refine ⟨[], before, after, parts, rfl, ?_, ?_⟩
      · rw [index]
        exact (Nat.zero_add k).symm
      · have marked : (Scanner.marks (before ++ o.byte :: after) {})[(opsOf before).length]? =
            some ⟨lineBehind before, columnBehind before⟩ := Scanner.marks_split (Op.ofByte?_byte o)
        rw [index] at marked
        exact found_front marked _
    · obtain ⟨earlier, before, after, later, rfl, rfl, marked⟩ := ih there
      refine ⟨part :: earlier, before, after, later, rfl, ?_, ?_⟩
      · rw [List.flatten_cons, opsOf_append, List.length_append, Nat.add_assoc]
      · rw [← Scanner.length_marks part {}]
        exact found_back marked _

theorem Program.location_of_places {p : Program} {places : List Location}
    (located : p.locations = places.map some) (k : Nat) : p.location k = places[k]? := by
  rw [location_eq, located, List.getElem?_map]
  cases places[k]? <;> rfl

namespace Compiler

/-! ## One call more -/

variable {c c' : Compiler} {n : Nest} {source : Source} {f : Fault}

/-- The innermost open loop has a place, as all instructions have. -/
theorem At.open_located {places : List Location} (h : c.At n)
    (located : c.program.locations = places.map some) {top : Nat} {outer : List Nat}
    (opened : c.openLoops = top :: outer) : ∃ l, c.program.location top = some l := by
  have inside : top < c.program.instructions.length := by
    rw [h.code]
    refine n.halfLinked.lt_length ?_
    rw [← h.openLoops, opened]
    exact List.mem_cons_self ..
  have count := congrArg List.length located
  rw [Program.locations, List.length_map, List.length_map] at count
  rw [Program.instructions, List.length_map, count] at inside
  exact ⟨_, (Program.location_of_places located top).trans (List.getElem?_eq_getElem inside)⟩

/-- A call that fails leaves the bytes that it contributes. -/
theorem At.refused {places : List Location} (h : c.At n)
    (located : c.program.locations = places.map some)
    (failed : c.compile source = (.error f, c')) :
    ∃ part n', Contributes source f part ∧ c.Scanned n part {} c' n' := by
  unfold compile at failed
  cases read : source.read with
  | error why =>
    rw [read] at failed
    cases failed
    exact ⟨[], n, .unread read, h, (List.append_nil _).symm, (List.append_nil _).symm⟩
  | ok bytes =>
    rw [read] at failed
    simp only [Compiler.compileBytes, Scanner.tokens, Scanner.ofBytes] at failed
    rcases h.acceptAll bytes {} with
      ⟨c₁, n₁, run, scanned⟩ | ⟨front, rest, c₁, n₁, rfl, run, scanned, _⟩
    · rw [run] at failed
      dsimp only at failed
      obtain ⟨inner, outer⟩ := n₁
      cases outer with
      | nil =>
        simp only [close, scanned.stands.openLoops, Nest.starts] at failed
        cases failed
      | cons b outer =>
        have placed : c₁.program.locations = (places ++ Scanner.marks bytes {}).map some := by
          rw [scanned.located, located, List.map_append]
        obtain ⟨l, place⟩ := scanned.stands.open_located placed scanned.stands.openLoops
        simp only [close, scanned.stands.openLoops, Nest.starts, place] at failed
        cases failed
        exact ⟨bytes, _, .unclosed read, scanned⟩
    · rw [run] at failed
      cases failed
      rw [Place.behind_start]
      exact ⟨front, n₁, .unmatched read, scanned⟩

/-- Calls that all fail leave what they contribute, as if it were one source. -/
theorem Refused.scanned {calls : List (Source × Fault)} (refused : Refused calls c) :
    ∃ parts n, Contributed calls parts ∧ c.At n ∧ n.ops = opsOf parts.flatten ∧
      c.program.locations = (Scanner.marksOf parts).map some := by
  induction refused with
  | fresh => exact ⟨[], {}, .none, at_fresh, rfl, rfl⟩
  | again _ failed ih =>
    obtain ⟨parts, n, contributed, holds, spelled, located⟩ := ih
    obtain ⟨part, n', next, scanned⟩ := holds.refused located failed
    refine ⟨parts ++ [part], n', contributed.more next, scanned.stands, ?_, ?_⟩
    · rw [scanned.spelled, spelled, ← opsOf_append, List.flatten_append, List.flatten_singleton]
    · rw [scanned.located, located, ← List.map_append]
      simp [Scanner.marksOf]

/-- The nest that a compiler would be at had all its sources been one. -/
theorem scanned_at_once {bytes : List UInt8} (spelled : n.ops = opsOf bytes) :
    ∃ c₁, fresh.acceptAll (Scanner.ofBytes bytes).tokens = (.ok (), c₁) ∧ c₁.At n := by
  rcases at_fresh.acceptAll bytes {} with
    ⟨c₁, n₁, run, scanned⟩ | ⟨front, rest, c₁, n₁, rfl, _, scanned, closed⟩
  · -- the operations lead to no other nest
    have same : n₁ = n := Nest.ops_injective (scanned.spelled.trans spelled.symm)
    exact ⟨c₁, run, same ▸ scanned.stands⟩
  · -- in no nest more loops have ended than started
    have reached : opsOf front ++ [.loopEnd] <+: n.ops := by
      rw [spelled, opsOf_append]
      exact (List.prefix_append_right_inj _).mpr ⟨opsOf rest, rfl⟩
    have front : n₁.ops = opsOf front := scanned.spelled
    have started := Nest.started reached
    rw [← front, balance_append, Nest.balance_ops, closed] at started
    exact absurd started (by decide)

/-- The next call completes the sources if it ends just the loops that they have left open. -/
theorem At.compiles_iff (h : c.At n) :
    (∃ p c', c.compile source = (.ok p, c')) ↔
      ∃ bytes, source.read = .ok bytes ∧ Closing n.outer.length (opsOf bytes) := by
  unfold Compiler.compile
  cases source.read with
  | error f =>
    constructor
    · intro compiles
      obtain ⟨_, _, impossible⟩ := compiles
      cases impossible
    · intro closes
      obtain ⟨_, impossible, _⟩ := closes
      cases impossible
  | ok bytes =>
    constructor
    · intro compiles
      obtain ⟨p, c', compiled⟩ := compiles
      refine ⟨bytes, rfl, n.balanced_iff_closing.mp ?_⟩
      rcases h.compileBytes bytes with ⟨_, _, b, _, spelled, _⟩ | ⟨⟨_, _, refused⟩, _⟩
      · rw [← spelled]
        exact b.balanced_ops
      · cases compiled.symm.trans refused
    · intro closes
      obtain ⟨_, same, closing⟩ := closes
      cases same
      rcases h.compileBytes bytes with ⟨p, c', _, compiled, _⟩ | ⟨_, unbalanced⟩
      · exact ⟨p, c', compiled⟩
      · exact absurd (n.balanced_iff_closing.mpr closing) unbalanced

end Compiler

/-- A compiler that keeps failing acts as one scan. After calls that have all failed, whatever their
sources, its open loops and its instructions are those of a scan of what the sources have
contributed, put together: nothing of one that could not be read, all up to the loop end at fault,
or all of one that leaves loops open. The program is not frozen, its open loops are the loop starts
without target, in order, all other brackets are linked in pairs, and each instruction is kept with
its place in its own source. The next call compiles if and only if its source can be read and ends
just the open loops, being balanced otherwise; it returns the linked program of the whole, with the
instructions that this compiles to at once. -/
theorem failing_compiler_scans_on {calls : List (Source × Fault)} {c : Compiler}
    (refused : Compiler.Refused calls c) :
    ∃ parts, Contributed calls parts ∧
      (∃ c₁, Compiler.fresh.acceptAll (Scanner.ofBytes parts.flatten).tokens = (.ok (), c₁) ∧
        c.openLoops = c₁.openLoops ∧ c.program.instructions = c₁.program.instructions) ∧
      c.program.frozen = false ∧
      HalfLinked c.program.instructions (opsOf parts.flatten) c.openLoops ∧
      c.program.Placed parts ∧
      (∀ source, (∃ p c', c.compile source = (.ok p, c')) ↔
        ∃ bytes, source.read = .ok bytes ∧ Closing c.openLoops.length (opsOf bytes)) ∧
      ∀ source bytes p c', source.read = .ok bytes → c.compile source = (.ok p, c') →
        p.Linked (opsOf (parts.flatten ++ bytes)) ∧
        ∃ q, compile (.bytes (parts.flatten ++ bytes)) = .ok q ∧
          q.instructions = p.instructions := by
  obtain ⟨parts, n, contributed, holds, spelled, located⟩ := refused.scanned
  have linked := n.halfLinked
  rw [spelled] at linked
  refine ⟨parts, contributed, ?_, holds.growing, ?_, ?_, ?_, ?_⟩
  · obtain ⟨c₁, scanned, holds₁⟩ := Compiler.scanned_at_once spelled
    exact ⟨c₁, scanned, holds.openLoops.trans holds₁.openLoops.symm,
      holds.code.trans holds₁.code.symm⟩
  · rw [holds.code, holds.openLoops]
    exact linked
  · intro k i found
    rw [holds.code] at found
    obtain ⟨o, op, known⟩ := op_of_opcodes linked.opcodes found
    obtain ⟨earlier, before, after, later, split, index, place⟩ := place_of_op op
    refine ⟨earlier, before, o, after, later, split, index, known, ?_⟩
    rw [Program.location_of_places located, place]
  · intro source
    rw [holds.openLoops, Nest.length_starts]
    exact holds.compiles_iff
  · intro source bytes p c' read compiled
    unfold Compiler.compile at compiled
    rw [read] at compiled
    rcases holds.compileBytes bytes with ⟨q, _, b, again, whole, encodes⟩ | ⟨⟨_, _, failed⟩, _⟩
    · cases compiled.symm.trans again
      rw [spelled, ← opsOf_append] at whole
      obtain ⟨q, compiled, same⟩ := compile_block whole
      refine ⟨whole ▸ encodes.linked, q, compiled, ?_⟩
      rw [same.code, encodes.code]
    · cases compiled.symm.trans failed

/-- A loop end too many, a reader that fails, and two loops left open, on two lines; and a source
that ends them. -/
theorem fourth_source_completes :
    ∃ c p c', Compiler.Refused [(.text "+]", Compiler.unmatched 1 2),
        (.failing ⟨.system, "gone"⟩,
          .report ⟨.compilation, none, some ⟨.system, "gone"⟩, none⟩),
        (.text "[\n[", Compiler.unclosed 2 1)] c ∧
      c.openLoops = [2, 1] ∧ c.compile (.text "]-]") = (.ok p, c') ∧
      p.Linked [.increment, .loopStart, .loopStart, .loopEnd, .decrement, .loopEnd] := by
  let c₁ := (Compiler.fresh.compile (.text "+]")).2
  let c₂ := (c₁.compile (.failing ⟨.system, "gone"⟩)).2
  let c₃ := (c₂.compile (.text "[\n[")).2
  have refused : Compiler.Refused [(.text "+]", Compiler.unmatched 1 2),
      (.failing ⟨.system, "gone"⟩, .report ⟨.compilation, none, some ⟨.system, "gone"⟩, none⟩),
      (.text "[\n[", Compiler.unclosed 2 1)] c₃ := by
    have first : Compiler.fresh.compile (.text "+]") = (.error (Compiler.unmatched 1 2), c₁) := rfl
    have second : c₁.compile (.failing ⟨.system, "gone"⟩) =
      (.error (.report ⟨.compilation, none, some ⟨.system, "gone"⟩, none⟩), c₂) := rfl
    have third : c₂.compile (.text "[\n[") = (.error (Compiler.unclosed 2 1), c₃) := rfl
    exact ((Compiler.Refused.fresh.again first).again second).again third
  obtain ⟨parts, _, _, _, linked, _, _, completes⟩ := failing_compiler_scans_on refused
  have taken : opsOf parts.flatten = [.increment, .loopStart, .loopStart] := by
    have opcodes : [Op.increment, .loopStart, .loopStart].map Opcode.op =
      (opsOf parts.flatten).map Opcode.op := linked.opcodes
    exact ((List.map_inj_right fun _ _ same => Opcode.op.inj same).mp opcodes).symm
  obtain ⟨p, c', compiled⟩ : ∃ p c', c₃.compile (.text "]-]") = (.ok p, c') := ⟨_, _, rfl⟩
  have whole := (completes (.text "]-]") [0x5D, 0x2D, 0x5D] p c' rfl compiled).1
  rw [opsOf_append, taken] at whole
  exact ⟨c₃, p, c', refused, rfl, compiled, whole⟩

end TapeMachine
