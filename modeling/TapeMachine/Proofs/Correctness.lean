import TapeMachine.Proofs.BlockTicks
import TapeMachine.Proofs.PlainRun

/-! A compiled program, run, does what its source means: the run ends if and only if evaluation
of the block does, and then both end alike. -/

namespace TapeMachine

/-- What a block comes to from a store. -/
def Block.Means (b : Block) (s : Store) (meaning : Meaning) : Prop :=
  ∃ fuel, b.eval fuel 0 s = some meaning

namespace Machine

/-- An outcome that a meaning describes. Where evaluation stops, the run has failed at the same
operation, and reports it. -/
def RunOutcome.Agrees (o : RunOutcome) : Meaning → Prop
  | .finished s cost =>
    o.result = .ok () ∧ o.machine.state = .completed ∧ o.machine.config.Shows s ∧
      o.machine.steps = cost
  | .stopped why index s =>
    o.result = .error (why.fault index) ∧ o.machine.state = .failed ∧ o.machine.config.Shows s ∧
      o.machine.program.instructions[index]? = some ⟨.op why.op, none⟩

/-- A machine is created on any cells and any pointer to one of them, and is ready to run. -/
theorem create_inside (p : Program) {cells : List UInt8} {pointer : Nat}
    (inside : pointer < cells.length) (input : Input) (output : Output) :
    ∃ tape : Tape, tape.cells = cells ∧ tape.pointer = pointer ∧
      create p cells pointer input output = .ok (onTape p tape input output) := by
  obtain ⟨tape, found⟩ := Option.isSome_iff_exists.1 (Tape.at?_isSome inside)
  obtain ⟨same, there⟩ := Tape.cells_of_at? found
  refine ⟨tape, same, there, ?_⟩
  have some_cells : cells.isEmpty = false := by
    cases cells with
    | nil => cases inside
    | cons => rfl
  simp [create, some_cells, found, onTape]

theorem create_cells (p : Program) (tape : Tape) (input : Input) (output : Output) :
    create p tape.cells tape.pointer input output = .ok (onTape p tape input output) := by
  obtain ⟨again, cells, pointer, created⟩ := create_inside p tape.pointer_lt input output
  rw [created, Tape.ext_cells cells pointer]

/-- A machine that was created stands on a tape, and one for any other program can be created
on it as well. -/
theorem create_ok {p : Program} {cells : List UInt8} {pointer : Int} {input : Input}
    {output : Output} {m : Machine} (created : create p cells pointer input output = .ok m) :
    ∃ tape, m = onTape p tape input output ∧
      ∀ q, create q cells pointer input output = .ok (onTape q tape input output) := by
  simp only [create] at created ⊢
  generalize (if 0 ≤ pointer then Tape.at? (if cells.isEmpty then [0] else cells) pointer.toNat
    else none) = found at created ⊢
  cases found with
  | none => cases created
  | some tape =>
    cases created
    exact ⟨tape, rfl, fun _ => rfl⟩

theorem plain_onTape {p : Program} (sound : p.Sound) (tape : Tape) (input : Input)
    (output : Output) : (onTape p tape input output).Plain := by
  have safe : (onTape p tape input output).Safe := ⟨sound, 0, rfl, Nat.zero_le _⟩
  exact ⟨⟨safe, fun _ => rfl⟩, rfl, ⟨rfl, rfl, rfl⟩⟩

theorem run_onTape (p : Program) (tape : Tape) (input : Input) (output : Output) (fuel : Nat) :
    (onTape p tape input output).run fuel {} =
      (Loop.turns turn fuel (onTape p tape input output)).map fun (r, m) => conclude false r m :=
  rfl

namespace Plain

variable {m : Machine} {fuel : Nat}

/-- Where evaluation comes to something, a plain run comes to the same. -/
theorem ends_of_follows (plain : m.Plain) (fresh : m.steps = 0) {meaning : Meaning}
    (follows : m.config.Follows m.program m.program.length fuel (some meaning)) :
    ∃ n r m', Loop.turns turn n m = some (r, m') ∧
      RunOutcome.Agrees ⟨r, m'.report.toList, m'⟩ meaning := by
  cases meaning with
  | finished s cost =>
    obtain ⟨c, ticked, ip, shows⟩ := follows
    obtain ⟨m', reached, plain', program, rfl, steps⟩ := plain.after_ticks ticked
    have spent : m'.more = false := by
      have ip : m'.ip = some (m.program.length : Int) := ip
      rw [more_linear plain'.linear ip, program]
      simp
    have ends := Loop.ends_of_after reached (turn_over plain'.toSafe spent)
    refine ⟨_, _, _, ends, rfl, rfl, shows, ?_⟩
    change m'.steps = cost
    omega
  | stopped why index s =>
    obtain ⟨n, c, ticked, ip, shows, found, failed⟩ := follows
    obtain ⟨m', reached, plain', program, rfl, steps⟩ := plain.after_ticks ticked
    have more : m'.more = true := by
      have ip : m'.ip = some (index : Int) := ip
      rw [more_linear plain'.linear ip, program]
      exact decide_eq_true (Program.lt_length found)
    rw [← program] at failed
    obtain ⟨m₁, last, program₁, config₁, _, _⟩ := plain'.turn_fault more failed
    refine ⟨_, _, _, Loop.ends_of_after reached last, rfl, ?_, ?_, ?_⟩
    · cases why <;> rfl
    · change m₁.config.Shows s
      rw [config₁]
      exact shows.jump _
    · change m₁.program.instructions[index]? = _
      rw [program₁, program]
      exact found

/-- As long as evaluation goes on, a plain run does. -/
theorem turns_of_follows (plain : m.Plain) {finish : Nat}
    (follows : m.config.Follows m.program finish fuel none) : Loop.turns turn fuel m = none := by
  obtain ⟨n, c, enough, ticked⟩ := follows
  obtain ⟨_, reached, _⟩ := plain.after_ticks ticked
  exact Loop.turns_of_after enough reached

end Plain

/-- Running what a source compiles to is evaluating the block that the source spells: on every
tape and every input, and with an output that does not fail, the run comes to an outcome if and
only if evaluation comes to a meaning, and these agree. -/
theorem run_agrees_with_meaning {source : Source} {p : Program} (compiled : compile source = .ok p)
    {cells : List UInt8} {pointer : Nat} (inside : pointer < cells.length) (input : List UInt8)
    {output : Output} (reliable : ∀ n, output.faultAt n = none) :
    ∃ bytes b m, source.read = .ok bytes ∧ Block.ofOps? (opsOf bytes) = some b ∧
      create p cells pointer (.ofBytes input) output = .ok m ∧
      (∀ meaning, b.Means ⟨cells, pointer, input, output.written⟩ meaning →
        ∃ o, m.RunEnds {} o ∧ o.Agrees meaning) ∧
      (∀ o, m.RunEnds {} o →
        ∃ meaning, b.Means ⟨cells, pointer, input, output.written⟩ meaning ∧ o.Agrees meaning) ∧
      ((∀ fuel, m.run fuel {} = none) ↔
        ∀ fuel, b.eval fuel 0 ⟨cells, pointer, input, output.written⟩ = none) := by
  obtain ⟨bytes, b, read, spelled, encodes⟩ := compile_encodes compiled
  obtain ⟨tape, rfl, rfl, created⟩ := create_inside p inside (.ofBytes input) output
  refine ⟨bytes, b, _, read, by rw [← spelled, Block.ofOps?_ops], created, ?_⟩
  have plain := plain_onTape encodes.linked.sound tape (.ofBytes input) output
  have runs := run_onTape p tape (.ofBytes input) output
  have shows : (onTape p tape (.ofBytes input) output).config.Shows
      ⟨tape.cells, tape.pointer, input, output.written⟩ := ⟨rfl, rfl, rfl, rfl, reliable⟩
  have follows := fun fuel => Block.eval_follows fuel b encodes.holds rfl shows
  rw [Nat.zero_add, ← encodes.length] at follows
  have fresh : (onTape p tape (.ofBytes input) output).steps = 0 := rfl
  have program : (onTape p tape (.ofBytes input) output).program = p := rfl
  generalize onTape p tape (.ofBytes input) output = m at plain runs follows fresh program
  subst program
  generalize (⟨tape.cells, tape.pointer, input, output.written⟩ : Store) = s at follows
  have forward : ∀ meaning, b.Means s meaning → ∃ o, m.RunEnds {} o ∧ o.Agrees meaning := by
    intro meaning ⟨fuel, evaluated⟩
    have follows := follows fuel
    rw [evaluated] at follows
    obtain ⟨n, r, m', ended, agrees⟩ := plain.ends_of_follows fresh follows
    exact ⟨_, ⟨n, by rw [runs, ended]; rfl⟩, agrees⟩
  have onward : ∀ fuel, b.eval fuel 0 s = none → m.run fuel {} = none := by
    intro fuel going
    have follows := follows fuel
    rw [going] at follows
    rw [runs, plain.turns_of_follows follows]
    rfl
  refine ⟨forward, ?_, ?_, ?_⟩
  · rintro o ⟨fuel, ran⟩
    cases evaluated : b.eval fuel 0 s with
    | none =>
      rw [onward fuel evaluated] at ran
      cases ran
    | some meaning =>
      obtain ⟨o', ended', agrees⟩ := forward meaning ⟨fuel, evaluated⟩
      cases runEnds_unique ⟨fuel, ran⟩ ended'
      exact ⟨meaning, ⟨fuel, evaluated⟩, agrees⟩
  · intro never fuel
    cases evaluated : b.eval fuel 0 s with
    | none => rfl
    | some meaning =>
      obtain ⟨o, ⟨k, ran⟩, _⟩ := forward meaning ⟨fuel, evaluated⟩
      rw [never k] at ran
      cases ran
  · intro never fuel
    exact onward fuel (never fuel)

/-- A program that echoes its input until there is none left, run on two bytes. -/
theorem echo_agrees_with_meaning :
    ∃ p m o, compile (.text "+[,.]") = .ok p ∧ 1 < [0, 7].length ∧
      (∀ n, Output.reliable.faultAt n = none) ∧
      create p [0, 7] (1 : Nat) (.ofBytes [0x61, 0x62]) .reliable = .ok m ∧
      m.RunEnds {} o ∧
      o.Agrees (.stopped .endOfInput 2 ⟨[0, 0x62], 1, [], [0x61, 0x62]⟩) := by
  have reliable : ∀ n, Output.reliable.faultAt n = none := fun _ => rfl
  obtain ⟨p, compiled⟩ : ∃ p, compile (.text "+[,.]") = .ok p := ⟨_, rfl⟩
  have inside : 1 < [(0 : UInt8), 7].length := by decide
  obtain ⟨bytes, b, m, read, spelled, created, forward, _⟩ :=
    run_agrees_with_meaning compiled inside [0x61, 0x62] reliable
  have echo : Block.ofOps? (opsOf bytes) =
      some (.act .increment (.loop (.act .input (.act .output .done)) .done)) := by
    cases read
    rfl
  rw [echo] at spelled
  cases spelled
  obtain ⟨o, ended, agrees⟩ := forward _ ⟨8, rfl⟩
  exact ⟨p, m, o, compiled, inside, reliable, created, ended, agrees⟩

end Machine
end TapeMachine
