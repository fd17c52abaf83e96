import TapeMachine.Proofs.Correctness
import TapeMachine.Proofs.Handing

/-! Streams that cannot be told apart by the symbols they deliver drive a machine alike. A stream
that hands out text by the character is such a one: at each read it delivers the first byte of a
character, and the others are lost. So it is like the stream of these first bytes, and like the
UTF-8 of the text only where each character is one byte long. -/

namespace TapeMachine

/-- The bytes of a text that start a character. -/
def Utf8.leads (s : String) : List UInt8 := (encode s).filter fun b => decide b.IsUTF8FirstByte

/-- A stream that hands out a text, one character a read. -/
def Input.characters (s : String) : Input :=
  .script (s.toList.map fun c => .text (String.singleton c))

/-- Related inputs deliver the same at the next read, and are related again afterwards. -/
def Input.Agree (R : Input → Input → Prop) : Prop :=
  ∀ i j, R i j → ∀ index, (j.readSymbol index).1 = (i.readSymbol index).1 ∧
    R (i.readSymbol index).2 (j.readSymbol index).2

/-- The inputs of a run on a text and of one on its first bytes, with as many of the characters
left. -/
def Input.Spells (i j : Input) : Prop :=
  ∃ cs : List Char, i = .characters (String.ofList cs) ∧
    j = .ofBytes (Utf8.leads (String.ofList cs))

namespace Utf8

/-! ## First bytes -/

/-- The first byte of a character starts one, and no other does. -/
theorem char_bytes (c : Char) : ∃ b rest, String.utf8EncodeChar c = b :: rest ∧
    b.IsUTF8FirstByte ∧ ∀ x ∈ rest, ¬ x.IsUTF8FirstByte := by
  have first : ∀ i (inside : i < (String.utf8EncodeChar c).length),
      (String.utf8EncodeChar c)[i].IsUTF8FirstByte ↔ i = 0 := by
    intro i inside
    exact UInt8.isUTF8FirstByte_getElem_utf8EncodeChar
  have nonempty : 0 < (String.utf8EncodeChar c).length := by
    rw [String.length_utf8EncodeChar]
    exact c.utf8Size_pos
  generalize String.utf8EncodeChar c = bytes at first nonempty ⊢
  cases bytes with
  | nil => cases nonempty
  | cons b rest =>
    refine ⟨b, rest, rfl, (first 0 nonempty).mpr rfl, ?_⟩
    intro x mem start
    obtain ⟨i, inside, rfl⟩ := List.getElem_of_mem mem
    exact absurd ((first (i + 1) (Nat.succ_lt_succ inside)).mp start) (Nat.succ_ne_zero i)

theorem filter_char (c : Char) : ∃ b rest, String.utf8EncodeChar c = b :: rest ∧
    (String.utf8EncodeChar c).filter (fun b => decide b.IsUTF8FirstByte) = [b] := by
  obtain ⟨b, rest, spelled, start, others⟩ := char_bytes c
  have none : rest.filter (fun b => decide b.IsUTF8FirstByte) = [] :=
    List.filter_eq_nil_iff.mpr fun x mem => by simpa using others x mem
  refine ⟨b, rest, spelled, ?_⟩
  rw [spelled, List.filter_cons, if_pos (decide_eq_true start), none]

theorem leads_ofList_cons (c : Char) (cs : List Char) :
    ∃ b rest, encode (String.singleton c) = b :: rest ∧
      leads (String.ofList (c :: cs)) = b :: leads (String.ofList cs) := by
  obtain ⟨b, rest, spelled, first⟩ := filter_char c
  refine ⟨b, rest, by simpa [encode] using spelled, ?_⟩
  simp only [leads, encode, String.toList_ofList, List.flatMap_cons, List.filter_append, first]
  rfl

theorem length_leads (cs : List Char) : (leads (String.ofList cs)).length = cs.length := by
  induction cs with
  | nil => rfl
  | cons c cs ih =>
    obtain ⟨b, _, _, leads⟩ := leads_ofList_cons c cs
    rw [leads, List.length_cons, List.length_cons, ih]

/-- All bytes of a character start one exactly if it has only one. -/
theorem char_leads_iff (c : Char) :
    (∀ b ∈ String.utf8EncodeChar c, b.IsUTF8FirstByte) ↔ c.toNat < 128 := by
  have size : c.toNat < 128 ↔ (String.utf8EncodeChar c).length = 1 := by
    rw [String.length_utf8EncodeChar, Char.utf8Size_eq_one_iff, UInt32.le_iff_toNat_le]
    exact Nat.lt_succ_iff
  obtain ⟨b, rest, spelled, start, others⟩ := char_bytes c
  rw [size, spelled]
  cases rest with
  | nil =>
    refine ⟨fun _ => rfl, ?_⟩
    intro _ x mem
    rw [List.mem_singleton.mp mem]
    exact start
  | cons x rest =>
    constructor
    · intro leads
      exact absurd (leads x (by simp)) (others x (by simp))
    · intro one
      cases one

/-- No byte is lost exactly where each character is one byte long. -/
theorem leads_eq_encode_iff (s : String) :
    leads s = encode s ↔ ∀ c ∈ s.toList, c.toNat < 128 := by
  simp only [leads, encode, List.filter_eq_self, List.mem_flatMap, decide_eq_true_eq]
  constructor
  · intro leads c mem
    exact (char_leads_iff c).mp fun b inside => leads b ⟨c, mem, inside⟩
  · intro short b mem
    obtain ⟨c, mem, inside⟩ := mem
    exact (char_leads_iff c).mpr (short c mem) b inside

end Utf8

/-! ## Machines that read from another stream -/

namespace Machine

/-- The machine with another stream to read from. -/
def reading (m : Machine) (i : Input) : Machine := m.withConfig { m.config with input := i }

/-- What a machine does without a look at its input. -/
def Blind {α : Type} (act : Machine → α × Machine) : Prop :=
  ∀ m i, act (m.reading i) = ((act m).1, (act m).2.reading i)

variable {α : Type} {act : Machine → α × Machine} {R : Input → Input → Prop} {m : Machine}
  {i j : Input}

@[simp] theorem state_reading : (m.reading i).state = m.state := rfl

@[simp] theorem hasNext_reading : (m.reading i).hasNext = m.hasNext := rfl

@[simp] theorem snapshot_reading (fault : Option Fault) :
    (m.reading i).snapshot fault = m.snapshot fault := rfl

/-- Who does not look at the input leaves it as it is. -/
theorem Blind.kept (blind : Blind act) (m : Machine) :
    (act m).2.config.input = m.config.input := by
  have same := congrArg (fun answer => answer.2.config.input) (blind m m.config.input)
  exact same

/-- Handing out instructions makes nothing of the input. -/
theorem aside_reading (i : Input) : Aside fun m => m.reading i :=
  ⟨fun _ => rfl, fun _ => rfl, fun _ => rfl, fun _ => rfl, fun _ _ => rfl, fun _ _ => rfl,
    fun _ _ => rfl, fun _ _ => rfl, fun _ _ => rfl, fun _ _ => rfl, fun _ _ => rfl, fun _ => rfl,
    fun _ => rfl⟩

theorem blind_check : Blind check := fun m i => (aside_reading i).check m

theorem blind_next : Blind next := fun m i => (aside_reading i).next m

theorem blind_countStep : Blind countStep := fun m i => (aside_reading i).countStep m

/-! ## Machines that read alike -/

/-- A machine beside one that reads from a related stream. -/
structure Alike (R : Input → Input → Prop) (m w : Machine) : Prop where
  rest : w = m.reading w.config.input
  inputs : R m.config.input w.config.input

/-- Two ways things came out that are the same but for the streams the machines read from. -/
structure Likewise {β : Type} (R : Input → Input → Prop) (a b : β × Machine) : Prop where
  result : b.1 = a.1
  machine : a.2.Alike R b.2

theorem Likewise.split {β : Type} {a b : β × Machine} (h : Likewise R a b) :
    ∃ r n v, a = (r, n) ∧ b = (r, v) ∧ n.Alike R v :=
  ⟨a.1, a.2, b.2, rfl, Prod.ext h.result rfl, h.machine⟩

theorem Blind.likewise (blind : Blind act) {w : Machine} (alike : m.Alike R w) :
    Likewise R (act m) (act w) := by
  have inputs := alike.inputs
  rw [alike.rest, blind]
  refine ⟨rfl, rfl, ?_⟩
  rw [blind.kept]
  exact inputs

theorem Alike.note {w : Machine} (alike : m.Alike R w) (instruction : Instruction) (index : Int) :
    (∃ f, m.note instruction index = .error f ∧ w.note instruction index = .error f) ∨
      ∃ n v, m.note instruction index = .ok n ∧ w.note instruction index = .ok v ∧
        n.Alike R v := by
  obtain ⟨rest, inputs⟩ := alike
  generalize w.config.input = j at rest inputs
  subst rest
  unfold Machine.note
  by_cases tracing : m.tracing = true
  · have there : (m.reading j).tracing = true := tracing
    rw [if_pos tracing, if_pos there]
    cases instruction.symbol with
    | error f => exact .inl ⟨f, rfl, rfl⟩
    | ok symbol => exact .inr ⟨_, _, rfl, rfl, rfl, inputs⟩
  · have there : ¬ (m.reading j).tracing = true := tracing
    rw [if_neg tracing, if_neg there]
    exact .inr ⟨_, _, rfl, rfl, rfl, inputs⟩

theorem Alike.snapshot {w : Machine} (alike : m.Alike R w) (fault : Option Fault) :
    w.snapshot fault = m.snapshot fault := by
  rw [alike.rest, snapshot_reading]

theorem Alike.hasNext {w : Machine} (alike : m.Alike R w) : w.hasNext = m.hasNext := by
  rw [alike.rest, hasNext_reading]

theorem Alike.state {w : Machine} (alike : m.Alike R w) : w.state = m.state := by
  rw [alike.rest, state_reading]

/-- A change that does not look at the input keeps machines alike. -/
theorem Alike.change {w : Machine} (alike : m.Alike R w) (f : Machine → Machine)
    (blind : Blind fun m => ((), f m)) : (f m).Alike R (f w) :=
  (blind.likewise alike).machine

end Machine

namespace Config

/-- An operation reads the next symbol, or leaves the input alone. -/
theorem perform_reading {R : Input → Input → Prop} (agree : Input.Agree R) {c : Config} {j : Input}
    (related : R c.input j) (o : Op) (t : Option Int) (index : Int) :
    ∃ k, ({ c with input := j } : Config).perform o t index =
        ((c.perform o t index).1, { (c.perform o t index).2 with input := k }) ∧
      R (c.perform o t index).2.input k := by
  cases o with
  | moveRight | increment | decrement | output => exact ⟨j, rfl, related⟩
  | moveLeft =>
    simp only [perform, moveLeft]
    cases c.tape.moveLeft? <;> exact ⟨j, rfl, related⟩
  | loopStart | loopEnd =>
    unfold perform
    by_cases zero : c.tape.cell = 0
    · simp only [if_pos zero]
      exact ⟨j, rfl, related⟩
    · simp only [if_neg zero]
      exact ⟨j, rfl, related⟩
  | input =>
    obtain ⟨same, further⟩ := agree c.input j related index
    refine ⟨(j.readSymbol index).2, ?_, ?_⟩
    all_goals
      simp only [perform, readSymbol]
      generalize c.input.readSymbol index = this, j.readSymbol index = that at same further ⊢
      obtain ⟨result, i⟩ := this
      obtain ⟨_, k⟩ := that
      cases same
      cases result
    · rfl
    · rfl
    · exact further
    · exact further

end Config

namespace Machine

variable {R : Input → Input → Prop} {m w : Machine} (agree : Input.Agree R)
include agree

theorem Alike.execute (alike : m.Alike R w) (instruction : Instruction) (index : Int) :
    Likewise R (m.execute instruction index) (w.execute instruction index) := by
  rw [alike.rest]
  simp only [Machine.execute, Config.execute]
  obtain ⟨opcode, t⟩ := instruction
  cases opcode with
  | unknown name => exact ⟨rfl, rfl, alike.inputs⟩
  | op o =>
    obtain ⟨k, performed, related⟩ := Config.perform_reading agree alike.inputs o t index
    have performed : (m.reading w.config.input).config.perform o t index = _ := performed
    simp only [performed]
    exact ⟨rfl, rfl, related⟩

theorem Alike.attempt (alike : m.Alike R w) : Likewise R m.attempt w.attempt := by
  unfold Machine.attempt
  obtain ⟨r, m₁, w₁, here, there, alike⟩ := (blind_check.likewise alike).split
  rw [here, there]
  cases r with
  | error f => exact ⟨rfl, alike⟩
  | ok =>
    obtain ⟨r, m₂, w₂, here, there, alike⟩ := (blind_next.likewise alike).split
    simp only [here, there]
    cases r with
    | error f => exact ⟨rfl, alike⟩
    | ok fetched =>
      obtain ⟨instruction, index⟩ := fetched
      dsimp only
      rcases alike.note instruction index with ⟨f, here, there⟩ | ⟨m₃, w₃, here, there, noted⟩
      · rw [here, there]
        exact ⟨rfl, alike⟩
      · rw [here, there]
        exact noted.execute agree instruction index

theorem Alike.step (alike : m.Alike R w) : Likewise R m.step w.step := by
  unfold Machine.step
  rw [alike.state, alike.hasNext]
  by_cases final : m.state.isFinal = true
  · simp only [if_pos final]
    exact ⟨rfl, alike⟩
  · simp only [if_neg final]
    rcases m.hasNext with f | _ | _
    · exact ⟨rfl, alike⟩
    · exact ⟨rfl, alike.change complete fun _ _ => rfl⟩
    · have begun := alike.change (fun m => { m with state := .running }) fun _ _ => rfl
      obtain ⟨r, n, v, here, there, alike⟩ := (begun.attempt agree).split
      simp only [here, there]
      cases r with
      | error f => exact ⟨rfl, alike.change (·.fail f) fun _ _ => rfl⟩
      | ok => exact blind_countStep.likewise alike

/-- Machines that read alike take their turns alike. -/
theorem Alike.turn (alike : m.Alike R w) : Turn.Rel (Alike R) (Likewise R) m.turn w.turn := by
  unfold Machine.turn
  rw [alike.hasNext]
  rcases m.hasNext with f | _ | _
  · exact .done ⟨rfl, alike⟩
  · exact .done ⟨rfl, alike.change complete fun _ _ => rfl⟩
  · obtain ⟨r, n, v, here, there, alike⟩ := (alike.step agree).split
    simp only [here, there]
    cases r with
    | error f => exact .done ⟨rfl, alike⟩
    | ok => exact .again alike

omit agree

theorem blind_arm (o : RunOptions) : Blind fun m => ((), m.arm o) := by
  intro m i
  simp only [arm]
  cases o.gate <;> rfl

/-- Two runs that came out the same but for the streams the machines read from. -/
structure RunOutcome.Alike (R : Input → Input → Prop) (a b : RunOutcome) : Prop where
  result : b.result = a.result
  reported : b.reported = a.reported
  machine : a.machine.Alike R b.machine

theorem Likewise.conclude {a b : Except Fault Unit × Machine} (h : Likewise R a b)
    (snapshots : Bool) :
    (Machine.conclude snapshots a.1 a.2).Alike R (Machine.conclude snapshots b.1 b.2) := by
  obtain ⟨r, n, v, rfl, rfl, alike⟩ := h.split
  have report : v.report = n.report := by
    rw [alike.rest]
    rfl
  unfold Machine.conclude
  dsimp only
  by_cases wanted : (snapshots && !((Fault.ofResult? r).any Fault.isInterrupt)) = true
  · simp only [if_pos wanted, alike.snapshot, report]
    cases n.snapshot (Fault.ofResult? r) with
    | error f => exact ⟨rfl, rfl, alike⟩
    | ok picture =>
      refine ⟨rfl, rfl, ?_⟩
      have posted := alike.change (fun m => { m with report := m.report.push picture })
        fun _ _ => rfl
      rw [report] at posted
      exact posted
  · simp only [if_neg wanted, report]
    exact ⟨rfl, rfl, alike⟩

/-- Machines that read alike run alike. -/
theorem Alike.run (agree : Input.Agree R) (alike : m.Alike R w) (fuel : Nat) (o : RunOptions) :
    Option.Rel (RunOutcome.Alike R) (m.run fuel o) (w.run fuel o) := by
  unfold Machine.run
  rw [alike.state]
  by_cases ready : m.state = .ready
  · have armed := alike.change (·.arm o) (blind_arm o)
    have driven := Loop.turns_rel (fun _ _ alike => Alike.turn agree alike) fuel armed
    simp only [if_pos ready, drive]
    generalize Loop.turns Machine.turn fuel (m.arm o) = this,
      Loop.turns Machine.turn fuel (w.arm o) = that at driven ⊢
    cases driven with
    | none => exact .none
    | some ended => exact .some (ended.conclude o.snapshots)
  · simp only [if_neg ready]
    exact .some ⟨rfl, rfl, alike⟩

end Machine

/-! ## Text -/

/-- What is read of a text are its first bytes. -/
theorem Input.spells_agree : Input.Agree Input.Spells := by
  intro i j spells index
  obtain ⟨cs, rfl, rfl⟩ := spells
  cases cs with
  | nil => exact ⟨rfl, [], rfl, rfl⟩
  | cons c cs =>
    obtain ⟨b, rest, spelled, leads⟩ := Utf8.leads_ofList_cons c cs
    have first : (Input.characters (String.ofList (c :: cs))).readSymbol index =
        (.ok b, .characters (String.ofList cs)) := by
      simp [Input.characters, readSymbol, read, spelled]
    rw [first, leads]
    exact ⟨rfl, cs, rfl, rfl⟩

/-- So many bytes to be read, one over the other. -/
def Block.reads : Nat → Block
  | 0 => .done
  | n + 1 => .act .input (reads n)

/-- Reading comes to an end exactly where there are bytes enough. -/
theorem Block.eval_reads (n index : Nat) (s : Store) :
    ∃ meaning, (reads n).eval (n + 1) index s = some meaning ∧
      ((∃ t cost, meaning = .finished t cost) ↔ n ≤ s.input.length) := by
  induction n generalizing index s with
  | zero => exact ⟨.finished s 0, rfl, fun _ => Nat.zero_le _, fun _ => ⟨s, 0, rfl⟩⟩
  | succ n ih =>
    cases input : s.input with
    | nil =>
      refine ⟨.stopped .endOfInput index s, ?_, ?_, ?_⟩
      · simp [reads, eval, Store.perform, input]
      · intro finished
        obtain ⟨_, _, impossible⟩ := finished
        cases impossible
      · intro enough
        exact absurd enough (Nat.not_succ_le_zero n)
    | cons b rest =>
      obtain ⟨meaning, evaluated, enough⟩ := ih (index + 1) { s.set b with input := rest }
      refine ⟨meaning.after 1, ?_, ?_⟩
      · rw [reads, eval]
        simp only [Store.perform, input, evaluated]
        rfl
      · rw [List.length_cons, Nat.succ_le_succ_iff, ← enough]
        cases meaning with
        | finished t cost => exact ⟨fun _ => ⟨t, cost, rfl⟩, fun _ => ⟨t, 1 + cost, rfl⟩⟩
        | stopped why index t =>
          constructor
          · intro finished
            obtain ⟨_, _, impossible⟩ := finished
            cases impossible
          · intro finished
            obtain ⟨_, _, impossible⟩ := finished
            cases impossible

namespace Machine

/-- There is a program that reads so many bytes, and then completes. -/
theorem reads_to_end (n : Nat) : ∃ (source : Source) (p : Program), compile source = .ok p ∧
    ∀ bytes : List UInt8, ∃ a : RunOutcome,
      (onTape p .blank (.ofBytes bytes) .reliable).RunEnds {} a ∧
        (a.result = .ok () ↔ n ≤ bytes.length) := by
  obtain ⟨p, compiled, _⟩ := compile_block (opsOf_bytes (Block.reads n).ops).symm
  refine ⟨_, p, compiled, fun bytes => ?_⟩
  have inside : 0 < [(0 : UInt8)].length := by decide
  obtain ⟨_, b, m, read, spelled, created, forward, _⟩ :=
    run_agrees_with_meaning compiled inside bytes fun _ => (rfl : Output.reliable.faultAt _ = none)
  cases read
  rw [opsOf_bytes, Block.ofOps?_ops] at spelled
  cases spelled
  cases created
  obtain ⟨meaning, evaluated, enough⟩ :=
    Block.eval_reads n 0 ⟨[0], 0, bytes, Output.reliable.written⟩
  obtain ⟨a, ended, agrees⟩ := forward meaning ⟨n + 1, evaluated⟩
  refine ⟨a, ended, ?_⟩
  rw [← enough]
  cases meaning with
  | finished t cost => exact ⟨fun _ => ⟨t, cost, rfl⟩, fun _ => agrees.1⟩
  | stopped why index t =>
    constructor
    · intro completed
      cases agrees.1.symm.trans completed
    · intro finished
      obtain ⟨_, _, impossible⟩ := finished
      cases impossible

/-- Where runs come out alike, both end. -/
theorem ends_alike {R : Input → Input → Prop} {m w : Machine} {o : RunOptions} {b : RunOutcome}
    (alike : ∀ fuel, Option.Rel (RunOutcome.Alike R) (m.run fuel o) (w.run fuel o))
    (ended : w.RunEnds o b) : ∃ a, m.RunEnds o a ∧ a.Alike R b := by
  obtain ⟨fuel, ended⟩ := ended
  have here := alike fuel
  rw [ended] at here
  generalize came : m.run fuel o = this at here
  cases here with
  | some alike => exact ⟨_, ⟨fuel, came⟩, alike⟩

/-- Text is read by the first bytes of its characters: whatever a machine is set up for, a run that
reads a text comes out as one that reads these bytes, within as many turns and with as many
characters left to read. There is one such byte for each character. So compiled programs run on a
text as on its UTF-8, in every way but for the streams that are left, if the text is ASCII, and for
no other text: the other bytes of a character are lost. -/
theorem text_reads_as_first_bytes (s : String) :
    (∀ (m : Machine) (fuel : Nat) (o : RunOptions), Option.Rel (RunOutcome.Alike Input.Spells)
      ((m.reading (.characters s)).run fuel o) ((m.reading (.ofBytes (Utf8.leads s))).run fuel o)) ∧
    (Utf8.leads s).length = s.toList.length ∧
    ((∀ (source : Source) (m : Machine) (fuel : Nat) (o : RunOptions),
        compile source = .ok m.program → Option.Rel (RunOutcome.Alike fun _ _ => True)
          ((m.reading (.characters s)).run fuel o)
          ((m.reading (.ofBytes (Utf8.encode s))).run fuel o)) ↔
      ∀ c ∈ s.toList, c.toNat < 128) := by
  have first : ∀ (m : Machine) (fuel : Nat) (o : RunOptions),
      Option.Rel (RunOutcome.Alike Input.Spells) ((m.reading (.characters s)).run fuel o)
        ((m.reading (.ofBytes (Utf8.leads s))).run fuel o) := by
    intro m fuel o
    have alike : (m.reading (.characters s)).Alike Input.Spells
        (m.reading (.ofBytes (Utf8.leads s))) := by
      refine ⟨rfl, s.toList, ?_, ?_⟩
      · rw [String.ofList_toList]
        rfl
      · rw [String.ofList_toList]
        rfl
    exact alike.run Input.spells_agree fuel o
  have length := Utf8.length_leads s.toList
  rw [String.ofList_toList] at length
  refine ⟨first, length, ?_, ?_⟩
  · -- a program that reads all bytes of the UTF-8 does not complete on fewer
    intro same
    rw [← Utf8.leads_eq_encode_iff]
    obtain ⟨source, p, compiled, reads⟩ := reads_to_end (Utf8.encode s).length
    obtain ⟨b, ended, complete⟩ := reads (Utf8.encode s)
    obtain ⟨b', ended', complete'⟩ := reads (Utf8.leads s)
    obtain ⟨a, here, alike⟩ :=
      ends_alike
        (fun fuel => same source (onTape p .blank (.ofBytes []) .reliable) fuel {} compiled) ended
    obtain ⟨a', here', alike'⟩ :=
      ends_alike (fun fuel => first (onTape p .blank (.ofBytes []) .reliable) fuel {}) ended'
    cases runEnds_unique here here'
    have completed : b'.result = .ok () := by
      rw [alike'.result, ← alike.result]
      exact complete.mpr (Nat.le_refl _)
    exact List.filter_sublist.eq_of_length_le (complete'.mp completed)
  · intro ascii _ m fuel o _
    have come := first m fuel o
    rw [(Utf8.leads_eq_encode_iff s).mpr ascii] at come
    generalize (m.reading (.characters s)).run fuel o = this,
      (m.reading (.ofBytes (Utf8.encode s))).run fuel o = that at come ⊢
    cases come with
    | none => exact .none
    | some alike =>
      exact .some ⟨alike.result, alike.reported, alike.machine.rest, trivial⟩

/-- Of a letter that is two bytes long only the first is read: a program that echoes two bytes
fails at its second read, where on the UTF-8 of the letter it completes. -/
theorem accented_letter_loses_a_byte :
    ∃ p a b, compile (.text ",.,.") = .ok p ∧ Utf8.encode "é" = [0xC3, 0xA9] ∧
      (onTape p .blank (.characters "é") .reliable).run 6 {} = some a ∧
      a.result = .error (.report ⟨.readSymbol, none, some .endOfInput, some 2⟩) ∧
      a.machine.config.output.written = [0xC3] ∧ a.machine.steps = 2 ∧
      (onTape p .blank (.ofBytes (Utf8.encode "é")) .reliable).run 6 {} = some b ∧
      b.result = .ok () ∧ b.machine.config.output.written = [0xC3, 0xA9] ∧
      b.machine.steps = 4 := by
  obtain ⟨p, compiled⟩ : ∃ p, compile (.text ",.,.") = .ok p := ⟨_, rfl⟩
  obtain ⟨a, ran, failed⟩ : ∃ a, (onTape p .blank (.characters "é") .reliable).run 6 {} = some a ∧
      a.result = .error (.report ⟨.readSymbol, none, some .endOfInput, some 2⟩) ∧
      a.machine.config.output.written = [0xC3] ∧ a.machine.steps = 2 := by
    cases compiled
    exact ⟨_, rfl, rfl, rfl, rfl⟩
  obtain ⟨b, ran', completed⟩ :
      ∃ b, (onTape p .blank (.ofBytes (Utf8.encode "é")) .reliable).run 6 {} = some b ∧
      b.result = .ok () ∧ b.machine.config.output.written = [0xC3, 0xA9] ∧
      b.machine.steps = 4 := by
    cases compiled
    exact ⟨_, rfl, rfl, rfl, rfl⟩
  obtain ⟨result, written, steps⟩ := failed
  exact ⟨p, a, b, compiled, by decide +kernel, ran, result, written, steps, ran', completed⟩

end Machine
end TapeMachine
