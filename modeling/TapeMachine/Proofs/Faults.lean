import TapeMachine.Proofs.Ticks

/-! What a tick that fails leaves behind, and what it can fail with. Streams are ordinary if
nothing they raise is an interrupt from the keyboard; no instruction makes them otherwise. -/

namespace TapeMachine

/-- An input that nobody interrupts. -/
def Input.Ordinary : Input → Prop
  | .bytes _ atEnd => atEnd = .ended
  | .script chunks => ∀ c, .fault c ∈ chunks → c.kind ≠ .interrupt
  | .closed => True
  | .prompted reader => reader.console.atEnd = .ended

/-- An output that nobody interrupts. -/
def Output.Ordinary (o : Output) : Prop := ∀ n c, o.faultAt n = some c → c.kind ≠ .interrupt

structure Config.Ordinary (c : Config) : Prop where
  input : c.input.Ordinary
  output : c.output.Ordinary

/-- A fault by which a machine fails, and is not merely stopped. -/
structure Fault.Failing (f : Fault) : Prop where
  interrupt : f.isInterrupt = false
  cancellation : f.isCancellation = false

/-! ## Streams -/

theorem Console.ask_ordinary {c : Console} (calm : c.atEnd = .ended) (prompt : String) :
    (c.ask prompt).1 ≠ .interrupted ∧ (c.ask prompt).2.atEnd = .ended := by
  simp only [ask, put, calm]
  split
  · exact ⟨nofun, rfl⟩
  · split
    · exact ⟨nofun, rfl⟩
    · exact ⟨nofun, rfl⟩

theorem PromptedInput.read_ordinary {r : PromptedInput} (calm : r.console.atEnd = .ended)
    (size : Int) :
    (∃ data, (r.read size).1 = .ok data) ∧ (r.read size).2.console.atEnd = .ended := by
  have asked := Console.ask_ordinary calm r.prompt
  unfold read
  by_cases dry : r.buffer = []
  · rw [if_pos dry]
    generalize r.console.ask r.prompt = answer at asked ⊢
    obtain ⟨answer, console⟩ := answer
    cases answer with
    | line cs => exact ⟨⟨_, rfl⟩, asked.2⟩
    | ended => exact ⟨⟨_, rfl⟩, asked.2⟩
    | interrupted => exact absurd rfl asked.1
  · rw [if_neg dry]
    exact ⟨⟨_, rfl⟩, calm⟩

theorem Input.read_ordinary {i : Input} (h : i.Ordinary) :
    i.read.2.Ordinary ∧ ∀ c, i.read.1 = .error c → c.kind ≠ .interrupt := by
  cases i with
  | bytes rest atEnd =>
    cases h
    cases rest with
    | nil => exact ⟨rfl, nofun⟩
    | cons b rest => exact ⟨rfl, nofun⟩
  | script chunks =>
    have h : ∀ c, .fault c ∈ chunks → c.kind ≠ .interrupt := h
    cases chunks with
    | nil => exact ⟨h, nofun⟩
    | cons chunk rest =>
      have later : (Input.script rest).Ordinary := fun c mem => h c (List.mem_cons_of_mem _ mem)
      cases chunk with
      | bytes bs => exact ⟨later, nofun⟩
      | text s => exact ⟨later, nofun⟩
      | fault c =>
        refine ⟨later, ?_⟩
        rintro _ ⟨⟩
        exact h c List.mem_cons_self
  | closed =>
    refine ⟨trivial, ?_⟩
    rintro _ ⟨⟩
    exact nofun
  | prompted reader =>
    obtain ⟨⟨data, told⟩, calm⟩ := reader.read_ordinary h 1
    rw [read]
    refine ⟨calm, fun c raised => ?_⟩
    rw [told] at raised
    cases raised

/-- What a stream raises becomes a failure, of the stream's own or of the instruction. -/
theorem failing_of_cause {c : Cause} (h : c.kind ≠ .interrupt) {kind : ReportKind}
    (known : kind ≠ .cancellation) (index : Int) :
    (if c.kind.isStreamFailure then Fault.report ⟨kind, none, some c, some index⟩
      else .stream c).Failing := by
  split
  · exact ⟨rfl, by simpa [Fault.isCancellation] using known⟩
  · exact ⟨by simpa [Fault.isInterrupt] using h, rfl⟩

theorem failing_of_ok {α : Type} (a : α) :
    ∀ f : Fault, Except.ok a = Except.error f → f.Failing := by
  intro f failed
  cases failed

theorem Input.readSymbol_ordinary {i : Input} (h : i.Ordinary) (index : Int) :
    (i.readSymbol index).2.Ordinary ∧ ∀ f, (i.readSymbol index).1 = .error f → f.Failing := by
  obtain ⟨later, raised⟩ := i.read_ordinary h
  unfold readSymbol
  generalize i.read = answer at later raised ⊢
  obtain ⟨_ | (_ | ⟨b, bs⟩), i'⟩ := answer
  · refine ⟨later, ?_⟩
    rintro _ ⟨⟩
    exact failing_of_cause (raised _ rfl) (by decide) index
  · refine ⟨later, ?_⟩
    rintro _ ⟨⟩
    exact ⟨rfl, rfl⟩
  · exact ⟨later, failing_of_ok _⟩

theorem Output.writeSymbol_ordinary {o : Output} (h : o.Ordinary) (index : Int) (b : UInt8) :
    (o.writeSymbol index b).2.Ordinary ∧
      ∀ f, (o.writeSymbol index b).1 = .error f → f.Failing := by
  unfold writeSymbol write
  cases raised : o.faultAt o.calls with
  | none => exact ⟨h, failing_of_ok _⟩
  | some c =>
    refine ⟨h, ?_⟩
    rintro _ ⟨⟩
    exact failing_of_cause (h _ c raised) (by decide) index

/-- A write that fails has written nothing. -/
theorem Output.written_of_error {o : Output} {index : Int} {b : UInt8} {f : Fault}
    (failed : (o.writeSymbol index b).1 = .error f) :
    (o.writeSymbol index b).2.written = o.written := by
  unfold writeSymbol write at failed ⊢
  cases raised : o.faultAt o.calls with
  | none =>
    rw [raised] at failed
    cases failed
  | some c => rfl

/-- A write that succeeds has written the byte. -/
theorem Output.written_of_ok {o : Output} {index : Int} {b : UInt8}
    (done : (o.writeSymbol index b).1 = .ok ()) :
    (o.writeSymbol index b).2.written = o.written ++ [b] := by
  unfold writeSymbol write at done ⊢
  cases raised : o.faultAt o.calls with
  | none => exact Log.toList_push o.writes b
  | some c =>
    rw [raised] at done
    cases done

/-! ## Instructions -/

namespace Config

variable {c c' : Config} {p : Program} {o : Op} {t : Option Int} {index : Int} {f : Fault}
  {k : Nat}

theorem Ordinary.jump (h : c.Ordinary) (target : Option Int) : (c.jump target).Ordinary :=
  ⟨h.input, h.output⟩

theorem Ordinary.withTape (h : c.Ordinary) (tape : Tape) :
    ({ c with tape := tape } : Config).Ordinary :=
  ⟨h.input, h.output⟩

theorem perform_ordinary (h : c.Ordinary) (o : Op) (t : Option Int) (index : Int) :
    (c.perform o t index).2.Ordinary ∧ ∀ f, (c.perform o t index).1 = .error f → f.Failing := by
  cases o with
  | moveRight | increment | decrement => exact ⟨h.withTape _, failing_of_ok _⟩
  | loopStart =>
    refine ⟨?_, failing_of_ok _⟩
    rw [perform]
    by_cases zero : c.tape.cell = 0
    · rw [if_pos zero]
      exact h.jump t
    · rw [if_neg zero]
      exact h
  | loopEnd =>
    refine ⟨?_, failing_of_ok _⟩
    rw [perform]
    by_cases zero : c.tape.cell = 0
    · rw [if_pos zero]
      exact h
    · rw [if_neg zero]
      exact h.jump t
  | moveLeft =>
    rw [perform, moveLeft]
    cases c.tape.moveLeft? with
    | none =>
      refine ⟨h, ?_⟩
      rintro _ ⟨⟩
      exact ⟨rfl, rfl⟩
    | some tape => exact ⟨h.withTape tape, failing_of_ok _⟩
  | output =>
    obtain ⟨later, failing⟩ := c.output.writeSymbol_ordinary h.output index c.tape.cell
    exact ⟨⟨h.input, later⟩, failing⟩
  | input =>
    obtain ⟨later, failing⟩ := c.input.readSymbol_ordinary h.input index
    rw [perform, readSymbol]
    generalize c.input.readSymbol index = answer at later failing ⊢
    obtain ⟨_ | b, input⟩ := answer
    · refine ⟨⟨later, h.output⟩, ?_⟩
      rintro _ ⟨⟩
      exact failing _ rfl
    · exact ⟨⟨later, h.output⟩, failing_of_ok _⟩

/-- An instruction that fails has changed neither the tape nor what was written. -/
theorem perform_kept (failed : c.perform o t index = (.error f, c')) :
    c'.tape = c.tape ∧ c'.output.written = c.output.written := by
  cases o with
  | moveRight | increment | decrement | loopStart | loopEnd => cases failed
  | moveLeft =>
    rw [perform, moveLeft] at failed
    split at failed
    · cases failed
      exact ⟨rfl, rfl⟩
    · cases failed
  | output =>
    have kept := @Output.written_of_error c.output index c.tape.cell f
    rw [perform, writeSymbol] at failed
    generalize c.output.writeSymbol index c.tape.cell = answer at failed kept
    obtain ⟨result, output⟩ := answer
    cases failed
    exact ⟨rfl, kept rfl⟩
  | input =>
    rw [perform, readSymbol] at failed
    split at failed
    · cases failed
      exact ⟨rfl, rfl⟩
    · cases failed

theorem tick_ordinary (h : c.Ordinary) (ip : c.ip = some (k : Int))
    (found : p.instructions[k]? = some ⟨.op o, t⟩) :
    (c.tick p).2.Ordinary ∧ ∀ f, (c.tick p).1 = .error f → f.Failing := by
  rw [tick_at ip found]
  exact perform_ordinary (h.jump _) o t k

theorem tick_kept (ip : c.ip = some (k : Int)) (found : p.instructions[k]? = some ⟨.op o, t⟩)
    (failed : c.tick p = (.error f, c')) :
    c'.tape = c.tape ∧ c'.output.written = c.output.written := by
  rw [tick_at ip found] at failed
  obtain ⟨tape, written⟩ := perform_kept failed
  exact ⟨tape, written⟩

end Config
end TapeMachine
