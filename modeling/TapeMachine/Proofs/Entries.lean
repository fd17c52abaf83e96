import TapeMachine.Shell
import TapeMachine.Proofs.Snippets

/-! Sessions of the shell in which every entry completes. The shell runs each entry on a machine of
its own, on the tape that the one before left; the tape it holds is nevertheless the one that all
its entries leave when they are run as one program, on the bytes that their machines read. -/

namespace TapeMachine

/-- An output that takes every byte. -/
def Output.Reliable (o : Output) : Prop := ∀ n, o.faultAt n = none

namespace Config

/-- The byte that an operation reads, if it reads one. -/
def received (c : Config) (o : Op) (index : Int) : List UInt8 :=
  match o, (c.input.readSymbol index).1 with
  | .input, .ok b => [b]
  | _, _ => []

/-- The byte that the instruction at the index reads, if it reads one. -/
def taken (p : Program) (c : Config) : List UInt8 :=
  match c.ip with
  | none => []
  | some i =>
    match p.get i with
    | .ok ⟨.op o, _⟩ => c.received o i
    | _ => []

/-- The bytes that so many instructions read. -/
def handed (p : Program) : Nat → Config → List UInt8
  | 0, _ => []
  | n + 1, c => c.taken p ++ handed p n (c.tick p).2

/-- The configuration on other streams, of which the input holds the bytes given. -/
def replay (bytes : List UInt8) (output : Output) (c : Config) : Config :=
  { c with input := .ofBytes bytes, output := output }

variable {p : Program} {c d e : Config} {o : Op} {t : Option Int} {index : Int} {n : Nat}
  {r : Except Fault Unit} {rest : List UInt8} {output : Output}

/-- An operation that is carried out is carried out as well where the input holds just what the
operation reads, and what follows. -/
theorem perform_replay (done : c.perform o t index = (.ok (), d)) (reliable : output.Reliable) :
    ∃ output' : Output, output'.Reliable ∧
      (c.replay (c.received o index ++ rest) output).perform o t index =
        (.ok (), d.replay rest output') := by
  cases o with
  | moveRight | increment | decrement =>
    cases done
    exact ⟨output, reliable, rfl⟩
  | moveLeft =>
    unfold perform moveLeft at done ⊢
    cases moved : c.tape.moveLeft? with
    | none =>
      rw [moved] at done
      cases done
    | some tape =>
      rw [moved] at done
      cases done
      refine ⟨output, reliable, ?_⟩
      simp only [replay, moved]
      rfl
  | loopStart | loopEnd =>
    cases done
    refine ⟨output, reliable, ?_⟩
    unfold perform
    by_cases zero : c.tape.cell = 0
    · have zero' : (c.replay rest output).tape.cell = 0 := zero
      simp only [if_pos zero]
      exact congrArg (Prod.mk _) (if_pos zero')
    · have zero' : (c.replay rest output).tape.cell ≠ 0 := zero
      simp only [if_neg zero]
      exact congrArg (Prod.mk _) (if_neg zero')
  | output =>
    have written := Output.written_writeSymbol reliable index c.tape.cell
    have kept := Output.faultAt_writeSymbol output index c.tape.cell
    obtain ⟨_, rfl⟩ := Prod.mk.inj done
    refine ⟨(output.writeSymbol index c.tape.cell).2, ?_, ?_⟩
    · intro n
      rw [kept]
      exact reliable n
    · exact Prod.ext written.1 rfl
  | input =>
    unfold perform readSymbol at done ⊢
    unfold received
    cases read : c.input.readSymbol index with
    | mk result input =>
      rw [read] at done
      cases result with
      | error f => cases done
      | ok b =>
        cases done
        exact ⟨output, reliable, rfl⟩

theorem taken_at {k : Nat} (ip : c.ip = some (k : Int))
    (found : p.instructions[k]? = some ⟨.op o, t⟩) : c.taken p = c.received o k := by
  have get := Program.get_of_instruction found
  simp only [taken, ip, get]

theorem tick_replay {k : Nat} (sound : p.Sound) (ip : c.ip = some (k : Int)) (lt : k < p.length)
    (ticked : c.tick p = (.ok (), d)) (reliable : output.Reliable) :
    ∃ output' : Output, output'.Reliable ∧
      (c.replay (c.taken p ++ rest) output).tick p = (.ok (), d.replay rest output') := by
  obtain ⟨o, t, found, _⟩ := sound.at lt
  rw [tick_at ip found] at ticked
  have again : (c.replay (c.taken p ++ rest) output).ip = some (k : Int) := ip
  rw [tick_at again found, taken_at ip found]
  exact perform_replay ticked reliable

/-- Ticks that come to the end of a program come there as well where the input holds just what
they read, and what follows. -/
theorem Ends.replay (sound : p.Sound) (ends : Ends p c n r e) (finished : r = .ok ())
    (reliable : output.Reliable) :
    ∃ output' : Output, output'.Reliable ∧
      Ends p (c.replay (c.handed p n ++ rest) output) n r (e.replay rest output') := by
  induction ends generalizing output with
  | finish ip => exact ⟨output, reliable, .finish ip⟩
  | fault => cases finished
  | @next c d e k n r ip lt tick _ ih =>
    obtain ⟨middle, reliable, first⟩ :=
      @tick_replay _ _ _ (d.handed p n ++ rest) _ k sound ip lt tick reliable
    obtain ⟨last, reliable, others⟩ := ih finished reliable
    refine ⟨last, reliable, ?_⟩
    rw [handed, tick, List.append_assoc]
    exact .next ip lt first others

end Config

namespace Machine

/-- A machine that hands out its instructions in order, whatever watches over it. -/
structure Linear (m : Machine) : Prop extends m.Ready where
  linear : m.traversal = .linear

variable {m n e : Machine} {fuel : Nat} {r : Except Fault Unit}

theorem Linear.step_ok (h : m.Linear) (more : m.more = true) (stepped : m.step = (.ok (), n)) :
    n.Linear ∧ n.program = m.program ∧ n.steps = m.steps + 1 ∧
      ∃ k : Nat, m.ip = some (k : Int) ∧ k < m.program.length ∧
        m.config.tick m.program = (.ok (), n.config) := by
  have live := h.live more
  have ready : n.Ready := by
    rcases h.step_cases live more with ⟨f, m', failed, _⟩ | ⟨m', done, midway⟩
    · rw [stepped] at failed
      cases failed
    · rw [stepped] at done
      cases done
      exact midway.toReady
  have asked := m.asked_cleared
  have ungated : m.cleared.traversal = .linear := by
    have none : ∀ signals outlet, m.running.traversal ≠ .gated signals outlet := by
      intro signals outlet gated
      rw [show m.running.traversal = .linear from h.linear] at gated
      cases gated
    rw [cleared, clearance_ungated none]
    exact h.linear
  have came := h.toSafe.stepped live
  rw [stepped] at came
  generalize answer : ((.ok (), n) : Except Fault Unit × Machine) = taken at came
  cases came with
  | finished spent =>
    rw [more] at spent
    cases spent
  | refused => cases answer
  | failed => cases answer
  | @executed k o t c told ip found tick =>
    cases answer
    refine ⟨⟨ready, ?_⟩, ?_, ?_, k, ip, Program.lt_length found, ?_⟩
    · rw [counted_traversal]
      simp [mark, withConfig, ungated]
    · rw [counted_program]
      exact asked.program
    · rw [counted_steps]
      exact congrArg (· + 1) asked.steps
    · rw [counted_config]
      exact tick

/-- A run in order that completes comes to the end of the program, whatever watches over it. -/
theorem Linear.ends_of_turns (h : m.Linear) (ended : Loop.turns turn fuel m = some (r, e))
    (finished : r = .ok ()) :
    ∃ n, m.config.Ends m.program n r e.config ∧ e.steps = m.steps + n := by
  induction fuel generalizing m with
  | zero => cases ended
  | succ fuel ih =>
    rw [Loop.turns] at ended
    cases more : m.more with
    | false =>
      obtain ⟨k, ip, le⟩ := h.inside
      rw [turn_over h.toSafe more] at ended
      cases ended
      rw [more_linear h.linear ip] at more
      have last : k = m.program.length := Nat.le_antisymm le (by simpa using more)
      subst last
      exact ⟨0, .finish ip, rfl⟩
    | true =>
      rw [turn_step h.toSafe more] at ended
      cases stepped : m.step with
      | mk result n =>
        rw [stepped] at ended
        cases result with
        | error f =>
          cases ended
          cases finished
        | ok =>
          obtain ⟨further, program, steps, k, ip, lt, tick⟩ := h.step_ok more stepped
          obtain ⟨i, ends, steps'⟩ := ih further ended
          rw [program] at ends
          exact ⟨i + 1, .next ip lt tick ends, by omega⟩

end Machine

namespace Shell

/-- The shell about to run the entry that the next line completes, and the text of that entry. -/
def entry? (s : Shell) : Option (Shell × String) :=
  match s.console.ask s.prompt with
  | (.line line, c) =>
    let s := s.withConsole c
    if s.lines.isEmpty ∧ Word.ofLine line ≠ .code then none
    else if 0 < s.depth + surplus line then none
    else some ({ s with lines := [], depth := 0 }, entryText (line :: s.lines).reverse)
  | _ => none

/-- Whether the next line clears the tape. -/
def resets (s : Shell) : Bool :=
  match s.console.ask s.prompt with
  | (.line line, _) => s.lines.isEmpty && Word.ofLine line = .reset
  | _ => false

/-- Sessions from one prompt to another in which every entry completes and the tape is not
cleared: the texts of the entries, and the bytes that their machines read. -/
inductive Session (s : Shell) : List String → List UInt8 → Shell → Prop
  | start : Session s [] [] s
  /-- A line that completes no entry. -/
  | line {texts : List String} {bytes : List UInt8} {t u : Shell} {fuel : Nat}
      (before : Session s texts bytes t) (none : t.entry? = none) (kept : t.resets = false)
      (turned : t.turn fuel = .again u) : Session s texts bytes u
  /-- A line that completes an entry, which compiles and runs to its end. -/
  | entry {texts : List String} {bytes : List UInt8} {t u v : Shell} {text : String} {p : Program}
      {timeout : Option Float} {fuel : Nat} {o : Machine.RunOutcome}
      (before : Session s texts bytes t) (typed : t.entry? = some (u, text))
      (compiled : compile (.text text) = .ok p) (timed : u.options.timeout = .ok timeout)
      (ran : (u.machineFor p).run fuel { timeout } = some o) (completed : o.result = .ok ())
      (turned : t.turn fuel = .again v) :
      Session s (texts ++ [text])
        (bytes ++ (u.machineFor p).config.handed p o.machine.steps) v

variable {s t u v : Shell} {text : String} {p : Program} {fuel : Nat} {o : Machine.RunOutcome}
  {timeout : Option Float} {texts : List String} {bytes : List UInt8}

theorem tape_showOutput (s : Shell) (bytes : List UInt8) : (s.showOutput bytes).tape = s.tape := by
  simp only [showOutput]
  split
  · rfl
  · rfl

theorem turn_line (none : t.entry? = none) (kept : t.resets = false)
    (turned : t.turn fuel = .again u) : u.tape = t.tape := by
  unfold entry? at none
  unfold resets at kept
  unfold turn at turned
  generalize t.console.ask t.prompt = answer at none kept turned
  obtain ⟨answer, c⟩ := answer
  -- a line of code that completes no entry waits for others
  have waits : ∀ line, 0 < (t.withConsole c).depth + surplus line →
      (t.withConsole c).acceptLine fuel line = .again u → u.tape = t.tape := by
    intro line deeper accepted
    rw [acceptLine, if_pos deeper] at accepted
    cases accepted
    rfl
  cases answer with
  | ended | interrupted => cases turned
  | line line =>
    simp only at none kept turned
    by_cases fresh : (t.withConsole c).lines.isEmpty = true
    · rw [if_pos fresh] at turned
      cases word : Word.ofLine line with
      | quit =>
        rw [word] at turned
        cases turned
      | tape | blank =>
        rw [word] at turned
        cases turned
        rfl
      | reset =>
        rw [word, show t.lines.isEmpty = true from fresh] at kept
        cases kept
      | code =>
        rw [word] at turned none
        by_cases deeper : 0 < (t.withConsole c).depth + surplus line
        · exact waits line deeper turned
        · simp [deeper] at none
    · rw [if_neg fresh] at turned
      by_cases deeper : 0 < (t.withConsole c).depth + surplus line
      · exact waits line deeper turned
      · simp [fresh, deeper] at none

theorem turn_entry (typed : t.entry? = some (u, text)) :
    t.turn fuel = u.submit fuel text ∧ u.tape = t.tape := by
  unfold entry? at typed
  unfold turn
  generalize t.console.ask t.prompt = answer at typed ⊢
  obtain ⟨answer, c⟩ := answer
  cases answer with
  | ended | interrupted => cases typed
  | line line =>
    simp only at typed ⊢
    by_cases other : (t.withConsole c).lines.isEmpty = true ∧ Word.ofLine line ≠ .code
    · rw [if_pos other] at typed
      cases typed
    · rw [if_neg other] at typed
      by_cases deeper : 0 < (t.withConsole c).depth + surplus line
      · rw [if_pos deeper] at typed
        cases typed
      · rw [if_neg deeper] at typed
        cases typed
        refine ⟨?_, rfl⟩
        have accepted : (t.withConsole c).acceptLine fuel line =
            submit fuel { t.withConsole c with lines := [], depth := 0 }
              (entryText (line :: (t.withConsole c).lines).reverse) := by
          rw [acceptLine, if_neg deeper]
        by_cases fresh : (t.withConsole c).lines.isEmpty = true
        · have word : Word.ofLine line = .code := by
            simpa [fresh] using other
          rw [if_pos fresh, word]
          exact accepted
        · rw [if_neg fresh]
          exact accepted

/-- An entry that completes leaves the shell with the tape of its machine. -/
theorem submit_completed (compiled : compile (.text text) = .ok p)
    (timed : u.options.timeout = .ok timeout)
    (ran : (u.machineFor p).run fuel { timeout } = some o) (completed : o.result = .ok ()) :
    ∃ v, u.submit fuel text = .again v ∧ v.tape = o.machine.config.tape := by
  refine ⟨(u.retrieve o.machine).showOutput o.machine.config.output.written, ?_, ?_⟩
  · simp only [submit, compiled, timed, ran, completed, settle]
  · rw [tape_showOutput]
    rfl

theorem machineFor_ends (sound : p.Sound) (ran : (u.machineFor p).run fuel { timeout } = some o)
    (completed : o.result = .ok ()) :
    (u.machineFor p).config.Ends p o.machine.steps (.ok ()) o.machine.config := by
  have ready : (u.machineFor p).state = .ready := rfl
  rw [Machine.run, if_pos ready, Machine.drive, Option.map_eq_some_iff] at ran
  obtain ⟨⟨r, m⟩, ended, rfl⟩ := ran
  have linear : ((u.machineFor p).arm { timeout }).Linear :=
    ⟨⟨⟨sound, 0, rfl, Nat.zero_le _⟩, fun _ => rfl⟩, rfl⟩
  have finished : r = .ok () := completed
  subst finished
  obtain ⟨n, ends, steps⟩ := linear.ends_of_turns ended rfl
  have steps : m.steps = n := steps.trans (Nat.zero_add n)
  subst steps
  exact ends

/-- The entries so far, as one program, end on the shell's tape. -/
theorem Session.replayed (session : s.Session texts bytes t) (blank : s.tape = .blank)
    (rest : List UInt8) :
    ∃ p n e, compile (.text (String.join texts)) = .ok p ∧
      (Machine.onTape p .blank (.ofBytes (bytes ++ rest)) .reliable).config.Ends p n (.ok ()) e ∧
      e.tape = t.tape ∧ e.input = .ofBytes rest ∧ e.output.Reliable := by
  induction session generalizing rest with
  | start =>
    obtain ⟨p, compiled, none⟩ : ∃ p, compile (.text "") = .ok p ∧ p.length = 0 := ⟨_, rfl, rfl⟩
    refine ⟨p, 0, _, compiled, .finish ?_, blank.symm, rfl, fun _ => rfl⟩
    rw [none]
    rfl
  | line _ none kept turned ih =>
    rw [turn_line none kept turned]
    exact ih rest
  | @entry texts bytes t u v text q timeout fuel o _ typed compiled timed ran completed turned ih =>
    obtain ⟨again, before⟩ := @turn_entry t u text fuel typed
    obtain ⟨v', submitted, tape⟩ := submit_completed compiled timed ran completed
    rw [again, submitted] at turned
    cases turned
    obtain ⟨p, n, e, compiled', ends, tape', input, reliable⟩ :=
      ih ((u.machineFor q).config.handed q o.machine.steps ++ rest)
    have sound := compile_sound compiled
    have sound' := compile_sound compiled'
    have own := machineFor_ends sound ran completed
    obtain ⟨output, reliable', replayed⟩ :=
      @Config.Ends.replay q _ _ _ _ rest _ sound own rfl reliable
    have start : e.jump (some 0) = (u.machineFor q).config.replay
        ((u.machineFor q).config.handed q o.machine.steps ++ rest) e.output := by
      have same : e.tape = u.tape := tape'.trans before.symm
      obtain ⟨_, _, _, _⟩ := e
      cases input
      cases same
      rfl
    rw [← start] at replayed
    have read : (Source.text (String.join (texts ++ [text]))).read =
        .ok (Utf8.encode (String.join texts) ++ Utf8.encode text) := by
      rw [Source.read, String.join_append, Utf8.encode_append]
      simp
    obtain ⟨w, compiled'', joined⟩ := compile_joins compiled' compiled rfl rfl read
    have both := (Config.ends_joined joined sound' sound ⟨0, rfl, Nat.zero_le _⟩).mpr
      (.inr ⟨n, o.machine.steps, e, _, _, rfl, ends, replayed, rfl, rfl⟩)
    rw [List.append_assoc]
    exact ⟨w, _, _, compiled'', both, tape.symm, rfl, reliable'⟩

end Shell

/-- Sources that compile, one behind the other, compile, and running what they compile to is
running the first one's program and then, on the tape and the streams that it leaves, the second
one's: both end alike or neither ends. Hence the tape of a shell in which every entry completed is
the one that all its entries leave when they are run as one program. -/
theorem snippets_run_as_one :
    (∀ {front back whole : Source} {p q : Program} {bytes more cells : List UInt8} {pointer : Int}
      {input : Input} {output : Output} {m : Machine},
      compile front = .ok p → compile back = .ok q → front.read = .ok bytes →
      back.read = .ok more → whole.read = .ok (bytes ++ more) →
      Machine.create p cells pointer input output = .ok m →
      ∃ w m', compile whole = .ok w ∧ Machine.create w cells pointer input output = .ok m' ∧
        m'.RunsAs m q) ∧
    (∀ {options : ShellOptions} {console : Console} {clock : Clock} {texts : List String}
      {bytes : List UInt8} {s : Shell},
      (Shell.create options console clock).Session texts bytes s →
      ∃ p m o, compile (.text (String.join texts)) = .ok p ∧
        Machine.create p [0] 0 (.ofBytes bytes) .reliable = .ok m ∧ m.RunEnds {} o ∧
        o.result = .ok () ∧ o.machine.config.tape.cells = s.tape.cells ∧
        o.machine.config.tape.pointer = s.tape.pointer ∧
        o.machine.config.input = .ofBytes []) := by
  constructor
  · intro front back whole p q bytes more cells pointer input output m compiled compiled' read
      read' joined created
    obtain ⟨w, compiled'', joins⟩ := compile_joins compiled compiled' read read' joined
    obtain ⟨tape, rfl, others⟩ := Machine.create_ok created
    exact ⟨w, _, compiled'', others w,
      Machine.runsAs_joined joins (compile_sound compiled) (compile_sound compiled')
        (compile_sound compiled'') tape input output⟩
  · intro options console clock texts bytes s session
    obtain ⟨p, n, e, compiled, ends, tape, input, _⟩ := session.replayed rfl []
    rw [List.append_nil] at ends
    obtain ⟨o, ran, left⟩ := (Machine.runEnds_onTape (compile_sound compiled) .blank
      (.ofBytes bytes) .reliable ⟨.ok (), e, n, .completed⟩).mpr ⟨ends, rfl⟩
    have config : o.machine.config = e := congrArg Machine.Ending.config left
    refine ⟨p, _, o, compiled, Machine.create_cells p .blank _ _, ran,
      congrArg Machine.Ending.result left, ?_, ?_, ?_⟩
    · rw [config, tape]
    · rw [config, tape]
    · rw [config, input]

/-- A program in two parts, and two entries at the shell, of which the second reads a byte. -/
theorem echo_in_two_snippets :
    (∃ p q w m m', compile (.text "+>") = .ok p ∧ compile (.text ",<.") = .ok q ∧
      compile (.text "+>,<.") = .ok w ∧
      Machine.create p [7] 0 (.ofBytes [0x41]) .reliable = .ok m ∧
      Machine.create w [7] 0 (.ofBytes [0x41]) .reliable = .ok m' ∧ m'.RunsAs m q) ∧
    ∃ s, (Shell.create {} { pending := "+>\n,\nA\n".toList } {}).Session ["+>\n", ",\n"] [0x41] s ∧
      s.tape.cells = [1, 0x41] ∧
      ∃ p m o, compile (.text "+>\n,\n") = .ok p ∧
        Machine.create p [0] 0 (.ofBytes [0x41]) .reliable = .ok m ∧ m.RunEnds {} o ∧
        o.machine.config.tape.cells = [1, 0x41] := by
  obtain ⟨p, compiled⟩ : ∃ p, compile (.text "+>") = .ok p := ⟨_, rfl⟩
  obtain ⟨q, compiled'⟩ : ∃ q, compile (.text ",<.") = .ok q := ⟨_, rfl⟩
  obtain ⟨m, created⟩ : ∃ m, Machine.create p [7] 0 (.ofBytes [0x41]) .reliable = .ok m := ⟨_, rfl⟩
  have whole : (Source.text "+>,<.").read =
      .ok (Utf8.encode "+>" ++ Utf8.encode ",<.") := rfl
  constructor
  · obtain ⟨w, m', compiled'', created', runs⟩ :=
      snippets_run_as_one.1 compiled compiled' rfl rfl whole created
    exact ⟨p, q, w, m, m', compiled, compiled', compiled'', created, created', runs⟩
  · obtain ⟨s, session, cells⟩ :
        ∃ s, (Shell.create {} { pending := "+>\n,\nA\n".toList } {}).Session ["+>\n", ",\n"]
          [0x41] s ∧ s.tape.cells = [1, 0x41] := by
      have first := @Shell.Session.entry
        (Shell.create {} { pending := "+>\n,\nA\n".toList } {}) _ _ _ _ _ _ _ _ 9 _ .start
        rfl rfl rfl rfl rfl rfl
      exact ⟨_, @Shell.Session.entry _ _ _ _ _ _ _ _ _ 9 _ first rfl rfl rfl rfl rfl rfl, rfl⟩
    obtain ⟨p, m, o, compiled, created, ran, _, same, _⟩ := snippets_run_as_one.2 session
    exact ⟨s, session, cells, p, m, o, compiled, created, ran, same.trans cells⟩

end TapeMachine
