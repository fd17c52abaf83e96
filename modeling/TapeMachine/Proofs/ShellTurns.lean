import Mathlib.Algebra.Ring.Int.Defs
import TapeMachine.Proofs.TypedLines
import TapeMachine.Proofs.Unbalanced

/-! What one turn of the shell does with the lines typed at it, and with what it keeps from one
entry to the next. -/

namespace TapeMachine.Shell

/-- What a shell keeps from one entry to the next: the tape, the bytes typed that no program has
read, and the clock. -/
structure Keep where
  tape : Tape
  buffer : List UInt8
  clock : Clock

def keep (s : Shell) : Keep := ⟨s.tape, s.reader.buffer, s.clock⟩

/-- How many more brackets lines open than they close. -/
def depthOf (lines : List (List Char)) : Int := (lines.map surplus).sum

/-- Lines that an entry begins with, and that leave a bracket open: none, or code and whatever was
typed behind it. -/
structure Unfinished (lines : List (List Char)) : Prop where
  code : ∀ first rest, lines = first :: rest → Word.ofLine first = .code
  deep : ∀ front, front ≠ [] → front <+: lines → 0 < depthOf front

/-- The lines of an entry: with the last of them, and not before, no bracket is open any more. -/
structure Finished (lines : List (List Char)) : Prop where
  code : ∃ first rest, lines = first :: rest ∧ Word.ofLine first = .code
  deep : ∀ front, front ≠ [] → front <+: lines → front ≠ lines → 0 < depthOf front
  closed : depthOf lines ≤ 0

/-- What lines are used for: a command, nothing, or an entry and the answers to its program. -/
inductive Use where
  | command (line : List Char)
  | blank (line : List Char)
  | entry (lines answers : List (List Char))

def Use.lines : Use → List (List Char)
  | command line | blank line => [line]
  | entry lines answers => lines ++ answers

/-- What comes of what is kept, when lines are used. -/
inductive Handled (limit : Option Float) (k : Keep) : Use → Keep → Prop
  | tape {line : List Char} (word : Word.ofLine line = .tape) : Handled limit k (.command line) k
  | reset {line : List Char} (word : Word.ofLine line = .reset) :
      Handled limit k (.command line) { k with tape := .blank }
  | blank {line : List Char} (word : Word.ofLine line = .blank) : Handled limit k (.blank line) k
  /-- An entry that does not compile. -/
  | refused {lines : List (List Char)} {f : Fault} (finished : Finished lines)
      (compiled : compile (.text (entryText lines)) = .error f) :
      Handled limit k (.entry lines []) k
  /-- An entry that compiles. Its machine is created on the tape and runs, and however the run
  stops, the tape is kept as it then is. -/
  | ran {lines answers : List (List Char)} {p : Program} {m : Machine} {o : Machine.RunOutcome}
      {reader reader' : PromptedInput} {tracing : Bool} (finished : Finished lines)
      (compiled : compile (.text (entryText lines)) = .ok p)
      (created : Machine.create p k.tape.cells k.tape.pointer (.prompted reader) .reliable = .ok m)
      (lent : reader.buffer = k.buffer)
      (ran : { m with guard := { clock := k.clock }, tracing }.RunEnds { timeout := limit } o)
      (halts : m.config.Halts p o.machine.steps o.result o.machine.config)
      (input : o.machine.config.input = .prompted reader')
      (gives : reader.Gives answers (m.config.handed p o.machine.steps) reader') :
      Handled limit k (.entry lines answers)
        ⟨o.machine.config.tape, reader'.buffer, o.machine.guard.clock⟩

/-- A shell at its prompt. -/
structure Prompting (limit : Option Float) (s : Shell) : Prop where
  timed : s.options.timeout = .ok limit
  calm : s.console.atEnd = .ended
  unfinished : Unfinished s.lines.reverse
  depth : s.depth = depthOf s.lines.reverse

/-- From one prompt to the next: a line goes to the unfinished entry, or lines are used. -/
inductive Came (limit : Option Float) (s t : Shell) : Prop
  | joined {line : List Char}
      (typed : Console.lines s.console.pending = line :: Console.lines t.console.pending)
      (lines : t.lines = line :: s.lines) (keep : t.keep = s.keep) : Came limit s t
  | used (use : Use)
      (typed : s.lines.reverse ++ Console.lines s.console.pending =
        use.lines ++ Console.lines t.console.pending)
      (more : s.lines.length < use.lines.length) (lines : t.lines = [])
      (handled : Handled limit s.keep use t.keep) : Came limit s t

/-- All that can come of a turn. -/
inductive Turned (limit : Option Float) (s : Shell) :
    Turn Shell (Option (Option Fault × Shell)) → Prop
  | again {t : Shell} (came : Came limit s t) (prompting : t.Prompting limit) :
      Turned limit s (.again t)
  /-- A command to quit, which is none in an unfinished entry. -/
  | quit {t : Shell} {line : List Char}
      (typed : Console.lines s.console.pending = line :: Console.lines t.console.pending)
      (word : Word.ofLine line = .quit) (fresh : s.lines = []) (lines : t.lines = [])
      (keep : t.keep = s.keep) : Turned limit s (.done (some (none, t)))
  /-- No line is left. -/
  | ended {t : Shell} (none : Console.lines s.console.pending = [])
      (lines : t.lines = s.lines) (keep : t.keep = s.keep) :
      Turned limit s (.done (some (Option.none, t)))
  /-- The machine takes longer than it may. -/
  | lost : Turned limit s (.done none)

variable {s t u v : Shell} {limit : Option Float} {line : List Char} {lines : List (List Char)}
  {fuel : Nat}

/-! ## Entries -/

theorem depthOf_concat (lines : List (List Char)) (line : List Char) :
    depthOf (lines ++ [line]) = depthOf lines + surplus line := by
  simp [depthOf]

theorem unfinished_nil : Unfinished [] := by
  refine ⟨nofun, ?_⟩
  intro front some_lines within
  exact absurd (List.prefix_nil.mp within) some_lines

theorem head_concat {front : List (List Char)} (before : Unfinished front)
    (code : front = [] → Word.ofLine line = .code) :
    ∃ first rest, front ++ [line] = first :: rest ∧ Word.ofLine first = .code := by
  cases front with
  | nil => exact ⟨line, [], rfl, code rfl⟩
  | cons first rest => exact ⟨first, rest ++ [line], rfl, before.code first rest rfl⟩

/-- A line that leaves a bracket open goes to the entry. -/
theorem Unfinished.concat {front : List (List Char)} (before : Unfinished front)
    (code : front = [] → Word.ofLine line = .code) (deeper : 0 < depthOf (front ++ [line])) :
    Unfinished (front ++ [line]) := by
  obtain ⟨first, rest, split, word⟩ := head_concat before code
  refine ⟨?_, ?_⟩
  · intro first' rest' split'
    cases split.symm.trans split'
    exact word
  · intro part some_lines within
    rcases List.prefix_concat_iff.mp within with whole | within
    · rw [whole]
      exact deeper
    · exact before.deep part some_lines within

/-- A line that leaves no bracket open finishes the entry. -/
theorem Unfinished.finish {front : List (List Char)} (before : Unfinished front)
    (code : front = [] → Word.ofLine line = .code) (closed : ¬ 0 < depthOf (front ++ [line])) :
    Finished (front ++ [line]) := by
  refine ⟨head_concat before code, ?_, Int.not_lt.mp closed⟩
  intro part some_lines within other
  rcases List.prefix_concat_iff.mp within with whole | within
  · exact absurd whole other
  · exact before.deep part some_lines within

/-! ## What is only shown -/

/-- A shell with nothing shown and nothing told. -/
def hushed (s : Shell) : Shell :=
  { s with
    reader := { s.reader with console := { s.console with shown := {} } }
    diagnostics := {} }

theorem hushed_showOutput (s : Shell) (bytes : List UInt8) :
    (s.showOutput bytes).hushed = s.hushed := by
  simp only [showOutput]
  split
  · rfl
  · rfl

theorem hushed_reportFault (s : Shell) (f : Fault) : (s.reportFault f).hushed = s.hushed := by
  unfold reportFault
  split
  · rfl
  · rfl

/-- After an entry that came out well or with a report, the shell goes on. -/
theorem settle_again {r : Except Fault Unit} (report : ∀ f, r = .error f → f.isReport = true)
    (output : List UInt8) : ∃ t, s.settle r output = .again t ∧ t.hushed = s.hushed := by
  cases r with
  | ok => exact ⟨_, rfl, hushed_showOutput s output⟩
  | error f =>
    refine ⟨(s.reportFault f).showOutput output, ?_, ?_⟩
    · rw [settle, if_pos (report f rfl)]
    · rw [hushed_showOutput, hushed_reportFault]

theorem keep_of_hushed (same : t.hushed = v.hushed) : t.keep = v.keep :=
  congrArg (fun s => s.keep) same

theorem pending_of_hushed (same : t.hushed = v.hushed) :
    t.console.pending = v.console.pending :=
  congrArg (fun s => s.console.pending) same

theorem lines_of_hushed (same : t.hushed = v.hushed) : t.lines = v.lines :=
  congrArg (fun s => s.lines) same

theorem Prompting.of_hushed (h : v.Prompting limit) (same : t.hushed = v.hushed) :
    t.Prompting limit := by
  have options : t.options = v.options := congrArg (fun s => s.options) same
  have atEnd : t.console.atEnd = v.console.atEnd := congrArg (fun s => s.console.atEnd) same
  have depth : t.depth = v.depth := congrArg (fun s => s.depth) same
  have lines := lines_of_hushed same
  exact ⟨by rw [options]; exact h.timed, by rw [atEnd]; exact h.calm,
    by rw [lines]; exact h.unfinished, by rw [depth, lines]; exact h.depth⟩

/-! ## A turn -/

/-- A shell about to use the lines of an entry, all of which have been typed. -/
structure Using (s : Shell) (lines : List (List Char)) (u : Shell) : Prop where
  fresh : u.lines = []
  keep : u.keep = s.keep
  typed : s.lines.reverse ++ Console.lines s.console.pending =
    lines ++ Console.lines u.console.pending
  more : s.lines.length < lines.length

/-- An entry that does not compile changes nothing. -/
theorem Using.refused {f : Fault} (use : s.Using lines u) (h : u.Prompting limit)
    (finished : Finished lines) (compiled : compile (.text (entryText lines)) = .error f) :
    s.Turned limit (u.submit fuel (entryText lines)) := by
  have report : ∀ g, (Except.error f : Except Fault Unit) = .error g → g.isReport = true := by
    rintro g ⟨⟩
    exact report_of_refused rfl compiled
  obtain ⟨t, settled, same⟩ := @settle_again u _ report []
  have kept : t.keep = s.keep := (keep_of_hushed same).trans use.keep
  have turned : u.submit fuel (entryText lines) = .again t := by
    simp only [submit, compiled, settled]
  rw [turned]
  refine .again (.used (.entry lines []) ?_ ?_ ?_ ?_) (h.of_hushed same)
  · rw [Use.lines, List.append_nil, pending_of_hushed same]
    exact use.typed
  · rw [Use.lines, List.append_nil]
    exact use.more
  · rw [lines_of_hushed same]
    exact use.fresh
  · rw [kept]
    exact .refused finished compiled

/-- What a shell gets back from the machine of an entry. -/
structure Retrieved (limit : Option Float) (u : Shell) (p : Program) (o : Machine.RunOutcome)
    (answers : List (List Char)) : Prop where
  halts : (u.machineFor p).config.Halts p o.machine.steps o.result o.machine.config
  report : ∀ f, o.result = .error f → f.isReport = true
  input : o.machine.config.input = .prompted (u.retrieve o.machine).reader
  gives : u.reader.Gives answers ((u.machineFor p).config.handed p o.machine.steps)
    (u.retrieve o.machine).reader
  prompting : (u.retrieve o.machine).Prompting limit

theorem Prompting.retrieved {p : Program} {o : Machine.RunOutcome} (h : u.Prompting limit)
    (sound : p.Sound) (ran : (u.machineFor p).RunEnds { timeout := limit } o) :
    ∃ answers, Retrieved limit u p o answers := by
  have fresh : (u.machineFor p).Fresh := ⟨rfl, rfl, rfl, rfl, ⟨rfl, rfl, rfl⟩⟩
  have inside : (u.machineFor p).config.Inside p := ⟨0, rfl, Nat.zero_le _⟩
  have quiet : ∀ why, ¬ (u.machineFor p).config.Raises why :=
    Config.quiet (fun _ => Input.quiet_prompted h.calm) fun _ => rfl
  have halts := fresh.halts sound ran
  obtain ⟨answers, reader, input, gives⟩ := halts.gives sound inside rfl h.calm
  have lent : (u.retrieve o.machine).reader = reader := by
    rw [retrieve, input]
  rw [← lent] at input gives
  refine ⟨answers, halts, ?_, input, gives, ⟨h.timed, gives.calm, h.unfinished, h.depth⟩⟩
  intro f failed
  rw [failed] at halts
  exact halts.report sound inside quiet

/-- An entry that compiles leaves the shell with the tape of its machine. -/
theorem Using.ran {p : Program} {o : Machine.RunOutcome} (use : s.Using lines u)
    (h : u.Prompting limit) (finished : Finished lines)
    (compiled : compile (.text (entryText lines)) = .ok p)
    (ran : (u.machineFor p).run fuel { timeout := limit } = some o) :
    s.Turned limit (u.submit fuel (entryText lines)) := by
  have ends : (u.machineFor p).RunEnds { timeout := limit } o := ⟨fuel, ran⟩
  obtain ⟨answers, back⟩ := h.retrieved (compile_sound compiled) ends
  obtain ⟨t, settled, same⟩ :=
    @settle_again (u.retrieve o.machine) _ back.report o.machine.config.output.written
  have turned : u.submit fuel (entryText lines) = .again t := by
    simp only [submit, compiled, h.timed, ran, settled]
  rw [turned]
  refine .again (.used (.entry lines answers) ?_ ?_ ?_ ?_) (back.prompting.of_hushed same)
  · rw [use.typed, Use.lines, pending_of_hushed same, List.append_assoc]
    exact congrArg (lines ++ ·) back.gives.lines
  · rw [Use.lines, List.length_append]
    exact Nat.lt_of_lt_of_le use.more (Nat.le_add_right _ _)
  · rw [lines_of_hushed same]
    exact use.fresh
  · rw [keep_of_hushed same, ← use.keep]
    exact .ran finished compiled (Machine.create_cells p u.tape _ _) rfl ends back.halts back.input
      back.gives

theorem Using.submit (use : s.Using lines u) (h : u.Prompting limit) (finished : Finished lines) :
    s.Turned limit (u.submit fuel (entryText lines)) := by
  cases compiled : compile (.text (entryText lines)) with
  | error f => exact use.refused h finished compiled
  | ok p =>
    cases ran : (u.machineFor p).run fuel { timeout := limit } with
    | none =>
      have lost : u.submit fuel (entryText lines) = .done none := by
        simp only [Shell.submit, compiled, h.timed, ran]
      rw [lost]
      exact .lost
    | some o => exact use.ran h finished compiled ran

/-- A line of code goes to the entry, and if no bracket is open any more, the entry is used. -/
theorem Prompting.acceptLine {c : Console} (h : s.Prompting limit) (calm : c.atEnd = .ended)
    (typed : Console.lines s.console.pending = line :: Console.lines c.pending)
    (code : s.lines = [] → Word.ofLine line = .code) :
    s.Turned limit ((s.withConsole c).acceptLine fuel line) := by
  have depth : s.depth + surplus line = depthOf (s.lines.reverse ++ [line]) := by
    rw [depthOf_concat, h.depth]
  have code : s.lines.reverse = [] → Word.ofLine line = .code := by
    intro none
    exact code (List.reverse_eq_nil_iff.mp none)
  have joined : (line :: s.lines).reverse = s.lines.reverse ++ [line] := List.reverse_cons
  change s.Turned limit (if 0 < s.depth + surplus line then _ else _)
  by_cases deeper : 0 < s.depth + surplus line
  · rw [if_pos deeper]
    rw [depth] at deeper
    refine .again (.joined typed rfl rfl) ⟨h.timed, calm, ?_, ?_⟩
    · change Unfinished (line :: s.lines).reverse
      rw [joined]
      exact h.unfinished.concat code deeper
    · change s.depth + surplus line = depthOf (line :: s.lines).reverse
      rw [joined]
      exact depth
  · rw [if_neg deeper]
    rw [depth] at deeper
    let u : Shell := { s.withConsole c with lines := [], depth := 0 }
    have ready : u.Prompting limit := ⟨h.timed, calm, unfinished_nil, rfl⟩
    have finished := h.unfinished.finish code deeper
    rw [← joined] at finished
    have use : s.Using (line :: s.lines).reverse u := by
      refine ⟨rfl, rfl, ?_, ?_⟩
      · change _ = (line :: s.lines).reverse ++ Console.lines c.pending
        rw [typed, joined, List.append_assoc]
        rfl
      · rw [List.length_reverse, List.length_cons]
        exact Nat.lt_succ_self _
    exact use.submit ready finished

theorem Prompting.turn (h : s.Prompting limit) (fuel : Nat) : s.Turned limit (s.turn fuel) := by
  unfold Shell.turn
  rcases Console.ask_lines h.calm s.prompt with ⟨none, asked⟩ | ⟨line, rest, typed, asked⟩
  · rw [asked]
    exact .ended none rfl rfl
  · rw [asked]
    let c : Console := { s.console.put s.prompt with pending := rest }
    have calm : c.atEnd = .ended := h.calm
    change s.Turned limit (if s.lines.isEmpty then _ else (s.withConsole c).acceptLine fuel line)
    by_cases fresh : s.lines = []
    · have empty : s.lines.isEmpty = true := List.isEmpty_iff.mpr fresh
      have next : (s.withConsole c).Prompting limit := ⟨h.timed, calm, h.unfinished, h.depth⟩
      -- a line that is used by itself
      have alone (use : Use) {t : Shell} (own : use.lines = [line])
          (pending : t.console.pending = rest) (lines : t.lines = s.lines)
          (handled : Handled limit s.keep use t.keep) : Came limit s t := by
        refine .used use ?_ ?_ (lines.trans fresh) handled
        · rw [fresh, own, typed, pending]
          rfl
        · rw [fresh, own]
          exact Nat.zero_lt_one
      rw [if_pos empty]
      cases word : Word.ofLine line with
      | quit => exact .quit typed word fresh fresh rfl
      | tape =>
        exact .again (alone (.command line) rfl rfl rfl (.tape word)) (next.of_hushed rfl)
      | reset =>
        exact .again (alone (.command line) rfl rfl rfl (.reset word))
          ⟨h.timed, calm, h.unfinished, h.depth⟩
      | blank => exact .again (alone (.blank line) rfl rfl rfl (.blank word)) next
      | code => exact h.acceptLine calm typed fun _ => word
    · have filled : ¬ s.lines.isEmpty = true := fun empty => fresh (List.isEmpty_iff.mp empty)
      rw [if_neg filled]
      exact h.acceptLine calm typed fun none => absurd none fresh

end TapeMachine.Shell
