import TapeMachine.Proofs.Halting

/-! The lines typed at a console, and the bytes of them that a program is handed. A line serves a
prompt once; what a program has been handed and what a reader has left are, one behind the other,
what it had left before and the lines typed in answer. -/

namespace TapeMachine
namespace Console

/-- The lines of a text. A line ends with a line feed, a carriage return, or the two in this order,
or where the text ends. -/
def lines : List Char → List (List Char)
  | [] => []
  | '\n' :: rest => [] :: lines rest
  | '\r' :: '\n' :: rest => [] :: lines rest
  | '\r' :: rest => [] :: lines rest
  | c :: rest =>
    match lines rest with
    | [] => [[c]]
    | line :: others => (c :: line) :: others

example : lines "ab\r\n\nc".toList = ["ab".toList, [], ['c']] := by decide

/-- A text that is not empty begins with its first line. -/
theorem lines_firstLine {cs : List Char} (some_chars : cs ≠ []) :
    lines cs = (firstLine true cs).1 :: lines ((firstLine true cs).2.getD []) := by
  fun_induction firstLine true cs with
  | case1 => exact absurd rfl some_chars
  | case2 rest => rw [lines]; rfl
  | case3 rest => rw [lines]; rfl
  | case4 => rfl
  | case5 rest other last =>
    rw [lines]
    · rfl
    · exact other
  | case6 c rest feed both single back line after first ih =>
    rw [lines]
    · cases rest with
      | nil =>
        cases first
        rfl
      | cons d rest =>
        rw [ih (List.cons_ne_nil d rest), first]
    · exact feed
    · exact both
    · exact back

/-- Asking for a line, where the typed input has an end, takes the next one as long as there is
one. -/
theorem ask_lines {c : Console} (calm : c.atEnd = .ended) (prompt : String) :
    (lines c.pending = [] ∧ c.ask prompt = (.ended, c.put prompt)) ∨
    ∃ line rest, lines c.pending = line :: lines rest ∧
      c.ask prompt = (.line line, { c.put prompt with pending := rest }) := by
  have calm' : (c.put prompt).atEnd = .ended := calm
  by_cases none : c.pending = []
  · left
    have none' : (c.put prompt).pending = [] := none
    refine ⟨by rw [none]; rfl, ?_⟩
    simp only [ask, none', calm', firstLine, if_true]
  · right
    have some_chars : ¬ (c.put prompt).pending = [] := none
    have split := lines_firstLine none
    have first : firstLine ((c.put prompt).atEnd = .ended) (c.put prompt).pending =
        firstLine true c.pending := by
      rw [decide_eq_true calm']
      rfl
    rw [ask, first]
    generalize firstLine true c.pending = answer at split
    obtain ⟨line, after⟩ := answer
    refine ⟨line, after.getD [], split, ?_⟩
    cases after with
    | none => simp only [calm', if_neg some_chars, Option.getD_none]
    | some rest => rfl

end Console

namespace PromptedInput

/-- The bytes of a line typed in answer. -/
def typed (line : List Char) : List UInt8 := Utf8.encode (String.ofList line) ++ [0x0A]

/-- Of the bytes that a reader had left and those of the lines typed in answer, the first were
handed out and the others are left. -/
structure Gives (r : PromptedInput) (answers : List (List Char)) (handed : List UInt8)
    (r' : PromptedInput) : Prop where
  lines : Console.lines r.console.pending = answers ++ Console.lines r'.console.pending
  bytes : r.buffer ++ answers.flatMap typed = handed ++ r'.buffer
  calm : r'.console.atEnd = .ended

variable {r r' r'' : PromptedInput} {answers answers' : List (List Char)}
  {handed handed' : List UInt8}

theorem Gives.refl (calm : r.console.atEnd = .ended) : r.Gives [] [] r :=
  ⟨rfl, List.append_nil _, calm⟩

theorem Gives.trans (h : r.Gives answers handed r') (h' : r'.Gives answers' handed' r'') :
    r.Gives (answers ++ answers') (handed ++ handed') r'' := by
  refine ⟨?_, ?_, h'.calm⟩
  · rw [h.lines, h'.lines, List.append_assoc]
  · rw [List.flatMap_append, ← List.append_assoc, h.bytes, List.append_assoc, h'.bytes,
      List.append_assoc]

/-- A byte that is cut off a buffer is its first. -/
theorem slice_one {b : UInt8} {rest : List UInt8} (buffer : r.buffer = b :: rest) :
    r.slice 1 = ([b], { r with buffer := rest }) := by
  simp only [slice, buffer, cut]
  rfl

/-- A read hands out one byte, or nothing where the typed input has ended. -/
theorem read_gives (calm : r.console.atEnd = .ended) :
    (∃ r', r.read 1 = (.ok [], r') ∧ r.Gives [] [] r') ∨
    ∃ b answers r', r.read 1 = (.ok [b], r') ∧ r.Gives answers [b] r' := by
  cases buffer : r.buffer with
  | cons b rest =>
    right
    have some_bytes : ¬ r.buffer = [] := by
      rw [buffer]
      exact List.cons_ne_nil b rest
    refine ⟨b, [], { r with buffer := rest }, ?_, rfl, ?_, calm⟩
    · rw [PromptedInput.read, if_neg some_bytes, slice_one buffer]
    · rw [buffer]
      exact List.append_nil _
  | nil =>
    rcases Console.ask_lines calm r.prompt with ⟨none, asked⟩ | ⟨line, rest, split, asked⟩
    · left
      refine ⟨{ r with console := r.console.put r.prompt }, ?_, rfl, ?_, calm⟩
      · simp only [PromptedInput.read, if_pos buffer, asked]
      · exact List.append_nil _
    · right
      obtain ⟨b, others, front⟩ : ∃ b others, typed line = b :: others := by
        cases bytes : typed line with
        | nil => simp [typed] at bytes
        | cons b others => exact ⟨b, others, rfl⟩
      let console : Console := { r.console.put r.prompt with pending := rest }
      let filled : PromptedInput := { r with console := console, buffer := typed line }
      have cut : filled.slice 1 = ([b], { filled with buffer := others }) := slice_one front
      refine ⟨b, [line], { filled with buffer := others }, ?_, split, ?_, calm⟩
      · simp only [PromptedInput.read, if_pos buffer, asked]
        exact congrArg (fun taken => (Except.ok taken.1, taken.2)) cut
      · rw [buffer, List.flatMap_singleton, front]
        rfl

end PromptedInput

namespace Config

variable {p : Program} {c d e : Config} {n : Nat} {r : PromptedInput} {result : Except Fault Unit}

/-- A symbol that is read is handed out by the reader. -/
theorem readSymbol_gives {index : Int} {b : UInt8} {j : Input} (calm : r.console.atEnd = .ended)
    (read : (Input.prompted r).readSymbol index = (.ok b, j)) :
    ∃ answers r', j = .prompted r' ∧ r.Gives answers [b] r' := by
  rcases r.read_gives calm with ⟨r', told, _⟩ | ⟨a, answers, r', told, gives⟩
  · simp only [Input.readSymbol, Input.read, told] at read
    cases read
  · simp only [Input.readSymbol, Input.read, told] at read
    cases read
    exact ⟨answers, r', rfl, gives⟩

/-- Where no symbol can be read, nothing is taken. -/
theorem readSymbol_nothing {index : Int} {f : Fault} {j : Input}
    (calm : r.console.atEnd = .ended)
    (read : (Input.prompted r).readSymbol index = (.error f, j)) :
    ∃ r', j = .prompted r' ∧ r.Gives [] [] r' := by
  rcases r.read_gives calm with ⟨r', told, gives⟩ | ⟨a, answers, r', told, _⟩
  · simp only [Input.readSymbol, Input.read, told] at read
    cases read
    exact ⟨r', rfl, gives⟩
  · simp only [Input.readSymbol, Input.read, told] at read
    cases read

/-- What so many instructions read, the reader has handed out. -/
theorem ticks_give (sound : p.Sound) (inside : c.Inside p) (ticked : c.ticks p n = some d)
    (input : c.input = .prompted r) (calm : r.console.atEnd = .ended) :
    ∃ answers r', d.input = .prompted r' ∧ r.Gives answers (c.handed p n) r' := by
  refine @ticks_feed p c d n (fun i bytes j => ∀ r, i = .prompted r → r.console.atEnd = .ended →
    ∃ answers r', j = .prompted r' ∧ r.Gives answers bytes r')
    ?_ ?_ sound inside ticked r input calm
  · intro i r input calm
    exact ⟨[], r, input, .refl calm⟩
  · rintro i j l index b bytes read rest r rfl calm
    obtain ⟨answers, r', rfl, gives⟩ := readSymbol_gives calm read
    obtain ⟨answers', r'', input, gives'⟩ := rest r' rfl gives.calm
    exact ⟨answers ++ answers', r'', input, gives.trans gives'⟩

/-- What a run has read that stops, the reader has handed out. -/
theorem Halts.gives (halts : c.Halts p n result e) (sound : p.Sound) (inside : c.Inside p)
    (input : c.input = .prompted r) (calm : r.console.atEnd = .ended) :
    ∃ answers r', e.input = .prompted r' ∧ r.Gives answers (c.handed p n) r' := by
  cases halts with
  | finished ticked => exact ticks_give sound inside ticked input calm
  | refused ticked => exact ticks_give sound inside ticked input calm
  | failed ticked ip found tick =>
    obtain ⟨answers, r', input', gives⟩ := ticks_give sound inside ticked input calm
    rcases tick_error_input ip found tick with kept | ⟨g, read⟩
    · exact ⟨answers, r', kept.trans input', gives⟩
    · rw [input'] at read
      obtain ⟨r'', input'', nothing⟩ := readSymbol_nothing gives.calm read
      have both := gives.trans nothing
      rw [List.append_nil, List.append_nil] at both
      exact ⟨answers, r'', input'', both⟩

end Config
end TapeMachine
