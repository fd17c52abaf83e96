import TapeMachine.Proofs.TypedLines

/-! Reads of any size from an input that is asked for. What was handed out and what is left in the
buffer are, one behind the other, the lines that were taken, whatever the sizes; a prompt is shown
and a line taken just by a read that finds the buffer empty; and a request for a byte or more goes
unanswered only where no line is left. -/

namespace TapeMachine

/-- What a read delivers where nothing is left to deliver. -/
def StreamEnd.delivered : StreamEnd → Except Cause (List UInt8)
  | ended => .ok []
  | interrupted => .error .interrupt

/-- The answer to a prompt where no line is left. -/
def StreamEnd.told : StreamEnd → LineAnswer
  | ended => .ended
  | interrupted => .interrupted

namespace Console

/-- The lines of a text that are known to have ended. At the very end of the text a carriage return
is no ending: a line feed might follow. -/
def whole : List Char → List (List Char)
  | [] => []
  | '\n' :: rest => [] :: whole rest
  | '\r' :: '\n' :: rest => [] :: whole rest
  | ['\r'] => []
  | '\r' :: rest => [] :: whole rest
  | c :: rest =>
    match whole rest with
    | [] => []
    | line :: others => (c :: line) :: others

example : whole "ab\r\n\nc".toList = ["ab".toList, []] := by decide

/-- The lines that a console has left to give. A last line may lack its ending, unless the input
stops in an interrupt. -/
def linesLeft (c : Console) : List (List Char) :=
  match c.atEnd with
  | .ended => lines c.pending
  | .interrupted => whole c.pending

/-- A text has a whole line where its first line has an ending, and then begins with it. -/
theorem whole_firstLine (cs : List Char) :
    whole cs =
      match firstLine false cs with
      | (line, some rest) => line :: whole rest
      | (_, none) => [] := by
  fun_induction firstLine false cs with
  | case1 => rfl
  | case2 rest => rfl
  | case3 rest => rfl
  | case4 => rfl
  | case5 rest other last =>
    rw [whole]
    · exact other
    · exact last
  | case6 c rest feed both single back line after first ih =>
    rw [first] at ih
    rw [whole, ih]
    · cases after <;> rfl
    · exact feed
    · exact both
    · exact single
    · exact back

/-- Asking for a line takes the next one as long as there is one. -/
theorem ask_left (c : Console) (prompt : String) :
    (c.linesLeft = [] ∧ c.ask prompt = (c.atEnd.told, c.put prompt)) ∨
    ∃ line rest, c.linesLeft = line :: linesLeft { c with pending := rest } ∧
      c.ask prompt = (.line line, { c.put prompt with pending := rest }) := by
  cases atEnd : c.atEnd with
  | ended =>
    simp only [linesLeft, atEnd]
    exact ask_lines atEnd prompt
  | interrupted =>
    have atEnd' : (c.put prompt).atEnd = .interrupted := atEnd
    have first : firstLine ((c.put prompt).atEnd = .ended) (c.put prompt).pending =
        firstLine false c.pending := by
      rw [atEnd']
      rfl
    have split := whole_firstLine c.pending
    simp only [linesLeft, atEnd]
    rw [ask, first]
    generalize firstLine false c.pending = answer at split ⊢
    obtain ⟨line, _ | rest⟩ := answer
    · left
      refine ⟨split, ?_⟩
      simp only [atEnd']
      rfl
    · exact .inr ⟨line, rest, split, rfl⟩

end Console

namespace PromptedInput

/-- Reads one after the other, each up to its size. -/
def reads : List Int → PromptedInput → List (Except Cause (List UInt8)) × PromptedInput
  | [], r => ([], r)
  | size :: sizes, r =>
    let (data, r) := r.read size
    let (others, r) := reads sizes r
    (data :: others, r)

/-- How many of these reads find the buffer empty. -/
def dryReads : List Int → PromptedInput → Nat
  | [], _ => 0
  | size :: sizes, r => (if r.buffer = [] then 1 else 0) + dryReads sizes (r.read size).2

/-- The bytes that reads have handed out. -/
def handedOut (answers : List (Except Cause (List UInt8))) : List UInt8 :=
  answers.flatMap fun
    | .ok bytes => bytes
    | .error _ => []

/-- All bytes that a reader can still hand out: those in its buffer, and those of the lines left. -/
def unread (r : PromptedInput) : List UInt8 := r.buffer ++ r.console.linesLeft.flatMap typed

/-- The reader once it has asked, and a line was typed in answer. -/
def answered (r : PromptedInput) (line rest : List Char) : PromptedInput :=
  { r with console := { r.console.put r.prompt with pending := rest }, buffer := typed line }

/-- The reader once it has asked, and nothing was typed. -/
def unanswered (r : PromptedInput) : PromptedInput :=
  { r with console := r.console.put r.prompt }

/-- All that can come of a read. -/
inductive Comes (r : PromptedInput) (size : Int) : Except Cause (List UInt8) × PromptedInput → Prop
  /-- Something is left of a line, and nothing is asked. -/
  | buffered (left : r.buffer ≠ []) : Comes r size (.ok (r.slice size).1, (r.slice size).2)
  /-- A line is taken, and part of it handed out. -/
  | refilled {line rest : List Char} (dry : r.buffer = [])
      (next : r.console.linesLeft = line :: (r.answered line rest).console.linesLeft) :
      Comes r size
        (.ok ((r.answered line rest).slice size).1, ((r.answered line rest).slice size).2)
  /-- No line is left. -/
  | ended (dry : r.buffer = []) (none : r.console.linesLeft = []) :
      Comes r size (r.console.atEnd.delivered, r.unanswered)

variable {r r' : PromptedInput} {size : Int} {sizes : List Int}
  {answers : List (Except Cause (List UInt8))} {data : Except Cause (List UInt8)}

theorem read_comes (r : PromptedInput) (size : Int) : r.Comes size (r.read size) := by
  by_cases dry : r.buffer = []
  · rcases r.console.ask_left r.prompt with ⟨none, asked⟩ | ⟨line, rest, next, asked⟩
    · have read : r.read size = (r.console.atEnd.delivered, r.unanswered) := by
        rw [PromptedInput.read, if_pos dry, asked]
        cases r.console.atEnd <;> rfl
      rw [read]
      exact .ended dry none
    · have read : r.read size =
          (.ok ((r.answered line rest).slice size).1, ((r.answered line rest).slice size).2) := by
        rw [PromptedInput.read, if_pos dry, asked]
        rfl
      rw [read]
      exact .refilled dry next
  · have read : r.read size = (.ok (r.slice size).1, (r.slice size).2) := by
      rw [PromptedInput.read, if_neg dry]
    rw [read]
    exact .buffered dry

@[simp] theorem handedOut_nil : handedOut [] = [] := rfl

@[simp] theorem handedOut_cons (data : Except Cause (List UInt8))
    (answers : List (Except Cause (List UInt8))) :
    handedOut (data :: answers) = data.toOption.getD [] ++ handedOut answers := by
  cases data <;> rfl

@[simp] theorem delivered_getD (e : StreamEnd) : e.delivered.toOption.getD [] = [] := by
  cases e <;> rfl

theorem typed_ne_nil (line : List Char) : typed line ≠ [] := by
  simp [typed]

/-- A request for a byte or more takes some, but no more than asked for. -/
theorem slice_length (positive : 1 ≤ size) (some_bytes : r.buffer ≠ []) :
    1 ≤ (r.slice size).1.length ∧ ((r.slice size).1.length : Int) ≤ size := by
  have length := List.length_pos_iff.mpr some_bytes
  have nonneg : 0 ≤ size := by omega
  simp only [slice, cut, if_pos nonneg, List.length_take]
  omega

/-! ## Nothing is lost -/

/-- What is handed out and what can then still be are what could be before. -/
theorem read_unread (r : PromptedInput) (size : Int) :
    (r.read size).1.toOption.getD [] ++ (r.read size).2.unread = r.unread := by
  have comes := r.read_comes size
  generalize r.read size = answer at comes ⊢
  cases comes with
  | buffered =>
    change (r.slice size).1 ++ ((r.slice size).2.buffer ++ _) = r.buffer ++ _
    rw [← List.append_assoc, r.slice_append size]
    rfl
  | @refilled line rest dry next =>
    have kept := (r.answered line rest).slice_append size
    have before : r.unread = (r.answered line rest).unread := by
      rw [unread, dry, next, List.flatMap_cons]
      rfl
    change ((r.answered line rest).slice size).1 ++
      (((r.answered line rest).slice size).2.buffer ++ _) = _
    rw [before, ← List.append_assoc, kept]
    rfl
  | ended =>
    rw [delivered_getD]
    rfl

/-- What reads have taken from the console, and how often they have asked for it. -/
structure Took (r : PromptedInput) (n : Nat) (taken : List (List Char)) (handed : List UInt8)
    (r' : PromptedInput) : Prop where
  lines : r.console.linesLeft = taken ++ r'.console.linesLeft
  bytes : r.buffer ++ taken.flatMap typed = handed ++ r'.buffer
  shown : r'.console.shown.toList = r.console.shown.toList ++ List.replicate n r.prompt
  /-- Each prompt is for a line, as long as there is one. -/
  count : taken.length = min n r.console.linesLeft.length
  prompt : r'.prompt = r.prompt
  atEnd : r'.console.atEnd = r.console.atEnd

variable {n n' : Nat} {taken taken' : List (List Char)} {handed handed' : List UInt8}
  {r'' : PromptedInput}

theorem Took.refl (r : PromptedInput) : r.Took 0 [] [] r := by
  refine ⟨rfl, List.append_nil _, ?_, (Nat.zero_min _).symm, rfl, rfl⟩
  rw [List.replicate_zero, List.append_nil]

theorem Took.trans (h : r.Took n taken handed r') (h' : r'.Took n' taken' handed' r'') :
    r.Took (n + n') (taken ++ taken') (handed ++ handed') r'' := by
  refine ⟨?_, ?_, ?_, ?_, h'.prompt.trans h.prompt, h'.atEnd.trans h.atEnd⟩
  · rw [h.lines, h'.lines, List.append_assoc]
  · rw [List.flatMap_append, ← List.append_assoc, h.bytes, List.append_assoc, h'.bytes,
      List.append_assoc]
  · rw [h'.shown, h.shown, h.prompt, List.append_assoc, List.replicate_append_replicate]
  · have count := h.count
    have count' := h'.count
    have left := congrArg List.length h.lines
    rw [List.length_append] at left ⊢
    omega

/-- A read asks for a line if the buffer is empty, and only then. -/
theorem read_took (r : PromptedInput) (size : Int) :
    ∃ taken, r.Took (if r.buffer = [] then 1 else 0) taken ((r.read size).1.toOption.getD [])
      (r.read size).2 := by
  have comes := r.read_comes size
  generalize r.read size = answer at comes ⊢
  cases comes with
  | buffered left =>
    rw [if_neg left]
    refine ⟨[], rfl, ?_, ?_, (Nat.zero_min _).symm, rfl, rfl⟩
    · exact (List.append_nil _).trans (r.slice_append size).symm
    · rw [List.replicate_zero, List.append_nil]
      rfl
  | @refilled line rest dry next =>
    have kept := (r.answered line rest).slice_append size
    rw [if_pos dry]
    refine ⟨[line], next, ?_, Log.toList_push _ _, ?_, rfl, rfl⟩
    · rw [dry, List.nil_append, List.flatMap_singleton]
      exact kept.symm
    · rw [next]
      exact (Nat.min_eq_left (Nat.succ_pos _)).symm
  | ended dry none =>
    rw [if_pos dry]
    refine ⟨[], rfl, ?_, Log.toList_push _ _, ?_, rfl, rfl⟩
    · rw [delivered_getD]
      exact List.append_nil _
    · rw [none]
      rfl

theorem reads_took (sizes : List Int) (r : PromptedInput) :
    ∃ taken, r.Took (dryReads sizes r) taken (handedOut (reads sizes r).1) (reads sizes r).2 := by
  induction sizes generalizing r with
  | nil => exact ⟨[], .refl r⟩
  | cons size sizes ih =>
    obtain ⟨taken, first⟩ := r.read_took size
    obtain ⟨others, further⟩ := ih (r.read size).2
    refine ⟨taken ++ others, ?_⟩
    rw [reads, handedOut_cons]
    exact first.trans further

/-! ## The next read -/

theorem unread_eq_nil : r.unread = [] ↔ r.buffer = [] ∧ r.console.linesLeft = [] := by
  rw [unread, List.append_eq_nil_iff, List.flatMap_eq_nil_iff]
  refine and_congr_right fun _ => ?_
  constructor
  · intro nothing
    exact List.eq_nil_iff_forall_not_mem.mpr fun line mem => typed_ne_nil line (nothing line mem)
  · intro none line mem
    rw [none] at mem
    cases mem

/-- A request for a byte or more is answered as long as there is a byte. -/
theorem read_some (left : r.unread ≠ []) (positive : 1 ≤ size) :
    ∃ bytes, (r.read size).1 = .ok bytes ∧ 1 ≤ bytes.length ∧ (bytes.length : Int) ≤ size := by
  have comes := r.read_comes size
  generalize r.read size = answer at comes ⊢
  cases comes with
  | buffered some_bytes => exact ⟨_, rfl, slice_length positive some_bytes⟩
  | @refilled line rest dry next => exact ⟨_, rfl, slice_length positive (typed_ne_nil line)⟩
  | ended dry none => exact absurd (unread_eq_nil.mpr ⟨dry, none⟩) left

/-- Where there is no byte, a read meets the end. -/
theorem read_none (none : r.unread = []) (size : Int) :
    r.read size = (r.console.atEnd.delivered, r.unanswered) := by
  obtain ⟨dry, none⟩ := unread_eq_nil.mp none
  have comes := r.read_comes size
  generalize r.read size = answer at comes ⊢
  cases comes with
  | buffered some_bytes => exact absurd dry some_bytes
  | refilled dry next =>
    rw [none] at next
    cases next
  | ended => rfl

/-- A read that finds the buffer empty asks for one line; any other leaves the console alone. -/
theorem read_console (r : PromptedInput) (size : Int) :
    (r.buffer = [] →
      (r.read size).2.console.shown.toList = r.console.shown.toList ++ [r.prompt] ∧
      (r.read size).2.console.linesLeft = r.console.linesLeft.tail) ∧
    (r.buffer ≠ [] → (r.read size).2.console = r.console) := by
  have comes := r.read_comes size
  generalize r.read size = answer at comes ⊢
  cases comes with
  | buffered left => exact ⟨fun dry => absurd dry left, fun _ => rfl⟩
  | refilled dry next =>
    refine ⟨fun _ => ⟨Log.toList_push _ _, ?_⟩, fun left => absurd dry left⟩
    rw [next]
    rfl
  | ended dry none =>
    refine ⟨fun _ => ⟨Log.toList_push _ _, ?_⟩, fun left => absurd dry left⟩
    rw [none]
    exact none

/-- A request for one byte hands out the first. -/
theorem read_first {b : UInt8} {rest : List UInt8} (next : r.unread = b :: rest) :
    (r.read 1).1 = .ok [b] ∧ (r.read 1).2.unread = rest := by
  have left : r.unread ≠ [] := by
    rw [next]
    exact List.cons_ne_nil b rest
  obtain ⟨bytes, read, some_bytes, one⟩ := read_some left (Int.le_refl 1)
  obtain ⟨a, rfl⟩ := List.length_eq_one_iff.mp (by omega : bytes.length = 1)
  have kept := r.read_unread 1
  rw [read, next] at kept
  obtain ⟨rfl, further⟩ := List.cons.inj kept
  exact ⟨read, further⟩

/-- Read byte by byte, a reader hands out the bytes in order, and behind them the end. -/
theorem reads_bytewise (n : Nat) (r : PromptedInput) :
    (reads (List.replicate n 1) r).1 = (List.range n).map fun i =>
      match r.unread[i]? with
      | some b => .ok [b]
      | none => r.console.atEnd.delivered := by
  induction n generalizing r with
  | zero => rfl
  | succ n ih =>
    obtain ⟨_, took⟩ := r.read_took 1
    rw [List.replicate_succ, reads, List.range_succ_eq_map, List.map_cons, List.map_map]
    dsimp only
    rw [ih, took.atEnd]
    cases next : r.unread with
    | nil =>
      have kept := r.read_unread 1
      rw [read_none next, next, delivered_getD, List.nil_append] at kept
      rw [read_none next, kept]
      rfl
    | cons b rest =>
      obtain ⟨read, further⟩ := read_first next
      rw [read, further]
      rfl

/-- A symbol is read as long as there is a byte, and it is the first. -/
theorem readSymbol_unread (r : PromptedInput) (index : Int) :
    ((Input.prompted r).readSymbol index).1 =
      match r.unread, r.console.atEnd with
      | b :: _, _ => .ok b
      | [], .ended => .error (.report ⟨.readSymbol, none, some .endOfInput, some index⟩)
      | [], .interrupted => .error (.stream .interrupt) := by
  have read : (Input.prompted r).read = ((r.read 1).1, .prompted (r.read 1).2) := rfl
  cases next : r.unread with
  | nil =>
    rw [Input.readSymbol, read, read_none next]
    cases r.console.atEnd <;> rfl
  | cons b rest =>
    rw [Input.readSymbol, read, (read_first next).1]

/-- Reads of any sizes lose no byte, hand none out twice, and keep their order: what they have
handed out and what is left in the buffer are the bytes of the lines taken so far, each with a line
feed behind it. A read that finds the buffer empty shows one prompt and takes one line, if there is
one; any other read leaves the console alone. A request for a byte or more hands out some, and no
more than asked for, unless buffer and console are empty. So who reads byte by byte is handed all
bytes of the lines left, and meets the end just behind them. -/
theorem reads_conserve_lines {console : Console} {prompt : String} {sizes : List Int}
    (made : reads sizes { console, prompt } = (answers, r)) :
    (∃ taken, console.linesLeft = taken ++ r.console.linesLeft ∧
      handedOut answers ++ r.buffer = taken.flatMap typed ∧
      taken.length = min (dryReads sizes { console, prompt }) console.linesLeft.length) ∧
    r.console.shown.toList =
      console.shown.toList ++ List.replicate (dryReads sizes { console, prompt }) prompt ∧
    (∀ size,
      (r.buffer = [] →
        (r.read size).2.console.shown.toList = r.console.shown.toList ++ [prompt] ∧
        (r.read size).2.console.linesLeft = r.console.linesLeft.tail) ∧
      (r.buffer ≠ [] → (r.read size).2.console = r.console)) ∧
    (∀ size, 1 ≤ size →
      (r.buffer ≠ [] ∨ r.console.linesLeft ≠ [] →
        ∃ bytes, (r.read size).1 = .ok bytes ∧ 1 ≤ bytes.length ∧ (bytes.length : Int) ≤ size) ∧
      (r.buffer = [] → r.console.linesLeft = [] →
        (r.read size).1 = console.atEnd.delivered)) ∧
    (∀ n, (reads (List.replicate n 1) r).1 = (List.range n).map fun i =>
      match (r.buffer ++ r.console.linesLeft.flatMap typed)[i]? with
      | some b => .ok [b]
      | none => console.atEnd.delivered) ∧
    ∀ index, ((Input.prompted r).readSymbol index).1 =
        .error (.report ⟨.readSymbol, none, some .endOfInput, some index⟩) ↔
      r.buffer = [] ∧ r.console.linesLeft = [] ∧ console.atEnd = .ended := by
  obtain ⟨taken, took⟩ := reads_took sizes { console, prompt }
  rw [made] at took
  have atEnd : r.console.atEnd = console.atEnd := took.atEnd
  refine ⟨⟨taken, took.lines, took.bytes.symm, took.count⟩, took.shown, ?_, ?_, ?_, ?_⟩
  · intro size
    have asks := r.read_console size
    rw [took.prompt] at asks
    exact asks
  · intro size positive
    constructor
    · intro left
      refine read_some ?_ positive
      intro none
      obtain ⟨dry, none⟩ := unread_eq_nil.mp none
      exact left.elim (absurd dry) (absurd none)
    · intro dry none
      rw [read_none (unread_eq_nil.mpr ⟨dry, none⟩), atEnd]
  · intro n
    rw [reads_bytewise, atEnd]
    rfl
  · intro index
    rw [readSymbol_unread, ← and_assoc, ← unread_eq_nil, atEnd]
    cases r.unread with
    | cons b rest => exact iff_of_false nofun (by simp)
    | nil => cases console.atEnd <;> simp

/-- Two lines, of which the second has no ending, read in pieces that cut a character in two, hand
out nothing, or leave a byte behind. -/
theorem pieces_of_two_lines :
    ∃ answers r, reads [1, 0, -1, 5, 1] { console := { pending := ['é', '\n', 'b'] } } =
        (answers, r) ∧
      answers = [.ok [0xC3], .ok [], .ok [0xA9], .ok [0x0A], .ok [0x62]] ∧ r.buffer = [0x0A] ∧
      (∃ taken, [['é'], ['b']] = taken ++ r.console.linesLeft ∧
        handedOut answers ++ r.buffer = taken.flatMap typed) ∧
      (reads (List.replicate 2 1) r).1 = [.ok [0x0A], .ok []] := by
  obtain ⟨answers, r, made, handed, left⟩ : ∃ answers r,
      reads [1, 0, -1, 5, 1] { console := { pending := ['é', '\n', 'b'] } } = (answers, r) ∧
      answers = [.ok [0xC3], .ok [], .ok [0xA9], .ok [0x0A], .ok [0x62]] ∧ r.buffer = [0x0A] ∧
      r.console.linesLeft = [] := ⟨_, _, rfl, rfl, rfl, rfl⟩
  obtain ⟨buffer, none⟩ := left
  obtain ⟨⟨taken, lines, bytes, _⟩, _, _, _, bytewise, _⟩ := reads_conserve_lines made
  refine ⟨answers, r, made, handed, buffer, ⟨taken, lines, bytes⟩, ?_⟩
  rw [bytewise, buffer, none]
  rfl

end PromptedInput
end TapeMachine
