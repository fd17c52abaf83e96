import TapeMachine.Program.Listing
import TapeMachine.Proofs.Compilation
import TapeMachine.Proofs.Readings

/-! Reading a listing back. However wide its columns get, each line of a listing has the same words:
an index, a symbol, perhaps an arrow and a target, and a place. So all entries of the program can be
told from it, and no two programs of known operations have the same listing. -/

namespace TapeMachine

/-- The operation that a symbol stands for. -/
def Op.ofSymbol? (c : Char) : Option Op := all.find? (·.symbol = c)

@[simp] theorem Op.ofSymbol?_symbol (o : Op) : ofSymbol? o.symbol = some o := by
  cases o <;> rfl

namespace Listing

/-- The place that a column names. -/
def place? (cs : List Char) : Option (Option Location) :=
  if cs = ['?', ':', '?'] then some none
  else
    match cs.splitOn ':' with
    | [line, column] =>
      (Numeral.read? line).bind fun l => (Numeral.read? column).map fun c => some ⟨l, c⟩
    | _ => none

/-- The instruction that the words of its text name. -/
def instruction? : List (List Char) → Option Instruction
  | [[c]] => (Op.ofSymbol? c).map fun o => ⟨.op o, none⟩
  | [[c], _, target] =>
    (Op.ofSymbol? c).bind fun o => (Numeral.read? target).map fun t => ⟨.op o, some t⟩
  | _ => none

/-- The entry that a line shows, between its index and its place. -/
def readRow? (line : List Char) : Option Entry :=
  let shown := (words line).tail
  (instruction? shown.dropLast).bind fun i =>
    (place? (shown.getLast?.getD [])).map fun loc => ⟨i, loc⟩

/-- The entries that a listing shows, below its header. -/
def read? (s : String) : Option (List Entry) :=
  (s.toList.splitOn '\n').tail.dropLast.mapM readRow?

/-! ## One line -/

theorem place?_place (loc : Option Location) : place? (place loc).toList = some loc := by
  cases loc with
  | none => rfl
  | some l =>
    obtain ⟨line, column⟩ := l
    have shown : (place (some ⟨line, column⟩)).toList =
        (Numeral.text line).toList ++ ':' :: (Numeral.text column).toList := by
      rw [place, String.toList_append, String.toList_append, List.append_assoc]
      rfl
    have known : (place (some ⟨line, column⟩)).toList ≠ ['?', ':', '?'] := by
      intro same
      have mem : '?' ∈ (place (some ⟨line, column⟩)).toList := same ▸ List.mem_cons_self
      rw [shown] at mem
      rcases List.mem_append.mp mem with mem | mem
      · exact Numeral.notMem_text (by decide) mem
      · rcases List.mem_cons.mp mem with mem | mem
        · exact absurd mem (by decide)
        · exact Numeral.notMem_text (by decide) mem
    rw [place?, if_neg known, shown,
      List.splitOn_append_cons_self_of_not_mem (Numeral.notMem_text (by decide)),
      List.splitOn_eq_singleton (Numeral.notMem_text (by decide))]
    dsimp only
    rw [Numeral.read?_text, Numeral.read?_text]
    rfl

theorem place_ne_nil (loc : Option Location) : (place loc).toList ≠ [] := by
  cases loc with
  | none => decide
  | some l =>
    rw [place, String.toList_append]
    exact List.append_ne_nil_of_right_ne_nil _ (Numeral.text_ne_nil _)

theorem notMem_place {c : Char} (other : c ∉ ['?', ':'] ∧ c ≠ '-' ∧ c.isDigit = false)
    (loc : Option Location) : c ∉ (place loc).toList := by
  obtain ⟨mark, numeral⟩ := other
  intro mem
  cases loc with
  | none =>
    replace mem : c ∈ ['?', ':', '?'] := mem
    simp_all
  | some l =>
    rw [place, String.toList_append, String.toList_append, List.mem_append, List.mem_append] at mem
    rcases mem with (mem | mem) | mem
    · exact Numeral.notMem_text numeral mem
    · replace mem : c ∈ [':'] := mem
      simp_all
    · exact Numeral.notMem_text numeral mem

/-- The text of an instruction of a known operation. -/
def shown (o : Op) : Option Int → String
  | none => String.singleton o.symbol
  | some t => String.singleton o.symbol ++ " -> " ++ Numeral.text t

theorem text_shown (o : Op) (target : Option Int) :
    (Instruction.mk (.op o) target).text = .ok (shown o target) := by
  cases target <;> rfl

/-- The words of an instruction are its symbol and, if it has a target, an arrow and the target. -/
theorem instruction?_shown (o : Op) (target : Option Int) :
    instruction? (words (shown o target).toList) = some ⟨.op o, target⟩ := by
  have symbol : words [o.symbol] = [[o.symbol]] :=
    words_word (List.cons_ne_nil _ _) (Op.notMem_symbols (by decide) [o])
  cases target with
  | none =>
    rw [shown, String.toList_singleton, symbol, instruction?, Op.ofSymbol?_symbol]
    rfl
  | some t =>
    have split : (shown o (some t)).toList =
        [o.symbol] ++ ' ' :: (['-', '>'] ++ ' ' :: (Numeral.text t).toList) := by
      rw [shown, String.toList_append, String.toList_append, String.toList_singleton,
        List.append_assoc]
      rfl
    have target : words (Numeral.text t).toList = [(Numeral.text t).toList] :=
      words_word (Numeral.text_ne_nil t) (Numeral.notMem_text (by decide))
    rw [split, words_append, words_append, symbol, target]
    change instruction? [[o.symbol], ['-', '>'], (Numeral.text t).toList] = _
    rw [instruction?, Op.ofSymbol?_symbol, Numeral.read?_text]
    rfl

/-- A line without its end. -/
def row (index : Nat) (text : String) (loc : Option Location) : List Char :=
  [' ', ' '] ++ (Numeral.zeroPadded 4 index).toList ++ [' ', ' '] ++
    (Numeral.padRight 10 text).toList ++ [' ', ' '] ++ (place loc).toList

theorem toList_line (index : Nat) (text : String) (loc : Option Location) :
    (line index text loc).toList = row index text loc ++ ['\n'] := by
  simp only [line, row, String.toList_append]
  rfl

theorem words_row (index : Nat) (text : String) (loc : Option Location) :
    words (row index text loc) =
      (Numeral.zeroPadded 4 index).toList :: (words text.toList ++ [(place loc).toList]) := by
  have numeral := words_word (Numeral.zeroPadded_ne_nil 4 index)
    (Numeral.notMem_zeroPadded (by decide))
  have located := words_word (place_ne_nil loc) (notMem_place (by decide) loc)
  have split : row index text loc =
      [] ++ ' ' :: ([] ++ ' ' :: ((Numeral.zeroPadded 4 index).toList ++ ' ' :: ([] ++ ' ' ::
        ((Numeral.padRight 10 text).toList ++ ' ' :: ([] ++ ' ' :: (place loc).toList))))) := by
    simp only [row, List.append_assoc, List.cons_append, List.nil_append]
  rw [split]
  simp only [words_append, words_padRight, numeral, located]
  rfl

/-- A line shows its entry, and is one line. -/
theorem readRow?_row (index : Nat) (o : Op) (target : Option Int) (loc : Option Location) :
    readRow? (row index (shown o target) loc) = some ⟨⟨.op o, target⟩, loc⟩ := by
  rw [readRow?, words_row, List.tail_cons, List.dropLast_concat, List.getLast?_concat,
    Option.getD_some, instruction?_shown, place?_place]
  rfl

theorem newline_notMem_shown (o : Op) (target : Option Int) : '\n' ∉ (shown o target).toList := by
  have symbol : '\n' ∉ [o.symbol] := Op.notMem_symbols (by decide) [o]
  cases target with
  | none =>
    rw [shown, String.toList_singleton]
    exact symbol
  | some t =>
    intro mem
    rw [shown, String.toList_append, String.toList_append, String.toList_singleton,
      List.mem_append, List.mem_append] at mem
    rcases mem with (mem | mem) | mem
    · exact symbol mem
    · exact absurd mem (by decide)
    · exact Numeral.notMem_text (by decide) mem

theorem newline_notMem_row (index : Nat) (o : Op) (target : Option Int) (loc : Option Location) :
    '\n' ∉ row index (shown o target) loc := by
  have gap : '\n' ∉ [' ', ' '] := by decide
  have numeral : '\n' ∉ (Numeral.zeroPadded 4 index).toList := Numeral.notMem_zeroPadded (by decide)
  have padded : '\n' ∉ (Numeral.padRight 10 (shown o target)).toList := by
    intro mem
    rcases Numeral.mem_padRight mem with mem | blank
    · exact newline_notMem_shown o target mem
    · exact absurd blank (by decide)
  have located : '\n' ∉ (place loc).toList := notMem_place (by decide) loc
  simp only [row, List.mem_append, not_or]
  exact ⟨⟨⟨⟨⟨gap, numeral⟩, gap⟩, padded⟩, gap⟩, located⟩

/-! ## All lines -/

/-- Entries of known operations are all listed, each on a line of its own that shows it. -/
theorem lines_known (index : Nat) (es : List Entry)
    (known : ∀ e ∈ es, ∃ o : Op, e.instruction.opcode = .op o) :
    ∃ (ls : List String) (rows : List (List Char)), lines index es = (ls, none) ∧
      ls.flatMap String.toList = rows.flatMap (fun row => row ++ ['\n']) ∧
      (∀ row ∈ rows, '\n' ∉ row) ∧ rows.mapM readRow? = some es := by
  induction es generalizing index with
  | nil => exact ⟨[], [], rfl, rfl, nofun, rfl⟩
  | cons e es ih =>
    obtain ⟨ls, rows, listed, joined, whole, read⟩ :=
      ih (index + 1) fun e mem => known e (List.mem_cons_of_mem _ mem)
    obtain ⟨o, opcode⟩ := known e List.mem_cons_self
    obtain ⟨⟨_, target⟩, loc⟩ := e
    cases opcode
    refine ⟨line index (shown o target) loc :: ls, row index (shown o target) loc :: rows,
      ?_, ?_, ?_, ?_⟩
    · rw [lines, text_shown, listed]
    · rw [List.flatMap_cons, List.flatMap_cons, toList_line, joined]
    · exact List.forall_mem_cons.mpr ⟨newline_notMem_row index o target loc, whole⟩
    · rw [List.mapM_cons, readRow?_row, read]
      rfl

variable {p q : Program}

/-- The listing of a program of known operations is whole, and shows all its entries. -/
theorem read?_ofProgram (known : ∀ i ∈ p.instructions, ∃ o : Op, i.opcode = .op o) :
    ∃ text, ofProgram p = (text, none) ∧ read? text = some p.entries.toList := by
  obtain ⟨ls, rows, listed, joined, whole, read⟩ := lines_known 0 p.entries.toList
    fun e mem => known e.instruction (List.mem_map_of_mem mem)
  refine ⟨String.join (header :: ls), ?_, ?_⟩
  · rw [ofProgram, listed]
  · have text : (String.join (header :: ls)).toList =
        (("INSTRUCTIONS:".toList :: rows).flatMap fun row => row ++ ['\n']) ++ [] := by
      rw [String.toList_join, List.flatMap_cons, joined, List.append_nil]
      rfl
    have split := splitOn_lines (List.forall_mem_cons.mpr
      ⟨(by decide : '\n' ∉ "INSTRUCTIONS:".toList), whole⟩) []
    rw [read?, text, split, List.splitOn_nil, List.cons_append, List.tail_cons,
      List.dropLast_concat, read]

/-- Every program of known operations can be read back from its listing, with all its targets and
places, whatever numbers these are. So programs with the same listing have the same length, the same
instructions and the same places; and each compiled program, its places included, is told by its
listing. -/
theorem listing_is_lossless :
    (∀ p : Program, (∀ i ∈ p.instructions, ∃ o : Op, i.opcode = .op o) →
      ∃ text, ofProgram p = (text, none) ∧ read? text = some p.entries.toList) ∧
    (∀ p q : Program, (∀ i ∈ p.instructions, ∃ o : Op, i.opcode = .op o) →
      (∀ i ∈ q.instructions, ∃ o : Op, i.opcode = .op o) → (ofProgram p).1 = (ofProgram q).1 →
      p.length = q.length ∧ p.instructions = q.instructions ∧
        ∀ index, p.location index = q.location index) ∧
    (∀ source p, compile source = .ok p →
      ∃ text, ofProgram p = (text, none) ∧ read? text = some p.entries.toList) := by
  refine ⟨fun p => read?_ofProgram, fun p q known known' same => ?_, fun source p compiled => ?_⟩
  · obtain ⟨text, listed, read⟩ := read?_ofProgram known
    obtain ⟨text', listed', read'⟩ := read?_ofProgram known'
    rw [listed, listed'] at same
    cases same
    have entries : p.entries = q.entries :=
      Array.toList_inj.mp (Option.some.inj (read.symm.trans read'))
    refine ⟨congrArg Array.size entries, ?_, fun index => ?_⟩
    · rw [Program.instructions, Program.instructions, entries]
    · rw [Program.location, Program.location, entries]
  · obtain ⟨_, b, _, _, encodes⟩ := compile_encodes compiled
    refine read?_ofProgram fun i mem => ?_
    have opcode : i.opcode ∈ b.ops.map Opcode.op :=
      encodes.opcodes ▸ List.mem_map_of_mem mem
    obtain ⟨o, _, known⟩ := List.mem_map.mp opcode
    exact ⟨o, known.symm⟩

/-- A target that overflows its column, a place below zero and none at all, in a program that is
frozen and in one that is not; and a compiled loop. -/
theorem overflowing_target_read_back :
    ∃ p q r : Program,
      p = .ofEntries
        [⟨⟨.op .loopStart, some 1234567⟩, some ⟨3, -7⟩⟩, ⟨⟨.op .decrement, none⟩, none⟩] ∧
      q = { p with frozen := false } ∧ compile (.text "[-]") = .ok r ∧
      ofProgram p =
        ("INSTRUCTIONS:\n  0000  [ -> 1234567  3:-7\n  0001  -           ?:?\n", none) ∧
      read? "INSTRUCTIONS:\n  0000  [ -> 1234567  3:-7\n  0001  -           ?:?\n" =
        some p.entries.toList ∧
      p.instructions = q.instructions ∧
      ∃ text, ofProgram r = (text, none) ∧ read? text = some r.entries.toList := by
  obtain ⟨all, alike, compiled⟩ := listing_is_lossless
  obtain ⟨r, made⟩ : ∃ r, compile (.text "[-]") = .ok r := ⟨_, rfl⟩
  obtain ⟨p, spelled⟩ : ∃ p, p = Program.ofEntries
    [⟨⟨.op .loopStart, some 1234567⟩, some ⟨3, -7⟩⟩, ⟨⟨.op .decrement, none⟩, none⟩] := ⟨_, rfl⟩
  have known : ∀ i ∈ p.instructions, ∃ o : Op, i.opcode = .op o := by
    simp [spelled, Program.instructions, Program.ofEntries]
  have listed : ofProgram p =
      ("INSTRUCTIONS:\n  0000  [ -> 1234567  3:-7\n  0001  -           ?:?\n", none) := by
    subst spelled
    decide
  obtain ⟨text, listed', read⟩ := all p known
  cases listed.symm.trans listed'
  exact ⟨p, _, r, spelled, rfl, made, listed, read,
    (alike p { p with frozen := false } known known rfl).2.1, compiled _ r made⟩

end Listing
end TapeMachine
