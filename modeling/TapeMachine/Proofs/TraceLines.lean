import TapeMachine.Machine.Basic
import TapeMachine.Proofs.Readings

/-! The trace as text. A line of it has five words with one blank between them, and all but the
symbol say what they hold. So every index, symbol, pointer and cell that was traced can be read off
the text, line by line. -/

namespace TapeMachine

namespace TraceEntry

/-- The number in a word, behind its label. -/
def labelled? (label word : List Char) : Option Int :=
  if label.isPrefixOf word then Numeral.read? (word.drop label.length) else none

/-- What a line shows, without its end. No pointer is negative, and a cell is a byte. -/
def readLine? (line : List Char) : Option TraceEntry :=
  match line.splitOn ' ' with
  | [mark, index, [symbol], pointer, cell] =>
    if mark = "TRACE".toList then
      (labelled? "ip=".toList index).bind fun index =>
        (labelled? "ptr=".toList pointer).bind fun pointer =>
          (labelled? "cell=".toList cell).bind fun cell =>
            if 0 ≤ pointer ∧ 0 ≤ cell ∧ cell < 256 then
              some ⟨index, symbol, pointer.toNat, UInt8.ofNat cell.toNat⟩
            else none
    else none
  | _ => none

/-- What the lines of a text show, if each of them is ended. -/
def read? (s : String) : Option (List TraceEntry) :=
  let pieces := s.toList.splitOn '\n'
  if pieces.getLast? = some [] then pieces.dropLast.mapM readLine? else none

variable {e : TraceEntry} {es : List TraceEntry} {o : Op} {c : Char}

/-! ## One line -/

theorem labelled?_append (label digits : List Char) :
    labelled? label (label ++ digits) = Numeral.read? digits := by
  rw [labelled?, if_pos (List.isPrefixOf_iff_prefix.mpr (List.prefix_append label digits)),
    List.drop_left]

/-- The words of a line. -/
def words (e : TraceEntry) : List (List Char) :=
  ["TRACE".toList, "ip=".toList ++ (Numeral.zeroPadded 4 e.index).toList, [e.symbol],
    "ptr=".toList ++ (Numeral.text e.pointer).toList,
    "cell=".toList ++ (Numeral.text e.cell.toNat).toList]

/-- A line without its end. -/
def line (e : TraceEntry) : List Char := [' '].intercalate e.words

theorem toList_text (e : TraceEntry) : e.text.toList = e.line ++ ['\n'] := by
  unfold text line words
  simp only [List.intercalate_cons_cons, List.intercalate_singleton, String.toList_append,
    String.toList_singleton, List.append_assoc]
  rfl

/-- What is in no label, no numeral and no symbol is in no word of a line. -/
theorem notMem_words (symbol : e.symbol = o.symbol)
    (label : ∀ l ∈ ["TRACE", "ip=", "ptr=", "cell="], c ∉ l.toList)
    (numeral : c ≠ '-' ∧ c.isDigit = false) (other : ∀ p ∈ Op.all, p.symbol ≠ c) :
    ∀ w ∈ e.words, c ∉ w := by
  intro w mem
  simp only [words, List.mem_cons, List.not_mem_nil, or_false] at mem
  rcases mem with rfl | rfl | rfl | rfl | rfl
  · exact label "TRACE" (by decide)
  · exact List.not_mem_append (label "ip=" (by decide)) (Numeral.notMem_zeroPadded numeral)
  · exact symbol ▸ Op.notMem_symbols other [o]
  · exact List.not_mem_append (label "ptr=" (by decide)) (Numeral.notMem_text numeral)
  · exact List.not_mem_append (label "cell=" (by decide)) (Numeral.notMem_text numeral)

/-- A line shows its entry. -/
theorem readLine?_line (symbol : e.symbol = o.symbol) : readLine? e.line = some e := by
  have split : e.line.splitOn ' ' = e.words :=
    List.splitOn_intercalate ' ' (notMem_words symbol (by decide) (by decide) (by decide))
      (List.cons_ne_nil _ _)
  have cell : (e.cell.toNat : Int) < 256 := Int.ofNat_lt.mpr e.cell.toNat_lt
  rw [readLine?, split, words]
  dsimp only
  rw [if_pos rfl, labelled?_append, labelled?_append, labelled?_append, Numeral.read?_zeroPadded,
    Numeral.read?_text, Numeral.read?_text]
  simp only [Option.bind_some, Int.natCast_nonneg, cell, and_self, if_true, Int.toNat_natCast,
    UInt8.ofNat_toNat]

theorem newline_notMem_line (symbol : e.symbol = o.symbol) : '\n' ∉ e.line := by
  have whole := notMem_words (c := '\n') symbol (by decide) (by decide) (by decide)
  simp only [words, List.forall_mem_cons] at whole
  obtain ⟨mark, index, shown, pointer, cell, _⟩ := whole
  have blank : '\n' ∉ [' '] := by decide
  simp only [line, words, List.intercalate_cons_cons, List.intercalate_singleton]
  exact List.not_mem_append (List.not_mem_append mark blank)
    (List.not_mem_append (List.not_mem_append index blank)
      (List.not_mem_append (List.not_mem_append shown blank)
        (List.not_mem_append (List.not_mem_append pointer blank) cell)))

/-! ## All lines -/

theorem mapM_readLine? (known : ∀ e ∈ es, ∃ o : Op, e.symbol = o.symbol) :
    (es.map line).mapM readLine? = some es := by
  induction es with
  | nil => rfl
  | cons e es ih =>
    obtain ⟨o, symbol⟩ := known e List.mem_cons_self
    rw [List.map_cons, List.mapM_cons, readLine?_line symbol,
      ih fun e mem => known e (List.mem_cons_of_mem _ mem)]
    rfl

/-- The text of entries, each of which has the symbol of an operation, shows these entries. -/
theorem read?_join (known : ∀ e ∈ es, ∃ o : Op, e.symbol = o.symbol) :
    read? (String.join (es.map text)) = some es := by
  have whole : ∀ l ∈ es.map line, '\n' ∉ l := by
    intro l mem
    obtain ⟨e, traced, rfl⟩ := List.mem_map.mp mem
    obtain ⟨o, symbol⟩ := known e traced
    exact newline_notMem_line symbol
  have pieces : (String.join (es.map text)).toList.splitOn '\n' = es.map line ++ [[]] := by
    have split := splitOn_lines whole []
    rw [List.append_nil, List.flatMap_map, List.splitOn_nil] at split
    rw [String.toList_join, List.flatMap_map]
    simpa only [toList_text] using split
  simp only [read?, pieces, List.getLast?_concat, if_true, List.dropLast_concat,
    mapM_readLine? known]

end TraceEntry

namespace Machine

variable {m v : Machine} {lines : List TraceEntry}

/-- What a machine has traced since it was like another: these lines and nothing else, of which all
can be read off the text. -/
structure TracedSince (m : Machine) (lines : List TraceEntry) (v : Machine) : Prop where
  entries : v.trace.toList = m.trace.toList ++ lines
  text : v.traceText = m.traceText ++ String.join (lines.map TraceEntry.text)
  shown : TraceEntry.read? (String.join (lines.map TraceEntry.text)) = some lines

theorem tracedSince (known : ∀ e ∈ lines, ∃ o : Op, e.symbol = o.symbol)
    (entries : v.trace.toList = m.trace.toList ++ lines) : m.TracedSince lines v := by
  refine ⟨entries, ?_, TraceEntry.read?_join known⟩
  rw [traceText, traceText, entries, List.map_append, String.join_append]

end Machine
end TapeMachine
