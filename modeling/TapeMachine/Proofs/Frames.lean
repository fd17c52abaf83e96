import TapeMachine.Debugger.Frame
import TapeMachine.Proofs.Compilation
import TapeMachine.Proofs.Readings

/-! What the view of a machine shows can be read from its text. The first line is the program, with
the next instruction or the end between bars; the section of the cells has a line for each, one of
them highlighted. Both stand in front of the output, which may hold anything, and the counts behind
it; so views of the same program, output and status are those of the same machine. -/

namespace TapeMachine.Frame

/-- What stands on the line of a program: a character as it is, or characters between bars. -/
inductive Piece where
  | bare (c : Char)
  | marked (cs : List Char)
  deriving DecidableEq, Repr

/-- What a line of the cells shows. -/
structure ShownCell where
  number : Int
  value : Int
  highlighted : Bool
  deriving DecidableEq, Repr

/-- The visible characters of a text: all but escape sequences, which end with an `m`. The first
argument says whether the text starts inside of one. -/
def visibleFrom : Bool → List Char → List Char
  | _, [] => []
  | true, c :: cs => visibleFrom (c ≠ 'm') cs
  | false, c :: cs => if c = '\x1b' then visibleFrom true cs else c :: visibleFrom false cs

def visible (cs : List Char) : List Char := visibleFrom false cs

/-- The pieces of a line split at its bars: parts outside and inside of them by turns. Blanks
outside do not count. -/
def piecesOf : List (List Char) → List Piece
  | [] => []
  | [outside] => (outside.filter (· ≠ ' ')).map .bare
  | outside :: inside :: more =>
    (outside.filter (· ≠ ' ')).map .bare ++ .marked (visible inside) :: piecesOf more

/-- The pieces of the first line of a view. -/
def pieces (text : String) : List Piece :=
  piecesOf (((text.toList.splitOn '\n').headD []).splitOn '|')

/-- The characters of a piece without its bars. The mark of the end has none. -/
def Piece.characters : Piece → List Char
  | bare c => [c]
  | marked cs => if cs = "<end>".toList then [] else cs

/-- The characters of pieces, with all decoration removed. -/
def undecorated (ps : List Piece) : List Char := ps.flatMap Piece.characters

/-- The pieces of a program's line: each character, the `ip`-th of them marked, and the marked end
if it has been reached. -/
def decorated (ip : Int) (cs : List Char) : List Piece :=
  (cs.mapIdx fun k c => if (k : Int) = ip then .marked [c] else .bare c) ++
    if cs.length ≤ ip then [.marked "<end>".toList] else []

/-- The lines of the section of the cells: from below its heading to the next empty line. -/
def cellSection (text : String) : List (List Char) :=
  (((text.toList.splitOn '\n').dropWhile (· ≠ "CELLS:".toList)).drop 2).takeWhile (· ≠ [])

/-- What a line of the cells shows: a number in brackets and a value. -/
def cell? (line : List Char) : Option ShownCell :=
  match (visible line).splitOn ':' with
  | [label, value] =>
    (Numeral.read? (label.drop 1).dropLast).bind fun number =>
      (Numeral.read? (value.drop 1)).map fun value =>
        ⟨number, value, onBlue.toList.isPrefixOf line⟩
  | _ => none

/-- The steps, the index and the pointer that the line of the counts tells. -/
def counts? (line : List Char) : Option (Int × Int × Int) :=
  match words line with
  | [_, steps, ip, pointer] =>
    (Numeral.read? steps).bind fun steps =>
      (Numeral.read? (ip.drop 3)).bind fun ip =>
        (Numeral.read? (pointer.drop 4)).map fun pointer => (steps, ip, pointer)
  | _ => none

variable {f g : Frame} {c : Char} {cs front back : List Char} {ip : Int} {index : Nat}

/-! ## Escape sequences -/

theorem visible_append (bare : '\x1b' ∉ front) (back : List Char) :
    visible (front ++ back) = front ++ visible back := by
  induction front with
  | nil => rfl
  | cons c front ih =>
    obtain ⟨other, bare⟩ := not_or.mp (mt List.mem_cons.mpr bare)
    rw [List.cons_append, visible, visibleFrom, if_neg (Ne.symm other)]
    exact congrArg (c :: ·) (ih bare)

/-- What is set in a colour shows without it. -/
theorem visible_coloured (bare : '\x1b' ∉ cs) (colour : String)
    (colours : ∀ more, visible (colour.toList ++ more) = visible more) :
    visible (colour.toList ++ cs ++ plain.toList) = cs := by
  rw [List.append_assoc, colours, visible_append bare]
  exact List.append_nil _

/-! ## The line of the program -/

theorem marks_append (ip : Int) (index : Nat) (front back : List Char) :
    marks ip index (front ++ back) =
      marks ip index front ++ marks ip (index + front.length) back := by
  induction front generalizing index with
  | nil => rfl
  | cons c front ih =>
    rw [List.cons_append, marks, ih, marks, List.length_cons, Nat.add_right_comm]
    rfl

theorem marks_elsewhere (elsewhere : ip < index ∨ index + cs.length ≤ ip) :
    (marks ip index cs).flatMap String.toList = cs := by
  induction cs generalizing index with
  | nil => rfl
  | cons c cs ih =>
    rw [List.length_cons] at elsewhere
    rw [marks, if_neg (by omega), List.flatMap_cons, ih (by omega)]
    exact congrArg (· ++ cs) (String.toList_singleton c)

theorem toList_code (f : Frame) (cs : List Char) :
    (f.code cs).toList =
      (marks f.ip 0 cs).flatMap String.toList ++ (f.endMark cs.length).toList := by
  rw [code, String.toList_append, String.toList_join]

/-- The line of a program: nothing of it is marked, or one character, or the end. -/
theorem code_cases (f : Frame) (cs : List Char) :
    f.ip < 0 ∧ (f.code cs).toList = cs ∨
    (∃ front c back, cs = front ++ c :: back ∧ f.ip = front.length ∧
      (f.code cs).toList = front ++ (marked (String.singleton c)).toList ++ ' ' :: back) ∨
    cs.length ≤ f.ip ∧ (f.code cs).toList = cs ++ (marked "<end>").toList := by
  rw [toList_code, endMark]
  by_cases ended : cs.length ≤ f.ip
  · refine .inr (.inr ⟨ended, ?_⟩)
    rw [if_pos ended, marks_elsewhere (by omega)]
  · rw [if_neg ended]
    by_cases before : f.ip < 0
    · refine .inl ⟨before, ?_⟩
      rw [marks_elsewhere (.inl before)]
      exact List.append_nil cs
    · have lt : f.ip.toNat < cs.length := by omega
      have split : cs = cs.take f.ip.toNat ++ cs[f.ip.toNat] :: cs.drop (f.ip.toNat + 1) := by
        rw [List.getElem_cons_drop, List.take_append_drop]
      have place : f.ip = (cs.take f.ip.toNat).length := by
        rw [List.length_take]
        omega
      refine .inr (.inl ⟨_, _, _, split, place, ?_⟩)
      generalize cs.take f.ip.toNat = front at *
      generalize cs.drop (f.ip.toNat + 1) = back at *
      generalize cs[f.ip.toNat] = c at *
      subst split
      rw [marks_append, List.flatMap_append, marks_elsewhere (by omega), marks, if_pos (by omega),
        List.flatMap_cons, marks_elsewhere (by omega), String.toList_append]
      simp

theorem mapIdx_elsewhere {place : Nat → Nat}
    (elsewhere : ∀ k < cs.length, (place k : Int) ≠ ip) :
    (cs.mapIdx fun k c => if (place k : Int) = ip then Piece.marked [c] else .bare c) =
      cs.map .bare := by
  refine List.ext_getElem (by simp) fun k lt _ => ?_
  rw [List.length_mapIdx] at lt
  rw [List.getElem_mapIdx, List.getElem_map, if_neg (elsewhere k lt)]

theorem decorated_before (before : ip < 0) (cs : List Char) : decorated ip cs = cs.map .bare := by
  rw [decorated, if_neg (by omega), List.append_nil, mapIdx_elsewhere fun k _ => by omega]

theorem decorated_ended (ended : cs.length ≤ ip) :
    decorated ip cs = cs.map .bare ++ [.marked "<end>".toList] := by
  rw [decorated, if_pos ended, mapIdx_elsewhere fun k lt => by omega]

theorem decorated_amid (front back : List Char) (c : Char) :
    decorated front.length (front ++ c :: back) =
      front.map .bare ++ .marked [c] :: back.map .bare := by
  have going : ¬ ((front ++ c :: back).length : Int) ≤ front.length := by
    rw [List.length_append, List.length_cons]
    omega
  rw [decorated, if_neg going, List.append_nil, List.mapIdx_append, List.mapIdx_cons,
    mapIdx_elsewhere fun k lt => by omega, mapIdx_elsewhere fun k _ => by omega,
    if_pos (by rw [Nat.zero_add])]

theorem Piece.characters_marked (c : Char) : (marked [c]).characters = [c] := by
  rw [characters, if_neg]
  simp

theorem undecorated_mapIdx {piece : Nat → Char → Piece}
    (shows : ∀ k c, (piece k c).characters = [c]) : undecorated (cs.mapIdx piece) = cs := by
  induction cs generalizing piece with
  | nil => rfl
  | cons c cs ih =>
    have rest := ih fun k c => shows (k + 1) c
    rw [undecorated] at rest
    rw [undecorated, List.mapIdx_cons, List.flatMap_cons, shows, rest]
    rfl

theorem undecorated_decorated (ip : Int) (cs : List Char) :
    undecorated (decorated ip cs) = cs := by
  have characters : undecorated
      (cs.mapIdx fun k c => if (k : Int) = ip then Piece.marked [c] else .bare c) = cs := by
    refine undecorated_mapIdx fun k c => ?_
    split
    · exact Piece.characters_marked c
    · rfl
  have mark : undecorated (if cs.length ≤ ip then [.marked "<end>".toList] else []) = [] := by
    split <;> decide
  rw [undecorated] at characters mark
  rw [undecorated, decorated, List.flatMap_append, characters, mark, List.append_nil]

/-- Outside of bars each character is a piece, if it is not a blank. -/
theorem piecesOf_bare (unmarked : '|' ∉ cs) :
    piecesOf (cs.splitOn '|') = (cs.filter (· ≠ ' ')).map .bare := by
  rw [List.splitOn_eq_singleton unmarked, piecesOf]

/-- A mark is a piece of its own. -/
theorem piecesOf_marked (unmarked : '|' ∉ front) {s : String}
    (inside : '|' ∉ s.toList ∧ '\x1b' ∉ s.toList) (back : List Char) :
    piecesOf ((front ++ (marked s).toList ++ back).splitOn '|') =
      (front.filter (· ≠ ' ')).map .bare ++ .marked s.toList :: piecesOf (back.splitOn '|') := by
  have split : front ++ (marked s).toList ++ back = (front ++ [' ']) ++
      '|' :: ((red.toList ++ s.toList ++ plain.toList) ++ '|' :: back) := by
    simp [marked]
  have outside : '|' ∉ front ++ [' '] := by simpa using unmarked
  have coloured : '|' ∉ red.toList ++ s.toList ++ plain.toList := by
    have colours : '|' ∉ red.toList ∧ '|' ∉ plain.toList := by decide
    simp [colours, inside.1]
  rw [split, List.splitOn_append_cons_self_of_not_mem outside,
    List.splitOn_append_cons_self_of_not_mem coloured, piecesOf,
    visible_coloured inside.2 red fun _ => rfl, List.filter_append]
  exact congrArg (fun ds => ds.map Piece.bare ++ _) (List.append_nil _)

/-- The line of a program falls into its characters, whichever of them is marked, and perhaps the
marked end. -/
theorem piecesOf_code (f : Frame) (symbols : '|' ∉ cs ∧ ' ' ∉ cs ∧ '\x1b' ∉ cs) :
    piecesOf ((f.code cs).toList.splitOn '|') = decorated f.ip cs := by
  obtain ⟨unmarked, close, uncoloured⟩ := symbols
  have whole : ∀ ds : List Char, ' ' ∉ ds → ds.filter (· ≠ ' ') = ds := fun ds close =>
    List.filter_eq_self.mpr fun c mem => decide_eq_true fun same => close (same ▸ mem)
  rcases code_cases f cs with ⟨before, shown⟩ | ⟨front, c, back, rfl, place, shown⟩ |
    ⟨ended, shown⟩
  · rw [shown, piecesOf_bare unmarked, whole cs close, decorated_before before]
  · simp only [List.mem_append, List.mem_cons, not_or] at unmarked close uncoloured
    obtain ⟨unmarked, bar, unmarked'⟩ := unmarked
    obtain ⟨close, -, close'⟩ := close
    have one : '|' ∉ (String.singleton c).toList ∧ '\x1b' ∉ (String.singleton c).toList := by
      rw [String.toList_singleton, List.mem_singleton, List.mem_singleton]
      exact ⟨bar, uncoloured.2.1⟩
    have rest : '|' ∉ ' ' :: back := by simpa using unmarked'
    have blank : (' ' :: back).filter (· ≠ ' ') = back := whole back close'
    rw [place, decorated_amid, shown, piecesOf_marked unmarked one, piecesOf_bare rest,
      whole front close, blank, String.toList_singleton]
  · have mark := piecesOf_marked unmarked
      (by decide : '|' ∉ "<end>".toList ∧ '\x1b' ∉ "<end>".toList) []
    rw [List.append_nil, whole cs close] at mark
    rw [shown, mark, decorated_ended ended]
    rfl

theorem mem_marked {s : String} (mem : c ∈ (marked s).toList) :
    c ∈ s.toList ∨ c ∈ (marked "<end>").toList := by
  simp only [marked, String.toList_append, List.mem_append] at mem ⊢
  rcases mem with ((mem | mem) | mem) | mem
  · exact .inr (.inl (.inl (.inl mem)))
  · exact .inl mem
  · exact .inr (.inl (.inr mem))
  · exact .inr (.inr mem)

/-- What is neither on the program nor in a mark is not on the program's line. -/
theorem notMem_code (f : Frame) (unnamed : c ∉ cs) (unmarked : c ∉ (marked "<end>").toList) :
    c ∉ (f.code cs).toList := by
  intro mem
  rcases code_cases f cs with ⟨_, shown⟩ | ⟨front, d, back, rfl, _, shown⟩ | ⟨_, shown⟩
  · exact unnamed (shown ▸ mem)
  · rw [shown, List.mem_append, List.mem_append] at mem
    rcases mem with (mem | mem) | mem
    · exact unnamed (List.mem_append_left _ mem)
    · rcases mem_marked mem with mem | mem
      · rw [String.toList_singleton, List.mem_singleton] at mem
        exact unnamed (mem ▸ List.mem_append_right _ List.mem_cons_self)
      · exact unmarked mem
    · rcases List.mem_cons.mp mem with blank | mem
      · exact absurd (blank ▸ unmarked) (by decide)
      · exact unnamed (List.mem_append_right _ (List.mem_cons_of_mem _ mem))
  · rw [shown, List.mem_append] at mem
    exact mem.elim unnamed unmarked

/-! ## The lines of the cells -/

/-- The number and the value of a cell. -/
def cellText (index : Nat) (c : UInt8) : String :=
  "[" ++ Numeral.text (index + 1) ++ "]: " ++ Numeral.text c.toNat

def cellLine (pointer : Int) (index : Nat) (c : UInt8) : String :=
  if index = pointer then highlighted (cellText index c) else cellText index c

theorem cellLines_cons (pointer : Int) (index : Nat) (c : UInt8) (cells : List UInt8) :
    cellLines pointer index (c :: cells) =
      cellLine pointer index c :: cellLines pointer (index + 1) cells := rfl

theorem toList_cellText (index : Nat) (c : UInt8) :
    (cellText index c).toList = ('[' :: (Numeral.text (index + 1)).toList ++ [']']) ++
      ':' :: ' ' :: (Numeral.text c.toNat).toList := by
  simp [cellText]

theorem notMem_cellText {d : Char} (other : d ∉ "[]: ".toList ∧ d ≠ '-' ∧ d.isDigit = false)
    (index : Nat) (c : UInt8) : d ∉ (cellText index c).toList := by
  have number := Numeral.notMem_text other.2 (i := (index : Int) + 1)
  have value := Numeral.notMem_text other.2 (i := c.toNat)
  have marks : d ∉ ['[', ']', ':', ' '] := other.1
  rw [toList_cellText]
  simp_all

theorem visible_cellLine (pointer : Int) (index : Nat) (c : UInt8) :
    visible (cellLine pointer index c).toList = (cellText index c).toList := by
  have bare := notMem_cellText (d := '\x1b') (by decide) index c
  unfold cellLine
  split
  · rw [highlighted, String.toList_append, String.toList_append,
      visible_coloured bare (onBlue ++ black) fun _ => rfl]
  · have whole := visible_append bare []
    rw [List.append_nil] at whole
    exact whole.trans (List.append_nil _)

theorem highlighted_cellLine (pointer : Int) (index : Nat) (c : UInt8) :
    onBlue.toList.isPrefixOf (cellLine pointer index c).toList = decide (index = pointer) := by
  unfold cellLine
  split
  · rename_i here
    rw [decide_eq_true here, highlighted, String.toList_append, String.toList_append,
      String.toList_append, List.append_assoc, List.append_assoc]
    exact List.isPrefixOf_iff_prefix.mpr (List.prefix_append _ _)
  · rename_i elsewhere
    rw [decide_eq_false elsewhere, toList_cellText]
    rfl

/-- Each line of the cells tells the number and the value of its cell, and whether it is the one
under the pointer. -/
theorem cell?_cellLine (pointer : Int) (index : Nat) (c : UInt8) :
    cell? (cellLine pointer index c).toList =
      some ⟨index + 1, c.toNat, decide (index = pointer)⟩ := by
  have label : ':' ∉ '[' :: (Numeral.text (index + 1)).toList ++ [']'] := by
    simp [Numeral.notMem_text]
  have value : ':' ∉ ' ' :: (Numeral.text c.toNat).toList := by
    simp [Numeral.notMem_text]
  rw [cell?, visible_cellLine, toList_cellText,
    List.splitOn_append_cons_self_of_not_mem label, List.splitOn_eq_singleton value,
    highlighted_cellLine]
  dsimp only
  rw [List.cons_append, List.drop_one, List.tail_cons, List.dropLast_concat, List.drop_one,
    List.tail_cons, Numeral.read?_text, Numeral.read?_text]
  rfl

theorem cellLine_ne_nil (pointer : Int) (index : Nat) (c : UInt8) :
    (cellLine pointer index c).toList ≠ [] := by
  intro empty
  have shown := visible_cellLine pointer index c
  rw [empty, toList_cellText] at shown
  cases shown

theorem newline_notMem_cellLine (pointer : Int) (index : Nat) (c : UInt8) :
    '\n' ∉ (cellLine pointer index c).toList := by
  have text := notMem_cellText (d := '\n') (by decide) index c
  unfold cellLine
  split
  · have colours : '\n' ∉ onBlue.toList ∧ '\n' ∉ black.toList ∧ '\n' ∉ plain.toList := by decide
    simp [highlighted, text, colours]
  · exact text

theorem cells_read (pointer : Int) (index : Nat) (cells : List UInt8) :
    ((cellLines pointer index cells).map String.toList).map cell? =
      cells.mapIdx fun k c =>
        some ⟨(k + index : Nat) + 1, c.toNat, decide (((k + index : Nat) : Int) = pointer)⟩ := by
  induction cells generalizing index with
  | nil => rfl
  | cons c cells ih =>
    rw [cellLines_cons, List.map_cons, List.map_cons, cell?_cellLine, ih, List.mapIdx_cons]
    simp only [Nat.zero_add, Nat.add_assoc, Nat.add_comm 1]

theorem mem_cellLines {pointer : Int} {cells : List UInt8} {line : List Char}
    (mem : line ∈ (cellLines pointer index cells).map String.toList) :
    line ≠ [] ∧ '\n' ∉ line := by
  induction cells generalizing index with
  | nil => cases mem
  | cons c cells ih =>
    rw [cellLines_cons, List.map_cons, List.mem_cons] at mem
    rcases mem with rfl | mem
    · exact ⟨cellLine_ne_nil pointer index c, newline_notMem_cellLine pointer index c⟩
    · exact ih mem

/-! ## The counts -/

theorem counts?_counts (f : Frame) : counts? f.counts.toList = some (f.steps, f.ip, f.pointer) := by
  have split : f.counts.toList = "step".toList ++ ' ' :: ((Numeral.text f.steps).toList ++ ' ' ::
      ([] ++ ' ' :: (("ip=".toList ++ (Numeral.zeroPadded 4 f.ip).toList) ++ ' ' ::
        ([] ++ ' ' :: ("ptr=".toList ++ (Numeral.text f.pointer).toList))))) := by
    simp [counts]
  have steps := words_word (Numeral.text_ne_nil f.steps) (Numeral.notMem_text (by decide))
  have ip : words ("ip=".toList ++ (Numeral.zeroPadded 4 f.ip).toList) =
      ["ip=".toList ++ (Numeral.zeroPadded 4 f.ip).toList] :=
    words_word (by simp) (by simp [Numeral.notMem_zeroPadded])
  have pointer : words ("ptr=".toList ++ (Numeral.text f.pointer).toList) =
      ["ptr=".toList ++ (Numeral.text f.pointer).toList] :=
    words_word (by simp) (by simp [Numeral.notMem_text])
  rw [counts?, split]
  simp only [words_append, steps, ip, pointer]
  change (Numeral.read? (Numeral.text f.steps).toList).bind _ = _
  rw [Numeral.read?_text, Option.bind_some]
  change (Numeral.read? (Numeral.zeroPadded 4 f.ip).toList).bind _ = _
  rw [Numeral.read?_zeroPadded, Option.bind_some]
  change (Numeral.read? (Numeral.text f.pointer).toList).map _ = _
  rw [Numeral.read?_text]
  rfl

theorem newline_notMem_counts (f : Frame) : '\n' ∉ f.counts.toList := by
  simp [counts, Numeral.notMem_text, Numeral.notMem_zeroPadded]

/-! ## The whole view -/

variable {output : List UInt8} {status : Option String}

/-- The text of a view. -/
def viewText (f : Frame) (cs : List Char) (output : List UInt8) (status : Option String) :
    String :=
  "\n".intercalate (f.view cs output status)

/-- The lines above the output. -/
def upper (f : Frame) (cs : List Char) : List String :=
  [f.code cs, "", "CELLS:", ""] ++ cellLines f.pointer 0 f.cells ++ [""]

/-- The text of a view: lines above the output and the output, the counts, and the status. -/
theorem toList_view (f : Frame) (cs : List Char) (output : List UInt8) (status : Option String) :
    (f.viewText cs output status).toList =
      ((f.upper cs ++ ["OUTPUT:", Utf8.decode output, ""]).map String.toList).flatMap
          (fun line => line ++ ['\n']) ++
        (f.counts.toList ++ (statusLine status).flatMap fun s => '\n' :: s.toList) := by
  have split : f.view cs output status =
      (f.upper cs ++ ["OUTPUT:", Utf8.decode output, ""]) ++ f.counts :: statusLine status := by
    simp [view, upper]
  have last : ("\n".intercalate (f.counts :: statusLine status)).toList =
      f.counts.toList ++ (statusLine status).flatMap fun s => '\n' :: s.toList := by
    unfold statusLine
    split
    · simp
    · split <;> simp
  rw [viewText, split, intercalate_append _ (List.cons_ne_nil _ _), last]

theorem map_upper (f : Frame) (cs : List Char) :
    (f.upper cs).map String.toList = (f.code cs).toList :: [] :: "CELLS:".toList :: [] ::
      ((cellLines f.pointer 0 f.cells).map String.toList ++ [[]]) := by
  simp [upper]

/-- The lines above the output are the first of a view, whatever the output is. -/
theorem splitOn_view (f : Frame) (whole : '\n' ∉ cs) (output : List UInt8)
    (status : Option String) :
    ∃ rest, (f.viewText cs output status).toList.splitOn '\n' =
      (f.upper cs).map String.toList ++ rest := by
  have lines : ∀ line ∈ (f.upper cs).map String.toList, '\n' ∉ line := by
    have code := notMem_code f whole (by decide)
    have cells : ∀ line ∈ (cellLines f.pointer 0 f.cells).map String.toList, '\n' ∉ line :=
      fun _ mem => (mem_cellLines mem).2
    rw [map_upper]
    simp only [List.forall_mem_cons, List.forall_mem_append]
    exact ⟨code, by decide, by decide, by decide, cells, by decide, nofun⟩
  rw [toList_view, List.map_append, List.flatMap_append, List.append_assoc, splitOn_lines lines]
  exact ⟨_, rfl⟩

theorem pieces_view (f : Frame) (symbols : '\n' ∉ cs ∧ '|' ∉ cs ∧ ' ' ∉ cs ∧ '\x1b' ∉ cs)
    (output : List UInt8) (status : Option String) :
    pieces (f.viewText cs output status) = decorated f.ip cs := by
  obtain ⟨rest, split⟩ := splitOn_view f symbols.1 output status
  rw [pieces, split, map_upper]
  exact piecesOf_code f symbols.2

theorem cellSection_view (f : Frame) (symbols : '\n' ∉ cs ∧ 'C' ∉ cs) (output : List UInt8)
    (status : Option String) :
    cellSection (f.viewText cs output status) =
      (cellLines f.pointer 0 f.cells).map String.toList := by
  obtain ⟨rest, split⟩ := splitOn_view f symbols.1 output status
  -- The program's line cannot be taken for the heading, which has a letter.
  have heading : (f.code cs).toList ≠ "CELLS:".toList := by
    intro same
    have mem : 'C' ∈ (f.code cs).toList := same ▸ List.mem_cons_self
    exact notMem_code f symbols.2 (by decide) mem
  have shown : ∀ line ∈ (cellLines f.pointer 0 f.cells).map String.toList,
      decide (line ≠ []) = true := fun _ mem => decide_eq_true (mem_cellLines mem).1
  rw [cellSection, split, map_upper, List.cons_append, List.dropWhile_cons,
    if_pos (decide_eq_true heading)]
  change ((_ ++ [[]] ++ rest).takeWhile _) = _
  rw [List.append_assoc, List.takeWhile_append_of_pos shown]
  exact List.append_nil _

/-- The counts of a view can be told if its status is known. -/
theorem counts_of_view
    (same : f.viewText cs output status = g.viewText cs output status) : f.counts = g.counts := by
  have text : ∀ h : Frame, ∃ front, (h.viewText cs output status).toList =
      front ++ '\n' :: h.counts.toList ++
        (statusLine status).flatMap fun s => '\n' :: s.toList := by
    intro h
    rw [toList_view, ← List.append_assoc, List.append_cons, List.map_append, List.flatMap_append]
    exact ⟨((h.upper cs ++ ["OUTPUT:", Utf8.decode output]).map String.toList).flatMap
      (fun line => line ++ ['\n']), by simp⟩
  obtain ⟨front, shown⟩ := text f
  obtain ⟨front', shown'⟩ := text g
  have above : front ++ '\n' :: f.counts.toList = front' ++ '\n' :: g.counts.toList :=
    List.append_cancel_right (shown.symm.trans ((congrArg String.toList same).trans shown'))
  -- The output may end in counts of its own, but it is the last line that counts.
  have lines := congrArg (List.splitOn '\n') above
  rw [List.splitOn_append_cons_self, List.splitOn_append_cons_self,
    List.splitOn_eq_singleton (newline_notMem_counts f),
    List.splitOn_eq_singleton (newline_notMem_counts g)] at lines
  have last := congrArg List.getLast? lines
  rw [List.getLast?_concat, List.getLast?_concat] at last
  exact String.toList_inj.mp (Option.some.inj last)

theorem cells_injective {pointer : Int} {cells cells' : List UInt8}
    (same : cellLines pointer index cells = cellLines pointer index cells') : cells = cells' := by
  induction cells generalizing index cells' with
  | nil =>
    cases cells' with
    | nil => rfl
    | cons c' cells' => cases same
  | cons c cells ih =>
    cases cells' with
    | nil => cases same
    | cons c' cells' =>
      rw [cellLines_cons, cellLines_cons] at same
      obtain ⟨line, lines⟩ := List.cons.inj same
      have shown := cell?_cellLine pointer index c
      rw [line, cell?_cellLine] at shown
      simp only [Option.some.injEq, ShownCell.mk.injEq, Int.natCast_inj] at shown
      rw [UInt8.toNat_inj.mp shown.2.1, ih lines]

/-- Views of the same program, output and status are those of the same machine. -/
theorem view_injective (symbols : '\n' ∉ cs ∧ 'C' ∉ cs)
    (same : f.viewText cs output status = g.viewText cs output status) : f = g := by
  obtain ⟨cells, pointer, ip, steps⟩ := f
  obtain ⟨cells', pointer', ip', steps'⟩ := g
  have counts := counts?_counts ⟨cells, pointer, ip, steps⟩
  rw [counts_of_view same, counts?_counts] at counts
  cases counts
  have lines := congrArg cellSection same
  rw [cellSection_view _ symbols, cellSection_view _ symbols] at lines
  have alike := (List.map_inj_right fun _ _ => String.toList_inj.mp).mp lines
  exact congrArg (Frame.mk · pointer ip steps) (cells_injective alike)

/-- Whatever a view of a program of known operations shows can be read from its text. -/
theorem render_told {p : Program} (known : ∀ i ∈ p.instructions, ∃ o : Op, i.opcode = .op o)
    (f : Frame) (output : List UInt8) (status : Option String) :
    ∃ text source, f.render p output status = .ok text ∧ p.sourceText = .ok source ∧
      source.length = p.length ∧ undecorated (pieces text) = source.toList ∧
      pieces text = decorated f.ip source.toList ∧
      (cellSection text).map cell? = (f.cells.mapIdx fun k c =>
        some ⟨(k : Int) + 1, c.toNat, decide ((k : Int) = f.pointer)⟩) ∧
      ∀ g : Frame, g.render p output status = .ok text → g = f := by
  obtain ⟨ops, opcodes⟩ := opcodes_known known
  have render : ∀ h : Frame, h.render p output status =
      .ok (h.viewText (ops.map Op.symbol) output status) := by
    intro h
    rw [Frame.render, Program.symbols, symbols_of_opcodes opcodes]
    rfl
  have newline : '\n' ∉ ops.map Op.symbol := Op.notMem_symbols (by decide) ops
  have letter : 'C' ∉ ops.map Op.symbol := Op.notMem_symbols (by decide) ops
  have marks : '|' ∉ ops.map Op.symbol ∧ ' ' ∉ ops.map Op.symbol ∧ '\x1b' ∉ ops.map Op.symbol :=
    ⟨Op.notMem_symbols (by decide) ops, Op.notMem_symbols (by decide) ops,
      Op.notMem_symbols (by decide) ops⟩
  have shown := pieces_view f ⟨newline, marks⟩ output status
  refine ⟨_, _, render f, Program.sourceText_of_opcodes opcodes, ?_, ?_, ?_, ?_, ?_⟩
  · rw [String.length_ofList, List.length_map, Program.length_eq,
      ← List.length_map Instruction.opcode, opcodes, List.length_map]
  · rw [shown, undecorated_decorated, String.toList_ofList]
  · rw [shown, String.toList_ofList]
  · rw [cellSection_view f ⟨newline, letter⟩]
    exact cells_read f.pointer 0 f.cells
  · intro g same
    exact view_injective ⟨newline, letter⟩ (Except.ok.inj ((render g).symm.trans same))

/-- A snapshot shows the tape of its machine, the index of the next instruction and the count. -/
theorem snapshot_shows {m : Machine} {fault : Option Fault} {s : Snapshot}
    (shot : m.snapshot fault = .ok s) :
    s.cells = m.config.tape.cells ∧ s.pointer = m.config.tape.pointer ∧ m.ip = some s.ip ∧
      s.steps = m.steps := by
  rw [Machine.snapshot, Machine.current] at shot
  cases ip : m.ip with
  | none =>
    rw [ip] at shot
    cases shot
  | some i =>
    rw [ip] at shot
    cases shot
    exact ⟨rfl, rfl, rfl, rfl⟩

/-- The view of a program of known operations shows a snapshot faithfully, whatever the output and
the status are, and even if these hold lines of a view. The first line is the program's source text
with just the instruction at the snapshot's index marked, or else the end; each cell has a line that
shows its number and its value, and just the one under the pointer is highlighted. Snapshots with
the same view agree in their cells, pointer, index and count, which are those of the machines that
they were taken of. -/
theorem view_is_faithful {p : Program} (known : ∀ i ∈ p.instructions, ∃ o : Op, i.opcode = .op o)
    (output : List UInt8) (status : Option String) :
    (∀ s : Snapshot, ∃ text source, (ofSnapshot s).render p output status = .ok text ∧
      p.sourceText = .ok source ∧ source.length = p.length ∧
      undecorated (pieces text) = source.toList ∧ pieces text = decorated s.ip source.toList ∧
      s.pointer < s.cells.length ∧
      ((cellSection text).map cell? = s.cells.mapIdx fun k c =>
        some ⟨(k : Int) + 1, c.toNat, decide (k = s.pointer)⟩) ∧
      ∀ s' : Snapshot, (ofSnapshot s').render p output status = .ok text →
        s'.cells = s.cells ∧ s'.pointer = s.pointer ∧ s'.ip = s.ip ∧ s'.steps = s.steps) ∧
    ∀ (m : Machine) (fault : Option Fault) (s : Snapshot), m.snapshot fault = .ok s →
      s.cells = m.config.tape.cells ∧ s.pointer = m.config.tape.pointer ∧ m.ip = some s.ip ∧
        s.steps = m.steps := by
  refine ⟨fun s => ?_, fun m fault s => snapshot_shows⟩
  obtain ⟨text, source, rendered, spelled, length, bare, shown, cells, alone⟩ :=
    render_told known (ofSnapshot s) output status
  refine ⟨text, source, rendered, spelled, length, bare, shown, s.tape.pointer_lt, ?_, ?_⟩
  · simp only [ofSnapshot, Int.natCast_inj] at cells
    exact cells
  · intro s' same
    obtain ⟨cells', pointer', ip', steps'⟩ := Frame.mk.inj (alone (ofSnapshot s') same)
    exact ⟨cells', Int.natCast_inj.mp pointer', ip', Int.natCast_inj.mp steps'⟩

/-- An output that looks like a view of its own, with other cells and other counts, below a new
machine whose program starts with a loop. -/
theorem imitation_told_apart :
    ∃ (p : Program) (m : Machine) (s : Snapshot) (text : String),
      Machine.create p [7, 255] 1 (.ofBytes []) .reliable = .ok m ∧ m.snapshot = .ok s ∧
      p.sourceText = .ok "[-]" ∧
      (ofSnapshot s).render p
        (Utf8.encode " |-| \n\nCELLS:\n\n[1]: 9\n\nOUTPUT:\n\n\nstep 3  ip=0002  ptr=0") none =
          .ok text ∧
      pieces text = [.marked ['['], .bare '-', .bare ']'] ∧
      (cellSection text).map cell? = [some ⟨1, 7, false⟩, some ⟨2, 255, true⟩] := by
  obtain ⟨p, m, s, known, created, shot, source', ip, cells', pointer⟩ :
      ∃ (p : Program) (m : Machine) (s : Snapshot),
        (∀ i ∈ p.instructions, ∃ o : Op, i.opcode = .op o) ∧
        Machine.create p [7, 255] 1 (.ofBytes []) .reliable = .ok m ∧ m.snapshot = .ok s ∧
        p.sourceText = .ok "[-]" ∧ s.ip = 0 ∧ s.cells = [7, 255] ∧ s.pointer = 1 := by
    refine ⟨Program.ofEntries [⟨⟨.op .loopStart, some 2⟩, none⟩, ⟨⟨.op .decrement, none⟩, none⟩,
      ⟨⟨.op .loopEnd, some 0⟩, none⟩], _, _, ?_, rfl, rfl, rfl, rfl, rfl, rfl⟩
    simp [Program.instructions, Program.ofEntries]
  obtain ⟨all, _⟩ := view_is_faithful known
    (Utf8.encode " |-| \n\nCELLS:\n\n[1]: 9\n\nOUTPUT:\n\n\nstep 3  ip=0002  ptr=0") none
  obtain ⟨text, source, rendered, same, _, _, shown, _, cells, _⟩ := all s
  cases source'.symm.trans same
  rw [ip] at shown
  rw [cells', pointer] at cells
  exact ⟨p, m, s, text, created, shot, source', rendered, shown, cells⟩

end TapeMachine.Frame
