import TapeMachine.Program.Op

/-! Reading text back: numerals, also filled up with zeros, the words between blanks, and the lines
of a text. -/

namespace TapeMachine

namespace Numeral

/-- The value of digits, if there are any and nothing else. -/
def natural? (ds : List Char) : Option Nat :=
  if ds ≠ [] ∧ ds.all Char.isDigit then some (Nat.ofDigitChars 10 ds 0) else none

/-- The value of digits with or without a sign. -/
def read? : List Char → Option Int
  | '-' :: ds => (natural? ds).map fun n : Nat => -(n : Int)
  | ds => (natural? ds).map fun n : Nat => (n : Int)

variable {c : Char}

theorem isDigit_of_mem_digits {n : Nat} (mem : c ∈ digits n) : c.isDigit :=
  Nat.isDigit_of_mem_toDigits (by decide) (by decide) mem

/-- Zeros in front of digits do not count. -/
theorem natural?_filled (fill n : Nat) :
    natural? (List.replicate fill '0' ++ digits n) = some n := by
  have nonempty : List.replicate fill '0' ++ digits n ≠ [] :=
    List.append_ne_nil_of_right_ne_nil _ Nat.toDigits_ne_nil
  have all : (List.replicate fill '0' ++ digits n).all Char.isDigit := by
    rw [List.all_append, List.all_eq_true.mpr fun c mem => isDigit_of_mem_digits mem, Bool.and_true,
      List.all_eq_true]
    intro c mem
    rw [List.eq_of_mem_replicate mem]
    rfl
  rw [natural?, if_pos ⟨nonempty, all⟩, Nat.ofDigitChars_append, Nat.ofDigitChars_replicate_zero,
    Nat.mul_zero, digits, Nat.ofDigitChars_ten_toDigits]

theorem read?_filled (i : Int) (fill : Nat) :
    read? (sign i ++ List.replicate fill '0' ++ digits i.natAbs) = some i := by
  have value := natural?_filled fill i.natAbs
  by_cases negative : i < 0
  · rw [sign, if_pos negative, List.append_assoc, List.singleton_append, read?, value,
      Option.map_some, Int.ofNat_natAbs_of_nonpos (Int.le_of_lt negative), Int.neg_neg]
  · rw [sign, if_neg negative, List.nil_append]
    have unsigned : ∀ ds, List.replicate fill '0' ++ digits i.natAbs ≠ '-' :: ds := by
      intro ds same
      have mem : '-' ∈ List.replicate fill '0' ++ digits i.natAbs := same ▸ List.mem_cons_self
      rcases List.mem_append.mp mem with mem | mem
      · exact absurd (List.eq_of_mem_replicate mem) (by decide)
      · exact absurd (isDigit_of_mem_digits mem) (by decide)
    rw [read?, value, Option.map_some, Int.natAbs_of_nonneg (Int.not_lt.mp negative)]
    exact unsigned

@[simp] theorem read?_text (i : Int) : read? (text i).toList = some i := by
  have value := read?_filled i 0
  rw [List.replicate_zero, List.append_nil] at value
  rw [text, String.toList_ofList, value]

@[simp] theorem read?_zeroPadded (width : Nat) (i : Int) :
    read? (zeroPadded width i).toList = some i := by
  rw [zeroPadded, String.toList_ofList, read?_filled]

/-- A numeral holds a sign and digits, and nothing else. -/
theorem mem_zeroPadded {width : Nat} {i : Int} (mem : c ∈ (zeroPadded width i).toList) :
    c = '-' ∨ c.isDigit := by
  rw [zeroPadded, String.toList_ofList, List.mem_append, List.mem_append] at mem
  rcases mem with (mem | mem) | mem
  · unfold sign at mem
    split at mem
    · exact .inl (List.mem_singleton.mp mem)
    · cases mem
  · rw [List.eq_of_mem_replicate mem]
    exact .inr rfl
  · exact .inr (isDigit_of_mem_digits mem)

theorem text_eq_zeroPadded (i : Int) : text i = zeroPadded 0 i := by
  simp [text, zeroPadded]

theorem notMem_zeroPadded (other : c ≠ '-' ∧ c.isDigit = false) {width : Nat} {i : Int} :
    c ∉ (zeroPadded width i).toList := by
  intro mem
  rcases mem_zeroPadded mem with sign | digit
  · exact other.1 sign
  · rw [other.2] at digit
    cases digit

theorem notMem_text (other : c ≠ '-' ∧ c.isDigit = false) {i : Int} : c ∉ (text i).toList :=
  text_eq_zeroPadded i ▸ notMem_zeroPadded other

theorem zeroPadded_ne_nil (width : Nat) (i : Int) : (zeroPadded width i).toList ≠ [] := by
  rw [zeroPadded, String.toList_ofList]
  exact List.append_ne_nil_of_right_ne_nil _ Nat.toDigits_ne_nil

theorem mem_padRight {width : Nat} {s : String} (mem : c ∈ (padRight width s).toList) :
    c ∈ s.toList ∨ c = ' ' := by
  rw [padRight, String.toList_append, String.toList_ofList] at mem
  exact (List.mem_append.mp mem).imp_right List.eq_of_mem_replicate

theorem text_ne_nil (i : Int) : (text i).toList ≠ [] :=
  text_eq_zeroPadded i ▸ zeroPadded_ne_nil 0 i

end Numeral

/-- What is the symbol of no operation is not among symbols. -/
theorem Op.notMem_symbols {c : Char} (other : ∀ o ∈ all, o.symbol ≠ c) (ops : List Op) :
    c ∉ ops.map symbol := by
  intro mem
  obtain ⟨o, _, same⟩ := List.mem_map.mp mem
  exact other o (mem_all o) same

/-- The words of a text: what stands between its blanks. -/
def words (cs : List Char) : List (List Char) := (cs.splitOn ' ').filter (· ≠ [])

theorem words_append (front back : List Char) :
    words (front ++ ' ' :: back) = words front ++ words back := by
  rw [words, List.splitOn_append_cons_self, List.filter_append, words, words]

theorem words_word {w : List Char} (nonempty : w ≠ []) (whole : ' ' ∉ w) : words w = [w] := by
  rw [words, List.splitOn_eq_singleton whole]
  simp [nonempty]

/-- Blanks hold no word. -/
theorem words_padRight (width : Nat) (s : String) :
    words (Numeral.padRight width s).toList = words s.toList := by
  rw [Numeral.padRight, String.toList_append, String.toList_ofList]
  generalize width - s.length = n
  induction n with
  | zero => rw [List.replicate_zero, List.append_nil]
  | succ n ih =>
    rw [List.replicate_succ', ← List.append_assoc, words_append, ih]
    exact List.append_nil _

/-- Lines that are ended, and what follows them, split at the ends. -/
theorem splitOn_lines {lines : List (List Char)} (whole : ∀ line ∈ lines, '\n' ∉ line)
    (rest : List Char) :
    ((lines.flatMap fun line => line ++ ['\n']) ++ rest).splitOn '\n' =
      lines ++ rest.splitOn '\n' := by
  induction lines with
  | nil => rfl
  | cons line lines ih =>
    have others := ih fun other mem => whole other (List.mem_cons_of_mem _ mem)
    rw [List.flatMap_cons, List.append_assoc, List.append_assoc, List.singleton_append,
      List.splitOn_append_cons_self_of_not_mem (whole line List.mem_cons_self), others]
    rfl

/-- Lines put before others are ended. -/
theorem intercalate_append (ls : List String) {ms : List String} (more : ms ≠ []) :
    ("\n".intercalate (ls ++ ms)).toList =
      (ls.map String.toList).flatMap (fun line => line ++ ['\n']) ++
        ("\n".intercalate ms).toList := by
  induction ls with
  | nil => rfl
  | cons l ls ih =>
    rw [String.toList_intercalate] at ih ⊢
    have others : (ls ++ ms).map String.toList ≠ [] := by simp [more]
    rw [List.cons_append, List.map_cons, List.intercalate_cons_of_ne_nil others, ih]
    simp

end TapeMachine
