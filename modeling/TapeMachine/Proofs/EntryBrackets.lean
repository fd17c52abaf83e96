import TapeMachine.Proofs.ShellSessions

/-! Where the shell takes an entry to be complete, and where the compiler finds its loops closed.
The shell counts brackets among the characters of each line, the compiler opens and closes loops
byte by byte. As no other character has a bracket among its bytes, both come to the same: an entry
is handed on with no loop left open at its end, so it can be refused for a loop end only. Whatever
comes of it, the next entry starts afresh. -/

namespace TapeMachine

/-- How many more loops start among bytes than end. -/
def excess (bytes : List UInt8) : Int :=
  bytes.count Op.loopStart.byte - bytes.count Op.loopEnd.byte

namespace Shell

/-- The bytes of an entry. -/
def entryBytes (lines : List (List Char)) : List UInt8 := Utf8.encode (entryText lines)

/-- The lines of the entry that a line goes to. -/
def entryWith (s : Shell) (line : List Char) : List (List Char) := s.lines.reverse ++ [line]

/-- No entry has been begun. -/
structure Idle (s : Shell) : Prop where
  lines : s.lines = []
  depth : s.depth = 0

/-- A shell at its prompt knows by how much the brackets of its entry are out of balance, and they
have been so behind each line. -/
structure Counting (s : Shell) : Prop where
  depth : s.depth = excess (entryBytes s.lines.reverse)
  begun : ∀ front, front ≠ [] → front <+: s.lines.reverse → 0 < excess (entryBytes front)

/-- The shell with an entry taken out of its hands. -/
def submitting (s : Shell) (c : Console) : Shell := { s.withConsole c with lines := [], depth := 0 }

/-- How the run of a program comes out, if it stops within so many turns. -/
inductive Runs (s : Shell) (fuel : Nat) (p : Program) : Except Fault Unit → Prop
  | untimed {f : Fault} (timed : s.options.timeout = .error f) : Runs s fuel p (.error f)
  | stopped {limit : Option Float} {o : Machine.RunOutcome} (timed : s.options.timeout = .ok limit)
      (ran : (s.machineFor p).run fuel { timeout := limit } = some o) : Runs s fuel p o.result

/-- All that can come of an entry. -/
inductive Comes (s : Shell) (lines : List (List Char)) (fuel : Nat) :
    Turn Shell (Option (Option Fault × Shell)) → Prop
  /-- The compiler refuses it for a loop end. -/
  | refused {before : List UInt8} {t : Shell} (first : FirstOverclosed (entryBytes lines) before)
      (compiled : compile (.text (entryText lines)) =
        .error (Compiler.unmatched (lineBehind before) (columnBehind before)))
      (idle : t.Idle) : Comes s lines fuel (.again t)
  /-- Its run completes, or stops with a report, as after an error or a cancellation. -/
  | reported {p : Program} {r : Except Fault Unit} {t : Shell}
      (compiled : compile (.text (entryText lines)) = .ok p) (ran : s.Runs fuel p r)
      (report : ∀ f, r = .error f → f.isReport = true) (idle : t.Idle) :
      Comes s lines fuel (.again t)
  /-- Its run stops with a fault that ends the shell. -/
  | escaped {p : Program} {f : Fault} {t : Shell}
      (compiled : compile (.text (entryText lines)) = .ok p) (ran : s.Runs fuel p (.error f))
      (other : f.isReport = false) (idle : t.Idle) : Comes s lines fuel (.done (some (some f, t)))
  /-- Its run takes longer. -/
  | lost {p : Program} (compiled : compile (.text (entryText lines)) = .ok p)
      (lost : ∀ r, ¬ s.Runs fuel p r) : Comes s lines fuel (.done none)

end Shell

/-! ## Brackets among characters and among bytes -/

/-- A character with an ASCII byte is that byte. -/
theorem Utf8.char_of_ascii {c : Char} {b : UInt8} (mem : b ∈ String.utf8EncodeChar c)
    (ascii : b.toNat < 128) : c.toNat = b.toNat := by
  have value : c.val.toNat = c.toNat := rfl
  have high : ∀ n, 128 ≤ n → n < 256 → b ≠ UInt8.ofNat n := by
    rintro n low small rfl
    rw [UInt8.toNat_ofNat', Nat.mod_eq_of_lt small] at ascii
    exact absurd ascii (Nat.not_lt.mpr low)
  simp only [String.utf8EncodeChar, value] at mem
  by_cases one : c.toNat ≤ 127
  · rw [if_pos one, List.mem_singleton] at mem
    rw [mem, UInt8.toNat_ofNat', Nat.mod_eq_of_lt (by omega)]
  · rw [if_neg one] at mem
    exfalso
    -- all bytes of a longer character are high
    split at mem
    · simp only [List.mem_cons, List.not_mem_nil, or_false] at mem
      rcases mem with first | second
      · exact high _ (by omega) (by omega) first
      · exact high _ (by omega) (by omega) second
    · split at mem
      · simp only [List.mem_cons, List.not_mem_nil, or_false] at mem
        rcases mem with first | second | third
        · exact high _ (by omega) (by omega) first
        · exact high _ (by omega) (by omega) second
        · exact high _ (by omega) (by omega) third
      · simp only [List.mem_cons, List.not_mem_nil, or_false] at mem
        rcases mem with first | second | third | fourth
        · exact high _ (by omega) (by omega) first
        · exact high _ (by omega) (by omega) second
        · exact high _ (by omega) (by omega) third
        · exact high _ (by omega) (by omega) fourth

/-- The byte of an operation is met just in the character of the operation. -/
theorem Op.count_char (o : Op) (c : Char) :
    (String.utf8EncodeChar c).count o.byte = if c = o.symbol then 1 else 0 := by
  by_cases same : c = o.symbol
  · rw [if_pos same, same, Op.encode_symbol, List.count_singleton_self]
  · rw [if_neg same, List.count_eq_zero]
    intro mem
    have value := Utf8.char_of_ascii mem (by cases o <;> decide)
    refine same (Char.ext (UInt32.toNat_inj.mp ?_))
    exact value.trans (by cases o <;> decide)

theorem Op.count_encode (o : Op) (cs : List Char) :
    (Utf8.encode (String.ofList cs)).count o.byte = cs.count o.symbol := by
  rw [Utf8.encode, String.toList_ofList]
  induction cs with
  | nil => rfl
  | cons c cs ih =>
    rw [List.flatMap_cons, List.count_append, ih, o.count_char, List.count_cons, Nat.add_comm]
    simp only [beq_iff_eq]

theorem excess_eq_balance (bytes : List UInt8) : excess bytes = balance (opsOf bytes) :=
  (balance_opsOf bytes).symm

/-- Bytes of which no front closes more loops than it opens, and that open no more than they close,
are balanced. -/
theorem balanced_of_fronts {bytes : List UInt8} (closed : excess bytes ≤ 0)
    (within : ∀ front, front <+: bytes → ¬ Overclosed front) : Balanced (opsOf bytes) := by
  have started : ∀ front, front <+: bytes → 0 ≤ balance (opsOf front) := by
    intro front stands
    exact Int.not_lt.mp fun negative => within front stands (overclosed_iff.mpr negative)
  constructor
  · rintro front ⟨rest, split⟩
    obtain ⟨before, after, rfl, spelled, _⟩ := List.filterMap_eq_append_iff.mp split.symm
    rw [← spelled]
    exact started before (List.prefix_append before after)
  · rw [excess_eq_balance] at closed
    exact Int.le_antisymm closed (started bytes List.prefix_rfl)

/-- The message for a loop end is none for a loop start. -/
theorem Compiler.unmatched_ne_unclosed (line column line' column' : Int) :
    unmatched line column ≠ unclosed line' column' := by
  intro same
  simp only [unmatched, unclosed, bracketFault, Fault.report.injEq, Report.mk.injEq,
    Option.some.injEq, true_and, and_true] at same
  have third := congrArg (fun text => text.toList[2]?) same
  simp at third

namespace Shell

variable {s t u : Shell} {c : Console} {line : List Char} {lines : List (List Char)} {fuel : Nat}
  {options : ShellOptions} {console : Console} {clock : Clock}

/-- The brackets of an entry are counted line by line. -/
theorem excess_entryBytes (lines : List (List Char)) :
    excess (entryBytes lines) = depthOf lines := by
  rw [excess, entryBytes, entryText, Op.count_encode, Op.count_encode]
  induction lines with
  | nil => rfl
  | cons line lines ih =>
    have starts : ['\n'].count Op.loopStart.symbol = 0 := by decide
    have ends : ['\n'].count Op.loopEnd.symbol = 0 := by decide
    have counted :
        surplus line = line.count Op.loopStart.symbol - line.count Op.loopEnd.symbol := rfl
    have total : depthOf (line :: lines) = surplus line + depthOf lines := by
      rw [depthOf, List.map_cons, List.sum_cons]
      rfl
    simp only [List.flatMap_cons, List.count_append, starts, ends]
    omega

theorem excess_entryWith (counting : s.Counting) (line : List Char) :
    excess (entryBytes (s.entryWith line)) = s.depth + surplus line := by
  rw [entryWith, excess_entryBytes, depthOf_concat, counting.depth, excess_entryBytes]

theorem Idle.counting (h : s.Idle) : s.Counting := by
  refine ⟨?_, ?_⟩
  · rw [h.depth, h.lines]
    rfl
  · intro front some_lines within
    rw [h.lines] at within
    exact absurd (List.prefix_nil.mp within) some_lines

theorem Counting.idle (h : s.Counting) (fresh : s.lines = []) : s.Idle := by
  refine ⟨fresh, ?_⟩
  rw [h.depth, fresh]
  rfl

theorem Idle.of_hushed (h : s.Idle) (same : t.hushed = s.hushed) : t.Idle := by
  have depth : t.depth = s.depth := congrArg (fun s => s.depth) same
  exact ⟨(lines_of_hushed same).trans h.lines, depth.trans h.depth⟩

/-! ## What comes of an entry -/

/-- The compiler takes an entry unless some front of it closes more loops than it opens, and names
the bracket with which the first one does. -/
theorem compile_entry (closed : excess (entryBytes lines) ≤ 0) :
    (∃ p, compile (.text (entryText lines)) = .ok p) ∧
      (∀ front, front <+: entryBytes lines → ¬ Overclosed front) ∨
    ∃ before, FirstOverclosed (entryBytes lines) before ∧
      compile (.text (entryText lines)) =
        .error (Compiler.unmatched (lineBehind before) (columnBehind before)) := by
  have read : compile (.text (entryText lines)) = compile (.bytes (entryBytes lines)) :=
    compile_eq_bytes _
  rw [read]
  rcases compile_bytes (entryBytes lines) with ⟨p, b, compiled, spelled, _⟩ | ⟨_, unbalanced⟩
  · left
    refine ⟨⟨p, compiled⟩, ?_⟩
    intro front stands excess
    have reaches : opsOf front <+: b.ops := by
      rw [spelled]
      exact opsOf_prefix stands
    have started := b.balanced_ops.started (opsOf front) reaches
    exact absurd (overclosed_iff.mp excess) (Int.not_lt.mpr started)
  · right
    rcases compile_names_bracket unbalanced with named | ⟨within, _⟩
    · exact named
    · exact absurd (balanced_of_fronts closed within) unbalanced

/-- After a report, and where nothing went wrong, the shell goes on as it was. -/
theorem Idle.settle_again (h : s.Idle) {r : Except Fault Unit}
    (report : ∀ f, r = .error f → f.isReport = true) (output : List UInt8) :
    ∃ t, s.settle r output = .again t ∧ t.Idle := by
  obtain ⟨t, settled, same⟩ := @Shell.settle_again s r report output
  exact ⟨t, settled, h.of_hushed same⟩

/-- A fault that is no report ends the shell. -/
theorem Idle.settle_done (h : s.Idle) {f : Fault} (other : f.isReport = false)
    (output : List UInt8) :
    ∃ t, s.settle (.error f) output = .done (some (some f, t)) ∧ t.Idle := by
  refine ⟨s.showOutput output, ?_, h.of_hushed (hushed_showOutput s output)⟩
  rw [settle, other]
  rfl

/-- What comes of an entry that compiles, once its run has stopped. -/
theorem Comes.settle {p : Program} {r : Except Fault Unit} {v : Shell}
    (compiled : compile (.text (entryText lines)) = .ok p) (ran : s.Runs fuel p r) (idle : v.Idle)
    (output : List UInt8) : s.Comes lines fuel (v.settle r output) := by
  cases r with
  | ok =>
    obtain ⟨t, settled, idle⟩ := idle.settle_again (r := .ok ()) nofun output
    rw [settled]
    exact .reported compiled ran nofun idle
  | error f =>
    cases report : f.isReport with
    | true =>
      have only : ∀ g, (Except.error f : Except Fault Unit) = .error g → g.isReport = true := by
        rintro g ⟨⟩
        exact report
      obtain ⟨t, settled, idle⟩ := idle.settle_again only output
      rw [settled]
      exact .reported compiled ran only idle
    | false =>
      obtain ⟨t, settled, idle⟩ := idle.settle_done report output
      rw [settled]
      exact .escaped compiled ran report idle

theorem Idle.submit (idle : s.Idle) (closed : excess (entryBytes lines) ≤ 0) (fuel : Nat) :
    s.Comes lines fuel (s.submit fuel (entryText lines)) := by
  unfold Shell.submit
  rcases compile_entry closed with ⟨⟨p, compiled⟩, _⟩ | ⟨before, first, refused⟩
  · rw [compiled]
    dsimp only
    cases timed : s.options.timeout with
    | error f => exact .settle compiled (.untimed timed) idle []
    | ok limit =>
      dsimp only
      cases ran : (s.machineFor p).run fuel { timeout := limit } with
      | none =>
        refine .lost compiled ?_
        intro r runs
        cases runs with
        | untimed timed' => cases timed.symm.trans timed'
        | stopped timed' ran' =>
          cases timed.symm.trans timed'
          cases ran.symm.trans ran'
      | some o =>
        have idle : (s.retrieve o.machine).Idle := ⟨idle.lines, idle.depth⟩
        exact .settle compiled (.stopped timed ran) idle _
  · rw [refused]
    dsimp only
    have report : ∀ f,
        (Except.error (Compiler.unmatched (lineBehind before) (columnBehind before)) :
          Except Fault Unit) = .error f → f.isReport = true := by
      rintro f ⟨⟩
      rfl
    obtain ⟨t, settled, idle⟩ := idle.settle_again report []
    rw [settled]
    exact .refused first refused idle

/-! ## A turn -/

/-- A command or a blank, which there is only where no entry has been begun. -/
theorem turn_word (asked : t.console.ask t.prompt = (.line line, c)) (idle : t.Idle)
    (word : Word.ofLine line ≠ .code) (fuel : Nat) :
    (∃ u, t.turn fuel = .again u ∧ u.Idle) ∨
      t.turn fuel = .done (some (none, t.withConsole c)) := by
  have empty : (t.withConsole c).lines.isEmpty = true := List.isEmpty_iff.mpr idle.lines
  have same : ∀ u : Shell, u.lines = t.lines → u.depth = t.depth → u.Idle := by
    intro u lines depth
    exact ⟨lines.trans idle.lines, depth.trans idle.depth⟩
  simp only [Shell.turn, asked, empty, if_true]
  cases meaning : Word.ofLine line with
  | quit => exact .inr rfl
  | tape => exact .inl ⟨_, rfl, same _ rfl rfl⟩
  | reset => exact .inl ⟨_, rfl, same _ rfl rfl⟩
  | blank => exact .inl ⟨_, rfl, same _ rfl rfl⟩
  | code => exact absurd meaning word

/-- A line of an entry: it leaves a bracket open, or the entry is submitted. -/
theorem turn_code (asked : t.console.ask t.prompt = (.line line, c))
    (code : t.lines = [] → Word.ofLine line = .code) (fuel : Nat) :
    t.turn fuel =
      if 0 < t.depth + surplus line then
        .again { t.withConsole c with lines := line :: t.lines, depth := t.depth + surplus line }
      else (t.submitting c).submit fuel (entryText (t.entryWith line)) := by
  have joined : (line :: t.lines).reverse = t.entryWith line := List.reverse_cons
  rw [← joined]
  simp only [Shell.turn, asked]
  by_cases fresh : t.lines = []
  · have empty : (t.withConsole c).lines.isEmpty = true := List.isEmpty_iff.mpr fresh
    rw [if_pos empty, code fresh]
    rfl
  · have filled : ¬ (t.withConsole c).lines.isEmpty = true :=
      fun empty => fresh (List.isEmpty_iff.mp empty)
    rw [if_neg filled]
    rfl

/-- Without a line the shell ends, and its unfinished entry is dropped. -/
theorem turn_end {answer : LineAnswer} (asked : t.console.ask t.prompt = (answer, c))
    (none : ∀ line, answer ≠ .line line) (fuel : Nat) :
    t.turn fuel = .done (some (Option.none, (t.withConsole c).put "\n")) := by
  cases answer with
  | line line => exact absurd rfl (none line)
  | ended | interrupted => simp only [Shell.turn, asked]

/-- A line that leaves a bracket open is added to the entry. -/
theorem Counting.join (h : t.Counting) (c : Console) {line : List Char}
    (opened : 0 < excess (entryBytes (t.entryWith line))) :
    Counting { t.withConsole c with
      lines := line :: t.lines, depth := excess (entryBytes (t.entryWith line)) } := by
  have joined : (line :: t.lines).reverse = t.entryWith line := List.reverse_cons
  refine ⟨?_, ?_⟩
  · exact congrArg (fun lines => excess (entryBytes lines)) joined.symm
  · intro front some_lines within
    change front <+: (line :: t.lines).reverse at within
    rw [joined] at within
    rcases List.prefix_concat_iff.mp within with whole | within
    · rw [whole]
      exact opened
    · exact h.begun front some_lines within

/-- The shell counts on from prompt to prompt. -/
theorem Counting.turn (h : t.Counting) (turned : t.turn fuel = .again u) : u.Counting := by
  cases asked : t.console.ask t.prompt with
  | mk answer c =>
    cases answer with
    | ended =>
      rw [turn_end asked nofun] at turned
      cases turned
    | interrupted =>
      rw [turn_end asked nofun] at turned
      cases turned
    | line line =>
      by_cases code : t.lines = [] → Word.ofLine line = .code
      · rw [turn_code asked code, ← excess_entryWith h] at turned
        by_cases opened : 0 < excess (entryBytes (t.entryWith line))
        · rw [if_pos opened] at turned
          cases turned
          exact h.join c opened
        · rw [if_neg opened] at turned
          have idle : (t.submitting c).Idle := ⟨rfl, rfl⟩
          have comes := idle.submit (Int.not_lt.mp opened) fuel
          rw [turned] at comes
          cases comes with
          | refused _ _ idle => exact idle.counting
          | reported _ _ _ idle => exact idle.counting
      · have fresh : t.lines = [] := Classical.byContradiction fun other => code (absurd · other)
        have word : Word.ofLine line ≠ .code := fun same => code fun _ => same
        rcases turn_word asked (h.idle fresh) word fuel with ⟨v, again, idle⟩ | done
        · cases turned.symm.trans again
          exact idle.counting
        · cases turned.symm.trans done

theorem Reaches.counting (reaches : (create options console clock).Reaches t) : t.Counting := by
  induction reaches with
  | start => exact Idle.counting ⟨rfl, rfl⟩
  | turn _ turned ih => exact ih.turn turned

/-- At every prompt of a session the shell knows by how much the brackets among the bytes of its
unfinished entry are out of balance, and they have been so behind each line of it. A line that
belongs to an entry is added to it as long as some bracket of the whole is open; with the first line
behind which none is, the entry is handed to the compiler, and the shell is left without one,
whatever comes of it. The compiler takes the entry just if no front of it closes more loops than it
opens, and can refuse it for a loop end only. A command or a blank leaves the shell without an entry
as it was, and where there is no line, it ends. -/
theorem entries_end_in_balance (reaches : (create options console clock).Reaches t) :
    t.Counting ∧
    (∀ line c, t.console.ask t.prompt = (.line line, c) →
      (t.lines = [] → Word.ofLine line = .code) →
      t.depth + surplus line = excess (entryBytes (t.entryWith line)) ∧
      (0 < excess (entryBytes (t.entryWith line)) → ∀ fuel,
        t.turn fuel = .again { t.withConsole c with
          lines := line :: t.lines, depth := excess (entryBytes (t.entryWith line)) }) ∧
      (excess (entryBytes (t.entryWith line)) ≤ 0 →
        (∀ fuel,
          t.turn fuel = (t.submitting c).submit fuel (entryText (t.entryWith line)) ∧
          (t.submitting c).Comes (t.entryWith line) fuel (t.turn fuel)) ∧
        ((∃ p, compile (.text (entryText (t.entryWith line))) = .ok p) ↔
          ∀ front, front <+: entryBytes (t.entryWith line) → ¬ Overclosed front) ∧
        ∀ f, compile (.text (entryText (t.entryWith line))) = .error f →
          (∃ before, FirstOverclosed (entryBytes (t.entryWith line)) before ∧
            f = Compiler.unmatched (lineBehind before) (columnBehind before)) ∧
          ∀ line column, f ≠ Compiler.unclosed line column)) ∧
    (∀ line c, t.console.ask t.prompt = (.line line, c) → t.lines = [] →
      Word.ofLine line ≠ .code → ∀ fuel,
        (∃ u, t.turn fuel = .again u ∧ u.Idle) ∨
          t.turn fuel = .done (some (none, t.withConsole c))) ∧
    ∀ answer c, t.console.ask t.prompt = (answer, c) → (∀ line, answer ≠ .line line) → ∀ fuel,
      t.turn fuel = .done (some (none, (t.withConsole c).put "\n")) := by
  have counting := reaches.counting
  refine ⟨counting, ?_, ?_, ?_⟩
  · intro line c asked code
    have depth := (excess_entryWith counting line).symm
    refine ⟨depth, ?_, ?_⟩
    · intro opened fuel
      rw [turn_code asked code, depth, if_pos opened]
    · intro closed
      refine ⟨?_, ?_, ?_⟩
      · intro fuel
        have turned : t.turn fuel =
            (t.submitting c).submit fuel (entryText (t.entryWith line)) := by
          rw [turn_code asked code, depth, if_neg (Int.not_lt.mpr closed)]
        have idle : (t.submitting c).Idle := ⟨rfl, rfl⟩
        refine ⟨turned, ?_⟩
        rw [turned]
        exact idle.submit closed fuel
      · rcases compile_entry closed with ⟨compiled, within⟩ | ⟨before, first, refused⟩
        · exact iff_of_true compiled within
        · refine iff_of_false ?_ fun within => within _ first.reached first.excess
          rintro ⟨p, compiled⟩
          cases compiled.symm.trans refused
      · intro f refused
        rcases compile_entry closed with ⟨⟨p, compiled⟩, _⟩ | ⟨before, first, refused'⟩
        · cases compiled.symm.trans refused
        · cases refused.symm.trans refused'
          exact ⟨⟨before, first, rfl⟩, fun _ _ => Compiler.unmatched_ne_unclosed _ _ _ _⟩
  · intro line c asked fresh word fuel
    exact turn_word asked (counting.idle fresh) word fuel
  · intro answer c asked none fuel
    exact turn_end asked none fuel

/-- An entry of two lines, with a letter that is two bytes long, which closes a loop too many. -/
theorem second_line_closes_too_much :
    ∃ t c u f, (create {} { pending := "[é\n>]]\n".toList } {}).Reaches t ∧
      t.lines = [['[', 'é']] ∧ t.depth = 1 ∧ t.console.ask t.prompt = (.line ['>', ']', ']'], c) ∧
      entryBytes (t.entryWith ['>', ']', ']']) =
        [0x5B, 0xC3, 0xA9, 0x0A, 0x3E, 0x5D, 0x5D, 0x0A] ∧
      t.turn 0 = .again u ∧ u.Idle ∧
      compile (.text (entryText (t.entryWith ['>', ']', ']']))) = .error f ∧
      ∃ before, FirstOverclosed (entryBytes (t.entryWith ['>', ']', ']'])) before ∧
        f = Compiler.unmatched (lineBehind before) (columnBehind before) := by
  obtain ⟨start, t, c, u, f, begun, turned, lines, depth, asked, bytes, again, refused⟩ :
      ∃ start t c u f, start = create {} { pending := "[é\n>]]\n".toList } {} ∧
        start.turn 0 = .again t ∧ t.lines = [['[', 'é']] ∧ t.depth = 1 ∧
        t.console.ask t.prompt = (.line ['>', ']', ']'], c) ∧
        entryBytes (t.entryWith ['>', ']', ']']) =
          [0x5B, 0xC3, 0xA9, 0x0A, 0x3E, 0x5D, 0x5D, 0x0A] ∧
        t.turn 0 = .again u ∧
        compile (.text (entryText (t.entryWith ['>', ']', ']']))) = .error f :=
    ⟨_, _, _, _, _, rfl, rfl, rfl, rfl, rfl, rfl, rfl, rfl⟩
  have reaches : start.Reaches t := .turn .start turned
  rw [begun] at reaches
  obtain ⟨_, entries, _⟩ := entries_end_in_balance reaches
  obtain ⟨_, _, complete⟩ := entries _ c asked (by rw [lines]; nofun)
  obtain ⟨comes, _, named⟩ := complete (by rw [bytes]; decide)
  obtain ⟨first, _⟩ := named f refused
  have idle : u.Idle := by
    have outcome := (comes 0).2
    rw [again] at outcome
    cases outcome with
    | refused _ _ idle => exact idle
    | reported _ _ _ idle => exact idle
  exact ⟨t, c, u, f, reaches, lines, depth, asked, bytes, again, idle, refused, first⟩

end Shell
end TapeMachine
