import TapeMachine.Proofs.Places

/-! Where a scanner stands, whatever was asked of it. How far it has come decides the rest: the
current byte is the one at that position, and line and column are told from the line feeds in front
of it. Hence it is known from there which tokens follow, and that the end comes just once. -/

namespace TapeMachine

/-- The position of the last line feed in front of a position. -/
def lastFeed? (data : List UInt8) (pos : Nat) : Option Nat :=
  ((List.range pos).filter fun k => data[k]? = some 0x0A).getLast?

/-- The column of a position, also behind the end: how far it lies behind the last line feed in
front of it, or else behind the start, where the first column is. -/
def columnAt (data : List UInt8) (pos : Nat) : Nat :=
  match lastFeed? data pos with
  | some k => pos - k
  | none => pos + 1

/-- A position of data with its line and column. -/
def Place.amid (data : List UInt8) (pos : Nat) : Place :=
  ⟨pos, lineBehind (data.take pos), columnAt data pos⟩

/-- The token of an operation that stands at a position. -/
def Token.at? (data : List UInt8) (pos : Nat) : Option Token :=
  data[pos]?.bind fun b => (Op.ofByte? b).map fun o => .ofOp o (.amid data pos)

namespace Scanner

/-- What can be asked of a scanner. -/
inductive Request where
  | advance | skipCommentary | next | tokens
  deriving DecidableEq, Repr

/-- The scanner once a request is met. -/
def obey (s : Scanner) : Request → Scanner
  | .advance => s.advance
  | .skipCommentary => s.skipCommentary
  | .next => s.next.2
  | .tokens => s.finish

/-- The scanner that stands at a position of data, or behind its end. -/
def amid (data : List UInt8) (pos : Nat) : Scanner := ⟨data.drop pos, .amid data pos⟩

/-- Takes tokens one by one until the end comes out. -/
inductive Drains : Scanner → List Token → Scanner → Prop
  | last {s : Scanner} (ended : s.next.1.op = none) : Drains s [s.next.1] s.next.2
  | more {s s' : Scanner} {ts : List Token} (met : s.next.1.op ≠ none)
      (further : Drains s.next.2 ts s') : Drains s (s.next.1 :: ts) s'

variable {data : List UInt8} {pos k : Nat} {b : UInt8}

/-! ## Counting lines and columns -/

theorem lastFeed?_succ (data : List UInt8) (pos : Nat) :
    lastFeed? data (pos + 1) = if data[pos]? = some 0x0A then some pos else lastFeed? data pos := by
  rw [lastFeed?, List.range_succ, List.filter_append]
  by_cases feed : data[pos]? = some 0x0A
  · simp [feed]
  · simp [feed, lastFeed?]

theorem lastFeed?_lt (last : lastFeed? data pos = some k) : k < pos := by
  have mem := List.mem_of_getLast? last
  exact List.mem_range.mp (List.mem_filter.mp mem).1

theorem columnAt_succ (data : List UInt8) (pos : Nat) :
    columnAt data (pos + 1) = if data[pos]? = some 0x0A then 1 else columnAt data pos + 1 := by
  rw [columnAt, lastFeed?_succ]
  by_cases feed : data[pos]? = some 0x0A
  · simp [feed]
  · rw [if_neg feed, if_neg feed, columnAt]
    cases last : lastFeed? data pos with
    | none => rfl
    | some k =>
      have before := lastFeed?_lt last
      dsimp only
      omega

theorem lineBehind_succ (data : List UInt8) (pos : Nat) :
    lineBehind (data.take (pos + 1)) =
      if data[pos]? = some 0x0A then lineBehind (data.take pos) + 1
      else lineBehind (data.take pos) := by
  rw [lineBehind, lineBehind, List.take_add_one, List.count_append]
  cases data[pos]? with
  | none => simp
  | some b =>
    by_cases feed : b = 0x0A
    · simp [feed]
      omega
    · simp [feed]

/-- The place behind a byte is the next one. -/
theorem past_amid (here : data[pos]? = some b) :
    (Place.amid data pos).past b = .amid data (pos + 1) := by
  rw [Place.past, Place.amid, Place.amid, columnAt_succ, lineBehind_succ, here]
  by_cases feed : b = 0x0A
  · simp [feed]
  · simp [feed]

theorem pastEnd_amid (ended : data[pos]? = none) :
    (Place.amid data pos).pastEnd = .amid data (pos + 1) := by
  rw [Place.pastEnd, Place.amid, Place.amid, columnAt_succ, lineBehind_succ, ended]
  simp

/-! ## Standing at a position -/

theorem amid_of_some (here : data[pos]? = some b) :
    amid data pos = ⟨b :: data.drop (pos + 1), .amid data pos⟩ := by
  obtain ⟨inside, rfl⟩ := List.getElem?_eq_some_iff.mp here
  rw [amid, List.drop_eq_getElem_cons inside]

theorem amid_of_none (ended : data[pos]? = none) : amid data pos = ⟨[], .amid data pos⟩ := by
  rw [amid, List.drop_eq_nil_of_le (List.getElem?_eq_none_iff.mp ended)]

theorem ofBytes_amid (data : List UInt8) : ofBytes data = amid data 0 := by
  rw [amid, List.drop_zero]
  rfl

theorem current?_amid (data : List UInt8) (pos : Nat) : (amid data pos).current? = data[pos]? := by
  rw [current?, amid, List.head?_drop]

theorem advance_amid (data : List UInt8) (pos : Nat) :
    (amid data pos).advance = amid data (pos + 1) := by
  cases here : data[pos]? with
  | none =>
    have behind : data[pos + 1]? = none := by
      rw [List.getElem?_eq_none_iff] at here ⊢
      omega
    rw [amid_of_none here, amid_of_none behind, ← pastEnd_amid here]
    rfl
  | some b =>
    rw [amid_of_some here, amid, ← past_amid here]
    rfl

/-- What holds at the end, and at a position if at the next one, holds at all positions. -/
theorem from_end (data : List UInt8) {motive : Nat → Prop}
    (ended : ∀ pos, data[pos]? = none → motive pos)
    (idle : ∀ pos b, data[pos]? = some b → Op.ofByte? b = none → motive (pos + 1) → motive pos)
    (met : ∀ pos b o, data[pos]? = some b → Op.ofByte? b = some o → motive (pos + 1) → motive pos)
    (pos : Nat) : motive pos := by
  generalize left : data.length - pos = n
  induction n generalizing pos with
  | zero => exact ended pos (List.getElem?_eq_none_iff.mpr (by omega))
  | succ n ih =>
    have next := ih (pos + 1) (by omega)
    cases here : data[pos]? with
    | none => exact ended pos here
    | some b =>
      cases op : Op.ofByte? b with
      | none => exact idle pos b here op next
      | some o => exact met pos b o here op next

/-- Behind commentary the scanner stands at a position again. -/
theorem skipCommentary_amid (data : List UInt8) (pos : Nat) :
    ∃ pos', (amid data pos).skipCommentary = amid data pos' := by
  induction pos using from_end data with
  | ended pos here =>
    refine ⟨pos, ?_⟩
    rw [amid_of_none here]
    rfl
  | idle pos b here idle ih =>
    obtain ⟨pos', skipped⟩ := ih
    refine ⟨pos', ?_⟩
    rw [← skipped, amid_of_some here, amid, ← past_amid here, skipCommentary, skipFrom, idle]
    rfl
  | met pos b o here met =>
    refine ⟨pos, ?_⟩
    rw [amid_of_some here, skipCommentary, skipFrom, met]

/-- The end is not passed, an operation is. -/
theorem take_amid (data : List UInt8) (pos : Nat) :
    ∃ pos', (amid data pos).take.2 = amid data pos' := by
  cases here : data[pos]? with
  | none =>
    refine ⟨pos, ?_⟩
    rw [amid_of_none here]
    rfl
  | some b =>
    refine ⟨pos + 1, ?_⟩
    rw [← advance_amid, amid_of_some here]
    rfl

theorem finish_amid (data : List UInt8) (pos : Nat) :
    (amid data pos).finish = amid data (max pos data.length) := by
  have passed (pos : Nat) (b : UInt8) (here : data[pos]? = some b)
      (ih : (amid data (pos + 1)).finish = amid data (max (pos + 1) data.length)) :
      (amid data pos).finish = amid data (max pos data.length) := by
    obtain ⟨inside, _⟩ := List.getElem?_eq_some_iff.mp here
    rw [show max pos data.length = max (pos + 1) data.length by omega, ← ih, amid_of_some here,
      finish, List.foldl_cons, past_amid here]
    rfl
  induction pos using from_end data with
  | ended pos here =>
    rw [Nat.max_eq_left (List.getElem?_eq_none_iff.mp here), amid_of_none here]
    rfl
  | idle pos b here idle ih => exact passed pos b here ih
  | met pos b o here met ih => exact passed pos b here ih

/-- Whatever is asked of it, a scanner stands at some position. -/
theorem obey_amid (data : List UInt8) (pos : Nat) (r : Request) :
    ∃ pos', (amid data pos).obey r = amid data pos' := by
  cases r with
  | advance => exact ⟨pos + 1, advance_amid data pos⟩
  | skipCommentary => exact skipCommentary_amid data pos
  | next =>
    obtain ⟨pos', skipped⟩ := skipCommentary_amid data pos
    obtain ⟨pos'', taken⟩ := take_amid data pos'
    refine ⟨pos'', ?_⟩
    rw [← taken, ← skipped]
    rfl
  | tokens => exact ⟨_, finish_amid data pos⟩

theorem obeyAll_amid (data : List UInt8) (pos : Nat) (requests : List Request) :
    ∃ pos', requests.foldl obey (amid data pos) = amid data pos' := by
  induction requests generalizing pos with
  | nil => exact ⟨pos, rfl⟩
  | cons r requests ih =>
    obtain ⟨pos', met⟩ := obey_amid data pos r
    rw [List.foldl_cons, met]
    exact ih pos'

/-! ## The tokens from a position on -/

/-- A token stands just where the byte of an operation does. -/
theorem at?_eq_some_iff {t : Token} :
    Token.at? data pos = some t ↔
      ∃ o : Op, data[pos]? = some o.byte ∧
        t = ⟨some o, lineBehind (data.take pos), columnAt data pos⟩ := by
  rw [Token.at?, Option.bind_eq_some_iff]
  constructor
  · rintro ⟨b, here, met⟩
    obtain ⟨o, found, rfl⟩ := Option.map_eq_some_iff.mp met
    exact ⟨o, here.trans (congrArg some (Op.byte_of_ofByte? found).symm), rfl⟩
  · rintro ⟨o, here, rfl⟩
    refine ⟨o.byte, here, ?_⟩
    rw [Op.ofByte?_byte]
    rfl

theorem tokens_amid (data : List UInt8) (pos : Nat) :
    (amid data pos).tokens =
      (List.range' pos (data.length - pos)).filterMap (Token.at? data) ++
        [.theEnd (.amid data (max pos data.length))] := by
  have split (pos : Nat) (b : UInt8) (here : data[pos]? = some b) :
      List.range' pos (data.length - pos) =
        pos :: List.range' (pos + 1) (data.length - (pos + 1)) ∧
      max pos data.length = max (pos + 1) data.length := by
    obtain ⟨inside, _⟩ := List.getElem?_eq_some_iff.mp here
    obtain ⟨n, left⟩ : ∃ n, data.length - pos = n + 1 := ⟨data.length - pos - 1, by omega⟩
    rw [left, List.range'_succ, show data.length - (pos + 1) = n by omega]
    exact ⟨rfl, by omega⟩
  induction pos using from_end data with
  | ended pos here =>
    have ended := List.getElem?_eq_none_iff.mp here
    rw [amid_of_none here, Nat.max_eq_left ended, Nat.sub_eq_zero_of_le ended]
    rfl
  | idle pos b here idle ih =>
    obtain ⟨positions, stop⟩ := split pos b here
    have none_here : Token.at? data pos = none := by
      rw [Token.at?, here, Option.bind_some, idle]
      rfl
    rw [positions, stop, List.filterMap_cons_none none_here, ← ih, amid_of_some here, tokens,
      tokensFrom, idle, past_amid here]
    rfl
  | met pos b o here met ih =>
    obtain ⟨positions, stop⟩ := split pos b here
    have token_here : Token.at? data pos = some (.ofOp o (.amid data pos)) := by
      rw [Token.at?, here, Option.bind_some, met]
      rfl
    rw [positions, stop, List.filterMap_cons_some token_here, List.cons_append, ← ih,
      amid_of_some here, tokens, tokensFrom, met, past_amid here]
    rfl

/-! ## Taking tokens until the end -/

variable {s s' s'' : Scanner} {ts ts' : List Token}

/-- Only the next token and what is left behind it matter. -/
theorem Drains.of_next (same : s.next = s''.next) (h : s''.Drains ts s') : s.Drains ts s' := by
  cases h with
  | last ended =>
    rw [← same] at ended ⊢
    exact .last ended
  | more met further =>
    rw [← same] at met further ⊢
    exact .more met further

/-- It ends, with all the tokens. -/
theorem drains_tokens (s : Scanner) : s.Drains s.tokens s.finish := by
  obtain ⟨rest, p⟩ := s
  induction rest generalizing p with
  | nil => exact .last rfl
  | cons b rest ih =>
    have further := ih (p.past b)
    cases op : Op.ofByte? b with
    | none =>
      have same : next ⟨b :: rest, p⟩ = next ⟨rest, p.past b⟩ := by
        rw [next, skipCommentary, skipFrom, op]
        rfl
      have tokens : tokens ⟨b :: rest, p⟩ = tokens ⟨rest, p.past b⟩ := by
        rw [Scanner.tokens, tokensFrom, op]
        rfl
      rw [tokens]
      exact further.of_next same
    | some o =>
      have taken : next ⟨b :: rest, p⟩ = (.ofOp o p, ⟨rest, p.past b⟩) := by
        rw [next, skipCommentary, skipFrom, op]
        dsimp only [take]
        rw [op]
        rfl
      have tokens : tokens ⟨b :: rest, p⟩ = .ofOp o p :: tokens ⟨rest, p.past b⟩ := by
        rw [Scanner.tokens, tokensFrom, op]
        rfl
      have met : (next ⟨b :: rest, p⟩).1.op ≠ none := by
        rw [taken]
        exact Option.some_ne_none o
      have left : (next ⟨b :: rest, p⟩).2.Drains (Scanner.tokens ⟨rest, p.past b⟩)
          (finish ⟨rest, p.past b⟩) := by
        rw [taken]
        exact further
      have more := Drains.more met left
      rw [taken] at more
      rw [tokens]
      exact more

theorem Drains.unique (h : s.Drains ts s') (h' : s.Drains ts' s'') : ts = ts' ∧ s' = s'' := by
  induction h generalizing ts' s'' with
  | last ended =>
    cases h' with
    | last => exact ⟨rfl, rfl⟩
    | more met => exact absurd ended met
  | more met further ih =>
    cases h' with
    | last ended => exact absurd ended met
    | more met' further' =>
      obtain ⟨rfl, rfl⟩ := ih further'
      exact ⟨rfl, rfl⟩

/-- Whatever was asked of a scanner, its current byte is the one at the position it has come to, if
the data go as far; its line is one more than there are line feeds in front, and its column is told
from the last of these, also behind the end. To take all tokens from there comes to an end, with one
token for the byte of each operation from the position on, which has this byte and its line and
column, and behind them a single end, where the data end or where the scanner already was. A scanner
that stands at the end or behind it gives the end and stays. -/
theorem scanner_stands_where_it_tells {requests : List Request}
    (asked : requests.foldl obey (ofBytes data) = s) :
    s.current? = data[s.place.pos]? ∧ s.place.line = lineBehind (data.take s.place.pos) ∧
    s.place.column = columnAt data s.place.pos ∧ s.advance = amid data (s.place.pos + 1) ∧
    (s.Drains s.tokens s.finish ∧
      ∀ ts s', s.Drains ts s' → ts = s.tokens ∧ s' = s.finish) ∧
    (s.tokens = (List.range' s.place.pos (data.length - s.place.pos)).filterMap (Token.at? data) ++
        [.theEnd (.amid data (max s.place.pos data.length))] ∧
      s.finish = amid data (max s.place.pos data.length)) ∧
    (∀ pos t, Token.at? data pos = some t ↔
      ∃ o : Op, data[pos]? = some o.byte ∧
        t = ⟨some o, lineBehind (data.take pos), columnAt data pos⟩) ∧
    (data.length ≤ s.place.pos → s.next = (.theEnd s.place, s)) := by
  rw [ofBytes_amid] at asked
  obtain ⟨pos, stands⟩ := obeyAll_amid data 0 requests
  rw [asked] at stands
  subst stands
  refine ⟨current?_amid data pos, rfl, rfl, advance_amid data pos,
    ⟨drains_tokens _, fun ts s' drained => drained.unique (drains_tokens _)⟩,
    ⟨tokens_amid data pos, finish_amid data pos⟩, fun pos t => at?_eq_some_iff, ?_⟩
  intro ended
  replace ended : data.length ≤ pos := ended
  rw [amid_of_none (List.getElem?_eq_none_iff.mpr ended)]
  rfl

/-- Two tokens behind commentary and a line feed, with a character of two bytes between them; and
the end, met again two bytes behind it. -/
theorem tokens_behind_line_feed :
    ∃ s s', [.advance, .skipCommentary].foldl obey
        (ofBytes [0x61, 0x0A, 0x2B, 0xC3, 0xA9, 0x5D]) = s ∧
      [.advance, .skipCommentary, .tokens, .advance, .advance].foldl obey
        (ofBytes [0x61, 0x0A, 0x2B, 0xC3, 0xA9, 0x5D]) = s' ∧
      s.current? = some 0x2B ∧
      s.tokens = [⟨some .increment, 2, 1⟩, ⟨some .loopEnd, 2, 4⟩, ⟨none, 2, 5⟩] ∧
      s'.place = ⟨8, 2, 7⟩ ∧ s'.next = (⟨none, 2, 7⟩, s') := by
  obtain ⟨s, stands⟩ : ∃ s, [.advance, .skipCommentary].foldl obey
      (ofBytes [0x61, 0x0A, 0x2B, 0xC3, 0xA9, 0x5D]) = s := ⟨_, rfl⟩
  obtain ⟨s', behind⟩ : ∃ s', [.advance, .skipCommentary, .tokens, .advance, .advance].foldl obey
      (ofBytes [0x61, 0x0A, 0x2B, 0xC3, 0xA9, 0x5D]) = s' := ⟨_, rfl⟩
  obtain ⟨current, _, _, _, _, ⟨tokens, _⟩, _⟩ := scanner_stands_where_it_tells stands
  obtain ⟨_, _, _, _, _, _, _, again⟩ := scanner_stands_where_it_tells behind
  cases stands
  cases behind
  exact ⟨_, _, rfl, rfl, current, tokens, rfl, again (by decide)⟩

end Scanner
end TapeMachine
