import TapeMachine.Proofs.Retrying

/-! One compiler used for several sources, whatever comes of each. Until one of them compiles, a
call fails only over brackets. After that the program is frozen and every operation is refused, but
a loop start counts as open before it is refused; so the loops that a frozen compiler holds open
stand nowhere in its program, and a source without operations then fails for want of their place. -/

namespace TapeMachine

namespace Compiler

/-- The compiler after a call with each of the sources, whatever came of it. -/
def afterAll (c : Compiler) (sources : List (List UInt8)) : Compiler :=
  sources.foldl (fun c bytes => (c.compile (.bytes bytes)).2) c

/-- The number of refused loop starts that a frozen compiler holds open after one source more. Only
the first operation of a source counts, as it is refused and ends the call. -/
def strayed (strays : Nat) (bytes : List UInt8) : Nat :=
  match opsOf bytes with
  | .loopStart :: _ => strays + 1
  | .loopEnd :: _ => strays - 1
  | _ => strays

/-- How many refused loop starts a frozen compiler holds open after sources. -/
def strays (sources : List (List UInt8)) : Nat := sources.foldl strayed 0

/-- All that can come of a call while no source has compiled. -/
inductive Unfrozen (bytes : List UInt8) : Except Fault Program → Prop
  | returned {p : Program} (frozen : p.frozen = true) : Unfrozen bytes (.ok p)
  | unmatched {before after : List UInt8} (split : bytes = before ++ Op.loopEnd.byte :: after) :
      Unfrozen bytes (.error (unmatched (lineBehind before) (columnBehind before)))
  | unclosed {l : Location} : Unfrozen bytes (.error (unclosed l.line l.column))

/-- All that can come of a call once a source has compiled to a program, with so many refused loop
starts held open. -/
inductive Frozen (p : Program) (strays : Nat) (bytes : List UInt8) : Except Fault Program → Prop
  | returned (idle : opsOf bytes = []) (level : strays = 0) : Frozen p strays bytes (.ok p)
  /-- The place of a loop start is wanted that the program does not hold. -/
  | lost (idle : opsOf bytes = []) (open_ : 0 < strays) : Frozen p strays bytes (.error .noLocation)
  | unmatched {before after : List UInt8} (split : bytes = before ++ Op.loopEnd.byte :: after)
      (first : opsOf before = []) (level : strays = 0) :
      Frozen p strays bytes (.error (unmatched (lineBehind before) (columnBehind before)))
  | refused {o : Op} {rest : List Op} (first : opsOf bytes = o :: rest)
      (closes : o = .loopEnd → 0 < strays) : Frozen p strays bytes (.error .programFrozen)

/-- A compiler that goes on with its program. -/
structure Growing (c : Compiler) : Prop where
  nest : ∃ n, c.At n
  placed : ∃ places : List Location, c.program.locations = places.map some

/-- A compiler whose program is frozen, with so many loops held open that it does not hold. -/
structure Spent (c : Compiler) (p : Program) (strays : Nat) : Prop where
  program : c.program = p
  frozen : p.frozen = true
  openLoops : c.openLoops = List.replicate strays p.length

variable {c c' : Compiler} {p : Program} {k : Nat} {bytes : List UInt8} {f : Fault}

/-! ## While no source has compiled -/

theorem growing_fresh : fresh.Growing := ⟨⟨{}, at_fresh⟩, [], rfl⟩

/-- A call that fails leaves the compiler growing, and fails over a bracket. -/
theorem Growing.failed (h : c.Growing) (failed : c.compile (.bytes bytes) = (.error f, c')) :
    c'.Growing ∧ Unfrozen bytes (.error f) := by
  obtain ⟨⟨n, holds⟩, places, located⟩ := h
  obtain ⟨part, n', contributes, scanned⟩ := holds.refused located failed
  refine ⟨⟨⟨n', scanned.stands⟩, places ++ Scanner.marks part {}, ?_⟩, ?_⟩
  · rw [scanned.located, located, List.map_append]
  · cases contributes with
    | unread read => cases read
    | unmatched read =>
      cases read
      exact .unmatched rfl
    | unclosed => exact .unclosed

theorem Growing.frozen (h : c.Growing) : c.program.frozen = false := by
  obtain ⟨⟨_, holds⟩, _⟩ := h
  exact holds.growing

/-- A source compiles where it leaves no loop open. -/
theorem close_returned (closed : c.close = (.ok p, c')) : c'.Spent p 0 := by
  unfold close at closed
  cases opened : c.openLoops with
  | nil =>
    rw [opened] at closed
    cases closed
    exact ⟨rfl, rfl, rfl⟩
  | cons top outer =>
    rw [opened] at closed
    dsimp only at closed
    split at closed
    · cases closed
    · cases closed

/-- A call that returns leaves a frozen program, and no loop open. -/
theorem spent_of_returned (returned : c.compile (.bytes bytes) = (.ok p, c')) : c'.Spent p 0 := by
  simp only [compile, Source.read, compileBytes] at returned
  generalize c.acceptAll (Scanner.ofBytes bytes).tokens = scanned at returned
  obtain ⟨f | _, c₁⟩ := scanned
  · cases returned
  · exact close_returned returned

/-- Whatever the source is, the compiler returns or fails over a bracket. -/
theorem Growing.answers (h : c.Growing) (bytes : List UInt8) :
    Unfrozen bytes (c.compile (.bytes bytes)).1 := by
  cases answer : c.compile (.bytes bytes) with
  | mk r c' =>
    cases r with
    | error f => exact (h.failed answer).2
    | ok p => exact .returned (spent_of_returned answer).frozen

/-- A loop that is open at the end of a source has a place in the program. -/
theorem Growing.open_located (h : c.Growing)
    (scanned : c.acceptAll (Scanner.ofBytes bytes).tokens = (.ok (), c')) {top : Nat}
    {outer : List Nat} (opened : c'.openLoops = top :: outer) :
    ∃ l, c'.program.location top = some l := by
  obtain ⟨⟨n, holds⟩, places, located⟩ := h
  rcases holds.acceptAll bytes {} with ⟨c₁, n₁, run, further⟩ | ⟨_, _, _, _, _, run, _, _⟩
  · cases scanned.symm.trans run
    refine @At.open_located _ _ (places ++ Scanner.marks bytes {}) further.stands ?_ _ _ opened
    rw [further.located, located, List.map_append]
  · cases scanned.symm.trans run

/-! ## Once a source has compiled -/

theorem opsOf_cons_idle {b : UInt8} (idle : opsOf (b :: bytes) = []) :
    Op.ofByte? b = none ∧ opsOf bytes = [] := by
  have skipped := List.filterMap_eq_nil_iff.mp idle
  refine ⟨skipped b (List.mem_cons_self ..), List.filterMap_eq_nil_iff.mpr ?_⟩
  exact fun x mem => skipped x (List.mem_cons_of_mem b mem)

/-- Commentary leaves a compiler as it is. -/
theorem acceptAll_idle (c : Compiler) {bytes : List UInt8} (idle : opsOf bytes = [])
    (place : Place) : c.acceptAll (Scanner.tokensFrom bytes place) = (.ok (), c) := by
  induction bytes generalizing place with
  | nil => rfl
  | cons b bytes ih =>
    obtain ⟨read, idle⟩ := opsOf_cons_idle idle
    simp only [Scanner.tokensFrom, read]
    exact ih idle _

/-- The first operation is met behind the commentary in front of it. -/
theorem acceptAll_first (c : Compiler) {before : List UInt8} (idle : opsOf before = []) (o : Op)
    (after : List UInt8) (place : Place) :
    c.acceptAll (Scanner.tokensFrom (before ++ o.byte :: after) place) =
      match c.accept o (place.behind before).line (place.behind before).column with
      | (.error f, c) => (.error f, c)
      | (.ok (), c) =>
        c.acceptAll (Scanner.tokensFrom after ((place.behind before).past o.byte)) := by
  induction before generalizing place with
  | nil =>
    rw [List.nil_append, Scanner.tokensFrom, Op.ofByte?_byte]
    rfl
  | cons b before ih =>
    obtain ⟨read, idle⟩ := opsOf_cons_idle idle
    simp only [List.cons_append, Scanner.tokensFrom, read]
    exact ih idle _

/-- A frozen compiler refuses any operation, once it has opened or closed a loop for it. -/
theorem Spent.accept (h : c.Spent p k) {o : Op} {rest : List Op} (first : opsOf bytes = o :: rest)
    (line column : Nat) :
    ∃ c', c'.Spent p (strayed k bytes) ∧
      c.accept o line column =
        (.error (if o = .loopEnd ∧ k = 0 then unmatched line column else .programFrozen), c') := by
  obtain ⟨q, openLoops⟩ := c
  obtain ⟨same, frozen, held⟩ := h
  have same : q = p := same
  have held : openLoops = List.replicate k p.length := held
  subst same held
  have refused : ∀ (stack : List Nat) (o : Op) (target : Option Int),
      emit ⟨q, stack⟩ o target line column = (.error .programFrozen, ⟨q, stack⟩) := by
    intro stack o target
    simp only [emit, Program.emit_frozen frozen]
  rcases o.bracket_or_action with rfl | rfl | ⟨a, rfl⟩
  · refine ⟨⟨q, List.replicate (k + 1) q.length⟩, ?_, ?_⟩
    · rw [strayed, first]
      exact ⟨rfl, frozen, rfl⟩
    · rw [Compiler.accept, refused]
      rfl
  · cases k with
    | zero =>
      refine ⟨⟨q, []⟩, ?_, rfl⟩
      rw [strayed, first]
      exact ⟨rfl, frozen, rfl⟩
    | succ k =>
      refine ⟨⟨q, List.replicate k q.length⟩, ?_, ?_⟩
      · rw [strayed, first]
        exact ⟨rfl, frozen, rfl⟩
      · simp only [Compiler.accept, List.replicate_succ, refused]
        rfl
  · refine ⟨⟨q, List.replicate k q.length⟩, ?_, ?_⟩
    · rw [strayed, first]
      cases a <;> exact ⟨rfl, frozen, rfl⟩
    · cases a <;> simp only [Action.op, Compiler.accept, refused] <;> rfl

/-- At the end of a source, a loop that a frozen compiler holds open has no place. -/
theorem Spent.no_place (h : c.Spent p k) {top : Nat} {outer : List Nat}
    (opened : c.openLoops = top :: outer) : c.program.location top = none := by
  have mem : top ∈ List.replicate k p.length := by
    rw [← h.openLoops, opened]
    exact List.mem_cons_self ..
  rw [List.eq_of_mem_replicate mem, h.program, Program.location_eq,
    List.getElem?_eq_none (by simp [Program.locations, Program.length])]
  rfl

/-- Only commentary comes through a frozen compiler, and leaves it as it is. -/
theorem Spent.scanned (h : c.Spent p k)
    (scanned : c.acceptAll (Scanner.ofBytes bytes).tokens = (.ok (), c')) : c' = c := by
  simp only [Scanner.tokens, Scanner.ofBytes] at scanned
  cases first : opsOf bytes with
  | nil =>
    rw [c.acceptAll_idle first] at scanned
    cases scanned
    rfl
  | cons o rest =>
    obtain ⟨before, after, rfl, idle, _⟩ := @split_of_opsOf bytes [] rest o first
    obtain ⟨_, _, accepted⟩ :=
      h.accept first (({} : Place).behind before).line (({} : Place).behind before).column
    rw [c.acceptAll_first idle, accepted] at scanned
    cases scanned

theorem Spent.close (h : c.Spent p k) :
    c.close = (if k = 0 then .ok p else .error .noLocation, c) := by
  cases k with
  | zero =>
    obtain ⟨⟨entries, isFrozen⟩, openLoops⟩ := c
    obtain ⟨rfl, frozen, held⟩ := h
    have held : openLoops = [] := held
    have frozen : isFrozen = true := frozen
    subst held frozen
    rfl
  | succ k =>
    have opened : c.openLoops = p.length :: List.replicate k p.length := h.openLoops
    simp only [Compiler.close, opened, h.no_place opened]
    rfl

/-- A call with a frozen compiler: it is refused at the first operation, if there is one. -/
theorem Spent.call (h : c.Spent p k) (bytes : List UInt8) :
    (c.compile (.bytes bytes)).2.Spent p (strayed k bytes) ∧
      Frozen p k bytes (c.compile (.bytes bytes)).1 := by
  simp only [compile, Source.read, compileBytes, Scanner.tokens, Scanner.ofBytes]
  cases first : opsOf bytes with
  | nil =>
    have same : strayed k bytes = k := by rw [strayed, first]
    rw [c.acceptAll_idle first, same]
    dsimp only
    rw [h.close]
    refine ⟨h, ?_⟩
    by_cases level : k = 0
    · rw [if_pos level]
      exact .returned first level
    · rw [if_neg level]
      exact .lost first (Nat.pos_of_ne_zero level)
  | cons o rest =>
    obtain ⟨before, after, rfl, idle, _⟩ := @split_of_opsOf bytes [] rest o first
    obtain ⟨c', spent, accepted⟩ :=
      h.accept first (({} : Place).behind before).line (({} : Place).behind before).column
    rw [c.acceptAll_first idle, accepted]
    refine ⟨spent, ?_⟩
    by_cases unmatched : o = .loopEnd ∧ k = 0
    · obtain ⟨rfl, rfl⟩ := unmatched
      simp only [and_self, if_true, Place.behind_start]
      exact .unmatched rfl idle rfl
    · simp only [if_neg unmatched]
      refine .refused first fun closes => Nat.pos_of_ne_zero ?_
      exact fun level => unmatched ⟨closes, level⟩

/-! ## Calls in a row -/

/-- The answer to one source more, after others. -/
def answerAfter (history : List (List UInt8)) (bytes : List UInt8) : Except Fault Program :=
  ((fresh.afterAll history).compile (.bytes bytes)).1

theorem afterAll_append (c : Compiler) (sources more : List (List UInt8)) :
    c.afterAll (sources ++ more) = (c.afterAll sources).afterAll more := by
  simp [afterAll]

theorem Spent.afterAll (h : c.Spent p k) (sources : List (List UInt8)) :
    (c.afterAll sources).Spent p (sources.foldl strayed k) := by
  induction sources generalizing c k with
  | nil => exact h
  | cons bytes sources ih => exact ih (h.call bytes).1

variable {history before since : List (List UInt8)} {source : List UInt8}

/-- As long as no source has compiled, the compiler is growing. -/
theorem Growing.afterAll (h : c.Growing)
    (none : ∀ before source since, history = before ++ source :: since →
      ∃ f, ((c.afterAll before).compile (.bytes source)).1 = .error f) :
    (c.afterAll history).Growing := by
  induction history generalizing c with
  | nil => exact h
  | cons bytes history ih =>
    obtain ⟨f, failed⟩ := none [] bytes history rfl
    refine ih (h.failed (Prod.ext failed rfl)).1 ?_
    intro before source since split
    exact none (bytes :: before) source since (congrArg (bytes :: ·) split)

/-- Once a source has compiled, the compiler is spent. -/
theorem spent_afterAll (returned : answerAfter before source = .ok p)
    (since : List (List UInt8)) :
    (fresh.afterAll (before ++ source :: since)).Spent p (strays since) := by
  have spent : ((fresh.afterAll before).compile (.bytes source)).2.Spent p 0 :=
    spent_of_returned (Prod.ext returned rfl)
  rw [afterAll_append]
  exact spent.afterAll since

end Compiler

/-- What comes of one compiler used for sources in a row. As long as none has compiled, the next one
returns a frozen program, or fails over a bracket of it; and a loop that is open at its end has a
place in the program. Once one has compiled, the compiler keeps its program. The next source, if it
has no operations, returns it again; otherwise it is refused as the program is frozen, or for a
loop end with which no loop is open. But every loop start that was refused before counts as open,
until a refused loop end closes it again, and no such loop has a place: a source without operations
then fails for want of it. -/
theorem place_lost_after_refused_start (history : List (List UInt8)) (bytes : List UInt8) :
    ((∀ before source since, history = before ++ source :: since →
        ∃ f, Compiler.answerAfter before source = .error f) →
      (Compiler.fresh.afterAll history).program.frozen = false ∧
      Compiler.Unfrozen bytes (Compiler.answerAfter history bytes) ∧
      ∀ c top outer, (Compiler.fresh.afterAll history).acceptAll (Scanner.ofBytes bytes).tokens =
          (.ok (), c) → c.openLoops = top :: outer → ∃ l, c.program.location top = some l) ∧
    ∀ before source since p, history = before ++ source :: since →
      Compiler.answerAfter before source = .ok p →
      (Compiler.fresh.afterAll history).program = p ∧
      Compiler.Frozen p (Compiler.strays since) bytes (Compiler.answerAfter history bytes) ∧
      ∀ c top outer, (Compiler.fresh.afterAll history).acceptAll (Scanner.ofBytes bytes).tokens =
          (.ok (), c) → c.openLoops = top :: outer → c.program.location top = none := by
  constructor
  · intro none
    have growing := Compiler.growing_fresh.afterAll none
    refine ⟨growing.frozen, growing.answers bytes, ?_⟩
    intro c top outer scanned opened
    exact growing.open_located scanned opened
  · intro before source since p split returned
    have spent := Compiler.spent_afterAll returned since
    rw [← split] at spent
    refine ⟨spent.program, (spent.call bytes).2, ?_⟩
    intro c top outer scanned opened
    cases spent.scanned scanned
    exact spent.no_place opened

/-- A compiler that has compiled a source without operations, and has refused a loop start: the
third source, which is empty, is answered neither with the program nor with a report of a bracket,
nor is it refused as the program is frozen. -/
theorem refused_start_has_no_place :
    Compiler.answerAfter [] [] = .ok (.ofEntries []) ∧
      Compiler.answerAfter [[]] [Op.loopStart.byte] = .error .programFrozen ∧
      Compiler.answerAfter [[], [Op.loopStart.byte]] [] = .error .noLocation ∧
      ∀ r, Compiler.answerAfter [[], [Op.loopStart.byte]] [] = r →
        ¬ (∃ p, r = .ok p) ∧ (∀ report, r ≠ .error (.report report)) ∧
          r ≠ .error .programFrozen := by
  have lost : Compiler.answerAfter [[], [Op.loopStart.byte]] [] = .error .noLocation := rfl
  refine ⟨rfl, rfl, lost, ?_⟩
  intro r answer
  rw [lost] at answer
  subst answer
  refine ⟨?_, ?_, ?_⟩
  · rintro ⟨_, returned⟩
    cases returned
  · intro _ reported
    cases reported
  · intro refused
    cases refused

end TapeMachine
