import TapeMachine.Proofs.Lifecycle

/-! Loops as regions of a program. Two loops lie one in the other or apart, so that no jump of one
crosses the other: a run enters a loop only at its first bracket and leaves it only behind its last,
where the cell under the pointer is zero. -/

namespace TapeMachine

/-- The operations at `s` and `e` are the two brackets of a loop. -/
structure Brackets (ops : List Op) (s e : Nat) : Prop where
  start : ops[s]? = some .loopStart
  finish : ops[e]? = some .loopEnd
  lt : s < e
  between : Balanced ((ops.take e).drop (s + 1))

/-- How many more loops have started than ended in front of an index. -/
def depth (ops : List Op) (k : Nat) : Int := balance (ops.take k)

/-- An index that lies on the brackets of a loop or between them. -/
def Within (s e k : Nat) : Prop := s ≤ k ∧ k ≤ e

/-- Where control goes from an index, with a byte in the cell under the pointer. -/
inductive Flows (ops : List Op) (b : UInt8) : Nat → Nat → Prop
  | next {k : Nat} {o : Op} (found : ops[k]? = some o) (entered : o = .loopStart → b ≠ 0)
      (left : o = .loopEnd → b = 0) : Flows ops b k (k + 1)
  /-- From the start of a loop to its end. -/
  | skip {s e : Nat} (loop : Brackets ops s e) (zero : b = 0) : Flows ops b s e
  /-- From the end of a loop to its start. -/
  | back {s e : Nat} (loop : Brackets ops s e) (nonzero : b ≠ 0) : Flows ops b e s

/-- What a loop asks of a run that goes from the index `i` to the index `j`, where the cell under
the pointer holds `b` before and `c` afterwards. -/
structure Respects (s e i j : Nat) (b c : UInt8) : Prop where
  /-- The loop is entered at its start. -/
  entered : ¬ Within s e i → Within s e j → i + 1 = s ∧ j = s
  /-- The loop is left behind its end, and on a zero. -/
  left : Within s e i → ¬ Within s e j → i = e ∧ j = e + 1 ∧ b = 0 ∧ c = 0
  start : i = s → j = if b = 0 then e else s + 1
  finish : i = e → j = if b = 0 then e + 1 else s

namespace Machine

/-- After `n` instructions a run stands at the index `k`, with `b` in the cell under the pointer. -/
def StandsAt (m : Machine) (o : RunOptions) (n k : Nat) (b : UInt8) : Prop :=
  ∃ s, Loop.after turn n (m.arm o) = some s ∧ s.ip = some (k : Int) ∧ s.config.tape.cell = b

/-- The next turn of a machine hands out the instruction at the index `k`, or hands out none and
ends the run. -/
structure HandsOut (m : Machine) (k : Nat) : Prop where
  here : ∀ i index, m.handed? = some (i, index) →
    index = (k : Int) ∧ m.program.instructions[k]? = some i
  always : ∀ n, m.turn = .again n → m.handed? ≠ none

end Machine

/-! ## Loops in loops -/

variable {ops : List Op} {s e s' e' i j k : Nat} {b : UInt8}

theorem depth_between (le : i ≤ k) :
    depth ops k = depth ops i + balance ((ops.take k).drop i) := by
  have whole := List.take_append_drop i (ops.take k)
  rw [List.take_take, Nat.min_eq_left le] at whole
  rw [depth, depth, ← balance_append, whole]

theorem depth_succ {o : Op} (found : ops[k]? = some o) :
    depth ops (k + 1) = depth ops k + o.delta := by
  rw [depth, List.take_add_one, found, balance_append]
  simp [depth]

namespace Brackets

/-- Inside a loop one more loop is open than in front of it. -/
theorem depth_inside (loop : Brackets ops s e) (behind : s < k) (le : k ≤ e) :
    depth ops s + 1 ≤ depth ops k := by
  have first : depth ops (s + 1) = depth ops s + 1 := depth_succ loop.start
  have front : (ops.take k).drop (s + 1) <+: (ops.take e).drop (s + 1) := by
    rw [List.drop_take, List.drop_take]
    exact List.take_prefix_take_left (Nat.sub_le_sub_right le _)
  have started := loop.between.started _ front
  have between : depth ops k = depth ops (s + 1) + _ := depth_between behind
  omega

/-- Behind a loop as many loops are open as in front of it. -/
theorem depth_behind (loop : Brackets ops s e) : depth ops (e + 1) = depth ops s := by
  have first : depth ops (s + 1) = depth ops s + 1 := depth_succ loop.start
  have last : depth ops (e + 1) = depth ops e + -1 := depth_succ loop.finish
  have between : depth ops e = depth ops (s + 1) + _ := depth_between loop.lt
  rw [loop.between.closed] at between
  omega

/-- A loop that starts inside another ends inside it. -/
theorem nested (outer : Brackets ops s e) (inner : Brackets ops s' e') (behind : s < s')
    (before : s' < e) : e' < e := by
  have deeper := outer.depth_inside behind (Nat.le_of_lt before)
  have level := outer.depth_behind
  rcases Nat.lt_trichotomy e' e with inside | rfl | beyond
  · exact inside
  · have := inner.depth_behind
    omega
  · have := inner.depth_inside (k := e + 1) (by omega) (by omega)
    omega

/-- Of two loops with one start neither ends before the other. -/
theorem finish_le (loop : Brackets ops s e) (again : Brackets ops s e') : e ≤ e' := by
  refine Nat.le_of_not_lt fun before => ?_
  have level := again.depth_behind
  have deeper := loop.depth_inside (k := e' + 1) (Nat.lt_succ_of_lt again.lt) before
  omega

theorem finish_unique (loop : Brackets ops s e) (again : Brackets ops s e') : e = e' :=
  Nat.le_antisymm (loop.finish_le again) (again.finish_le loop)

theorem start_unique (loop : Brackets ops s e) (again : Brackets ops s' e) : s = s' := by
  rcases Nat.lt_trichotomy s s' with before | same | behind
  · exact absurd (loop.nested again before again.lt) (Nat.lt_irrefl e)
  · exact same
  · exact absurd (again.nested loop behind loop.lt) (Nat.lt_irrefl e)

/-- No bracket is both the start of a loop and the end of one. -/
theorem start_ne_finish (loop : Brackets ops s e) (other : Brackets ops s' e') : s ≠ e' := by
  intro same
  subst same
  have both := loop.start.symm.trans other.finish
  cases both

/-- Of a loop both brackets lie in another, or none. -/
theorem within_iff (loop : Brackets ops s e) (other : Brackets ops s' e') :
    Within s e s' ↔ Within s e e' := by
  have lt := other.lt
  constructor
  · intro inside
    obtain ⟨ge, le⟩ := inside
    rcases Nat.eq_or_lt_of_le ge with rfl | behind
    · rw [← loop.finish_unique other]
      exact ⟨Nat.le_of_lt loop.lt, Nat.le_refl e⟩
    · have before := Nat.lt_of_le_of_ne le (other.start_ne_finish loop)
      exact ⟨by omega, Nat.le_of_lt (loop.nested other behind before)⟩
  · intro inside
    obtain ⟨ge, le⟩ := inside
    refine ⟨Nat.le_of_not_lt fun before => ?_, by omega⟩
    -- a loop that starts inside the other would have to end inside it too
    have behind := Nat.lt_of_le_of_ne ge (loop.start_ne_finish other)
    exact absurd (other.nested loop before behind) (Nat.not_lt_of_le le)

end Brackets

/-! ## What control does to a loop -/

namespace Flows

theorem enters (flows : Flows ops b i j) (loop : Brackets ops s e) (outside : ¬ Within s e i)
    (inside : Within s e j) : i + 1 = s ∧ j = s := by
  cases flows with
  | next =>
    unfold Within at outside inside
    omega
  | skip other => exact absurd ((loop.within_iff other).mpr inside) outside
  | back other => exact absurd ((loop.within_iff other).mp inside) outside

theorem leaves (flows : Flows ops b i j) (loop : Brackets ops s e) (inside : Within s e i)
    (outside : ¬ Within s e j) : i = e ∧ j = e + 1 ∧ b = 0 := by
  cases flows with
  | next found _ left =>
    have last : i = e := by
      unfold Within at outside inside
      omega
    subst last
    cases found.symm.trans loop.finish
    exact ⟨rfl, rfl, left rfl⟩
  | skip other => exact absurd ((loop.within_iff other).mp inside) outside
  | back other => exact absurd ((loop.within_iff other).mpr inside) outside

theorem from_start (flows : Flows ops b s j) (loop : Brackets ops s e) :
    j = if b = 0 then e else s + 1 := by
  cases flows with
  | next found entered =>
    cases found.symm.trans loop.start
    rw [if_neg (entered rfl)]
  | skip other zero => rw [if_pos zero, loop.finish_unique other]
  | back other => exact absurd rfl (loop.start_ne_finish other)

theorem from_finish (flows : Flows ops b e j) (loop : Brackets ops s e) :
    j = if b = 0 then e + 1 else s := by
  cases flows with
  | next found _ left =>
    cases found.symm.trans loop.finish
    rw [if_pos (left rfl)]
  | skip other => exact absurd rfl (other.start_ne_finish loop)
  | back other nonzero => rw [if_neg nonzero, loop.start_unique other]

end Flows

/-! ## Linked programs -/

namespace Program.Linked

variable {p : Program} {o : Op} {t : Option Int}

theorem op_at (linked : p.Linked ops) (found : p.instructions[k]? = some ⟨.op o, t⟩) :
    ops[k]? = some o := by
  have opcode := linked.opcode k
  rw [found, Option.map_some] at opcode
  obtain ⟨_, there, known⟩ := Option.map_eq_some_iff.mp opcode.symm
  cases known
  exact there

theorem brackets_start (linked : p.Linked ops)
    (found : p.instructions[s]? = some ⟨.op .loopStart, t⟩) :
    ∃ e : Nat, t = some (e : Int) ∧ Brackets ops s e := by
  obtain ⟨e, target, lt, _, back, between⟩ := linked.start s t found
  exact ⟨e, target, linked.op_at found, linked.op_at back, lt, between⟩

theorem brackets_finish (linked : p.Linked ops)
    (found : p.instructions[e]? = some ⟨.op .loopEnd, t⟩) :
    ∃ s : Nat, t = some (s : Int) ∧ Brackets ops s e := by
  obtain ⟨s, target, _, start⟩ := linked.finish e t found
  obtain ⟨e', same, loop⟩ := linked.brackets_start start
  cases Int.ofNat.inj (Option.some.inj same)
  exact ⟨s, target, loop⟩

/-- The brackets of a loop are linked to each other. -/
theorem links (linked : p.Linked ops) (loop : Brackets ops s e) :
    p.instructions[s]? = some ⟨.op .loopStart, some (e : Int)⟩ ∧
      p.instructions[e]? = some ⟨.op .loopEnd, some (s : Int)⟩ := by
  have opcode := linked.opcode s
  rw [loop.start, Option.map_some] at opcode
  obtain ⟨⟨_, t⟩, found, rfl⟩ := Option.map_eq_some_iff.mp opcode
  obtain ⟨e', rfl, _, _, back, _⟩ := linked.start s t found
  obtain ⟨_, target, other⟩ := linked.brackets_start found
  cases target
  cases loop.finish_unique other
  exact ⟨found, back⟩

end Program.Linked

/-! ## What is handed out -/

namespace Machine

variable {m n : Machine} {o : Op} {t : Option Int} {i : Instruction} {index : Int}

/-- Whatever the order in which instructions are handed out, it is the one at the index. -/
theorem Safe.next_hands (safe : m.Safe) (ip : m.ip = some (k : Int))
    (found : m.program.instructions[k]? = some ⟨.op o, t⟩) (told : m.next.1 = .ok (i, index)) :
    i = ⟨.op o, t⟩ ∧ index = k := by
  unfold Machine.next at told
  cases traversal : m.traversal with
  | linear =>
    simp only [traversal, fetch_at ip found] at told
    cases told
    exact ⟨rfl, rfl⟩
  | recording left =>
    simp only [traversal, fetch_at ip found] at told
    cases told
    exact ⟨rfl, rfl⟩
  | gated signals outlet =>
    have asked := (asked_posted m outlet).trans (asked_await _ signals outlet)
    simp only [traversal, safe.post outlet] at told
    generalize (m.posted outlet).await signals outlet = answer at asked told
    obtain ⟨result, n⟩ := answer
    cases result with
    | error f => cases told
    | ok =>
      have ip : n.ip = some (k : Int) := (congrArg Config.ip asked.config).trans ip
      rw [← asked.program] at found
      simp only [fetch_at ip found] at told
      cases told
      exact ⟨rfl, rfl⟩

/-- What is handed out comes of the traversal, once the guard has let the machine pass. -/
theorem next_of_handed (handed : m.handed? = some (i, index)) :
    m.hasNext = .ok true ∧
      ∃ x, m.running.check = (.ok (), x) ∧ x.next.1 = .ok (i, index) := by
  unfold handed? at handed
  split at handed
  · cases handed
  · split at handed
    · next x more checked =>
      refine ⟨more, x, checked, ?_⟩
      generalize x.next.1 = told at handed ⊢
      cases told with
      | error f => cases handed
      | ok fetched =>
        cases handed
        rfl
    · cases handed

/-- A turn that goes on has handed out an instruction. -/
theorem handed_of_turn (turned : m.turn = .again n) : m.handed? ≠ none := by
  unfold Machine.turn at turned
  cases more : m.hasNext with
  | error f =>
    rw [more] at turned
    cases turned
  | ok next =>
    cases next with
    | false =>
      rw [more] at turned
      cases turned
    | true =>
      simp only [more, Machine.step] at turned
      cases live : m.state.isFinal with
      | true =>
        simp only [live, if_true] at turned
        cases turned
      | false =>
        have begun : ({ m with state := .running } : Machine) = m.running := rfl
        simp only [live, begun, Machine.attempt] at turned
        simp only [handed?, live, more]
        generalize m.running.check = answer at turned ⊢
        obtain ⟨checked, x⟩ := answer
        cases checked with
        | error f => cases turned
        | ok =>
          simp only [Bool.false_eq_true, if_false] at turned ⊢
          generalize x.next = answer at turned ⊢
          obtain ⟨told, y⟩ := answer
          cases told with
          | error f => cases turned
          | ok fetched =>
            intro impossible
            cases impossible

/-- A turn hands out the instruction at the index, and none only if it ends the run. -/
theorem Safe.handsOut (safe : m.Safe) (ip : m.ip = some (k : Int)) : m.HandsOut k := by
  refine ⟨?_, fun n => handed_of_turn⟩
  intro i index handed
  obtain ⟨next, x, checked, told⟩ := next_of_handed handed
  have more : m.more = true := Except.ok.inj (safe.hasNext.symm.trans next)
  obtain ⟨_, o, t, ip', found⟩ := safe.next more
  cases Int.ofNat.inj (Option.some.inj (ip.symm.trans ip'))
  -- the guard leaves program and index alone
  have asked : Asked m.running m.running.check.2 := ⟨rfl, rfl, rfl, rfl⟩
  rw [checked] at asked
  have running : m.running.Safe := ⟨safe.program, safe.inside⟩
  have there : x.program.instructions[k]? = some ⟨.op o, t⟩ := by
    rw [asked.program]
    exact found
  obtain ⟨rfl, rfl⟩ :=
    (running.asked asked).next_hands ((congrArg Config.ip asked.config).trans ip) there told
  exact ⟨rfl, found⟩

end Machine

/-! ## Runs -/

namespace Machine

variable {m n : Machine} {o : Op} {t : Option Int}

/-- No bracket changes the tape. -/
theorem Executes.bracket_tape (executed : m.Executes n k o t)
    (bracket : o = .loopStart ∨ o = .loopEnd) : n.config.tape = m.config.tape := by
  have tick := executed.tick
  rw [Config.tick_at executed.ip executed.found] at tick
  rcases bracket with rfl | rfl
  all_goals
    simp only [Config.perform, Prod.mk.injEq, true_and] at tick
    rw [← tick]
    split <;> rfl

/-- An instruction that is executed takes control along the links of the program. -/
theorem Executes.flows (executed : m.Executes n k o t) (linked : m.program.Linked ops) :
    ∃ j : Nat, n.ip = some (j : Int) ∧ Flows ops m.config.tape.cell k j := by
  have found := linked.op_at executed.found
  have tick := executed.tick
  rw [Config.tick_at executed.ip executed.found] at tick
  rcases o.bracket_or_action with rfl | rfl | ⟨a, rfl⟩
  · obtain ⟨e, rfl, loop⟩ := linked.brackets_start executed.found
    have config : (if m.config.tape.cell = 0 then m.config.jump (some (e : Int))
        else m.config.jump (some ((k : Int) + 1))) = n.config := congrArg Prod.snd tick
    by_cases zero : m.config.tape.cell = 0
    · rw [if_pos zero] at config
      exact ⟨e, congrArg Config.ip config.symm, .skip loop zero⟩
    · rw [if_neg zero] at config
      refine ⟨k + 1, congrArg Config.ip config.symm, .next found (fun _ => zero) ?_⟩
      intro finish
      cases finish
  · obtain ⟨s, rfl, loop⟩ := linked.brackets_finish executed.found
    have config : (if m.config.tape.cell = 0 then m.config.jump (some ((k : Int) + 1))
        else m.config.jump (some (s : Int))) = n.config := congrArg Prod.snd tick
    by_cases zero : m.config.tape.cell = 0
    · rw [if_pos zero] at config
      refine ⟨k + 1, congrArg Config.ip config.symm, .next found ?_ (fun _ => zero)⟩
      intro start
      cases start
    · rw [if_neg zero] at config
      exact ⟨s, congrArg Config.ip config.symm, .back loop zero⟩
  · have index := Config.perform_ip (m.config.jump (some ((k : Int) + 1))) a.op t k
    rw [tick] at index
    have same : n.ip = some (((k + 1 : Nat)) : Int) := by
      rcases index with kept | ⟨start | finish, _⟩
      · exact kept
      · exact absurd start a.op_ne_loopStart
      · exact absurd finish a.op_ne_loopEnd
    refine ⟨k + 1, same, .next found ?_ ?_⟩
    · exact fun start => absurd start a.op_ne_loopStart
    · exact fun finish => absurd finish a.op_ne_loopEnd

/-- Every loop is respected by an instruction that is executed. -/
theorem Executes.respects (executed : m.Executes n i o t) (linked : m.program.Linked ops)
    (ip : n.ip = some (j : Int)) (loop : Brackets ops s e) :
    Respects s e i j m.config.tape.cell n.config.tape.cell := by
  obtain ⟨j', there, flows⟩ := executed.flows linked
  cases Int.ofNat.inj (Option.some.inj (ip.symm.trans there))
  refine ⟨flows.enters loop, ?_, ?_, ?_⟩
  · intro inside outside
    obtain ⟨rfl, next, zero⟩ := flows.leaves loop inside outside
    cases (linked.op_at executed.found).symm.trans loop.finish
    refine ⟨rfl, next, zero, ?_⟩
    rw [executed.bracket_tape (.inr rfl), zero]
  · intro start
    subst start
    exact flows.from_start loop
  · intro finish
    subst finish
    exact flows.from_finish loop

end Machine

/-! ## Whole runs -/

namespace Machine

variable {m x : Machine} {o : RunOptions} {n l : Nat} {c : UInt8}

/-- The run has entered a loop at its start, and has not left it since. -/
def Entered (m : Machine) (o : RunOptions) (s e n : Nat) : Prop :=
  ∃ k ≤ n, (∃ b, m.StandsAt o k s b) ∧
    ∀ l, k ≤ l → l ≤ n → ∃ i b, m.StandsAt o l i b ∧ Within s e i

/-- A run stands at one index only. -/
theorem StandsAt.unique (here : m.StandsAt o n i b) (again : m.StandsAt o n j c) :
    i = j ∧ b = c := by
  obtain ⟨x, reached, ip, rfl⟩ := here
  obtain ⟨y, reached', ip', rfl⟩ := again
  cases reached.symm.trans reached'
  exact ⟨Int.ofNat.inj (Option.some.inj (ip.symm.trans ip')), rfl⟩

theorem Safe.stands (armed : (m.arm o).Safe) (reached : Loop.after turn n (m.arm o) = some x) :
    ∃ k ≤ m.program.length, m.StandsAt o n k x.config.tape.cell ∧ x.HandsOut k := by
  obtain ⟨safe, program, _⟩ := armed.after_turns reached
  obtain ⟨k, ip, le⟩ := safe.inside
  rw [program, (m.arm_unmoved o).program] at le
  exact ⟨k, le, ⟨x, reached, ip, rfl⟩, safe.handsOut ip⟩

/-- Where the run stood one instruction before. -/
theorem StandsAt.pred (armed : (m.arm o).Safe) (next : m.StandsAt o (n + 1) j c) :
    ∃ i b, m.StandsAt o n i b := by
  obtain ⟨y, reached, _⟩ := next
  obtain ⟨x, reached, _⟩ := Loop.after_pred reached
  obtain ⟨k, _, here, _⟩ := armed.stands reached
  exact ⟨k, _, here⟩

section

variable (armed : (m.arm o).Safe) (linked : m.program.Linked ops) (loop : Brackets ops s e)
include armed linked loop

/-- From one instruction to the next a run respects every loop. -/
theorem StandsAt.respects (here : m.StandsAt o n i b) (next : m.StandsAt o (n + 1) j c) :
    Respects s e i j b c := by
  obtain ⟨x, reached, ip, rfl⟩ := here
  obtain ⟨y, reached', ip', rfl⟩ := next
  obtain ⟨x', again, turned⟩ := Loop.after_pred reached'
  cases reached.symm.trans again
  obtain ⟨safe, program, _⟩ := armed.after_turns reached
  rw [← (m.arm_unmoved o).program, ← program] at linked
  obtain ⟨k, op, t, executed⟩ := safe.turn_executes turned
  cases Int.ofNat.inj (Option.some.inj (ip.symm.trans executed.ip))
  exact executed.respects linked ip' loop

theorem StandsAt.entered (ip : m.ip = some 0) (here : m.StandsAt o n i b) (inside : Within s e i) :
    m.Entered o s e n := by
  induction n generalizing i b with
  | zero =>
    -- the run starts at index zero, which is the start of the loop if it is in the loop
    have first : i = 0 := by
      obtain ⟨x, reached, there, _⟩ := here
      cases reached
      have index : (m.arm o).ip = some 0 := (congrArg Config.ip (m.arm_unmoved o).config).trans ip
      exact Int.ofNat.inj (Option.some.inj (there.symm.trans index))
    have start : i = s := by
      unfold Within at inside
      omega
    subst start
    refine ⟨0, Nat.le_refl 0, ⟨b, here⟩, ?_⟩
    intro l _ le
    cases Nat.le_zero.mp le
    exact ⟨i, b, here, inside⟩
  | succ n ih =>
    obtain ⟨k, c, before⟩ := here.pred armed
    have respects := before.respects armed linked loop here
    by_cases stayed : Within s e k
    · obtain ⟨first, le, start, since⟩ := ih before stayed
      refine ⟨first, Nat.le_succ_of_le le, start, ?_⟩
      intro l ge le
      rcases Nat.le_or_eq_of_le_succ le with le | rfl
      · exact since l ge le
      · exact ⟨i, b, here, inside⟩
    · obtain ⟨_, rfl⟩ := respects.entered stayed inside
      refine ⟨n + 1, Nat.le_refl _, ⟨b, here⟩, ?_⟩
      intro l ge le
      cases Nat.le_antisymm le ge
      exact ⟨i, b, here, inside⟩

theorem StandsAt.left (here : m.StandsAt o k i b) (inside : Within s e i) (later : k ≤ n)
    (gone : m.StandsAt o n j c) (outside : ¬ Within s e j) :
    ∃ l, k ≤ l ∧ l < n ∧ m.StandsAt o l e 0 ∧ m.StandsAt o (l + 1) (e + 1) 0 := by
  induction n generalizing j c with
  | zero =>
    cases Nat.le_zero.mp later
    obtain ⟨rfl, _⟩ := here.unique gone
    exact absurd inside outside
  | succ n ih =>
    rcases Nat.le_or_eq_of_le_succ later with le | rfl
    · obtain ⟨k', d, before⟩ := gone.pred armed
      by_cases still : Within s e k'
      · obtain ⟨rfl, rfl, rfl, rfl⟩ := (before.respects armed linked loop gone).left still outside
        exact ⟨n, le, Nat.lt_succ_self n, before, gone⟩
      · obtain ⟨l, ge, lt, found⟩ := ih le before still
        exact ⟨l, ge, Nat.lt_succ_of_lt lt, found⟩
    · obtain ⟨rfl, _⟩ := here.unique gone
      exact absurd inside outside

end

/-- Control flow is block structured. In any run of a compiled program from its first instruction,
whatever watches over the run and whatever tape and streams it starts with, what is handed out is
the instruction at the index where the run stands, and from one index to the next each loop is
respected: it is entered at its start only and left behind its end only, where the cell under the
pointer is zero; from its start control goes to its end on a zero, else on to the next instruction;
and from its end it goes on on a zero, else back to its start. In a loop of nothing the end is the
next instruction. Hence a run that stands inside a loop came in at its start, and between a time
inside the loop and a later one outside it the end was passed on a zero. -/
theorem control_flow_is_block_structured {source : Source} {bytes : List UInt8}
    (read : source.read = .ok bytes) (compiled : compile source = .ok m.program)
    (ip : m.ip = some 0) (o : RunOptions) (loop : Brackets (opsOf bytes) s e) :
    m.program.instructions[s]? = some ⟨.op .loopStart, some (e : Int)⟩ ∧
    m.program.instructions[e]? = some ⟨.op .loopEnd, some (s : Int)⟩ ∧
    (∀ n x, Loop.after turn n (m.arm o) = some x →
      ∃ k ≤ m.program.length, m.StandsAt o n k x.config.tape.cell ∧ x.HandsOut k) ∧
    (∀ n i j b c, m.StandsAt o n i b → m.StandsAt o (n + 1) j c → Respects s e i j b c) ∧
    (∀ n i b, m.StandsAt o n i b → Within s e i → m.Entered o s e n) ∧
    ∀ k n i j b c, m.StandsAt o k i b → Within s e i → k ≤ n → m.StandsAt o n j c →
      ¬ Within s e j →
        ∃ l, k ≤ l ∧ l < n ∧ m.StandsAt o l e 0 ∧ m.StandsAt o (l + 1) (e + 1) 0 := by
  obtain ⟨bytes', b, read', spelled, encodes⟩ := compile_encodes compiled
  cases read.symm.trans read'
  have linked := encodes.linked
  rw [spelled] at linked
  have safe : m.Safe := ⟨linked.sound, 0, ip, Nat.zero_le _⟩
  have armed := (safe.arm_later o).safe
  obtain ⟨start, finish⟩ := linked.links loop
  refine ⟨start, finish, fun n x => armed.stands, ?_, ?_, ?_⟩
  · intro n i j b c here next
    exact here.respects armed linked loop next
  · intro n i b here inside
    exact here.entered armed linked loop ip inside
  · intro k n i j b c here inside later gone outside
    exact here.left armed linked loop inside later gone outside

/-- A loop in a loop is left on the zero that it has counted down to, and leads to the end of the
loop around it. -/
theorem inner_loop_is_left_on_zero :
    ∃ m : Machine, (Source.text "+[[-]]").read = .ok [0x2B, 0x5B, 0x5B, 0x2D, 0x5D, 0x5D] ∧
      compile (.text "+[[-]]") = .ok m.program ∧ m.ip = some 0 ∧
      Brackets (opsOf [0x2B, 0x5B, 0x5B, 0x2D, 0x5D, 0x5D]) 2 4 ∧
      m.StandsAt {} 2 2 1 ∧ m.StandsAt {} 4 4 0 ∧ m.StandsAt {} 5 5 0 ∧ Respects 2 4 4 5 0 0 := by
  obtain ⟨p, compiled⟩ : ∃ p, compile (.text "+[[-]]") = .ok p := ⟨_, rfl⟩
  have read : (Source.text "+[[-]]").read = .ok [0x2B, 0x5B, 0x5B, 0x2D, 0x5D, 0x5D] := rfl
  let m : Machine := onTape p .blank (.ofBytes []) .reliable
  have loop : Brackets (opsOf [0x2B, 0x5B, 0x5B, 0x2D, 0x5D, 0x5D]) 2 4 := by
    refine ⟨rfl, rfl, by decide, ?_⟩
    exact (Block.act .decrement .done).balanced_ops
  obtain ⟨first, last, gone⟩ : m.StandsAt {} 2 2 1 ∧ m.StandsAt {} 4 4 0 ∧ m.StandsAt {} 5 5 0 := by
    cases compiled
    refine ⟨⟨_, rfl, rfl, by decide +kernel⟩, ⟨_, rfl, rfl, by decide +kernel⟩, ?_⟩
    exact ⟨(Loop.after turn 5 (m.arm {})).get (by decide +kernel), (Option.some_get _).symm,
      by decide +kernel, by decide +kernel⟩
  obtain ⟨_, _, _, respects, _⟩ :=
    control_flow_is_block_structured (m := m) read compiled rfl {} loop
  exact ⟨m, read, compiled, rfl, loop, first, last, gone, respects 4 4 5 0 0 last gone⟩

end Machine
end TapeMachine
