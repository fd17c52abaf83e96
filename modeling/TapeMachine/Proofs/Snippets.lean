import TapeMachine.Proofs.Correctness
import TapeMachine.Proofs.Outcomes
import TapeMachine.Proofs.Relocation

/-! Running one program behind another as one program, and running them one after the other, the
second on a new machine that is given the tape and the streams the first one left. Both come to the
same: the program in front runs as it does alone, and where it ends, the one behind runs as it does
from there, with every index moved. -/

namespace TapeMachine

/-- Ticks up to the end of the program, or up to one that fails: how many succeed, what comes of
them, and the configuration they leave. -/
inductive Config.Ends (p : Program) : Config → Nat → Except Fault Unit → Config → Prop
  | finish {c : Config} (ip : c.ip = some (p.length : Int)) : Ends p c 0 (.ok ()) c
  | fault {c d : Config} {k : Nat} {f : Fault} (ip : c.ip = some (k : Int)) (lt : k < p.length)
      (tick : c.tick p = (.error f, d)) : Ends p c 0 (.error f) d
  | next {c d e : Config} {k n : Nat} {r : Except Fault Unit} (ip : c.ip = some (k : Int))
      (lt : k < p.length) (tick : c.tick p = (.ok (), d)) (rest : Ends p d n r e) :
      Ends p c (n + 1) r e

namespace Config

variable {p q w : Program} {c d e : Config} {n : Nat} {r : Except Fault Unit} {f : Fault}

theorem Ends.ip_end (ends : Ends p c n r e) (finished : r = .ok ()) :
    e.ip = some (p.length : Int) := by
  induction ends with
  | finish ip => exact ip
  | fault => cases finished
  | next _ _ _ _ ih => exact ih finished

theorem ip_shift {k : Nat} (ip : c.ip = some (k : Int)) (d : Nat) :
    (c.shift d).ip = some ((k + d : Nat) : Int) := by
  rw [shift, jump, ip]
  rfl

/-- The index behind the moved one tells the one that was moved. -/
theorem ip_of_shift {k i d : Nat} (ip : c.ip = some (k : Int))
    (moved : (c.shift d).ip = some (i : Int)) : k + d = i := by
  rw [ip_shift ip] at moved
  exact Int.ofNat_inj.mp (Option.some.inj moved)

/-- Any index is the start, moved. -/
theorem shift_start {d : Nat} (ip : c.ip = some (d : Int)) : (c.jump (some 0)).shift d = c := by
  obtain ⟨tape, index, input, output⟩ := c
  cases ip
  simp [shift, jump]

/-! ## Programs one behind the other -/

section Joined

variable (joined : p.Joins q w)
include joined

/-- The program in front fails as it does alone. -/
theorem Ends.front_error (sound : p.Sound) (ends : Ends p c n r e) (failed : r = .error f) :
    Ends w c n r e := by
  have short : p.length ≤ w.length := by
    rw [joined.length]
    exact Nat.le_add_right _ _
  induction ends with
  | finish => cases failed
  | fault ip lt tick =>
    rw [← tick_front joined sound ip lt] at tick
    exact .fault ip (Nat.lt_of_lt_of_le lt short) tick
  | next ip lt tick _ ih =>
    rw [← tick_front joined sound ip lt] at tick
    exact .next ip (Nat.lt_of_lt_of_le lt short) tick (ih failed)

/-- Where the program in front ends, it goes on behind it. -/
theorem Ends.front_ok (sound : p.Sound) (ends : Ends p c n r d) (finished : r = .ok ())
    {more : Nat} {r' : Except Fault Unit} (behind : Ends w d more r' e) :
    Ends w c (n + more) r' e := by
  have short : p.length ≤ w.length := by
    rw [joined.length]
    exact Nat.le_add_right _ _
  induction ends with
  | finish =>
    rw [Nat.zero_add]
    exact behind
  | fault => cases finished
  | next ip lt tick _ ih =>
    rw [← tick_front joined sound ip lt] at tick
    rw [Nat.add_right_comm]
    exact .next ip (Nat.lt_of_lt_of_le lt short) tick (ih finished behind)

theorem Ends.back (sound : q.Sound) (ends : Ends q c n r e) :
    Ends w (c.shift p.length) n (r.mapError (Fault.shift p.length)) (e.shift p.length) := by
  induction ends with
  | finish ip =>
    refine .finish ?_
    rw [ip_shift ip, joined.length, Nat.add_comm]
  | fault ip lt tick =>
    refine .fault (ip_shift ip _) (by rw [joined.length]; omega) ?_
    rw [tick_back joined sound ip lt, tick]
    rfl
  | next ip lt tick _ ih =>
    refine .next (ip_shift ip _) (by rw [joined.length]; omega) ?_ ih
    rw [tick_back joined sound ip lt, tick]
    rfl

/-- Where an instruction of the whole stands behind the front, it is one of the program behind. -/
theorem inside_back (inside : c.Inside q) {i : Nat}
    (ip : (c.shift p.length).ip = some (i : Int)) (lt : i < w.length) :
    ∃ k : Nat, c.ip = some (k : Int) ∧ k < q.length := by
  obtain ⟨k, here, _⟩ := inside
  have moved := ip_of_shift here ip
  rw [joined.length] at lt
  exact ⟨k, here, by omega⟩

theorem Ends.of_back (sound : q.Sound) (inside : c.Inside q)
    (ends : Ends w (c.shift p.length) n r e) :
    ∃ r' e', Ends q c n r' e' ∧ r = r'.mapError (Fault.shift p.length) ∧
      e = e'.shift p.length := by
  generalize moved : c.shift p.length = d at ends
  induction ends generalizing c with
  | finish ip =>
    subst moved
    obtain ⟨k, here, le⟩ := inside
    have last : k = q.length := by
      have := ip_of_shift here ip
      rw [joined.length] at this
      omega
    subst last
    exact ⟨_, _, .finish here, rfl, rfl⟩
  | fault ip lt tick =>
    subst moved
    obtain ⟨k, here, lt⟩ := inside_back joined inside ip lt
    rw [tick_back joined sound here lt] at tick
    cases ticked : c.tick q with
    | mk result c' =>
      rw [ticked] at tick
      cases result with
      | ok => cases tick
      | error f =>
        cases tick
        exact ⟨_, _, .fault here lt ticked, rfl, rfl⟩
  | next ip lt tick _ ih =>
    subst moved
    obtain ⟨k, here, lt⟩ := inside_back joined inside ip lt
    have further := tick_inside sound inside
    rw [tick_back joined sound here lt] at tick
    cases ticked : c.tick q with
    | mk result c' =>
      rw [ticked] at tick further
      cases result with
      | error f => cases tick
      | ok =>
        cases tick
        obtain ⟨r', e', rest, rfl, rfl⟩ := ih further rfl
        exact ⟨_, _, .next here lt ticked rest, rfl, rfl⟩

/-- Either the program in front fails, or it ends and the rest is left to the one behind. -/
theorem Ends.split (sound : p.Sound) (inside : c.Inside p) (ends : Ends w c n r e) :
    (∃ f, r = .error f ∧ Ends p c n r e) ∨
      ∃ first more d, n = first + more ∧ Ends p c first (.ok ()) d ∧ Ends w d more r e := by
  -- by the ticks up to the first that starts at the end of the program in front
  induction ends with
  | finish ip =>
    right
    obtain ⟨k, here, le⟩ := inside
    rw [here, joined.length] at ip
    have last : k = p.length := by
      have := Option.some.inj ip
      omega
    subst last
    refine ⟨0, 0, _, rfl, .finish here, .finish ?_⟩
    rw [here, joined.length, ip]
  | fault ip lt tick =>
    obtain ⟨k, here, le⟩ := inside
    rcases Nat.lt_or_eq_of_le le with lt' | rfl
    · left
      rw [tick_front joined sound here lt'] at tick
      exact ⟨_, rfl, .fault here lt' tick⟩
    · exact .inr ⟨0, 0, _, rfl, .finish here, .fault ip lt tick⟩
  | @next _ _ _ _ n _ ip lt tick rest ih =>
    have further := tick_inside sound inside
    obtain ⟨k, here, le⟩ := inside
    rcases Nat.lt_or_eq_of_le le with lt' | rfl
    · rw [tick_front joined sound here lt'] at tick
      rw [tick] at further
      rcases ih further with ⟨f, failed, ends⟩ | ⟨first, more, d, rfl, ends, behind⟩
      · exact .inl ⟨f, failed, .next here lt' tick ends⟩
      · exact .inr ⟨first + 1, more, d, Nat.add_right_comm _ _ _, .next here lt' tick ends, behind⟩
    · exact .inr ⟨0, n + 1, _, (Nat.zero_add _).symm, .finish here, .next ip lt tick rest⟩

/-- One program behind another ends as the one in front does, if that fails, and otherwise as the
one behind does from there. -/
theorem ends_joined (front : p.Sound) (back : q.Sound) (inside : c.Inside p) :
    Ends w c n r e ↔
      (∃ f, r = .error f ∧ Ends p c n r e) ∨
        ∃ first more d r' e', n = first + more ∧ Ends p c first (.ok ()) d ∧
          Ends q (d.jump (some 0)) more r' e' ∧ r = r'.mapError (Fault.shift p.length) ∧
          e = e'.shift p.length := by
  constructor
  · intro ends
    rcases ends.split joined front inside with failed | ⟨first, more, d, steps, ends, behind⟩
    · exact .inl failed
    · rw [← shift_start (ends.ip_end rfl)] at behind
      obtain ⟨r', e', behind, result, left⟩ :=
        behind.of_back joined back ⟨0, rfl, Nat.zero_le _⟩
      exact .inr ⟨first, more, d, r', e', steps, ends, behind, result, left⟩
  · rintro (⟨f, failed, ends⟩ | ⟨first, more, d, r', e', rfl, ends, behind, rfl, rfl⟩)
    · exact ends.front_error joined front failed
    · have moved := behind.back joined back
      rw [shift_start (ends.ip_end rfl)] at moved
      exact ends.front_ok joined front rfl moved

end Joined

end Config

namespace Machine

/-- What is left of a run: its result, tape, streams and index, the count of its steps, and its
state. -/
@[ext]
structure Ending where
  result : Except Fault Unit
  config : Config
  steps : Nat
  state : RunState

def RunOutcome.ending (o : RunOutcome) : Ending :=
  ⟨o.result, o.machine.config, o.machine.steps, o.machine.state⟩

/-- How two runs one after the other end as one, where the code of the second stands `d`
further on. -/
def Ending.join (d : Nat) (first second : Ending) : Ending :=
  { result := second.result.mapError (Fault.shift d)
    config := second.config.shift d
    steps := first.steps + second.steps
    state := second.state }

/-- The state in which a run leaves its machine. -/
def lastState : Except Fault Unit → RunState
  | .ok () => .completed
  | .error f => f.aftermath.getD .running

theorem lastState_shift (d : Nat) (r : Except Fault Unit) :
    lastState (r.mapError (Fault.shift d)) = lastState r := by
  rcases r with f | ⟨⟩
  · change (f.shift d).aftermath.getD .running = _
    rw [Fault.aftermath_shift]
    rfl
  · rfl

/-- A machine for a program, on the tape and the streams that another machine has left. -/
def successor (m : Machine) (q : Program) : Except Fault Machine :=
  create q m.config.tape.cells m.config.tape.pointer m.config.input m.config.output

/-- How a run of two programs as one ends, told by runs of the two one after the other. -/
inductive Piecewise (m : Machine) (q : Program) : Ending → Prop
  | stopped {o : RunOutcome} {f : Fault} (first : m.RunEnds {} o) (failed : o.result = .error f) :
      Piecewise m q o.ending
  | continued {o o' : RunOutcome} {m' : Machine} (first : m.RunEnds {} o)
      (completed : o.result = .ok ()) (seeded : o.machine.successor q = .ok m')
      (second : m'.RunEnds {} o') :
      Piecewise m q (.join m.program.length o.ending o'.ending)

/-! ## Plain runs, by ticks -/

namespace Plain

variable {m e : Machine} {c : Config} {n fuel : Nat} {r : Except Fault Unit}

theorem ends_of_turns (plain : m.Plain) (ended : Loop.turns turn fuel m = some (r, e)) :
    ∃ n, m.config.Ends m.program n r e.config ∧ e.steps = m.steps + n ∧
      e.state = lastState r := by
  induction fuel generalizing m with
  | zero => cases ended
  | succ fuel ih =>
    have turned := plain.turned
    have index : ∃ k : Nat, m.config.ip = some (k : Int) ∧ k ≤ m.program.length ∧
        m.more = decide (k < m.program.length) := by
      obtain ⟨k, ip, le⟩ := plain.inside
      exact ⟨k, ip, le, more_linear plain.linear ip⟩
    obtain ⟨k, ip, le, told⟩ := index
    rw [Loop.turns] at ended
    generalize m.turn = taken at turned ended
    cases turned with
    | finished spent =>
      cases ended
      rw [told] at spent
      have last : k = m.program.length := Nat.le_antisymm le (by simpa using spent)
      subst last
      exact ⟨0, .finish ip, rfl, rfl⟩
    | failed more tick steps state =>
      cases ended
      rw [told] at more
      exact ⟨0, .fault ip (of_decide_eq_true more) tick, steps, state⟩
    | executed more tick plain' program steps state =>
      rw [told] at more
      obtain ⟨n, ends, steps', state'⟩ := ih plain' ended
      rw [program] at ends
      exact ⟨n + 1, .next ip (of_decide_eq_true more) tick ends, by omega, state'⟩

theorem turns_of_ends (plain : m.Plain) (ends : m.config.Ends m.program n r c) :
    ∃ e, Loop.Ends turn m (r, e) ∧ e.config = c ∧ e.steps = m.steps + n ∧
      e.state = lastState r := by
  generalize start : m.config = b, whole : m.program = p at ends
  induction ends generalizing m with
  | finish ip =>
    subst start whole
    have spent : m.more = false := by
      rw [more_linear plain.linear ip]
      simp
    refine ⟨m.complete, ⟨1, ?_⟩, rfl, rfl, rfl⟩
    rw [Loop.turns, turn_over plain.toSafe spent]
  | fault ip lt tick =>
    subst start whole
    have more : m.more = true := by
      rw [more_linear plain.linear ip]
      exact decide_eq_true lt
    obtain ⟨e, turned, _, config, steps, state⟩ := plain.turn_fault more tick
    refine ⟨e.fail _, ⟨1, by rw [Loop.turns, turned]⟩, config, steps, ?_⟩
    change (Fault.aftermath _).getD e.state = _
    rw [state]
    rfl
  | next ip lt tick _ ih =>
    subst start whole
    obtain ⟨m', turned, plain', program, config, steps⟩ := plain.turn_tick tick
    obtain ⟨e, ⟨fuel, ended⟩, config', steps', state⟩ := ih plain' config program
    refine ⟨e, ⟨fuel + 1, ?_⟩, config', by omega, state⟩
    rw [Loop.turns, turned]
    exact ended

end Plain

/-- A run of a sound program ends as its ticks do. -/
theorem runEnds_onTape {p : Program} (sound : p.Sound) (tape : Tape) (input : Input)
    (output : Output) (e : Ending) :
    (∃ o, (onTape p tape input output).RunEnds {} o ∧ o.ending = e) ↔
      (onTape p tape input output).config.Ends p e.steps e.result e.config ∧
        e.state = lastState e.result := by
  have plain := plain_onTape sound tape input output
  constructor
  · rintro ⟨o, ⟨fuel, ran⟩, rfl⟩
    rw [run_onTape, Option.map_eq_some_iff] at ran
    obtain ⟨⟨r, m⟩, ended, rfl⟩ := ran
    obtain ⟨n, ends, steps, state⟩ := plain.ends_of_turns ended
    have steps : m.steps = n := steps.trans (Nat.zero_add n)
    subst steps
    exact ⟨ends, state⟩
  · obtain ⟨r, c, n, state⟩ := e
    rintro ⟨ends, last⟩
    obtain ⟨m, ⟨fuel, ended⟩, rfl, steps, state'⟩ := plain.turns_of_ends ends
    have steps : m.steps = n := steps.trans (Nat.zero_add n)
    refine ⟨conclude false r m, ⟨fuel, ?_⟩, ?_⟩
    · rw [run_onTape, ended]
      rfl
    · change (⟨r, m.config, m.steps, m.state⟩ : Ending) = _
      rw [steps, state', ← last]

/-! ## Runs of programs one behind the other -/

section Joined

variable {p q w : Program}

theorem ends_piecewise (joined : p.Joins q w) (front : p.Sound) (back : q.Sound)
    (whole : w.Sound) (tape : Tape) (input : Input) (output : Output) (e : Ending) :
    (∃ o, (onTape w tape input output).RunEnds {} o ∧ o.ending = e) ↔
      (onTape p tape input output).Piecewise q e := by
  have inside : (onTape p tape input output).config.Inside p := ⟨0, rfl, Nat.zero_le _⟩
  have splits := @Config.ends_joined _ _ _ (onTape p tape input output).config e.config e.steps
    e.result joined front back inside
  rw [runEnds_onTape whole]
  change (onTape p tape input output).config.Ends w _ _ _ ∧ _ ↔ _
  rw [splits]
  constructor
  · rintro ⟨⟨f, failed, ends⟩ | ⟨first, more, d, r', e', steps, ends, behind, result, config⟩,
      state⟩
    · obtain ⟨o, ran, rfl⟩ := (runEnds_onTape front tape input output e).mpr ⟨ends, state⟩
      exact .stopped ran failed
    · obtain ⟨o, ran, left⟩ :=
        (runEnds_onTape front tape input output ⟨.ok (), d, first, .completed⟩).mpr ⟨ends, rfl⟩
      obtain ⟨o', ran', left'⟩ :=
        (runEnds_onTape back d.tape d.input d.output ⟨r', e', more, lastState r'⟩).mpr
          ⟨behind, rfl⟩
      have completed : o.result = .ok () := congrArg Ending.result left
      have config₁ : o.machine.config = d := congrArg Ending.config left
      have seeded : o.machine.successor q = .ok (onTape q d.tape d.input d.output) := by
        rw [successor, config₁, create_cells]
      have same : e = .join p.length o.ending o'.ending := by
        rw [left, left']
        refine Ending.ext result config steps ?_
        rw [state, result, lastState_shift]
        rfl
      rw [same]
      exact .continued ran completed seeded ran'
  · intro pieces
    cases pieces with
    | stopped ran failed =>
      obtain ⟨ends, state⟩ := (runEnds_onTape front tape input output _).mp ⟨_, ran, rfl⟩
      exact ⟨.inl ⟨_, failed, ends⟩, state⟩
    | @continued o o' m' ran completed seeded ran' =>
      obtain ⟨ends, state⟩ := (runEnds_onTape front tape input output _).mp ⟨_, ran, rfl⟩
      rw [successor, create_cells] at seeded
      cases seeded
      obtain ⟨behind, state'⟩ := (runEnds_onTape back _ _ _ _).mp ⟨_, ran', rfl⟩
      refine ⟨.inr ⟨_, _, _, _, _, rfl, ?_, behind, rfl, rfl⟩, ?_⟩
      · rw [← completed]
        exact ends
      · exact state'.trans (lastState_shift p.length o'.result).symm

/-- Running a machine is running another, and then one for a second program on what that one has
left. -/
structure RunsAs (w m : Machine) (q : Program) : Prop where
  ends : ∀ e, (∃ o, w.RunEnds {} o ∧ o.ending = e) ↔ m.Piecewise q e
  diverges : (∀ fuel, w.run fuel {} = none) ↔
    (∀ fuel, m.run fuel {} = none) ∨
      ∃ o m', m.RunEnds {} o ∧ o.result = .ok () ∧ o.machine.successor q = .ok m' ∧
        ∀ fuel, m'.run fuel {} = none

theorem run_diverges_iff {m : Machine} {o : RunOptions} :
    (∀ fuel, m.run fuel o = none) ↔ ¬ ∃ outcome, m.RunEnds o outcome := by
  constructor
  · rintro never ⟨outcome, fuel, ran⟩
    rw [never fuel] at ran
    cases ran
  · intro never fuel
    cases ran : m.run fuel o with
    | none => rfl
    | some outcome => exact absurd ⟨outcome, fuel, ran⟩ never

theorem runsAs_joined (joined : p.Joins q w) (front : p.Sound) (back : q.Sound)
    (whole : w.Sound) (tape : Tape) (input : Input) (output : Output) :
    (onTape w tape input output).RunsAs (onTape p tape input output) q := by
  have ends := ends_piecewise joined front back whole tape input output
  refine ⟨ends, ?_⟩
  generalize onTape w tape input output = v, onTape p tape input output = m at ends
  constructor
  · intro never
    have never := run_diverges_iff.mp never
    by_cases first : ∃ o, m.RunEnds {} o
    · right
      obtain ⟨o, first⟩ := first
      have seeded : o.machine.successor q = .ok _ := create_cells q _ _ _
      cases result : o.result with
      | error f =>
        obtain ⟨o', ended, _⟩ := (ends o.ending).mpr (.stopped first result)
        exact absurd ⟨o', ended⟩ never
      | ok =>
        refine ⟨o, _, first, result, seeded, run_diverges_iff.mpr ?_⟩
        rintro ⟨o', second⟩
        obtain ⟨o'', ended, _⟩ := (ends _).mpr (.continued first result seeded second)
        exact never ⟨o'', ended⟩
    · exact .inl (run_diverges_iff.mpr first)
  · intro parts
    rw [run_diverges_iff]
    rintro ⟨o, ended⟩
    have pieces := (ends o.ending).mp ⟨o, ended, rfl⟩
    generalize o.ending = e at pieces
    rcases parts with never | ⟨o₁, m', first, completed, seeded, never⟩
    · have never := run_diverges_iff.mp never
      cases pieces with
      | stopped first _ => exact never ⟨_, first⟩
      | continued first _ _ _ => exact never ⟨_, first⟩
    · have never := run_diverges_iff.mp never
      cases pieces with
      | stopped again failed =>
        rw [runEnds_unique again first, completed] at failed
        cases failed
      | continued again _ seeded' second =>
        rw [runEnds_unique again first, seeded] at seeded'
        cases seeded'
        exact never ⟨_, second⟩

end Joined
end Machine
end TapeMachine
