import TapeMachine.Proofs.ShellTurns

/-! Sessions at the shell. Every line is used once, every session comes to an end at which nothing
has gone wrong, and what is kept is what the entries have made of it, one after the other. -/

namespace TapeMachine.Shell

/-- What is kept after lines were used, one use after the other. -/
inductive History (limit : Option Float) (k : Keep) : List Use → Keep → Prop
  | start : History limit k [] k
  | next {uses : List Use} {use : Use} {k' k'' : Keep} (before : History limit k uses k')
      (handled : Handled limit k' use k'') : History limit k (uses ++ [use]) k''

/-- The shells from one prompt to another. -/
inductive Reaches (s : Shell) : Shell → Prop
  | start : Reaches s s
  | turn {t u : Shell} {fuel : Nat} (before : Reaches s t) (turned : t.turn fuel = .again u) :
      Reaches s u

/-- Every run ends that the next line starts. -/
def Ends (limit : Option Float) (s : Shell) : Prop :=
  ∀ u text p, s.entry? = some (u, text) → compile (.text text) = .ok p →
    ∃ o, (u.machineFor p).RunEnds { timeout := limit } o

variable {s t u : Shell} {limit : Option Float} {fuel more : Nat} {text : String}

theorem Reaches.first (turned : s.turn fuel = .again u) (reaches : u.Reaches t) : s.Reaches t := by
  induction reaches with
  | start => exact .turn .start turned
  | turn _ turned' ih => exact .turn ih turned'

/-! ## What is used, and what is kept -/

/-- How a shell at its prompt has come about. -/
structure Since (limit : Option Float) (s : Shell) (uses : List Use) (t : Shell) : Prop where
  prompting : t.Prompting limit
  history : History limit s.keep uses t.keep
  typed : Console.lines s.console.pending =
    uses.flatMap Use.lines ++ t.lines.reverse ++ Console.lines t.console.pending

theorem Since.came {uses : List Use} (h : Since limit s uses t) (came : Came limit t u)
    (prompting : u.Prompting limit) : ∃ uses, Since limit s uses u := by
  cases came with
  | joined typed lines keep =>
    refine ⟨uses, prompting, ?_, ?_⟩
    · rw [keep]
      exact h.history
    · rw [h.typed, typed, lines, List.reverse_cons]
      simp
  | @used use typed _ lines handled =>
    refine ⟨uses ++ [use], prompting, .next h.history handled, ?_⟩
    rw [h.typed, List.append_assoc, typed, lines]
    simp

theorem Reaches.since (reaches : s.Reaches t) (h : s.Prompting limit) (fresh : s.lines = []) :
    ∃ uses, Since limit s uses t := by
  induction reaches with
  | start =>
    refine ⟨[], h, .start, ?_⟩
    rw [fresh]
    rfl
  | @turn t u fuel _ turned ih =>
    obtain ⟨uses, since⟩ := ih
    have came := since.prompting.turn fuel
    rw [turned] at came
    cases came with
    | again came prompting => exact since.came came prompting

/-- A line that completes no entry is answered, within any number of turns alike. -/
theorem turn_unbounded (none : t.entry? = none) :
    ∃ r, (∀ fuel, t.turn fuel = r) ∧ r ≠ .done Option.none := by
  unfold entry? at none
  unfold turn
  generalize t.console.ask t.prompt = answer at none ⊢
  obtain ⟨answer, c⟩ := answer
  cases answer with
  | ended | interrupted => exact ⟨_, fun _ => rfl, by intro lost; cases lost⟩
  | line line =>
    simp only at none ⊢
    have waits (deeper : 0 < (t.withConsole c).depth + surplus line) :
        ∃ r, (∀ fuel, (t.withConsole c).acceptLine fuel line = r) ∧ r ≠ .done Option.none := by
      simp only [acceptLine, if_pos deeper]
      exact ⟨_, fun _ => rfl, by intro lost; cases lost⟩
    by_cases fresh : (t.withConsole c).lines.isEmpty = true
    · simp only [fresh, if_true]
      cases word : Word.ofLine line with
      | quit | tape | reset | blank => exact ⟨_, fun _ => rfl, by intro lost; cases lost⟩
      | code =>
        by_cases deeper : 0 < (t.withConsole c).depth + surplus line
        · exact waits deeper
        · simp [word, deeper] at none
    · simp only [fresh]
      by_cases deeper : 0 < (t.withConsole c).depth + surplus line
      · exact waits deeper
      · simp [fresh, deeper] at none

theorem settle_ne_lost (s : Shell) (r : Except Fault Unit) (output : List UInt8) :
    s.settle r output ≠ .done none := by
  unfold settle
  cases r with
  | ok => exact nofun
  | error f =>
    simp only
    split
    · exact nofun
    · exact nofun

/-- A run that comes out within so many turns comes out so within more. -/
theorem run_mono {m : Machine} {o : RunOptions} {outcome : Machine.RunOutcome}
    (ran : m.run fuel o = some outcome) (le : fuel ≤ more) : m.run more o = some outcome := by
  rw [Machine.run] at ran ⊢
  by_cases ready : m.state = .ready
  · rw [if_pos ready, Machine.drive, Option.map_eq_some_iff] at ran
    obtain ⟨answer, ended, same⟩ := ran
    rw [if_pos ready, Machine.drive, Loop.turns_mono _ le ended, ← same]
    rfl
  · rw [if_neg ready] at ran ⊢
    exact ran

theorem submit_mono (answered : u.submit fuel text ≠ .done none) (le : fuel ≤ more) :
    u.submit more text = u.submit fuel text := by
  unfold submit at answered ⊢
  cases compiled : compile (.text text) with
  | error f => rfl
  | ok p =>
    rw [compiled] at answered
    cases timed : u.options.timeout with
    | error f => rfl
    | ok timeout =>
      rw [timed] at answered
      simp only at answered ⊢
      cases ran : (u.machineFor p).run fuel { timeout } with
      | none =>
        rw [ran] at answered
        exact absurd rfl answered
      | some o => rw [run_mono ran le]

/-- A turn that is answered is answered so within more turns of its machine. -/
theorem turn_mono (answered : t.turn fuel ≠ .done none) (le : fuel ≤ more) :
    t.turn more = t.turn fuel := by
  cases typed : t.entry? with
  | none =>
    obtain ⟨r, same, _⟩ := turn_unbounded typed
    rw [same, same]
  | some entry =>
    obtain ⟨u, text⟩ := entry
    rw [(turn_entry typed).1] at answered ⊢
    rw [(turn_entry typed).1]
    exact submit_mono answered le

/-- A turn has one answer at most. -/
theorem turn_unique (answered : t.turn fuel ≠ .done none) (answered' : t.turn more ≠ .done none) :
    t.turn fuel = t.turn more := by
  rcases Nat.le_total fuel more with le | le
  · exact (turn_mono answered le).symm
  · exact turn_mono answered' le

theorem Reaches.onward (reaches : s.Reaches t) (turned : s.turn fuel = .again u) :
    t = s ∨ u.Reaches t := by
  induction reaches with
  | start => exact .inl rfl
  | @turn t v more _ turned' ih =>
    right
    rcases ih with rfl | further
    · have same := @turn_unique t fuel more (by rw [turned]; nofun) (by rw [turned']; nofun)
      rw [turned, turned'] at same
      cases same
      exact .start
    · exact .turn further turned'

theorem Reaches.last {e : Option Fault × Shell} (reaches : s.Reaches t)
    (ended : s.turn fuel = .done (some e)) : t = s := by
  induction reaches with
  | start => rfl
  | @turn t v more _ turned ih =>
    subst ih
    have same := @turn_unique t fuel more (by rw [ended]; nofun) (by rw [turned]; nofun)
    rw [ended, turned] at same
    cases same

theorem entry_options (typed : t.entry? = some (u, text)) : u.options = t.options := by
  unfold entry? at typed
  generalize t.console.ask t.prompt = answer at typed
  obtain ⟨answer, c⟩ := answer
  cases answer with
  | ended | interrupted => cases typed
  | line line =>
    simp only at typed
    split at typed
    · cases typed
    · split at typed
      · cases typed
      · cases typed
        rfl

/-- Where the run ends that a line starts, the line is answered. -/
theorem Prompting.answers (h : s.Prompting limit) (ends : s.Ends limit) :
    ∃ fuel, s.turn fuel ≠ .done none := by
  cases typed : s.entry? with
  | none =>
    obtain ⟨r, same, answered⟩ := turn_unbounded typed
    refine ⟨0, ?_⟩
    rw [same]
    exact answered
  | some entry =>
    obtain ⟨u, text⟩ := entry
    cases compiled : compile (.text text) with
    | error f =>
      refine ⟨0, ?_⟩
      rw [(turn_entry typed).1]
      simp only [Shell.submit, compiled]
      exact settle_ne_lost _ _ _
    | ok p =>
      obtain ⟨o, fuel, ran⟩ := ends u text p typed compiled
      have timed : u.options.timeout = .ok limit := by
        rw [entry_options typed]
        exact h.timed
      refine ⟨fuel, ?_⟩
      rw [(turn_entry typed).1]
      simp only [Shell.submit, compiled, timed, ran]
      exact settle_ne_lost _ _ _

end TapeMachine.Shell
