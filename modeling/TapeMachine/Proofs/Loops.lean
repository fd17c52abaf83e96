import TapeMachine.Loop

/-! Loops seen from within: the state after so many turns, what an observer sees turn by turn,
and loops whose turns correspond, which end or diverge together. -/

namespace TapeMachine

/-- Two turns that correspond: both go on, from states related by `R`, or both answer, with
answers related by `Q`. -/
inductive Turn.Rel {σ ρ τ κ : Type} (R : σ → τ → Prop) (Q : ρ → κ → Prop) :
    Turn σ ρ → Turn τ κ → Prop
  | again {s : σ} {t : τ} (h : R s t) : Turn.Rel R Q (.again s) (.again t)
  | done {r : ρ} {q : κ} (h : Q r q) : Turn.Rel R Q (.done r) (.done q)

/-- A turn that keeps a property of states: it goes on from a state that has it, or gives an
answer that has the other. -/
inductive Turn.Keeps {σ ρ : Type} (P : σ → Prop) (Q : ρ → Prop) : Turn σ ρ → Prop
  | again {s : σ} (h : P s) : Turn.Keeps P Q (.again s)
  | done {r : ρ} (h : Q r) : Turn.Keeps P Q (.done r)

namespace Loop

variable {σ ρ τ κ α : Type}

/-- The state after `n` turns, if the loop has not answered by then. -/
def after (turn : σ → Turn σ ρ) : Nat → σ → Option σ
  | 0, s => some s
  | n + 1, s =>
    match turn s with
    | .again t => after turn n t
    | .done _ => none

/-- What is seen after `n` turns: the state, or the answer from the time there is one. -/
def seen (look : σ → α) (close : ρ → α) (turn : σ → Turn σ ρ) : Nat → σ → α
  | 0, s => look s
  | n + 1, s =>
    match turn s with
    | .again t => seen look close turn n t
    | .done r => close r

/-- The states from which turns are taken, as many as there are, in order. -/
def path (turn : σ → Turn σ ρ) : Nat → σ → List σ
  | 0, _ => []
  | n + 1, s =>
    s :: match turn s with
      | .again t => path turn n t
      | .done _ => []

theorem after_add (turn : σ → Turn σ ρ) {n : Nat} (k : Nat) {s t : σ}
    (h : after turn n s = some t) : after turn (n + k) s = after turn k t := by
  induction n generalizing s with
  | zero =>
    cases h
    rw [Nat.zero_add]
  | succ n ih =>
    unfold after at h
    rw [Nat.succ_add, after]
    cases hs : turn s with
    | again u =>
      rw [hs] at h
      exact ih h
    | done r =>
      rw [hs] at h
      cases h

theorem after_succ {turn : σ → Turn σ ρ} {n : Nat} {s t u : σ} (h : after turn n s = some t)
    (next : turn t = .again u) : after turn (n + 1) s = some u := by
  rw [after_add turn 1 h]
  simp only [after, next]

/-- The turn before the state that a loop has come to. -/
theorem after_pred {turn : σ → Turn σ ρ} {n : Nat} {s u : σ} (h : after turn (n + 1) s = some u) :
    ∃ t, after turn n s = some t ∧ turn t = .again u := by
  induction n generalizing s with
  | zero =>
    unfold after at h
    cases first : turn s with
    | again t =>
      rw [first] at h
      cases h
      exact ⟨s, rfl, first⟩
    | done r =>
      rw [first] at h
      cases h
  | succ n ih =>
    unfold after at h
    cases first : turn s with
    | again t =>
      rw [first] at h
      obtain ⟨v, reached, next⟩ := ih h
      refine ⟨v, ?_, next⟩
      rw [after, first]
      exact reached
    | done r =>
      rw [first] at h
      cases h

theorem turns_add (turn : σ → Turn σ ρ) {n : Nat} (k : Nat) {s t : σ}
    (h : after turn n s = some t) : turns turn (n + k) s = turns turn k t := by
  induction n generalizing s with
  | zero =>
    cases h
    rw [Nat.zero_add]
  | succ n ih =>
    unfold after at h
    rw [Nat.succ_add, turns]
    cases hs : turn s with
    | again u =>
      rw [hs] at h
      exact ih h
    | done r =>
      rw [hs] at h
      cases h

theorem ends_of_after {turn : σ → Turn σ ρ} {n : Nat} {s t : σ} {r : ρ}
    (h : after turn n s = some t) (last : turn t = .done r) :
    turns turn (n + 1) s = some r := by
  rw [turns_add turn 1 h, turns, last]

/-- A loop ends where it answers after some number of turns. -/
theorem ends_iff {turn : σ → Turn σ ρ} {s : σ} {r : ρ} :
    Ends turn s r ↔ ∃ n t, after turn n s = some t ∧ turn t = .done r := by
  constructor
  · rintro ⟨fuel, ended⟩
    induction fuel generalizing s with
    | zero => cases ended
    | succ fuel ih =>
      unfold turns at ended
      cases first : turn s with
      | again t =>
        rw [first] at ended
        obtain ⟨n, u, reached, last⟩ := ih ended
        refine ⟨n + 1, u, ?_, last⟩
        rw [after, first]
        exact reached
      | done q =>
        rw [first] at ended
        cases ended
        exact ⟨0, s, rfl, first⟩
  · rintro ⟨n, t, reached, last⟩
    exact ⟨n + 1, ends_of_after reached last⟩

/-- A loop that has gone on for some turns ends as it would have from the start. -/
theorem ends_after_iff {turn : σ → Turn σ ρ} {n : Nat} {s t : σ} {r : ρ}
    (h : after turn n s = some t) : Ends turn t r ↔ Ends turn s r := by
  constructor
  · rintro ⟨fuel, ended⟩
    exact ⟨n + fuel, (turns_add turn fuel h).trans ended⟩
  · rintro ⟨fuel, ended⟩
    have late := turns_mono turn (Nat.le_add_left fuel n) ended
    exact ⟨fuel, (turns_add turn fuel h).symm.trans late⟩

/-- A loop that goes on for `n` turns has not answered within fewer. -/
theorem turns_of_after {turn : σ → Turn σ ρ} {fuel n : Nat} (le : fuel ≤ n) {s t : σ}
    (h : after turn n s = some t) : turns turn fuel s = none := by
  cases answer : turns turn fuel s with
  | none => rfl
  | some r =>
    have late := turns_mono turn le answer
    have none := turns_add turn 0 h
    rw [Nat.add_zero, late] at none
    cases none

/-- A property that every turn keeps holds after so many turns. -/
theorem after_keeps {P : σ → Prop} {Q : ρ → Prop} {turn : σ → Turn σ ρ}
    (step : ∀ s, P s → (turn s).Keeps P Q) {n : Nat} {s t : σ} (h : P s)
    (reached : after turn n s = some t) : P t := by
  induction n generalizing s with
  | zero =>
    cases reached
    exact h
  | succ n ih =>
    unfold after at reached
    have kept := step s h
    generalize turn s = taken at kept reached
    cases kept with
    | again further => exact ih further reached
    | done answer => cases reached

/-- An answer of a loop whose turns all keep a property. -/
theorem turns_keeps {P : σ → Prop} {Q : ρ → Prop} {turn : σ → Turn σ ρ}
    (step : ∀ s, P s → (turn s).Keeps P Q) {n : Nat} {s : σ} {r : ρ} (h : P s)
    (ended : turns turn n s = some r) : Q r := by
  induction n generalizing s with
  | zero => cases ended
  | succ n ih =>
    unfold turns at ended
    have kept := step s h
    generalize turn s = taken at kept ended
    cases kept with
    | again further => exact ih further ended
    | done answer =>
      cases ended
      exact answer

/-- An answer of a loop that has come to a state, from which on its turns keep a property. -/
theorem answer_keeps {P : σ → Prop} {Q : ρ → Prop} {turn : σ → Turn σ ρ}
    (step : ∀ s, P s → (turn s).Keeps P Q) {n fuel : Nat} {s t : σ} {r : ρ}
    (reached : after turn n s = some t) (kept : (turn t).Keeps P Q)
    (ended : turns turn fuel s = some r) : Q r := by
  obtain ⟨fuel, ended⟩ := (ends_after_iff reached).mpr ⟨fuel, ended⟩
  cases fuel with
  | zero => cases ended
  | succ fuel =>
    unfold turns at ended
    generalize turn t = taken at kept ended
    cases kept with
    | again further => exact turns_keeps step further ended
    | done answer =>
      cases ended
      exact answer

/-- Loops whose turns correspond answer within the same number of turns, and correspondingly. -/
theorem turns_rel {R : σ → τ → Prop} {Q : ρ → κ → Prop} {turn : σ → Turn σ ρ}
    {other : τ → Turn τ κ} (step : ∀ s t, R s t → Turn.Rel R Q (turn s) (other t)) (n : Nat)
    {s : σ} {t : τ} (h : R s t) : Option.Rel Q (turns turn n s) (turns other n t) := by
  induction n generalizing s t with
  | zero => exact .none
  | succ n ih =>
    unfold turns
    have both := step s t h
    generalize turn s = a, other t = b at both ⊢
    cases both with
    | again further => exact ih further
    | done answer => exact .some answer

theorem seen_rel {R : σ → τ → Prop} {Q : ρ → κ → Prop} {turn : σ → Turn σ ρ}
    {other : τ → Turn τ κ} (step : ∀ s t, R s t → Turn.Rel R Q (turn s) (other t))
    {look : σ → α} {close : ρ → α} {look' : τ → α} {close' : κ → α}
    (looks : ∀ s t, R s t → look s = look' t) (closes : ∀ r q, Q r q → close r = close' q)
    (n : Nat) {s : σ} {t : τ} (h : R s t) :
    seen look close turn n s = seen look' close' other n t := by
  induction n generalizing s t with
  | zero => exact looks s t h
  | succ n ih =>
    unfold seen
    have both := step s t h
    generalize turn s = a, other t = b at both ⊢
    cases both with
    | again further => exact ih further
    | done answer => exact closes _ _ answer

end Loop
end TapeMachine
