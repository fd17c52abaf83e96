/-! Loops that may not end. A loop is one `turn`, which either goes on from a new state or
answers; `turns` allows a number of turns. More turns never change an answer, so a loop has at
most one, and "it ends with `r`" is `Ends turn s r`. -/

namespace TapeMachine

/-- What one pass through a loop leads to. -/
inductive Turn (σ ρ : Type) where
  | again (s : σ)
  | done (r : ρ)

namespace Loop

variable {σ ρ : Type}

/-- The answer of the loop within `fuel` turns, if it comes that early. -/
def turns (turn : σ → Turn σ ρ) : Nat → σ → Option ρ
  | 0, _ => none
  | fuel + 1, s =>
    match turn s with
    | .again t => turns turn fuel t
    | .done r => some r

def Ends (turn : σ → Turn σ ρ) (s : σ) (r : ρ) : Prop := ∃ fuel, turns turn fuel s = some r

theorem turns_succ (turn : σ → Turn σ ρ) (fuel : Nat) (s : σ) (r : ρ)
    (h : turns turn fuel s = some r) : turns turn (fuel + 1) s = some r := by
  induction fuel generalizing s with
  | zero => simp [turns] at h
  | succ fuel ih =>
    rw [turns] at h ⊢
    split at h <;> rename_i hs
    · simpa [hs] using ih _ h
    · simpa [hs] using h

theorem turns_mono (turn : σ → Turn σ ρ) {fuel more : Nat} (le : fuel ≤ more) {s : σ} {r : ρ}
    (h : turns turn fuel s = some r) : turns turn more s = some r := by
  induction le with
  | refl => exact h
  | step _ ih => exact turns_succ turn _ s r ih

theorem ends_unique {turn : σ → Turn σ ρ} {s : σ} {r q : ρ} (hr : Ends turn s r)
    (hq : Ends turn s q) : r = q := by
  obtain ⟨n, hn⟩ := hr
  obtain ⟨k, hk⟩ := hq
  have a := turns_mono turn (Nat.le_max_left n k) hn
  have b := turns_mono turn (Nat.le_max_right n k) hk
  exact Option.some.inj (a.symm.trans b)

end Loop
end TapeMachine
