import TapeMachine.Proofs.Correctness
import TapeMachine.Proofs.Outcomes

/-! Execution is local. A machine among cells left of its tape and zero cells right of it does
what it does without them: where its tape would grow, it walks onto one of the zero cells instead.
Only at the left end of its own tape, where there are cells left of it, does it get on where the
machine without them fails. -/

namespace TapeMachine

namespace Tape

/-- Both sides and the cell under the pointer make a tape. -/
theorem ext_sides {t u : Tape} (left : t.left = u.left) (cell : t.cell = u.cell)
    (right : t.right = u.right) : t = u := by
  rw [← split_eq t, ← split_eq u, left, cell, right]

/-- The tape among cells left of it and `spare` zero cells right of it. -/
def amid (front : List UInt8) (spare : Nat) (t : Tape) : Tape :=
  split (t.left ++ front.reverse) t.cell (t.right ++ List.replicate spare 0)

variable {t u : Tape} (front : List UInt8) (spare : Nat)

@[simp] theorem cells_amid (t : Tape) :
    (t.amid front spare).cells = front ++ t.cells ++ List.replicate spare 0 := by
  simp [amid, cells, split]

@[simp] theorem pointer_amid (t : Tape) :
    (t.amid front spare).pointer = front.length + t.pointer := by
  simp [amid, split, pointer, t.before_eq]
  omega

/-- A move onto a new cell takes one of the spare ones. -/
theorem moveRight_amid (t : Tape) :
    (t.amid front spare).moveRight =
      t.moveRight.amid front (spare - (t.moveRight.length - t.length)) := by
  obtain ⟨left, cell, right, before, after, rfl, rfl⟩ := t
  cases right with
  | nil =>
    have grown : (moveRight ⟨left, cell, [], left.length, 0, rfl, rfl⟩).length -
        length ⟨left, cell, [], left.length, 0, rfl, rfl⟩ = 1 := by
      simp [moveRight, length]
    simp only [List.length_nil, grown]
    cases spare with
    | zero => exact ext_sides rfl rfl rfl
    | succ spare => exact ext_sides rfl rfl rfl
  | cons c right =>
    have same :
        (moveRight ⟨left, cell, c :: right, left.length, right.length + 1, rfl, rfl⟩).length -
          length ⟨left, cell, c :: right, left.length, right.length + 1, rfl, rfl⟩ = 0 := by
      simp [moveRight, length]
      omega
    simp only [List.length_cons, same, Nat.sub_zero]
    exact ext_sides rfl rfl rfl

theorem moveLeft?_amid (moved : t.moveLeft? = some u) :
    (t.amid front spare).moveLeft? = some (u.amid front spare) := by
  obtain ⟨left, cell, right, before, after, rfl, rfl⟩ := t
  cases left with
  | nil => cases moved
  | cons c left =>
    cases moved
    exact congrArg some (ext_sides rfl rfl rfl)

end Tape

namespace Config

def amid (front : List UInt8) (spare : Nat) (c : Config) : Config :=
  { c with tape := c.tape.amid front spare }

variable {c d : Config} {p : Program} {o : Op} {t : Option Int} {index : Int} {f : Fault}
  {n : Nat} (front : List UInt8) (spare : Nat)

/-- An operation that is carried out is carried out amid other cells as well. -/
theorem perform_amid (done : c.perform o t index = (.ok (), d)) :
    c.tape.length ≤ d.tape.length ∧
      (c.amid front spare).perform o t index =
        (.ok (), d.amid front (spare - (d.tape.length - c.tape.length))) := by
  -- where the tape keeps its length, all spare cells are left
  have unchanged : ∀ e : Config, e.tape.length = c.tape.length →
      (c.amid front spare).perform o t index = (.ok (), e.amid front spare) →
      c.tape.length ≤ e.tape.length ∧ (c.amid front spare).perform o t index =
        (.ok (), e.amid front (spare - (e.tape.length - c.tape.length))) := by
    intro e same done
    rw [same, Nat.sub_self, Nat.sub_zero]
    exact ⟨Nat.le_refl _, done⟩
  cases o with
  | moveRight =>
    cases done
    refine ⟨c.tape.length_moveRight, ?_⟩
    simp only [perform, amid, Tape.moveRight_amid]
  | moveLeft =>
    unfold perform moveLeft at done
    cases moved : c.tape.moveLeft? with
    | none =>
      rw [moved] at done
      cases done
    | some tape =>
      rw [moved] at done
      cases done
      refine unchanged _ (Tape.length_moveLeft? moved) ?_
      simp only [perform, moveLeft, amid, Tape.moveLeft?_amid front spare moved]
  | increment | decrement =>
    cases done
    exact unchanged _ rfl rfl
  | loopStart | loopEnd =>
    cases done
    unfold perform at unchanged ⊢
    by_cases zero : c.tape.cell = 0
    · have zero' : (c.amid front spare).tape.cell = 0 := zero
      simp only [if_pos zero, if_pos zero'] at unchanged ⊢
      exact unchanged _ rfl rfl
    · have zero' : (c.amid front spare).tape.cell ≠ 0 := zero
      simp only [if_neg zero, if_neg zero'] at unchanged ⊢
      exact unchanged _ rfl rfl
  | output =>
    unfold perform writeSymbol at done unchanged ⊢
    obtain ⟨result, rfl⟩ := Prod.mk.inj done
    exact unchanged _ rfl (Prod.ext result rfl)
  | input =>
    unfold perform readSymbol at done unchanged ⊢
    cases read : c.input.readSymbol index with
    | mk result input =>
      have read' : (c.amid front spare).input.readSymbol index = (result, input) := read
      cases result with
      | error f =>
        rw [read] at done
        cases done
      | ok b =>
        rw [read] at done
        cases done
        rw [read'] at unchanged ⊢
        exact unchanged _ rfl rfl

/-- An operation that fails fails amid other cells as well, but for a move left of the tape. -/
theorem perform_amid_error (failed : c.perform o t index = (.error f, d)) :
    (c.amid front spare).perform o t index = (.error f, d.amid front spare) ∨
      front ≠ [] ∧ f = .report ⟨.pointerUnderflow, none, none, some index⟩ := by
  cases o with
  | moveRight | increment | decrement | loopStart | loopEnd => cases failed
  | moveLeft =>
    unfold perform moveLeft at failed ⊢
    cases moved : c.tape.moveLeft? with
    | some tape =>
      rw [moved] at failed
      cases failed
    | none =>
      rw [moved] at failed
      cases failed
      by_cases bare : front = []
      · left
        have first : (c.tape.amid front spare).pointer = 0 := by
          rw [Tape.pointer_amid, bare]
          simpa using Tape.moveLeft?_eq_none.mp moved
        simp only [amid, Tape.moveLeft?_eq_none.mpr first]
      · exact .inr ⟨bare, rfl⟩
  | output =>
    left
    unfold perform writeSymbol at failed ⊢
    obtain ⟨result, rfl⟩ := Prod.mk.inj failed
    exact Prod.ext result rfl
  | input =>
    left
    unfold perform readSymbol at failed ⊢
    cases read : c.input.readSymbol index with
    | mk result input =>
      have read' : (c.amid front spare).input.readSymbol index = (result, input) := read
      cases result with
      | error f =>
        rw [read] at failed
        cases failed
        rw [read']
        rfl
      | ok b =>
        rw [read] at failed
        cases failed

end Config

namespace Machine

/-- A machine beside the one without the cells left of its tape and the spare ones right of it. -/
structure Wider (front : List UInt8) (spare : Nat) (m w : Machine) : Prop where
  cells : w.config.tape.cells = front ++ m.config.tape.cells ++ List.replicate spare 0
  pointer : w.config.tape.pointer = front.length + m.config.tape.pointer
  ip : w.ip = m.ip
  input : w.config.input = m.config.input
  output : w.config.output = m.config.output
  steps : w.steps = m.steps
  state : w.state = m.state

theorem Wider.of_config {front : List UInt8} {spare : Nat} {m w : Machine}
    (config : w.config = m.config.amid front spare) (steps : w.steps = m.steps)
    (state : w.state = m.state) : Wider front spare m w := by
  refine ⟨?_, ?_, ?_, ?_, ?_, steps, state⟩
  · rw [config]
    exact Tape.cells_amid front spare _
  · rw [config]
    exact Tape.pointer_amid front spare _
  · exact (congrArg Config.ip config : w.config.ip = (m.config.amid front spare).ip)
  · rw [config]
    rfl
  · rw [config]
    rfl

/-- Two plain runs that are at the same index have the same to go. -/
theorem Plain.more_eq {m w : Machine} (plain : m.Plain) (wide : w.Plain)
    (program : w.program = m.program) (ip : w.ip = m.ip) : w.more = m.more := by
  simp only [more, hasNext, plain.linear, wide.linear, beforeEnd, ip, program]

/-- A plain run beside the one without the cells left of its tape and the spare ones right
of it. -/
structure Beside (front : List UInt8) (spare : Nat) (m w : Machine) : Prop where
  plain : m.Plain
  wide : w.Plain
  program : w.program = m.program
  config : w.config = m.config.amid front spare
  steps : w.steps = m.steps
  state : w.state = m.state

namespace Beside

variable {front : List UInt8} {spare : Nat} {m w n : Machine}

theorem wider (h : Beside front spare m w) : Wider front spare m w :=
  .of_config h.config h.steps h.state

theorem more (h : Beside front spare m w) : w.more = m.more :=
  h.plain.more_eq h.wide h.program h.wider.ip

/-- What is handed out next is the same. -/
theorem tick (h : Beside front spare m w) (more : m.more = true) :
    ∃ (k : Nat) (o : Op) (t : Option Int), m.ip = some (k : Int) ∧
      m.config.tick m.program = (m.config.jump (some (k + 1))).perform o t k ∧
      w.config.tick w.program =
        ((m.config.jump (some (k + 1))).amid front spare).perform o t k := by
  obtain ⟨k, o, t, ip, found⟩ := h.plain.next more
  refine ⟨k, o, t, ip, Config.tick_at ip found, ?_⟩
  have here : w.config.ip = some (k : Int) := h.wider.ip.trans ip
  have same : w.program.instructions[k]? = some ⟨.op o, t⟩ := by
    rw [h.program]
    exact found
  rw [Config.tick_at here same, h.config]
  rfl

/-- An instruction that is executed is executed amid the other cells as well. -/
theorem again (h : Beside front spare m w) (turned : m.turn = .again n) :
    ∃ v, w.turn = .again v ∧ n.steps = m.steps + 1 ∧
      m.config.tape.length ≤ n.config.tape.length ∧
      Beside front (spare - (n.config.tape.length - m.config.tape.length)) n v := by
  have here := h.plain.turned
  have there := h.wide.turned
  rw [turned] at here
  cases here with
  | executed more tick plain program steps state =>
    obtain ⟨k, o, t, ip, this, that⟩ := h.tick more
    obtain ⟨longer, done⟩ := Config.perform_amid front spare (this.symm.trans tick)
    rw [done] at that
    generalize w.turn = taken at there
    cases there with
    | finished spent =>
      rw [h.more, more] at spent
      cases spent
    | failed _ tick' =>
      rw [tick'] at that
      cases that
    | @executed v _ tick' plain' program' steps' state' =>
      rw [tick'] at that
      obtain ⟨_, config⟩ := Prod.mk.inj that
      have programs : v.program = n.program := by rw [program', program, h.program]
      have index : v.ip = n.ip :=
        (congrArg Config.ip config : v.config.ip = (n.config.amid front _).ip)
      refine ⟨v, rfl, steps, longer, plain, plain', programs, config, ?_, ?_⟩
      · rw [steps', steps, h.steps]
      · rw [state', state, plain.more_eq plain' programs index]

/-- A run that ends ends amid the other cells as well, unless it fails at the left end. -/
theorem done (h : Beside front spare m w) {r : Except Fault Unit} (turned : m.turn = .done (r, n)) :
    (∃ v, w.turn = .done (r, v) ∧ Wider front spare n v) ∨
      front ≠ [] ∧ ∃ k : Nat, m.ip = some (k : Int) ∧ m.config.tape.pointer = 0 ∧
        r = .error (.report ⟨.pointerUnderflow, none, none, some k⟩) := by
  have here := h.plain.turned
  have there := h.wide.turned
  rw [turned] at here
  cases here with
  | finished spent =>
    left
    have finished := turn_over h.wide.toSafe (h.more.trans spent)
    exact ⟨w.complete, finished, .of_config h.config h.steps rfl⟩
  | @failed f _ more tick steps state =>
    obtain ⟨k, o, t, ip, this, that⟩ := h.tick more
    rcases Config.perform_amid_error front spare (this.symm.trans tick) with
      done | ⟨beyond, rfl⟩
    · left
      rw [done] at that
      generalize w.turn = taken at there
      cases there with
      | finished spent =>
        rw [h.more, more] at spent
        cases spent
      | @failed f' v _ tick' steps' state' =>
        rw [tick'] at that
        obtain ⟨result, config⟩ := Prod.mk.inj that
        cases result
        refine ⟨v, rfl, .of_config config ?_ ?_⟩
        · rw [steps', steps, h.steps]
        · rw [state', state]
      | executed _ tick' =>
        rw [tick'] at that
        cases that
    · right
      refine ⟨beyond, k, ip, ?_, rfl⟩
      have broken := (Config.perform_breaks (this.symm.trans tick)).of_jump
      cases broken with
      | leftEnd first => exact first

/-- After as many instructions, both have come as far, and what one tape has grown by is missing
from the spare cells of the other. -/
theorem after {i : Nat} (h : Beside front spare m w) (reached : Loop.after turn i m = some n) :
    ∃ v growth, Loop.after turn i w = some v ∧ n.steps = m.steps + i ∧
      n.config.tape.length = m.config.tape.length + growth ∧
      Beside front (spare - growth) n v := by
  induction i generalizing spare m w with
  | zero =>
    cases reached
    exact ⟨w, 0, rfl, rfl, rfl, h⟩
  | succ i ih =>
    unfold Loop.after at reached ⊢
    cases turned : m.turn with
    | done r =>
      rw [turned] at reached
      cases reached
    | again m' =>
      rw [turned] at reached
      obtain ⟨w', turned', steps, longer, h'⟩ := h.again turned
      obtain ⟨v, growth, reached', steps', length, beside⟩ := ih h' reached
      refine ⟨v, m'.config.tape.length - m.config.tape.length + growth, ?_, by omega, by omega, ?_⟩
      · rw [turned']
        exact reached'
      · rwa [Nat.sub_sub] at beside

end Beside

/-- A compiled program run on some cells, and on the same cells with others left of them and zeros
right of them: as many instructions as the first run executes, the second executes as well, and
then differs from it in these cells only, where one zero is used up for each cell that the first
tape has grown by. Where the first run ends or fails, so does the second, in the same way, unless
the first fails as it moves left of its tape, and there are cells left of it. -/
theorem growth_is_unobservable {source : Source} {p : Program}
    (compiled : compile source = .ok p) {cells : List UInt8} {pointer : Nat}
    (inside : pointer < cells.length) (front : List UInt8) (spare : Nat) (input : Input)
    (output : Output) :
    ∃ m w, create p cells pointer input output = .ok m ∧
      create p (front ++ cells ++ List.replicate spare 0) (front.length + pointer : Nat) input
        output = .ok w ∧
      ∀ n s, Loop.after turn n (m.arm {}) = some s →
        ∃ v growth, Loop.after turn n (w.arm {}) = some v ∧ s.steps = n ∧
          s.config.tape.cells.length = cells.length + growth ∧
          Wider front (spare - growth) s v ∧
          ∀ r e, turn s = .done (r, e) →
            (∃ e', turn v = .done (r, e') ∧ Wider front (spare - growth) e e') ∨
              front ≠ [] ∧ ∃ k : Nat, s.ip = some (k : Int) ∧ s.config.tape.pointer = 0 ∧
                r = .error (.report ⟨.pointerUnderflow, none, none, some k⟩) := by
  have sound := compile_sound compiled
  have wider : front.length + pointer < (front ++ cells ++ List.replicate spare 0).length := by
    simp only [List.length_append]
    omega
  obtain ⟨tape, rfl, rfl, created⟩ := create_inside p inside input output
  obtain ⟨wide, same, there, created'⟩ := create_inside p wider input output
  have amid : wide = tape.amid front spare := by
    refine Tape.ext_cells ?_ ?_
    · rw [same, Tape.cells_amid]
    · rw [there, Tape.pointer_amid]
  refine ⟨_, _, created, created', ?_⟩
  intro n s reached
  have start : Beside front spare (onTape p tape input output) (onTape p wide input output) :=
    ⟨plain_onTape sound tape input output, plain_onTape sound wide input output, rfl,
      by rw [amid]; rfl, rfl, rfl⟩
  obtain ⟨v, growth, reached', steps, length, beside⟩ := start.after reached
  refine ⟨v, growth, reached', ?_, ?_, beside.wider, ?_⟩
  · rw [steps]
    exact Nat.zero_add n
  · rw [← Tape.length_eq, ← Tape.length_eq, length]
    rfl
  · intro r e turned
    exact beside.done turned

/-- A walk off the right end of a tape of one cell, and one of the cell to its right. -/
theorem walk_on_wider_tape :
    ∃ p m w s v, compile (.text ">+") = .ok p ∧ 0 < [(7 : UInt8)].length ∧
      create p [7] (0 : Nat) (.ofBytes []) .reliable = .ok m ∧
      create p [1, 2, 7, 0, 0] (2 : Nat) (.ofBytes []) .reliable = .ok w ∧
      Loop.after turn 2 (m.arm {}) = some s ∧ s.config.tape.cells = [7, 1] ∧
      Loop.after turn 2 (w.arm {}) = some v ∧ Wider [1, 2] 1 s v := by
  obtain ⟨p, compiled⟩ : ∃ p, compile (.text ">+") = .ok p := ⟨_, rfl⟩
  have inside : 0 < [(7 : UInt8)].length := by decide
  obtain ⟨m, w, created, created', together⟩ :=
    growth_is_unobservable compiled inside [1, 2] 2 (.ofBytes []) .reliable
  obtain ⟨s, walked, cells⟩ : ∃ s, Loop.after turn 2 (m.arm {}) = some s ∧
      s.config.tape.cells = [7, 1] := by
    cases compiled
    cases created
    exact ⟨_, rfl, rfl⟩
  obtain ⟨v, growth, reached, _, length, wider, _⟩ := together 2 s walked
  have one : growth = 1 := by
    rw [cells] at length
    simp at length
    omega
  subst one
  exact ⟨p, m, w, s, v, compiled, inside, created, created', walked, cells, reached, wider⟩

end Machine
end TapeMachine
