import TapeMachine.Proofs.Regions
import TapeMachine.Proofs.Unbalanced

/-! Programs some of whose loops are still open. Operations lead the compiler to one nest only, and
in the code of a nest the loops that have ended are linked, and the starts of the others have no
target. Operations that follow make a balanced whole if they end just the open loops. -/

namespace TapeMachine

/-- Operations that end so many loops started before them, and are balanced otherwise. -/
inductive Closing : Nat → List Op → Prop
  | level {ops : List Op} (balanced : Balanced ops) : Closing 0 ops
  | finish {n : Nat} {front rest : List Op} (balanced : Balanced front) (further : Closing n rest) :
    Closing (n + 1) (front ++ .loopEnd :: rest)

/-- Instructions of the given operations, where the loops with the given starts are open. These
starts have no target, the last of them first; all other brackets point at each other. -/
structure HalfLinked (code : List Instruction) (ops : List Op) (starts : List Nat) : Prop where
  opcodes : code.map (·.opcode) = ops.map .op
  /-- Only brackets have a target. -/
  target : ∀ i ∈ code, i.opcode ≠ .op .loopStart → i.opcode ≠ .op .loopEnd → i.target = none
  falling : starts.Pairwise (· > ·)
  opened : ∀ k : Nat, k ∈ starts ↔ code[k]? = some ⟨.op .loopStart, none⟩
  start : ∀ (s : Nat) (t : Int), code[s]? = some ⟨.op .loopStart, some t⟩ →
    ∃ e : Nat, t = (e : Int) ∧ code[e]? = some ⟨.op .loopEnd, some (s : Int)⟩ ∧ Brackets ops s e
  finish : ∀ (e : Nat) (t : Option Int), code[e]? = some ⟨.op .loopEnd, t⟩ →
    ∃ s : Nat, t = some (s : Int) ∧ code[s]? = some ⟨.op .loopStart, some (e : Int)⟩ ∧
      Brackets ops s e

variable {ops more : List Op} {n : Nat}

/-! ## Closing what is open -/

/-- Where more loops end than are open, some loop end is the first for which none is left. -/
theorem first_excess {level : Int} (nonneg : 0 ≤ level) (excess : level + balance ops < 0) :
    ∃ front rest, ops = front ++ .loopEnd :: rest ∧ level + balance front = 0 ∧
      ∀ f, f <+: front → 0 ≤ level + balance f := by
  induction ops generalizing level with
  | nil =>
    rw [balance_nil] at excess
    omega
  | cons o ops ih =>
    by_cases first : o = .loopEnd ∧ level = 0
    · obtain ⟨rfl, rfl⟩ := first
      refine ⟨[], ops, rfl, rfl, ?_⟩
      intro f stands
      rw [List.prefix_nil.mp stands]
      exact Int.le_refl 0
    · -- behind the operation there are still loops enough open
      have still : 0 ≤ level + o.delta := by
        cases o with
        | loopEnd =>
          have some_open : level ≠ 0 := fun none => first ⟨rfl, none⟩
          simp only [Op.delta]
          omega
        | loopStart | moveRight | moveLeft | increment | decrement | output | input =>
          simp only [Op.delta]
          omega
      rw [balance_cons, ← Int.add_assoc] at excess
      obtain ⟨front, rest, rfl, reached, started⟩ := ih still excess
      refine ⟨o :: front, rest, rfl, ?_, ?_⟩
      · rw [balance_cons, ← Int.add_assoc]
        exact reached
      · intro f stands
        rcases List.prefix_cons_iff.mp stands with rfl | ⟨tail, rfl, inside⟩
        · rw [balance_nil]
          omega
        · rw [balance_cons, ← Int.add_assoc]
          exact started tail inside

/-- Counted by their balance: no more loops end than are open, and in the end none is left. -/
theorem closing_iff : Closing n ops ↔
    (n : Int) + balance ops = 0 ∧ ∀ front, front <+: ops → 0 ≤ (n : Int) + balance front := by
  constructor
  · intro closing
    induction closing with
    | level balanced =>
      refine ⟨by rw [balanced.closed]; rfl, ?_⟩
      intro front stands
      have started := balanced.started front stands
      omega
    | @finish n front rest balanced _ ih =>
      obtain ⟨closed, started⟩ := ih
      have level := balanced.closed
      refine ⟨?_, ?_⟩
      · rw [balance_append, balance_cons, Op.delta]
        omega
      · intro f stands
        rcases Block.front_append_cases stands with short | ⟨beyond, behind, rfl⟩
        · have := balanced.started f short
          omega
        · rcases List.prefix_cons_iff.mp behind with rfl | ⟨tail, rfl, inside⟩
          · rw [List.append_nil, level]
            omega
          · have := started tail inside
            rw [balance_append, balance_cons, Op.delta]
            omega
  · intro counted
    obtain ⟨closed, started⟩ := counted
    induction n generalizing ops with
    | zero =>
      refine .level ⟨?_, by omega⟩
      intro front stands
      have := started front stands
      omega
    | succ n ih =>
      have excess : 0 + balance ops < 0 := by omega
      obtain ⟨front, rest, rfl, reached, before⟩ := first_excess (Int.le_refl 0) excess
      have balanced : Balanced front := by
        refine ⟨?_, by omega⟩
        intro f stands
        have := before f stands
        omega
      refine .finish balanced (ih ?_ ?_)
      · rw [balance_append, balance_cons, Op.delta] at closed
        omega
      · intro f stands
        have := started (front ++ .loopEnd :: f)
          ((List.prefix_append_right_inj _).mpr ((List.prefix_cons_inj _).mpr stands))
        rw [balance_append, balance_cons, Op.delta] at this
        omega

namespace Nest

/-- What follows a nest makes a balanced whole with it if it ends just the loops still open. -/
theorem balanced_iff_closing (n : Nest) :
    Balanced (n.ops ++ more) ↔ Closing n.outer.length more := by
  rw [closing_iff]
  constructor
  · intro balanced
    refine ⟨?_, ?_⟩
    · have closed := balanced.closed
      rwa [balance_append, balance_ops] at closed
    · intro front stands
      have reached := (List.prefix_append_right_inj n.ops).mpr stands
      have started := balanced.started _ reached
      rwa [balance_append, balance_ops] at started
  · intro counted
    obtain ⟨closed, started⟩ := counted
    refine ⟨?_, by rw [balance_append, balance_ops, closed]⟩
    intro front stands
    rcases Block.front_append_cases stands with short | ⟨rest, beyond, rfl⟩
    · exact Nest.started short
    · rw [balance_append, balance_ops]
      exact started rest beyond

end Nest

/-! ## Operations lead to one nest -/

theorem Block.append_assoc (a b c : Block) : (a.append b).append c = a.append (b.append c) := by
  induction a with
  | done => rfl
  | act x rest ih => simp only [append, ih]
  | loop body rest _ ih => simp only [append, ih]

namespace Nest

/-- The operations of a block go to the innermost block of a nest. -/
theorem foldlM_block (b a : Block) (outer : List Block) :
    b.ops.foldlM accept ⟨a, outer⟩ = some ⟨a.append b, outer⟩ := by
  induction b generalizing a outer with
  | done => rw [Block.append_done]; rfl
  | act x rest ih =>
    rw [Block.ops, List.foldlM_cons, accept_action]
    change rest.ops.foldlM accept ⟨a.append (.act x .done), outer⟩ = _
    rw [ih, Block.append_assoc]
    rfl
  | loop body rest hb hr =>
    rw [Block.ops, List.foldlM_cons]
    change (body.ops ++ .loopEnd :: rest.ops).foldlM accept ⟨.done, a :: outer⟩ = _
    rw [List.foldlM_append, hb]
    change rest.ops.foldlM accept ⟨a.append (.loop body .done), outer⟩ = _
    rw [hr, Block.append_assoc]
    rfl

theorem foldlM_around (outer : List Block) :
    (opsAround outer).foldlM accept {} = some ⟨.done, outer⟩ := by
  induction outer with
  | nil => rfl
  | cons b outer ih =>
    rw [opsAround, List.foldlM_append, ih]
    change (b.ops ++ [Op.loopStart]).foldlM accept ⟨.done, outer⟩ = _
    rw [List.foldlM_append, foldlM_block]
    rfl

/-- The operations of a nest lead to it. -/
theorem foldlM_ops (n : Nest) : n.ops.foldlM accept {} = some n := by
  rw [ops, List.foldlM_append, foldlM_around]
  exact foldlM_block n.inner .done n.outer

theorem ops_injective {n n' : Nest} (same : n.ops = n'.ops) : n = n' := by
  have leads := foldlM_ops n
  rw [same, foldlM_ops] at leads
  exact (Option.some.inj leads).symm

end Nest

/-! ## Half-linked instructions -/

variable {s e k : Nat} {code : List Instruction} {starts : List Nat}

/-- The operation behind each opcode. -/
theorem op_of_opcodes (spelled : code.map (·.opcode) = ops.map .op) {i : Instruction}
    (found : code[k]? = some i) : ∃ o, ops[k]? = some o ∧ i.opcode = .op o := by
  have opcode := congrArg (fun list => list[k]?) spelled
  simp only [List.getElem?_map, found, Option.map_some] at opcode
  obtain ⟨o, there, known⟩ := Option.map_eq_some_iff.mp opcode.symm
  exact ⟨o, there, known.symm⟩

/-- What follows a loop does not change it. -/
theorem Brackets.append (loop : Brackets ops s e) (more : List Op) :
    Brackets (ops ++ more) s e := by
  have start := (List.getElem?_eq_some_iff.mp loop.start).1
  have finish := (List.getElem?_eq_some_iff.mp loop.finish).1
  refine ⟨?_, ?_, loop.lt, ?_⟩
  · rw [List.getElem?_append_left start, loop.start]
  · rw [List.getElem?_append_left finish, loop.finish]
  · rw [List.take_append_of_le_length (Nat.le_of_lt finish)]
    exact loop.between

/-- A loop stands further on behind other operations. -/
theorem Brackets.behind (loop : Brackets ops s e) (front : List Op) :
    Brackets (front ++ ops) (front.length + s) (front.length + e) := by
  refine ⟨?_, ?_, Nat.add_lt_add_left loop.lt _, ?_⟩
  · rw [List.getElem?_append_right (Nat.le_add_right _ _), Nat.add_sub_cancel_left, loop.start]
  · rw [List.getElem?_append_right (Nat.le_add_right _ _), Nat.add_sub_cancel_left, loop.finish]
  · rw [List.take_length_add_append, Nat.add_assoc, List.drop_length_add_append]
    exact loop.between

namespace Block

variable {b body : Block} {i : Nat} {o : Op} {t : Option Int}

theorem op_of_code (found : (b.code i)[k]? = some ⟨.op o, t⟩) : b.ops[k]? = some o := by
  obtain ⟨_, there, known⟩ := op_of_opcodes (opcodes_code b i) found
  cases known
  exact there

theorem LoopAt.brackets (loop : LoopAt b i s body) : Brackets b.ops s (s + body.size + 1) := by
  refine ⟨op_of_code loop.start, op_of_code loop.finish, by omega, ?_⟩
  rw [loop.between]
  exact body.balanced_ops

theorem code_start (found : (b.code i)[s]? = some ⟨.op .loopStart, t⟩) :
    ∃ e : Nat, t = some ((i + e : Nat) : Int) ∧
      (b.code i)[e]? = some ⟨.op .loopEnd, some ((i + s : Nat) : Int)⟩ ∧ Brackets b.ops s e := by
  obtain ⟨s', body, loop, ⟨_, rfl⟩ | ⟨no, _⟩⟩ := loopAt_of_bracket found (.inl rfl)
  · cases found.symm.trans loop.start
    exact ⟨s + body.size + 1, by congr 2; omega, loop.finish, loop.brackets⟩
  · cases no

theorem code_finish (found : (b.code i)[e]? = some ⟨.op .loopEnd, t⟩) :
    ∃ s : Nat, t = some ((i + s : Nat) : Int) ∧
      (b.code i)[s]? = some ⟨.op .loopStart, some ((i + e : Nat) : Int)⟩ ∧ Brackets b.ops s e := by
  obtain ⟨s, body, loop, ⟨no, _⟩ | ⟨_, rfl⟩⟩ := loopAt_of_bracket found (.inr rfl)
  · cases no
  · cases found.symm.trans loop.finish
    refine ⟨s, rfl, ?_, loop.brackets⟩
    rw [loop.start]
    congr 4
    omega

end Block

/-- What stands in two lists, one behind the other, stands in one of them. -/
theorem found_append {α : Type} {front back : List α} {x : α}
    (found : (front ++ back)[k]? = some x) :
    front[k]? = some x ∨ ∃ j, k = front.length + j ∧ back[j]? = some x := by
  rcases Nat.lt_or_ge k front.length with inside | behind
  · rw [List.getElem?_append_left inside] at found
    exact .inl found
  · rw [List.getElem?_append_right behind] at found
    exact .inr ⟨k - front.length, by omega, found⟩

theorem found_front {α : Type} {front : List α} {x : α} (found : front[k]? = some x)
    (back : List α) : (front ++ back)[k]? = some x := by
  rw [List.getElem?_append_left (List.getElem?_eq_some_iff.mp found).1, found]

theorem found_back {α : Type} {back : List α} {x : α} (found : back[k]? = some x)
    (front : List α) : (front ++ back)[front.length + k]? = some x := by
  rw [List.getElem?_append_right (Nat.le_add_right _ _), Nat.add_sub_cancel_left, found]

namespace HalfLinked

theorem nil : HalfLinked [] [] [] := by
  refine ⟨rfl, ?_, .nil, ?_, ?_, ?_⟩
  all_goals simp

theorem length (h : HalfLinked code ops starts) : ops.length = code.length := by
  have lengths := congrArg List.length h.opcodes
  simpa using lengths.symm

theorem lt_length (h : HalfLinked code ops starts) (mem : k ∈ starts) : k < code.length :=
  (List.getElem?_eq_some_iff.mp ((h.opened k).mp mem)).1

/-- The start of one loop more is open, behind all others. -/
theorem opening (h : HalfLinked code ops starts) :
    HalfLinked (code ++ [⟨.op .loopStart, none⟩]) (ops ++ [.loopStart])
      (code.length :: starts) := by
  -- behind the code there is the new start, which has no target
  have last : ∀ {k : Nat} {i : Instruction},
      (code ++ [⟨.op .loopStart, none⟩])[k]? = some i →
        code[k]? = some i ∨ k = code.length ∧ i = ⟨.op .loopStart, none⟩ := by
    intro k i found
    rcases found_append found with here | ⟨j, rfl, there⟩
    · exact .inl here
    · cases j with
      | zero => exact .inr ⟨rfl, (Option.some.inj there).symm⟩
      | succ j => cases there
  refine ⟨?_, ?_, ?_, ?_, ?_, ?_⟩
  · rw [List.map_append, List.map_append, h.opcodes]
    rfl
  · intro i mem start finish
    rcases List.mem_append.mp mem with mem | mem
    · exact h.target i mem start finish
    · rw [List.mem_singleton.mp mem]
  · exact .cons (fun k mem => h.lt_length mem) h.falling
  · intro k
    rw [List.mem_cons, h.opened]
    constructor
    · intro either
      rcases either with rfl | here
      · exact found_back (rfl : [_][0]? = _) code
      · exact found_front here _
    · intro found
      rcases last found with here | ⟨rfl, _⟩
      · exact .inr here
      · exact .inl rfl
  · intro s t found
    rcases last found with here | ⟨_, impossible⟩
    · obtain ⟨e, target, back, loop⟩ := h.start s t here
      exact ⟨e, target, found_front back _, loop.append _⟩
    · cases impossible
  · intro e t found
    rcases last found with here | ⟨_, impossible⟩
    · obtain ⟨s, target, front, loop⟩ := h.finish e t here
      exact ⟨s, target, found_front front _, loop.append _⟩
    · cases impossible

/-- The loops of a block that follows are all linked. -/
theorem block (h : HalfLinked code ops starts) (b : Block) :
    HalfLinked (code ++ b.code code.length) (ops ++ b.ops) starts := by
  refine ⟨?_, ?_, h.falling, ?_, ?_, ?_⟩
  · rw [List.map_append, List.map_append, h.opcodes, Block.opcodes_code]
  · intro i mem start finish
    rcases List.mem_append.mp mem with mem | mem
    · exact h.target i mem start finish
    · exact Block.target_of_action mem start finish
  · intro k
    rw [h.opened]
    constructor
    · exact fun here => found_front here _
    · intro found
      rcases found_append found with here | ⟨j, _, there⟩
      · exact here
      · obtain ⟨_, impossible, _⟩ := Block.code_start there
        cases impossible
  · intro s t found
    rcases found_append found with here | ⟨j, rfl, there⟩
    · obtain ⟨e, target, back, loop⟩ := h.start s t here
      exact ⟨e, target, found_front back _, loop.append _⟩
    · obtain ⟨e, target, back, loop⟩ := Block.code_start there
      refine ⟨code.length + e, Option.some.inj target, found_back back code, ?_⟩
      rw [← h.length]
      exact loop.behind ops
  · intro e t found
    rcases found_append found with here | ⟨j, rfl, there⟩
    · obtain ⟨s, target, front, loop⟩ := h.finish e t here
      exact ⟨s, target, found_front front _, loop.append _⟩
    · obtain ⟨s, target, front, loop⟩ := Block.code_finish there
      refine ⟨code.length + s, target, found_back front code, ?_⟩
      rw [← h.length]
      exact loop.behind ops

end HalfLinked

namespace Nest

theorem length_starts (outer : List Block) : (Nest.starts outer).length = outer.length := by
  induction outer with
  | nil => rfl
  | cons b outer ih => exact congrArg (· + 1) ih

theorem halfLinked_around (outer : List Block) :
    HalfLinked (codeAround outer) (opsAround outer) (Nest.starts outer) := by
  induction outer with
  | nil => exact .nil
  | cons b outer ih =>
    have opened := (ih.block b).opening
    rw [List.append_assoc, List.append_assoc, List.length_append, Block.length_code] at opened
    exact opened

/-- The code of a nest is linked up to the loops that are open. -/
theorem halfLinked (n : Nest) : HalfLinked n.code n.ops (Nest.starts n.outer) :=
  (halfLinked_around n.outer).block n.inner

end Nest
end TapeMachine
