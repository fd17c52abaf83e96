import TapeMachine.Program.Op

/-! Balance of loops. A sequence of operations is balanced if no loop ends before it has started
and every loop that starts ends. -/

namespace TapeMachine

/-- What an operation adds to the number of open loops. -/
def Op.delta : Op → Int
  | .loopStart => 1
  | .loopEnd => -1
  | .moveRight | .moveLeft | .increment | .decrement | .output | .input => 0

/-- How many more loops start than end. -/
def balance : List Op → Int
  | [] => 0
  | o :: ops => o.delta + balance ops

structure Balanced (ops : List Op) : Prop where
  started : ∀ front : List Op, front <+: ops → 0 ≤ balance front
  closed : balance ops = 0

/-- The operations that source bytes stand for. -/
def opsOf (bytes : List UInt8) : List Op := bytes.filterMap Op.ofByte?

@[simp] theorem balance_nil : balance [] = 0 := rfl

@[simp] theorem balance_cons (o : Op) (ops : List Op) :
    balance (o :: ops) = o.delta + balance ops := rfl

@[simp] theorem balance_append (ops more : List Op) :
    balance (ops ++ more) = balance ops + balance more := by
  induction ops with
  | nil => simp
  | cons o ops ih => simp only [List.cons_append, balance_cons, ih]; omega

theorem balanced_nil : Balanced [] :=
  ⟨fun _ h => by simp [List.prefix_nil.1 h], rfl⟩

@[simp] theorem opsOf_append (bytes more : List UInt8) :
    opsOf (bytes ++ more) = opsOf bytes ++ opsOf more := by
  simp [opsOf]

end TapeMachine
