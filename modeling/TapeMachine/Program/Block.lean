import TapeMachine.Program.Balance

/-! Programs by their structure: a sequence of actions and loops, where a loop holds the sequence
that it repeats. -/

namespace TapeMachine

/-- The operations that are no bracket. -/
inductive Action where
  | moveRight | moveLeft | increment | decrement | output | input
  deriving DecidableEq, Repr

def Action.op : Action → Op
  | moveRight => .moveRight
  | moveLeft => .moveLeft
  | increment => .increment
  | decrement => .decrement
  | output => .output
  | input => .input

inductive Block where
  | done
  | act (a : Action) (rest : Block)
  | loop (body rest : Block)
  deriving DecidableEq, Repr

namespace Block

/-- The operations of a block in order, a loop between its brackets. -/
def ops : Block → List Op
  | done => []
  | act a rest => a.op :: rest.ops
  | loop body rest => .loopStart :: (body.ops ++ .loopEnd :: rest.ops)

/-- How many operations a block has. -/
def size : Block → Nat
  | done => 0
  | act _ rest => rest.size + 1
  | loop body rest => body.size + rest.size + 2

def append : Block → Block → Block
  | done, b => b
  | act a rest, b => act a (rest.append b)
  | loop body rest, b => loop body (rest.append b)

/-- Puts an operation in front of the blocks that follow it, the first of which is the innermost
one it stands in. The end of a loop begins a block inside the loop, and its start closes that
block. -/
def extend (o : Op) (blocks : List Block) : Option (List Block) :=
  match o, blocks with
  | .loopEnd, blocks => some (done :: blocks)
  | .loopStart, body :: rest :: outer => some (loop body rest :: outer)
  | .loopStart, _ => none
  | .moveRight, b :: outer => some (act .moveRight b :: outer)
  | .moveLeft, b :: outer => some (act .moveLeft b :: outer)
  | .increment, b :: outer => some (act .increment b :: outer)
  | .decrement, b :: outer => some (act .decrement b :: outer)
  | .output, b :: outer => some (act .output b :: outer)
  | .input, b :: outer => some (act .input b :: outer)
  | _, [] => none

/-- The blocks that operations end in, innermost first: one more than there are loops that end
without having started. -/
def build : List Op → Option (List Block)
  | [] => some [done]
  | o :: os => (build os).bind (extend o)

/-- The block that operations make up, if their brackets match. -/
def ofOps? (os : List Op) : Option Block :=
  match build os with
  | some [b] => some b
  | _ => none

theorem length_ops (b : Block) : b.ops.length = b.size := by
  induction b with
  | done => rfl
  | act a rest ih => simp [ops, size, ih]
  | loop body rest hb hr => simp [ops, size, hb, hr]; omega

@[simp] theorem ops_append (b c : Block) : (b.append c).ops = b.ops ++ c.ops := by
  induction b with
  | done => rfl
  | act a rest ih => simp [append, ops, ih]
  | loop body rest hb hr => simp [append, ops, hr]

@[simp] theorem append_done (b : Block) : b.append done = b := by
  induction b with
  | done => rfl
  | act a rest ih => simp [append, ih]
  | loop body rest hb hr => simp [append, hr]

theorem extend_action (a : Action) (b : Block) (outer : List Block) :
    extend a.op (b :: outer) = some (act a b :: outer) := by
  cases a <;> rfl

/-- A block's operations in front of others go to the innermost of the blocks behind. -/
theorem build_ops_append (b : Block) {os : List Op} {c : Block} {outer : List Block}
    (h : build os = some (c :: outer)) :
    build (b.ops ++ os) = some (b.append c :: outer) := by
  induction b generalizing os c outer with
  | done => exact h
  | act a rest ih =>
    simp only [ops, List.cons_append, build, ih h, Option.bind_some]
    exact extend_action a _ outer
  | loop body rest hb hr =>
    have inner : build (.loopEnd :: (rest.ops ++ os)) = some (done :: rest.append c :: outer) := by
      simp only [build, hr h, Option.bind_some]
      rfl
    have whole := hb inner
    simp only [append_done] at whole
    simp only [ops, List.cons_append, List.append_assoc, build, whole, Option.bind_some]
    rfl

/-- Reading back the operations of a block gives the block. -/
theorem ofOps?_ops (b : Block) : ofOps? b.ops = some b := by
  have h := @build_ops_append b [] done [] rfl
  simp only [List.append_nil, append_done] at h
  simp [ofOps?, h]

end Block
end TapeMachine
