import TapeMachine.Machine.Guard

/-! Waiting at a step gate, where nothing but a request to cancel can make the machine stop. A
wait goes through polls that find nothing and ends with one token or with such a request. -/

namespace TapeMachine

namespace Signal

/-- Whether the signal lets an instruction through. -/
def isToken : Signal → Bool
  | .token | .cancelWithToken => true
  | .nothing | .cancel => false

def isCancel : Signal → Bool
  | .cancel | .cancelWithToken => true
  | .token | .nothing => false

end Signal

/-- Signals that let so many instructions through. Each instruction waits through any number of
polls that find nothing, and takes one token; after a request to cancel there is no further
wait. -/
inductive Released : Nat → List Signal → Prop
  | none : Released 0 []
  | next {k : Nat} {used : List Signal} (before : Released k used)
      (calm : used.any Signal.isCancel = false) (polls : Nat) {s : Signal}
      (token : s.isToken = true) :
      Released (k + 1) (used ++ (List.replicate polls .nothing ++ [s]))

namespace Guard

/-- A guard that nothing but a request to cancel can make stop the machine. -/
structure Unwatched (g : Guard) : Prop where
  event : g.event = none
  deadline : g.deadline = none

theorem await_cancelled {g : Guard} (request : g.cancelled = true) (ip : Option Int)
    (signals : List Signal) :
    g.await ip signals = (.error (cancellation "cancelled" ip), signals, g) := by
  cases signals with
  | nil => simp only [await, check_cancelled request]
  | cons s rest => simp only [await, check_cancelled request]

/-- What comes of a wait: some polls that find nothing, and then a token or a request to cancel.
Behind the last signal stands such a request. -/
inductive Waited (g : Guard) (ip : Option Int) (signals : List Signal) :
    Except Fault Unit × List Signal × Guard → Prop
  | released {polls : Nat} {s : Signal} (met : List.replicate polls .nothing ++ [s] <+: signals)
      (token : s.isToken = true) :
      Waited g ip signals (.ok (), signals.drop (polls + 1), if s.isCancel then g.cancel else g)
  | refused {polls : Nat}
      (met : List.replicate polls .nothing ++ [.cancel] <+: signals ++ [.cancel]) :
      Waited g ip signals
        (.error (cancellation "cancelled" ip), signals.drop (polls + 1), g.cancel)

theorem Waited.poll {g : Guard} {ip : Option Int} {signals : List Signal}
    {answer : Except Fault Unit × List Signal × Guard} (h : Waited g ip signals answer) :
    Waited g ip (.nothing :: signals) answer := by
  cases h with
  | @released polls s met token =>
    have longer : List.replicate (polls + 1) .nothing ++ [s] <+: .nothing :: signals :=
      (List.prefix_cons_inj _).mpr met
    exact .released longer token
  | @refused polls met =>
    have longer : List.replicate (polls + 1) .nothing ++ [.cancel] <+:
        .nothing :: signals ++ [.cancel] := (List.prefix_cons_inj _).mpr met
    exact .refused longer

theorem await_unwatched {g : Guard} (unwatched : g.Unwatched) (calm : g.cancelled = false)
    (ip : Option Int) (signals : List Signal) : Waited g ip signals (g.await ip signals) := by
  have passes := check_idle calm unwatched.event unwatched.deadline ip
  have refused := @check_cancelled g.cancel rfl ip
  induction signals with
  | nil =>
    simp only [await, passes, refused]
    exact @Waited.refused _ _ [] 0 List.prefix_rfl
  | cons s rest ih =>
    have first : [s] <+: s :: rest := ⟨rest, rfl⟩
    cases s with
    | token =>
      simp only [await, passes]
      exact @Waited.released _ _ (.token :: rest) 0 .token first rfl
    | nothing =>
      simp only [await, passes]
      exact ih.poll
    | cancel =>
      simp only [await, passes, @await_cancelled g.cancel rfl]
      exact @Waited.refused _ _ (.cancel :: rest) 0 (first.trans (List.prefix_append _ _))
    | cancelWithToken =>
      simp only [await, passes]
      exact @Waited.released _ _ (.cancelWithToken :: rest) 0 .cancelWithToken first rfl

end Guard

end TapeMachine
