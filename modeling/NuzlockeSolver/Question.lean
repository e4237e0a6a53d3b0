/-!
# Actions, questions and terminal outcomes

The engine's action record and the question put to the certifiers: a conjunction of conditions
asserted of the terminal state, together with an optional ban on one of the player's move slots.
-/

namespace NuzlockeSolver

structure ExecAction where
  kind : Int := 0
  moveSlot : Int := -1
  moveOverride : Int := -1
  switchToSlot : Int := -1
  targetSide : Int := -1
  targetSlot : Int := 0
  sourceSlot : Int := 0
  mega : Bool := false
deriving DecidableEq, Repr

inductive Outcome
  | win
  | loss
  | cont
deriving DecidableEq, Repr

structure Question where
  requireOppFaint : Bool := true
  requireNoFaint : Bool := true
  keepHp : Int := 0
  keepItem : Int := 0
  banMove : Int := -1
deriving DecidableEq, Repr

/-- Struggle is the move slot -2 and is never banned. -/
def actionFilter (q : Question) (action : ExecAction) : Bool :=
  if action.moveSlot = -2 then true
  else if q.banMove < 0 then true
  else action.moveSlot ≠ q.banMove

/-- The exceptions a certifier can raise; `fuel` marks a recursion cut off by the model. -/
inductive Fault
  | logicError (what : String)
  | runtimeError (what : String)
  | fuel
deriving DecidableEq, Repr

end NuzlockeSolver
