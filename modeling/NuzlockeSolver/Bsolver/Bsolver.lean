import NuzlockeSolver.Bucket.StateCodec

/-!
# The per-state certifier

A boolean AND-OR search over single states. The step relation gives, for each action of the AI in
turn, the children in the order the oracle emits them, and every child is searched as it is
emitted. Children that pack to the parent's key are skipped. A cap, a cycle or an exceeded leaf
budget sets one global flag that stops the whole search.
-/

namespace NuzlockeSolver

/-- The states, the question and the oracle as the search sees them. States with one key are
solver-equal: they have the same outcome, the same actions and the same children up to keys. -/
structure BProblem (σ : Type*) where
  classify : σ → Outcome
  legal : σ → List ExecAction
  step : σ → ExecAction → List (List σ)
  pack : σ → PackedKey
  classify_congr : ∀ {s t}, pack s = pack t → classify s = classify t
  legal_congr : ∀ {s t}, pack s = pack t → ∀ a ∈ legal s, a ∈ legal t
  step_congr : ∀ {s t}, pack s = pack t → ∀ a, ∀ c ∈ (step s a).flatten,
    ∃ c' ∈ (step t a).flatten, pack c' = pack c

inductive BVerdict
  | win
  | loss
  | indeterminate
deriving DecidableEq, Repr

inductive BIndeterminateReason
  | none
  | leafBudget
  | nodeCap
  | depthCap
  | cycle
deriving DecidableEq, Repr

structure BsolverConfig where
  oracleMaxLeaves : Nat := 1000000
  nodeCap : Nat := 500000
  depthCap : Int := 500
deriving DecidableEq, Repr

structure PlaneBits where
  win : Bool := false
  loss : Bool := false
deriving DecidableEq, Repr

abbrev BitmapPlane := List ((UInt16 × UInt16) × PlaneBits)

structure BsolverState where
  planes : List (UInt32 × BitmapPlane) := []
  stack : List PackedKey := []
  nodesExpanded : Nat := 0
  oracleStepCalls : Nat := 0
  memoHits : Nat := 0
  earlyStop : BIndeterminateReason := .none
  cycleKey : Option PackedKey := none
  policy : List (PackedKey × ExecAction) := []

namespace BsolverState

def bitsAt (S : BsolverState) (key : PackedKey) : PlaneBits :=
  match S.planes.lookup key.ctx with
  | none => {}
  | some plane => (plane.lookup (key.plHp, key.oppHp)).getD {}

def setBits (S : BsolverState) (key : PackedKey) (bits : PlaneBits) : BsolverState :=
  let plane := (S.planes.lookup key.ctx).getD []
  { S with planes := (key.ctx, ((key.plHp, key.oppHp), bits) :: plane) :: S.planes }

def setWin (S : BsolverState) (key : PackedKey) : BsolverState :=
  S.setBits key { S.bitsAt key with win := true }

def record (S : BsolverState) (key : PackedKey) (a : ExecAction) : BsolverState :=
  { S.setWin key with policy := (key, a) :: S.policy }

def setLoss (S : BsolverState) (key : PackedKey) : BsolverState :=
  S.setBits key { S.bitsAt key with loss := true }

def memoLookup (S : BsolverState) (key : PackedKey) : Option Bool :=
  if (S.bitsAt key).win then some true
  else if (S.bitsAt key).loss then some false
  else none

def stop (S : BsolverState) (r : BIndeterminateReason) : BsolverState :=
  { S with earlyStop := r }

def push (S : BsolverState) (key : PackedKey) : BsolverState :=
  { S with nodesExpanded := S.nodesExpanded + 1, stack := key :: S.stack }

def pop (S : BsolverState) (key : PackedKey) : BsolverState :=
  { S with stack := S.stack.filter fun k => k ≠ key }

end BsolverState

variable {σ : Type*}

abbrev BVisit (σ : Type*) := σ → BsolverState → Bool × BsolverState

structure Enumeration where
  actionWins : Bool := true
  hasNonSelf : Bool := false
  aborted : Bool := false
  budgetExceeded : Bool := false
deriving DecidableEq, Repr

/-- The emit callback: a self-loop is skipped, the first child that does not win aborts. -/
def emitChild (P : BProblem σ) (visit : BVisit σ) (key : PackedKey) (child : σ)
    (e : Enumeration) (S : BsolverState) : Enumeration × BsolverState :=
  if P.pack child = key then (e, S)
  else
    let (childWin, S) := visit child S
    let e := { e with hasNonSelf := true }
    if S.earlyStop ≠ .none then ({ e with actionWins := false, aborted := true }, S)
    else if ¬ childWin then ({ e with actionWins := false, aborted := true }, S)
    else (e, S)

def emitGroup (P : BProblem σ) (visit : BVisit σ) (key : PackedKey) (maxLeaves : Nat) :
    List σ → Nat → Enumeration → BsolverState → Enumeration × BsolverState
  | [], _, e, S => (e, S)
  | child :: rest, leaves, e, S =>
    if leaves ≥ maxLeaves then ({ e with budgetExceeded := true }, S)
    else
      let (e, S) := emitChild P visit key child e S
      if e.aborted then (e, S) else emitGroup P visit key maxLeaves rest (leaves + 1) e S

def oracleStep (P : BProblem σ) (visit : BVisit σ) (key : PackedKey) (maxLeaves : Nat) :
    List (List σ) → Enumeration → BsolverState → Enumeration × BsolverState
  | [], e, S => (e, S)
  | group :: rest, e, S =>
    if e.aborted ∨ e.budgetExceeded then (e, S)
    else
      let (e, S) := emitGroup P visit key maxLeaves group 0 e S
      oracleStep P visit key maxLeaves rest e S

def tryActions (P : BProblem σ) (q : Question) (cfg : BsolverConfig) (visit : BVisit σ) (s : σ) :
    List ExecAction → BsolverState → Option ExecAction × BsolverState
  | [], S => (none, S)
  | action :: rest, S =>
    if ¬ actionFilter q action then tryActions P q cfg visit s rest S
    else
      let (e, S) := oracleStep P visit (P.pack s) cfg.oracleMaxLeaves (P.step s action) {}
        { S with oracleStepCalls := S.oracleStepCalls + 1 }
      let S := if e.budgetExceeded then S.stop .leafBudget else S
      if S.earlyStop ≠ .none then (none, S)
      -- an action whose children are all self-loops makes no progress and fails
      else if e.actionWins ∧ e.hasNonSelf then (some action, S)
      else tryActions P q cfg visit s rest S

def expandNode (P : BProblem σ) (q : Question) (cfg : BsolverConfig) (visit : BVisit σ) (s : σ)
    (S : BsolverState) : Bool × BsolverState :=
  let key := P.pack s
  let (o, S) := tryActions P q cfg visit s (P.legal s) (S.push key)
  let S := S.pop key
  if S.earlyStop ≠ .none then (false, S)
  else
    match o with
    | some action => (true, S.record key action)
    | none => (false, S.setLoss key)

def bWin (P : BProblem σ) (q : Question) (cfg : BsolverConfig) :
    Nat → σ → BsolverState → Bool × BsolverState
  | remaining, s, S =>
    match P.classify s with
    | .win => (true, S)
    | .loss => (false, S)
    | .cont =>
      match remaining with
      | 0 => (false, S.stop .depthCap)
      | remaining + 1 =>
        let key := P.pack s
        match S.memoLookup key with
        | some w => (w, { S with memoHits := S.memoHits + 1 })
        | none =>
          if key ∈ S.stack then (false, { S.stop .cycle with cycleKey := some key })
          else if S.nodesExpanded ≥ cfg.nodeCap then (false, S.stop .nodeCap)
          else expandNode P q cfg (bWin P q cfg remaining) s S

structure BsolverResult where
  verdict : BVerdict
  reason : BIndeterminateReason := .none
  policy : List (PackedKey × ExecAction) := []
  nodesExpanded : Nat := 0
  oracleStepCalls : Nat := 0
  memoHits : Nat := 0
  cycleKey : Option PackedKey := none
deriving DecidableEq, Repr

def bsolverResult (win : Bool) (S : BsolverState) : BsolverResult :=
  if S.earlyStop ≠ .none then
    { verdict := .indeterminate
      reason := S.earlyStop
      nodesExpanded := S.nodesExpanded
      oracleStepCalls := S.oracleStepCalls
      memoHits := S.memoHits
      cycleKey := S.cycleKey }
  else
    { verdict := if win then .win else .loss
      policy := S.policy
      nodesExpanded := S.nodesExpanded
      oracleStepCalls := S.oracleStepCalls
      memoHits := S.memoHits }

def bsolverCertify (P : BProblem σ) (q : Question) (cfg : BsolverConfig) (s : σ) :
    BsolverResult × BsolverState :=
  match P.classify s with
  | .win => ({ verdict := .win }, {})
  | .loss => ({ verdict := .loss }, {})
  | .cont =>
    let (win, S) := bWin P q cfg cfg.depthCap.toNat s {}
    (bsolverResult win S, S)

end NuzlockeSolver
