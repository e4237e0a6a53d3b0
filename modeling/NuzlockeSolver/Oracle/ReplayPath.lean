import NuzlockeSolver.Oracle.TransitionOracle

/-!
# Replaying a captured path

A path captured at one state is replayed at another: the turn is run once with the outcomes of the
path forced, and what it logs must be the path's draws again.
-/

namespace NuzlockeSolver

variable {σ : Type}

structure ObservedDraw where
  event : RngEvent
  occurrence : Nat
  dmgByRoll : Option DmgByRoll

def logToSequence : List RngEntry → (RngEvent → Nat) → List ObservedDraw
  | [], _ => []
  | e :: log, occ =>
    if ¬ e.event.isCatB ∨ e.saturated then logToSequence log occ
    else
      { event := e.event
        occurrence := occ e.event
        dmgByRoll := if e.event = .damageRoll then e.dmgByRoll else none } ::
        logToSequence log (Function.update occ e.event (occ e.event + 1))

def replayFault (what : String) : Fault := oracleFault ("replay_path: " ++ what)

def checkRepresentative (value : Int) (dmg : DmgByRoll) : Except Fault Unit :=
  if h : 0 ≤ value ∧ value < 16 then
    let roll : Fin 16 := ⟨value.toNat, toNat_lt_sixteen h⟩
    if (List.finRange 16).find? (fun i => dmg i = dmg roll) = some roll then .ok ()
    else .error (replayFault "DAMAGE_ROLL prefix value is not the bucket representative")
  else .error (replayFault "DAMAGE_ROLL prefix value out of range")

def checkAligned : List PrefixEntry → List ObservedDraw → Except Fault Unit
  | pe :: path, oe :: observed =>
    if pe.event ≠ oe.event ∨ pe.occurrence ≠ oe.occurrence then
      .error (replayFault "prefix divergence at Cat-B position")
    else do
      match oe.dmgByRoll with
      | some dmg => if pe.event = .damageRoll then checkRepresentative pe.value dmg
      | none => pure ()
      checkAligned path observed
  | _, _ => .ok ()

/-- One replay without the state-shift check. A replay that pauses is not told apart from one that
finishes: its child is the state that the pause restored. -/
def replayTurn (turn : Turn σ) (paused : σ) (path : Path) : Except Fault σ := do
  let (result, c) ← turn.run (channelsOf path)
  let forced := path.filter fun pe => pe.channel = .catB
  let observed := logToSequence c.log fun _ => 0
  if ¬ c.injection.all (·.consumed) then
    .error (replayFault "prefix divergence — fewer branch points observed than prefix expected")
  else if forced.length < observed.length then
    .error (replayFault "prefix divergence — extra Cat-B event observed beyond prefix end")
  else do
    checkAligned forced observed
    match result with
    | .finished child => .ok child
    | .paused _ _ => .ok paused

end NuzlockeSolver
