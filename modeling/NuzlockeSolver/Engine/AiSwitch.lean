import NuzlockeSolver.Engine.AiScorer

/-!
# The switches of the AI

Which benched mons are good enough for a voluntary switch, and which of them is taken.
-/

namespace NuzlockeSolver

namespace Engine

section Score

variable (moves : List MoveData) (state : BattleState)

def switchEstimate : EstimateOptions := { luck := maxLuck, rolloutMaxBp := true }

def bestMoveDamage (atk defn : MonRef) : Except String (Option Int) := do
  let best ← bestDamageMove moves state atk defn switchEstimate
  if best = moveNone then pure none
  else
    let md ← lookupMove moves best
    pure (some (expectedDamage state atk md defn switchEstimate))

def koesWithBestMove (atk defn : MonRef) : Except String Bool := do
  let best ← bestDamageMove moves state atk defn switchEstimate
  if best = moveNone then pure false
  else
    let md ← lookupMove moves best
    pure (canKo state atk md defn switchEstimate)

def damagePct (dmg : Option Int) (defender : PokemonState) : ℚ :=
  match dmg with
  | some d => if maxHpOf defender > 0 then (d : ℚ) / maxHpOf defender else 0
  | none => 0

def speciesSwitchScore (bench player : PokemonState) (playerOhkos : Bool) : Int :=
  let benchSlower := effectiveStat bench 5 false ≤ effectiveStat player 5 false
  (if bench.species = speciesDitto then 2 else 0) +
    if (bench.species = speciesWynaut ∨ bench.species = speciesWobbuffet) ∧
      ¬ (benchSlower ∧ playerOhkos) then 2 else 0

def postKoSwitchScore (bench player : MonRef) : Except String Int := do
  let benchMon := monAt state bench
  let playerMon := monAt state player
  let benchFaster := effectiveStat playerMon 5 false < effectiveStat benchMon 5 false
  let benchOhkos ← koesWithBestMove moves state bench player
  let playerOhkos ← koesWithBestMove moves state player bench
  let benchDmg ← bestMoveDamage moves state bench player
  let playerDmg ← bestMoveDamage moves state player bench
  let benchDealsMore := damagePct playerDmg benchMon < damagePct benchDmg playerMon
  let score := speciesSwitchScore benchMon playerMon playerOhkos
  pure (score +
    if benchFaster ∧ benchOhkos then 5
    else if ¬ benchFaster ∧ benchOhkos ∧ ¬ playerOhkos then 4
    else if benchFaster ∧ benchDealsMore then 3
    else if ¬ benchFaster ∧ benchDealsMore then 2
    else if benchFaster then 1
    else if ¬ benchFaster ∧ playerOhkos then -1
    else 0)

end Score

section Candidates

variable (moves : List MoveData) (state : BattleState) (aiIdx : Int)

def benchRef (slot : Nat) : MonRef := ⟨aiIdx, Int32.ofNat slot⟩

def benchSlots : List Nat :=
  let side := state.side aiIdx
  (List.range side.team.toList.length).filter fun (slot : Nat) =>
    (slot : Int) != (activeIdx state aiIdx 0).toInt && !(side.team.toList.getD slot default).fainted

def survivesTwoHits (slot : Nat) : Except String Bool := do
  let dmg ← bestMoveDamage moves state (activeRef state (1 - aiIdx)) (benchRef aiIdx slot)
  pure (match dmg with
    | none => true
    | some d => decide (d * 2 < (monAt state (benchRef aiIdx slot)).hp.toInt))

/-- Once a faster mon is met, the later ones are judged as if they were faster too. -/
def cond2Step (st : Bool × List Nat) (slot : Nat) : Except String (Bool × List Nat) := do
  let isFaster := decide (effectiveStat (activeMon state (1 - aiIdx)) 5 false <
    effectiveStat (monAt state (benchRef aiIdx slot)) 5 false)
  let valid ←
    if isFaster || st.1 then do
      let ohko ← koesWithBestMove moves state (activeRef state (1 - aiIdx)) (benchRef aiIdx slot)
      pure !ohko
    else survivesTwoHits moves state aiIdx slot
  pure (isFaster || st.1, if valid then st.2 ++ [slot] else st.2)

def cond2ValidSlots : Except String (List Nat) := do
  let st ← (benchSlots state aiIdx).foldlM (cond2Step moves state aiIdx) (false, [])
  pure st.2

def hasValidSwitchCandidate : Except String Bool := do
  let valid ← cond2ValidSlots moves state aiIdx
  pure (!valid.isEmpty)

def selectVoluntarySwitchTarget : Except String Nat := do
  let valid ← cond2ValidSlots moves state aiIdx
  let best ← valid.foldlM (fun (best : Option (Nat × Int)) slot => do
    let score ← postKoSwitchScore moves state (benchRef aiIdx slot) (activeRef state (1 - aiIdx))
    pure (match best with
      | none => some (slot, score)
      | some b => if b.2 < score then some (slot, score) else some b)) none
  match best with
  | some b => pure b.1
  | none => .error "No Cond2-valid switch target found"

end Candidates

end Engine

end NuzlockeSolver
