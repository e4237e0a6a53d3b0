import Mathlib.Data.List.Nodup
import Mathlib.Tactic.SplitIfs
import NuzlockeSolver.Question
import NuzlockeSolver.Engine.AiConsts
import NuzlockeSolver.Engine.Damage

/-!
# Legal actions

`cpp_enumerate_legal_actions` branch by branch: the forced continuations first, then the moves with
PP, the switches, and Struggle when no move is left.
-/

namespace NuzlockeSolver

namespace Engine

def actionMove : Int := 0

def actionSwitch : Int := 1

def struggleSlot : Int := -2

def moveIdAt (mon : PokemonState) : Int → Int32
  | 0 => mon.moveId0
  | 1 => mon.moveId1
  | 2 => mon.moveId2
  | 3 => mon.moveId3
  | _ => 0

def movePpAt (mon : PokemonState) : Int → Int32
  | 0 => mon.movePp0
  | 1 => mon.movePp1
  | 2 => mon.movePp2
  | 3 => mon.movePp3
  | _ => 0

def hasVolatile (mon : PokemonState) (bit : Int32) : Bool := mon.volatiles &&& bit != 0

def moveDataGet (moves : List MoveData) (moveId : Int32) : Option MoveData :=
  moves.find? (·.moveId = moveId)

theorem moveId_of_moveDataGet {moves : List MoveData} {moveId : Int32} {md : MoveData}
    (h : moveDataGet moves moveId = some md) : md.moveId = moveId := by
  simpa using List.find?_some h

/-- The index of the mon in a slot of a side. -/
def activeIdx (state : BattleState) (sideIdx : Int) (slot : Nat) : Int32 :=
  (state.side sideIdx).activeIndices.toList.getD slot 0

def activeMon (state : BattleState) (sideIdx : Int) : PokemonState :=
  (state.side sideIdx).mon (activeIdx state sideIdx 0)

def makeMoveAction (moveSlot : Int) : ExecAction := { kind := actionMove, moveSlot := moveSlot }

def makeSwitchAction (switchToSlot : Int) : ExecAction :=
  { kind := actionSwitch, switchToSlot := switchToSlot }

def struggleAction : ExecAction :=
  { kind := actionMove, moveSlot := struggleSlot, moveOverride := moveStruggle.toInt }

def switchActions (state : BattleState) (sideIdx : Int) (slot : Nat) : List ExecAction :=
  let team := (state.side sideIdx).team.toList
  ((List.range team.length).filter fun (i : Nat) =>
    (i : Int) != (activeIdx state sideIdx slot).toInt && !(team.getD i default).fainted).map
    fun (i : Nat) => makeSwitchAction i

def moveSlotUsable (moves : List MoveData) (state : BattleState) (mon : PokemonState)
    (moveSlot : Int) : Bool :=
  let move := moveIdAt mon moveSlot
  let isStatus := (moveDataGet moves move).any (·.category == catStatus)
  decide (movePpAt mon moveSlot > 0) &&
    !(hasPseudoWeather state pwGravity && gravityBlocked.contains move) &&
    !(hasVolatile mon volatileTauntActive && isStatus) &&
    !(mon.item == itemAssaultVest && isStatus)

def abilityTrapped (state : BattleState) (sideIdx : Int) (mon : PokemonState) : Bool :=
  let oppSide := state.side (1 - sideIdx)
  let breaksMold := isMoldBreaker mon.ability
  let shedShell := mon.item == itemShedShell
  let isGhost := hasType mon typeGhost
  oppSide.activeIndices.toList.any fun i =>
    let opp := oppSide.mon i
    !opp.fainted && !shedShell && !breaksMold &&
      ((opp.ability == abShadowTag && !isGhost && mon.ability != abShadowTag) ||
        (opp.ability == abMagnetPull && hasType mon typeSteel) ||
        (opp.ability == abArenaTrap && !isGhost && isGrounded mon state))

def canSwitch (state : BattleState) (sideIdx : Int) (mon : PokemonState) : Bool :=
  (!hasTimedVolatile mon veTrapped && !abilityTrapped state sideIdx mon) &&
    (!hasTimedVolatile mon veBound || mon.item == itemShedShell)

def enumerateLegalActions (moves : List MoveData) (state : BattleState) (sideIdx : Int)
    (slot : Nat) : List ExecAction :=
  let mon := (state.side sideIdx).mon (activeIdx state sideIdx slot)
  if hasVolatile mon volatileRecharging then [makeMoveAction (-1)]
  else if mon.chargingMoveSlot ≥ 0 then [makeMoveAction mon.chargingMoveSlot.toInt]
  else if hasVolatile mon volatileLockedMove then [makeMoveAction mon.lockedSlot.toInt]
  else if hasVolatile mon volatileEncoreActive then [makeMoveAction mon.lockedSlot.toInt]
  else if hasVolatile mon volatileChoiceLocked then
    let locked :=
      if movePpAt mon mon.lockedSlot.toInt > 0 then makeMoveAction mon.lockedSlot.toInt
      else struggleAction
    locked :: switchActions state sideIdx slot
  else
    let moveActions :=
      (([0, 1, 2, 3] : List Int).filter (moveSlotUsable moves state mon)).map makeMoveAction
    let switches := if canSwitch state sideIdx mon then switchActions state sideIdx slot else []
    -- Struggle comes after the switches
    moveActions ++ switches ++ if moveActions.isEmpty then [struggleAction] else []

theorem kind_of_mem_switchActions {state : BattleState} {sideIdx : Int} {slot : Nat}
    {a : ExecAction} (h : a ∈ switchActions state sideIdx slot) : a.kind = actionSwitch := by
  obtain ⟨i, -, rfl⟩ := List.mem_map.1 h
  rfl

theorem nodup_switchActions (state : BattleState) (sideIdx : Int) (slot : Nat) :
    (switchActions state sideIdx slot).Nodup := by
  apply List.Nodup.map _ (List.nodup_range.filter _)
  intro i j hij
  exact Int.ofNat.inj (congrArg ExecAction.switchToSlot hij)

theorem makeMoveAction_injective : Function.Injective makeMoveAction :=
  fun _ _ h => congrArg ExecAction.moveSlot h

theorem not_mem_switchActions {state : BattleState} {sideIdx : Int} {slot : Nat} {a : ExecAction}
    (ha : a.kind = actionMove) : a ∉ switchActions state sideIdx slot := by
  intro h
  rw [kind_of_mem_switchActions h] at ha
  cases ha

theorem nodup_ite {α : Type} {c : Prop} [Decidable c] {l m : List α} (hl : l.Nodup)
    (hm : m.Nodup) : (if c then l else m).Nodup := by
  split
  · exact hl
  · exact hm

theorem nodup_mainActions {moveActions switches : List ExecAction} (hmoves : moveActions.Nodup)
    (hswitches : switches.Nodup) (hmove : ∀ a ∈ moveActions, a.kind = actionMove)
    (hswitch : ∀ a ∈ switches, a.kind = actionSwitch) :
    (moveActions ++ switches ++ if moveActions.isEmpty then [struggleAction] else []).Nodup := by
  have hdisjoint : (moveActions ++ switches).Nodup := by
    apply hmoves.append hswitches
    intro a ha ha'
    exact absurd ((hmove a ha).symm.trans (hswitch a ha')) (by decide)
  split
  · rename_i hempty
    rw [List.isEmpty_iff.1 hempty, List.nil_append]
    apply hswitches.append (List.nodup_singleton _)
    intro a ha ha'
    rw [List.mem_singleton.1 ha'] at ha
    exact absurd (hswitch _ ha) (by decide)
  · rwa [List.append_nil]

theorem nodup_enumerateLegalActions (moves : List MoveData) (state : BattleState) (sideIdx : Int)
    (slot : Nat) : (enumerateLegalActions moves state sideIdx slot).Nodup := by
  have hswitch := nodup_switchActions state sideIdx slot
  rw [enumerateLegalActions]
  refine nodup_ite (List.nodup_singleton _) (nodup_ite (List.nodup_singleton _)
    (nodup_ite (List.nodup_singleton _) (nodup_ite (List.nodup_singleton _) (nodup_ite ?_ ?_))))
  · apply List.nodup_cons.2 ⟨not_mem_switchActions _, hswitch⟩
    split <;> rfl
  · apply nodup_mainActions
    · exact ((by decide : ([0, 1, 2, 3] : List Int).Nodup).filter _).map makeMoveAction_injective
    · exact nodup_ite hswitch List.nodup_nil
    · intro a ha
      obtain ⟨_, -, rfl⟩ := List.mem_map.1 ha
      rfl
    · intro a ha
      split at ha
      · exact kind_of_mem_switchActions ha
      · cases ha

end Engine

end NuzlockeSolver
