import NuzlockeSolver.Engine.Survival
import NuzlockeSolver.Engine.Switch

/-!
# Statuses

Which status a mon can be given, the berries that cure a status or a confusion, and Soul-Heart.
None of them takes hit points.
-/

namespace NuzlockeSolver

namespace Engine

/-- Every team member has hit points within range, and is fainted exactly at none. -/
def BattleState.Coherent (state : BattleState) : Prop :=
  ∀ i, ∀ m ∈ (state.side i).team.toList, m.Coherent

def setLead (state : BattleState) (sideIdx : Int) (teamIdx : Int32) : BattleState :=
  state.setActives sideIdx (·.set 0 teamIdx)

namespace Effects

section Model

def abNone : Int32 := 0
def abMagicGuard : Int32 := 98
def abImmunity : Int32 := 17
def abWaterVeil : Int32 := 41
def abPastelVeil : Int32 := 257
def abLeafGuard : Int32 := 102
def abComatose : Int32 := 213
def abSoulHeart : Int32 := 220
def itemPersimBerry : Int32 := 156
def speciesMiniorMeteor : Int32 := 7740001
def powderMoves : List Int32 := [77, 78, 79, 147, 178, 476]
def statusBerries : List Int32 := [149, 150, 151, 152, 153, 157]

def sunny (weather : Int32) : Bool := weather == weatherSunny || weather == weatherHarshSun

def rainy (weather : Int32) : Bool := weather == weatherRainy || weather == weatherHeavyRain

def poisons (status : Int32) : Bool := status == statusPoison || status == statusToxic

def canApplyStatus (target : PokemonState) (status move attackerAbility : Int32)
    (state : BattleState) : Bool :=
  let breaksMold := isMoldBreaker attackerAbility
  let sun := sunny (effectiveWeather state)
  if target.status != statusNone then false
  else if target.species == speciesMiniorMeteor then false
  else if state.terrain == terrainMisty && isGrounded target state then false
  else if target.ability == abComatose then false
  else if target.ability == abLeafGuard && !breaksMold && sun then false
  else if poisons status && attackerAbility != abCorrosion &&
    ((target.ability == abImmunity && !breaksMold) || hasType target typePoison ||
      hasType target typeSteel) then false
  else if status == statusBurn &&
    (((target.ability == abWaterVeil || target.ability == abWaterBubble) && !breaksMold) ||
      hasType target typeFire) then false
  else if status == statusFreeze &&
    ((target.ability == abMagmaArmor && !breaksMold) || hasType target typeIce || sun) then false
  else if status == statusSleep &&
    (((target.ability == abInsomnia || target.ability == abVitalSpirit) && !breaksMold) ||
      (state.terrain == terrainElectric && isGrounded target state)) then false
  else if status == statusParalysis &&
    ((target.ability == abLimber && !breaksMold) || hasType target typeElectric) then false
  else if powderMoves.contains move && hasType target typeGrass then false
  else if status == statusSleep && target.ability == abSweetVeil && !breaksMold then false
  else if poisons status && target.ability == abPastelVeil && !breaksMold then false
  else if target.ability == abFlowerVeil && !breaksMold && hasType target typeGrass then false
  else true

def giveStatus (status : Int32) (mon : PokemonState) : PokemonState :=
  { mon with
    status := status
    toxicTurns := if status = statusToxic then 1 else mon.toxicTurns }

def applyStatusTo (state : BattleState) (sideIdx : Int) (status : Int32) : BattleState :=
  state.modifyActive sideIdx (giveStatus status)

def statusBerryCures (item status : Int32) : Bool :=
  (item == 152 && status == statusBurn) || (item == 151 && poisons status) ||
    (item == itemChestoBerry && status == statusSleep) || (item == 153 && status == statusFreeze) ||
    (item == 149 && status == statusParalysis)

def clearConfusion (mon : PokemonState) : PokemonState :=
  { mon with volatiles := mon.volatiles &&& ~~~volatileConfused }

def cureStatus (mon : PokemonState) : PokemonState := { mon with status := statusNone }

def eatLum (mon : PokemonState) : PokemonState :=
  eatBerry (cureStatus (if hasVolatile mon volatileConfused then clearConfusion mon else mon))

def checkStatusBerry (state : BattleState) (sideIdx oppSideIdx : Int) : Bool × BattleState :=
  let mon := activeMon state sideIdx
  if berrySuppressed state oppSideIdx then (false, state)
  else if mon.item = itemLumBerry then
    if ¬ hasVolatile mon volatileConfused ∧ mon.status = statusNone then (false, state)
    else (true, onBerryConsumed (state.modifyActive sideIdx eatLum) sideIdx)
  else if mon.status = statusNone ∨ ¬ statusBerries.contains mon.item then (false, state)
  else if statusBerryCures mon.item mon.status then
    (true, onBerryConsumed (state.modifyActive sideIdx fun mon => cureStatus (eatBerry mon)) sideIdx)
  else (false, state)

def checkConfusionBerry (state : BattleState) (sideIdx oppSideIdx : Int) : BattleState :=
  let mon := activeMon state sideIdx
  if berrySuppressed state oppSideIdx then state
  else if ¬ hasVolatile mon volatileConfused then state
  else if mon.item ≠ itemPersimBerry then state
  else
    onBerryConsumed (state.modifyActive sideIdx fun mon => eatBerry (clearConfusion mon)) sideIdx

def soulHeart (sideIdx : Int) (state : BattleState) (slot : Int32) : BattleState :=
  let mon := (state.side sideIdx).mon slot
  if mon.fainted ∨ mon.ability ≠ abSoulHeart then state
  else
    let saved := activeIdx state sideIdx 0
    setLead (changeStatStage (setLead state sideIdx slot) sideIdx 2 1 false false false).2 sideIdx
      saved

def notifyFaintSoulHeart (state : BattleState) : BattleState :=
  let state := state.side0.activeIndices.toList.foldl (soulHeart 0) state
  state.side1.activeIndices.toList.foldl (soulHeart 1) state

end Model

section Proof

theorem sameHp_eatLum (mon : PokemonState) : SameHp mon (eatLum mon) := by
  unfold eatLum
  split <;> exact ⟨rfl, rfl, rfl⟩

theorem edited_eaten {state : BattleState} {sideIdx : Int} {f : PokemonState → PokemonState}
    (hf : ∀ m, SameHp m (f m)) (h : (activeMon state sideIdx).fainted = false) :
    state.Edited Restores (onBerryConsumed (state.modifyActive sideIdx f) sideIdx) := by
  have hate : state.Edited Restores (state.modifyActive sideIdx f) :=
    edited_modifyMon (hf _).restores
  exact hate.trans (edited_onBerryConsumed ((fainted_activeMon hate.related sideIdx).trans h))

theorem edited_checkStatusBerry {state : BattleState} {sideIdx : Int} (oppSideIdx : Int)
    (h : (activeMon state sideIdx).fainted = false) :
    state.Edited Restores (checkStatusBerry state sideIdx oppSideIdx).2 := by
  unfold checkStatusBerry
  extract_lets mon
  split
  · exact .refl
  split
  · split
    · exact .refl
    · exact edited_eaten sameHp_eatLum h
  split
  · exact .refl
  split
  · exact edited_eaten (f := fun mon => cureStatus (eatBerry mon)) (fun m => ⟨rfl, rfl, rfl⟩) h
  · exact .refl

theorem edited_checkConfusionBerry {state : BattleState} {sideIdx : Int} (oppSideIdx : Int)
    (h : (activeMon state sideIdx).fainted = false) :
    state.Edited Restores (checkConfusionBerry state sideIdx oppSideIdx) := by
  unfold checkConfusionBerry
  extract_lets mon
  split
  · exact .refl
  split
  · exact .refl
  split
  · exact .refl
  · exact edited_eaten (f := fun mon => eatBerry (clearConfusion mon)) (fun m => ⟨rfl, rfl, rfl⟩) h

theorem sameHp_giveStatus (status : Int32) (mon : PokemonState) :
    SameHp mon (giveStatus status mon) := ⟨rfl, rfl, rfl⟩

theorem edited_applyStatusTo (state : BattleState) (sideIdx : Int) (status : Int32) :
    state.Edited SameHp (applyStatusTo state sideIdx status) :=
  edited_modifyMon (sameHp_giveStatus status _)

end Proof

end Effects

section Coherence

open Effects

theorem team_setSide {state : BattleState} {i : Int} {side : SideState}
    (h : side.team = (state.side i).team) (j : Int) :
    ((state.setSide i side).side j).team = (state.side j).team := by
  rw [side_setSide]
  split
  · rename_i hij
    rw [h, side_congr state hij]
  · rfl

theorem coherent_setSide {state : BattleState} {i : Int} {side : SideState}
    (h : state.Coherent) (hteam : side.team = (state.side i).team) :
    (state.setSide i side).Coherent := by
  intro j m hm
  rw [team_setSide hteam] at hm
  exact h j m hm

theorem coherent_setLead {state : BattleState} (h : state.Coherent) (i : Int) (idx : Int32) :
    (setLead state i idx).Coherent :=
  coherent_setSide h rfl

theorem mem_setMon {side : SideState} {idx : Int32} {m m' : PokemonState}
    (h : m' ∈ (side.setMon idx m).team.toList) :
    m' ∈ side.team.toList ∨ m' = m ∧ side.mon idx ∈ side.team.toList := by
  have h : m' ∈ side.team.toList.set idx.toInt.toNat m := h
  by_cases hlt : idx.toInt.toNat < side.team.toList.length
  · rcases List.mem_or_eq_of_mem_set h with hold | hnew
    · exact .inl hold
    · refine .inr ⟨hnew, ?_⟩
      rw [SideState.mon, List.getD_eq_getElem _ _ hlt]
      exact List.getElem_mem hlt
  · rw [List.set_eq_of_length_le (Nat.le_of_not_lt hlt)] at h
    exact .inl h

theorem coherent_modifyMon {state : BattleState} {i : Int} {idx : Int32}
    {f : PokemonState → PokemonState} (h : state.Coherent)
    (hf : ((state.side i).mon idx).Coherent → (f ((state.side i).mon idx)).Coherent) :
    (state.modifyMon i idx f).Coherent := by
  intro j m hm
  rw [BattleState.modifyMon, side_setSide] at hm
  split at hm
  · rcases mem_setMon hm with hold | ⟨rfl, hmem⟩
    · exact h i m hold
    · exact hf (h i _ hmem)
  · exact h j m hm

theorem BattleState.Edited.coherent {R : PokemonState → PokemonState → Prop} {s t : BattleState}
    (h : s.Edited R t) (hR : ∀ {m m'}, R m m' → m.Coherent → m'.Coherent) (hs : s.Coherent) :
    t.Coherent := by
  induction h with
  | refl => exact hs
  | modify _ hf ih => exact coherent_modifyMon ih (hR hf)

theorem coherent_of_restores {m m' : PokemonState} (h : Restores m m') (hm : m.Coherent) :
    m'.Coherent := by
  cases hfell : m.fainted with
  | true => exact coherent_of_sameHp ⟨h.fallen hfell, h.heals.maxHp, h.heals.fainted⟩ hm
  | false => exact coherent_of_heals h.heals hm hfell

theorem coherent_soulHeart {state : BattleState} (h : state.Coherent) (sideIdx : Int)
    (slot : Int32) : (soulHeart sideIdx state slot).Coherent := by
  unfold soulHeart
  extract_lets mon saved
  split
  · exact h
  · exact coherent_setLead ((edited_changeStatStage _ _ _ _ _ _ _).coherent coherent_of_sameHp
      (coherent_setLead h sideIdx slot)) sideIdx saved

theorem coherent_notifyFaintSoulHeart {state : BattleState} (h : state.Coherent) :
    (notifyFaintSoulHeart state).Coherent := by
  unfold notifyFaintSoulHeart
  refine List.foldlRecOn _ _ ?_ fun t ht slot _ => coherent_soulHeart ht 1 slot
  exact List.foldlRecOn _ _ h fun t ht slot _ => coherent_soulHeart ht 0 slot

end Coherence

end Engine

end NuzlockeSolver
