import NuzlockeSolver.Engine.AiAnalytic
import NuzlockeSolver.Engine.AiViewDamage

/-!
# The choices of the AI on the view

The scorer asks of PP only whether a slot has any, and reads turn data only for the moves that go by
them. So the scores, the switches and the set of possible actions are those of the view; that the
canonical PP are invisible is a case of it.
-/

namespace NuzlockeSolver

namespace Engine

section View

variable {k : Keeps} {moves : List MoveData} {s : BattleState} (hk : k.Covers moves s)
  (aiIdx : Int)
include hk

section Predicates

omit hk in
theorem turnsInBattle_view (m : PokemonState) (hturns : k.turns = true) :
    (viewMon k m).turnsInBattle = clampTurns m.turnsInBattle := if_pos hturns

omit hk in
theorem turnsInBattle_eq_zero_view (m : PokemonState) (hturns : k.turns = true) :
    (viewMon k m).turnsInBattle = 0 ↔ m.turnsInBattle = 0 := by
  rw [turnsInBattle_view m hturns]
  exact clampTurns_eq_iff (by decide) m.turnsInBattle

omit hk in
theorem turnsInBattle_beq_zero_view (m : PokemonState) (hturns : k.turns = true) :
    ((viewMon k m).turnsInBattle == 0) = (m.turnsInBattle == 0) := by
  rw [Bool.eq_iff_iff, beq_iff_eq, beq_iff_eq, turnsInBattle_eq_zero_view m hturns]

omit hk in
theorem turnsInBattle_pos_view (m : PokemonState) (hturns : k.turns = true) :
    (viewMon k m).turnsInBattle > 0 ↔ m.turnsInBattle > 0 := by
  rw [turnsInBattle_view m hturns]
  exact clampTurns_gt_iff (by decide) m.turnsInBattle

omit hk in
theorem usableMoves_view (m : PokemonState) :
    usableMoves moves (viewMon k m) = usableMoves moves m := by
  simp only [usableMoves, movePpAt_eq_zero_view, moveIdAt_view]

omit hk in
theorem hasSplit_view (m : PokemonState) :
    hasSplit moves (viewMon k m) = hasSplit moves m := by
  funext category
  rw [hasSplit, usableMoves_view, hasSplit]

omit hk in
theorem livingCount_view (side : SideState) : livingCount (side.view k) = livingCount side := by
  rw [livingCount, SideState.view, InlineVec.map, List.countP_map]
  rfl

omit hk in
theorem playerAttacks_view : playerAttacks moves (s.view k) aiIdx = playerAttacks moves s aiIdx := by
  rw [playerAttacks, activeMon_view, usableMoves_view, playerAttacks]

theorem coversMove_of_attack {md : MoveData} (h : md ∈ playerAttacks moves s aiIdx) :
    k.CoversMove md := by
  obtain ⟨slot, -, hslot⟩ := List.mem_filterMap.1 (List.mem_of_mem_filter h)
  split at hslot
  · cases hslot
  · rename_i husable
    exact (hk _ _).moves slot md (not_or.1 husable).1 hslot

omit hk in
theorem any_congr_mem {α : Type} {l : List α} {p q : α → Bool} (h : ∀ a ∈ l, p a = q a) :
    l.any p = l.any q := by
  rw [Bool.eq_iff_iff, List.any_eq_true, List.any_eq_true]
  exact exists_congr fun a => and_congr_right fun ha => by rw [h a ha]

theorem playerEstimate_view {md : MoveData} (hmd : k.CoversMove md) :
    playerEstimate (s.view k) aiIdx md = playerEstimate s aiIdx md := by
  simp only [playerEstimate, activeRef_view, expectedDamage_view hk hmd]

/-- A question about the player's attacks is answered by what they are estimated to do. -/
theorem any_attack_view (p : Int → Bool) :
    ((playerAttacks moves s aiIdx).any fun md => p (playerEstimate (s.view k) aiIdx md)) =
      (playerAttacks moves s aiIdx).any fun md => p (playerEstimate s aiIdx md) :=
  any_congr_mem fun md h => by rw [playerEstimate_view hk aiIdx (coversMove_of_attack hk aiIdx h)]

theorem maxPlayerDamage_view :
    maxPlayerDamage moves (s.view k) aiIdx = maxPlayerDamage moves s aiIdx := by
  rw [maxPlayerDamage, playerAttacks_view, maxPlayerDamage]
  refine congrArg (List.foldl max 0) (List.map_congr_left fun md h => ?_)
  exact playerEstimate_view hk aiIdx (coversMove_of_attack hk aiIdx h)

theorem playerDealsZeroDamage_view :
    playerDealsZeroDamage moves (s.view k) aiIdx = playerDealsZeroDamage moves s aiIdx := by
  have hany := any_attack_view hk aiIdx fun n => decide (n > 0)
  rw [playerDealsZeroDamage, playerDealsZeroDamage, playerAttacks_view]
  simpa only [List.any_eq_not_all_not, Bool.not_inj_iff] using hany

theorem playerCanNhkoAi_view (n : Int) :
    playerCanNhkoAi moves (s.view k) aiIdx n = playerCanNhkoAi moves s aiIdx n := by
  rw [playerCanNhkoAi, playerAttacks_view, activeMon_view, playerCanNhkoAi]
  exact any_attack_view hk aiIdx fun d => decide ((activeMon s aiIdx).hp.toInt ≤ d * n)

theorem playerCanKoAi_view :
    playerCanKoAi moves (s.view k) aiIdx = playerCanKoAi moves s aiIdx := by
  have hany : ((playerAttacks moves s aiIdx).any fun md =>
      canKo (s.view k) (activeRef s (1 - aiIdx)) md (activeRef s aiIdx) { luck := averageLuck }) =
      (playerAttacks moves s aiIdx).any fun md =>
        canKo s (activeRef s (1 - aiIdx)) md (activeRef s aiIdx) { luck := averageLuck } :=
    any_congr_mem fun md h => canKo_view hk (coversMove_of_attack hk aiIdx h) _ _ _
  simp only [playerCanKoAi, activeMon_view, activeRef_view, playerAttacks_view, hany]
  rfl

theorem shouldRecover_view :
    shouldRecover moves (s.view k) aiIdx = shouldRecover moves s aiIdx := by
  funext healPct
  simp only [shouldRecover, maxPlayerDamage_view hk, activeMon_view, playerCanKoAi_view hk,
    aiFaster_view hk]
  rfl

end Predicates

section Setup

theorem distSetup_view : distSetup moves (s.view k) aiIdx = distSetup moves s aiIdx := by
  funext kind
  simp only [distSetup, playerCanNhkoAi_view hk, activeMon_view, playerCanKoAi_view hk,
    aiFaster_view hk]
  rfl

theorem distCritSetup_view :
    distCritSetup moves (s.view k) aiIdx = distCritSetup moves s aiIdx := by
  funext moveId
  simp only [distCritSetup, koUnlessSashOrSturdy, activeMon_view, playerCanKoAi_view hk]
  rfl

theorem distBellyDrum_view :
    distBellyDrum moves (s.view k) aiIdx = distBellyDrum moves s aiIdx := by
  have hany (hp : Int) := any_attack_view hk aiIdx fun d => decide (hp ≤ d)
  simp only [distBellyDrum, activeMon_view, playerAttacks_view, hany]
  rfl

omit hk in
theorem distTailwind_view : distTailwind (s.view k) aiIdx = distTailwind s aiIdx := by
  simp only [distTailwind, side_view, map_mon_view, List.filter_map, List.any_map]
  rfl

omit hk in
theorem distCoaching_view : distCoaching (s.view k) aiIdx = distCoaching s aiIdx := by
  have hpartner (side : SideState) :
      partnerOf (side.view k) = (partnerOf side).map (viewMon k) := by
    rw [partnerOf, map_mon_view, List.find?_map]
    rfl
  simp only [distCoaching, side_view, hpartner]
  cases partnerOf (s.side aiIdx) with
  | none => rfl
  | some partner => rfl

end Setup

section Status

theorem distCounter_view : distCounter moves (s.view k) aiIdx = distCounter moves s aiIdx := by
  funext isCounter aiFst
  simp only [distCounter, koUnlessSashOrSturdy, activeMon_view, hasSplit_view,
    playerCanKoAi_view hk]
  rfl

omit hk in
theorem distRolePlay_view : distRolePlay (s.view k) aiIdx = distRolePlay s aiIdx := by
  simp only [distRolePlay, side_view, map_mon_view, activeMon_view, List.any_map]
  rfl

omit hk in
theorem distEncore_view (hlast : k.lastSlot = true) : distEncore (s.view k) aiIdx =
    distEncore s aiIdx := by
  funext aiFst
  have hslot : (viewMon k (activeMon s (1 - aiIdx))).lastUsedSlot = -1 ↔
      (activeMon s (1 - aiIdx)).lastUsedSlot = -1 := by
    simp [viewMon, hlast]
  simp only [distEncore, activeMon_view, hslot]
  rfl

theorem distStatusSpecial_view {md : MoveData} (hmd : k.CoversMove md) (aiFst seesKill : Bool) :
    distStatusSpecial moves (s.view k) aiIdx md.moveId aiFst seesKill =
      distStatusSpecial moves s aiIdx md.moveId aiFst seesKill := by
  have hencore (d : ScoreDist) :
      (if md.moveId = moveEncore then distEncore (s.view k) aiIdx aiFst else d) =
        if md.moveId = moveEncore then distEncore s aiIdx aiFst else d := by
    split
    · rename_i h
      rw [distEncore_view aiIdx (hmd.lastSlot h)]
    · rfl
  simp only [distStatusSpecial, distRolePlay_view, distImprison, distLeechSeed, distFinalGambit,
    distSleepMove, sleepSynergy, distTaunt, distBatonPass, distMemento, hencore,
    distCounter_view hk, distMagnetRise, activeMon_view, side_view, livingCount_view,
    playerAttacks_view, playerCanKoAi_view hk]
  rfl

theorem distSetupMove_view {md : MoveData} (hmd : k.CoversMove md) (aiFst seesKill : Bool) :
    distSetupMove moves (s.view k) aiIdx md aiFst seesKill =
      distSetupMove moves s aiIdx md aiFst seesKill := by
  simp only [distSetupMove, distSubstitute, distBellyDrum_view hk, distCritSetup_view hk,
    unlessUnaware, distSetup_view hk, distSpecialAttackSetup, distCoaching_view,
    distTailwind_view, distTrickRoom, distTerrain, distStatusSpecial_view hk aiIdx hmd,
    activeMon_view]
  rfl

end Status

section Damaging

theorem seesOwnKill_view {md : MoveData} (hmd : k.CoversMove md) :
    seesOwnKill (s.view k) aiIdx md = seesOwnKill s aiIdx md := by
  simp only [seesOwnKill, aiEstimate, activeMon_view, activeRef_view, expectedDamage_view hk hmd]
  rfl

omit hk in
theorem killBonus_view : killBonus (s.view k) aiIdx = killBonus s aiIdx := by
  funext aiFst
  rw [killBonus, activeMon_view]
  rfl

theorem distRanked_view {md : MoveData} (hmd : k.CoversMove md) (pHighest : ℚ)
    (kills aiFst : Bool) : distRanked moves (s.view k) aiIdx md pHighest kills aiFst =
      distRanked moves s aiIdx md pHighest kills aiFst := by
  have hsucker : (md.moveId = moveSuckerPunch ∧
      (viewMon k (activeMon s aiIdx)).suckerPunchLastTurn = true) ↔
      (md.moveId = moveSuckerPunch ∧ (activeMon s aiIdx).suckerPunchLastTurn = true) :=
    and_congr_right fun h => by simp [viewMon, hmd.suckerPunch h]
  simp only [distRanked, earlyBonus, rankDist, distFutureSight, distTrapping, pursuitDist,
    fallbackDist, blocksStatReduction, seesOwnKill_view hk aiIdx hmd, killBonus_view,
    hasSplit_view, activeMon_view, playerCanKoAi_view hk, hsucker]
  rfl

theorem distDamage_view {md : MoveData} (hmd : k.CoversMove md) (pHighest : ℚ)
    (kills aiFst : Bool) : distDamage moves (s.view k) aiIdx md pHighest kills aiFst =
      distDamage moves s aiIdx md pHighest kills aiFst := by
  have hfakeOut : (md.moveId = moveFakeOut ∧ fakeOutFails (s.view k) aiIdx md = true) ↔
      (md.moveId = moveFakeOut ∧ fakeOutFails s aiIdx md = true) := by
    refine and_congr_right fun h => ?_
    have hturns := hmd.turns (by simp [readsTurns, h])
    simp only [fakeOutFails, activeMon_view, bne, turnsInBattle_beq_zero_view _ hturns]
    rfl
  have hfirst : (md.moveId = moveFirstImpression ∧
      (viewMon k (activeMon s aiIdx)).turnsInBattle > 0) ↔
      (md.moveId = moveFirstImpression ∧ (activeMon s aiIdx).turnsInBattle > 0) :=
    and_congr_right fun h => turnsInBattle_pos_view _ (hmd.turns (by simp [readsTurns, h]))
  simp only [distDamage, additiveDist, isContrarySetup, explosionDist, distRanked_view hk aiIdx hmd,
    hfakeOut, seesOwnKill_view hk aiIdx hmd, killBonus_view, activeMon_view, side_view,
    livingCount_view, hfirst]
  rfl

end Damaging

section Action

omit hk in
theorem distProtect_view (hturns : k.turns = true) :
    distProtect (s.view k) aiIdx = distProtect s aiIdx := by
  simp only [distProtect, activeMon_view, turnsInBattle_eq_zero_view _ hturns]
  rfl

omit hk in
theorem distHazard_view (hturns : k.turns = true) :
    distHazard (s.view k) aiIdx = distHazard s aiIdx := by
  funext moveId
  simp only [distHazard, activeMon_view, side_view, turnsInBattle_beq_zero_view _ hturns]
  rfl

theorem distMove_view {md : MoveData} (hmd : k.CoversMove md) (pHighest : ℚ)
    (kills aiFst seesKill : Bool) :
    distMove moves (s.view k) aiIdx md pHighest kills aiFst seesKill =
      distMove moves s aiIdx md pHighest kills aiFst seesKill := by
  have hprotect (d : ScoreDist) :
      (if protectMoves.contains md.moveId = true then distProtect (s.view k) aiIdx else d) =
        if protectMoves.contains md.moveId = true then distProtect s aiIdx else d := by
    split
    · rename_i h
      rw [distProtect_view aiIdx (hmd.turns (by simp only [readsTurns, h, Bool.or_true,
        Bool.true_or]))]
    · rfl
  have hhazard (d : ScoreDist) :
      (if md.tags &&& tagHazard ≠ 0 then distHazard (s.view k) aiIdx md.moveId else d) =
        if md.tags &&& tagHazard ≠ 0 then distHazard s aiIdx md.moveId else d := by
    split
    · rename_i h
      rw [distHazard_view aiIdx (hmd.turns (by simp [readsTurns, h]))]
    · rfl
  simp only [distMove, distDamage_view hk aiIdx hmd, hprotect, distRecovery, distRest,
    shouldRecover_view hk, hhazard, distScreen, powderFails, distParalysis, distWillOWisp,
    distPoisonMove, playerDealsZeroDamage_view hk, distSetupMove_view hk aiIdx hmd,
    activeMon_view, side_view]
  rfl

theorem distAction_view : distAction moves (s.view k) aiIdx = distAction moves s aiIdx := by
  funext action pHighest kills aiFst seesKill
  simp only [distAction, activeMon_view, moveIdAt_view]
  by_cases hswitch : action.kind = actionSwitch ∨ action.moveSlot < 0
  · rw [if_pos hswitch, if_pos hswitch]
  rw [if_neg hswitch, if_neg hswitch]
  by_cases hslot : moveIdAt (activeMon s aiIdx) action.moveSlot = moveNone
  · rw [if_pos hslot, if_pos hslot]
  rw [if_neg hslot, if_neg hslot]
  cases hmd : moveDataGet moves (moveIdAt (activeMon s aiIdx) action.moveSlot) with
  | none => rfl
  | some md => exact distMove_view hk aiIdx ((hk aiIdx _).moves _ md hslot hmd) _ _ _ _

theorem exceptionMoveSeesKill_view :
    exceptionMoveSeesKill moves (s.view k) aiIdx = exceptionMoveSeesKill moves s aiIdx := by
  unfold exceptionMoveSeesKill
  dsimp only
  congr 1
  funext slot
  simp only [activeMon_view, moveIdAt_view, movePpAt_eq_zero_view]
  by_cases hempty : moveIdAt (activeMon s aiIdx) slot = moveNone ∨ movePpAt (activeMon s aiIdx) slot = 0
  · rw [if_pos hempty, if_pos hempty]
  rw [if_neg hempty, if_neg hempty]
  split
  · rfl
  · refine bind_congr_ok fun md hmd => ?_
    have hcovers := (hk aiIdx _).moves slot md (not_or.1 hempty).1 (lookupMove_eq_ok hmd)
    rw [seesOwnKill_view hk aiIdx hcovers]

end Action

section Switches

theorem coversMove_of_best {atk defn : MonRef} {opts : EstimateOptions} {best : Int32}
    {md : MoveData} (hbest : bestDamageMove moves s atk defn opts = .ok best)
    (hne : best ≠ moveNone) (hmd : lookupMove moves best = .ok md) : k.CoversMove md := by
  obtain hnone | ⟨slot, rfl⟩ := bestDamageMove_slot hbest
  · exact absurd hnone hne
  · exact coversMove_of_lookup hk hne hmd

theorem bestMoveDamage_view : bestMoveDamage moves (s.view k) = bestMoveDamage moves s := by
  funext atk defn
  rw [bestMoveDamage, bestMoveDamage, bestDamageMove_view hk]
  refine bind_congr_ok fun best hbest => ?_
  split
  · rfl
  · rename_i hne
    refine bind_congr_ok fun md hmd => ?_
    rw [expectedDamage_view hk (coversMove_of_best hk hbest hne hmd)]

theorem koesWithBestMove_view : koesWithBestMove moves (s.view k) = koesWithBestMove moves s := by
  funext atk defn
  rw [koesWithBestMove, koesWithBestMove, bestDamageMove_view hk]
  refine bind_congr_ok fun best hbest => ?_
  split
  · rfl
  · rename_i hne
    refine bind_congr_ok fun md hmd => ?_
    rw [canKo_view hk (coversMove_of_best hk hbest hne hmd)]

theorem postKoSwitchScore_view :
    postKoSwitchScore moves (s.view k) = postKoSwitchScore moves s := by
  funext bench player
  simp only [postKoSwitchScore, monAt_view, bestMoveDamage_view hk, koesWithBestMove_view hk,
    effectiveStat_view]
  rfl

omit hk in
theorem benchSlots_view : benchSlots (s.view k) aiIdx = benchSlots s aiIdx := by
  simp only [benchSlots, team_length_view, activeIdx_view, team_getD_view]
  rfl

theorem cond2Step_view : cond2Step moves (s.view k) aiIdx = cond2Step moves s aiIdx := by
  funext st slot
  simp only [cond2Step, survivesTwoHits, activeMon_view, activeRef_view, monAt_view,
    bestMoveDamage_view hk, koesWithBestMove_view hk, effectiveStat_view]
  rfl

theorem cond2ValidSlots_view :
    cond2ValidSlots moves (s.view k) aiIdx = cond2ValidSlots moves s aiIdx := by
  rw [cond2ValidSlots, benchSlots_view, cond2Step_view hk, cond2ValidSlots]

theorem selectVoluntarySwitchTarget_view :
    selectVoluntarySwitchTarget moves (s.view k) aiIdx =
      selectVoluntarySwitchTarget moves s aiIdx := by
  simp only [selectVoluntarySwitchTarget, cond2ValidSlots_view hk, postKoSwitchScore_view hk,
    activeRef_view]

end Switches

section Support

theorem switchGate_view : switchGate moves (s.view k) aiIdx = switchGate moves s aiIdx := by
  funext actions
  simp only [switchGate, hasValidSwitchCandidate, activeMon_view, cond2ValidSlots_view hk]
  rfl

theorem allMovesLow_view : allMovesLow moves (s.view k) aiIdx = allMovesLow moves s aiIdx := by
  funext actions ctx plHp
  simp only [allMovesLow, maxPossibleMoveScore, possibleMoveScores, distAction_view hk,
    aiFaster_view hk]

theorem moveProbs_view : moveProbs moves (s.view k) aiIdx = moveProbs moves s aiIdx := by
  funext actions ctx plHp exc
  simp only [moveProbs, otherDists, damagingDists, distAction_view hk, aiFaster_view hk]

omit hk in
theorem expandDoubles_view :
    expandDoubles moves (s.view k) aiIdx = expandDoubles moves s aiIdx := by
  funext probs
  simp only [expandDoubles, activeMon_view, side_view, moveIdAt_view]
  rfl

theorem computeActionProbabilities_view :
    computeActionProbabilities moves (s.view k) aiIdx =
      computeActionProbabilities moves s aiIdx := by
  simp only [computeActionProbabilities, enumerateLegalActions_view, buildDamageContext_view hk,
    activeMon_view, exceptionMoveSeesKill_view hk, switchGate_view hk, allMovesLow_view hk,
    selectVoluntarySwitchTarget_view hk, moveProbs_view hk, expandDoubles_view]
  rfl

theorem possibleAiActions_view :
    possibleAiActions moves (s.view k) aiIdx = possibleAiActions moves s aiIdx := by
  rw [possibleAiActions, computeActionProbabilities_view hk, possibleAiActions]

end Support

omit hk in
theorem possibleAiActions_canon :
    possibleAiActions moves s.canonicalizePp aiIdx = possibleAiActions moves s aiIdx := by
  rw [← possibleAiActions_view (covers_all moves s.canonicalizePp), view_canonicalizePp,
    possibleAiActions_view (covers_all moves s)]

def BattleState.aiView (moves : List MoveData) (s : BattleState) : BattleState :=
  s.view (s.keeps moves)

omit hk in
theorem possibleAiActions_congr {t : BattleState} (h : s.aiView moves = t.aiView moves) :
    possibleAiActions moves s aiIdx = possibleAiActions moves t aiIdx := by
  rw [← possibleAiActions_view (keeps_covers moves s), ← possibleAiActions_view
    (keeps_covers moves t)]
  exact congrArg (possibleAiActions moves · aiIdx) h

end View

/-- Masking the PP is invisible to the choices of both players, masks once and for all, and
identifies the battles that differ only where it masks. -/
theorem canonicalizePp_invisible (moves : List MoveData) :
    (∀ (s : BattleState) (sideIdx : Int) (slot : Nat),
      enumerateLegalActions moves s.canonicalizePp sideIdx slot =
        enumerateLegalActions moves s sideIdx slot) ∧
    (∀ (s : BattleState) (aiIdx : Int),
      possibleAiActions moves s.canonicalizePp aiIdx = possibleAiActions moves s aiIdx) ∧
    (∀ s : BattleState, s.canonicalizePp.canonicalizePp = s.canonicalizePp) ∧
    ∀ s t : BattleState, s.canonicalizePp = t.canonicalizePp ↔ s.SameBattle t :=
  ⟨fun s sideIdx slot => enumerateLegalActions_canon moves s sideIdx slot,
    fun _ aiIdx => possibleAiActions_canon aiIdx,
    BattleState.canonicalizePp_idem, BattleState.canonicalizePp_eq_iff⟩

end Engine

end NuzlockeSolver
