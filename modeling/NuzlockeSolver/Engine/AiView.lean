import NuzlockeSolver.Engine.AiScorer
import NuzlockeSolver.Engine.Canonical

/-!
# What the AI reads of a battle

The view of a battle keeps what the choices of the AI can depend on. Turn data that only a few moves
and abilities read is kept only where there is one of them; of the PP and the turns in battle the
view keeps what the canonical battle does.
-/

namespace NuzlockeSolver

namespace Engine

structure Keeps where
  turns : Bool := true
  order : Bool := true
  lastSlot : Bool := true
  suckerPunch : Bool := true
  berry : Bool := true

def viewMon (k : Keeps) (m : PokemonState) : PokemonState :=
  { m with
    movePp0 := canonicalizeSlot m.moveId0 m.movePp0
    movePp1 := canonicalizeSlot m.moveId1 m.movePp1
    movePp2 := canonicalizeSlot m.moveId2 m.movePp2
    movePp3 := canonicalizeSlot m.moveId3 m.movePp3
    turnsInBattle := if k.turns then clampTurns m.turnsInBattle else 0
    lastUsedSlot := if k.lastSlot = true ∧ m.lastUsedSlot ≠ -1 then 0 else -1
    suckerPunchLastTurn := k.suckerPunch && m.suckerPunchLastTurn
    consumedBerry := if k.berry then m.consumedBerry else itemNone
    toxicTurns := 0
    sleepTurns := 0
    confusionTurns := 0
    isRestSleep := false
    subHp := 0
    hasActed := false
    metronomeCount := 0
    metronomeLastMove := -1
    mirrorMoveLastMove := -1
    tookDamageThisTurn := false
    hadStatLoweredThisTurn := false
    hadStatRaisedThisTurn := false
    lastMoveFailed := false
    lastPhysicalDamageTaken := 0
    lastSpecialDamageTaken := 0
    lastDamageTaken := 0
    movesUsed := 0
    rolloutHits := 0
    defenseCurlUsed := false
    weightKgReduced := 0
    protectCounter := 0
    stockpileCount := 0
    stockpileDefBoost := 0
    stockpileSpdBoost := 0 }

def SideState.view (k : Keeps) (side : SideState) : SideState :=
  { side with
    team := side.team.map (viewMon k)
    hasBatonPassData := false
    batonPassData := {}
    allyFaintedLastTurn := false
    hasWishPending := false
    wishTurns := 0
    wishHp := 0
    wishSlot := 0
    hasFutureSightPending := false
    fsTurns := 0
    fsDamage := 0
    fsMove := 0
    fsTargetSlot := 0
    redirectTarget := -1
    redirectIsRagePowder := false }

def BattleState.view (k : Keeps) (s : BattleState) : BattleState :=
  { s with
    side0 := s.side0.view k
    side1 := s.side1.view k
    weatherTurns := 0
    terrainTurns := 0
    turnNumber := 1
    echoedVoiceMultiplier := 0
    echoedVoiceUsedThisTurn := false
    battleLastMove := -1
    turnOrder := .empty
    prevTurnOrder := if k.order then s.prevTurnOrder else .empty
    expParticipants := .empty }

section Covers

def readsTurns (md : MoveData) : Bool :=
  md.moveId == moveFakeOut || md.moveId == moveFirstImpression ||
    protectMoves.contains md.moveId || md.tags &&& tagHazard != 0

def readsOrder (md : MoveData) : Bool :=
  md.moveId == movePayback || md.moveId == moveBoltBeak || md.moveId == moveFishiousRend

structure Keeps.CoversMove (k : Keeps) (md : MoveData) : Prop where
  turns : readsTurns md = true → k.turns = true
  order : readsOrder md = true → k.order = true
  lastSlot : md.moveId = moveEncore → k.lastSlot = true
  suckerPunch : md.moveId = moveSuckerPunch → k.suckerPunch = true
  berry : md.moveId = moveBelch → k.berry = true

structure Keeps.CoversMon (k : Keeps) (moves : List MoveData) (m : PokemonState) : Prop where
  slowStart : m.ability = abSlowStart → k.turns = true
  analytic : m.ability = abAnalytic → k.order = true
  moves : ∀ slot md, moveIdAt m slot ≠ moveNone → moveDataGet moves (moveIdAt m slot) = some md →
    k.CoversMove md

def Keeps.Covers (k : Keeps) (moves : List MoveData) (s : BattleState) : Prop :=
  ∀ i idx, k.CoversMon moves ((s.side i).mon idx)

theorem covers_all (moves : List MoveData) (s : BattleState) : Keeps.Covers {} moves s :=
  fun _ _ => ⟨fun _ => rfl, fun _ => rfl,
    fun _ _ _ _ => ⟨fun _ => rfl, fun _ => rfl, fun _ => rfl, fun _ => rfl, fun _ => rfl⟩⟩

def knownData (moves : List MoveData) (m : PokemonState) : List MoveData :=
  ([0, 1, 2, 3] : List Int).filterMap fun slot => moveDataGet moves (moveIdAt m slot)

def BattleState.mons (s : BattleState) : List PokemonState :=
  s.side0.team.toList ++ s.side1.team.toList

def BattleState.keeps (moves : List MoveData) (s : BattleState) : Keeps :=
  let known (p : MoveData → Bool) := s.mons.any fun m => (knownData moves m).any p
  { turns := s.mons.any (·.ability == abSlowStart) || known readsTurns
    order := s.mons.any (·.ability == abAnalytic) || known readsOrder
    lastSlot := known (·.moveId == moveEncore)
    suckerPunch := known (·.moveId == moveSuckerPunch)
    berry := known (·.moveId == moveBelch) }

theorem mem_knownData {moves : List MoveData} {m : PokemonState} {slot : Int} {md : MoveData}
    (hmove : moveIdAt m slot ≠ moveNone) (h : moveDataGet moves (moveIdAt m slot) = some md) :
    md ∈ knownData moves m := by
  refine List.mem_filterMap.2 ⟨slot, ?_, h⟩
  by_contra hslot
  refine hmove ?_
  unfold moveIdAt
  split <;> first | rfl | exact absurd (by decide) hslot

theorem mon_eq_default_or_mem (s : BattleState) (i : Int) (idx : Int32) :
    (s.side i).mon idx = default ∨ (s.side i).mon idx ∈ s.mons := by
  rw [SideState.mon, List.getD_eq_getElem?_getD]
  cases h : (s.side i).team.toList[idx.toInt.toNat]? with
  | none => exact .inl rfl
  | some m =>
    refine .inr (List.mem_append.2 ?_)
    have hmem := List.mem_of_getElem? h
    unfold BattleState.side at hmem
    split at hmem
    · exact .inl hmem
    · exact .inr hmem

theorem moveIdAt_default (slot : Int) : moveIdAt default slot = moveNone := by
  unfold moveIdAt
  split <;> rfl

theorem keeps_covers (moves : List MoveData) (s : BattleState) :
    (s.keeps moves).Covers moves s := by
  intro i idx
  rcases mon_eq_default_or_mem s i idx with h | hmem
  · rw [h]
    exact ⟨fun h => absurd h (by decide), fun h => absurd h (by decide),
      fun slot _ hslot _ => absurd (moveIdAt_default slot) hslot⟩
  · have hability {ability : Int32} (h : ((s.side i).mon idx).ability = ability) :
        s.mons.any (·.ability == ability) = true :=
      List.any_eq_true.2 ⟨_, hmem, beq_iff_eq.2 h⟩
    have hknown {md : MoveData} (hmd : md ∈ knownData moves ((s.side i).mon idx))
        {p : MoveData → Bool} (hp : p md = true) :
        (s.mons.any fun m => (knownData moves m).any p) = true :=
      List.any_eq_true.2 ⟨_, hmem, List.any_eq_true.2 ⟨md, hmd, hp⟩⟩
    refine ⟨fun h => Bool.or_eq_true_iff.2 (.inl (hability h)),
      fun h => Bool.or_eq_true_iff.2 (.inl (hability h)), fun slot md hslot hmd => ?_⟩
    have hmd' := mem_knownData hslot hmd
    exact ⟨fun h => Bool.or_eq_true_iff.2 (.inr (hknown hmd' h)),
      fun h => Bool.or_eq_true_iff.2 (.inr (hknown hmd' h)),
      fun h => hknown hmd' (beq_iff_eq.2 h), fun h => hknown hmd' (beq_iff_eq.2 h),
      fun h => hknown hmd' (beq_iff_eq.2 h)⟩

end Covers

section Lookup

variable {k : Keeps} (s : BattleState)

theorem viewMon_default (k : Keeps) : viewMon k default = default := by
  have hclamp : clampTurns (default : PokemonState).turnsInBattle = 0 := by decide
  have hslot : (default : PokemonState).lastUsedSlot = -1 := rfl
  have hsucker : (default : PokemonState).suckerPunchLastTurn = false := rfl
  have hberry : (default : PokemonState).consumedBerry = itemNone := rfl
  simp only [viewMon, hclamp, hslot, hsucker, hberry, ite_self, Bool.and_false, ne_eq,
    not_true_eq_false, and_false, if_false]
  rfl

theorem side_view (i : Int) : (s.view k).side i = (s.side i).view k := by
  unfold BattleState.side
  split <;> rfl

theorem mon_view (side : SideState) (idx : Int32) :
    (side.view k).mon idx = viewMon k (side.mon idx) := by
  rw [SideState.mon, SideState.mon, List.getD_eq_getElem?_getD, List.getD_eq_getElem?_getD]
  change ((side.team.toList.map (viewMon k))[idx.toInt.toNat]?).getD default = _
  rw [List.getElem?_map]
  cases side.team.toList[idx.toInt.toNat]? with
  | none => exact (viewMon_default k).symm
  | some m => rfl

theorem activeIdx_view (i : Int) (slot : Nat) :
    activeIdx (s.view k) i slot = activeIdx s i slot := by
  rw [activeIdx, side_view]
  rfl

theorem activeMon_view (i : Int) :
    activeMon (s.view k) i = viewMon k (activeMon s i) := by
  rw [activeMon, side_view, mon_view, activeIdx_view]
  rfl

theorem team_length_view (i : Int) :
    ((s.view k).side i).team.toList.length = (s.side i).team.toList.length := by
  rw [side_view]
  exact List.length_map _

theorem team_getD_view (i : Int) (n : Nat) :
    ((s.view k).side i).team.toList.getD n default =
      viewMon k ((s.side i).team.toList.getD n default) := by
  rw [side_view, List.getD_eq_getElem?_getD, List.getD_eq_getElem?_getD]
  change (((s.side i).team.toList.map (viewMon k))[n]?).getD default = _
  rw [List.getElem?_map]
  cases (s.side i).team.toList[n]? with
  | none => exact (viewMon_default k).symm
  | some m => rfl

theorem moveIdAt_view (m : PokemonState) : moveIdAt (viewMon k m) = moveIdAt m := by
  funext slot
  unfold moveIdAt
  split <;> rfl

theorem movePpAt_pos_view (m : PokemonState) (slot : Int) :
    movePpAt (viewMon k m) slot > 0 ↔ movePpAt m slot > 0 := by
  unfold movePpAt
  split
  · exact canonicalizeSlot_pos_iff _ _
  · exact canonicalizeSlot_pos_iff _ _
  · exact canonicalizeSlot_pos_iff _ _
  · exact canonicalizeSlot_pos_iff _ _
  · rfl

theorem movePpAt_eq_zero_view (m : PokemonState) (slot : Int) :
    movePpAt (viewMon k m) slot = 0 ↔ movePpAt m slot = 0 := by
  unfold movePpAt
  split
  · exact canonicalizeSlot_eq_zero_iff _ _
  · exact canonicalizeSlot_eq_zero_iff _ _
  · exact canonicalizeSlot_eq_zero_iff _ _
  · exact canonicalizeSlot_eq_zero_iff _ _
  · rfl

end Lookup

section Canonical

theorem viewMon_canonicalizeMon (k : Keeps) (m : PokemonState) :
    viewMon k (canonicalizeMon m) = viewMon k m := by
  simp only [viewMon, canonicalizeMon, canonicalizeSlot_idem, clampTurns_idem]
  rfl

theorem view_canonicalizePp (k : Keeps) (s : BattleState) :
    s.canonicalizePp.view k = s.view k := by
  have hside (side : SideState) : side.canonicalizePp.view k = side.view k := by
    have hteam : side.canonicalizePp.team.map (viewMon k) = side.team.map (viewMon k) := by
      rw [InlineVec.mk.injEq]
      change (side.team.toList.map canonicalizeMon).map (viewMon k) = _
      rw [List.map_map]
      exact List.map_congr_left fun m _ => viewMon_canonicalizeMon k m
    rw [SideState.view, hteam]
    rfl
  rw [BattleState.view, BattleState.view, BattleState.canonicalizePp, hside, hside]

end Canonical

section LegalActions

variable {k : Keeps} (moves : List MoveData) (s : BattleState)

theorem switchActions_view (i : Int) (slot : Nat) :
    switchActions (s.view k) i slot = switchActions s i slot := by
  simp only [switchActions, team_length_view, activeIdx_view, team_getD_view]
  rfl

theorem moveSlotUsable_view (m : PokemonState) :
    moveSlotUsable moves (s.view k) (viewMon k m) = moveSlotUsable moves s m := by
  funext slot
  simp only [moveSlotUsable, movePpAt_pos_view]
  rfl

theorem canSwitch_view (i : Int) (m : PokemonState) :
    canSwitch (s.view k) i (viewMon k m) = canSwitch s i m := by
  simp only [canSwitch, abilityTrapped, side_view, mon_view]
  rfl

theorem enumerateLegalActions_view (i : Int) (slot : Nat) :
    enumerateLegalActions moves (s.view k) i slot = enumerateLegalActions moves s i slot := by
  simp only [enumerateLegalActions, side_view, mon_view, activeIdx_view, switchActions_view,
    canSwitch_view, movePpAt_pos_view, moveSlotUsable_view]
  rfl

theorem enumerateLegalActions_canon (i : Int) (slot : Nat) :
    enumerateLegalActions moves s.canonicalizePp i slot = enumerateLegalActions moves s i slot := by
  rw [← enumerateLegalActions_view (k := {}), view_canonicalizePp, enumerateLegalActions_view]

end LegalActions

end Engine

end NuzlockeSolver
