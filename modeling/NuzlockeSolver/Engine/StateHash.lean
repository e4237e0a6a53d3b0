import NuzlockeSolver.Engine.RoundTrip

/-!
# The hash of engine states

The hash walks a state in the order of its equality. Both see the same of a state: its visible
part, without the fields the solver leaves out.
-/

namespace NuzlockeSolver

namespace Engine

section Hash

/-- `std::hash` at the types that states are made of. -/
structure StdHash where
  int32 : Int32 → UInt64
  int8 : Int8 → UInt64
  bool : Bool → UInt64
  double : ℚ → UInt64

def hashCombine (seed h : UInt64) : UInt64 :=
  seed ^^^ (h + 0x9e3779b9 + seed <<< (6 : UInt64) + seed >>> (2 : UInt64))

def mixAll (hashes : List UInt64) : UInt64 := hashes.foldl hashCombine 0

def mixedIf (present : Bool) (hashes : List UInt64) : List UInt64 :=
  if present then hashes else []

variable (H : StdHash)

/-- The elements of a set are mixed in any order. -/
def hashIntSet {cap : Nat} (v : InlineVec Int32 cap) : UInt64 :=
  v.toList.foldl (fun acc x => acc ^^^ H.int32 x) 0

def hashTimed {cap : Nat} (v : InlineVec TimedVolatile cap) : List UInt64 :=
  v.toList.flatMap fun tv => [H.int32 tv.effect, H.int32 tv.turns]

def hashPokemon (p : PokemonState) : UInt64 :=
  mixAll <|
    [H.int32 p.species, H.int32 p.nature, H.int32 p.ivHp, H.int32 p.ivAtk, H.int32 p.ivDef,
      H.int32 p.ivSpa, H.int32 p.ivSpd, H.int32 p.ivSpe, H.int32 p.gender, H.int32 p.level,
      H.int32 p.exp, H.int32 p.ability, H.int32 p.item, H.int32 p.status, H.int32 p.moveId0,
      H.int32 p.moveId1, H.int32 p.moveId2, H.int32 p.moveId3, H.int32 p.movePp0,
      H.int32 p.movePp1, H.int32 p.movePp2, H.int32 p.movePp3, H.bool p.hasStats] ++
    mixedIf p.hasStats
      [H.int32 p.statHp, H.int32 p.statAtk, H.int32 p.statDef, H.int32 p.statSpa,
        H.int32 p.statSpd, H.int32 p.statSpe] ++
    [H.bool p.hasMaxHp] ++ mixedIf p.hasMaxHp [H.int32 p.maxHp] ++
    [H.bool p.hasHp] ++ mixedIf p.hasHp [H.int32 p.hp] ++
    [H.bool p.hasTypes] ++ mixedIf p.hasTypes (p.types.toList.map H.int32) ++
    [H.int32 p.stage0, H.int32 p.stage1, H.int32 p.stage2, H.int32 p.stage3, H.int32 p.stage4,
      H.int32 p.stage5, H.int32 p.stage6, H.int32 p.volatiles] ++
    hashTimed H p.timedVolatiles ++
    [H.int32 p.turnsInBattle, H.int32 p.toxicTurns, H.int32 p.sleepTurns,
      H.int32 p.confusionTurns, H.bool p.isRestSleep, H.int32 p.lockedSlot,
      H.int32 p.chargingMoveSlot, H.int32 p.subHp, H.int32 p.lastUsedSlot, H.bool p.fainted,
      H.bool p.hasActed, H.int32 p.critStage, H.int32 p.metronomeCount,
      H.int32 p.metronomeLastMove, H.int32 p.mirrorMoveLastMove, H.int32 p.consumedBerry,
      H.bool p.tookDamageThisTurn, H.bool p.hadStatLoweredThisTurn,
      H.bool p.hadStatRaisedThisTurn, H.bool p.lastMoveFailed,
      H.int32 p.lastPhysicalDamageTaken, H.int32 p.lastSpecialDamageTaken,
      H.int32 p.lastDamageTaken, H.bool p.suckerPunchLastTurn, H.int32 p.baseAbility,
      H.int32 p.savedAbility, H.bool p.isMega, H.int32 p.movesUsed, H.int32 p.rolloutHits,
      H.bool p.defenseCurlUsed, H.double p.weightKgReduced, H.int32 p.protectCounter,
      H.int32 p.stockpileCount, H.int32 p.stockpileDefBoost, H.int32 p.stockpileSpdBoost]

def hashBatonPass (bp : BatonPassData) : List UInt64 :=
  [H.int32 bp.stage0, H.int32 bp.stage1, H.int32 bp.stage2, H.int32 bp.stage3,
    H.int32 bp.stage4, H.int32 bp.stage5, H.int32 bp.stage6, H.int32 bp.volatilesBitmask,
    H.int32 bp.critStage, H.int32 bp.subHp] ++
    hashTimed H bp.timedVolatiles

def hashSide (s : SideState) : UInt64 :=
  mixAll <|
    s.team.toList.map (hashPokemon H) ++ [H.int32 s.format] ++
    s.activeIndices.toList.map H.int32 ++
    (s.sideConditions.toList.flatMap fun sc => [H.int32 sc.condition, H.int8 sc.turns]) ++
    [H.bool s.megaUsed, H.bool s.hasBatonPassData] ++
    mixedIf s.hasBatonPassData (hashBatonPass H s.batonPassData) ++
    [H.bool s.allyFaintedLastTurn, H.bool s.hasWishPending] ++
    mixedIf s.hasWishPending [H.int8 s.wishTurns, H.int32 s.wishHp, H.int32 s.wishSlot] ++
    [H.bool s.hasFutureSightPending] ++
    mixedIf s.hasFutureSightPending
      [H.int8 s.fsTurns, H.int32 s.fsDamage, H.int32 s.fsMove, H.int32 s.fsTargetSlot] ++
    [hashIntSet H s.imprisonedMoves, H.int32 s.redirectTarget, H.bool s.redirectIsRagePowder]

def BattleState.hashImpl (includeBookkeeping : Bool) (s : BattleState) : UInt64 :=
  mixAll <|
    [hashSide H s.side0, hashSide H s.side1, H.int32 s.weather, H.int8 s.weatherTurns,
      H.int32 s.terrain, H.int8 s.terrainTurns] ++
    (s.pseudoWeather.toList.flatMap fun pw => [H.int32 pw.effect, H.int8 pw.turns]) ++
    [H.int32 s.echoedVoiceMultiplier, H.bool s.echoedVoiceUsedThisTurn,
      H.int32 s.battleLastMove, H.int32 s.format] ++
    s.turnOrder.toList.map H.int32 ++
    [H.bool s.isTrainerBattle, H.bool s.hasLevelCap] ++
    mixedIf s.hasLevelCap [H.int32 s.levelCap] ++
    mixedIf includeBookkeeping
      ([H.int32 s.turnNumber] ++ s.prevTurnOrder.toList.map H.int32 ++
        s.expParticipants.toList.map fun inner => hashIntSet H inner.members)

def BattleState.stateHashSolver (s : BattleState) : UInt64 := s.hashImpl H false

end Hash

section View

def BattleState.solverView (s : BattleState) : BattleState :=
  { s.visible with
    turnNumber := 1
    prevTurnOrder := .empty
    expParticipants := .empty }

theorem mixedIf_congr {present : Bool} {l l' : List UInt64} (h : present = true → l = l') :
    mixedIf present l = mixedIf present l' := by
  cases present with
  | false => rfl
  | true => rw [h rfl]

variable (H : StdHash)

theorem hashPokemon_visible (p : PokemonState) : hashPokemon H p.visible = hashPokemon H p := by
  have hstats : mixedIf p.hasStats
      [H.int32 p.visible.statHp, H.int32 p.visible.statAtk, H.int32 p.visible.statDef,
        H.int32 p.visible.statSpa, H.int32 p.visible.statSpd, H.int32 p.visible.statSpe] =
      mixedIf p.hasStats
        [H.int32 p.statHp, H.int32 p.statAtk, H.int32 p.statDef, H.int32 p.statSpa,
          H.int32 p.statSpd, H.int32 p.statSpe] :=
    mixedIf_congr fun h => by simp only [PokemonState.visible, h, if_true]
  have hmaxHp : mixedIf p.hasMaxHp [H.int32 p.visible.maxHp] =
      mixedIf p.hasMaxHp [H.int32 p.maxHp] :=
    mixedIf_congr fun h => by simp only [PokemonState.visible, h, if_true]
  have hhp : mixedIf p.hasHp [H.int32 p.visible.hp] = mixedIf p.hasHp [H.int32 p.hp] :=
    mixedIf_congr fun h => by simp only [PokemonState.visible, h, if_true]
  have htypes : mixedIf p.hasTypes (p.visible.types.toList.map H.int32) =
      mixedIf p.hasTypes (p.types.toList.map H.int32) :=
    mixedIf_congr fun h => by simp only [PokemonState.visible, h, if_true]
  rw [hashPokemon, hashPokemon, ← hstats, ← hmaxHp, ← hhp, ← htypes]
  rfl

theorem hashSide_visible (s : SideState) : hashSide H s.visible = hashSide H s := by
  have hteam : s.visible.team.toList.map (hashPokemon H) = s.team.toList.map (hashPokemon H) := by
    simp only [SideState.visible, InlineVec.map, List.map_map]
    exact List.map_congr_left fun p _ => hashPokemon_visible H p
  have hbaton : mixedIf s.hasBatonPassData (hashBatonPass H s.visible.batonPassData) =
      mixedIf s.hasBatonPassData (hashBatonPass H s.batonPassData) :=
    mixedIf_congr fun h => by simp only [SideState.visible, h, if_true]
  have hwish : mixedIf s.hasWishPending
      [H.int8 s.visible.wishTurns, H.int32 s.visible.wishHp, H.int32 s.visible.wishSlot] =
      mixedIf s.hasWishPending [H.int8 s.wishTurns, H.int32 s.wishHp, H.int32 s.wishSlot] :=
    mixedIf_congr fun h => by simp only [SideState.visible, h, if_true]
  have hsight : mixedIf s.hasFutureSightPending
      [H.int8 s.visible.fsTurns, H.int32 s.visible.fsDamage, H.int32 s.visible.fsMove,
        H.int32 s.visible.fsTargetSlot] =
      mixedIf s.hasFutureSightPending
        [H.int8 s.fsTurns, H.int32 s.fsDamage, H.int32 s.fsMove, H.int32 s.fsTargetSlot] :=
    mixedIf_congr fun h => by simp only [SideState.visible, h, if_true]
  rw [hashSide, hashSide, ← hteam, ← hbaton, ← hwish, ← hsight]
  rfl

theorem stateHashSolver_view (s : BattleState) :
    s.solverView.stateHashSolver H = s.stateHashSolver H := by
  have hcap : mixedIf s.hasLevelCap [H.int32 s.solverView.levelCap] =
      mixedIf s.hasLevelCap [H.int32 s.levelCap] :=
    mixedIf_congr fun h => by
      simp only [BattleState.solverView, BattleState.visible, h, if_true]
  rw [BattleState.stateHashSolver, BattleState.stateHashSolver, BattleState.hashImpl,
    BattleState.hashImpl, ← hcap, ← hashSide_visible H s.side0, ← hashSide_visible H s.side1]
  rfl

end View

section Equality

/-- Vectors compared element by element agree when what the comparison sees of them is equal. -/
theorem all_zip_iff {α β : Type} {eq : α → α → Bool} (view : α → β)
    (heq : ∀ a b, eq a b = true ↔ view a = view b) {l m : List α} :
    (l.length = m.length ∧ ((l.zip m).all fun p => eq p.1 p.2) = true) ↔
      l.map view = m.map view := by
  induction l generalizing m with
  | nil => cases m <;> simp
  | cons a l ih =>
    cases m with
    | nil => simp
    | cons b m =>
      simp only [List.length_cons, List.zip_cons_cons, List.all_cons, Bool.and_eq_true,
        List.map_cons, List.cons.injEq, heq, ← ih, Nat.add_right_cancel_iff]
      tauto

theorem all_zip_eq_iff {α : Type} {cap : Nat} (eq : α → α → Bool)
    (heq : ∀ a b, eq a b = true ↔ a = b) {v w : InlineVec α cap} :
    (v.toList.length == w.toList.length && (v.toList.zip w.toList).all fun p => eq p.1 p.2) =
      true ↔ v = w := by
  rw [Bool.and_eq_true, beq_iff_eq, all_zip_iff id heq, List.map_id, List.map_id]
  exact ⟨InlineVec.ext, congrArg _⟩

theorem equalTimed_iff {cap : Nat} {v w : InlineVec TimedVolatile cap} :
    equalTimed v w = true ↔ v = w := by
  refine all_zip_eq_iff (fun a b : TimedVolatile => a.effect == b.effect && a.turns == b.turns) ?_
  intro a b
  cases a
  cases b
  simp

theorem equalSideConditions_iff {cap : Nat} {v w : InlineVec SideConditionEntry cap} :
    equalSideConditions v w = true ↔ v = w := by
  refine all_zip_eq_iff
    (fun a b : SideConditionEntry => a.condition == b.condition && a.turns == b.turns) ?_
  intro a b
  cases a
  cases b
  simp

theorem equalPseudo_iff {cap : Nat} {v w : InlineVec PseudoWeatherEntry cap} :
    equalPseudo v w = true ↔ v = w := by
  refine all_zip_eq_iff
    (fun a b : PseudoWeatherEntry => a.effect == b.effect && a.turns == b.turns) ?_
  intro a b
  cases a
  cases b
  simp

theorem equalBatonPass_iff {a b : BatonPassData} : equalBatonPass a b = true ↔ a = b := by
  cases a
  cases b
  simp only [equalBatonPass, Bool.and_eq_true, beq_iff_eq, equalTimed_iff, and_assoc,
    BatonPassData.mk.injEq]

theorem optional_eq_iff {α : Type} {p q : Bool} {x y d : α} (h : p = q) :
    ((if p = true then x else d) = if q = true then y else d) ↔ p = false ∨ x = y := by
  subst h
  cases p <;> simp

theorem PokemonState.stateEqual_iff (a b : PokemonState) :
    a.stateEqual b = true ↔ a.visible = b.visible := by
  simp +contextual only [stateEqual, visible, PokemonState.mk.injEq, Bool.and_eq_true,
    Bool.or_eq_true, beq_iff_eq, equalTimed_iff, and_assoc, Bool.not_eq_true',
    and_congr_right_iff, or_and_left, optional_eq_iff, implies_true]

theorem visible_team_eq_iff {s t : SideState} :
    s.visible.team = t.visible.team ↔
      s.team.toList.length = t.team.toList.length ∧
        ((s.team.toList.zip t.team.toList).all fun p => p.1.stateEqual p.2) = true := by
  rw [all_zip_iff PokemonState.visible PokemonState.stateEqual_iff]
  exact ⟨fun h => congrArg InlineVec.toList h, fun h => InlineVec.ext h⟩

theorem SideState.visible_eq_iff {s t : SideState} :
    s.visible = t.visible ↔ s.visible.team = t.visible.team ∧
      (s.format == t.format && s.activeIndices == t.activeIndices &&
        equalSideConditions s.sideConditions t.sideConditions &&
        s.megaUsed == t.megaUsed &&
        s.hasBatonPassData == t.hasBatonPassData &&
        (!s.hasBatonPassData || equalBatonPass s.batonPassData t.batonPassData) &&
        s.allyFaintedLastTurn == t.allyFaintedLastTurn &&
        s.hasWishPending == t.hasWishPending &&
        (!s.hasWishPending ||
          (s.wishTurns == t.wishTurns && s.wishHp == t.wishHp && s.wishSlot == t.wishSlot)) &&
        s.hasFutureSightPending == t.hasFutureSightPending &&
        (!s.hasFutureSightPending ||
          (s.fsTurns == t.fsTurns && s.fsDamage == t.fsDamage &&
            s.fsMove == t.fsMove && s.fsTargetSlot == t.fsTargetSlot))) = true ∧
      s.imprisonedMoves = t.imprisonedMoves ∧ s.redirectTarget = t.redirectTarget ∧
      s.redirectIsRagePowder = t.redirectIsRagePowder := by
  simp +contextual only [visible, SideState.mk.injEq, Bool.and_eq_true, Bool.or_eq_true,
    beq_iff_eq, Bool.not_eq_true', and_assoc, and_congr_right_iff, or_and_left,
    equalSideConditions_iff, equalBatonPass_iff, optional_eq_iff, implies_true]

theorem SideState.stateEqual_iff {s t : SideState} {b : Bool} (h : s.stateEqual t = some b) :
    b = true ↔ s.visible = t.visible := by
  rw [visible_eq_iff, visible_team_eq_iff]
  unfold stateEqual at h
  split at h
  · rename_i hlength
    cases h
    exact iff_of_false Bool.false_ne_true fun hv => hlength hv.1.1
  rename_i hlength
  split at h
  · rename_i hteam
    cases h
    refine iff_of_false Bool.false_ne_true fun hv => ?_
    rw [hv.1.2] at hteam
    cases hteam
  rename_i hteam
  split at h
  · rename_i hfields
    cases h
    refine iff_of_false Bool.false_ne_true fun hv => ?_
    rw [hv.2.1] at hfields
    cases hfields
  rename_i hfields
  rw [Bool.not_eq_true', Bool.not_eq_false] at hteam hfields
  rw [hteam, hfields]
  rw [equalSets] at h
  split at h
  · cases h
    simp [not_not.1 hlength, and_assoc]
  · cases h

theorem SideState.stateEqual_isSome {s t : SideState} (hs : sortedSet s.imprisonedMoves)
    (ht : sortedSet t.imprisonedMoves) : ∃ b, s.stateEqual t = some b := by
  unfold stateEqual
  rw [equalSets, hs, ht, Bool.and_self, if_pos rfl]
  split
  · exact ⟨_, rfl⟩
  split
  · exact ⟨_, rfl⟩
  split
  · exact ⟨_, rfl⟩
  · exact ⟨_, rfl⟩

theorem BattleState.solverView_eq_iff {s t : BattleState} :
    s.solverView = t.solverView ↔ s.side0.visible = t.side0.visible ∧
      s.side1.visible = t.side1.visible ∧
      (s.weather == t.weather && s.weatherTurns == t.weatherTurns &&
        s.terrain == t.terrain && s.terrainTurns == t.terrainTurns &&
        equalPseudo s.pseudoWeather t.pseudoWeather &&
        s.echoedVoiceMultiplier == t.echoedVoiceMultiplier &&
        s.echoedVoiceUsedThisTurn == t.echoedVoiceUsedThisTurn &&
        s.battleLastMove == t.battleLastMove && s.format == t.format &&
        s.turnOrder == t.turnOrder &&
        s.isTrainerBattle == t.isTrainerBattle &&
        s.hasLevelCap == t.hasLevelCap &&
        (!s.hasLevelCap || s.levelCap == t.levelCap)) = true := by
  simp +contextual only [solverView, visible, BattleState.mk.injEq, Bool.and_eq_true,
    Bool.or_eq_true, beq_iff_eq, Bool.not_eq_true', and_assoc, and_congr_right_iff,
    equalPseudo_iff, optional_eq_iff, implies_true, true_and, and_true]

theorem andAlso_eq_some {x : Option Bool} {y : Unit → Option Bool} {b : Bool} :
    andAlso x y = some b ↔
      (x = some false ∧ b = false) ∨ (x = some true ∧ y () = some b) := by
  cases x with
  | none => simp [andAlso]
  | some b' => cases b' <;> simp [andAlso, eq_comm]

theorem BattleState.stateEqualSolver_iff {s t : BattleState} {b : Bool}
    (h : s.stateEqualSolver t = some b) : b = true ↔ s.solverView = t.solverView := by
  rw [solverView_eq_iff]
  rw [stateEqualSolver, stateEqualImpl] at h
  rcases andAlso_eq_some.1 h with ⟨h0, rfl⟩ | ⟨h0, h⟩
  · exact iff_of_false Bool.false_ne_true fun hv => by
      simpa using (SideState.stateEqual_iff h0).2 hv.1
  rcases andAlso_eq_some.1 h with ⟨h1, rfl⟩ | ⟨h1, h⟩
  · exact iff_of_false Bool.false_ne_true fun hv => by
      simpa using (SideState.stateEqual_iff h1).2 hv.2.1
  have hside0 := (SideState.stateEqual_iff h0).1 rfl
  have hside1 := (SideState.stateEqual_iff h1).1 rfl
  simp only [Bool.not_false, if_true] at h
  split at h
  · rename_i hfields
    cases h
    refine iff_of_false Bool.false_ne_true fun hv => ?_
    rw [hv.2.2] at hfields
    cases hfields
  · rename_i hfields
    cases h
    rw [Bool.not_eq_true', Bool.not_eq_false] at hfields
    exact iff_of_true rfl ⟨hside0, hside1, hfields⟩

/-- The sets that the solver compares are in order. -/
structure BattleState.ImprisonedSorted (s : BattleState) : Prop where
  side0 : sortedSet s.side0.imprisonedMoves
  side1 : sortedSet s.side1.imprisonedMoves

theorem BattleState.stateEqualSolver_isSome {s t : BattleState} (hs : s.ImprisonedSorted)
    (ht : t.ImprisonedSorted) : ∃ b, s.stateEqualSolver t = some b := by
  obtain ⟨b0, h0⟩ := SideState.stateEqual_isSome hs.side0 ht.side0
  obtain ⟨b1, h1⟩ := SideState.stateEqual_isSome hs.side1 ht.side1
  rw [stateEqualSolver, stateEqualImpl, h0, h1]
  cases b0 with
  | false => exact ⟨_, rfl⟩
  | true =>
    cases b1 with
    | false => exact ⟨_, rfl⟩
    | true =>
      simp only [andAlso, Option.bind_some, if_true, Bool.not_false]
      split
      · exact ⟨_, rfl⟩
      · exact ⟨_, rfl⟩

theorem stateHashSolver_congr (H : StdHash) {s t : BattleState}
    (h : s.stateEqualSolver t = some true) : s.stateHashSolver H = t.stateHashSolver H := by
  rw [← stateHashSolver_view, (BattleState.stateEqualSolver_iff h).1 rfl, stateHashSolver_view]

end Equality

end Engine

end NuzlockeSolver
