import NuzlockeSolver.Engine.Effects

/-!
# Switching a mon in

`cpp_apply_switch`: the departing mon is reset, the newcomer takes its slot and what a Baton Pass
left for it, and the entry hazards and effects run with the newcomer in front. What hazards and
effects do is a parameter; of them only what they cannot do is assumed.
-/

namespace NuzlockeSolver

namespace Engine

section Model

def abNaturalCure : Int32 := 30

def abRegenerator : Int32 := 144

structure EntryRules where
  applyEntryHazards : BattleState → Int → BattleState
  applyEntryEffects : BattleState → Int → BattleState
  speciesTypes : Int32 → InlineVec Int32 pokemonTypesCap

def InlineVec.swap {α : Type} {cap : Nat} (v : InlineVec α cap) (i j : Nat) : InlineVec α cap :=
  match v.toList[i]?, v.toList[j]? with
  | some a, some b => (v.set i b).set j a
  | _, _ => v

/-- Pushes one element after the other. A push onto a full vector aborts; here it is left out. -/
def InlineVec.append {α : Type} {cap : Nat} (v : InlineVec α cap) (l : List α) :
    InlineVec α cap :=
  ⟨(v.toList ++ l).take cap, by rw [List.length_take]; exact Nat.min_le_left _ _⟩

def BattleState.setActives (state : BattleState) (sideIdx : Int)
    (f : InlineVec Int32 sideActiveCap → InlineVec Int32 sideActiveCap) : BattleState :=
  state.setSide sideIdx
    { state.side sideIdx with activeIndices := f (state.side sideIdx).activeIndices }

def leaveField (mon : PokemonState) : PokemonState :=
  if mon.fainted then mon
  else
    let mon :=
      if mon.ability == abNaturalCure && mon.status != statusNone then
        { mon with status := statusNone }
      else mon
    if mon.ability == abRegenerator then
      { mon with
        hp := Int32.ofInt (min mon.maxHp.toInt (mon.hp.toInt + Int.tdiv mon.maxHp.toInt 3)) }
    else mon

def resetMon (types : InlineVec Int32 pokemonTypesCap) (mon : PokemonState) : PokemonState :=
  { mon with
    types := types, hasTypes := true, turnsInBattle := 0, toxicTurns := 0, volatiles := 0,
    timedVolatiles := .empty, subHp := 0, lockedSlot := -1, stage0 := 0, stage1 := 0,
    stage2 := 0, stage3 := 0, stage4 := 0, stage5 := 0, stage6 := 0, confusionTurns := 0,
    chargingMoveSlot := -1, critStage := 0, metronomeCount := 0, metronomeLastMove := -1,
    mirrorMoveLastMove := -1, rolloutHits := 0, defenseCurlUsed := false, weightKgReduced := 0,
    protectCounter := 0, tookDamageThisTurn := false, hadStatLoweredThisTurn := false,
    hadStatRaisedThisTurn := false, lastMoveFailed := false, suckerPunchLastTurn := false,
    lastPhysicalDamageTaken := 0, lastSpecialDamageTaken := 0, lastDamageTaken := 0,
    stockpileCount := 0, stockpileDefBoost := 0, stockpileSpdBoost := 0 }

def clearImprisoned (side : SideState) : SideState := { side with imprisonedMoves := .empty }

def cppApplySwitchOutReset (E : EntryRules) (state : BattleState) (sideIdx : Int)
    (oldIdx : Int32) : BattleState :=
  let state := state.modifyMon sideIdx oldIdx leaveField
  let state := state.setSide sideIdx (clearImprisoned (state.side sideIdx))
  let state := state.modifyMon sideIdx oldIdx fun mon => resetMon (E.speciesTypes mon.species) mon
  Effects.cppReleaseInflictedTraps state sideIdx oldIdx

def initParticipants (state : BattleState) : BattleState :=
  if state.expParticipants.toList.isEmpty then
    { state with
      expParticipants := InlineVec.empty.append
        (state.side1.activeIndices.toList.map fun _ => {}) }
  else state

def clearParticipants (state : BattleState) (slot : Nat) : BattleState :=
  { state with expParticipants := state.expParticipants.set slot {} }

def receiveBatonPass (bp : BatonPassData) (mon : PokemonState) : PokemonState :=
  { mon with
    stage0 := bp.stage0, stage1 := bp.stage1, stage2 := bp.stage2, stage3 := bp.stage3,
    stage4 := bp.stage4, stage5 := bp.stage5, stage6 := bp.stage6,
    volatiles := mon.volatiles ||| bp.volatilesBitmask,
    timedVolatiles := mon.timedVolatiles.append bp.timedVolatiles.toList,
    critStage := bp.critStage, subHp := bp.subHp }

def clearBatonPass (side : SideState) : SideState :=
  { side with hasBatonPassData := false, batonPassData := {} }

def startCounters (mon : PokemonState) : PokemonState :=
  { mon with turnsInBattle := 0, toxicTurns := 0, sleepTurns := 0 }

def slotSwapped (state : BattleState) (sideIdx : Int) (pos : Nat)
    (f : BattleState → BattleState) : BattleState :=
  if pos = 0 ∨ (state.side sideIdx).activeIndices.toList.length ≤ pos then f state
  else (f (state.setActives sideIdx (·.swap 0 pos))).setActives sideIdx (·.swap 0 pos)

def enterBattle (E : EntryRules) (sideIdx : Int) (state : BattleState) : BattleState :=
  let state := E.applyEntryHazards state sideIdx
  if (activeMon state sideIdx).fainted then state else E.applyEntryEffects state sideIdx

def cppApplySwitch (E : EntryRules) (state : BattleState) (sideIdx : Int) (newSlot : Int32)
    (sourceSlot : Nat) : BattleState :=
  let state := initParticipants state
  let state := if sideIdx = 1 then clearParticipants state sourceSlot else state
  let oldActiveIdx := activeIdx state sideIdx sourceSlot
  let state := cppApplySwitchOutReset E state sideIdx oldActiveIdx
  let state := state.setActives sideIdx (·.set sourceSlot newSlot)
  let side := state.side sideIdx
  let state :=
    if side.hasBatonPassData then
      let state := state.modifyMon sideIdx newSlot (receiveBatonPass side.batonPassData)
      state.setSide sideIdx (clearBatonPass (state.side sideIdx))
    else state
  let state := state.modifyMon sideIdx newSlot startCounters
  slotSwapped state sideIdx sourceSlot (enterBattle E sideIdx)

end Model

section Wear

def Wears (m m' : PokemonState) : Prop :=
  m'.fainted = false → m.fainted = false ∧ m'.hp.toInt ≤ m.hp.toInt

instance : Std.Refl Wears := ⟨fun _ h => ⟨h, le_refl _⟩⟩

theorem Wears.trans {a b c : PokemonState} (h : Wears a b) (h' : Wears b c) : Wears a c := by
  intro hc
  obtain ⟨hb, hle⟩ := h' hc
  obtain ⟨ha, hle'⟩ := h hb
  exact ⟨ha, hle.trans hle'⟩

instance : IsTrans PokemonState Wears := ⟨fun _ _ _ => Wears.trans⟩

theorem SameHp.wears {m m' : PokemonState} (h : SameHp m m') : Wears m m' := by
  intro hfainted
  rw [h.fainted] at hfainted
  exact ⟨hfainted, by rw [h.hp]⟩

/-- Hazards and effects revive no mon, raise no HP, and leave the mons in battle where they are. -/
structure EntryRules.Wearing (E : EntryRules) : Prop where
  hazards : ∀ (s : BattleState) i, s.Related Wears (E.applyEntryHazards s i)
  effects : ∀ (s : BattleState) i, s.Related Wears (E.applyEntryEffects s i)

def BattleState.MonsRelated (R : PokemonState → PokemonState → Prop) (s t : BattleState) : Prop :=
  ∀ i idx, R ((s.side i).mon idx) ((t.side i).mon idx)

theorem side_congr (state : BattleState) {i j : Int} (h : i = 0 ↔ j = 0) :
    state.side i = state.side j := by
  by_cases hi : i = 0
  · simp [BattleState.side, hi, h.1 hi]
  · simp [BattleState.side, hi, mt h.2 hi]

theorem mon_setSide_of_team {state : BattleState} {i : Int} {side : SideState}
    (h : side.team = (state.side i).team) (j : Int) (idx : Int32) :
    ((state.setSide i side).side j).mon idx = (state.side j).mon idx := by
  rw [side_setSide]
  split
  · rename_i hij
    rw [SideState.mon, SideState.mon, h, side_congr state hij]
  · rfl

theorem activeIndices_setSide {state : BattleState} {i : Int} {side : SideState}
    (h : side.activeIndices = (state.side i).activeIndices) (j : Int) :
    ((state.setSide i side).side j).activeIndices = (state.side j).activeIndices := by
  rw [side_setSide]
  split
  · rename_i hij
    rw [h, side_congr state hij]
  · rfl

theorem related_setSide {R : PokemonState → PokemonState → Prop} [Std.Refl R]
    {state : BattleState} {i : Int} {side : SideState} (hteam : side.team = (state.side i).team)
    (hactive : side.activeIndices = (state.side i).activeIndices) :
    state.Related R (state.setSide i side) where
  active := activeIndices_setSide hactive
  mons j idx := by
    rw [mon_setSide_of_team hteam]
    exact Std.Refl.refl _

@[simp] theorem mon_setActives (state : BattleState) (i : Int)
    (f : InlineVec Int32 sideActiveCap → InlineVec Int32 sideActiveCap) (j : Int) (idx : Int32) :
    ((state.setActives i f).side j).mon idx = (state.side j).mon idx := by
  apply mon_setSide_of_team
  rfl

theorem activeIndices_setActives (state : BattleState) (i : Int)
    (f : InlineVec Int32 sideActiveCap → InlineVec Int32 sideActiveCap) (j : Int) :
    ((state.setActives i f).side j).activeIndices =
      if (i = 0 ↔ j = 0) then f (state.side j).activeIndices
      else (state.side j).activeIndices := by
  rw [BattleState.setActives, side_setSide]
  split
  · rename_i hij
    rw [side_congr state hij]
  · rfl

theorem swap_swap {α : Type} {cap : Nat} (v : InlineVec α cap) (i j : Nat) :
    (v.swap i j).swap i j = v := by
  cases hi : v.toList[i]? with
  | none => simp only [InlineVec.swap, hi]
  | some a =>
    cases hj : v.toList[j]? with
    | none => simp only [InlineVec.swap, hi, hj]
    | some b =>
      obtain ⟨hlti, hgeti⟩ := List.getElem?_eq_some_iff.1 hi
      obtain ⟨hltj, hgetj⟩ := List.getElem?_eq_some_iff.1 hj
      have hswap : v.swap i j = (v.set i b).set j a := by simp only [InlineVec.swap, hi, hj]
      have hi' : (v.swap i j).toList[i]? = some b := by
        rw [hswap]
        simp only [InlineVec.set, List.getElem?_set, List.length_set]
        split
        · rename_i hij
          subst hij
          simpa [hj] using hi.symm.trans hj
        · simp
      have hj' : (v.swap i j).toList[j]? = some a := by
        rw [hswap]
        simp [InlineVec.set, hltj]
      rw [InlineVec.swap, hi', hj', hswap]
      apply InlineVec.ext
      apply List.ext_getElem?
      intro k
      simp only [InlineVec.set, List.getElem?_set, List.length_set]
      by_cases hjk : j = k
      · subst hjk
        simp [hltj, hgetj]
      · by_cases hik : i = k
        · subst hik
          simp [hjk, hlti, hgeti]
        · simp [hjk, hik]

theorem related_slotSwapped {R : PokemonState → PokemonState → Prop} {f : BattleState → BattleState}
    (hf : ∀ u : BattleState, u.Related R (f u)) (s : BattleState) (i : Int) (pos : Nat) :
    s.Related R (slotSwapped s i pos f) := by
  unfold slotSwapped
  split
  · exact hf s
  · have hu := hf (s.setActives i (·.swap 0 pos))
    refine ⟨fun j => ?_, fun j idx => ?_⟩
    · rw [activeIndices_setActives, hu.active, activeIndices_setActives]
      split
      · exact swap_swap _ _ _
      · rfl
    · rw [mon_setActives]
      have h := hu.mons j idx
      rwa [mon_setActives] at h

theorem sameHp_resetMon (types : InlineVec Int32 pokemonTypesCap) (mon : PokemonState) :
    SameHp mon (resetMon types mon) :=
  ⟨rfl, rfl, rfl⟩

theorem sameHp_receiveBatonPass (bp : BatonPassData) (mon : PokemonState) :
    SameHp mon (receiveBatonPass bp mon) :=
  ⟨rfl, rfl, rfl⟩

theorem sameHp_startCounters (mon : PokemonState) : SameHp mon (startCounters mon) :=
  ⟨rfl, rfl, rfl⟩

theorem sameHp_leaveField {mon : PokemonState}
    (h : mon.fainted = true ∨ mon.ability ≠ abRegenerator) : SameHp mon (leaveField mon) := by
  unfold leaveField
  split
  · exact Std.Refl.refl _
  · rename_i hfainted
    have hability : mon.ability ≠ abRegenerator := h.resolve_left hfainted
    extract_lets cured
    have hcured : SameHp mon cured ∧ cured.ability = mon.ability := by
      simp only [cured]
      split
      · exact ⟨⟨rfl, rfl, rfl⟩, rfl⟩
      · exact ⟨Std.Refl.refl _, rfl⟩
    rw [if_neg (by rw [hcured.2]; simpa using hability)]
    exact hcured.1

variable {E : EntryRules}

theorem related_switchOutReset {s : BattleState} {i : Int} {idx : Int32}
    (h : ((s.side i).mon idx).fainted = true ∨ ((s.side i).mon idx).ability ≠ abRegenerator) :
    s.Related SameHp (cppApplySwitchOutReset E s i idx) := by
  unfold cppApplySwitchOutReset
  extract_lets left cleared reset
  have hleft : s.Related SameHp left := related_modifyMon (sameHp_leaveField h)
  have hcleared : left.Related SameHp cleared := related_setSide rfl rfl
  have hreset : cleared.Related SameHp reset := related_modifyMon (sameHp_resetMon _ _)
  exact ((hleft.trans hcleared).trans hreset).trans
    (Effects.related_cppReleaseInflictedTraps _ _ _)

theorem related_enterBattle (hE : E.Wearing) (i : Int) (s : BattleState) :
    s.Related Wears (enterBattle E i s) := by
  unfold enterBattle
  extract_lets hazarded
  split
  · exact hE.hazards s i
  · exact (hE.hazards s i).trans (hE.effects hazarded i)

theorem side_initParticipants (s : BattleState) (j : Int) :
    (initParticipants s).side j = s.side j := by
  unfold initParticipants
  split
  · rfl
  · rfl

theorem side_clearParticipants (s : BattleState) (slot : Nat) (j : Int) :
    (clearParticipants s slot).side j = s.side j :=
  rfl

theorem cppApplySwitch_spec (hE : E.Wearing) {s : BattleState} {i : Int} (newSlot : Int32)
    {slot : Nat}
    (h : ((s.side i).mon (activeIdx s i slot)).fainted = true ∨
      ((s.side i).mon (activeIdx s i slot)).ability ≠ abRegenerator) :
    s.MonsRelated Wears (cppApplySwitch E s i newSlot slot) ∧
      ∀ j, ((cppApplySwitch E s i newSlot slot).side j).activeIndices =
        if (i = 0 ↔ j = 0) then (s.side j).activeIndices.set slot newSlot
        else (s.side j).activeIndices := by
  unfold cppApplySwitch
  extract_lets s1 s2 old s3 s4 side passed s5 s6
  have hsides : ∀ j, s2.side j = s.side j := by
    intro j
    simp only [s2, s1]
    split
    · rw [side_clearParticipants, side_initParticipants]
    · exact side_initParticipants s j
  have hold : old = activeIdx s i slot := by simp only [old, activeIdx, hsides]
  have hleave : ((s2.side i).mon old).fainted = true ∨
      ((s2.side i).mon old).ability ≠ abRegenerator := by
    rw [hsides, hold]
    exact h
  have hreset : s2.Related SameHp s3 := related_switchOutReset hleave
  have hbaton : s4.Related SameHp s5 := by
    simp only [s5]
    split
    · exact (related_modifyMon (sameHp_receiveBatonPass _ _)).trans (related_setSide rfl rfl)
    · exact .refl s4
  have hcounters : s5.Related SameHp s6 := related_modifyMon (sameHp_startCounters _)
  have henter := related_slotSwapped (related_enterBattle hE i) s6 i slot
  have hafter : s4.Related Wears (slotSwapped s6 i slot (enterBattle E i)) :=
    ((hbaton.trans hcounters).mono SameHp.wears).trans henter
  refine ⟨fun j idx => ?_, fun j => ?_⟩
  · have hbefore : Wears ((s.side j).mon idx) ((s4.side j).mon idx) := by
      simp only [s4, mon_setActives]
      rw [← hsides]
      exact (hreset.mons j idx).wears
    exact hbefore.trans (hafter.mons j idx)
  · rw [hafter.active j, ← hsides j, ← hreset.active j]
    exact activeIndices_setActives s3 i (·.set slot newSlot) j

end Wear

end Engine

end NuzlockeSolver
