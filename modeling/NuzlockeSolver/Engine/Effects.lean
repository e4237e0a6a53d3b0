import Mathlib.Data.List.GetD
import NuzlockeSolver.Oracle.Turn
import NuzlockeSolver.Engine.Actions

/-!
# Shared effect helpers

Berries, stages and traps as `effects.cpp` applies them. A helper rewrites one team member at a
time; arithmetic is on integers, and the stored results are within range.
-/

namespace NuzlockeSolver

namespace Engine

section Update

namespace InlineVec

variable {α : Type} {cap : Nat}

def set (v : InlineVec α cap) (i : Nat) (a : α) : InlineVec α cap :=
  ⟨v.toList.set i a, by rw [List.length_set]; exact v.size_le⟩

def filter (v : InlineVec α cap) (p : α → Bool) : InlineVec α cap :=
  ⟨v.toList.filter p, (List.length_filter_le p v.toList).trans v.size_le⟩

end InlineVec

def SideState.setMon (side : SideState) (idx : Int32) (mon : PokemonState) : SideState :=
  { side with team := side.team.set idx.toInt.toNat mon }

def BattleState.setSide (state : BattleState) (i : Int) (side : SideState) : BattleState :=
  if i = 0 then { state with side0 := side } else { state with side1 := side }

def BattleState.modifyMon (state : BattleState) (i : Int) (idx : Int32)
    (f : PokemonState → PokemonState) : BattleState :=
  state.setSide i ((state.side i).setMon idx (f ((state.side i).mon idx)))

def BattleState.modifyActive (state : BattleState) (i : Int)
    (f : PokemonState → PokemonState) : BattleState :=
  state.modifyMon i (activeIdx state i 0) f

structure BattleState.Related (R : PokemonState → PokemonState → Prop) (s t : BattleState) :
    Prop where
  active : ∀ i, (t.side i).activeIndices = (s.side i).activeIndices
  mons : ∀ i idx, R ((s.side i).mon idx) ((t.side i).mon idx)

theorem side_setSide (state : BattleState) (i j : Int) (side : SideState) :
    (state.setSide i side).side j = if (i = 0 ↔ j = 0) then side else state.side j := by
  by_cases hi : i = 0 <;> by_cases hj : j = 0 <;>
    simp [BattleState.setSide, BattleState.side, hi, hj]

@[simp] theorem side_setSide_self (state : BattleState) (i : Int) (side : SideState) :
    (state.setSide i side).side i = side := by
  rw [side_setSide, if_pos Iff.rfl]

theorem mon_setMon (side : SideState) (idx k : Int32) (mon : PokemonState) :
    (side.setMon idx mon).mon k =
      if idx.toInt.toNat = k.toInt.toNat ∧ idx.toInt.toNat < side.team.toList.length then mon
      else side.mon k := by
  simp only [SideState.setMon, SideState.mon, InlineVec.set, List.getD_eq_getElem?_getD,
    List.getElem?_set]
  generalize idx.toInt.toNat = n, k.toInt.toNat = l
  by_cases hn : n = l
  · subst hn
    by_cases hlt : n < side.team.toList.length
    · simp [hlt]
    · simp [hlt]
  · simp [hn]

@[simp] theorem activeIndices_modifyMon (state : BattleState) (i j : Int) (idx : Int32)
    (f : PokemonState → PokemonState) :
    ((state.modifyMon i idx f).side j).activeIndices = (state.side j).activeIndices := by
  rw [BattleState.modifyMon, side_setSide]
  split_ifs with hij
  · by_cases hi : i = 0 <;> simp [BattleState.side, SideState.setMon, hi, ← hij]
  · rfl

theorem lt_length_of_hp_pos {side : SideState} {idx : Int32} (h : 0 < (side.mon idx).hp.toInt) :
    idx.toInt.toNat < side.team.toList.length := by
  by_contra hout
  have hmon : side.mon idx = default :=
    List.getD_eq_default _ _ (Nat.le_of_not_lt hout)
  rw [hmon] at h
  exact absurd h (by decide)

theorem mon_modifyMon_self {state : BattleState} {i : Int} {idx : Int32}
    (h : 0 < ((state.side i).mon idx).hp.toInt) (f : PokemonState → PokemonState) :
    ((state.modifyMon i idx f).side i).mon idx = f ((state.side i).mon idx) := by
  rw [BattleState.modifyMon, side_setSide_self, mon_setMon, if_pos ⟨rfl, lt_length_of_hp_pos h⟩]

theorem related_modifyMon {R : PokemonState → PokemonState → Prop} [Std.Refl R]
    {state : BattleState} {i : Int} {idx : Int32} {f : PokemonState → PokemonState}
    (hf : R ((state.side i).mon idx) (f ((state.side i).mon idx))) :
    state.Related R (state.modifyMon i idx f) where
  active j := activeIndices_modifyMon state i j idx f
  mons j k := by
    rw [BattleState.modifyMon, side_setSide]
    split_ifs with hij
    · have hside : state.side i = state.side j := by
        by_cases hi : i = 0 <;> simp [BattleState.side, hi, ← hij]
      rw [mon_setMon]
      split_ifs with hk
      · have hmon : (state.side j).mon k = (state.side i).mon idx := by
          simp only [SideState.mon, hk.1, hside]
        rw [hmon]
        exact hf
      · rw [hside]
        exact refl _
    · exact refl _

theorem BattleState.Related.refl {R : PokemonState → PokemonState → Prop} [Std.Refl R]
    (s : BattleState) : s.Related R s :=
  ⟨fun _ => rfl, fun _ _ => Std.Refl.refl _⟩

theorem BattleState.Related.trans {R : PokemonState → PokemonState → Prop}
    [IsTrans PokemonState R] {s t u : BattleState} (h : s.Related R t) (h' : t.Related R u) :
    s.Related R u :=
  ⟨fun i => (h'.active i).trans (h.active i),
    fun i idx => IsTrans.trans _ _ _ (h.mons i idx) (h'.mons i idx)⟩

theorem BattleState.Related.mono {R S : PokemonState → PokemonState → Prop}
    (hRS : ∀ {a b}, R a b → S a b) {s t : BattleState} (h : s.Related R t) : s.Related S t :=
  ⟨h.active, fun i idx => hRS (h.mons i idx)⟩

inductive BattleState.Edited (R : PokemonState → PokemonState → Prop) (s : BattleState) :
    BattleState → Prop
  | refl : Edited R s s
  | modify {t : BattleState} {i : Int} {idx : Int32} {f : PokemonState → PokemonState} :
      Edited R s t → R ((t.side i).mon idx) (f ((t.side i).mon idx)) →
      Edited R s (t.modifyMon i idx f)

theorem edited_modifyMon {R : PokemonState → PokemonState → Prop} {state : BattleState} {i : Int}
    {idx : Int32} {f : PokemonState → PokemonState}
    (hf : R ((state.side i).mon idx) (f ((state.side i).mon idx))) :
    state.Edited R (state.modifyMon i idx f) :=
  .modify .refl hf

theorem BattleState.Edited.trans {R : PokemonState → PokemonState → Prop} {s t u : BattleState}
    (h : s.Edited R t) (h' : t.Edited R u) : s.Edited R u := by
  induction h' with
  | refl => exact h
  | modify _ hf ih => exact .modify ih hf

theorem BattleState.Edited.mono {R S : PokemonState → PokemonState → Prop}
    (hRS : ∀ {a b}, R a b → S a b) {s t : BattleState} (h : s.Edited R t) : s.Edited S t := by
  induction h with
  | refl => exact .refl
  | modify _ hf ih => exact .modify ih (hRS hf)

theorem BattleState.Edited.related {R : PokemonState → PokemonState → Prop} [Std.Refl R]
    [IsTrans PokemonState R] {s t : BattleState} (h : s.Edited R t) : s.Related R t := by
  induction h with
  | refl => exact .refl s
  | modify _ hf ih => exact ih.trans (related_modifyMon hf)

end Update

section HitPoints

/-- Hit points within range, and fainted exactly at none. -/
structure PokemonState.Coherent (m : PokemonState) : Prop where
  nonneg : 0 ≤ m.hp.toInt
  le_max : m.hp.toInt ≤ m.maxHp.toInt
  fainted_iff : m.fainted = true ↔ m.hp.toInt = 0

structure SameHp (m m' : PokemonState) : Prop where
  hp : m'.hp = m.hp
  maxHp : m'.maxHp = m.maxHp
  fainted : m'.fainted = m.fainted

instance : Std.Refl SameHp := ⟨fun _ => ⟨rfl, rfl, rfl⟩⟩

theorem SameHp.trans {a b c : PokemonState} (h : SameHp a b) (h' : SameHp b c) : SameHp a c :=
  ⟨h'.hp.trans h.hp, h'.maxHp.trans h.maxHp, h'.fainted.trans h.fainted⟩

instance : IsTrans PokemonState SameHp := ⟨fun _ _ _ => SameHp.trans⟩

structure Heals (m m' : PokemonState) : Prop where
  maxHp : m'.maxHp = m.maxHp
  fainted : m'.fainted = m.fainted
  rises : 0 ≤ m.hp.toInt → m.hp.toInt ≤ m.maxHp.toInt →
    m.hp.toInt ≤ m'.hp.toInt ∧ m'.hp.toInt ≤ m.maxHp.toInt

theorem SameHp.heals {m m' : PokemonState} (h : SameHp m m') : Heals m m' :=
  ⟨h.maxHp, h.fainted, fun _ hle => by rw [h.hp]; exact ⟨le_refl _, hle⟩⟩

instance : Std.Refl Heals := ⟨fun m => (refl_of SameHp m).heals⟩

theorem Heals.trans {a b c : PokemonState} (h : Heals a b) (h' : Heals b c) : Heals a c where
  maxHp := h'.maxHp.trans h.maxHp
  fainted := h'.fainted.trans h.fainted
  rises h0 hle := by
    have hab := h.rises h0 hle
    have hbc := h'.rises (by omega) (by rw [h.maxHp]; exact hab.2)
    rw [h.maxHp] at hbc
    exact ⟨hab.1.trans hbc.1, hbc.2⟩

instance : IsTrans PokemonState Heals := ⟨fun _ _ _ => Heals.trans⟩

structure Restores (m m' : PokemonState) : Prop where
  heals : Heals m m'
  fallen : m.fainted = true → m'.hp = m.hp

theorem SameHp.restores {m m' : PokemonState} (h : SameHp m m') : Restores m m' :=
  ⟨h.heals, fun _ => h.hp⟩

theorem Heals.restores {m m' : PokemonState} (h : Heals m m') (hstands : m.fainted = false) :
    Restores m m' :=
  ⟨h, fun hfell => absurd (hstands.symm.trans hfell) (by decide)⟩

instance : Std.Refl Restores := ⟨fun m => (refl_of SameHp m).restores⟩

theorem Restores.trans {a b c : PokemonState} (h : Restores a b) (h' : Restores b c) :
    Restores a c :=
  ⟨h.heals.trans h'.heals, fun hfell =>
    (h'.fallen (h.heals.fainted.trans hfell)).trans (h.fallen hfell)⟩

instance : IsTrans PokemonState Restores := ⟨fun _ _ _ => Restores.trans⟩

theorem fainted_activeMon {s t : BattleState} (h : s.Related Restores t) (i : Int) :
    (activeMon t i).fainted = (activeMon s i).fainted := by
  rw [activeMon, activeIdx, h.active]
  exact (h.mons i _).heals.fainted

theorem toInt_ofInt_hp {x : Int} (maxHp : Int32) (h0 : 0 ≤ x) (hle : x ≤ maxHp.toInt) :
    (Int32.ofInt x).toInt = x :=
  Int32.toInt_ofInt_of_le (by omega) (by have := maxHp.toInt_lt; omega)

end HitPoints

namespace Effects

def abCheekPouch : Int32 := 167
def abGluttony : Int32 := 82
def abRipen : Int32 := 247
def abUnburden : Int32 := 84
def abContrary : Int32 := 126
def abHyperCutter : Int32 := 52
def abClearBody : Int32 := 29
def abWhiteSmoke : Int32 := 73
def abFullMetalBody : Int32 := 230
def abKeenEye : Int32 := 51
def abFlowerVeil : Int32 := 166
def abSimple : Int32 := 86
def itemBerryJuice : Int32 := 34
def itemWhiteHerb : Int32 := 214
def itemEjectPack : Int32 := 1119
def volatileConfused : Int32 := 1
def volatileEndureActive : Int32 := 2097152
def veBoundSourceSlot : Int32 := 31
def veBoundSourceId : Int32 := 32
def veTrappedSourceId : Int32 := 33
def berrySuppressors : List Int32 := [127, 266, 267]

section Stages

def getStage (m : PokemonState) : Int → Int32
  | 0 => m.stage0
  | 1 => m.stage1
  | 2 => m.stage2
  | 3 => m.stage3
  | 4 => m.stage4
  | 5 => m.stage5
  | _ => m.stage6

def setStage (m : PokemonState) (i : Int) (v : Int32) : PokemonState :=
  match i with
  | 0 => { m with stage0 := v }
  | 1 => { m with stage1 := v }
  | 2 => { m with stage2 := v }
  | 3 => { m with stage3 := v }
  | 4 => { m with stage4 := v }
  | 5 => { m with stage5 := v }
  | _ => { m with stage6 := v }

def dropItem (mon : PokemonState) : PokemonState := { mon with item := itemNone }

def unburden (mon : PokemonState) : PokemonState :=
  if mon.ability = abUnburden ∧ mon.item = itemNone ∧ ¬ hasVolatile mon volatileUnburden then
    { mon with volatiles := mon.volatiles ||| volatileUnburden }
  else mon

def applyUnburden (state : BattleState) (sideIdx : Int) : BattleState :=
  state.modifyActive sideIdx unburden

def restoreStages (mon : PokemonState) : PokemonState :=
  ([0, 1, 2, 3, 4, 5, 6] : List Int).foldl
    (fun m i => if getStage m i < 0 then setStage m i 0 else m) mon

def checkWhiteHerb (state : BattleState) (sideIdx : Int) : BattleState :=
  let mon := activeMon state sideIdx
  if mon.item ≠ itemWhiteHerb then state
  else if ¬ ([0, 1, 2, 3, 4, 5, 6] : List Int).any fun i => getStage mon i < 0 then state
  else applyUnburden (state.modifyActive sideIdx fun mon => dropItem (restoreStages mon)) sideIdx

def hasBench (side : SideState) : Bool :=
  (List.range side.team.toList.length).any fun (i : Nat) =>
    !(side.activeIndices.toList.any fun a => a.toInt == (i : Int)) &&
      !(side.team.toList.getD i default).fainted

def stageProtected (mon : PokemonState) (statIdx : Int) (moldBreaker : Bool) : Bool :=
  (mon.ability == abHyperCutter && statIdx == 0 && !moldBreaker) ||
    ((mon.ability == abClearBody || mon.ability == abWhiteSmoke) && !moldBreaker) ||
    mon.ability == abFullMetalBody ||
    (mon.ability == abKeenEye && statIdx == 5 && !moldBreaker) ||
    (mon.ability == abFlowerVeil && hasType mon typeGrass)

def markStageChange (actual : Int) (mon : PokemonState) : PokemonState :=
  if actual < 0 then { mon with hadStatLoweredThisTurn := true }
  else if actual > 0 then { mon with hadStatRaisedThisTurn := true }
  else mon

def changeStatStage (state : BattleState) (sideIdx statIdx delta : Int)
    (causedByOpponent ignoreSimple moldBreaker : Bool) : Int × BattleState :=
  let mon := activeMon state sideIdx
  let delta := if mon.ability = abContrary ∧ ¬ moldBreaker then -delta else delta
  if causedByOpponent ∧ delta < 0 ∧ stageProtected mon statIdx moldBreaker then (0, state)
  else
    let delta := if mon.ability = abSimple ∧ ¬ ignoreSimple then delta * 2 else delta
    let oldStage := (getStage mon statIdx).toInt
    let newStage := max (-6) (min 6 (oldStage + delta))
    let actual := newStage - oldStage
    let state := state.modifyActive sideIdx fun mon =>
      markStageChange actual (setStage mon statIdx (Int32.ofInt newStage))
    let state := if actual < 0 then checkWhiteHerb state sideIdx else state
    if actual < 0 ∧ causedByOpponent ∧ (activeMon state sideIdx).item = itemEjectPack ∧
      hasBench (state.side sideIdx) then
      (actual, state.modifyActive sideIdx dropItem)
    else (actual, state)

theorem sameHp_setStage (m : PokemonState) (i : Int) (v : Int32) : SameHp m (setStage m i v) := by
  unfold setStage
  split <;> exact ⟨rfl, rfl, rfl⟩

theorem sameHp_dropItem (m : PokemonState) : SameHp m (dropItem m) := ⟨rfl, rfl, rfl⟩

theorem sameHp_unburden (m : PokemonState) : SameHp m (unburden m) := by
  unfold unburden
  split <;> exact ⟨rfl, rfl, rfl⟩

theorem sameHp_markStageChange (actual : Int) (m : PokemonState) :
    SameHp m (markStageChange actual m) := by
  unfold markStageChange
  split
  · exact ⟨rfl, rfl, rfl⟩
  · split <;> exact ⟨rfl, rfl, rfl⟩

theorem sameHp_restoreStages (mon : PokemonState) : SameHp mon (restoreStages mon) := by
  refine List.foldlRecOn _ _ (refl_of SameHp mon) fun m hm i _ => ?_
  split
  · exact hm.trans (sameHp_setStage m i 0)
  · exact hm

theorem edited_applyUnburden (state : BattleState) (sideIdx : Int) :
    state.Edited SameHp (applyUnburden state sideIdx) :=
  edited_modifyMon (sameHp_unburden _)

theorem edited_checkWhiteHerb (state : BattleState) (sideIdx : Int) :
    state.Edited SameHp (checkWhiteHerb state sideIdx) := by
  unfold checkWhiteHerb
  extract_lets mon
  split
  · exact .refl
  · split
    · exact .refl
    · have hrestored : state.Edited SameHp
          (state.modifyActive sideIdx fun mon => dropItem (restoreStages mon)) :=
        edited_modifyMon ((sameHp_restoreStages _).trans (sameHp_dropItem _))
      exact hrestored.trans (edited_applyUnburden _ sideIdx)

theorem edited_changeStatStage (state : BattleState) (sideIdx statIdx delta : Int)
    (causedByOpponent ignoreSimple moldBreaker : Bool) :
    state.Edited SameHp
      (changeStatStage state sideIdx statIdx delta causedByOpponent ignoreSimple moldBreaker).2 := by
  unfold changeStatStage
  extract_lets mon flipped doubled oldStage newStage actual staged herb
  have hstaged : state.Edited SameHp staged :=
    edited_modifyMon ((sameHp_setStage _ statIdx (Int32.ofInt newStage)).trans
      (sameHp_markStageChange actual _))
  have hherb : state.Edited SameHp herb := by
    simp only [herb]
    split
    · exact hstaged.trans (edited_checkWhiteHerb staged sideIdx)
    · exact hstaged
  split
  · exact .refl
  · split
    · exact hherb.modify (sameHp_dropItem _)
    · exact hherb

end Stages

section Berries

def berrySuppressed (state : BattleState) (oppSideIdx : Int) : Bool :=
  if oppSideIdx < 0 then false
  else
    let opp := activeMon state oppSideIdx
    !opp.fainted && berrySuppressors.contains opp.ability

def heal (amount : Int) (mon : PokemonState) : PokemonState :=
  { mon with hp := Int32.ofInt (min mon.maxHp.toInt (mon.hp.toInt + amount)) }

def cheekPouch (mon : PokemonState) : PokemonState :=
  if mon.ability = abCheekPouch then heal (max 1 (mon.maxHp.toInt.tdiv 3)) mon else mon

def onBerryConsumed (state : BattleState) (sideIdx : Int) : BattleState :=
  applyUnburden (state.modifyActive sideIdx cheekPouch) sideIdx

inductive BerryKind
  | hp
  | stat
  | crit
  | randomStat
deriving DecidableEq

/-- For hit points `a0` is the flat heal and `a1` the fraction; else `a0` is the change and `a1` the
stat. `confusedStat` is the stat whose dislike confuses, or -1. -/
structure BerryEffect where
  thresholdDenom : Int
  kind : BerryKind
  a0 : Int
  a1 : Int
  confusedStat : Int

def berryEffects : List (Int32 × BerryEffect) :=
  [(158, ⟨2, .hp, 0, 4, -1⟩), (155, ⟨2, .hp, 10, 0, -1⟩), (34, ⟨2, .hp, 20, 0, -1⟩),
    (203, ⟨4, .stat, 1, 4, -1⟩), (201, ⟨4, .stat, 1, 0, -1⟩), (204, ⟨4, .stat, 1, 2, -1⟩),
    (205, ⟨4, .stat, 1, 3, -1⟩), (202, ⟨4, .stat, 1, 1, -1⟩), (207, ⟨4, .randomStat, 2, 0, -1⟩),
    (206, ⟨4, .crit, 1, 0, -1⟩), (159, ⟨4, .hp, 0, 2, 1⟩), (160, ⟨4, .hp, 0, 2, 3⟩),
    (161, ⟨4, .hp, 0, 2, 5⟩), (162, ⟨4, .hp, 0, 2, 4⟩), (163, ⟨4, .hp, 0, 2, 2⟩)]

def hpThresholdBerry (item : Int32) : Option BerryEffect :=
  (berryEffects.find? (·.1 = item)).map (·.2)

def natureLoweredStat (nature : Int32) : Int :=
  if nature < 0 ∨ nature ≥ 25 then -1
  else
    ([-1, 2, 5, 3, 4, 1, -1, 5, 3, 4, 1, 2, -1, 3, 4, 1, 2, 5, -1, 4, 1, 2, 5, 3, -1] :
      List Int).getD nature.toInt.toNat (-1)

def berryHeal (eff : BerryEffect) (mon : PokemonState) : Int :=
  let ripened := mon.ability = abRipen ∧ mon.item ≠ itemBerryJuice
  if eff.a1 = 0 then if ripened then eff.a0 * 2 else eff.a0
  else if ripened then (mon.maxHp.toInt * 2).tdiv eff.a1
  else mon.maxHp.toInt.tdiv eff.a1

def eatBerry (mon : PokemonState) : PokemonState :=
  { mon with item := itemNone, consumedBerry := mon.item }

def confuseByFlavour (eff : BerryEffect) (mon : PokemonState) : PokemonState :=
  if eff.confusedStat ≠ -1 ∧ natureLoweredStat mon.nature = eff.confusedStat then
    { mon with volatiles := mon.volatiles ||| volatileConfused }
  else mon

def eatHealingBerry (eff : BerryEffect) (mon : PokemonState) : PokemonState :=
  confuseByFlavour eff (eatBerry (heal (berryHeal eff mon) mon))

def raiseCritStage (mon : PokemonState) : PokemonState := { mon with critStage := mon.critStage + 1 }

def berryReady (eff : BerryEffect) (mon : PokemonState) : Bool :=
  let denom := if eff.thresholdDenom = 4 ∧ mon.ability = abGluttony then 2 else eff.thresholdDenom
  decide (mon.hp.toInt ≤ mon.maxHp.toInt.tdiv denom)

def checkBerry (state : BattleState) (sideIdx oppSideIdx : Int) : Turn (Bool × BattleState) :=
  let mon := activeMon state sideIdx
  if berrySuppressed state oppSideIdx then .done (false, state)
  else
    match hpThresholdBerry mon.item with
    | none => .done (false, state)
    | some eff =>
      if mon.fainted ∨ ¬ berryReady eff mon then .done (false, state)
      else
        let boost := if mon.ability = abRipen then eff.a0 * 2 else eff.a0
        match eff.kind with
        | .hp =>
          .done (true, onBerryConsumed (state.modifyActive sideIdx (eatHealingBerry eff)) sideIdx)
        | .crit =>
          .done (true, onBerryConsumed
            (state.modifyActive sideIdx fun mon => raiseCritStage (eatBerry mon)) sideIdx)
        | .randomStat =>
          .ask .starfBerryStat [0, 1, 2, 3, 4] fun answer =>
            .done (true, onBerryConsumed
              (changeStatStage (state.modifyActive sideIdx eatBerry) sideIdx answer.chosen boost
                false false false).2 sideIdx)
        | .stat =>
          .done (true, onBerryConsumed
            (changeStatStage (state.modifyActive sideIdx eatBerry) sideIdx eff.a1 boost
              false false false).2 sideIdx)

theorem heals_heal {amount : Int} (mon : PokemonState)
    (hamount : 0 ≤ mon.maxHp.toInt → 0 ≤ amount) : Heals mon (heal amount mon) where
  maxHp := rfl
  fainted := rfl
  rises h0 hle := by
    have hpos := hamount (h0.trans hle)
    simp only [heal]
    rw [toInt_ofInt_hp mon.maxHp (by omega) (by omega)]
    omega

theorem heals_cheekPouch (mon : PokemonState) : Heals mon (cheekPouch mon) := by
  unfold cheekPouch
  split
  · exact heals_heal mon fun _ => by omega
  · exact refl_of Heals mon

theorem edited_onBerryConsumed {state : BattleState} {sideIdx : Int}
    (h : (activeMon state sideIdx).fainted = false) :
    state.Edited Restores (onBerryConsumed state sideIdx) := by
  have hpouch : state.Edited Restores (state.modifyActive sideIdx cheekPouch) :=
    edited_modifyMon ((heals_cheekPouch _).restores h)
  exact hpouch.trans ((edited_applyUnburden _ sideIdx).mono SameHp.restores)

theorem berryHeal_nonneg {item : Int32} {eff : BerryEffect} (heff : hpThresholdBerry item = some eff)
    {mon : PokemonState} (hmax : 0 ≤ mon.maxHp.toInt) : 0 ≤ berryHeal eff mon := by
  obtain ⟨entry, hentry, rfl⟩ := Option.map_eq_some_iff.mp heff
  have hall : ∀ entry ∈ berryEffects, 0 ≤ entry.2.a0 ∧ 0 ≤ entry.2.a1 := by decide
  obtain ⟨hflat, hfraction⟩ := hall entry (List.mem_of_find?_eq_some hentry)
  unfold berryHeal
  extract_lets ripened
  split_ifs
  · omega
  · exact hflat
  · exact Int.tdiv_nonneg (by omega) hfraction
  · exact Int.tdiv_nonneg hmax hfraction

theorem sameHp_eatBerry (mon : PokemonState) : SameHp mon (eatBerry mon) := ⟨rfl, rfl, rfl⟩

theorem sameHp_raiseCritStage (mon : PokemonState) : SameHp mon (raiseCritStage mon) :=
  ⟨rfl, rfl, rfl⟩

theorem sameHp_confuseByFlavour (eff : BerryEffect) (mon : PokemonState) :
    SameHp mon (confuseByFlavour eff mon) := by
  unfold confuseByFlavour
  split <;> exact ⟨rfl, rfl, rfl⟩

theorem heals_eatHealingBerry {item : Int32} {eff : BerryEffect}
    (heff : hpThresholdBerry item = some eff) (mon : PokemonState) :
    Heals mon (eatHealingBerry eff mon) :=
  (heals_heal mon (berryHeal_nonneg heff)).trans
    ((sameHp_eatBerry _).trans (sameHp_confuseByFlavour eff _)).heals

theorem edited_checkBerry {state after : BattleState} {sideIdx oppSideIdx : Int} {c c' : Channels}
    {eaten : Bool} (h : (checkBerry state sideIdx oppSideIdx).Returns c (eaten, after) c') :
    state.Edited Restores after := by
  have hdone {t : Bool × BattleState} {c : Channels} (ht : state.Edited Restores t.2)
      (h : (Turn.done t).Returns c (eaten, after) c') : state.Edited Restores after := by
    obtain ⟨rfl, -⟩ := Turn.returns_done.mp h
    exact ht
  unfold checkBerry at h
  extract_lets mon at h
  split at h
  · exact hdone .refl h
  · split at h
    · exact hdone .refl h
    · rename_i eff heff
      split at h
      · exact hdone .refl h
      · rename_i hready
        have hstands : mon.fainted = false := Bool.eq_false_iff.mpr fun hfell => hready (.inl hfell)
        have hthen {t : BattleState} (ht : state.Edited Restores t) :
            state.Edited Restores (onBerryConsumed t sideIdx) :=
          ht.trans (edited_onBerryConsumed ((fainted_activeMon ht.related sideIdx).trans hstands))
        have heaten {f : PokemonState → PokemonState} (hf : ∀ m, Heals m (f m)) :
            state.Edited Restores (state.modifyActive sideIdx f) :=
          edited_modifyMon ((hf mon).restores hstands)
        have hstaged (statIdx boost : Int) :
            state.Edited Restores
              (changeStatStage (state.modifyActive sideIdx eatBerry) sideIdx statIdx boost
                false false false).2 :=
          (heaten fun m => (sameHp_eatBerry m).heals).trans
            ((edited_changeStatStage _ _ _ _ _ _ _).mono SameHp.restores)
        extract_lets boost at h
        split at h
        · exact hdone (hthen (heaten (heals_eatHealingBerry heff))) h
        · exact hdone (hthen (heaten fun m =>
            ((sameHp_eatBerry m).trans (sameHp_raiseCritStage _)).heals)) h
        · obtain ⟨a, rest, -, h⟩ := Turn.returns_ask.mp h
          exact hdone (hthen (hstaged a.chosen boost)) h
        · exact hdone (hthen (hstaged eff.a1 boost)) h

theorem related_checkBerry {state after : BattleState} {sideIdx oppSideIdx : Int} {c c' : Channels}
    {eaten : Bool} (h : (checkBerry state sideIdx oppSideIdx).Returns c (eaten, after) c') :
    state.Related Heals after :=
  (edited_checkBerry h).related.mono Restores.heals

end Berries

section Traps

def releaseTraps (departedTeamIdx : Int32) (victim : PokemonState) : PokemonState :=
  let held (effect : Int32) :=
    victim.timedVolatiles.toList.any fun tv => tv.effect == effect && tv.turns == departedTeamIdx
  let bound := held veBoundSourceId
  let trapped := held veTrappedSourceId
  if victim.fainted ∨ ¬ (bound ∨ trapped) then victim
  else
    { victim with
      timedVolatiles := victim.timedVolatiles.filter fun tv =>
        !(bound && (tv.effect == veBound || tv.effect == veBoundSourceId ||
            tv.effect == veBoundSourceSlot)) &&
          !(trapped && (tv.effect == veTrapped || tv.effect == veTrappedSourceId)) }

def cppReleaseInflictedTraps (state : BattleState) (departedSideIdx : Int)
    (departedTeamIdx : Int32) : BattleState :=
  (state.side (1 - departedSideIdx)).activeIndices.toList.foldl
    (fun state idx => state.modifyMon (1 - departedSideIdx) idx (releaseTraps departedTeamIdx)) state

theorem sameHp_releaseTraps (departedTeamIdx : Int32) (victim : PokemonState) :
    SameHp victim (releaseTraps departedTeamIdx victim) := by
  unfold releaseTraps
  extract_lets held bound trapped
  split_ifs
  · exact refl_of SameHp victim
  · exact ⟨rfl, rfl, rfl⟩

theorem edited_cppReleaseInflictedTraps (state : BattleState) (departedSideIdx : Int)
    (departedTeamIdx : Int32) :
    state.Edited SameHp (cppReleaseInflictedTraps state departedSideIdx departedTeamIdx) := by
  refine List.foldlRecOn _ _ .refl fun t ht idx _ => ?_
  exact .modify ht (sameHp_releaseTraps departedTeamIdx _)

theorem related_cppReleaseInflictedTraps (state : BattleState) (departedSideIdx : Int)
    (departedTeamIdx : Int32) :
    state.Related SameHp (cppReleaseInflictedTraps state departedSideIdx departedTeamIdx) :=
  (edited_cppReleaseInflictedTraps state departedSideIdx departedTeamIdx).related

end Traps

end Effects

end Engine

end NuzlockeSolver
