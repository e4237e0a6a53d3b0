import NuzlockeSolver.Engine.ExpLaw
import NuzlockeSolver.Engine.Residuals

/-!
# Residuals keep hit points and fainted flags together

Each handler keeps a coherent state coherent, one of them on a condition: Leech Seed, when Liquid
Ooze does not take the last hit points of the seeder. A phase whose steps all meet their conditions
ends in a coherent state.
-/

namespace NuzlockeSolver

namespace Engine

open Effects FallibleTurn

section Adjust

structure Adjusts (m m' : PokemonState) : Prop where
  maxHp : m'.maxHp = m.maxHp
  fainted : m'.fainted = m.fainted
  range : 0 ≤ m.hp.toInt → m.hp.toInt ≤ m.maxHp.toInt →
    0 ≤ m'.hp.toInt ∧ m'.hp.toInt ≤ m.maxHp.toInt

theorem Adjusts.refl (m : PokemonState) : Adjusts m m := ⟨rfl, rfl, fun h0 hle => ⟨h0, hle⟩⟩

theorem Adjusts.trans {a b c : PokemonState} (h : Adjusts a b) (h' : Adjusts b c) :
    Adjusts a c where
  maxHp := h'.maxHp.trans h.maxHp
  fainted := h'.fainted.trans h.fainted
  range h0 hle := by
    obtain ⟨h0', hle'⟩ := h.range h0 hle
    have hlast := h'.range h0' (by rw [h.maxHp]; exact hle')
    rwa [h.maxHp] at hlast

theorem SameHp.adjusts {m m' : PokemonState} (h : SameHp m m') : Adjusts m m' :=
  ⟨h.maxHp, h.fainted, fun h0 hle => by rw [h.hp]; exact ⟨h0, hle⟩⟩

theorem Heals.adjusts {m m' : PokemonState} (h : Heals m m') : Adjusts m m' :=
  ⟨h.maxHp, h.fainted, fun h0 hle => by
    obtain ⟨hrise, hmax⟩ := h.rises h0 hle
    exact ⟨h0.trans hrise, hmax⟩⟩

theorem one_le_share (m : PokemonState) (n : Int) : 1 ≤ share m n := le_max_left _ _

theorem adjusts_loseHp {m : PokemonState} {amount : Int} (h : 0 ≤ m.hp.toInt → 0 ≤ amount) :
    Adjusts m (loseHp amount m) := by
  refine ⟨rfl, rfl, fun h0 hle => ?_⟩
  have hpos := h h0
  have hhp : (loseHp amount m).hp.toInt = max 0 (m.hp.toInt - amount) :=
    toInt_ofInt_hp m.maxHp (by omega) (by omega)
  omega

theorem adjusts_chip (n : Int) (m : PokemonState) : Adjusts m (chip n m) :=
  adjusts_loseHp fun _ => le_trans (by decide) (one_le_share m n)

theorem heals_refill (n : Int) (m : PokemonState) : Heals m (refill n m) :=
  heals_heal m fun _ => le_trans (by decide) (one_le_share m n)

theorem adjusts_weatherChip (weather : Int32) (m : PokemonState) :
    Adjusts m (weatherChip weather m) := by
  unfold weatherChip
  split
  · split
    · exact adjusts_chip 16 m
    · exact .refl m
  split
  · split
    · exact (heals_refill 16 m).adjusts
    split
    · exact adjusts_chip 16 m
    · exact .refl m
  · exact .refl m

theorem adjusts_weatherSkin (weather : Int32) (m : PokemonState) :
    Adjusts m (weatherSkin weather m) := by
  unfold weatherSkin
  split
  · exact (heals_refill 16 m).adjusts
  split
  · split
    · exact (heals_refill 8 m).adjusts
    split
    · exact adjusts_chip 8 m
    · exact .refl m
  · exact .refl m

theorem adjusts_solarPower (weather : Int32) (m : PokemonState) :
    Adjusts m (solarPower weather m) := by
  unfold solarPower
  split
  · exact adjusts_chip 8 m
  · exact .refl m

theorem adjusts_poisonTick (m : PokemonState) : Adjusts m (poisonTick m) := by
  unfold poisonTick
  split
  · exact (heals_refill 8 m).adjusts
  split
  · have hlost : Adjusts m (loseHp (max 1 ((m.maxHp.toInt * m.toxicTurns.toInt).tdiv 16)) m) :=
      adjusts_loseHp fun _ => by omega
    exact ⟨hlost.maxHp, hlost.fainted, hlost.range⟩
  split
  · exact adjusts_chip 8 m
  · exact .refl m

theorem adjusts_burnTick (m : PokemonState) : Adjusts m (burnTick m) := by
  unfold burnTick
  split
  · exact adjusts_chip _ m
  · exact .refl m

end Adjust

section Endings

theorem modifyMon_modifyMon (state : BattleState) (i : Int) (idx : Int32)
    (f g : PokemonState → PokemonState) (h : 0 < ((state.side i).mon idx).hp.toInt) :
    (state.modifyMon i idx f).modifyMon i idx g = state.modifyMon i idx fun m => g (f m) := by
  have hmon := mon_modifyMon_self h f
  rw [BattleState.modifyMon, hmon]
  simp only [BattleState.modifyMon, side_setSide_self]
  have hset : ((state.side i).setMon idx (f ((state.side i).mon idx))).setMon idx
      (g (f ((state.side i).mon idx))) =
      (state.side i).setMon idx (g (f ((state.side i).mon idx))) := by
    simp only [SideState.setMon, InlineVec.set, List.set_set]
  rw [hset]
  unfold BattleState.setSide
  split <;> rfl

theorem modifyMon_comm (state : BattleState) {i j : Int} (hij : ¬ (i = 0 ↔ j = 0))
    (idx jdx : Int32) (f g : PokemonState → PokemonState) :
    (state.modifyMon i idx f).modifyMon j jdx g = (state.modifyMon j jdx g).modifyMon i idx f := by
  have hji : ¬ (j = 0 ↔ i = 0) := fun h => hij h.symm
  simp only [BattleState.modifyMon, side_setSide, if_neg hij, if_neg hji]
  unfold BattleState.setSide
  by_cases hi : i = 0
  · have hj : ¬ j = 0 := fun hj => hij (iff_of_true hi hj)
    simp only [if_pos hi, if_neg hj]
  · have hj : j = 0 := by_contra fun hj => hij (iff_of_false hi hj)
    simp only [if_neg hi, if_pos hj]

theorem coherent_release {state : BattleState} (h : state.Coherent) (i : Int) (idx : Int32) :
    (cppReleaseInflictedTraps state i idx).Coherent :=
  (edited_cppReleaseInflictedTraps state i idx).coherent coherent_of_sameHp h

theorem mon_rewrite (state : BattleState) (b : Battler) (f : PokemonState → PokemonState) :
    b.mon (state.rewrite b f) = f (b.mon state) ∨ b.mon (state.rewrite b f) = b.mon state := by
  rw [Battler.mon, BattleState.rewrite, BattleState.modifyMon, side_setSide_self, mon_setMon]
  split
  · exact .inl rfl
  · exact .inr rfl

theorem coherent_of_adjusts {m m' : PokemonState} (h : Adjusts m m') (hm : m.Coherent)
    (hstands : m.fainted = false) (hleft : m'.hp ≠ 0) : m'.Coherent := by
  obtain ⟨h0, hle⟩ := h.range hm.nonneg hm.le_max
  refine ⟨h0, by rw [h.maxHp]; exact hle, ?_⟩
  rw [h.fainted, hstands]
  refine iff_of_false (by decide) fun hzero => hleft ?_
  exact Int32.toInt_inj.mp hzero

theorem coherent_setFainted {m m' : PokemonState} (h : Adjusts m m') (hm : m.Coherent)
    (hspent : m'.hp = 0) : (setFainted m').Coherent := by
  have hzero : (setFainted m').hp.toInt = 0 := congrArg Int32.toInt hspent
  have hmax : (setFainted m').maxHp.toInt = m.maxHp.toInt := congrArg Int32.toInt h.maxHp
  have h0 := hm.nonneg
  have hle := hm.le_max
  exact ⟨by omega, by omega, iff_of_true rfl hzero⟩

structure Settles (b : Battler) (r : Bool × BattleState) : Prop where
  coherent : r.2.Coherent
  stands : r.1 = false → (b.mon r.2).fainted = false

theorem settles_faintIfSpent (notify : Bool) {state : BattleState} {b : Battler}
    {f : PokemonState → PokemonState} (hs : state.Coherent) (hstands : (b.mon state).fainted = false)
    (hf : Adjusts (b.mon state) (f (b.mon state))) :
    Settles b (faintIfSpent notify (state.rewrite b f) b) := by
  unfold faintIfSpent
  split
  · rename_i hspent
    extract_lets fallen notified
    refine ⟨coherent_release ?_ b.sideIdx b.teamIdx, fun hfell => Bool.noConfusion hfell⟩
    have hfallen : fallen.Coherent := by
      by_cases hpos : 0 < (b.mon state).hp.toInt
      · have hmon : b.mon (state.rewrite b f) = f (b.mon state) := mon_modifyMon_self hpos f
        have hboth : fallen = state.rewrite b fun m => setFainted (f m) :=
          modifyMon_modifyMon state b.sideIdx b.teamIdx f setFainted hpos
        rw [hboth]
        exact coherent_modifyMon hs fun hm => coherent_setFainted hf hm (hmon ▸ hspent)
      · -- a standing member has hit points, so that the battler is none
        have hnone : ¬ (b.mon state).Coherent := fun hm => hpos (hp_pos_of_coherent hm hstands)
        have hrewritten : (state.rewrite b f).Coherent :=
          coherent_modifyMon hs fun hm => absurd hm hnone
        exact coherent_modifyMon hrewritten fun hm => coherent_setFainted (.refl _) hm hspent
    simp only [notified]
    split
    · exact coherent_notifyFaintSoulHeart hfallen
    · exact hfallen
  · rename_i hleft
    refine ⟨coherent_modifyMon hs fun hm => ?_, fun _ => ?_⟩
    · have hmon : b.mon (state.rewrite b f) = f (b.mon state) :=
        mon_modifyMon_self (hp_pos_of_coherent hm hstands) f
      exact coherent_of_adjusts hf hm hstands (hmon ▸ hleft)
    · rcases mon_rewrite state b f with hmon | hmon
      · rw [hmon]
        exact hf.fainted.trans hstands
      · rw [hmon]
        exact hstands

theorem settles_residualDamage (notify : Bool) (n : Int) {state : BattleState} {b : Battler}
    (hs : state.Coherent) (hstands : (b.mon state).fainted = false) :
    Settles b (residualDamage notify n state b) :=
  settles_faintIfSpent notify hs hstands (adjusts_chip n _)

theorem settles_unlessFallen {b : Battler} {r : Bool × BattleState}
    {f : BattleState → Bool × BattleState} (hr : Settles b r)
    (hf : ∀ t : BattleState, t.Coherent → (b.mon t).fainted = false → Settles b (f t)) :
    Settles b (unlessFallen r f) := by
  unfold unlessFallen
  split
  · exact hr
  · rename_i hfell
    exact hf r.2 hr.coherent (hr.stands (Bool.eq_false_iff.mpr hfell))

theorem coherent_heals {state : BattleState} {b : Battler} {f : PokemonState → PokemonState}
    (hs : state.Coherent) (hstands : (b.mon state).fainted = false)
    (hf : Heals (b.mon state) (f (b.mon state))) : (state.rewrite b f).Coherent :=
  coherent_modifyMon hs fun hm => coherent_of_heals hf hm hstands

theorem coherent_sameHp {state : BattleState} {b : Battler} {f : PokemonState → PokemonState}
    (hs : state.Coherent) (hf : SameHp (b.mon state) (f (b.mon state))) :
    (state.rewrite b f).Coherent :=
  coherent_modifyMon hs (coherent_of_sameHp hf)

theorem coherent_changeStatStage {state : BattleState} (hs : state.Coherent)
    (sideIdx statIdx delta : Int) :
    (changeStatStage state sideIdx statIdx delta false false false).2.Coherent :=
  (edited_changeStatStage state sideIdx statIdx delta false false false).coherent
    coherent_of_sameHp hs

theorem coherent_checkBerry {state after : BattleState} {sideIdx oppSideIdx : Int}
    {c c' : Channels} {eaten : Bool} (hs : state.Coherent)
    (h : (checkBerry state sideIdx oppSideIdx).Returns c (eaten, after) c') : after.Coherent :=
  (edited_checkBerry h).coherent coherent_of_restores hs

theorem coherent_thenBerry {r : Bool × BattleState} {b : Battler} {after : BattleState}
    {c c' : Channels} (hr : r.2.Coherent) (h : (thenBerry r b).Returns c after c') :
    after.Coherent := by
  unfold thenBerry at h
  split at h
  · obtain ⟨rfl, -⟩ := Turn.returns_pure.mp h
    exact hr
  · obtain ⟨⟨eaten, fed⟩, c₁, hberry, hdone⟩ := Turn.returns_bind.mp h
    obtain ⟨rfl, -⟩ := Turn.returns_pure.mp hdone
    exact coherent_checkBerry hr hberry

end Endings

section Bands

variable {state after : BattleState} {b : Battler} {c c' : Channels}

theorem coherent_bandWeather (weather : Int32) (hs : state.Coherent)
    (hstands : (b.mon state).fainted = false) : (bandWeather weather state b).Coherent :=
  (settles_faintIfSpent true hs hstands (((adjusts_weatherChip weather _).trans
    (adjusts_weatherSkin weather _)).trans (adjusts_solarPower weather _))).coherent

theorem coherent_bandGrassyTerrain (hs : state.Coherent)
    (hstands : (b.mon state).fainted = false) : (bandGrassyTerrain state b).Coherent := by
  unfold bandGrassyTerrain
  split
  · exact coherent_heals hs hstands (heals_refill 16 _)
  · exact hs

theorem sameHp_cureStatus (m : PokemonState) : SameHp m (cureStatus m) := ⟨rfl, rfl, rfl⟩

theorem sameHp_hydration (weather : Int32) (m : PokemonState) : SameHp m (hydration weather m) := by
  unfold hydration
  split
  · exact sameHp_cureStatus m
  · exact ⟨rfl, rfl, rfl⟩

theorem coherent_proc {t : Battler} {f : PokemonState → PokemonState} {chance : Int}
    {luck : EffectsLuck} (hs : state.Coherent) (hf : ∀ m, SameHp m (f m))
    (h : (do
      let fires ← resolveProcDet chance luck
      pure (if fires then state.rewrite t f else state) : Turn BattleState).Returns c after c') :
    after.Coherent := by
  obtain ⟨fires, c₁, -, hdone⟩ := Turn.returns_bind.mp h
  obtain ⟨rfl, -⟩ := Turn.returns_pure.mp hdone
  split
  · exact coherent_sameHp hs (hf _)
  · exact hs

theorem coherent_shedSkin {luck : EffectsLuck} (hs : state.Coherent)
    (h : (shedSkin luck state b).Returns c after c') : after.Coherent := by
  unfold shedSkin at h
  extract_lets mon at h
  split at h
  · exact coherent_proc hs sameHp_cureStatus h
  · obtain ⟨rfl, -⟩ := Turn.returns_pure.mp h
    exact hs

theorem coherent_healer {luck : EffectsLuck} (hs : state.Coherent)
    (h : (healer luck state b).Returns c after c') : after.Coherent := by
  unfold healer at h
  extract_lets actives at h
  split at h
  · split at h
    · obtain ⟨rfl, -⟩ := Turn.returns_pure.mp h
      exact hs
    · exact coherent_proc hs sameHp_cureStatus h
  · obtain ⟨rfl, -⟩ := Turn.returns_pure.mp h
    exact hs

theorem coherent_bandStatusCure {weather : Int32} {luck : ResidualLuck} (hs : state.Coherent)
    (h : (bandStatusCure weather luck state b).Returns c after c') : after.Coherent := by
  obtain ⟨shed, c₁, hshed, hhealer⟩ := Turn.returns_bind.mp h
  exact coherent_healer (coherent_sameHp (coherent_shedSkin hs hshed) (sameHp_hydration weather _))
    hhealer

theorem coherent_bandItemHeal (hs : state.Coherent) (hstands : (b.mon state).fainted = false) :
    (bandItemHeal state b).Coherent := by
  have hheal := coherent_heals hs hstands (heals_refill 16 _)
  unfold bandItemHeal
  extract_lets mon
  split
  · split
    · exact hheal
    · exact hs
  split
  · split
    · exact hs
    split
    · exact hheal
    · exact (settles_residualDamage false 8 hs hstands).coherent
  · exact hs

theorem coherent_bandRing (volatile : Int32) (hs : state.Coherent)
    (hstands : (b.mon state).fainted = false) : (bandRing volatile state b).Coherent := by
  unfold bandRing
  split
  · exact coherent_heals hs hstands (heals_refill 16 _)
  · exact hs

def OozeSpares (state : BattleState) (b : Battler) : Prop :=
  let mon := b.mon state
  let opp := (seeder state b).mon state
  seedWorks mon = true → oozes mon = true → opp.fainted = false → seedDrain mon < opp.hp.toInt

theorem hp_nonneg (hs : state.Coherent) (b : Battler) : 0 ≤ (b.mon state).hp.toInt := by
  rw [Battler.mon, SideState.mon]
  by_cases hlt : b.teamIdx.toInt.toNat < (state.side b.sideIdx).team.toList.length
  · rw [List.getD_eq_getElem _ _ hlt]
    exact (hs b.sideIdx _ (List.getElem_mem hlt)).nonneg
  · rw [List.getD_eq_default _ _ (Nat.le_of_not_lt hlt)]
    decide

theorem truncate_nonneg {q : ℚ} (h : 0 ≤ q) : 0 ≤ truncate q := by
  rw [truncate, if_pos h]
  exact Int.floor_nonneg.mpr h

theorem coherent_seederTakes {m opp : PokemonState} (hopp : opp.Coherent)
    (hdrain : 0 ≤ seedDrain m)
    (hspares : oozes m = true → opp.fainted = false → seedDrain m < opp.hp.toInt) :
    (seederTakes (seedDrain m) (oozes m) opp).Coherent := by
  unfold seederTakes
  split
  · exact hopp
  rename_i hstands
  have hstands := Bool.eq_false_iff.mpr hstands
  split
  · rename_i hooze
    have hlt := hspares hooze hstands
    have hle := hopp.le_max
    have hhp : (loseHp (seedDrain m) opp).hp.toInt = opp.hp.toInt - seedDrain m := by
      rw [loseHp, toInt_ofInt_hp opp.maxHp (by omega) (by omega)]
      omega
    exact coherent_of_adjusts (adjusts_loseHp fun _ => hdrain) hopp hstands fun hzero => by
      rw [hzero] at hhp
      have : (0 : Int32).toInt = 0 := rfl
      omega
  · refine coherent_of_heals (heals_heal opp fun _ => ?_) hopp hstands
    split
    · exact truncate_nonneg (mul_nonneg (Int.cast_nonneg hdrain) (by norm_num))
    · exact hdrain

theorem coherent_bandLeechSeed (hside : b.sideIdx = 0 ∨ b.sideIdx = 1) (hs : state.Coherent)
    (hstands : (b.mon state).fainted = false) (hspares : OozeSpares state b) :
    (bandLeechSeed state b).Coherent := by
  unfold bandLeechSeed
  extract_lets mon drain opp lost fed
  split
  · rename_i hworks
    -- the two rewritten mons are on different sides
    have hsides : ¬ (b.sideIdx = 0 ↔ opp.sideIdx = 0) := by
      change ¬ (b.sideIdx = 0 ↔ 1 - b.sideIdx = 0)
      omega
    have hswap : fed =
        (state.rewrite opp (seederTakes drain (oozes mon))).rewrite b (loseHp drain) :=
      modifyMon_comm state hsides b.teamIdx opp.teamIdx _ _
    have hsame : b.mon (state.rewrite opp (seederTakes drain (oozes mon))) = mon := by
      rw [Battler.mon, BattleState.rewrite, BattleState.modifyMon, side_setSide,
        if_neg fun h => hsides h.symm]
      rfl
    have hdrain (hpos : 0 ≤ mon.hp.toInt) : 0 ≤ drain :=
      le_min (le_trans (by decide) (one_le_share mon 8)) hpos
    have hfed : (state.rewrite opp (seederTakes drain (oozes mon))).Coherent :=
      coherent_modifyMon hs fun hopp =>
        coherent_seederTakes hopp (hdrain (hp_nonneg hs b)) (hspares hworks)
    rw [hswap]
    refine (settles_faintIfSpent true hfed (by rw [hsame]; exact hstands) ?_).coherent
    rw [hsame]
    exact adjusts_loseHp hdrain
  · exact hs

theorem coherent_bandPoison (hs : state.Coherent) (hstands : (b.mon state).fainted = false)
    (h : (bandPoison state b).Returns c after c') : after.Coherent :=
  coherent_thenBerry (settles_faintIfSpent true hs hstands (adjusts_poisonTick _)).coherent h

theorem coherent_bandBurn (hs : state.Coherent) (hstands : (b.mon state).fainted = false)
    (h : (bandBurn state b).Returns c after c') : after.Coherent :=
  coherent_thenBerry (settles_faintIfSpent true hs hstands (adjusts_burnTick _)).coherent h

theorem sameHp_speedBoost (m : PokemonState) : SameHp m (speedBoost m) := by
  unfold speedBoost
  split <;> exact ⟨rfl, rfl, rfl⟩

theorem sameHp_takeBerryBack (m : PokemonState) : SameHp m (takeBerryBack m) := ⟨rfl, rfl, rfl⟩

theorem coherent_harvest {weather : Int32} {luck : EffectsLuck} (hs : state.Coherent)
    (h : (harvest weather luck state b).Returns c after c') : after.Coherent := by
  unfold harvest at h
  extract_lets mon at h
  split at h
  · exact coherent_proc hs sameHp_takeBerryBack h
  · obtain ⟨rfl, -⟩ := Turn.returns_pure.mp h
    exact hs

theorem coherent_moody {luck : EffectsLuck} (hs : state.Coherent)
    (h : Yields (moody luck state b) c after c') : after.Coherent := by
  unfold moody at h
  split at h
  · obtain ⟨rfl, -⟩ := yields_pure.mp h
    exact hs
  split at h
  · exact absurd h not_yields_throw
  · obtain ⟨picks, c₁, -, h⟩ := yields_bind.mp h
    split at h
    · exact absurd h not_yields_throw
    · obtain ⟨rfl, -⟩ := yields_pure.mp h
      exact coherent_changeStatStage (coherent_changeStatStage hs _ _ _) _ _ _

theorem coherent_haunted {m : PokemonState} (hm : m.Coherent) : (haunted m).Coherent := by
  have h0 := hm.nonneg
  have hle := hm.le_max
  have hshare := one_le_share m 8
  have hhp : (haunted m).hp.toInt = max 0 (m.hp.toInt - share m 8) :=
    toInt_ofInt_hp m.maxHp (by omega) (by omega)
  have hmax : (haunted m).maxHp = m.maxHp := rfl
  refine ⟨by omega, by rw [hmax]; omega, ?_⟩
  rw [hhp]
  exact beq_iff_eq

theorem coherent_badDreams (hs : state.Coherent) : (badDreams state b).Coherent := by
  unfold badDreams
  extract_lets foe opp hit
  have hhit : hit.Coherent := coherent_modifyMon hs coherent_haunted
  split
  · split
    · exact coherent_release hhit _ _
    · exact hhit
  · exact hs

theorem coherent_orb (item status : Int32) (hs : state.Coherent) :
    (orb item status state b).Coherent := by
  unfold orb
  extract_lets mon
  split
  · exact (edited_applyStatusTo state b.sideIdx status).coherent coherent_of_sameHp hs
  · exact hs

theorem coherent_bandLate {weather : Int32} {luck : ResidualLuck} (hs : state.Coherent)
    (h : Yields (bandLate weather luck state b) c after c') : after.Coherent := by
  obtain ⟨grown, c₁, hgrown, h⟩ := yields_bind.mp h
  obtain ⟨moved, c₂, hmoved, h⟩ := yields_bind.mp h
  obtain ⟨rfl, -⟩ := yields_pure.mp h
  have hboosted : (state.rewrite b speedBoost).Coherent := coherent_sameHp hs (sameHp_speedBoost _)
  have hgrown := coherent_harvest hboosted (yields_ofTurn.mp hgrown)
  exact coherent_orb _ _ (coherent_orb _ _ (coherent_badDreams (coherent_moody hgrown hmoved)))

theorem settles_stickyBarb (hs : state.Coherent) (hstands : (b.mon state).fainted = false) :
    Settles b (stickyBarb state b) := by
  unfold stickyBarb
  extract_lets mon
  split
  · exact settles_residualDamage true 8 hs hstands
  · exact ⟨hs, fun _ => hstands⟩

theorem edited_octolock (state : BattleState) (b : Battler) :
    state.Edited SameHp (octolock state b) := by
  unfold octolock
  split
  · exact (edited_changeStatStage _ _ _ _ _ _ _).trans (edited_changeStatStage _ _ _ _ _ _ _)
  · exact .refl

theorem settles_nightmare (hs : state.Coherent) (hstands : (b.mon state).fainted = false) :
    Settles b (nightmare state b) := by
  unfold nightmare
  extract_lets mon
  split
  · exact settles_residualDamage false 4 hs hstands
  · exact ⟨hs, fun _ => hstands⟩

theorem sameHp_wakeUp (m : PokemonState) : SameHp m (wakeUp m) := by
  unfold wakeUp
  split <;> exact ⟨rfl, rfl, rfl⟩

theorem settles_curse (hs : state.Coherent) (hstands : (b.mon state).fainted = false) :
    Settles b (curse state b) := by
  unfold curse
  extract_lets mon
  split
  · exact settles_residualDamage false 4 hs hstands
  · exact ⟨hs, fun _ => hstands⟩

theorem settles_bound (hs : state.Coherent) (hstands : (b.mon state).fainted = false) :
    Settles b (bound state b) := by
  unfold bound
  extract_lets mon ticks gone
  split
  · exact settles_residualDamage false _ hs hstands
  · exact ⟨hs, fun _ => hstands⟩

theorem coherent_bandLateDamage (hs : state.Coherent) (hstands : (b.mon state).fainted = false)
    (h : (bandLateDamage state b).Returns c after c') : after.Coherent := by
  refine coherent_thenBerry (settles_unlessFallen (settles_unlessFallen (settles_unlessFallen
    (settles_stickyBarb hs hstands) fun t ht hup => ?_) fun t ht hup => ?_)
    fun t ht hup => settles_bound ht hup).coherent h
  · have hoct := edited_octolock t b
    exact settles_nightmare (hoct.coherent coherent_of_sameHp ht)
      ((hoct.related.mons b.sideIdx b.teamIdx).fainted.trans hup)
  · refine settles_curse (coherent_sameHp ht (sameHp_wakeUp _)) ?_
    rcases mon_rewrite t b wakeUp with hmon | hmon
    · rw [hmon]
      exact (sameHp_wakeUp _).fainted.trans hup
    · rw [hmon]
      exact hup

end Bands

section Ticks

theorem sameHp_unlockMove (m : PokemonState) : SameHp m (unlockMove m) := ⟨rfl, rfl, rfl⟩

theorem sameHp_endRoost (base : List Int32) (m : PokemonState) : SameHp m (endRoost base m) := by
  unfold endRoost
  split
  · split <;> exact ⟨rfl, rfl, rfl⟩
  · exact ⟨rfl, rfl, rfl⟩

theorem sameHp_clearVolatile (bit : Int32) (m : PokemonState) : SameHp m (clearVolatile bit m) :=
  ⟨rfl, rfl, rfl⟩

theorem sameHp_confuse (m : PokemonState) : SameHp m (confuse m) := ⟨rfl, rfl, rfl⟩

theorem sameHp_expire {rules : ResidualRules} {state : BattleState} {effect : Int32}
    {t t' : TickState} (h : expire rules state effect t = .ok t') : SameHp t.mon t'.mon := by
  unfold expire at h
  split at h
  · obtain rfl := Except.ok.inj h
    exact sameHp_clearVolatile _ t.mon
  split at h
  · obtain rfl := Except.ok.inj h
    exact ⟨rfl, rfl, rfl⟩
  split at h
  · obtain rfl := Except.ok.inj h
    exact refl_of SameHp t.mon
  split at h
  · obtain rfl := Except.ok.inj h
    dsimp only
    split
    · exact sameHp_unlockMove t.mon
    · exact (sameHp_unlockMove t.mon).trans (sameHp_confuse _)
  split at h
  · obtain ⟨base, -, h⟩ := bind_eq_ok.mp h
    obtain rfl := Except.ok.inj h
    exact sameHp_endRoost base t.mon
  split at h
  · obtain rfl := Except.ok.inj h
    exact ⟨rfl, rfl, rfl⟩
  · obtain rfl := Except.ok.inj h
    exact refl_of SameHp t.mon

theorem sameHp_tick {rules : ResidualRules} {state : BattleState} {tv : TimedVolatile}
    {t t' : TickState} (h : tick rules state t tv = .ok t') : SameHp t.mon t'.mon := by
  unfold tick at h
  split at h
  · cases h
    exact ⟨rfl, rfl, rfl⟩
  split at h
  · cases h
    exact sameHp_unlockMove t.mon
  · extract_lets newTurns at h
    split at h
    · cases h
      exact ⟨rfl, rfl, rfl⟩
    · exact sameHp_expire h

theorem sameHp_ticks {rules : ResidualRules} {state : BattleState} (l : List TimedVolatile)
    {t t' : TickState} (h : l.foldlM (tick rules state) t = .ok t') : SameHp t.mon t'.mon := by
  induction l generalizing t with
  | nil =>
    cases h
    exact ⟨rfl, rfl, rfl⟩
  | cons tv rest ih =>
    rw [List.foldlM_cons] at h
    obtain ⟨t₁, hfirst, hrest⟩ := bind_eq_ok.mp h
    exact (sameHp_tick hfirst).trans (ih hrest)

theorem coherent_perish {m : PokemonState} (hm : 0 ≤ m.maxHp.toInt) : (perish m).Coherent :=
  ⟨le_refl _, hm, iff_of_true rfl rfl⟩

theorem coherent_resTickTimedVolatiles {rules : ResidualRules} {state after : BattleState}
    {b : Battler} (hs : state.Coherent) (h : resTickTimedVolatiles rules state b = .ok after) :
    after.Coherent := by
  obtain ⟨t, ht, h⟩ := bind_eq_ok.mp h
  have hticks := sameHp_ticks _ ht
  have hsame : SameHp (b.mon state) (ticked t) := ⟨hticks.hp, hticks.maxHp, hticks.fainted⟩
  split at h
  · cases h
    have hgone : (state.rewrite b fun _ => perish (ticked t)).Coherent := by
      refine coherent_modifyMon hs fun hm => coherent_perish ?_
      rw [hsame.maxHp]
      exact hm.nonneg.trans hm.le_max
    exact coherent_release hgone _ _
  · cases h
    exact coherent_sameHp hs hsame

end Ticks

section Start

theorem activeMon_setLead {state : BattleState} {i : Int} (idx : Int32)
    (h : 0 < (state.side i).activeIndices.toList.length) :
    activeMon (setLead state i idx) i = (state.side i).mon idx := by
  have hlead : activeIdx (setLead state i idx) i 0 = idx := by
    rw [activeIdx, setLead, activeIndices_setActives, if_pos Iff.rfl]
    simp [InlineVec.set, List.getD_eq_getElem?_getD, h]
  rw [activeMon, hlead, setLead, mon_setActives]

theorem length_setLead (state : BattleState) (i : Int) (idx : Int32) (j : Int) :
    ((setLead state i idx).side j).activeIndices.toList.length =
      (state.side j).activeIndices.toList.length := by
  rw [setLead, activeIndices_setActives]
  split
  · exact List.length_set
  · rfl

theorem sameHp_endTurnCounters (initiated : Bool) (m : PokemonState) :
    SameHp m (endTurnCounters initiated m) := ⟨rfl, rfl, rfl⟩

theorem coherent_startResiduals (ctx : ResidualCtx) {state : BattleState} {slot : Int × Nat}
    (hs : state.Coherent) (hslot : slot.2 < (state.side slot.1).activeIndices.toList.length) :
    (startResiduals ctx state slot).Coherent ∧
      ∀ j, ((startResiduals ctx state slot).side j).activeIndices.toList.length =
        (state.side j).activeIndices.toList.length := by
  unfold startResiduals
  extract_lets b counted saved led cured calmed
  split
  · exact ⟨hs, fun _ => rfl⟩
  rename_i hup
  have hcounted : state.Edited SameHp counted :=
    edited_modifyMon (sameHp_endTurnCounters _ _)
  have hlength (j : Int) : (led.side j).activeIndices.toList.length =
      (state.side j).activeIndices.toList.length := by
    rw [length_setLead, hcounted.related.active]
  have hfront : (activeMon led b.sideIdx).fainted = false := by
    have hpos : 0 < (counted.side b.sideIdx).activeIndices.toList.length := by
      rw [hcounted.related.active]
      exact Nat.zero_lt_of_lt hslot
    rw [activeMon_setLead _ hpos, (hcounted.related.mons b.sideIdx b.teamIdx).fainted]
    exact Bool.eq_false_iff.mpr hup
  have hcured := edited_checkStatusBerry b.oppIdx hfront
  have hcalmed := edited_checkConfusionBerry b.oppIdx
    ((fainted_activeMon hcured.related b.sideIdx).trans hfront)
  refine ⟨coherent_setLead ((hcured.trans hcalmed).coherent coherent_of_restores (coherent_setLead
    (hcounted.coherent coherent_of_sameHp hs) _ _)) _ _, fun j => ?_⟩
  rw [length_setLead, (hcured.trans hcalmed).related.active, hlength]

theorem mem_slots {state : BattleState} {slot : Int × Nat} (h : slot ∈ slots state) :
    (slot.1 = 0 ∨ slot.1 = 1) ∧ slot.2 < (state.side slot.1).activeIndices.toList.length := by
  rcases List.mem_append.mp h with h | h
  · obtain ⟨k, hk, rfl⟩ := List.mem_map.mp h
    exact ⟨.inl rfl, List.mem_range.mp hk⟩
  · obtain ⟨k, hk, rfl⟩ := List.mem_map.mp h
    exact ⟨.inr rfl, List.mem_range.mp hk⟩

theorem coherent_beforeChains (ctx : ResidualCtx) {state : BattleState} (hs : state.Coherent) :
    (beforeChains ctx state).Coherent := by
  let kept (t : BattleState) : Prop := t.Coherent ∧ ∀ j,
    (t.side j).activeIndices.toList.length = (state.side j).activeIndices.toList.length
  have hfold : kept (beforeChains ctx state) := by
    refine List.foldlRecOn (slots state) _ (show kept state from ⟨hs, fun _ => rfl⟩)
      fun t ht slot hslot => ?_
    obtain ⟨hcoherent, hlength⟩ := coherent_startResiduals ctx ht.1
      (by rw [ht.2]; exact (mem_slots hslot).2)
    exact ⟨hcoherent, fun j => (hlength j).trans (ht.2 j)⟩
  exact hfold.1

end Start

section Flush

variable {species : SpeciesTable} {pow : ℚ → ℚ}

def LevelsSuit (cap : LevelCap) (data : SpeciesExpData) (m : PokemonState) (amount : Int) : Prop :=
  ∀ level : Int32, m.level.toInt < level.toInt → level.toInt ≤ hardCap cap →
    cppExpForLevel data.growthRate level.toInt ≤ m.exp.toInt + amount → SuitsLevel data m level

theorem coherent_levelUps {data : SpeciesExpData} {cap newExp : Int} (hcap : cap ≤ 100) (n : Nat)
    {m m' : PokemonState} (h : levelUps species data.growthRate cap newExp n m = .ok m')
    (hdata : species m.species = some data) (hm : m.Coherent)
    (hsuits : ∀ level : Int32, m.level.toInt < level.toInt → level.toInt ≤ cap →
      cppExpForLevel data.growthRate level.toInt ≤ newExp → SuitsLevel data m level) :
    m'.Coherent := by
  induction n generalizing m with
  | zero =>
    cases h
    exact hm
  | succ n ih =>
    unfold levelUps at h
    split at h
    · rename_i hgo
      obtain ⟨m₁, hrecalc, h⟩ := bind_eq_ok.mp h
      have hsucc : (m.level + 1).toInt = m.level.toInt + 1 := toInt_level_succ (by omega)
      have hnext : SuitsLevel data m (m.level + 1) :=
        hsuits (m.level + 1) (by omega) (by omega) (by rw [hsucc]; exact hgo.2)
      obtain ⟨hkept, hlevel⟩ := recalc_kept hrecalc hdata hm hnext
      have hlevel₁ : m₁.level.toInt = m.level.toInt + 1 := by rw [hlevel, hsucc]
      exact ih h (by rw [hkept.species]; exact hdata) hkept.coherent fun level hlt hle hexp =>
        (hsuits level (by omega) hle hexp).of_kept hkept
    · obtain rfl := Except.ok.inj h
      exact hm

theorem coherent_expGain {cap : LevelCap} {data : SpeciesExpData} {m m' : PokemonState}
    {amount gained : Int} (h : cppApplyExpGain species m amount cap data.growthRate = .ok (m', gained))
    (hdata : species m.species = some data) (hm : m.Coherent)
    (hsuits : LevelsSuit cap data m amount) : m'.Coherent := by
  unfold cppApplyExpGain at h
  split at h
  · cases h
    exact hm
  · extract_lets newExp at h
    obtain ⟨raised, hraised, h⟩ := bind_eq_ok.mp h
    obtain ⟨rfl, -⟩ := Prod.mk.inj (Except.ok.inj h)
    have hle : newExp ≤ m.exp.toInt + amount := by
      simp only [newExp, cappedExp]
      split
      · exact min_le_left _ _
      · exact le_refl _
    have hset : (setExp m newExp).Coherent := ⟨hm.nonneg, hm.le_max, hm.fainted_iff⟩
    have hraised := coherent_levelUps (hardCap_le cap) _ hraised hdata hset
      fun level hlt hcap hexp => hsuits level hlt hcap (hexp.trans hle)
    obtain ⟨hhp, hmaxHp, hfainted, -, -⟩ := @kept_settleExp cap data.growthRate raised
    exact coherent_of_sameHp ⟨hhp, hmaxHp, hfainted⟩ hraised

def AwardSpares (species : SpeciesTable) (pow : ℚ → ℚ) (ko : KnockOut) (state : BattleState)
    (teamIdx : Nat) : Prop :=
  ∀ winner amount data, state.side0.team.toList[teamIdx]? = some winner →
    (winner.fainted = true → ko.allowFaintedWinners = true) →
    cppCalcExpGain species pow ko.species ko.level winner.level = .ok amount →
    species winner.species = some data → LevelsSuit state.levelCap? data winner amount.toInt

theorem coherent_setTeamMon {state : BattleState} {idx : Nat} {m : PokemonState}
    (hs : state.Coherent) (hm : m.Coherent) : (setTeamMon state idx m).Coherent := by
  intro i m' hm'
  by_cases hi : i = 0
  · have hm' : m' ∈ state.side0.team.toList.set idx m := by
      rw [BattleState.side, if_pos hi] at hm'
      exact hm'
    rcases List.mem_or_eq_of_mem_set hm' with hold | rfl
    · exact hs 0 m' hold
    · exact hm
  · rw [BattleState.side, if_neg hi] at hm'
    exact hs 1 m' hm'

theorem coherent_awardExp {ko : KnockOut} {state after : BattleState} {teamIdx : Nat}
    {gains : ExpGains} (h : awardExp species pow ko state teamIdx = .ok (after, gains))
    (hs : state.Coherent) (hspares : AwardSpares species pow ko state teamIdx) :
    after.Coherent ∧ after.levelCap? = state.levelCap? ∧
      ∀ i, i ≠ teamIdx → after.side0.team.toList[i]? = state.side0.team.toList[i]? := by
  unfold awardExp at h
  cases hwinner : state.side0.team.toList[teamIdx]? with
  | none =>
    rw [hwinner] at h
    cases h
    exact ⟨hs, rfl, fun _ _ => rfl⟩
  | some winner =>
    rw [hwinner] at h
    dsimp only at h
    split at h
    · cases h
      exact ⟨hs, rfl, fun _ _ => rfl⟩
    · rename_i hallowed
      obtain ⟨amount, hamount, h⟩ := bind_eq_ok.mp h
      obtain ⟨data, hdata, h⟩ := bind_eq_ok.mp h
      obtain ⟨⟨mon, gained⟩, hgain, h⟩ := bind_eq_ok.mp h
      obtain ⟨rfl, rfl⟩ := Prod.mk.inj (Except.ok.inj h)
      have hspecies := species_of_expData hdata
      have hwants : winner.fainted = true → ko.allowFaintedWinners = true := fun hfell => by
        by_contra hno
        exact hallowed ⟨hfell, hno⟩
      have hmon := coherent_expGain hgain hspecies (hs 0 winner (List.mem_of_getElem? hwinner))
        (hspares winner amount data hwinner hwants hamount hspecies)
      refine ⟨coherent_setTeamMon hs hmon, rfl, fun i hi => ?_⟩
      rw [getElem?_setTeamMon, if_neg (Ne.symm hi)]

theorem coherent_awardAll {ko : KnockOut} (team : List Nat) (hnodup : team.Nodup)
    {state after : BattleState} {gains : ExpGains}
    (h : awardAll species pow ko team state = .ok (after, gains)) (hs : state.Coherent)
    (hspares : ∀ i ∈ team, AwardSpares species pow ko state i) : after.Coherent := by
  induction team generalizing state gains with
  | nil =>
    cases h
    exact hs
  | cons teamIdx rest ih =>
    obtain ⟨hfresh, hnodup⟩ := List.nodup_cons.mp hnodup
    obtain ⟨⟨state₁, gained⟩, haward, h⟩ := bind_eq_ok.mp h
    obtain ⟨⟨state₂, gains₂⟩, hrest, h⟩ := bind_eq_ok.mp h
    obtain ⟨rfl, rfl⟩ := Prod.mk.inj (Except.ok.inj h)
    obtain ⟨hcoherent, hcap, hother⟩ := coherent_awardExp haward hs (hspares teamIdx (by simp))
    refine ih hnodup hrest hcoherent fun i hi => ?_
    -- a later participant is as it was before this award
    intro winner amount data hwinner hwants hamount hspecies
    rw [hother i fun heq => hfresh (heq ▸ hi)] at hwinner
    rw [hcap]
    exact hspares i (List.mem_cons_of_mem _ hi) winner amount data hwinner hwants hamount hspecies

def flushCall (allowFaintedWinners : Bool) (flushed : BattleState × ExpParticipants)
    (teamIdx : Int32) : ExpCall where
  opponents := flushed.1.side1
  faintedTeamIdx := teamIdx
  expParticipants := flushed.2
  allowFaintedWinners := allowFaintedWinners

def FlushSpares (E : ResidualEnv) (allowFaintedWinners : Bool)
    (flushed : BattleState × ExpParticipants) (teamIdx : Int32) : Prop :=
  (flushed.1.side1.mon teamIdx).fainted = true →
    ∀ i ∈ (flushCall allowFaintedWinners flushed teamIdx).rewarded,
      AwardSpares E.rules.species E.rules.pow
        (flushCall allowFaintedWinners flushed teamIdx).knockOut flushed.1 i

theorem coherent_distribute {state after : BattleState} {teamIdx : Int32} {parts left : ExpParticipants}
    {allow : Bool} {gains : ExpGains}
    (h : cppDistributeExp species pow state teamIdx parts allow = .ok (after, left, gains))
    (hs : state.Coherent)
    (hspares : ∀ i ∈ (flushCall allow (state, parts) teamIdx).rewarded,
      AwardSpares species pow (flushCall allow (state, parts) teamIdx).knockOut state i) :
    after.Coherent := by
  unfold cppDistributeExp at h
  split at h
  · cases h
    exact hs
  · rename_i slotPos hslot
    split at h
    · cases h
      exact hs
    · cases h
      exact hs
    · rename_i participants _ hparticipants
      have hrewarded : (flushCall allow (state, parts) teamIdx).rewarded = participants := by
        have hslot : (flushCall allow (state, parts) teamIdx).opponents.activeIndices.toList.findIdx?
            (· == (flushCall allow (state, parts) teamIdx).faintedTeamIdx) = some slotPos := hslot
        have hparticipants : (flushCall allow (state, parts) teamIdx).expParticipants[slotPos]? =
            some participants := hparticipants
        rw [ExpCall.rewarded, hslot]
        simp [hparticipants]
      obtain ⟨⟨state₁, gains₁⟩, hawards, h⟩ := bind_eq_ok.mp h
      cases h
      exact coherent_awardAll _ (nodup_sortedParticipants participants) hawards hs fun i hi =>
        hspares i (hrewarded ▸ mem_sortedParticipants.mp hi)

theorem coherent_flushSlot {E : ResidualEnv} {allow : Bool}
    {flushed flushed' : BattleState × ExpParticipants} {teamIdx : Int32} {c c' : Channels}
    (hs : flushed.1.Coherent) (hspares : FlushSpares E allow flushed teamIdx)
    (h : Yields (flushSlot E allow flushed teamIdx) c flushed' c') : flushed'.1.Coherent := by
  unfold flushSlot at h
  extract_lets opp at h
  split at h
  · rename_i hfell
    obtain ⟨⟨after, left, gains⟩, c₁, hrewarded, hdone⟩ := yields_bind.mp h
    obtain ⟨rfl, -⟩ := yields_pure.mp hdone
    exact coherent_distribute (yields_ofExcept.mp hrewarded).1 hs (hspares hfell.2.2)
  · obtain ⟨rfl, -⟩ := yields_pure.mp h
    exact hs

def FlushMeets (E : ResidualEnv) (allowFaintedWinners : Bool)
    (flushed : BattleState × ExpParticipants) (c : Channels) : Prop :=
  LoopMeets (flushSlot E allowFaintedWinners)
    (fun flushed teamIdx _ => FlushSpares E allowFaintedWinners flushed teamIdx)
    flushed.1.side1.activeIndices.toList flushed c

theorem coherent_flush {E : ResidualEnv} {allow : Bool}
    {flushed flushed' : BattleState × ExpParticipants} {c c' : Channels}
    (hs : flushed.1.Coherent) (hmeets : FlushMeets E allow flushed c)
    (h : Yields (cppFlushOpponentFaintExp E allow flushed) c flushed' c') :
    flushed'.1.Coherent := by
  refine loop_invariant (fun flushed => flushed.1.Coherent) ?_ hs hmeets h
  intro flushed teamIdx _ c₁ flushed₁ c₂ hs hspares hslot
  exact coherent_flushSlot hs hspares hslot

end Flush

section Chains

variable {E : ResidualEnv}

def BandSpares (b : Battler) (state : BattleState) (band : Band) : Prop :=
  (b.mon state).fainted = false → band = .leechSeed → OozeSpares state b

theorem coherent_runBand {weather : Int32} {b : Battler} {state after : BattleState} {band : Band}
    {c c' : Channels} (hside : b.sideIdx = 0 ∨ b.sideIdx = 1) (hs : state.Coherent)
    (hspares : BandSpares b state band) (h : Yields (runBand E weather b state band) c after c') :
    after.Coherent := by
  have hpure {t : BattleState} (ht : t.Coherent) (h : Yields (pure t) c after c') :
      after.Coherent := by
    obtain ⟨rfl, -⟩ := yields_pure.mp h
    exact ht
  unfold runBand at h
  split at h
  · exact hpure hs h
  rename_i hup
  have hup := Bool.eq_false_iff.mpr hup
  cases band with
  | weather => exact hpure (coherent_bandWeather weather hs hup) h
  | grassyTerrain => exact hpure (coherent_bandGrassyTerrain hs hup) h
  | statusCure => exact coherent_bandStatusCure hs (yields_ofTurn.mp h)
  | itemHeal => exact hpure (coherent_bandItemHeal hs hup) h
  | aquaRing => exact hpure (coherent_bandRing volatileAquaRing hs hup) h
  | ingrain => exact hpure (coherent_bandRing volatileIngrain hs hup) h
  | leechSeed => exact hpure (coherent_bandLeechSeed hside hs hup (hspares hup rfl)) h
  | poison => exact coherent_bandPoison hs hup (yields_ofTurn.mp h)
  | burn => exact coherent_bandBurn hs hup (yields_ofTurn.mp h)
  | late => exact coherent_bandLate hs h
  | lateDamage => exact coherent_bandLateDamage hs hup (yields_ofTurn.mp h)
  | tickTimedVolatiles => exact coherent_resTickTimedVolatiles hs (yields_ofExcept.mp h).1

def BattlerMeets (E : ResidualEnv) (weather : Int32) (phase : Phase) (slot : Int × Nat)
    (c : Channels) : Prop :=
  let b := battlerAt phase.state slot
  let led := setLead phase.state b.sideIdx b.teamIdx
  (b.mon phase.state).fainted = false →
    LoopMeets (runBand E weather b) (fun state band _ => BandSpares b state band) Band.all led c ∧
    ∀ state c', Yields (Band.all.foldlM (runBand E weather b) led) c state c' →
      FlushMeets E true (setLead state b.sideIdx (activeIdx phase.state b.sideIdx 0),
        phase.expParticipants) c'

theorem coherent_battlerTurn {weather : Int32} {hpBefore : Int × Nat → Int} {phase after : Phase}
    {slot : Int × Nat} {c c' : Channels} (hside : slot.1 = 0 ∨ slot.1 = 1)
    (hs : phase.state.Coherent) (hmeets : BattlerMeets E weather phase slot c)
    (h : Yields (battlerTurn E weather hpBefore phase slot) c after c') : after.state.Coherent := by
  unfold battlerTurn at h
  extract_lets b saved at h
  split at h
  · obtain ⟨rfl, -⟩ := yields_pure.mp h
    exact hs
  · rename_i hup
    obtain ⟨hbands, hrewards⟩ := hmeets (Bool.eq_false_iff.mpr hup)
    obtain ⟨state, c₁, hchain, h⟩ := yields_bind.mp h
    obtain ⟨flushed, c₂, hflush, hdone⟩ := yields_bind.mp h
    obtain ⟨rfl, -⟩ := yields_pure.mp hdone
    have hstate : state.Coherent := by
      refine loop_invariant BattleState.Coherent ?_ (coherent_setLead hs _ _) hbands hchain
      intro t band _ c₃ t' c₄ ht hspares hband
      exact coherent_runBand hside ht hspares hband
    exact coherent_flush (coherent_setLead hstate _ _) (hrewards state c₁ hchain) hflush

end Chains

section Delay

/-- What falls due leaves its target within range: a Wish does not take its last hit points, and a
Future Sight adds none above the maximum. -/
def DelayedSpares (state : BattleState) : Delayed → Prop
  | .wish i =>
    let side := state.side i
    let target := (slotTarget state i side.wishSlot).mon state
    side.hasWishPending = true → side.wishTurns.toInt - 1 ≤ 0 → target.fainted = false →
      0 < target.hp.toInt + side.wishHp.toInt
  | .futureSight i =>
    let side := state.side i
    let target := (slotTarget state i side.fsTargetSlot).mon state
    side.hasFutureSightPending = true → side.fsTurns.toInt - 1 ≤ 0 → target.fainted = false →
      target.hp.toInt - side.fsDamage.toInt ≤ target.maxHp.toInt

theorem coherent_wishHeal {amount : Int} {m : PokemonState} (hm : m.Coherent)
    (hspares : m.fainted = false → 0 < m.hp.toInt + amount) : (wishHeal amount m).Coherent := by
  unfold wishHeal
  split
  · exact hm
  · rename_i hup
    have hup := Bool.eq_false_iff.mpr hup
    have hpos := hspares hup
    have hstand := hp_pos_of_coherent hm hup
    have hle := hm.le_max
    have hhp : (heal amount m).hp.toInt = min m.maxHp.toInt (m.hp.toInt + amount) :=
      toInt_ofInt_hp m.maxHp (by omega) (by omega)
    have hmax : (heal amount m).maxHp = m.maxHp := rfl
    refine ⟨by omega, by rw [hmax]; omega, ?_⟩
    rw [hhp]
    refine iff_of_false ?_ (by omega)
    change ¬ m.fainted = true
    rw [hup]
    decide

theorem coherent_applyWish {state : BattleState} {i : Int} (hs : state.Coherent)
    (hspares : DelayedSpares state (.wish i)) : (applyWish state i).Coherent := by
  unfold applyWish
  extract_lets side turnsLeft healed
  split
  · exact hs
  rename_i hpending
  split
  · rename_i hdue
    refine coherent_setSide (coherent_modifyMon hs fun hm => ?_) rfl
    exact coherent_wishHeal hm (hspares (not_not.mp hpending) hdue)
  · exact coherent_setSide hs rfl

theorem afterHit_range {luck : MoveExecLuck} {d : PokemonState} {damage newHp : Int}
    {sturdyIgnored : Bool} {newItem : Int32} {c c' : Channels}
    (h : (afterHit luck d damage sturdyIgnored).Returns c (newHp, newItem) c') :
    0 ≤ newHp ∧ newHp ≤ max 1 (d.hp.toInt - damage) := by
  unfold afterHit at h
  extract_lets left at h
  split at h
  · obtain ⟨hret, -⟩ := Turn.returns_done.mp h
    cases hret
    omega
  split at h
  · obtain ⟨v, c₁, -, h⟩ := Turn.returns_draw.mp h
    obtain ⟨hret, -⟩ := Turn.returns_done.mp h
    obtain ⟨rfl, -⟩ := Prod.mk.inj hret
    split <;> omega
  split at h
  · obtain ⟨hret, -⟩ := Turn.returns_done.mp h
    cases hret
    omega
  split at h
  · obtain ⟨hret, -⟩ := Turn.returns_done.mp h
    cases hret
    omega
  · obtain ⟨hret, -⟩ := Turn.returns_done.mp h
    obtain ⟨rfl, -⟩ := Prod.mk.inj hret
    omega

theorem coherent_wound {damage newHp : Int} (newItem : Int32) {m : PokemonState} (h0 : 0 ≤ newHp)
    (hle : newHp ≤ m.maxHp.toInt) : (wound damage newHp newItem m).Coherent := by
  have hhp : (wound damage newHp newItem m).hp.toInt = newHp := toInt_ofInt_hp m.maxHp h0 hle
  have hmax : (wound damage newHp newItem m).maxHp = m.maxHp := rfl
  refine ⟨by omega, by rw [hmax]; omega, ?_⟩
  rw [hhp]
  exact beq_iff_eq

theorem coherent_settleHit {state after : BattleState} {i newHp opp : Int} {team : Int32}
    {c c' : Channels} (hs : state.Coherent)
    (h : (settleHit state i team newHp opp).Returns c after c') : after.Coherent := by
  unfold settleHit at h
  split at h
  · obtain ⟨rfl, -⟩ := Turn.returns_done.mp h
    exact coherent_release hs _ _
  · obtain ⟨⟨eaten, fed⟩, c₁, hberry, hdone⟩ := Turn.returns_bind.mp h
    obtain ⟨rfl, -⟩ := Turn.returns_pure.mp hdone
    exact coherent_checkBerry hs hberry

theorem coherent_applyDamageFs {state after : BattleState} {i damage opp : Int}
    {luck : MoveExecLuck} {c c' : Channels} (hs : state.Coherent)
    (hstands : (activeMon state i).fainted = false)
    (hspares : (activeMon state i).hp.toInt - damage ≤ (activeMon state i).maxHp.toInt)
    (h : (applyDamageFs state i damage luck opp).Returns c after c') : after.Coherent := by
  obtain ⟨⟨newHp, newItem⟩, c₁, hhit, hsettle⟩ := Turn.returns_bind.mp h
  obtain ⟨h0, hle⟩ := afterHit_range hhit
  refine coherent_settleHit (coherent_modifyMon hs fun hm => ?_) hsettle
  have hpos := hp_pos_of_coherent hm hstands
  have hmax := hm.le_max
  exact coherent_wound newItem h0 (hle.trans (max_le (by omega) hspares))

theorem activeMon_slotTarget (state : BattleState) (i : Int) (slot : Int32) :
    activeMon (setLead state i (slotTarget state i slot).teamIdx) i =
      (slotTarget state i slot).mon state := by
  by_cases hpos : 0 < (state.side i).activeIndices.toList.length
  · exact activeMon_setLead _ hpos
  · -- without a slot the lead is read as the first team member
    have hnil : (state.side i).activeIndices.toList = [] :=
      List.length_eq_zero_iff.mp (Nat.eq_zero_of_not_pos hpos)
    have hidx (k : Nat) : activeIdx state i k = 0 := by
      rw [activeIdx, hnil]
      rfl
    have hlead : activeIdx (setLead state i (slotTarget state i slot).teamIdx) i 0 = 0 := by
      rw [activeIdx, setLead, activeIndices_setActives, if_pos Iff.rfl]
      simp [InlineVec.set, hnil]
    rw [activeMon, hlead, setLead, mon_setActives, Battler.mon, slotTarget, hidx]

theorem coherent_strikeTarget {E : ResidualEnv} {state after : BattleState} {i damage : Int}
    {slot : Int32} {c c' : Channels} (hs : state.Coherent)
    (hspares : ((slotTarget state i slot).mon state).fainted = false →
      ((slotTarget state i slot).mon state).hp.toInt - damage ≤
        ((slotTarget state i slot).mon state).maxHp.toInt)
    (h : (strikeTarget E state (slotTarget state i slot) damage).Returns c after c') :
    after.Coherent := by
  unfold strikeTarget at h
  split at h
  · obtain ⟨rfl, -⟩ := Turn.returns_pure.mp h
    exact hs
  · rename_i hup
    have hup := Bool.eq_false_iff.mpr hup
    have hlead := activeMon_slotTarget state i slot
    obtain ⟨hit, c₁, hhit, hdone⟩ := Turn.returns_bind.mp h
    obtain ⟨rfl, -⟩ := Turn.returns_pure.mp hdone
    have hled := coherent_setLead hs i (slotTarget state i slot).teamIdx
    refine coherent_setLead (coherent_applyDamageFs hled ?_ ?_ hhit) _ _
    · exact (congrArg PokemonState.fainted hlead).trans hup
    · change (activeMon (setLead state i (slotTarget state i slot).teamIdx) i).hp.toInt - damage ≤
        (activeMon (setLead state i (slotTarget state i slot).teamIdx) i).maxHp.toInt
      rw [hlead]
      exact hspares hup

theorem coherent_applyFutureSight {E : ResidualEnv} {state after : BattleState} {i : Int}
    {c c' : Channels} (hs : state.Coherent) (hspares : DelayedSpares state (.futureSight i))
    (h : (applyFutureSight E state i).Returns c after c') : after.Coherent := by
  unfold applyFutureSight at h
  extract_lets side turnsLeft at h
  split at h
  · obtain ⟨rfl, -⟩ := Turn.returns_pure.mp h
    exact hs
  rename_i hpending
  split at h
  · rename_i hdue
    obtain ⟨hit, c₁, hhit, hdone⟩ := Turn.returns_bind.mp h
    obtain ⟨rfl, -⟩ := Turn.returns_pure.mp hdone
    exact coherent_setSide (coherent_strikeTarget hs (hspares (not_not.mp hpending) hdue) hhit) rfl
  · obtain ⟨rfl, -⟩ := Turn.returns_pure.mp h
    exact coherent_setSide hs rfl

theorem coherent_runDelayed {E : ResidualEnv} {state after : BattleState} {delayed : Delayed}
    {c c' : Channels} (hs : state.Coherent) (hspares : DelayedSpares state delayed)
    (h : Yields (runDelayed E state delayed) c after c') : after.Coherent := by
  cases delayed with
  | wish i =>
    obtain ⟨rfl, -⟩ := yields_pure.mp h
    exact coherent_applyWish hs hspares
  | futureSight i => exact coherent_applyFutureSight hs hspares (yields_ofTurn.mp h)

end Delay

section Result

theorem mem_battlerOrder {state : BattleState} {slot : Int × Nat}
    (h : slot ∈ battlerOrder state) : slot.1 = 0 ∨ slot.1 = 1 :=
  (mem_slots (List.mem_insertionSort _ |>.mp h)).1

/-- Every step that the phase reaches meets its condition: in the chains no Liquid Ooze takes the
last hit points of a standing seeder, every level reached in a flush suits its mon, and what was
announced leaves its target within range. -/
def ResidualsMeet (E : ResidualEnv) (ctx : ResidualCtx) (state : BattleState)
    (pending : List PendingSwitch) (c : Channels) : Prop :=
  let start := beforeChains ctx state
  LoopMeets (battlerTurn E (effectiveWeather start) (hpBefore start))
    (BattlerMeets E (effectiveWeather start)) (battlerOrder start)
    ⟨start, ctx.expParticipants, pending⟩ c ∧
  ∀ phase c₁, Yields (chains E ctx state pending) c phase c₁ →
    LoopMeets (runDelayed E) (fun state delayed _ => DelayedSpares state delayed) Delayed.all
      phase.state c₁ ∧
    ∀ ended c₂, Yields (Delayed.all.foldlM (runDelayed E) phase.state) c₁ ended c₂ →
      FlushMeets E false (ended, phase.expParticipants) c₂

/-- A residual phase whose steps meet their conditions keeps every team member's hit points within
range and its flag at none. -/
theorem residuals_keep_coherent (E : ResidualEnv) (ctx : ResidualCtx) (state : BattleState)
    (pending : List PendingSwitch) (c : Channels) (hs : state.Coherent)
    (hmeets : ResidualsMeet E ctx state pending c) :
    ∀ after c', Yields (cppApplyResiduals E ctx state pending) c after c' → after.1.Coherent := by
  intro after c' h
  obtain ⟨hchains, hrest⟩ := hmeets
  obtain ⟨phase, c₁, hphase, h⟩ := yields_bind.mp h
  obtain ⟨ended, c₂, hended, h⟩ := yields_bind.mp h
  obtain ⟨flushed, c₃, hflush, hdone⟩ := yields_bind.mp h
  obtain ⟨rfl, -⟩ := yields_pure.mp hdone
  obtain ⟨hdelayed, hflushed⟩ := hrest phase c₁ hphase
  have hphased : phase.state.Coherent := by
    refine loop_invariant (fun phase => phase.state.Coherent) ?_ (coherent_beforeChains ctx hs)
      hchains hphase
    intro phase slot hslot c₁ phase₁ c₂ hs hmeets hturn
    exact coherent_battlerTurn (mem_battlerOrder hslot) hs hmeets hturn
  have hendedOk : ended.Coherent := by
    refine loop_invariant BattleState.Coherent ?_ hphased hdelayed hended
    intro state delayed _ c₁ state₁ c₂ hs hspares hrun
    exact coherent_runDelayed hs hspares hrun
  exact coherent_flush hendedOk (hflushed ended c₂ hended) hflush

instance (state : BattleState) (b : Battler) : Decidable (OozeSpares state b) :=
  inferInstanceAs (Decidable (seedWorks _ = true → _))

instance (b : Battler) (state : BattleState) (band : Band) : Decidable (BandSpares b state band) :=
  inferInstanceAs (Decidable ((b.mon state).fainted = false → _))

instance (state : BattleState) : (delayed : Delayed) → Decidable (DelayedSpares state delayed)
  | .wish i => inferInstanceAs (Decidable ((state.side i).hasWishPending = true → _))
  | .futureSight i => inferInstanceAs (Decidable ((state.side i).hasFutureSightPending = true → _))

theorem flushMeets_nil (E : ResidualEnv) (allow : Bool) (state : BattleState) (c : Channels) :
    FlushMeets E allow (state, []) c := by
  refine loopMeets_of_invariant (fun flushed => flushed.2 = []) ?_ ?_ _ c rfl
  · intro flushed teamIdx _ hnone _ i hi
    have hcall : (flushCall allow flushed teamIdx).expParticipants = [] := hnone
    rw [ExpCall.rewarded, hcall] at hi
    split at hi
    · cases hi
    · cases hi
  · intro flushed teamIdx c flushed' c' hnone h
    unfold flushSlot at h
    extract_lets opp at h
    split at h
    · obtain ⟨⟨after, left, gains⟩, c₁, hrewarded, hdone⟩ := yields_bind.mp h
      obtain ⟨rfl, -⟩ := yields_pure.mp hdone
      have hdistributed := (yields_ofExcept.mp hrewarded).1
      rw [hnone] at hdistributed
      unfold cppDistributeExp at hdistributed
      split at hdistributed
      · cases hdistributed
        rfl
      · cases hdistributed
        rfl
    · obtain ⟨rfl, -⟩ := yields_pure.mp h
      exact hnone

def seedState (seederHp : Int32) : BattleState where
  side0 :=
    { team := loneTeam
        { species := 1, hasStats := true, statSpe := 100, hasMaxHp := true, maxHp := 90,
          hasHp := true, hp := seederHp }
      activeIndices := firstActive }
  side1 :=
    { team := loneTeam
        { species := 1, ability := abLiquidOoze, volatiles := volatileLeechSeeded, hasStats := true,
          statSpe := 50, hasMaxHp := true, maxHp := 80, hasHp := true, hp := 80 }
      activeIndices := firstActive }

def plainEnv : ResidualEnv where
  rules := ⟨plainSpecies, fun _ => some [typeNormal], evenPow⟩
  luck := ⟨{}, {}⟩

def ChainMeets (E : ResidualEnv) (weather : Int32) (phase : Phase) (slot : Int × Nat)
    (c : Channels) : Prop :=
  let b := battlerAt phase.state slot
  phase.expParticipants = [] ∧ ((b.mon phase.state).fainted = false →
    LoopMeets (runBand E weather b) (fun state band _ => BandSpares b state band) Band.all
      (setLead phase.state b.sideIdx b.teamIdx) c)

instance (E : ResidualEnv) (weather : Int32) (phase : Phase) (slot : Int × Nat) (c : Channels) :
    Decidable (ChainMeets E weather phase slot c) :=
  inferInstanceAs (Decidable (_ ∧ _))

theorem ChainMeets.battlerMeets {E : ResidualEnv} {weather : Int32} {phase : Phase}
    {slot : Int × Nat} {c : Channels} (h : ChainMeets E weather phase slot c) :
    BattlerMeets E weather phase slot c := by
  intro hup
  refine ⟨h.2 hup, fun state c' _ => ?_⟩
  rw [h.1]
  exact flushMeets_nil E true _ c'

theorem seedState_coherent {hp : Int32} (hpos : 0 < hp.toInt) (hle : hp.toInt ≤ 90) :
    (seedState hp).Coherent := by
  intro i m hm
  unfold BattleState.side at hm
  split at hm
  · rw [List.mem_singleton.mp hm]
    refine ⟨hpos.le, hle, ?_⟩
    exact iff_of_false Bool.false_ne_true hpos.ne'
  · rw [List.mem_singleton.mp hm]
    exact ⟨by decide, by decide, by decide⟩

theorem seed_spared :
    ∃ after c', Yields (cppApplyResiduals plainEnv {} (seedState 50) []) {} after c' ∧
      (after.1.side0.mon 0).hp = 40 ∧ after.1.Coherent := by
  have hstart : (seedState 50).Coherent := seedState_coherent (by decide) (by decide)
  have hmeets : ResidualsMeet plainEnv {} (seedState 50) [] {} := by
    constructor
    · refine LoopMeets.mono (fun _ _ _ h => ChainMeets.battlerMeets h) ?_
      decide +kernel
    · have hdelayed : ∀ phase c₁, Yields (chains plainEnv {} (seedState 50) []) {} phase c₁ →
          LoopMeets (runDelayed plainEnv) (fun state delayed _ => DelayedSpares state delayed)
            Delayed.all phase.state c₁ ∧ phase.expParticipants = [] := by
        decide +kernel
      intro phase c₁ hphase
      obtain ⟨hspares, hnone⟩ := hdelayed phase c₁ hphase
      refine ⟨hspares, fun ended c₂ _ => ?_⟩
      rw [hnone]
      exact flushMeets_nil plainEnv false ended c₂
  have hrun : (result? (cppApplyResiduals plainEnv {} (seedState 50) []) {}).any
      (fun r => (r.1.1.side0.mon 0).hp == 40) = true := by decide +kernel
  obtain ⟨after, c', hafter, hhp⟩ := exists_yields_of_any
    (p := fun r : BattleState × List PendingSwitch => (r.1.side0.mon 0).hp == 40) hrun
  exact ⟨after, c', hafter, beq_iff_eq.mp hhp,
    residuals_keep_coherent plainEnv {} (seedState 50) [] {} hstart hmeets after c' hafter⟩

theorem ooze_leaves_unmarked :
    (seedState 5).Coherent ∧
      ∃ after c', Yields (cppApplyResiduals plainEnv {} (seedState 5) []) {} after c' ∧
        ¬ after.1.Coherent := by
  refine ⟨seedState_coherent (by decide) (by decide), ?_⟩
  have hrun : (result? (cppApplyResiduals plainEnv {} (seedState 5) []) {}).any
      (fun r => (r.1.1.side 0).team.toList.any fun m => m.hp == 0 && !m.fainted) = true := by
    decide +kernel
  obtain ⟨after, c', hafter, hany⟩ := exists_yields_of_any
    (p := fun r : BattleState × List PendingSwitch =>
      (r.1.side 0).team.toList.any fun m => m.hp == 0 && !m.fainted) hrun
  refine ⟨after, c', hafter, fun hcoherent => ?_⟩
  obtain ⟨m, hm, hmark⟩ := List.any_eq_true.mp hany
  obtain ⟨hhp, hup⟩ := Bool.and_eq_true_iff.mp hmark
  have hempty : m.hp.toInt = 0 := by rw [beq_iff_eq.mp hhp]; rfl
  have hdown := (hcoherent 0 m hm).fainted_iff.mpr hempty
  rw [hdown] at hup
  cases hup

end Result

end Engine

end NuzlockeSolver
