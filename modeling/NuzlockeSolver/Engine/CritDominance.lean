import Mathlib.Algebra.Order.BigOperators.GroupWithZero.List
import Mathlib.Data.List.GetD
import Mathlib.Tactic.IntervalCases
import Mathlib.Tactic.Linarith
import Mathlib.Tactic.NormNum
import Mathlib.Tactic.Positivity
import Mathlib.Tactic.Ring
import NuzlockeSolver.Basic
import NuzlockeSolver.Engine.Damage

/-!
# Critical hits against normal hits

Every modifier of the damage formula is monotone, and a critical hit only raises the attacking stat,
lowers the defending one and drops the screens. What is left is the critical factor against the
lowest roll, which loses only on a single point of damage.
-/

namespace NuzlockeSolver

namespace Engine

section Scaling

def Under (x y : Int) : Prop := 0 ≤ x ∧ x ≤ y

theorem Under.refl {x : Int} (hx : 0 ≤ x) : Under x x := ⟨hx, le_refl x⟩

theorem floor_mul_mono {m : ℚ} {x y : Int} (hm : 0 ≤ m) (h : x ≤ y) : ⌊x * m⌋ ≤ ⌊y * m⌋ := by
  apply Int.floor_le_floor
  apply mul_le_mul_of_nonneg_right _ hm
  exact_mod_cast h

theorem floor_mul_nonneg {m : ℚ} {x : Int} (hm : 0 ≤ m) (hx : 0 ≤ x) : 0 ≤ ⌊x * m⌋ := by
  apply Int.floor_nonneg.2
  have hx' : (0 : ℚ) ≤ x := by exact_mod_cast hx
  positivity

theorem floor_mul_le {m : ℚ} {x : Int} (hm : m ≤ 1) (hx : 0 ≤ x) : ⌊x * m⌋ ≤ x := by
  have hx' : (0 : ℚ) ≤ x := by exact_mod_cast hx
  have hle : (x : ℚ) * m ≤ x := by nlinarith
  have hfloor : ((⌊x * m⌋ : Int) : ℚ) ≤ x := (Int.floor_le _).trans hle
  exact_mod_cast hfloor

variable {c : Prop} [Decidable c] {m : ℚ} {x y : Int}

theorem Under.floor_mul (h : Under x y) (hm : 0 ≤ m) : Under ⌊x * m⌋ ⌊y * m⌋ :=
  ⟨floor_mul_nonneg hm h.1, floor_mul_mono hm h.2⟩

class NonnegFactor (m : ℚ) : Prop where
  nonneg : 0 ≤ m

instance (n : Nat) : NonnegFactor (no_index (@OfNat.ofNat ℚ n Rat.instOfNat)) :=
  ⟨Rat.num_nonneg.1 (Int.natCast_nonneg n)⟩

instance (m k : ℚ) [hm : NonnegFactor m] [hk : NonnegFactor k] : NonnegFactor (m / k) :=
  ⟨div_nonneg hm.nonneg hk.nonneg⟩

theorem Under.scaleIf [hm : NonnegFactor m] (h : Under x y) :
    Under (scaleIf c m x) (scaleIf c m y) := by
  rw [Engine.scaleIf, Engine.scaleIf]
  split
  · exact h.floor_mul hm.nonneg
  · exact h

theorem Under.halveIf (h : Under x y) : Under (halveIf c x) (halveIf c y) := by
  rw [Engine.halveIf, Engine.halveIf]
  split
  · refine ⟨Int.tdiv_nonneg h.1 (by omega), ?_⟩
    rw [Int.tdiv_eq_ediv_of_nonneg h.1, Int.tdiv_eq_ediv_of_nonneg (h.1.trans h.2)]
    exact Int.ediv_le_ediv (by omega) h.2
  · exact h

theorem Under.halveAtLeastOne (h : Under x y) :
    Under (if c then max 1 (x.tdiv 2) else x) (if c then max 1 (y.tdiv 2) else y) := by
  have hhalf := h.halveIf (c := True)
  rw [Engine.halveIf, Engine.halveIf, if_pos trivial, if_pos trivial] at hhalf
  split
  · exact ⟨le_max_of_le_right hhalf.1, max_le_max_left 1 hhalf.2⟩
  · exact h

theorem Under.scaleIf_left (h : Under x y) (hm : 0 ≤ m) (hm1 : m ≤ 1) :
    Under (Engine.scaleIf c m x) y := by
  rw [Engine.scaleIf]
  split
  · exact ⟨floor_mul_nonneg hm h.1, (floor_mul_le hm1 h.1).trans h.2⟩
  · exact h

theorem one_le_scaleIf (hm : 1 ≤ m) (hx : 1 ≤ x) : 1 ≤ scaleIf c m x := by
  rw [scaleIf]
  split
  · have hx' : (1 : ℚ) ≤ x := by exact_mod_cast hx
    rw [Int.le_floor]
    push_cast
    nlinarith
  · exact hx

@[simp] theorem scaleIf_zero : scaleIf c m 0 = 0 := by
  rw [scaleIf]
  split
  · simp
  · rfl

end Scaling

section Stats

theorem truncate_mono {p q : ℚ} (h : p ≤ q) : truncate p ≤ truncate q := by
  rw [truncate, truncate]
  split_ifs with hp hq hq
  · exact Int.floor_le_floor h
  · exact absurd (hp.trans h) hq
  · exact (Int.ceil_nonpos.2 (not_le.1 hp).le).trans (Int.floor_nonneg.2 hq)
  · exact Int.ceil_le_ceil h

theorem truncate_nonpos {q : ℚ} (h : q ≤ 0) : truncate q ≤ 0 :=
  (truncate_mono h).trans (by decide)

theorem stageTable_mono : Monotone fun i => stageTable.getD i (8 / 2) := by
  apply monotone_nat_of_le_succ
  intro i
  by_cases hi : i < 13
  · interval_cases i <;> norm_num [stageTable]
  · have hlen : stageTable.length = 13 := rfl
    rw [List.getD_eq_default _ _ (by omega), List.getD_eq_default _ _ (by omega)]

theorem stageMultiplier_mono {s t : Int} (h : s ≤ t) : stageMultiplier s ≤ stageMultiplier t :=
  stageTable_mono (by omega)

theorem stageMultiplier_nonneg (stage : Int) : 0 ≤ stageMultiplier stage := by
  have hzero : (0 : ℚ) ≤ stageTable.getD 0 (8 / 2) := by norm_num [stageTable]
  exact hzero.trans (stageTable_mono (Nat.zero_le _))

theorem stagedStat_mono (base : Int) {s t : Int} (h : s ≤ t) :
    stagedStat base s ≤ stagedStat base t := by
  rw [stagedStat, stagedStat]
  have hmult := stageMultiplier_mono h
  rcases le_total 0 base with hbase | hbase
  · have hbase' : (0 : ℚ) ≤ base := by exact_mod_cast hbase
    exact max_le_max_left 1 (truncate_mono (mul_le_mul_of_nonneg_left hmult hbase'))
  · have hbase' : (base : ℚ) ≤ 0 := by exact_mod_cast hbase
    have hlow := truncate_nonpos (mul_nonpos_of_nonpos_of_nonneg hbase' (stageMultiplier_nonneg s))
    rw [max_eq_left (by omega)]
    exact le_max_left _ _

theorem one_le_stagedStat (base stage : Int) : 1 ≤ stagedStat base stage := le_max_left _ _

theorem effectiveStat_crit_ge (mon : PokemonState) :
    effectiveStat mon 1 false ≤ effectiveStat mon 1 true :=
  stagedStat_mono _ (le_max_left _ _)

theorem effectiveStat_crit_le {mon : PokemonState} {statIdx : Nat}
    (h : statIdx = 2 ∨ statIdx = 4) :
    effectiveStat mon statIdx true ≤ effectiveStat mon statIdx false := by
  rcases h with rfl | rfl
  · exact stagedStat_mono _ (min_le_left _ _)
  · exact stagedStat_mono _ (min_le_left _ _)

variable (c : DamageCall) (isPhysical : Bool)

/-- Body Press attacks with the user's Defense, whose raised stages a critical hit drops. -/
def BoostedBodyPress (c : DamageCall) : Prop :=
  c.moveId = moveBodyPress ∧ 0 < c.attacker.stage1.toInt

theorem baseAttackStat_nonneg (isCrit : Bool) : 0 ≤ baseAttackStat c isPhysical isCrit := by
  apply (by decide : (0 : Int) ≤ 1).trans
  rw [baseAttackStat]
  split_ifs <;> exact one_le_stagedStat _ _

theorem baseAttackStat_under (hbody : ¬ BoostedBodyPress c) :
    Under (baseAttackStat c isPhysical false) (baseAttackStat c isPhysical true) := by
  refine ⟨baseAttackStat_nonneg c isPhysical false, ?_⟩
  simp only [baseAttackStat]
  by_cases hfoul : c.moveId = moveFoulPlay
  · rw [if_pos hfoul, if_pos hfoul]
    exact effectiveStat_crit_ge c.defender
  · rw [if_neg hfoul, if_neg hfoul]
    by_cases hpress : c.moveId = moveBodyPress
    · rw [if_pos hpress, if_pos hpress]
      have hstage : c.attacker.stage1.toInt ≤ 0 := not_lt.1 fun h => hbody ⟨hpress, h⟩
      exact stagedStat_mono _ (le_min (le_refl _) hstage)
    · rw [if_neg hpress, if_neg hpress]
      apply stagedStat_mono
      generalize (if c.defender.ability = abUnaware ∧ ¬ isMoldBreaker c.attacker.ability = true
        then (0 : Int) else _) = stage
      simp only [Bool.false_eq_true, false_and, if_false, true_and]
      split <;> omega

theorem attackModifiers_under {x y : Int} (h : Under x y) :
    Under (attackModifiers c isPhysical x) (attackModifiers c isPhysical y) :=
  h.halveIf.scaleIf.scaleIf.scaleIf.scaleIf.scaleIf.scaleIf.scaleIf.scaleIf.halveIf.scaleIf.scaleIf
    |>.scaleIf.scaleIf

theorem computeAttackStat_under (hbody : ¬ BoostedBodyPress c) :
    Under (computeAttackStat c isPhysical false) (computeAttackStat c isPhysical true) :=
  attackModifiers_under c isPhysical (baseAttackStat_under c isPhysical hbody)

theorem computeAttackStat_nonneg (isCrit : Bool) : 0 ≤ computeAttackStat c isPhysical isCrit :=
  (attackModifiers_under c isPhysical
    (Under.refl (baseAttackStat_nonneg c isPhysical isCrit))).1

theorem baseDefenseStat_crit_le :
    baseDefenseStat c isPhysical true ≤ baseDefenseStat c isPhysical false := by
  simp only [baseDefenseStat]
  by_cases hshock : c.moveId = movePsyshock ∨ c.moveId = movePsystrike ∨ c.moveId = moveSecretSword
  · rw [if_pos hshock, if_pos hshock]
    exact effectiveStat_crit_le (.inl rfl)
  · rw [if_neg hshock, if_neg hshock]
    by_cases hroom : hasPseudoWeather c.state pwWonderRoom = true
    · rw [if_pos hroom, if_pos hroom]
      split
      · exact effectiveStat_crit_le (.inr rfl)
      · exact effectiveStat_crit_le (.inl rfl)
    · rw [if_neg hroom, if_neg hroom]
      apply stagedStat_mono
      generalize (if ignoreDefBoostMoves.contains c.moveId = true then min _ (0 : Int) else _) =
        stage
      simp only [Bool.false_eq_true, false_and, if_false, true_and]
      split <;> omega

theorem one_le_baseDefenseStat (isCrit : Bool) : 1 ≤ baseDefenseStat c isPhysical isCrit := by
  rw [baseDefenseStat]
  split_ifs <;> exact one_le_stagedStat _ _

theorem defenseModifiers_under {x y : Int} (h : Under x y) :
    Under (defenseModifiers c isPhysical x) (defenseModifiers c isPhysical y) :=
  h.scaleIf.scaleIf.scaleIf.scaleIf.scaleIf.scaleIf.scaleIf.halveAtLeastOne

theorem one_le_defenseModifiers {x : Int} (hx : 1 ≤ x) : 1 ≤ defenseModifiers c isPhysical x := by
  rw [defenseModifiers]
  split
  · exact le_max_left _ _
  · have hm : (1 : ℚ) ≤ 3 / 2 := by norm_num
    exact one_le_scaleIf hm (one_le_scaleIf hm (one_le_scaleIf one_le_two (one_le_scaleIf hm
      (one_le_scaleIf hm (one_le_scaleIf hm (one_le_scaleIf hm hx))))))

theorem computeDefenseStat_crit_le :
    computeDefenseStat c isPhysical true ≤ computeDefenseStat c isPhysical false :=
  (defenseModifiers_under c isPhysical
    ⟨(by decide : (0 : Int) ≤ 1).trans (one_le_baseDefenseStat c isPhysical true),
      baseDefenseStat_crit_le c isPhysical⟩).2

theorem one_le_computeDefenseStat (isCrit : Bool) : 1 ≤ computeDefenseStat c isPhysical isCrit :=
  one_le_defenseModifiers c isPhysical (one_le_baseDefenseStat c isPhysical isCrit)

end Stats

section Power

variable (c : DamageCall) (md : MoveData)

theorem terrainBp_under (moveType : Int32) {x y : Int} (h : Under x y) :
    Under (terrainBp c moveType x) (terrainBp c moveType y) := by
  rw [terrainBp, terrainBp]
  split_ifs
  · exact h.halveIf
  · exact h.halveIf (c := True)
  · exact h.scaleIf
  · exact h

theorem Under.truncateIf {p : Prop} [Decidable p] {x y : Int} (h : Under x y) :
    Under (if p then truncate (x * (3 / 2)) else x) (if p then truncate (y * (3 / 2)) else y) := by
  have hfloor {z : Int} (hz : 0 ≤ z) : truncate (z * (3 / 2)) = ⌊z * (3 / 2 : ℚ)⌋ := by
    have hz' : (0 : ℚ) ≤ z := by exact_mod_cast hz
    rw [truncate, if_pos (by positivity)]
  split
  · rw [hfloor h.1, hfloor (h.1.trans h.2)]
    exact h.floor_mul (by norm_num)
  · exact h

theorem computeBp_under (moveType : Int32) (isPhysical : Bool) {x y : Int} (h : Under x y) :
    Under (computeBp c md moveType isPhysical x) (computeBp c md moveType isPhysical y) :=
  (terrainBp_under c moveType h.truncateIf.scaleIf.scaleIf.scaleIf).scaleIf.scaleIf.scaleIf.scaleIf
    |>.scaleIf.scaleIf.scaleIf.scaleIf.scaleIf.scaleIf.scaleIf.scaleIf.scaleIf.scaleIf.halveIf
    |>.scaleIf.scaleIf.scaleIf.scaleIf.scaleIf

theorem situationalBp_nonneg {bp : Int} (h : 0 ≤ bp) : 0 ≤ situationalBp c bp := by
  rw [situationalBp]
  apply (Under.scaleIf (m := 3 / 2) (Under.refl _)).1
  split <;> omega

theorem naturalGift_nonneg {item t : Int32} {power : Int}
    (h : naturalGiftTable.lookup item = some (t, power)) : 0 ≤ power := by
  have hall : ∀ e ∈ naturalGiftTable, 0 ≤ e.2.2 := by decide
  exact hall _ (mem_of_lookup h)

theorem normalizedTypeAndBp_nonneg (moveType : Int32) {bp : Int} (h : 0 ≤ bp) :
    0 ≤ (normalizedTypeAndBp c moveType bp).2 := by
  rw [normalizedTypeAndBp]
  split
  · exact (Under.refl h).scaleIf.1
  · split
    · split
      · exact (Under.scaleIf (c := True) (m := 6 / 5) (Under.refl h)).1
      · exact h
    · exact h

theorem weatherBallTypeAndBp_nonneg (moveType : Int32) {bp : Int} (h : 0 ≤ bp) :
    0 ≤ (weatherBallTypeAndBp c moveType bp).2 := by
  rw [weatherBallTypeAndBp]
  split <;> simpa using h

theorem terrainPulseTypeAndBp_nonneg (moveType : Int32) {bp : Int} (h : 0 ≤ bp) :
    0 ≤ (terrainPulseTypeAndBp c moveType bp).2 := by
  rw [terrainPulseTypeAndBp]
  split <;> simpa using h

theorem resolveMoveTypeAndBp_nonneg (hbp : 0 ≤ c.bpOverride) :
    0 ≤ (resolveMoveTypeAndBp c md).2 := by
  have hbase : 0 ≤ baseBp c md := by
    rw [baseBp]
    split <;> omega
  simp only [resolveMoveTypeAndBp]
  split
  · split
    · rename_i gift hgift
      exact naturalGift_nonneg hgift
    · exact le_refl 0
  · apply (Under.scaleIf (m := 3 / 2) (Under.refl _)).1
    exact terrainPulseTypeAndBp_nonneg c _ (weatherBallTypeAndBp_nonneg c _
      (normalizedTypeAndBp_nonneg c _ hbase))

theorem hitBp_nonneg (hbp : 0 ≤ c.bpOverride) : 0 ≤ hitBp c md :=
  (computeBp_under c md _ _ (Under.refl
    (situationalBp_nonneg c (resolveMoveTypeAndBp_nonneg c md hbp)))).1

end Power

section PreRoll

variable (c : DamageCall) (md : MoveData)

theorem tdiv_under {a b d e : Int} (h : Under a b) (he : 1 ≤ e) (hed : e ≤ d) :
    Under (a.tdiv d) (b.tdiv e) := by
  rw [Int.tdiv_eq_ediv_of_nonneg h.1, Int.tdiv_eq_ediv_of_nonneg (h.1.trans h.2)]
  have hquot : 0 ≤ a / d := Int.ediv_nonneg h.1 (by omega)
  refine ⟨hquot, ?_⟩
  rw [Int.le_ediv_iff_mul_le (by omega)]
  calc a / d * e ≤ a / d * d := mul_le_mul_of_nonneg_left hed hquot
    _ ≤ a := Int.ediv_mul_le a (by omega)
    _ ≤ b := h.2

theorem applyWeather_under (moveType : Int32) (state : BattleState) {x y : Int} (h : Under x y) :
    Under (applyWeather x moveType state) (applyWeather y moveType state) := by
  rw [applyWeather, applyWeather]
  split_ifs
  · exact h
  · exact h.floor_mul (by norm_num)
  · exact h.scaleIf
  · exact h.floor_mul (by norm_num)
  · exact h.scaleIf
  · exact h

theorem Under.add_const {x y k : Int} (h : Under x y) (hk : 0 ≤ k) : Under (x + k) (y + k) :=
  ⟨add_nonneg h.1 hk, by have := h.2; omega⟩

theorem Under.const_mul {x y k : Int} (h : Under x y) (hk : 0 ≤ k) : Under (k * x) (k * y) :=
  ⟨mul_nonneg hk h.1, mul_le_mul_of_nonneg_left h.2 hk⟩

theorem baseDamage_under {level bp atk₁ atk₂ def₁ def₂ : Int} (hlevel : 0 ≤ level) (hbp : 0 ≤ bp)
    (hatk : Under atk₁ atk₂) (hdef : 1 ≤ def₂) (hdefs : def₂ ≤ def₁) :
    Under (baseDamage level bp atk₁ def₁) (baseDamage level bp atk₂ def₂) := by
  have hstep : 0 ≤ (2 * level).tdiv 5 + 2 :=
    add_nonneg (Int.tdiv_nonneg (by omega) (by omega)) (by omega)
  have hproduct := hatk.const_mul (mul_nonneg hstep hbp)
  exact (tdiv_under (tdiv_under hproduct hdef hdefs) (by omega) (le_refl 50)).add_const (by omega)

theorem preCritDamage_under (hlevel : 0 ≤ c.attacker.level.toInt) (hbp : 0 ≤ c.bpOverride)
    (hbody : ¬ BoostedBodyPress c) :
    Under (preCritDamage c md false) (preCritDamage c md true) := by
  have hbase := baseDamage_under hlevel (hitBp_nonneg c md hbp)
    (computeAttackStat_under c (isPhysicalHit c md) hbody)
    (one_le_computeDefenseStat c (isPhysicalHit c md) true)
    (computeDefenseStat_crit_le c (isPhysicalHit c md))
  apply applyWeather_under
  exact hbase.scaleIf

theorem applyCrit_false (attacker : PokemonState) (damage : Int) :
    applyCrit attacker false damage = damage := by
  simp [applyCrit, scaleIf]

theorem floor_mul_ratio (x : Int) (a b : Nat) : ⌊x * ((a : ℚ) / b)⌋ = x * a / b := by
  rw [← mul_div_assoc, ← Rat.floor_intCast_div_natCast]
  push_cast
  rfl

theorem floor_three_halves (x : Int) : ⌊x * (3 / 2 : ℚ)⌋ = x * 3 / 2 := floor_mul_ratio x 3 2

theorem applyCrit_true (attacker : PokemonState) {damage : Int} (h : 0 ≤ damage) :
    damage * 3 / 2 ≤ applyCrit attacker true damage := by
  have hscaled : scaleIf (true = true) (3 / 2) damage = damage * 3 / 2 := by
    rw [scaleIf, if_pos rfl, floor_three_halves]
  rw [applyCrit, hscaled, scaleIf]
  split
  · rw [floor_three_halves]
    omega
  · exact le_refl _

def SpreadHit : Prop :=
  c.spreadHit ∧ (md.target = targetAllAdjacentFoes ∨ md.target = targetAllAdjacent) ∧
    c.state.format = formatDoubles

def Dampened (moveType : Int32) (state : BattleState) : Prop :=
  effectiveWeather state ≠ weatherNone ∧
    ((state.weather = weatherRainy ∨ state.weather = weatherHeavyRain) ∧ moveType = typeFire ∨
      (state.weather = weatherSunny ∨ state.weather = weatherHarshSun) ∧ moveType = typeWater)

/-- Level, power and stats give less than `k` points over the constant two of the base formula. -/
def ShortOf (isCrit : Bool) (k : Int) : Prop :=
  ((2 * c.attacker.level.toInt).tdiv 5 + 2) * hitBp c md *
      computeAttackStat c (isPhysicalHit c md) isCrit <
    50 * k * computeDefenseStat c (isPhysicalHit c md) isCrit

def SinglePoint (isCrit : Bool) : Prop :=
  let dampened := Dampened (resolveMoveTypeAndBp c md).1 c.state
  (SpreadHit c md ∧ ¬ dampened ∧ ShortOf c md isCrit 1) ∨
    (¬ SpreadHit c md ∧ dampened ∧ ShortOf c md isCrit 2) ∨
    SpreadHit c md ∧ dampened ∧ ¬ ShortOf c md isCrit 1 ∧ ShortOf c md isCrit 4

theorem two_le_baseDamage {level bp atk defVal : Int} (hlevel : 0 ≤ level) (hbp : 0 ≤ bp)
    (hatk : 0 ≤ atk) (hdef : 1 ≤ defVal) : 2 ≤ baseDamage level bp atk defVal := by
  have hstep : 0 ≤ (2 * level).tdiv 5 + 2 :=
    add_nonneg (Int.tdiv_nonneg (by omega) (by omega)) (by omega)
  have hproduct := mul_nonneg (mul_nonneg hstep hbp) hatk
  have hquot : 0 ≤ (((2 * level).tdiv 5 + 2) * bp * atk).tdiv defVal :=
    Int.tdiv_nonneg hproduct (by omega)
  exact le_add_of_nonneg_left (Int.tdiv_nonneg hquot (by omega))

theorem baseDamage_lt_iff {level bp atk defVal k : Int} (hlevel : 0 ≤ level) (hbp : 0 ≤ bp)
    (hatk : 0 ≤ atk) (hdef : 1 ≤ defVal) :
    baseDamage level bp atk defVal < k + 2 ↔
      ((2 * level).tdiv 5 + 2) * bp * atk < 50 * k * defVal := by
  have hstep : 0 ≤ (2 * level).tdiv 5 + 2 :=
    add_nonneg (Int.tdiv_nonneg (by omega) (by omega)) (by omega)
  have hproduct := mul_nonneg (mul_nonneg hstep hbp) hatk
  rw [baseDamage, Int.tdiv_eq_ediv_of_nonneg hproduct,
    Int.tdiv_eq_ediv_of_nonneg (Int.ediv_nonneg hproduct (by omega)), add_lt_add_iff_right,
    Int.ediv_lt_iff_lt_mul (by omega), Int.ediv_lt_iff_lt_mul (by omega), mul_comm k 50]

theorem applyWeather_eq_one_iff {moveType : Int32} {state : BattleState} {damage : Int} :
    applyWeather damage moveType state = 1 ↔
      ¬ Dampened moveType state ∧ damage = 1 ∨
        Dampened moveType state ∧ (damage = 2 ∨ damage = 3) := by
  have hhalf : ⌊damage * (1 / 2 : ℚ)⌋ = damage * 1 / 2 := floor_mul_ratio damage 1 2
  have hwater : typeWater ≠ typeFire := by decide
  have hrain : state.weather = weatherRainy ∨ state.weather = weatherHeavyRain →
      ¬ (state.weather = weatherSunny ∨ state.weather = weatherHarshSun) := by
    rintro (h | h) <;> rw [h] <;> decide
  simp only [applyWeather, Dampened, scaleIf, hhalf, floor_three_halves]
  by_cases hnone : effectiveWeather state = weatherNone
  · simp [hnone]
  · by_cases hwet : state.weather = weatherRainy ∨ state.weather = weatherHeavyRain
    · have hdry := hrain hwet
      by_cases hfire : moveType = typeFire
      · simp [hnone, hwet, hdry, hfire, hwater.symm]
        omega
      · by_cases htype : moveType = typeWater
        · simp [hnone, hwet, hdry, htype, hwater]
          omega
        · simp [hnone, hwet, hdry, hfire, htype]
    · by_cases hdry : state.weather = weatherSunny ∨ state.weather = weatherHarshSun
      · by_cases hfire : moveType = typeFire
        · simp [hnone, hwet, hdry, hfire, hwater.symm]
          omega
        · by_cases htype : moveType = typeWater
          · simp [hnone, hwet, hdry, htype, hwater]
            omega
          · simp [hnone, hwet, hdry, hfire, htype]
      · simp [hnone, hwet, hdry]

theorem preCritDamage_eq_one_iff (hlevel : 0 ≤ c.attacker.level.toInt) (hbp : 0 ≤ c.bpOverride)
    (isCrit : Bool) : preCritDamage c md isCrit = 1 ↔ SinglePoint c md isCrit := by
  have hbase (k : Int) : baseDamage c.attacker.level.toInt (hitBp c md)
      (computeAttackStat c (isPhysicalHit c md) isCrit)
      (computeDefenseStat c (isPhysicalHit c md) isCrit) < k + 2 ↔ ShortOf c md isCrit k :=
    baseDamage_lt_iff hlevel (hitBp_nonneg c md hbp)
      (computeAttackStat_nonneg c (isPhysicalHit c md) isCrit)
      (one_le_computeDefenseStat c (isPhysicalHit c md) isCrit)
  have hfrom := two_le_baseDamage hlevel (hitBp_nonneg c md hbp)
    (computeAttackStat_nonneg c (isPhysicalHit c md) isCrit)
    (one_le_computeDefenseStat c (isPhysicalHit c md) isCrit)
  have hquarters (x : Int) : ⌊x * (3 / 4 : ℚ)⌋ = x * 3 / 4 := floor_mul_ratio x 3 4
  simp only [preCritDamage, applyWeather_eq_one_iff, SinglePoint, ← hbase, scaleIf, hquarters]
  generalize baseDamage _ _ _ _ = d at hfrom ⊢
  change (_ ↔ (SpreadHit c md ∧ _) ∨ _)
  by_cases hspread : SpreadHit c md
  · have hcut : (if c.spreadHit = true ∧ (md.target = targetAllAdjacentFoes ∨
      md.target = targetAllAdjacent) ∧ c.state.format = formatDoubles then d * 3 / 4 else d) =
        d * 3 / 4 := if_pos hspread
    rw [hcut]
    simp only [hspread]
    by_cases hdamp : Dampened (resolveMoveTypeAndBp c md).1 c.state
    · simp [hdamp]; omega
    · simp [hdamp]; omega
  · have hwhole : (if c.spreadHit = true ∧ (md.target = targetAllAdjacentFoes ∨
      md.target = targetAllAdjacent) ∧ c.state.format = formatDoubles then d * 3 / 4 else d) =
        d := if_neg hspread
    rw [hwhole]
    by_cases hdamp : Dampened (resolveMoveTypeAndBp c md).1 c.state
    · simp [hdamp, hspread]; omega
    · simp [hdamp, hspread]; omega

end PreRoll

section Roll

theorem typeEff_nonneg (atkType defType : Int32) : 0 ≤ typeEff atkType defType := by
  rw [typeEff]
  split
  · norm_num
  · positivity

theorem typeFactor_nonneg (c : DamageCall) (moveType defType : Int32) :
    0 ≤ typeFactor c moveType defType := by
  rw [typeFactor]
  split
  · norm_num
  · exact typeEff_nonneg _ _

theorem prod_map_nonneg {f : Int32 → ℚ} (hf : ∀ t, 0 ≤ f t) (l : List Int32) :
    0 ≤ (l.map f).prod := by
  apply List.prod_nonneg
  intro q hq
  obtain ⟨t, _, rfl⟩ := List.mem_map.1 hq
  exact hf t

theorem ite_one_nonneg {p : Prop} [Decidable p] {e : ℚ} (he : 0 ≤ e) :
    0 ≤ if p then (1 : ℚ) else e := by
  split
  · norm_num
  · exact he

theorem chartEffectiveness_nonneg (c : DamageCall) (moveType : Int32) :
    0 ≤ chartEffectiveness c moveType := by
  have hproduct := prod_map_nonneg (typeFactor_nonneg c moveType) c.defender.types.toList
  have hflying := prod_map_nonneg (typeEff_nonneg typeFlying) c.defender.types.toList
  have hpress : 0 ≤ if c.moveId = moveFlyingPress then
      (c.defender.types.toList.map (typeFactor c moveType)).prod *
        (c.defender.types.toList.map (typeEff typeFlying)).prod
      else (c.defender.types.toList.map (typeFactor c moveType)).prod := by
    split
    · exact mul_nonneg hproduct hflying
    · exact hproduct
  rw [chartEffectiveness]
  split
  · exact mul_nonneg hpress (by norm_num)
  · exact hpress

theorem ringTargetEffectiveness_nonneg (c : DamageCall) (moveType : Int32) :
    0 ≤ ringTargetEffectiveness c moveType := by
  apply prod_map_nonneg
  intro t
  apply mul_nonneg (ite_one_nonneg (typeEff_nonneg _ _))
  apply ite_one_nonneg
  split
  · exact typeEff_nonneg _ _
  · norm_num

theorem typeEffectivenessProduct_nonneg (c : DamageCall) (moveType : Int32) :
    0 ≤ typeEffectivenessProduct c moveType := by
  rw [typeEffectivenessProduct]
  split
  · exact ringTargetEffectiveness_nonneg c moveType
  · exact ite_one_nonneg (ite_one_nonneg (chartEffectiveness_nonneg c moveType))

variable (x : PostRollCtx)

theorem cappedEffectiveness_nonneg (heff : 0 ≤ x.effectiveness) : 0 ≤ cappedEffectiveness x := by
  rw [cappedEffectiveness]
  split
  · norm_num
  · exact heff

theorem auraFactor_nonneg : 0 ≤ auraFactor x := by
  rw [auraFactor]
  split <;> norm_num

theorem fluffyFactor_nonneg : 0 ≤ fluffyFactor x := by
  rw [fluffyFactor]
  split <;> split <;> norm_num

theorem applyTypeModifiers_under (heff : 0 ≤ x.effectiveness) {d e : Int} (h : Under d e) :
    Under (applyTypeModifiers x d) (applyTypeModifiers x e) := by
  have hstab : NonnegFactor (if x.attacker.ability = abAdaptability then 2 else 3 / 2) :=
    ⟨by split <;> norm_num⟩
  have haura : NonnegFactor (auraFactor x) := ⟨auraFactor_nonneg x⟩
  exact (h.scaleIf.scaleIf.floor_mul (cappedEffectiveness_nonneg x heff)).scaleIf.scaleIf
    |>.scaleIf.scaleIf.scaleIf

theorem Under.expertBelt {p : Prop} [Decidable p] {d e : Int} (h : Under d e) :
    Under (if p then ⌊d * (4915 / 4096 : ℚ) + 1 / 2⌋ else d)
      (if p then ⌊e * (4915 / 4096 : ℚ) + 1 / 2⌋ else e) := by
  split
  · have hd : (0 : ℚ) ≤ d := by exact_mod_cast h.1
    have hde : (d : ℚ) ≤ e := by exact_mod_cast h.2
    exact ⟨Int.floor_nonneg.2 (by positivity), Int.floor_le_floor (by linarith)⟩
  · exact h

theorem applyHolderModifiers_under {d e : Int} (h : Under d e) :
    Under (applyHolderModifiers x d) (applyHolderModifiers x e) := by
  have hfluffy : NonnegFactor (fluffyFactor x) := ⟨fluffyFactor_nonneg x⟩
  exact h.scaleIf.scaleIf.scaleIf.scaleIf.scaleIf.expertBelt.scaleIf.scaleIf.scaleIf.scaleIf
    |>.scaleIf

theorem applySideModifiers_under {d e : Int} (h : Under d e) :
    Under (applySideModifiers x d) (applySideModifiers { x with isCrit := true } e) := by
  have hopen : behindScreen { x with isCrit := true } = false := rfl
  rw [applySideModifiers, applySideModifiers]
  split
  · have hfactor : (0 : ℚ) ≤ (if x.state.format = formatDoubles then 2732 / 4096 else 1 / 2) ∧
        (if x.state.format = formatDoubles then 2732 / 4096 else 1 / 2) ≤ (1 : ℚ) := by
      split <;> norm_num
    have hscreen := h.scaleIf_left (c := behindScreen x) hfactor.1 hfactor.2
    rw [hopen]
    exact hscreen.scaleIf.scaleIf
  · exact h

theorem applyModifiers_crit_ge (heff : 0 ≤ x.effectiveness) {d e : Int} (h : Under d e) :
    applyModifiers x d ≤ applyModifiers { x with isCrit := true } e :=
  max_le_max_left 1 (applySideModifiers_under x
    (applyHolderModifiers_under x (applyTypeModifiers_under x heff h))).2

theorem applyModifiers_zero : applyModifiers x 0 = 1 := by
  have hhalf : ⌊(1 / 2 : ℚ)⌋ = 0 := by norm_num
  have hhold : applyHolderModifiers x 0 = 0 := by
    simp only [applyHolderModifiers, scaleIf_zero, Int.cast_zero, zero_mul, zero_add, hhalf,
      ite_self]
  have hside : applySideModifiers x 0 = 0 := by
    simp only [applySideModifiers, scaleIf_zero, ite_self]
  have htype : applyTypeModifiers x 0 = 0 := by
    simp only [applyTypeModifiers, scaleIf_zero, Int.cast_zero, zero_mul, Int.floor_zero]
  rw [applyModifiers, htype, hhold, hside]
  rfl

/-- A modifier that makes two points of one: the STAB of Adaptability, a weakness of the defender,
or Fluffy under a Fire move that makes no contact. -/
def DoublesPoint : Prop :=
  (x.moveType ≠ typeTypeless ∧ hasType x.attacker x.moveType ∧
    x.attacker.ability = abAdaptability) ∨
  2 ≤ cappedEffectiveness x ∨
  x.defender.ability = abFluffy ∧ ¬ ignoresAbility x ∧ ¬ x.breaksMold ∧ 2 ≤ fluffyFactor x

theorem Under.floor_one {m : ℚ} {d : Int} (h : Under d 1) (hm : 0 ≤ m) (hm2 : m < 2) :
    Under ⌊d * m⌋ 1 := by
  refine ⟨floor_mul_nonneg hm h.1, Int.lt_add_one_iff.1 (Int.floor_lt.2 ?_)⟩
  have hd : (d : ℚ) ≤ 1 := by exact_mod_cast h.2
  push_cast
  nlinarith

theorem Under.floor_zero {m : ℚ} {d : Int} (h : Under d 1) (hm : 0 ≤ m) (hm1 : m < 1) :
    ⌊d * m⌋ = 0 := by
  have hd0 : (0 : ℚ) ≤ d := by exact_mod_cast h.1
  have hd1 : (d : ℚ) ≤ 1 := by exact_mod_cast h.2
  rw [Int.floor_eq_zero_iff, Set.mem_Ico]
  exact ⟨mul_nonneg hd0 hm, by nlinarith⟩

theorem Under.scaleIf_one {p : Prop} [Decidable p] {m : ℚ} {d : Int} [hm : NonnegFactor m]
    (h : Under d 1) (hm2 : p → m < 2) : Under (Engine.scaleIf p m d) 1 := by
  rw [Engine.scaleIf]
  split
  · rename_i hp
    exact h.floor_one hm.nonneg (hm2 hp)
  · exact h

theorem auraFactor_lt_two : auraFactor x < 2 := by
  rw [auraFactor]
  split <;> norm_num

theorem applyTypeModifiers_one (heff : 0 ≤ x.effectiveness) (h : ¬ DoublesPoint x) :
    Under (applyTypeModifiers x 1) 1 := by
  have heff' := cappedEffectiveness_nonneg x heff
  have hweak : cappedEffectiveness x < 2 := not_le.1 fun hle => h (.inr (.inl hle))
  have hstab : NonnegFactor (if x.attacker.ability = abAdaptability then 2 else 3 / 2) :=
    ⟨by split <;> norm_num⟩
  have haura : NonnegFactor (auraFactor x) := ⟨auraFactor_nonneg x⟩
  have hplain : x.moveType ≠ typeTypeless ∧ hasType x.attacker x.moveType = true →
      (if x.attacker.ability = abAdaptability then (2 : ℚ) else 3 / 2) < 2 := by
    rintro ⟨htype, hhas⟩
    rw [if_neg fun hadapt => h (.inl ⟨htype, hhas, hadapt⟩)]
    norm_num
  have hpinched := ((Under.refl (by decide : (0 : Int) ≤ 1)).scaleIf_one hplain).scaleIf_one
    (p := x.pinchActive = true) (m := 3 / 2) fun _ => by norm_num
  have hmet := hpinched.floor_one heff' hweak
  rw [applyTypeModifiers]
  refine Under.scaleIf_one (Under.scaleIf_one (Under.scaleIf_one (Under.scaleIf_one ?_
    fun _ => by norm_num) fun _ => by norm_num) fun _ => auraFactor_lt_two x)
    fun _ => auraFactor_lt_two x
  -- a hit that Tinted Lens doubles is resisted, and nothing is left of its point
  rw [Engine.scaleIf]
  split
  · rename_i hlens
    rw [hpinched.floor_zero heff' hlens.2]
    simp [Under]
  · exact hmet

theorem Under.expertBelt_one {p : Prop} [Decidable p] {d : Int} (h : Under d 1) :
    Under (if p then ⌊d * (4915 / 4096 : ℚ) + 1 / 2⌋ else d) 1 := by
  have hbelt := h.expertBelt (p := p)
  refine ⟨hbelt.1, hbelt.2.trans ?_⟩
  split
  · norm_num
  · exact le_refl 1

theorem applyHolderModifiers_one {d : Int} (hd : Under d 1) (h : ¬ DoublesPoint x) :
    Under (applyHolderModifiers x d) 1 := by
  have hfluffy : NonnegFactor (fluffyFactor x) := ⟨fluffyFactor_nonneg x⟩
  have hthin : x.defender.ability = abFluffy ∧ ¬ ignoresAbility x = true ∧ ¬ x.breaksMold = true →
      fluffyFactor x < 2 := fun hcoat =>
    not_le.1 fun hle => h (.inr (.inr ⟨hcoat.1, hcoat.2.1, hcoat.2.2, hle⟩))
  rw [applyHolderModifiers]
  refine Under.scaleIf_one (Under.scaleIf_one ?_ hthin) fun _ => by norm_num
  refine Under.scaleIf_one (Under.scaleIf_one (Under.scaleIf_one ?_ fun _ => by norm_num)
    fun _ => by norm_num) fun _ => by norm_num
  refine Under.expertBelt_one ?_
  exact ((((hd.scaleIf_one fun _ => by norm_num).scaleIf_one fun _ => by norm_num).scaleIf_one
    fun _ => by norm_num).scaleIf_one fun _ => by norm_num).scaleIf_one fun _ => by norm_num

theorem applySideModifiers_one {d : Int} (hd : Under d 1) : Under (applySideModifiers x d) 1 := by
  have hscreen : NonnegFactor (if x.state.format = formatDoubles then 2732 / 4096 else 1 / 2) :=
    ⟨by split <;> norm_num⟩
  rw [applySideModifiers]
  split
  · exact ((hd.scaleIf_one fun _ => by split <;> norm_num).scaleIf_one fun _ => by norm_num)
      |>.scaleIf_one fun _ => by norm_num
  · exact hd

theorem applyModifiers_one (heff : 0 ≤ x.effectiveness) (h : ¬ DoublesPoint x) :
    applyModifiers x 1 = 1 :=
  max_eq_left (applySideModifiers_one x
    (applyHolderModifiers_one x (applyTypeModifiers_one x heff h) h)).2

theorem one_le_applyModifiers (d : Int) : 1 ≤ applyModifiers x d := le_max_left _ _

end Roll

section Dominance

theorem weakCritDominance_iff {t : DamageTable} (hn : t.noncrit ≠ []) (hc : t.crit ≠ []) :
    weakCritDominance t = true ↔ ∀ n ∈ t.noncrit, ∀ k ∈ t.crit, n ≤ k := by
  obtain ⟨least, hleast⟩ := Option.isSome_iff_exists.1 (List.isSome_min?_of_ne_nil hc)
  obtain ⟨most, hmost⟩ := Option.isSome_iff_exists.1 (List.isSome_max?_of_ne_nil hn)
  obtain ⟨hleastMem, hleastLe⟩ := List.min?_eq_some_iff.1 hleast
  obtain ⟨hmostMem, hmostLe⟩ := List.max?_eq_some_iff.1 hmost
  rw [weakCritDominance]
  by_cases hvacuous : tableIsVacuous t = true
  · rw [if_pos hvacuous]
    have hempty : t.crit.isEmpty = false ∧ t.noncrit.isEmpty = false := by simp [hc, hn]
    rw [tableIsVacuous, hempty.1, hempty.2] at hvacuous
    simp only [Bool.false_or, Bool.and_eq_true, List.all_eq_true, beq_iff_eq] at hvacuous
    refine iff_of_true rfl ?_
    intro n hnMem k hkMem
    rw [hvacuous.1 n hnMem, hvacuous.2 k hkMem]
  · rw [if_neg hvacuous, hleast, hmost, Option.getD_some, Option.getD_some, decide_eq_true_eq]
    constructor
    · intro h n hnMem k hkMem
      exact (hmostLe n hnMem).trans (h.trans (hleastLe k hkMem))
    · intro h
      exact h most hmostMem least hleastMem

theorem mem_distinctSorted {l : List Int} {n : Int} : n ∈ distinctSorted l ↔ n ∈ l := by
  rw [distinctSorted, List.mem_dedup, List.mem_mergeSort]

/-- A single point before the critical factor that the modifiers would raise; the lowest critical
roll truncates it. -/
def LosesUnit (c : DamageCall) (md : MoveData) : Prop :=
  dealsNothing c md = false ∧ SinglePoint c md false ∧ SinglePoint c md true ∧
    1 < applyModifiers (postRollCtx c md false) 1

/-- The hits a critical hit never lowers: those that do nothing, and those that neither attack with
a raised Defense nor are down to one point that a modifier doubles. -/
def KeepsCrit (c : DamageCall) (md : MoveData) : Prop :=
  dealsNothing c md = true ∨
    ¬ BoostedBodyPress c ∧
      ¬ (SinglePoint c md false ∧ SinglePoint c md true ∧ DoublesPoint (postRollCtx c md false))

variable {c : DamageCall} {md : MoveData}

theorem rolled_le {d : Int} (hd : 0 ≤ d) {roll : Nat} (hroll : roll < 16) :
    0 ≤ (d * (85 + roll)).tdiv 100 ∧ (d * (85 + roll)).tdiv 100 ≤ d := by
  have hproduct : 0 ≤ d * (85 + roll) := mul_nonneg hd (by omega)
  have hbound : d * (85 + roll) ≤ d * 100 := mul_le_mul_of_nonneg_left (by omega) hd
  rw [Int.tdiv_eq_ediv_of_nonneg hproduct]
  exact ⟨Int.ediv_nonneg hproduct (by omega), by omega⟩

theorem lowest_le_rolled {d : Int} (hd : 0 ≤ d) (roll : Nat) :
    d * 85 / 100 ≤ (d * (85 + roll)).tdiv 100 := by
  have hproduct : 0 ≤ d * (85 + roll) := mul_nonneg hd (by omega)
  have hbound : d * 85 ≤ d * (85 + roll) := mul_le_mul_of_nonneg_left (by omega) hd
  rw [Int.tdiv_eq_ediv_of_nonneg hproduct]
  omega

theorem roll_le_roll (hlevel : 0 ≤ c.attacker.level.toInt) (hbp : 0 ≤ c.bpOverride)
    (hbody : ¬ BoostedBodyPress c) (hmove : dealsNothing c md = false) (hunit : ¬ LosesUnit c md)
    {r s : Nat} (hr : r < 16) :
    applyRollAndModifiers (preCritDamage c md false) r (postRollCtx c md false) ≤
      applyRollAndModifiers (applyCrit c.attacker true (preCritDamage c md true)) s
        (postRollCtx c md true) := by
  obtain ⟨hpos, hle⟩ := preCritDamage_under c md hlevel hbp hbody
  have hcrit := applyCrit_true c.attacker (hpos.trans hle)
  obtain ⟨hrolled, hrolledLe⟩ := rolled_le hpos hr
  have hcritRolled := lowest_le_rolled (le_trans (by omega) hcrit :
    0 ≤ applyCrit c.attacker true (preCritDamage c md true)) s
  have heff : 0 ≤ (postRollCtx c md false).effectiveness := typeEffectivenessProduct_nonneg c _
  have hone := one_le_applyModifiers (postRollCtx c md true)
    ((applyCrit c.attacker true (preCritDamage c md true) * (85 + s)).tdiv 100)
  by_cases hsmall : preCritDamage c md false ≤ 1 ∧ preCritDamage c md true ≤ 1
  · -- at most one point: the roll leaves nothing, or the point that no modifier raises
    have hflat :
        applyRollAndModifiers (preCritDamage c md false) r (postRollCtx c md false) ≤ 1 := by
      rw [applyRollAndModifiers]
      generalize (preCritDamage c md false * (85 + r)).tdiv 100 = d at hrolled hrolledLe
      obtain rfl | ⟨rfl, hn⟩ : d = 0 ∨ d = 1 ∧ preCritDamage c md false = 1 := by omega
      · rw [applyModifiers_zero]
      · rw [LosesUnit] at hunit
        by_contra hgt
        have hpoint := preCritDamage_eq_one_iff c md hlevel hbp
        exact hunit ⟨hmove, (hpoint false).1 hn, (hpoint true).1 (by omega), not_le.1 hgt⟩
    exact hflat.trans hone
  · exact applyModifiers_crit_ge (postRollCtx c md false) heff ⟨hrolled, by omega⟩

variable {moves : List MoveData}

def WeaklyDominated (moves : List MoveData) (c : DamageCall) : Prop :=
  ∀ r < 16, ∀ s < 16, ∀ n k, calculateDamage moves c r false = .ok n →
    calculateDamage moves c s true = .ok k → n ≤ k

theorem calculateDamage_eq (hmd : lookupMove moves c.moveId = .ok md) (roll : Nat) (isCrit : Bool) :
    calculateDamage moves c roll isCrit = .ok (rollDamage c md isCrit roll) := by
  rw [calculateDamage, hmd, ok_bind, rollDamage]
  split <;> rfl

theorem damageTableOf_spec (hmd : lookupMove moves c.moveId = .ok md) :
    ∃ t, damageTableOf moves c = .ok t ∧
      (weakCritDominance t = true ↔ WeaklyDominated moves c) := by
  have hrolls (isCrit : Bool) : (List.range 16).mapM (calculateDamage moves c · isCrit) =
      .ok ((List.range 16).map (rollDamage c md isCrit)) := by
    have hmap := mapM_except_map (f := (calculateDamage moves c · isCrit)) (g := id)
      (v := rollDamage c md isCrit) (l := List.range 16) fun r _ => calculateDamage_eq hmd r isCrit
    rwa [List.map_id] at hmap
  rw [damageTableOf, hmd, ok_bind, hrolls false, ok_bind, hrolls true, ok_bind]
  refine ⟨_, rfl, ?_⟩
  have hmem {isCrit : Bool} {n : Int} :
      n ∈ distinctSorted ((List.range 16).map (rollDamage c md isCrit)) ↔
        ∃ r < 16, rollDamage c md isCrit r = n := by
    simp [mem_distinctSorted]
  rw [weakCritDominance_iff]
  · constructor
    · intro h r hr s hs n k hn hk
      rw [calculateDamage_eq hmd] at hn hk
      exact h n (hmem.2 ⟨r, hr, Except.ok.inj hn⟩) k (hmem.2 ⟨s, hs, Except.ok.inj hk⟩)
    · intro h n hn k hk
      obtain ⟨r, hr, rfl⟩ := hmem.1 hn
      obtain ⟨s, hs, rfl⟩ := hmem.1 hk
      exact h r hr s hs _ _ (calculateDamage_eq hmd r false) (calculateDamage_eq hmd s true)
  · exact List.ne_nil_of_mem (hmem.2 ⟨0, by omega, rfl⟩)
  · exact List.ne_nil_of_mem (hmem.2 ⟨0, by omega, rfl⟩)

theorem applyCrit_one (attacker : PokemonState) : applyCrit attacker true 1 = 1 := by
  have hone (p : Prop) [Decidable p] : scaleIf p (3 / 2) 1 = 1 := by
    rw [scaleIf, floor_three_halves]
    split <;> rfl
  rw [applyCrit, hone, hone]

theorem weaklyDominated_of_dealsNothing (hmd : lookupMove moves c.moveId = .ok md)
    (hnothing : dealsNothing c md = true) : WeaklyDominated moves c := by
  intro r _ s _ n k hn hk
  rw [calculateDamage_eq hmd, rollDamage, if_pos hnothing] at hn hk
  obtain rfl := Except.ok.inj hn
  obtain rfl := Except.ok.inj hk
  exact le_refl 0

theorem weaklyDominated_iff (hmd : lookupMove moves c.moveId = .ok md)
    (hlevel : 0 ≤ c.attacker.level.toInt) (hbp : 0 ≤ c.bpOverride) (hbody : ¬ BoostedBodyPress c) :
    WeaklyDominated moves c ↔ ¬ LosesUnit c md := by
  have hpoint := preCritDamage_eq_one_iff c md hlevel hbp
  constructor
  · rintro h ⟨hmove, hnoncrit, hcrit, hraised⟩
    have hle := h 15 (by omega) 0 (by omega) _ _ (calculateDamage_eq hmd 15 false)
      (calculateDamage_eq hmd 0 true)
    rw [rollDamage, rollDamage, hmove, (hpoint false).2 hnoncrit, (hpoint true).2 hcrit,
      applyCrit_false, applyCrit_one] at hle
    have hlow : applyRollAndModifiers 1 0 (postRollCtx c md true) = 1 :=
      applyModifiers_zero (postRollCtx c md true)
    have hhigh : applyRollAndModifiers 1 15 (postRollCtx c md false) =
        applyModifiers (postRollCtx c md false) 1 := rfl
    rw [hlow, hhigh] at hle
    exact absurd hraised (not_lt.2 hle)
  · intro hunit r hr s hs n k hn hk
    cases hmove : dealsNothing c md with
    | true => exact weaklyDominated_of_dealsNothing hmd hmove r hr s hs n k hn hk
    | false =>
      rw [calculateDamage_eq hmd, rollDamage, hmove, if_neg Bool.false_ne_true] at hn hk
      obtain rfl := Except.ok.inj hn
      obtain rfl := Except.ok.inj hk
      rw [applyCrit_false]
      exact roll_le_roll hlevel hbp hbody hmove hunit hr

/-- A critical hit never does less on the hits it keeps; but for a boosted Body Press, where it
does less is exact. -/
theorem weakCritDominance_of_keepsCrit (moves : List MoveData) (c : DamageCall) (md : MoveData)
    (hmd : lookupMove moves c.moveId = .ok md) (hlevel : 0 ≤ c.attacker.level.toInt)
    (hbp : 0 ≤ c.bpOverride) :
    ∃ t, damageTableOf moves c = .ok t ∧ (KeepsCrit c md → weakCritDominance t = true) ∧
      (¬ BoostedBodyPress c → (weakCritDominance t = true ↔ ¬ LosesUnit c md)) := by
  obtain ⟨t, ht, hdom⟩ := damageTableOf_spec hmd
  refine ⟨t, ht, fun hkeeps => hdom.2 ?_, fun hbody => ?_⟩
  · rcases hkeeps with hnothing | ⟨hbody, hpoint⟩
    · exact weaklyDominated_of_dealsNothing hmd hnothing
    · apply (weaklyDominated_iff hmd hlevel hbp hbody).2
      rintro ⟨-, hnoncrit, hcrit, hraised⟩
      have hflat : ¬ DoublesPoint (postRollCtx c md false) := fun h => hpoint ⟨hnoncrit, hcrit, h⟩
      rw [applyModifiers_one _ (typeEffectivenessProduct_nonneg c _) hflat] at hraised
      exact absurd hraised (lt_irrefl 1)
  · exact hdom.trans (weaklyDominated_iff hmd hlevel hbp hbody)

def tackle : MoveData where
  moveId := 33
  moveType := typeNormal
  category := catPhysical
  basePower := 40
  tags := 129

def ember : MoveData where
  moveId := 52
  moveType := typeFire
  category := 1
  basePower := 40
  tags := 1
  secondaryChance := 10

def bodyPress : MoveData where
  moveId := moveBodyPress
  moveType := typeFighting
  category := catPhysical
  basePower := 80
  tags := 129

def duelState (attacker defender : PokemonState) (weather : Int32) : BattleState where
  side0 := { team := ⟨[attacker], by simp⟩, activeIndices := firstActive }
  side1 := { team := ⟨[defender], by simp⟩, activeIndices := firstActive }
  weather := weather

def raisedWall : PokemonState where
  statAtk := 100
  statDef := 100
  types := ⟨[typeSteel], by decide⟩
  stage1 := 6

def plainTarget : PokemonState where
  statDef := 100
  types := ⟨[typeNormal], by decide⟩

def ghostTarget : PokemonState where
  statDef := 100
  types := ⟨[typeGhost], by decide⟩

def younglingFire : PokemonState where
  level := 5
  statSpa := 10
  types := ⟨[typeFire], by decide⟩

def younglingGrass : PokemonState where
  level := 5
  statSpd := 20
  types := ⟨[typeGrass], by decide⟩

theorem weakCritDominance_tackle :
    (∃ t, damageTableOf [tackle] (activeCall (duelState raisedWall plainTarget 0) 0 33) = .ok t ∧
      weakCritDominance t = true) ∧
    ∃ t, damageTableOf [bodyPress]
        (activeCall (duelState raisedWall ghostTarget 0) 0 moveBodyPress) = .ok t ∧
      weakCritDominance t = true := by
  constructor
  · obtain ⟨t, ht, hkeeps, -⟩ := weakCritDominance_of_keepsCrit [tackle]
      (activeCall (duelState raisedWall plainTarget 0) 0 33) tackle rfl (by decide) (by decide)
    refine ⟨t, ht, hkeeps (.inr ⟨fun h => absurd h.1 (by decide), fun h => ?_⟩)⟩
    -- no weather and no spread: the hit keeps the two points of the base formula
    rcases h.1 with h | h | h
    · exact absurd h.1.1 (by decide)
    · exact absurd h.2.1.1 (by decide)
    · exact absurd h.1.1 (by decide)
  · obtain ⟨t, ht, hkeeps, -⟩ := weakCritDominance_of_keepsCrit [bodyPress]
      (activeCall (duelState raisedWall ghostTarget 0) 0 moveBodyPress) bodyPress rfl (by decide)
      (by decide)
    exact ⟨t, ht, hkeeps (.inl (by decide +kernel))⟩

theorem critical_hit_does_less :
    (∃ t, damageTableOf [bodyPress]
        (activeCall (duelState raisedWall plainTarget 0) 0 moveBodyPress) = .ok t ∧
      weakCritDominance t = false) ∧
    ∃ t, damageTableOf [ember]
        (activeCall (duelState younglingFire younglingGrass weatherRainy) 0 52) = .ok t ∧
      weakCritDominance t = false := by
  constructor
  · obtain ⟨t, ht, hdom⟩ := @damageTableOf_spec
      (activeCall (duelState raisedWall plainTarget 0) 0 moveBodyPress) bodyPress [bodyPress] rfl
    refine ⟨t, ht, Bool.eq_false_iff.2 fun h => ?_⟩
    have hle := hdom.1 h 15 (by decide) 0 (by decide) 284 92 (by decide +kernel) (by decide +kernel)
    omega
  · obtain ⟨t, ht, hdom⟩ := @damageTableOf_spec
      (activeCall (duelState younglingFire younglingGrass weatherRainy) 0 52) ember [ember] rfl
    refine ⟨t, ht, Bool.eq_false_iff.2 fun h => ?_⟩
    have hle := hdom.1 h 15 (by decide) 0 (by decide) 2 1 (by decide +kernel) (by decide +kernel)
    omega

end Dominance

end Engine

end NuzlockeSolver
