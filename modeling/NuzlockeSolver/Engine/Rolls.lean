import NuzlockeSolver.Engine.CritDominance

/-!
# The sixteen rolls of a hit

Each step after the roll is a floored multiplication by a factor that is not negative, so the
damage grows with the roll and with the damage before it, over all integers; what is not positive
ends at the floor of one. The damages of the sixteen rolls come in ascending order, and the rolls
of one damage lie together.
-/

namespace NuzlockeSolver

namespace Engine

section Monotone

variable {p : Prop} [Decidable p] {m : ℚ} {x : PostRollCtx} {d e : Int}

theorem scaleIf_mono [hm : NonnegFactor m] (h : d ≤ e) : scaleIf p m d ≤ scaleIf p m e := by
  rw [scaleIf, scaleIf]
  split
  · exact floor_mul_mono hm.nonneg h
  · exact h

theorem expertBelt_mono (h : d ≤ e) :
    (if p then ⌊d * (4915 / 4096 : ℚ) + 1 / 2⌋ else d) ≤
      (if p then ⌊e * (4915 / 4096 : ℚ) + 1 / 2⌋ else e) := by
  split
  · have hde : (d : ℚ) ≤ e := by exact_mod_cast h
    exact Int.floor_le_floor (by linarith)
  · exact h

theorem applyTypeModifiers_mono (heff : 0 ≤ x.effectiveness) (h : d ≤ e) :
    applyTypeModifiers x d ≤ applyTypeModifiers x e := by
  have hstab : NonnegFactor (if x.attacker.ability = abAdaptability then 2 else 3 / 2) :=
    ⟨by split <;> norm_num⟩
  have haura : NonnegFactor (auraFactor x) := ⟨auraFactor_nonneg x⟩
  have heffective := cappedEffectiveness_nonneg x heff
  exact scaleIf_mono (scaleIf_mono (scaleIf_mono (scaleIf_mono (scaleIf_mono
    (floor_mul_mono heffective (scaleIf_mono (scaleIf_mono h)))))))

theorem applyHolderModifiers_mono (h : d ≤ e) :
    applyHolderModifiers x d ≤ applyHolderModifiers x e := by
  have hfluffy : NonnegFactor (fluffyFactor x) := ⟨fluffyFactor_nonneg x⟩
  exact scaleIf_mono (scaleIf_mono (scaleIf_mono (scaleIf_mono (scaleIf_mono (expertBelt_mono
    (scaleIf_mono (scaleIf_mono (scaleIf_mono (scaleIf_mono (scaleIf_mono h))))))))))

theorem applySideModifiers_mono (h : d ≤ e) : applySideModifiers x d ≤ applySideModifiers x e := by
  have hscreen : NonnegFactor (if x.state.format = formatDoubles then 2732 / 4096 else 1 / 2) :=
    ⟨by split <;> norm_num⟩
  rw [applySideModifiers, applySideModifiers]
  split
  · exact scaleIf_mono (scaleIf_mono (scaleIf_mono h))
  · exact h

theorem applyModifiers_mono (heff : 0 ≤ x.effectiveness) (h : d ≤ e) :
    applyModifiers x d ≤ applyModifiers x e :=
  max_le_max_left 1 (applySideModifiers_mono
    (applyHolderModifiers_mono (applyTypeModifiers_mono heff h)))

theorem applyModifiers_of_nonpos (heff : 0 ≤ x.effectiveness) (h : d ≤ 0) :
    applyModifiers x d = 1 := by
  have hle := applyModifiers_mono heff h
  rw [applyModifiers_zero] at hle
  exact le_antisymm hle (one_le_applyModifiers x d)

theorem one_le_applyRollAndModifiers (roll : ℕ) : 1 ≤ applyRollAndModifiers d roll x :=
  one_le_applyModifiers x _

theorem applyRollAndModifiers_mono_damage (heff : 0 ≤ x.effectiveness) (h : d ≤ e) (roll : ℕ) :
    applyRollAndModifiers d roll x ≤ applyRollAndModifiers e roll x := by
  have hproduct : d * (85 + roll) ≤ e * (85 + roll) := mul_le_mul_of_nonneg_right h (by omega)
  exact applyModifiers_mono heff (Int.tdiv_le_tdiv (by decide) hproduct)

/-- A roll of a negative damage is nearer to zero the lower it is; the floor of one hides that. -/
theorem applyRollAndModifiers_mono_roll (heff : 0 ≤ x.effectiveness) (d : Int) {r s : ℕ}
    (h : r ≤ s) : applyRollAndModifiers d r x ≤ applyRollAndModifiers d s x := by
  rcases le_total 0 d with hpos | hneg
  · have hproduct : d * (85 + r) ≤ d * (85 + s) := mul_le_mul_of_nonneg_left (by omega) hpos
    exact applyModifiers_mono heff (Int.tdiv_le_tdiv (by decide) hproduct)
  · have hproduct : d * (85 + r) ≤ 0 := mul_nonpos_of_nonpos_of_nonneg hneg (by omega)
    have hrolled : (d * (85 + r)).tdiv 100 ≤ 0 := Int.tdiv_le_tdiv (by decide) hproduct
    rw [applyRollAndModifiers, applyModifiers_of_nonpos heff hrolled]
    exact one_le_applyRollAndModifiers s

end Monotone

section Table

variable (c : DamageCall) (md : MoveData) (isCrit : Bool)

theorem postRollCtx_effectiveness_nonneg : 0 ≤ (postRollCtx c md isCrit).effectiveness :=
  typeEffectivenessProduct_nonneg c _

theorem rollDamage_mono {r s : ℕ} (h : r ≤ s) :
    rollDamage c md isCrit r ≤ rollDamage c md isCrit s := by
  rw [rollDamage, rollDamage]
  split
  · exact le_rfl
  · exact applyRollAndModifiers_mono_roll (postRollCtx_effectiveness_nonneg c md isCrit) _ h

/-- The damages of the sixteen rolls, as the log annotates them. -/
def damageByRoll : List Int := (List.range 16).map (rollDamage c md isCrit)

theorem damageByRoll_pairwise : (damageByRoll c md isCrit).Pairwise (· ≤ ·) :=
  List.Pairwise.map _ (fun _ _ h => rollDamage_mono c md isCrit (le_of_lt h))
    List.pairwise_lt_range

/-- The formula never divides by less than one, it grows with the roll and with the damage before
it from one on, and the sixteen damages are sorted with equal ones next to each other. -/
theorem damage_formula_monotone :
    1 ≤ computeDefenseStat c (isPhysicalHit c md) isCrit ∧
    (∀ (d e : Int) (r s : ℕ), d ≤ e → r ≤ s →
      applyRollAndModifiers d r (postRollCtx c md isCrit) ≤
        applyRollAndModifiers e s (postRollCtx c md isCrit)) ∧
    (∀ (d : Int) (r : ℕ), 1 ≤ applyRollAndModifiers d r (postRollCtx c md isCrit)) ∧
    (damageByRoll c md isCrit).Pairwise (· ≤ ·) ∧
    ∀ i j k : ℕ, i ≤ j → j ≤ k →
      (damageByRoll c md isCrit)[i]? = (damageByRoll c md isCrit)[k]? → k < 16 →
      (damageByRoll c md isCrit)[j]? = (damageByRoll c md isCrit)[i]? := by
  have heff := postRollCtx_effectiveness_nonneg c md isCrit
  refine ⟨one_le_computeDefenseStat c _ isCrit, fun d e r s hde hrs => ?_,
    fun d r => one_le_applyRollAndModifiers r, damageByRoll_pairwise c md isCrit,
    fun i j k hij hjk hends hk => ?_⟩
  · calc applyRollAndModifiers d r (postRollCtx c md isCrit)
        ≤ applyRollAndModifiers d s (postRollCtx c md isCrit) :=
          applyRollAndModifiers_mono_roll heff d hrs
      _ ≤ applyRollAndModifiers e s (postRollCtx c md isCrit) :=
          applyRollAndModifiers_mono_damage heff hde s
  · have hget (n : ℕ) (hn : n < 16) :
        (damageByRoll c md isCrit)[n]? = some (rollDamage c md isCrit n) := by
      rw [damageByRoll, List.getElem?_map, List.getElem?_range hn, Option.map_some]
    rw [hget i (by omega), hget k hk, Option.some.injEq] at hends
    rw [hget i (by omega), hget j (by omega), Option.some.injEq]
    have hlow := rollDamage_mono c md isCrit hij
    have hhigh := rollDamage_mono c md isCrit hjk
    omega

end Table

end Engine

end NuzlockeSolver
