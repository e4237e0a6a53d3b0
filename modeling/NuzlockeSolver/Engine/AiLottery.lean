import NuzlockeSolver.Draws
import NuzlockeSolver.Engine.AiPolicy

/-!
# Score distributions are lotteries

Every distribution of `cpp_dist_action` has positive weights that add up to one and no score below
a fixed bound, so that the cumulated pick of the policy draws it exactly.
-/

namespace NuzlockeSolver

namespace Engine

open WeightedList

section Lottery

structure IsLottery (low : Int) (dist : ScoreDist) : Prop where
  positive : Positive dist
  mass_eq : mass dist = 1
  low_le : ∀ s ∈ outcomes dist, low ≤ s

theorem IsLottery.mono {low low' : Int} {dist : ScoreDist} (h : IsLottery low dist)
    (hle : low' ≤ low) : IsLottery low' dist :=
  ⟨h.positive, h.mass_eq, fun s hs => hle.trans (h.low_le s hs)⟩

theorem IsLottery.ne_nil {low : Int} {dist : ScoreDist} (h : IsLottery low dist) : dist ≠ [] := by
  rintro rfl
  exact absurd h.mass_eq (by simp [mass])

@[simp] theorem isLottery_fixedScore {low score : Int} :
    IsLottery low (fixedScore score) ↔ low ≤ score := by
  constructor
  · intro h
    exact h.low_le score (List.mem_singleton_self _)
  · intro h
    refine ⟨positive_point score, by simp [mass, fixedScore], fun s hs => ?_⟩
    rwa [List.mem_singleton.1 hs]

@[simp] theorem isLottery_pair {low s t : Int} {p q : ℚ} :
    IsLottery low [(s, p), (t, q)] ↔ ((0 < p ∧ 0 < q) ∧ p + q = 1) ∧ low ≤ s ∧ low ≤ t := by
  constructor
  · rintro ⟨hpos, hmass, hlow⟩
    refine ⟨⟨⟨hpos (s, p) (by simp), hpos (t, q) (by simp)⟩, by simpa [mass] using hmass⟩, ?_⟩
    exact ⟨hlow s (by simp [outcomes]), hlow t (by simp [outcomes])⟩
  · rintro ⟨⟨⟨hp, hq⟩, hmass⟩, hs, ht⟩
    refine ⟨?_, by simpa [mass] using hmass, ?_⟩
    · simp [Positive, hp, hq]
    · simp [outcomes, hs, ht]

theorem isLottery_ite {low : Int} {c : Prop} [Decidable c] {d e : ScoreDist}
    (hd : IsLottery low d) (he : IsLottery low e) : IsLottery low (if c then d else e) := by
  split
  · exact hd
  · exact he

theorem IsLottery.addScore {low : Int} {dist : ScoreDist} (h : IsLottery low dist) (k : Int) :
    IsLottery (low + k) (addScore k dist) := by
  refine ⟨?_, ?_, ?_⟩
  · intro sp hsp
    obtain ⟨tp, htp, rfl⟩ := List.mem_map.1 hsp
    exact h.positive tp htp
  · rw [← h.mass_eq, mass, mass, Engine.addScore, List.map_map]
    rfl
  · intro s hs
    rw [outcomes, Engine.addScore, List.map_map] at hs
    obtain ⟨tp, htp, rfl⟩ := List.mem_map.1 hs
    exact Int.add_le_add_right (h.low_le tp.1 (List.mem_map_of_mem htp)) k

theorem splitScores_eq_andThen (branches : ScoreDist) (dist : ScoreDist) :
    splitScores branches dist =
      andThen dist fun s => branches.map fun b => (s + b.1, b.2) := by
  simp only [splitScores, andThen, List.map_map, Function.comp_def]

theorem IsLottery.splitScores {low low' : Int} {branches dist : ScoreDist} (h : IsLottery low dist)
    (hb : IsLottery low' branches) : IsLottery (low + low') (splitScores branches dist) := by
  rw [splitScores_eq_andThen]
  refine ⟨h.positive.andThen fun s _ => ?_, ?_, ?_⟩
  · intro sp hsp
    obtain ⟨b, hb', rfl⟩ := List.mem_map.1 hsp
    exact hb.positive b hb'
  · have hone : mass (andThen dist fun s => branches.map fun b => (s + b.1, b.2)) =
        avg (andThen dist fun s => branches.map fun b => (s + b.1, b.2)) fun _ => 1 := by
      rw [avg_const, mul_one]
    have hbranch : ∀ s : Int,
        avg (branches.map fun b => (s + b.1, b.2)) (fun _ => (1 : ℚ)) = 1 := by
      intro s
      rw [avg_map branches (s + ·), avg_const, hb.mass_eq, mul_one]
    rw [hone, avg_andThen]
    simp only [hbranch]
    rw [avg_const, h.mass_eq, mul_one]
  · intro s hs
    obtain ⟨t, ht, hs⟩ := mem_outcomes_andThen.1 hs
    rw [outcomes, List.map_map] at hs
    obtain ⟨b, hb', rfl⟩ := List.mem_map.1 hs
    exact Int.add_le_add (h.low_le t ht) (hb.low_le b.1 (List.mem_map_of_mem hb'))

end Lottery

section Pick

theorem pickByCumulative_lottery {dist : ScoreDist} {reached : ℚ} (hpos : Positive dist)
    (hreached : 0 ≤ reached) (hle : reached + mass dist ≤ 1) :
    pickByCumulative reached reached dist = (dist, reached + mass dist) := by
  induction dist generalizing reached with
  | nil => simp [pickByCumulative, mass]
  | cons sp dist ih =>
    have hp : 0 < sp.2 := hpos sp List.mem_cons_self
    have hpos' : Positive dist := fun tp htp => hpos tp (List.mem_cons_of_mem _ htp)
    have hmass : mass (sp :: dist) = sp.2 + mass dist := by simp [mass]
    have hrest : 0 ≤ mass dist := by
      simpa [avg_const] using hpos'.avg_nonneg (f := fun _ => 1) fun _ _ => zero_le_one
    have htop : max reached (min 1 (reached + sp.2)) = reached + sp.2 := by
      rw [min_eq_right (by linarith), max_eq_right (by linarith)]
    rw [pickByCumulative]
    simp only [htop]
    rw [ih hpos' (by linarith) (by linarith), hmass, add_sub_cancel_left, add_assoc]

theorem avg_drawScore {low : Int} {dist : ScoreDist} (h : IsLottery low dist) (f : Int → ℚ) :
    avg (drawScore dist) f = avg dist f := by
  obtain ⟨last, hlast⟩ := Option.isSome_iff_exists.1 (List.getLast?_isSome.2 h.ne_nil)
  have hpicked := pickByCumulative_lottery h.positive le_rfl
    (show (0 : ℚ) + mass dist ≤ 1 by rw [h.mass_eq, zero_add])
  rw [drawScore, hlast]
  simp only [hpicked]
  rw [avg_append, avg_cons, h.mass_eq, zero_add, sub_self, zero_mul, avg_nil, add_zero, add_zero]

end Pick

section Scorer

variable (moves : List MoveData) (state : BattleState) (aiIdx : Int)

theorem isLottery_recoverDist {score : Int} {p : ℚ × ℚ} (hscore : -50 ≤ score)
    (hfst : 0 ≤ p.1) (hsnd : 0 ≤ p.2) (hsum : p.1 + p.2 = 1) :
    IsLottery (-50) (recoverDist score p) := by
  obtain hfst | hfst := hfst.eq_or_lt
  · have hone : p.2 = 1 := by rw [← hsum, ← hfst, zero_add]
    rw [recoverDist, ← hfst, hone]
    exact isLottery_fixedScore.2 (by norm_num)
  · obtain hsnd | hsnd := hsnd.eq_or_lt
    · have hone : p.1 = 1 := by rw [← hsum, ← hsnd, add_zero]
      rw [recoverDist, ← hsnd, hone]
      exact isLottery_fixedScore.2 hscore
    · rw [recoverDist, if_pos hfst, if_pos hsnd]
      exact isLottery_pair.2 ⟨⟨⟨hfst, hsnd⟩, hsum⟩, hscore, by norm_num⟩

theorem shouldRecover_weights (healPct : ℚ) :
    0 ≤ (shouldRecover moves state aiIdx healPct).1 ∧
      0 ≤ (shouldRecover moves state aiIdx healPct).2 ∧
      (shouldRecover moves state aiIdx healPct).1 +
        (shouldRecover moves state aiIdx healPct).2 = 1 := by
  unfold shouldRecover
  dsimp only
  split_ifs <;> norm_num

theorem isLottery_shouldRecover {score : Int} (hscore : -50 ≤ score) (healPct : ℚ) :
    IsLottery (-50) (recoverDist score (shouldRecover moves state aiIdx healPct)) := by
  obtain ⟨hfst, hsnd, hsum⟩ := shouldRecover_weights moves state aiIdx healPct
  exact isLottery_recoverDist hscore hfst hsnd hsum

theorem isLottery_distRecovery (healPct : ℚ) :
    IsLottery (-50) (distRecovery moves state aiIdx healPct) := by
  unfold distRecovery
  dsimp only
  refine isLottery_ite (by norm_num) (isLottery_ite (by norm_num) ?_)
  exact isLottery_shouldRecover moves state aiIdx (by norm_num) healPct

theorem isLottery_distRest : IsLottery (-50) (distRest moves state aiIdx) := by
  unfold distRest
  dsimp only
  refine isLottery_ite (by norm_num) (isLottery_ite (by norm_num) ?_)
  refine isLottery_shouldRecover moves state aiIdx ?_ 1
  split <;> norm_num

theorem isLottery_distProtect : IsLottery (-50) (distProtect state aiIdx) := by
  unfold distProtect
  dsimp only
  split_ifs <;> norm_num

theorem isLottery_distHazard (moveId : Int32) :
    IsLottery (-50) (distHazard state aiIdx moveId) := by
  unfold distHazard layeredHazardDist hazardDist
  dsimp only
  split_ifs <;> norm_num

theorem isLottery_distScreen (moveId : Int32) :
    IsLottery (-50) (distScreen moves state aiIdx moveId) := by
  unfold distScreen
  dsimp only
  split_ifs <;> norm_num

theorem isLottery_distParalysis (md : MoveData) :
    IsLottery (-50) (distParalysis state aiIdx md) := by
  unfold distParalysis
  dsimp only
  split_ifs <;> norm_num

theorem isLottery_distSetup (kind : SetupKind) :
    IsLottery (-20) (distSetup moves state aiIdx kind) := by
  unfold distSetup
  dsimp only
  cases kind <;> dsimp only <;> split_ifs <;> norm_num

theorem isLottery_distTailwind : IsLottery (-50) (distTailwind state aiIdx) := by
  unfold distTailwind
  dsimp only
  split_ifs <;> norm_num

theorem isLottery_distTrickRoom : IsLottery (-50) (distTrickRoom state aiIdx) := by
  unfold distTrickRoom
  split_ifs <;> norm_num

theorem isLottery_distTerrain : IsLottery (-50) (distTerrain state aiIdx) := by
  unfold distTerrain
  split_ifs <;> norm_num

theorem isLottery_distPoisonMove (seesKill : Bool) :
    IsLottery (-50) (distPoisonMove moves state aiIdx seesKill) := by
  unfold distPoisonMove
  dsimp only
  split_ifs <;> norm_num

theorem isLottery_distWillOWisp : IsLottery (-50) (distWillOWisp state aiIdx) := by
  unfold distWillOWisp
  dsimp only
  split_ifs <;> norm_num

theorem isLottery_distSubstitute : IsLottery (-50) (distSubstitute state aiIdx) := by
  unfold distSubstitute
  dsimp only
  split_ifs <;> norm_num

theorem isLottery_distBellyDrum : IsLottery (-50) (distBellyDrum moves state aiIdx) := by
  unfold distBellyDrum
  dsimp only
  split_ifs <;> norm_num

theorem isLottery_distCritSetup (moveId : Int32) :
    IsLottery (-50) (distCritSetup moves state aiIdx moveId) := by
  unfold distCritSetup
  dsimp only
  split_ifs <;> norm_num

theorem isLottery_unlessUnaware (moveId : Int32) {dist : ScoreDist} (h : IsLottery (-20) dist) :
    IsLottery (-50) (unlessUnaware state aiIdx moveId dist) :=
  isLottery_ite (by norm_num) (h.mono (by norm_num))

theorem isLottery_distSpecialAttackSetup :
    IsLottery (-50) (distSpecialAttackSetup moves state aiIdx) := by
  refine isLottery_ite (by norm_num) ?_
  apply ((isLottery_distSetup moves state aiIdx .offensive).addScore _).mono
  split <;> norm_num

theorem isLottery_distCoaching : IsLottery (-50) (distCoaching state aiIdx) := by
  unfold distCoaching
  refine isLottery_ite (by norm_num) ?_
  cases partnerOf (state.side aiIdx) with
  | none => exact isLottery_fixedScore.2 (by norm_num)
  | some partner =>
    refine isLottery_ite (by norm_num) (isLottery_pair.2 ⟨by norm_num, ?_, ?_⟩)
    · dsimp only
      split_ifs <;> omega
    · dsimp only
      split_ifs <;> omega

theorem isLottery_distRolePlay : IsLottery (-50) (distRolePlay state aiIdx) := by
  unfold distRolePlay
  dsimp only
  split_ifs <;> norm_num

theorem isLottery_distImprison : IsLottery (-50) (distImprison state aiIdx) := by
  unfold distImprison
  dsimp only
  split_ifs <;> norm_num

theorem isLottery_distLeechSeed : IsLottery (-50) (distLeechSeed state aiIdx) := by
  unfold distLeechSeed
  dsimp only
  split_ifs <;> norm_num

theorem isLottery_distFinalGambit (aiFst : Bool) :
    IsLottery (-50) (distFinalGambit moves state aiIdx aiFst) := by
  unfold distFinalGambit
  split_ifs <;> norm_num

theorem sleepSynergy_nonneg : 0 ≤ sleepSynergy state aiIdx := by
  unfold sleepSynergy
  dsimp only
  split_ifs <;> norm_num

theorem isLottery_distSleepMove (seesKill : Bool) :
    IsLottery (-50) (distSleepMove state aiIdx seesKill) := by
  have hsynergy := sleepSynergy_nonneg state aiIdx
  unfold distSleepMove
  dsimp only
  split_ifs <;> norm_num
  omega

theorem isLottery_distTaunt (aiFst : Bool) : IsLottery (-50) (distTaunt state aiIdx aiFst) := by
  unfold distTaunt
  dsimp only
  split_ifs <;> norm_num

theorem isLottery_distBatonPass : IsLottery (-50) (distBatonPass state aiIdx) := by
  unfold distBatonPass
  dsimp only
  split_ifs <;> norm_num

theorem isLottery_distMemento : IsLottery (-50) (distMemento state aiIdx) := by
  unfold distMemento
  dsimp only
  split_ifs <;> norm_num

theorem isLottery_distEncore (aiFst : Bool) : IsLottery (-50) (distEncore state aiIdx aiFst) := by
  unfold distEncore
  dsimp only
  split_ifs <;> norm_num

theorem isLottery_hesitate (c : Bool) {low : Int} {dist : ScoreDist} (h : IsLottery low dist) :
    IsLottery (low + -1) (hesitate c dist) :=
  isLottery_ite (h.splitScores (isLottery_pair.2 (by norm_num))) (h.mono (by omega))

theorem isLottery_distCounter (isCounter aiFst : Bool) :
    IsLottery (-50) (distCounter moves state aiIdx isCounter aiFst) := by
  unfold distCounter
  dsimp only
  refine isLottery_ite (by norm_num) (isLottery_ite (by norm_num) (isLottery_ite (by norm_num) ?_))
  refine (isLottery_hesitate _ (isLottery_hesitate _ (?_ : IsLottery 6 _))).mono (by norm_num)
  split_ifs <;> norm_num

theorem isLottery_distMagnetRise (aiFst : Bool) :
    IsLottery (-50) (distMagnetRise moves state aiIdx aiFst) := by
  unfold distMagnetRise
  dsimp only
  split_ifs <;> norm_num

theorem isLottery_distStatusSpecial (moveId : Int32) (aiFst seesKill : Bool) :
    IsLottery (-50) (distStatusSpecial moves state aiIdx moveId aiFst seesKill) := by
  unfold distStatusSpecial
  refine isLottery_ite (isLottery_distRolePlay state aiIdx) ?_
  refine isLottery_ite (isLottery_distImprison state aiIdx) ?_
  refine isLottery_ite (isLottery_ite (by norm_num) (by norm_num)) ?_
  refine isLottery_ite (isLottery_distLeechSeed state aiIdx) ?_
  refine isLottery_ite (isLottery_distFinalGambit moves state aiIdx aiFst) ?_
  refine isLottery_ite (isLottery_distSleepMove state aiIdx seesKill) ?_
  refine isLottery_ite (isLottery_ite (by norm_num) (by norm_num)) ?_
  refine isLottery_ite (isLottery_ite (by norm_num) (by norm_num)) ?_
  cases weatherMoveWeathers.lookup moveId with
  | some weather => exact isLottery_ite (by norm_num) (by norm_num)
  | none =>
    refine isLottery_ite (isLottery_distTaunt state aiIdx aiFst) ?_
    refine isLottery_ite (isLottery_distBatonPass state aiIdx) ?_
    refine isLottery_ite (isLottery_distMemento state aiIdx) ?_
    refine isLottery_ite (isLottery_distEncore state aiIdx aiFst) ?_
    refine isLottery_ite (isLottery_distCounter moves state aiIdx _ aiFst) ?_
    exact isLottery_ite (isLottery_distMagnetRise moves state aiIdx aiFst) (by norm_num)

theorem killBonus_nonneg (aiFst : Bool) : 0 ≤ killBonus state aiIdx aiFst := by
  unfold killBonus
  split_ifs <;> norm_num

theorem isLottery_additiveDist {base : Int} (hbase : -50 ≤ base) (md : MoveData) (aiFst : Bool) :
    IsLottery (-50) (additiveDist state aiIdx base md aiFst) := by
  have hbonus := killBonus_nonneg state aiIdx aiFst
  exact isLottery_ite (isLottery_fixedScore.2 (by omega)) (isLottery_fixedScore.2 hbase)

theorem isLottery_explosionDist : IsLottery (-50) (explosionDist state aiIdx) := by
  unfold explosionDist
  dsimp only
  refine ((?_ : IsLottery 0 _).addScore _).mono ?_
  · split_ifs <;> norm_num
  · split <;> norm_num

theorem isLottery_rankDist (highest kills aiFst : Bool) :
    IsLottery 0 (rankDist state aiIdx (if highest then 1 else 0) kills aiFst) := by
  have hbonus := killBonus_nonneg state aiIdx aiFst
  refine isLottery_ite (isLottery_pair.2 ⟨by norm_num, by omega, by omega⟩) ?_
  cases highest <;> norm_num

theorem earlyBonus_nonneg (md : MoveData) (aiFst : Bool) :
    0 ≤ earlyBonus moves state aiIdx md aiFst := by
  unfold earlyBonus
  split_ifs <;> norm_num

theorem isLottery_distFutureSight (md : MoveData) (aiFst : Bool) :
    IsLottery (-50) (distFutureSight moves state aiIdx md aiFst) := by
  have hbonus := killBonus_nonneg state aiIdx aiFst
  refine isLottery_ite (isLottery_fixedScore.2 (by omega)) ?_
  exact isLottery_ite (by norm_num) (by norm_num)

theorem isLottery_distTrapping (md : MoveData) (aiFst : Bool) :
    IsLottery (-50) (distTrapping state aiIdx md aiFst) := by
  have hbonus := killBonus_nonneg state aiIdx aiFst
  exact isLottery_ite (isLottery_fixedScore.2 (by omega)) (by norm_num)

theorem isLottery_pursuitDist (kills aiFst : Bool) {low : Int} {dist : ScoreDist}
    (h : IsLottery low dist) : IsLottery low (pursuitDist state aiIdx kills aiFst dist) := by
  unfold pursuitDist
  dsimp only
  refine ((?_ : IsLottery low _).addScore _).mono (by split <;> omega)
  refine isLottery_ite ((h.addScore 10).mono (by omega)) (isLottery_ite ?_ h)
  exact (h.splitScores (isLottery_pair.2 (by norm_num) : IsLottery 0 _)).mono (by omega)

theorem isLottery_fallbackDist (md : MoveData) (kills aiFst : Bool) {low : Int} {dist : ScoreDist}
    (hlow : low ≤ 0) (h : IsLottery low dist) :
    IsLottery low (fallbackDist moves state aiIdx md kills aiFst dist) := by
  have hfixed : ∀ score : Int, 0 ≤ score → IsLottery low (fixedScore score) :=
    fun score hscore => isLottery_fixedScore.2 (by omega)
  unfold fallbackDist
  dsimp only
  refine isLottery_ite (isLottery_ite (hfixed 6 (by norm_num)) (hfixed 5 (by norm_num))) ?_
  refine isLottery_ite (isLottery_ite (hfixed 6 (by norm_num)) (hfixed 5 (by norm_num))) ?_
  refine isLottery_ite (isLottery_ite (hfixed 0 (by norm_num)) (hfixed 6 (by norm_num))) ?_
  have hground := (h.addScore (if (md.moveId = moveSmackDown ∨ md.moveId = moveThousandArrows) ∧
    (hasType (activeMon state (1 - aiIdx)) typeFlying = true ∨
      (activeMon state (1 - aiIdx)).ability = abLevitate) ∧
    ¬ hasTimedVolatile (activeMon state (1 - aiIdx)) veGrounded = true then 6 else 0)).mono
    (show low ≤ _ by split <;> omega)
  refine isLottery_ite ?_ hground
  exact (hground.splitScores (isLottery_pair.2 (by norm_num) : IsLottery 0 _)).mono (by omega)

theorem isLottery_distRanked (md : MoveData) (highest kills aiFst : Bool) :
    IsLottery (-50)
      (distRanked moves state aiIdx md (if highest then 1 else 0) kills aiFst) := by
  have hearly := earlyBonus_nonneg moves state aiIdx md aiFst
  have hrank := ((isLottery_rankDist state aiIdx highest kills aiFst).addScore
    (earlyBonus moves state aiIdx md aiFst)).mono (show 0 ≤ _ by omega)
  unfold distRanked
  dsimp only
  refine isLottery_ite (isLottery_distFutureSight moves state aiIdx md aiFst) ?_
  refine isLottery_ite (isLottery_distTrapping state aiIdx md aiFst) ?_
  apply isLottery_fallbackDist moves state aiIdx md kills aiFst (by norm_num)
  have hsucker : IsLottery (-50) (if md.moveId = moveSuckerPunch ∧
      (activeMon state aiIdx).suckerPunchLastTurn = true then splitScores [(-20, 1 / 2), (0, 1 / 2)]
        (addScore (earlyBonus moves state aiIdx md aiFst)
          (rankDist state aiIdx (if highest then 1 else 0) kills aiFst))
      else addScore (earlyBonus moves state aiIdx md aiFst)
        (rankDist state aiIdx (if highest then 1 else 0) kills aiFst)) := by
    refine isLottery_ite ?_ (hrank.mono (by norm_num))
    exact (hrank.splitScores (isLottery_pair.2 (by norm_num) : IsLottery (-20) _)).mono
      (by norm_num)
  exact isLottery_ite (isLottery_pursuitDist state aiIdx kills aiFst hsucker) hsucker

theorem isLottery_distDamage (md : MoveData) (highest kills aiFst : Bool) :
    IsLottery (-50)
      (distDamage moves state aiIdx md (if highest then 1 else 0) kills aiFst) := by
  unfold distDamage
  dsimp only
  refine isLottery_ite (by norm_num) ?_
  refine isLottery_ite (isLottery_additiveDist state aiIdx (by split <;> norm_num) md aiFst) ?_
  refine isLottery_ite (isLottery_additiveDist state aiIdx (by split <;> norm_num) md aiFst) ?_
  refine isLottery_ite (isLottery_ite (by norm_num) (by norm_num)) ?_
  refine isLottery_ite (by norm_num) (isLottery_ite (by norm_num) ?_)
  refine isLottery_ite (isLottery_ite (by norm_num) (by norm_num)) ?_
  refine isLottery_ite (by norm_num) (isLottery_ite (by norm_num) (isLottery_ite (by norm_num) ?_))
  refine isLottery_ite (isLottery_explosionDist state aiIdx) ?_
  exact isLottery_distRanked moves state aiIdx md highest kills aiFst

theorem isLottery_distSetupMove (md : MoveData) (aiFst seesKill : Bool) :
    IsLottery (-50) (distSetupMove moves state aiIdx md aiFst seesKill) := by
  have hsetup : ∀ kind, IsLottery (-50)
      (unlessUnaware state aiIdx md.moveId (distSetup moves state aiIdx kind)) :=
    fun kind => isLottery_unlessUnaware state aiIdx md.moveId
      (isLottery_distSetup moves state aiIdx kind)
  unfold distSetupMove
  dsimp only
  refine isLottery_ite (isLottery_distSubstitute state aiIdx) ?_
  refine isLottery_ite (isLottery_distBellyDrum moves state aiIdx) ?_
  refine isLottery_ite (by norm_num) ?_
  refine isLottery_ite (isLottery_distCritSetup moves state aiIdx md.moveId) ?_
  refine isLottery_ite (hsetup .speed) ?_
  refine isLottery_ite (isLottery_distSpecialAttackSetup moves state aiIdx) ?_
  refine isLottery_ite (isLottery_distCoaching state aiIdx) ?_
  refine isLottery_ite (hsetup .offensive) ?_
  refine isLottery_ite (hsetup .defensive) ?_
  refine isLottery_ite (isLottery_distTailwind state aiIdx) ?_
  refine isLottery_ite (isLottery_distTrickRoom state aiIdx) ?_
  refine isLottery_ite (isLottery_distTerrain state aiIdx) ?_
  exact isLottery_distStatusSpecial moves state aiIdx md.moveId aiFst seesKill

theorem isLottery_distMove (md : MoveData) (highest kills aiFst seesKill : Bool) :
    IsLottery (-50)
      (distMove moves state aiIdx md (if highest then 1 else 0) kills aiFst seesKill) := by
  unfold distMove
  dsimp only
  refine isLottery_ite (isLottery_distDamage moves state aiIdx md highest kills aiFst) ?_
  refine isLottery_ite (isLottery_distProtect state aiIdx) ?_
  refine isLottery_ite (isLottery_distRecovery moves state aiIdx _) ?_
  refine isLottery_ite (isLottery_distRecovery moves state aiIdx _) ?_
  refine isLottery_ite (isLottery_distRest moves state aiIdx) ?_
  refine isLottery_ite (isLottery_distHazard state aiIdx md.moveId) ?_
  refine isLottery_ite (isLottery_distScreen moves state aiIdx md.moveId) ?_
  refine isLottery_ite (by norm_num) ?_
  refine isLottery_ite (isLottery_distParalysis state aiIdx md) ?_
  refine isLottery_ite (isLottery_distWillOWisp state aiIdx) ?_
  refine isLottery_ite (isLottery_distPoisonMove moves state aiIdx seesKill) ?_
  exact isLottery_distSetupMove moves state aiIdx md aiFst seesKill

theorem isLottery_distAction (a : ExecAction) (highest kills aiFst seesKill : Bool) :
    IsLottery (-50)
      (distAction moves state aiIdx a (if highest then 1 else 0) kills aiFst seesKill) := by
  unfold distAction
  dsimp only
  refine isLottery_ite (by norm_num) (isLottery_ite (by norm_num) ?_)
  cases moveDataGet moves (moveIdAt (activeMon state aiIdx) a.moveSlot) with
  | none => exact isLottery_fixedScore.2 (by norm_num)
  | some md => exact isLottery_distMove moves state aiIdx md highest kills aiFst seesKill

end Scorer

section SeesKill

variable (moves : List MoveData) (state : BattleState) (aiIdx : Int)

theorem distMove_of_isDamaging {md : MoveData} (h : isDamaging md = true) (pHighest : ℚ)
    (kills aiFst seesKill : Bool) :
    distMove moves state aiIdx md pHighest kills aiFst seesKill =
      distMove moves state aiIdx md pHighest kills aiFst false := by
  rw [distMove, distMove, if_pos h, if_pos h]

theorem isDamaging_of_damageEntry {a : ExecAction} {e : DamageEntry}
    (h : damageEntry moves state aiIdx a = some e) :
    ∃ md, moveDataGet moves (moveIdAt (activeMon state aiIdx) a.moveSlot) = some md ∧
      isDamaging md = true := by
  simp only [damageEntry] at h
  cases hmd : moveDataGet moves (moveIdAt (activeMon state aiIdx) a.moveSlot) with
  | none =>
    simp only [hmd, ite_self] at h
    cases h
  | some md =>
    have hid := moveId_of_moveDataGet hmd
    simp only [hmd] at h
    refine ⟨md, rfl, ?_⟩
    split_ifs at h with _ _ hfixed htag _
    · simp [isDamaging, hid, hfixed]
    · rw [not_or] at htag
      simp [isDamaging, htag.1]

theorem distAction_of_damageEntry {a : ExecAction} {e : DamageEntry}
    (h : damageEntry moves state aiIdx a = some e) (pHighest : ℚ) (kills aiFst seesKill : Bool) :
    distAction moves state aiIdx a pHighest kills aiFst seesKill =
      distAction moves state aiIdx a pHighest kills aiFst false := by
  obtain ⟨md, hmd, hdamaging⟩ := isDamaging_of_damageEntry moves state aiIdx h
  simp only [distAction, hmd]
  rw [distMove_of_isDamaging moves state aiIdx hdamaging]

def Dominated (d e : ScoreDist) : Prop := ∀ s ∈ outcomes d, ∃ t ∈ outcomes e, s ≤ t

theorem dominated_refl (d : ScoreDist) : Dominated d d := fun s hs => ⟨s, hs, le_rfl⟩

theorem dominated_ite {c : Prop} [Decidable c] {d d' e e' : ScoreDist} (h : Dominated d d')
    (h' : Dominated e e') : Dominated (if c then d else e) (if c then d' else e') := by
  split
  · exact h
  · exact h'

theorem dominated_fixedScore {s t : Int} {e : ScoreDist} (ht : t ∈ outcomes e) (h : s ≤ t) :
    Dominated (fixedScore s) e := by
  intro s' hs'
  rw [List.mem_singleton.1 hs']
  exact ⟨t, ht, h⟩

theorem dominated_distPoisonMove (seesKill : Bool) :
    Dominated (distPoisonMove moves state aiIdx seesKill)
      (distPoisonMove moves state aiIdx false) := by
  cases seesKill with
  | false => exact dominated_refl _
  | true =>
    refine dominated_ite (dominated_refl _) (dominated_ite (dominated_refl _) ?_)
    rw [if_neg (by simp)]
    split
    · exact dominated_fixedScore (List.mem_cons_of_mem _ List.mem_cons_self) le_rfl
    · exact dominated_refl _

theorem dominated_distSleepMove (seesKill : Bool) :
    Dominated (distSleepMove state aiIdx seesKill) (distSleepMove state aiIdx false) := by
  cases seesKill with
  | false => exact dominated_refl _
  | true =>
    refine dominated_ite (dominated_refl _) (dominated_ite (dominated_refl _)
      (dominated_ite (dominated_refl _) ?_))
    exact dominated_fixedScore (List.mem_cons_of_mem _ List.mem_cons_self) le_rfl

theorem dominated_distStatusSpecial (moveId : Int32) (aiFst seesKill : Bool) :
    Dominated (distStatusSpecial moves state aiIdx moveId aiFst seesKill)
      (distStatusSpecial moves state aiIdx moveId aiFst false) := by
  unfold distStatusSpecial
  refine dominated_ite (dominated_refl _) (dominated_ite (dominated_refl _)
    (dominated_ite (dominated_refl _) (dominated_ite (dominated_refl _)
    (dominated_ite (dominated_refl _) (dominated_ite ?_ (dominated_refl _))))))
  exact dominated_distSleepMove state aiIdx seesKill

theorem dominated_distSetupMove (md : MoveData) (aiFst seesKill : Bool) :
    Dominated (distSetupMove moves state aiIdx md aiFst seesKill)
      (distSetupMove moves state aiIdx md aiFst false) := by
  have hskip {c : Prop} [Decidable c] {d e e' : ScoreDist} (h : Dominated e e') :
      Dominated (if c then d else e) (if c then d else e') := dominated_ite (dominated_refl d) h
  unfold distSetupMove
  dsimp only
  refine hskip (hskip (hskip (hskip (hskip (hskip (hskip (hskip (hskip (hskip (hskip
    (hskip ?_)))))))))))
  exact dominated_distStatusSpecial moves state aiIdx md.moveId aiFst seesKill

theorem dominated_distAction (a : ExecAction) (pHighest : ℚ) (kills aiFst seesKill : Bool) :
    Dominated (distAction moves state aiIdx a pHighest kills aiFst seesKill)
      (distAction moves state aiIdx a pHighest kills aiFst false) := by
  have hskip {c : Prop} [Decidable c] {d e e' : ScoreDist} (h : Dominated e e') :
      Dominated (if c then d else e) (if c then d else e') := dominated_ite (dominated_refl d) h
  unfold distAction
  refine hskip (hskip ?_)
  cases moveDataGet moves (moveIdAt (activeMon state aiIdx) a.moveSlot) with
  | none => exact dominated_refl _
  | some md =>
    unfold distMove
    dsimp only
    refine hskip (hskip (hskip (hskip (hskip (hskip (hskip (hskip (hskip (hskip
      (dominated_ite ?_ ?_))))))))))
    · exact dominated_distPoisonMove moves state aiIdx seesKill
    · exact dominated_distSetupMove moves state aiIdx md aiFst seesKill

end SeesKill

end Engine

end NuzlockeSolver
