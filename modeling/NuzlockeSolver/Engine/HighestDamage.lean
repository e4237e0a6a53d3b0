import Mathlib.Algebra.BigOperators.Fin
import NuzlockeSolver.Engine.AiConfigs

/-!
# Which move does most

The damage configurations are the joint rolls grouped by the moves that do most, and the
probabilities of the moves are the weights of their configurations, shared within a tie.
-/

namespace NuzlockeSolver

namespace Engine

open WeightedList

section Ties

/-- The weight of a draw that shares with `k` moves already on the level. -/
def tieWeight (k : Nat) (bs : List Bool) : ℚ := 1 / ((k + bs.count true : Nat) : ℚ)

theorem tieWeight_cons (k : Nat) (b : Bool) (bs : List Bool) :
    tieWeight k (b :: bs) = tieWeight (if b then k + 1 else k) bs := by
  cases b with
  | true =>
    rw [tieWeight, tieWeight, List.count_cons_self, if_pos rfl, add_assoc, add_comm 1]
  | false => simp [tieWeight]

theorem avg_tieWeight_eraseIdx {ps : List (ℚ × ℚ)} {j : Nat} {p : ℚ × ℚ} (hj : ps[j]? = some p)
    (k : Nat) :
    avg (drawAll markDraw ps) (fun bs => if bs[j]? = some true then tieWeight k bs else 0) =
      p.1 * avg (drawAll markDraw (ps.eraseIdx j)) (tieWeight (k + 1)) := by
  induction ps generalizing j k with
  | nil => cases hj
  | cons q ps ih =>
    rw [avg_drawAll_cons, markDraw, avg_cons, avg_cons, avg_nil]
    simp only [tieWeight_cons, if_true, Bool.false_eq_true, if_false]
    cases j with
    | zero =>
      cases hj
      simp only [List.getElem?_cons_zero, if_true, Option.some.injEq, Bool.false_eq_true, if_false,
        List.eraseIdx_cons_zero]
      rw [avg_const, mul_zero, mul_zero, add_zero, add_zero]
    | succ j =>
      have hj' : ps[j]? = some p := hj
      simp only [List.getElem?_cons_succ, List.eraseIdx_cons_succ]
      rw [ih hj', ih hj', avg_drawAll_cons, markDraw, avg_cons, avg_cons, avg_nil]
      simp only [tieWeight_cons, if_true, Bool.false_eq_true, if_false]
      ring

def countPair (c : LevelCounts) : ℚ × ℚ := ((c.on : ℚ) / 16, (c.below : ℚ) / 16)

theorem sum_subsets (others : List LevelCounts) (k : Nat) :
    ((List.range (2 ^ others.length)).map fun mask =>
      1 / ((k + (List.range others.length).countP (Nat.testBit mask) : Nat) : ℚ) *
        (others.zipIdx.map fun ck =>
          if Nat.testBit mask ck.2 then (ck.1.on : ℚ) / 16 else (ck.1.below : ℚ) / 16).prod).sum =
      avg (drawAll markDraw (others.map countPair)) (tieWeight k) := by
  induction others generalizing k with
  | nil => simp [tieWeight]
  | cons c others ih =>
    have hbit : ∀ mask b, b < 2 → ∀ i, (2 * mask + b).testBit (i + 1) = mask.testBit i := by
      intro mask b hb i
      rw [Nat.testBit_succ]
      congr 1
      omega
    have hfirst : ∀ mask b, b < 2 → Nat.testBit (2 * mask + b) 0 = decide (b = 1) := by
      intro mask b hb
      rw [Nat.testBit_zero]
      congr 1
      exact propext (by omega)
    have hprod : ∀ mask b, b < 2 →
        ((c :: others).zipIdx.map fun ck => if Nat.testBit (2 * mask + b) ck.2 then
          (ck.1.on : ℚ) / 16 else (ck.1.below : ℚ) / 16).prod =
        (if b = 1 then (countPair c).1 else (countPair c).2) *
          (others.zipIdx.map fun ck => if Nat.testBit mask ck.2 then
            (ck.1.on : ℚ) / 16 else (ck.1.below : ℚ) / 16).prod := by
      intro mask b hb
      rw [List.zipIdx_cons', List.map_cons, List.prod_cons, List.map_map]
      simp only [hfirst mask b hb, decide_eq_true_eq, Function.comp_def, Prod.map_fst, Prod.map_snd,
        id_eq, hbit mask b hb]
      rfl
    have hcount : ∀ mask b, b < 2 →
        (List.range (c :: others).length).countP (Nat.testBit (2 * mask + b)) =
          (if b = 1 then 1 else 0) + (List.range others.length).countP (Nat.testBit mask) := by
      intro mask b hb
      rw [List.length_cons, List.range_succ_eq_map, List.countP_cons, List.countP_map]
      simp only [hfirst mask b hb, decide_eq_true_eq, Function.comp_def, Nat.succ_eq_add_one,
        hbit mask b hb]
      exact add_comm _ _
    rw [List.length_cons, pow_succ', sum_range_double]
    rw [List.map_cons, avg_drawAll_cons, markDraw, avg_cons, avg_cons, avg_nil]
    simp only [tieWeight_cons, if_true, Bool.false_eq_true, if_false]
    rw [← ih, ← ih, ← List.sum_map_mul_left, ← List.sum_map_mul_left, add_zero,
      ← List.sum_map_add]
    refine congrArg List.sum (List.map_congr_left fun mask _ => ?_)
    have h0 := hprod mask 0 (by omega)
    have h1 := hprod mask 1 (by omega)
    have c0 := hcount mask 0 (by omega)
    have c1 := hcount mask 1 (by omega)
    rw [add_zero, if_neg (by omega)] at h0 c0
    rw [if_pos rfl] at h1 c1
    rw [List.length_cons] at c0 c1
    rw [h0, h1, c0, c1, zero_add, ← add_assoc k 1]
    ring

theorem tieShare_eq (others : List LevelCounts) :
    tieShare others = avg (drawAll markDraw (others.map countPair)) (tieWeight 1) :=
  sum_subsets others 1

theorem avg_tieWeight_filter (counts : List LevelCounts) (k : Nat) :
    nonGroupFactor counts *
        avg (drawAll markDraw ((counts.filter (·.on != 0)).map countPair)) (tieWeight k) =
      avg (drawAll markDraw (counts.map countPair)) (tieWeight k) := by
  induction counts generalizing k with
  | nil => simp [nonGroupFactor]
  | cons c counts ih =>
    rw [List.map_cons, avg_drawAll_cons, markDraw, avg_cons, avg_cons, avg_nil]
    simp only [tieWeight_cons, if_true, Bool.false_eq_true, if_false]
    rw [← ih, ← ih]
    by_cases hon : c.on = 0
    · have hfactor : nonGroupFactor (c :: counts) = (countPair c).2 * nonGroupFactor counts := by
        rw [nonGroupFactor, List.filter_cons_of_pos (by simpa using hon), List.map_cons,
          List.prod_cons]
        rfl
      have hzero : (countPair c).1 = 0 := by simp [countPair, hon]
      rw [List.filter_cons_of_neg (by simpa using hon), hfactor, hzero]
      ring
    · have hfactor : nonGroupFactor (c :: counts) = nonGroupFactor counts := by
        rw [nonGroupFactor, List.filter_cons_of_neg (by simpa using hon)]
        rfl
      rw [List.filter_cons_of_pos (by simpa using hon), hfactor, List.map_cons, avg_drawAll_cons,
        markDraw, avg_cons, avg_cons, avg_nil]
      simp only [tieWeight_cons, if_true, Bool.false_eq_true, if_false]
      ring

theorem nonGroupFactor_eraseIdx {counts : List LevelCounts} {j : Nat} {c : LevelCounts}
    (hj : counts[j]? = some c) (hon : c.on ≠ 0) :
    nonGroupFactor (counts.eraseIdx j) = nonGroupFactor counts := by
  induction counts generalizing j with
  | nil => cases hj
  | cons d counts ih =>
    cases j with
    | zero =>
      cases hj
      rw [List.eraseIdx_cons_zero, nonGroupFactor, nonGroupFactor,
        List.filter_cons_of_neg (by simpa using hon)]
    | succ j =>
      have hrest := ih hj
      rw [nonGroupFactor, nonGroupFactor] at hrest
      rw [List.eraseIdx_cons_succ, nonGroupFactor, nonGroupFactor]
      by_cases hd : d.on = 0
      · rw [List.filter_cons_of_pos (by simpa using hd), List.filter_cons_of_pos (by simpa using hd),
          List.map_cons, List.map_cons, List.prod_cons, List.prod_cons, hrest]
      · rw [List.filter_cons_of_neg (by simpa using hd), List.filter_cons_of_neg (by simpa using hd),
          hrest]

theorem on_mul_shareFactor {counts : List LevelCounts} {j : Nat} {c : LevelCounts}
    (hj : counts[j]? = some c) (hon : c.on ≠ 0) :
    (c.on : ℚ) / 16 * shareFactor counts j =
      avg (drawAll markDraw (counts.map countPair))
        (fun bs => if bs[j]? = some true then tieWeight 0 bs else 0) := by
  have hpair : (counts.map countPair)[j]? = some (countPair c) := by
    rw [List.getElem?_map, hj]
    rfl
  rw [avg_tieWeight_eraseIdx hpair, shareFactor, tieShare_eq, ← nonGroupFactor_eraseIdx hj hon,
    avg_tieWeight_filter, List.eraseIdx_map]
  rfl

end Ties

section Levels

variable (hp : Int)

theorem countP_or {α : Type} {p q : α → Bool} (l : List α) (h : ∀ a, p a = true → q a = false) :
    l.countP (fun a => p a || q a) = l.countP p + l.countP q := by
  induction l with
  | nil => rfl
  | cons a l ih =>
    rw [List.countP_cons, List.countP_cons, List.countP_cons, ih]
    cases hp : p a with
    | true => simp [h a hp, add_right_comm]
    | false => simp [add_assoc]

theorem sum_countP {α : Type} {ws : List Int} (h : ws.Nodup) (l : List α) (f : α → Int) :
    (ws.map fun w => l.countP fun a => f a == w).sum = l.countP fun a => decide (f a ∈ ws) := by
  induction ws with
  | nil => simp
  | cons w ws ih =>
    obtain ⟨hw, hws⟩ := List.nodup_cons.1 h
    rw [List.map_cons, List.sum_cons, ih hws, ← countP_or]
    · congr 1
      funext a
      rw [Bool.eq_iff_iff]
      simp only [Bool.or_eq_true, beq_iff_eq, decide_eq_true_eq, List.mem_cons]
    · intro a ha
      rw [beq_iff_eq.1 ha, decide_eq_false_iff_not]
      exact hw

theorem rollsOn_rest {arrays : List RollArray} {v : Int} {pre rest : List Int} {rolls : RollArray}
    (hlevels : damageLevels hp arrays = pre ++ v :: rest) (hrolls : rolls ∈ arrays) :
    rollsOn hp rest rolls = countBelow hp rolls v := by
  have hnodup := nodup_damageLevels hp arrays
  rw [hlevels] at hnodup
  have hrest : rest.Nodup := (List.nodup_cons.1 (List.nodup_append.1 hnodup).2.1).2
  refine (sum_countP hrest (List.finRange 16) (capped hp rolls)).trans ?_
  rw [countBelow, countRolls]
  congr 1
  funext i
  rw [decide_eq_decide]
  exact mem_rest_iff hp hlevels hrolls

theorem countPair_countsBefore {arrays : List RollArray} {v : Int} {pre rest : List Int}
    {rolls : RollArray} (hlevels : damageLevels hp arrays = pre ++ v :: rest)
    (hrolls : rolls ∈ arrays) :
    countPair (countsBefore hp v rest rolls) =
      ((countAt hp rolls v : ℚ) / 16, (countBelow hp rolls v : ℚ) / 16) := by
  rw [countPair, below_countsBefore, rollsOn_rest hp hlevels hrolls]
  rfl

theorem capped_eq_hp {rolls : RollArray} {i : Fin 16} : capped hp rolls i = hp ↔ hp ≤ rolls i :=
  min_eq_right_iff

theorem kill_nokill (v above : Int) (rolls : RollArray) :
    ((levelCounts hp v rolls above).kill, (levelCounts hp v rolls above).nokill) =
      if v = hp then (countAt hp rolls v, 0) else (0, countAt hp rolls v) := by
  have hkill : ∀ i, capped hp rolls i = v → (hp ≤ rolls i ↔ v = hp) := by
    rintro i rfl
    exact (capped_eq_hp hp).symm
  have hcount : ∀ p q : Fin 16 → Bool, (∀ i, p i = q i) → countRolls p = countRolls q :=
    fun p q h => congrArg countRolls (funext h)
  have hnone : countRolls (fun _ => false) = 0 := by simp [countRolls]
  simp only [levelCounts, countAt]
  split
  · rename_i hv
    refine congrArg₂ Prod.mk (hcount _ _ fun i => ?_) ((hcount _ _ fun i => ?_).trans hnone)
    · cases h : capped hp rolls i == v with
      | true => simpa using (hkill i (beq_iff_eq.1 h)).2 hv
      | false => rfl
    · cases h : capped hp rolls i == v with
      | true => simpa using (hkill i (beq_iff_eq.1 h)).2 hv
      | false => rfl
  · rename_i hv
    refine congrArg₂ Prod.mk ((hcount _ _ fun i => ?_).trans hnone) (hcount _ _ fun i => ?_)
    · cases h : capped hp rolls i == v with
      | true => simpa using fun hle => hv ((hkill i (beq_iff_eq.1 h)).1 hle)
      | false => rfl
    · cases h : capped hp rolls i == v with
      | true => simpa using fun hle => hv ((hkill i (beq_iff_eq.1 h)).1 hle)
      | false => rfl

def levelWeight (arrays : List RollArray) (j : Nat) (v : Int) : ℚ :=
  avg (drawAll (levelMark v) (arrays.map (cappedDraw hp)))
    fun bs => if bs[j]? = some true then tieWeight 0 bs else 0

def killPart (kills : Prop) [Decidable kills] (w : ℚ) : ℚ × ℚ := if kills then (w, 0) else (0, w)

theorem levelShare_eq {arrays : List RollArray} {v : Int} {pre rest : List Int} {j : Nat}
    {rolls : RollArray} (hlevels : damageLevels hp arrays = pre ++ v :: rest)
    (hj : arrays[j]? = some rolls) :
    levelShare (arrays.map (countsBefore hp v rest)) j (countsBefore hp v rest rolls) =
      killPart (v = hp) (levelWeight hp arrays j v) := by
  have hrolls := List.mem_of_getElem? hj
  have hcounts : (arrays.map (countsBefore hp v rest))[j]? = some (countsBefore hp v rest rolls) := by
    rw [List.getElem?_map, hj]
    rfl
  have hdraws : drawAll markDraw ((arrays.map (countsBefore hp v rest)).map countPair) =
      drawAll (levelMark v) (arrays.map (cappedDraw hp)) := by
    rw [drawAll_map, drawAll_map, drawAll_map]
    have hpairs : ∀ rs ∈ arrays, markDraw (countPair (countsBefore hp v rest rs)) =
        levelMark v (cappedDraw hp rs) := by
      intro rs hrs
      rw [countPair_countsBefore hp hlevels hrs, levelMark_cappedDraw]
    have hcongr : ∀ l : List RollArray, (∀ rs ∈ l, rs ∈ arrays) →
        drawAll (fun rs => markDraw (countPair (countsBefore hp v rest rs))) l =
          drawAll (fun rs => levelMark v (cappedDraw hp rs)) l := by
      intro l hl
      induction l with
      | nil => rfl
      | cons rs l ih =>
        rw [drawAll, drawAll, hpairs rs (hl rs List.mem_cons_self),
          ih fun r hr => hl r (List.mem_cons_of_mem _ hr)]
    exact hcongr arrays fun _ h => h
  have hkinds := kill_nokill hp v (16 - rollsOn hp (v :: rest) rolls) rolls
  by_cases hon : (countsBefore hp v rest rolls).on = 0
  · have hpair : ((arrays.map (countsBefore hp v rest)).map countPair)[j]? =
        some (countPair (countsBefore hp v rest rolls)) := by
      rw [List.getElem?_map, hcounts]
      rfl
    have hzero : levelWeight hp arrays j v = 0 := by
      rw [levelWeight, ← hdraws, avg_tieWeight_eraseIdx hpair, countPair, hon]
      simp
    rw [levelShare, if_pos hon, hzero, killPart]
    split <;> rfl
  · have hweight := on_mul_shareFactor hcounts hon
    rw [hdraws] at hweight
    rw [levelShare_of_on hon, levelWeight, ← hweight, killPart]
    change ((levelCounts hp v rolls _).kill, (levelCounts hp v rolls _).nokill) = _ at hkinds
    split at hkinds
    · rename_i hv
      obtain ⟨hkill, hnokill⟩ := Prod.mk.inj hkinds
      rw [if_pos hv, countsBefore, hkill, hnokill, Nat.cast_zero, zero_div, zero_mul]
      rfl
    · rename_i hv
      obtain ⟨hkill, hnokill⟩ := Prod.mk.inj hkinds
      rw [if_neg hv, countsBefore, hkill, hnokill, Nat.cast_zero, zero_div, zero_mul]
      rfl

theorem getElem?_foldl_highestStep {arrays : List RollArray} {j : Nat} {rolls : RollArray}
    (hj : arrays[j]? = some rolls) {pre levels : List Int}
    (hlevels : damageLevels hp arrays = pre ++ levels) {st : HighestState} {p : ℚ × ℚ}
    (h : AboveBefore hp arrays levels st) (hp' : st.probs[j]? = some p) :
    (levels.foldl (highestStep hp arrays) st).probs[j]? =
      some (p + (levels.map fun v => killPart (v = hp) (levelWeight hp arrays j v)).sum) := by
  induction levels generalizing pre st p with
  | nil => simpa using hp'
  | cons v levels ih =>
    have hstep := getElem?_highestStep hp h hj hp'
    rw [levelShare_eq hp hlevels hj] at hstep
    have hlevels' : damageLevels hp arrays = (pre ++ [v]) ++ levels := by
      rw [hlevels, List.append_assoc]
      rfl
    rw [List.foldl_cons, ih hlevels' (aboveBefore_highestStep hp h) hstep, List.map_cons,
      List.sum_cons, add_assoc]

end Levels

section Configs

variable (hp : Int)

/-- The share of a move in a configuration, with or without a kill. -/
def highestShare (j : Nat) (cfg : DamageConfig) : ℚ × ℚ :=
  if cfg.isHighest[j]? = some true then
    killPart (cfg.kills[j]? = some true) (cfg.weight / (cfg.isHighest.count true : Nat))
  else (0, 0)

theorem sum_killPart {α : Type} (kills : Prop) [Decidable kills] (l : List α) (f : α → ℚ) :
    (l.map fun a => killPart kills (f a)).sum = killPart kills (l.map f).sum := by
  induction l with
  | nil =>
    rw [List.map_nil, List.map_nil, List.sum_nil, List.sum_nil, killPart]
    split <;> rfl
  | cons a l ih =>
    rw [List.map_cons, List.map_cons, List.sum_cons, List.sum_cons, ih, killPart, killPart,
      killPart]
    split <;> simp

theorem mem_levelConfigs {arrays : List RollArray} {v : Int} {cfg : DamageConfig}
    (h : cfg ∈ levelConfigs arrays hp v) :
    cfg.kills = cfg.isHighest.map (fun b => b && v == hp) ∧ true ∈ cfg.isHighest ∧
      cfg.weight ≠ 0 := by
  obtain ⟨hmem, hweight⟩ := List.mem_filter.1 h
  obtain ⟨mask, hmask, rfl⟩ := List.mem_map.1 hmem
  have hrange := List.mem_range'_1.1 hmask
  refine ⟨rfl, (true_mem_inHighest ?_).2 ?_, by simpa using hweight⟩
  · omega
  · omega

theorem highestShare_of_level {arrays : List RollArray} {v : Int} (j : Nat) {cfg : DamageConfig}
    (h : cfg ∈ levelConfigs arrays hp v) :
    highestShare j cfg = killPart (v = hp) (cfg.weight *
      if cfg.isHighest[j]? = some true then tieWeight 0 cfg.isHighest else 0) := by
  obtain ⟨hkills, -, -⟩ := mem_levelConfigs hp h
  rw [highestShare]
  split
  · rename_i hbit
    have hflag : cfg.kills[j]? = some true ↔ v = hp := by
      rw [hkills, List.getElem?_map, hbit, Option.map_some, Option.some.injEq, Bool.true_and,
        beq_iff_eq]
    rw [killPart, killPart, tieWeight, Nat.zero_add, mul_one_div]
    simp only [hflag]
  · rw [mul_zero, killPart]
    split <;> rfl

theorem sum_highestShare_level (arrays : List RollArray) (j : Nat) (v : Int) :
    ((levelConfigs arrays hp v).map (highestShare j)).sum =
      killPart (v = hp) (levelWeight hp arrays j v) := by
  rw [List.map_congr_left fun cfg hcfg => highestShare_of_level hp j hcfg, sum_killPart,
    sum_levelConfigs hp arrays v fun bs _ => if bs[j]? = some true then tieWeight 0 bs else 0]
  congr 1
  apply avg_congr
  intro bw _
  by_cases hbit : bw.1[j]? = some true
  · rw [if_pos (List.mem_of_getElem? hbit)]
  · simp [hbit]

theorem sum_highestShare (arrays : List RollArray) (j : Nat) :
    ((iterDamageConfigs arrays hp).map (highestShare j)).sum =
      ((damageLevels hp arrays).map fun v =>
        killPart (v = hp) (levelWeight hp arrays j v)).sum := by
  rw [iterDamageConfigs, List.map_flatMap, List.flatMap_def, List.sum_flatten, List.map_map]
  exact congrArg List.sum (List.map_congr_left fun v _ => sum_highestShare_level hp arrays j v)

theorem foldl_highestStep_eq {arrays : List RollArray} {j : Nat} (hj : j < arrays.length) :
    ((damageLevels hp arrays).foldl (highestStep hp arrays)
      ⟨arrays.map fun _ => 0, arrays.map fun _ => (0, 0)⟩).probs[j]? =
      some ((iterDamageConfigs arrays hp).map (highestShare j)).sum := by
  have hrolls : arrays[j]? = some arrays[j] := List.getElem?_eq_getElem hj
  have hzero : (arrays.map fun _ => ((0 : ℚ), (0 : ℚ)))[j]? = some 0 := by
    rw [List.getElem?_map, hrolls]
    rfl
  rw [getElem?_foldl_highestStep hp hrolls (List.nil_append _).symm (aboveBefore_start hp arrays)
    hzero, zero_add, sum_highestShare]

theorem levelWeight_single (rolls : RollArray) (v : Int) :
    levelWeight hp [rolls] 0 v = (countAt hp rolls v : ℚ) / 16 := by
  rw [levelWeight, List.map_cons, avg_drawAll_cons, levelMark_cappedDraw, markDraw]
  simp [tieWeight]

theorem sum_levels_single (rolls : RollArray) {p : Int → Bool} :
    ((damageLevels hp [rolls]).map fun v => if p v then (countAt hp rolls v : ℚ) / 16 else 0).sum =
      (countRolls fun i => p (capped hp rolls i) : ℚ) / 16 := by
  have hmem : ∀ i, capped hp rolls i ∈ damageLevels hp [rolls] := fun i =>
    (mem_damageLevels hp).2 ⟨rolls, List.mem_singleton_self _, i, rfl⟩
  have hnodup : ((damageLevels hp [rolls]).filter p).Nodup :=
    (nodup_damageLevels hp [rolls]).filter _
  have hcount := sum_countP hnodup (List.finRange 16) (capped hp rolls)
  have hsum : ((damageLevels hp [rolls]).map fun v =>
      if p v then (countAt hp rolls v : ℚ) / 16 else 0).sum =
      ((((damageLevels hp [rolls]).filter p).map fun v => countAt hp rolls v).sum : ℚ) / 16 := by
    generalize damageLevels hp [rolls] = levels
    induction levels with
    | nil => simp
    | cons v levels ih =>
      cases hv : p v with
      | true => simp [hv, ih, add_div]
      | false => simp [hv, ih]
  rw [hsum]
  congr 1
  refine (congrArg (Nat.cast : Nat → ℚ) hcount).trans ?_
  rw [countRolls]
  congr 2
  funext i
  simp [hmem i]

theorem highestDamageProbs_single (rolls : RollArray) :
    highestDamageProbs hp [rolls] =
      [((iterDamageConfigs [rolls] hp).map (highestShare 0)).sum] := by
  have hkill := sum_levels_single hp rolls (p := fun v => v == hp)
  have hlive := sum_levels_single hp rolls (p := fun v => !(v == hp))
  have hsum : ((iterDamageConfigs [rolls] hp).map (highestShare 0)).sum =
      ((countRolls fun i => capped hp rolls i == hp : ℚ) / 16,
        (countRolls fun i => !(capped hp rolls i == hp) : ℚ) / 16) := by
    rw [sum_highestShare, ← hkill, ← hlive]
    generalize damageLevels hp [rolls] = levels
    induction levels with
    | nil => rfl
    | cons v levels ih =>
      rw [List.map_cons, List.sum_cons, ih, levelWeight_single, List.map_cons, List.map_cons,
        List.sum_cons, List.sum_cons, killPart]
      by_cases hv : v = hp <;> simp [hv]
  have hall : (countRolls fun i => capped hp rolls i == hp) +
      (countRolls fun i => !(capped hp rolls i == hp)) = 16 := by
    rw [countRolls, countRolls, ← countP_or]
    · simp
    · intro i hi
      rw [hi, Bool.not_true]
  have hfast : countRolls (fun i => decide (hp ≤ rolls i)) =
      countRolls fun i => capped hp rolls i == hp := by
    congr 1
    funext i
    rw [Bool.eq_iff_iff, decide_eq_true_eq, beq_iff_eq, capped_eq_hp]
  have hcast : ((countRolls fun i => capped hp rolls i == hp : Nat) : ℚ) +
      (countRolls fun i => !(capped hp rolls i == hp) : Nat) = 16 := by
    exact_mod_cast hall
  have hrest : (1 : ℚ) - (countRolls fun i => capped hp rolls i == hp : Nat) / 16 =
      (countRolls fun i => !(capped hp rolls i == hp) : Nat) / 16 := by
    linarith
  rw [hsum, highestDamageProbs, hfast, hrest]

end Configs

section Joint

variable (hp : Int) (arrays : List RollArray)

abbrev JointRoll (arrays : List RollArray) := Fin arrays.length → Fin 16

/-- The capped damages have the maximum `v`, and have it exactly on `H`. -/
def MaxExactlyOn (H : Finset (Fin arrays.length)) (v : Int) (r : JointRoll arrays) : Prop :=
  ∀ j, if j ∈ H then capped hp (arrays.get j) (r j) = v else capped hp (arrays.get j) (r j) < v

instance (H : Finset (Fin arrays.length)) (v : Int) : DecidablePred (MaxExactlyOn hp arrays H v) :=
  fun _ => inferInstanceAs (Decidable (∀ _, _))

/-- The fraction of the joint rolls with this maximum on these moves. -/
def jointFraction (H : Finset (Fin arrays.length)) (v : Int) : ℚ :=
  ((Finset.univ.filter (MaxExactlyOn hp arrays H v)).card : ℚ) / 16 ^ arrays.length

def marksOf {n : Nat} (H : Finset (Fin n)) : List Bool := List.ofFn fun j => decide (j ∈ H)

theorem card_filter_univ (p : Fin 16 → Bool) :
    (Finset.univ.filter fun i => p i = true).card = countRolls p := by
  rw [Finset.card_def, Finset.filter_val, Fin.univ_def, Multiset.filter_coe, Multiset.coe_card,
    countRolls, List.countP_eq_length_filter]
  simp

theorem avg_marks (f : RollArray → ℚ × ℚ) (b : Fin arrays.length → Bool) :
    avg (drawAll (fun rolls => markDraw (f rolls)) arrays)
        (fun bs => if bs = List.ofFn b then 1 else 0) =
      ∏ j, if b j then (f (arrays.get j)).1 else (f (arrays.get j)).2 := by
  induction arrays with
  | nil => simp
  | cons rolls arrays ih =>
    have htail := ih fun j => b j.succ
    rw [avg_drawAll_cons, markDraw, avg_cons, avg_cons, avg_nil]
    simp only [List.length_cons, List.ofFn_succ, List.cons.injEq]
    rw [Fin.prod_univ_succ]
    cases h : b 0 with
    | true =>
      simp only [true_and, Bool.false_eq_true, false_and, if_false, avg_const, mul_zero, add_zero,
        htail]
      rfl
    | false =>
      simp only [true_and, Bool.true_eq_false, false_and, if_false, avg_const, mul_zero, add_zero,
        zero_add, htail]
      rfl

theorem jointFraction_eq (H : Finset (Fin arrays.length)) (v : Int) :
    jointFraction hp arrays H v = ∏ j, if j ∈ H then (countAt hp (arrays.get j) v : ℚ) / 16
      else (countBelow hp (arrays.get j) v : ℚ) / 16 := by
  have hset : Finset.univ.filter (MaxExactlyOn hp arrays H v) =
      Fintype.piFinset fun j => Finset.univ.filter fun i =>
        (if j ∈ H then capped hp (arrays.get j) i == v
          else decide (capped hp (arrays.get j) i < v)) = true := by
    ext r
    simp only [Finset.mem_filter, Finset.mem_univ, true_and, Fintype.mem_piFinset, MaxExactlyOn]
    refine forall_congr' fun j => ?_
    split <;> simp
  have hcard : ∀ j, (Finset.univ.filter fun i =>
      (if j ∈ H then capped hp (arrays.get j) i == v
        else decide (capped hp (arrays.get j) i < v)) = true).card =
      if j ∈ H then countAt hp (arrays.get j) v else countBelow hp (arrays.get j) v := by
    intro j
    rw [card_filter_univ]
    split <;> rfl
  rw [jointFraction, hset, Fintype.card_piFinset]
  simp only [hcard]
  have hpow : (16 : ℚ) ^ arrays.length = ∏ _j : Fin arrays.length, (16 : ℚ) := by
    rw [Finset.prod_const, Finset.card_univ, Fintype.card_fin]
  rw [hpow, Nat.cast_prod, ← Finset.prod_div_distrib]
  refine Finset.prod_congr rfl fun j _ => ?_
  split <;> rfl

theorem true_mem_marksOf {n : Nat} {H : Finset (Fin n)} (hH : H.Nonempty) : true ∈ marksOf H := by
  obtain ⟨j, hj⟩ := hH
  exact List.mem_ofFn.2 ⟨j, decide_eq_true hj⟩

theorem sum_weight_marksOf {H : Finset (Fin arrays.length)} (hH : H.Nonempty) (v : Int) :
    ((levelConfigs arrays hp v).map fun cfg =>
      cfg.weight * if cfg.isHighest = marksOf H then 1 else 0).sum =
      jointFraction hp arrays H v := by
  have hlevel := sum_levelConfigs hp arrays v fun bs _ => if bs = marksOf H then 1 else 0
  rw [hlevel, jointFraction_eq]
  have hmarks := avg_marks arrays
    (fun rolls => ((countAt hp rolls v : ℚ) / 16, (countBelow hp rolls v : ℚ) / 16))
    fun j => decide (j ∈ H)
  simp only [decide_eq_true_eq] at hmarks
  rw [← hmarks, drawAll_map]
  simp only [levelMark_cappedDraw]
  apply avg_congr
  intro bw _
  by_cases hbs : bw.1 = marksOf H
  · rw [if_pos (hbs ▸ true_mem_marksOf hH), if_pos hbs]
    exact (if_pos hbs).symm
  · rw [if_neg hbs, ite_self]
    exact (if_neg hbs).symm

theorem inHighest_inj {ps : List ℚ} {mask mask' : Nat} (h : mask < 2 ^ ps.countP (0 < ·))
    (h' : mask' < 2 ^ ps.countP (0 < ·)) (heq : inHighest ps mask = inHighest ps mask') :
    mask = mask' := by
  induction ps generalizing mask mask' with
  | nil =>
    rw [List.countP_nil, pow_zero] at h h'
    omega
  | cons p ps ih =>
    by_cases hp : p > 0
    · rw [List.countP_cons_of_pos (by simpa using hp), pow_succ'] at h h'
      rw [inHighest, inHighest, if_pos hp, if_pos hp] at heq
      obtain ⟨hbit, hrest⟩ := List.cons.inj heq
      have hhalf := ih (by omega) (by omega) hrest
      rw [Nat.testBit_zero, Nat.testBit_zero, decide_eq_decide] at hbit
      omega
    · rw [List.countP_cons_of_neg (by simpa using not_lt.1 hp)] at h h'
      rw [inHighest, inHighest, if_neg hp, if_neg hp] at heq
      exact ih h h' (List.cons.inj heq).2

theorem nodup_isHighest (v : Int) : ((levelConfigs arrays hp v).map (·.isHighest)).Nodup := by
  have hmasks : ∀ ps : List ℚ,
      ((List.range' 1 (2 ^ ps.countP (0 < ·) - 1)).map (inHighest ps)).Nodup := by
    intro ps
    apply List.Nodup.map_on _ List.nodup_range'
    intro mask hmask mask' hmask' heq
    have hlt := List.mem_range'_1.1 hmask
    have hlt' := List.mem_range'_1.1 hmask'
    exact inHighest_inj (by omega) (by omega) heq
  rw [levelConfigs]
  refine ((List.filter_sublist.map _).nodup ?_)
  rw [List.map_map]
  exact hmasks _

theorem exists_marksOf {v : Int} {cfg : DamageConfig} (h : cfg ∈ levelConfigs arrays hp v) :
    ∃ H : Finset (Fin arrays.length), H.Nonempty ∧ cfg.isHighest = marksOf H := by
  obtain ⟨-, htrue, -⟩ := mem_levelConfigs hp h
  have hlen : cfg.isHighest.length = arrays.length := by
    obtain ⟨mask, -, rfl⟩ := List.mem_map.1 (List.mem_filter.1 h).1
    rw [length_inHighest, List.length_map]
  have hmarks : cfg.isHighest = marksOf (Finset.univ.filter fun j : Fin arrays.length =>
      cfg.isHighest.getD j false = true) := by
    refine List.ext_getElem (by rw [marksOf, List.length_ofFn, hlen]) fun j hj hj' => ?_
    simp [marksOf, List.getElem?_eq_getElem hj]
  refine ⟨_, ?_, hmarks⟩
  obtain ⟨j, hj, hbit⟩ := List.mem_iff_getElem.1 htrue
  exact ⟨⟨j, hlen ▸ hj⟩, by simp [List.getElem?_eq_getElem hj, hbit]⟩

/-- A set has one configuration at a level where some joint roll has it, and none elsewhere. -/
theorem filter_levelConfigs {H : Finset (Fin arrays.length)} (hH : H.Nonempty) (v : Int) :
    (levelConfigs arrays hp v).filter (·.isHighest == marksOf H) =
      if jointFraction hp arrays H v = 0 then []
      else [⟨jointFraction hp arrays H v, marksOf H, (marksOf H).map fun b => b && v == hp⟩] := by
  have hsum := sum_weight_marksOf hp arrays hH v
  have hnodup := nodup_isHighest hp arrays v
  have hmem : ∀ cfg ∈ (levelConfigs arrays hp v).filter (·.isHighest == marksOf H),
      cfg.kills = (marksOf H).map (fun b => b && v == hp) ∧ cfg.isHighest = marksOf H ∧
        cfg.weight ≠ 0 := by
    intro cfg hcfg
    obtain ⟨hlevel, hset⟩ := List.mem_filter.1 hcfg
    obtain ⟨hkills, -, hweight⟩ := mem_levelConfigs hp hlevel
    rw [beq_iff_eq.1 hset] at hkills
    exact ⟨hkills, beq_iff_eq.1 hset, hweight⟩
  have hfilter : (((levelConfigs arrays hp v).filter (·.isHighest == marksOf H)).map
      (·.weight)).sum = jointFraction hp arrays H v := by
    rw [← hsum]
    generalize levelConfigs arrays hp v = cfgs
    induction cfgs with
    | nil => rfl
    | cons cfg cfgs ih =>
      by_cases hset : cfg.isHighest = marksOf H
      · rw [List.filter_cons_of_pos (by simpa using hset), List.map_cons, List.sum_cons, ih,
          List.map_cons, List.sum_cons, if_pos hset, mul_one]
      · rw [List.filter_cons_of_neg (by simpa using hset), ih, List.map_cons, List.sum_cons,
          if_neg hset, mul_zero, zero_add]
  have hsub : (((levelConfigs arrays hp v).filter (·.isHighest == marksOf H)).map
      (·.isHighest)).Nodup := (List.filter_sublist.map _).nodup hnodup
  generalize (levelConfigs arrays hp v).filter (·.isHighest == marksOf H) = found at *
  match found, hmem, hfilter, hsub with
  | [], _, hfilter, _ =>
    exact (if_pos hfilter.symm).symm
  | [cfg], hmem, hfilter, _ =>
    obtain ⟨hkills, hset, hweight⟩ := hmem cfg (List.mem_singleton_self _)
    rw [List.map_cons, List.map_nil, List.sum_singleton] at hfilter
    rw [if_neg (hfilter ▸ hweight), ← hfilter, ← hset]
    rw [← hset] at hkills
    rw [← hkills]
  | cfg :: cfg' :: found, hmem, _, hsub =>
    have hset := (hmem cfg List.mem_cons_self).2.1
    have hset' := (hmem cfg' (List.mem_cons_of_mem _ List.mem_cons_self)).2.1
    refine absurd (List.nodup_cons.1 hsub).1 (not_not.2 ?_)
    exact List.mem_cons.2 (.inl (hset.trans hset'.symm))

theorem jointFraction_off_levels {H : Finset (Fin arrays.length)} (hH : H.Nonempty) {v : Int}
    (hv : v ∉ damageLevels hp arrays) : jointFraction hp arrays H v = 0 := by
  rw [jointFraction, Finset.filter_eq_empty_iff.2, Finset.card_empty, Nat.cast_zero, zero_div]
  intro r _ hmax
  obtain ⟨j, hj⟩ := hH
  have hlevel := hmax j
  rw [if_pos hj] at hlevel
  exact hv ((mem_damageLevels hp).2 ⟨arrays.get j, List.get_mem _ _, r j, hlevel⟩)

theorem mass_rollDraw (rolls : RollArray) : mass (rollDraw rolls) = 1 := by
  rw [mass_eq_avg, rollDraw, avg_map _ rolls, avg_uniform, List.map_const', List.sum_replicate,
    List.length_finRange]
  norm_num

theorem sum_weight (harrays : arrays ≠ []) :
    ((iterDamageConfigs arrays hp).map (·.weight)).sum = 1 := by
  have hall := sum_iterDamageConfigs hp harrays fun _ _ => 1
  simp only [mul_one] at hall
  rw [hall, ← mass_eq_avg]
  exact mass_drawAll fun rolls _ => mass_rollDraw rolls

theorem length_foldl_highestStep (levels : List Int) (st : HighestState)
    (habove : st.above.length = arrays.length) (hprobs : st.probs.length = arrays.length) :
    (levels.foldl (highestStep hp arrays) st).probs.length = arrays.length := by
  induction levels generalizing st with
  | nil => exact hprobs
  | cons v levels ih =>
    apply ih
    · simp [highestStep, habove]
    · simp [highestStep, habove, hprobs]

theorem highestDamageProbs_eq (harrays : arrays ≠ []) :
    highestDamageProbs hp arrays =
      (List.range arrays.length).map fun j =>
        ((iterDamageConfigs arrays hp).map (highestShare j)).sum := by
  match arrays, harrays with
  | [rolls], _ => exact highestDamageProbs_single hp rolls
  | r :: r' :: arrays, _ =>
    rw [highestDamageProbs]
    · apply List.ext_getElem?
      intro j
      by_cases hj : j < (r :: r' :: arrays).length
      · rw [foldl_highestStep_eq hp hj, List.getElem?_map, List.getElem?_range hj]
        rfl
      · rw [List.getElem?_eq_none, List.getElem?_eq_none]
        · simpa using hj
        · rw [length_foldl_highestStep]
          · exact not_lt.1 hj
          · exact List.length_map _
          · exact List.length_map _
    · exact nofun
    · exact nofun

/-- The configurations are the joint rolls by their maximum and the moves that have it, and the
probabilities of the moves are their shares of them. -/
theorem highestDamage_law (harrays : arrays ≠ []) :
    ((iterDamageConfigs arrays hp).map (·.weight)).sum = 1 ∧
      (damageLevels hp arrays).Nodup ∧
      iterDamageConfigs arrays hp = (damageLevels hp arrays).flatMap (levelConfigs arrays hp) ∧
      (∀ v, ∀ cfg ∈ levelConfigs arrays hp v,
        ∃ H : Finset (Fin arrays.length), H.Nonempty ∧ cfg.isHighest = marksOf H) ∧
      (∀ H : Finset (Fin arrays.length), H.Nonempty → ∀ v,
        (v ∉ damageLevels hp arrays → jointFraction hp arrays H v = 0) ∧
        (levelConfigs arrays hp v).filter (·.isHighest == marksOf H) =
          if jointFraction hp arrays H v = 0 then []
          else [⟨jointFraction hp arrays H v, marksOf H,
            (marksOf H).map fun b => b && v == hp⟩]) ∧
      highestDamageProbs hp arrays = (List.range arrays.length).map fun j =>
        ((iterDamageConfigs arrays hp).map (highestShare j)).sum :=
  ⟨sum_weight hp arrays harrays, nodup_damageLevels hp arrays, rfl,
    fun _ _ hcfg => exists_marksOf hp arrays hcfg,
    fun _ hH v => ⟨jointFraction_off_levels hp arrays hH, filter_levelConfigs hp arrays hH v⟩,
    highestDamageProbs_eq hp arrays harrays⟩

def twoMoves : List RollArray := [fun i => 5 + (i : Nat), fun _ => 12]

theorem twoMoves_law :
    ((iterDamageConfigs twoMoves 12).map (·.weight)).sum = 1 ∧
      highestDamageProbs 12 twoMoves = (List.range 2).map fun j =>
        ((iterDamageConfigs twoMoves 12).map (highestShare j)).sum := by
  obtain ⟨hsum, -, -, -, -, hprobs⟩ := highestDamage_law 12 twoMoves (List.cons_ne_nil _ _)
  exact ⟨hsum, hprobs⟩

end Joint

end Engine

end NuzlockeSolver
