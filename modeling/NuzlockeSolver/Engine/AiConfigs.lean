import Mathlib.Algebra.Order.BigOperators.GroupWithZero.List
import Mathlib.Algebra.Order.Monoid.Prod
import Mathlib.Data.Nat.Bitwise
import NuzlockeSolver.Draws
import NuzlockeSolver.Engine.AiPolicy

/-!
# Damage configurations and drawn rolls

The configurations of `cpp_iter_damage_configs` carry the law of which moves do most and which of
these kill, when each damaging move draws one of its sixteen rolls.
-/

namespace NuzlockeSolver

namespace Engine

open WeightedList

section Masks

theorem sum_map_filter {α : Type} {p : α → Bool} {f : α → ℚ} {l : List α}
    (h : ∀ a ∈ l, p a = false → f a = 0) : ((l.filter p).map f).sum = (l.map f).sum := by
  induction l with
  | nil => rfl
  | cons a l ih =>
    have hl : ((l.filter p).map f).sum = (l.map f).sum :=
      ih fun b hb => h b (List.mem_cons_of_mem _ hb)
    cases hp : p a with
    | true => rw [List.filter_cons_of_pos hp, List.map_cons, List.sum_cons, hl, List.map_cons,
        List.sum_cons]
    | false => rw [List.filter_cons_of_neg (by simp [hp]), hl, List.map_cons, List.sum_cons,
        h a List.mem_cons_self hp, zero_add]

theorem sum_range_double (f : Nat → ℚ) (n : Nat) :
    ((List.range (2 * n)).map f).sum =
      ((List.range n).map fun m => f (2 * m) + f (2 * m + 1)).sum := by
  induction n with
  | zero => rfl
  | succ n ih =>
    rw [Nat.mul_succ, List.range_succ, List.range_succ, List.range_succ]
    simp only [List.map_append, List.sum_append, List.map_cons, List.map_nil, List.sum_cons,
      List.sum_nil, ih]
    ring

def markDraw (p : ℚ × ℚ) : List (Bool × ℚ) := [(true, p.1), (false, p.2)]

theorem configWeight_cons (p : ℚ × ℚ) (ps : List (ℚ × ℚ)) (b : Bool) (bs : List Bool) :
    configWeight ((p :: ps).map (·.1)) ((p :: ps).map (·.2)) (b :: bs) =
      (if b then p.1 else p.2) * configWeight (ps.map (·.1)) (ps.map (·.2)) bs := by
  simp only [configWeight, List.map_cons, List.zip_cons_cons, List.prod_cons]

theorem sum_masks {ps : List (ℚ × ℚ)} (hps : ∀ p ∈ ps, 0 ≤ p.1) (g : List Bool → ℚ) :
    ((List.range (2 ^ (ps.map (·.1)).countP (0 < ·))).map fun mask =>
      configWeight (ps.map (·.1)) (ps.map (·.2)) (inHighest (ps.map (·.1)) mask) *
        g (inHighest (ps.map (·.1)) mask)).sum = avg (drawAll markDraw ps) g := by
  induction ps generalizing g with
  | nil => simp [inHighest, configWeight]
  | cons p ps ih =>
    have hps' : ∀ q ∈ ps, 0 ≤ q.1 := fun q hq => hps q (List.mem_cons_of_mem _ hq)
    rw [avg_drawAll_cons, markDraw, avg_cons, avg_cons, avg_nil, add_zero, ← ih hps', ← ih hps']
    by_cases hp : 0 < p.1
    · have hcount : ((p :: ps).map (·.1)).countP (0 < ·) = (ps.map (·.1)).countP (0 < ·) + 1 := by
        rw [List.map_cons, List.countP_cons_of_pos (by simpa using hp)]
      have hin : ∀ mask, inHighest ((p :: ps).map (·.1)) mask =
          mask.testBit 0 :: inHighest (ps.map (·.1)) (mask / 2) := by
        intro mask
        rw [List.map_cons, inHighest, if_pos hp]
      rw [hcount, pow_succ', sum_range_double, ← List.sum_map_mul_left, ← List.sum_map_mul_left,
        ← List.sum_map_add]
      refine congrArg List.sum (List.map_congr_left fun mask _ => ?_)
      have heven : (2 * mask).testBit 0 = false := by simp
      have hodd : (2 * mask + 1).testBit 0 = true := by simp
      have hhalf : (2 * mask + 1) / 2 = mask := by omega
      rw [hin, hin, heven, hodd, hhalf, Nat.mul_div_cancel_left _ two_pos, configWeight_cons,
        configWeight_cons, if_pos rfl, if_neg Bool.false_ne_true]
      ring
    · have hzero : p.1 = 0 := le_antisymm (not_lt.1 hp) (hps p List.mem_cons_self)
      have hcount : ((p :: ps).map (·.1)).countP (0 < ·) = (ps.map (·.1)).countP (0 < ·) := by
        rw [List.map_cons, List.countP_cons_of_neg (by simpa using not_lt.1 hp)]
      rw [hcount, hzero, zero_mul, zero_add, ← List.sum_map_mul_left]
      refine congrArg List.sum (List.map_congr_left fun mask _ => ?_)
      have hin : inHighest ((p :: ps).map (·.1)) mask = false :: inHighest (ps.map (·.1)) mask := by
        rw [List.map_cons, inHighest, if_neg hp]
      rw [hin, configWeight_cons, if_neg Bool.false_ne_true, mul_assoc]

theorem length_inHighest (ps : List ℚ) (mask : Nat) : (inHighest ps mask).length = ps.length := by
  induction ps generalizing mask with
  | nil => rfl
  | cons p ps ih =>
    rw [inHighest]
    split <;> rw [List.length_cons, List.length_cons, ih]

theorem true_mem_inHighest {ps : List ℚ} {mask : Nat} (h : mask < 2 ^ ps.countP (0 < ·)) :
    true ∈ inHighest ps mask ↔ mask ≠ 0 := by
  induction ps generalizing mask with
  | nil =>
    have hzero : mask = 0 := by simpa using h
    simp [inHighest, hzero]
  | cons p ps ih =>
    rw [inHighest]
    by_cases hp : p > 0
    · rw [List.countP_cons_of_pos (by simpa using hp), pow_succ'] at h
      rw [if_pos hp, List.mem_cons, ih (by omega)]
      have hbit : true = mask.testBit 0 ↔ mask % 2 = 1 := by
        rw [eq_comm, Nat.testBit_zero, decide_eq_true_eq]
      rw [hbit]
      omega
    · rw [List.countP_cons_of_neg (by simpa using not_lt.1 hp)] at h
      rw [if_neg hp, List.mem_cons, ih h]
      simp

theorem sum_nonempty_masks {ps : List (ℚ × ℚ)} (hps : ∀ p ∈ ps, 0 ≤ p.1) (g : List Bool → ℚ) :
    ((List.range' 1 (2 ^ (ps.map (·.1)).countP (0 < ·) - 1)).map fun mask =>
      configWeight (ps.map (·.1)) (ps.map (·.2)) (inHighest (ps.map (·.1)) mask) *
        g (inHighest (ps.map (·.1)) mask)).sum =
      avg (drawAll markDraw ps) fun bs => if true ∈ bs then g bs else 0 := by
  rw [← sum_masks hps]
  have hrange : List.range (2 ^ (ps.map (·.1)).countP (0 < ·)) =
      0 :: List.range' 1 (2 ^ (ps.map (·.1)).countP (0 < ·) - 1) := by
    obtain ⟨n, hn⟩ := Nat.exists_eq_succ_of_ne_zero
      (pow_ne_zero ((ps.map (·.1)).countP (0 < ·)) (two_ne_zero (α := Nat)))
    rw [hn, List.range_eq_range', List.range'_succ, Nat.succ_sub_one]
  have hfirst : ¬ true ∈ inHighest (ps.map (·.1)) 0 := by
    rw [true_mem_inHighest (Nat.two_pow_pos _)]
    exact fun h => h rfl
  rw [hrange, List.map_cons, List.sum_cons, if_neg hfirst, mul_zero, zero_add]
  refine congrArg List.sum (List.map_congr_left fun mask hmask => ?_)
  have hmask' := List.mem_range'_1.1 hmask
  rw [if_pos ((true_mem_inHighest (by omega)).2 (by omega))]

end Masks

section Rolls

variable (hp : Int)

def rollDraw (rolls : RollArray) : List (Int × ℚ) :=
  (uniform (List.finRange 16)).map fun iw => (rolls iw.1, iw.2)

def cappedDraw (rolls : RollArray) : List (Int × ℚ) :=
  (rollDraw rolls).map fun rw => (min rw.1 hp, rw.2)

theorem avg_uniform {α : Type} (l : List α) (f : α → ℚ) :
    avg (uniform l) f = (l.map f).sum / l.length := by
  simp only [avg, uniform, List.map_map, Function.comp_def]
  rw [List.sum_map_mul_left, one_div, inv_mul_eq_div]

theorem avg_cappedDraw (rolls : RollArray) (p : Int → Bool) :
    avg (cappedDraw hp rolls) (fun x => if p x then 1 else 0) =
      (countRolls fun i => p (capped hp rolls i) : ℚ) / 16 := by
  rw [cappedDraw, avg_map (rollDraw rolls) (min · hp), rollDraw, avg_map _ rolls, avg_uniform,
    List.length_finRange]
  have hsum : ((List.finRange 16).map fun i => if p (min (rolls i) hp) then (1 : ℚ) else 0).sum =
      (countRolls fun i => p (capped hp rolls i) : ℚ) := by
    rw [countRolls]
    generalize List.finRange 16 = l
    induction l with
    | nil => rfl
    | cons i l ih =>
      rw [List.map_cons, List.sum_cons, ih, List.countP_cons, Nat.cast_add, add_comm]
      cases hi : p (capped hp rolls i) <;> simp_all [capped]
  rw [hsum]
  norm_num

theorem levelMark_cappedDraw (v : Int) (rolls : RollArray) :
    levelMark v (cappedDraw hp rolls) =
      markDraw ((countAt hp rolls v : ℚ) / 16, (countBelow hp rolls v : ℚ) / 16) := by
  have hat := avg_cappedDraw hp rolls (· == v)
  have hbelow := avg_cappedDraw hp rolls fun x => decide (x < v)
  simp only [beq_iff_eq, decide_eq_true_eq] at hat hbelow
  rw [levelMark, hat, hbelow]
  rfl

theorem drawAll_map {α β γ : Type} (f : β → List (γ × ℚ)) (r : α → β) (l : List α) :
    drawAll f (l.map r) = drawAll (fun a => f (r a)) l := by
  induction l with
  | nil => rfl
  | cons a l ih => rw [List.map_cons, drawAll, drawAll, ih]

theorem sum_levelConfigs (arrays : List RollArray) (v : Int) (g : List Bool → List Bool → ℚ) :
    ((levelConfigs arrays hp v).map fun cfg => cfg.weight * g cfg.isHighest cfg.kills).sum =
      avg (drawAll (levelMark v) (arrays.map (cappedDraw hp))) fun bs =>
        if true ∈ bs then g bs (bs.map fun h => h && v == hp) else 0 := by
  have hdraws : drawAll (levelMark v) (arrays.map (cappedDraw hp)) =
      drawAll markDraw (arrays.map fun rolls =>
        ((countAt hp rolls v : ℚ) / 16, (countBelow hp rolls v : ℚ) / 16)) := by
    rw [drawAll_map, drawAll_map]
    simp only [levelMark_cappedDraw]
  have hnonneg : ∀ p ∈ arrays.map fun rolls =>
      ((countAt hp rolls v : ℚ) / 16, (countBelow hp rolls v : ℚ) / 16), 0 ≤ p.1 := by
    intro p hmem
    obtain ⟨rolls, -, rfl⟩ := List.mem_map.1 hmem
    positivity
  rw [hdraws, ← sum_nonempty_masks hnonneg, levelConfigs, sum_map_filter]
  · simp only [List.map_map, Function.comp_def]
  · intro cfg _ hzero
    rw [show cfg.weight = 0 by simpa using hzero, zero_mul]

theorem mem_damageLevels {arrays : List RollArray} {v : Int} :
    v ∈ damageLevels hp arrays ↔ ∃ rolls ∈ arrays, ∃ i, capped hp rolls i = v := by
  simp [damageLevels]

theorem nodup_damageLevels (arrays : List RollArray) : (damageLevels hp arrays).Nodup :=
  (List.mergeSort_perm _ _).nodup_iff.2 (List.nodup_dedup _)

theorem pairwise_damageLevels (arrays : List RollArray) :
    (damageLevels hp arrays).Pairwise fun w w' => w' ≤ w := by
  rw [damageLevels]
  refine (List.pairwise_mergeSort ?_ ?_ _).imp of_decide_eq_true
  · intro a b c hab hbc
    exact decide_eq_true ((of_decide_eq_true hbc).trans (of_decide_eq_true hab))
  · intro a b
    simpa using le_total b a

theorem mem_outcomes_rollDraw {rolls : RollArray} {x : Int} :
    x ∈ outcomes (rollDraw rolls) ↔ ∃ i, rolls i = x := by
  simp [outcomes, rollDraw, uniform]

theorem mem_outcomes_cappedDraw {rolls : RollArray} {x : Int} :
    x ∈ outcomes (cappedDraw hp rolls) ↔ ∃ i, capped hp rolls i = x := by
  simp [outcomes, cappedDraw, rollDraw, uniform, capped]

def topDamage (cs : List Int) : Int := cs.max?.getD 0

theorem topDamage_spec {cs : List Int} (h : cs ≠ []) :
    topDamage cs ∈ cs ∧ ∀ c ∈ cs, c ≤ topDamage cs := by
  obtain ⟨top, htop⟩ := Option.isSome_iff_exists.1 (List.isSome_max?_iff.2 h)
  rw [topDamage, htop, Option.getD_some]
  exact List.max?_eq_some_iff.1 htop

/-- The configurations carry the law of the marks of the highest damages and of the kills. -/
theorem sum_iterDamageConfigs {arrays : List RollArray} (harrays : arrays ≠ [])
    (g : List Bool → List Bool → ℚ) :
    ((iterDamageConfigs arrays hp).map fun cfg => cfg.weight * g cfg.isHighest cfg.kills).sum =
      avg (drawAll rollDraw arrays) fun raws =>
        let cs := raws.map (min · hp)
        let highest := marks (topDamage cs) cs
        g highest (highest.map fun h => h && topDamage cs == hp) := by
  have hne : ∀ vs ∈ outcomes (drawAll id (arrays.map (cappedDraw hp))), vs ≠ [] := by
    rintro vs hvs rfl
    have hforall := mem_outcomes_drawAll.1 hvs
    rw [List.forall₂_nil_right_iff, List.map_eq_nil_iff] at hforall
    exact harrays hforall
  have hlevel : ∀ vs ∈ outcomes (drawAll id (arrays.map (cappedDraw hp))),
      topDamage vs ∈ damageLevels hp arrays := by
    intro vs hvs
    obtain ⟨W, hW, htop⟩ := source_of_mem_outcomes hvs (topDamage_spec (hne vs hvs)).1
    obtain ⟨rolls, hrolls, rfl⟩ := List.mem_map.1 hW
    exact (mem_damageLevels hp).2 ⟨rolls, hrolls, (mem_outcomes_cappedDraw hp).1 htop⟩
  have hlaw := avg_highest (nodup_damageLevels hp arrays)
    (fun vs hvs => topDamage_spec (hne vs hvs)) hlevel
    fun v bs => g bs (bs.map fun h => h && v == hp)
  have hraws : ∀ f : List Int → ℚ, avg (drawAll id (arrays.map (cappedDraw hp))) f =
      avg (drawAll rollDraw arrays) fun raws => f (raws.map (min · hp)) := by
    intro f
    rw [avg_drawAll_map, avg_drawAll_outcomes]
    rfl
  rw [hraws] at hlaw
  rw [← hlaw, iterDamageConfigs, List.map_flatMap, List.flatMap_def, List.sum_flatten, List.map_map]
  refine congrArg List.sum (List.map_congr_left fun v _ => ?_)
  exact sum_levelConfigs hp arrays v g

end Rolls

section HighestProbs

variable (hp : Int)

def rollsOn (levels : List Int) (rolls : RollArray) : Nat := (levels.map (countAt hp rolls)).sum

theorem rollsOn_damageLevels {arrays : List RollArray} {rolls : RollArray} (h : rolls ∈ arrays) :
    rollsOn hp (damageLevels hp arrays) rolls = 16 := by
  have hcount : ∀ v, countAt hp rolls v = ((List.finRange 16).map (capped hp rolls)).count v := by
    intro v
    rw [countAt, countRolls, List.count, List.countP_map]
    rfl
  have hmem : ∀ v ∈ ((List.finRange 16).map (capped hp rolls) : Multiset Int),
      v ∈ (damageLevels hp arrays).toFinset := by
    intro v hv
    obtain ⟨i, -, rfl⟩ := List.mem_map.1 (Multiset.mem_coe.1 hv)
    exact List.mem_toFinset.2 ((mem_damageLevels hp).2 ⟨rolls, h, i, rfl⟩)
  rw [rollsOn, ← List.sum_toFinset _ (nodup_damageLevels hp arrays)]
  simpa [hcount] using Multiset.sum_count_eq_card hmem

def countsBefore (v : Int) (rest : List Int) (rolls : RollArray) : LevelCounts :=
  levelCounts hp v rolls (16 - rollsOn hp (v :: rest) rolls)

theorem below_countsBefore (v : Int) (rest : List Int) (rolls : RollArray) :
    (countsBefore hp v rest rolls).below = rollsOn hp rest rolls := by
  simp only [countsBefore, levelCounts, rollsOn, List.map_cons, List.sum_cons]
  push_cast
  ring

/-- What remains above is what does not lie on the levels to come. -/
def AboveBefore (arrays : List RollArray) (levels : List Int) (st : HighestState) : Prop :=
  st.above = arrays.map fun rolls => (16 : Int) - rollsOn hp levels rolls

theorem counts_of_aboveBefore {arrays : List RollArray} {v : Int} {rest : List Int}
    {st : HighestState} (h : AboveBefore hp arrays (v :: rest) st) :
    ((arrays.zip st.above).map fun ra => levelCounts hp v ra.1 ra.2) =
      arrays.map (countsBefore hp v rest) := by
  rw [h, ← List.map_prod_left_eq_zip, List.map_map]
  rfl

theorem aboveBefore_highestStep {arrays : List RollArray} {v : Int} {rest : List Int}
    {st : HighestState} (h : AboveBefore hp arrays (v :: rest) st) :
    AboveBefore hp arrays rest (highestStep hp arrays st v) := by
  have hcounts := counts_of_aboveBefore hp h
  rw [AboveBefore] at h ⊢
  simp only [highestStep, hcounts]
  rw [h, List.zip_map, List.map_map, List.zip_eq_zipWith, List.zipWith_self, List.map_map]
  refine List.map_congr_left fun rolls _ => ?_
  simp only [Function.comp_apply, Prod.map_apply, countsBefore, levelCounts, rollsOn,
    List.map_cons, List.sum_cons]
  push_cast
  ring

theorem getElem?_highestStep {arrays : List RollArray} {v : Int} {rest : List Int}
    {st : HighestState} {j : Nat} {rolls : RollArray} {p : ℚ × ℚ}
    (h : AboveBefore hp arrays (v :: rest) st) (hj : arrays[j]? = some rolls)
    (hp' : st.probs[j]? = some p) :
    (highestStep hp arrays st v).probs[j]? = some (p + levelShare
      (arrays.map (countsBefore hp v rest)) j (countsBefore hp v rest rolls)) := by
  have hcounts := counts_of_aboveBefore hp h
  have hzip : (st.probs.zip (arrays.map (countsBefore hp v rest)).zipIdx)[j]? =
      some (p, countsBefore hp v rest rolls, j) := by
    apply List.getElem?_zip_eq_some.2 ⟨hp', _⟩
    rw [List.getElem?_zipIdx, List.getElem?_map, hj]
    simp
  simp only [highestStep, hcounts]
  rw [List.getElem?_map, hzip]
  rfl

theorem aboveBefore_start (arrays : List RollArray) :
    AboveBefore hp arrays (damageLevels hp arrays)
      ⟨arrays.map fun _ => 0, arrays.map fun _ => (0, 0)⟩ := by
  refine List.map_congr_left fun r hr => ?_
  rw [rollsOn_damageLevels hp hr]
  rfl

def AtLeast (j : Nat) (low : ℚ × ℚ) (probs : List (ℚ × ℚ)) : Prop :=
  ∃ p, probs[j]? = some p ∧ low ≤ p

theorem atLeast_highestStep {arrays : List RollArray} {v : Int} {rest : List Int}
    {st : HighestState} {j : Nat} {rolls : RollArray} {low : ℚ × ℚ}
    (h : AboveBefore hp arrays (v :: rest) st) (hj : arrays[j]? = some rolls)
    (hlow : AtLeast j low st.probs) :
    AtLeast j (low + levelShare (arrays.map (countsBefore hp v rest)) j
      (countsBefore hp v rest rolls)) (highestStep hp arrays st v).probs := by
  obtain ⟨p, hp', hle⟩ := hlow
  exact ⟨_, getElem?_highestStep hp h hj hp', add_le_add_left hle _⟩

theorem tieShare_pos {others : List LevelCounts} (hon : ∀ c ∈ others, c.on ≠ 0)
    (hbelow : ∀ c ∈ others, 0 ≤ c.below) : 0 < tieShare others := by
  have hterm : ∀ x ∈ (List.range (2 ^ others.length)).map fun mask =>
      1 / ((1 + (List.range others.length).countP (Nat.testBit mask) : Nat) : ℚ) *
        (others.zipIdx.map fun ck =>
          if Nat.testBit mask ck.2 then (ck.1.on : ℚ) / 16 else (ck.1.below : ℚ) / 16).prod,
      0 ≤ x := by
    intro x hx
    obtain ⟨mask, -, rfl⟩ := List.mem_map.1 hx
    refine mul_nonneg (by positivity) (List.prod_nonneg fun y hy => ?_)
    obtain ⟨ck, hck, rfl⟩ := List.mem_map.1 hy
    have hck' : (0 : ℚ) ≤ ck.1.below := Int.cast_nonneg (hbelow _ (List.fst_mem_of_mem_zipIdx hck))
    split <;> positivity
  have hfull : 0 < (1 / ((1 + (List.range others.length).countP
      (Nat.testBit (2 ^ others.length - 1)) : Nat) : ℚ) *
        (others.zipIdx.map fun ck => if Nat.testBit (2 ^ others.length - 1) ck.2 then
          (ck.1.on : ℚ) / 16 else (ck.1.below : ℚ) / 16).prod) := by
    refine mul_pos (by positivity) (List.prod_pos fun y hy => ?_)
    obtain ⟨ck, hck, rfl⟩ := List.mem_map.1 hy
    have hon' : (0 : ℚ) < ck.1.on :=
      Nat.cast_pos.2 (Nat.pos_of_ne_zero (hon _ (List.fst_mem_of_mem_zipIdx hck)))
    rw [if_pos]
    · positivity
    · rw [Nat.testBit_two_pow_sub_one]
      exact decide_eq_true (by simpa using List.snd_lt_of_mem_zipIdx hck)
  refine hfull.trans_le (List.single_le_sum hterm _ (List.mem_map.2 ⟨2 ^ others.length - 1, ?_, rfl⟩))
  exact List.mem_range.2 (Nat.sub_lt (Nat.two_pow_pos _) one_pos)

def shareFactor (counts : List LevelCounts) (j : Nat) : ℚ :=
  nonGroupFactor counts * tieShare ((counts.eraseIdx j).filter (·.on != 0))

theorem levelShare_of_on {counts : List LevelCounts} {j : Nat} {c : LevelCounts} (h : c.on ≠ 0) :
    levelShare counts j c =
      ((c.kill : ℚ) / 16 * shareFactor counts j, (c.nokill : ℚ) / 16 * shareFactor counts j) := by
  rw [levelShare, if_neg h]
  rfl

theorem tieShare_group_pos {counts : List LevelCounts} (j : Nat)
    (hbelow : ∀ c ∈ counts, 0 ≤ c.below) :
    0 < tieShare ((counts.eraseIdx j).filter (·.on != 0)) := by
  apply tieShare_pos
  · intro c hc
    simpa using (List.mem_filter.1 hc).2
  · intro c hc
    exact hbelow c (List.mem_of_mem_eraseIdx (List.mem_filter.1 hc).1)

theorem shareFactor_nonneg {counts : List LevelCounts} (j : Nat)
    (hbelow : ∀ c ∈ counts, 0 ≤ c.below) : 0 ≤ shareFactor counts j := by
  refine mul_nonneg (List.prod_nonneg fun x hx => ?_) (tieShare_group_pos j hbelow).le
  obtain ⟨c, hc, rfl⟩ := List.mem_map.1 hx
  have hc' : (0 : ℚ) ≤ c.below := Int.cast_nonneg (hbelow c (List.mem_filter.1 hc).1)
  positivity

theorem shareFactor_pos {counts : List LevelCounts} (j : Nat)
    (hbelow : ∀ c ∈ counts, 0 ≤ c.below) (hnone : ∀ c ∈ counts, c.on = 0 → 0 < c.below) :
    0 < shareFactor counts j := by
  refine mul_pos (List.prod_pos fun x hx => ?_) (tieShare_group_pos j hbelow)
  obtain ⟨c, hc, rfl⟩ := List.mem_map.1 hx
  obtain ⟨hc, hon⟩ := List.mem_filter.1 hc
  have hc' : (0 : ℚ) < c.below := Int.cast_pos.2 (hnone c hc (by simpa using hon))
  positivity

theorem below_nonneg_countsBefore {arrays : List RollArray} {v : Int} {rest : List Int} :
    ∀ c ∈ arrays.map (countsBefore hp v rest), 0 ≤ c.below := by
  intro c hc
  obtain ⟨rolls, -, rfl⟩ := List.mem_map.1 hc
  rw [below_countsBefore]
  exact Int.natCast_nonneg _

theorem levelShare_nonneg (arrays : List RollArray) (v : Int) (rest : List Int) (j : Nat)
    (c : LevelCounts) : 0 ≤ levelShare (arrays.map (countsBefore hp v rest)) j c := by
  have hfactor : 0 ≤ shareFactor (arrays.map (countsBefore hp v rest)) j :=
    shareFactor_nonneg j (below_nonneg_countsBefore hp)
  by_cases h : c.on = 0
  · rw [levelShare, if_pos h]
    exact le_rfl
  · rw [levelShare_of_on h]
    exact ⟨by positivity, by positivity⟩

theorem atLeast_foldl {arrays : List RollArray} {pre levels : List Int} {st : HighestState}
    {j : Nat} {rolls : RollArray} {low : ℚ × ℚ} (h : AboveBefore hp arrays (pre ++ levels) st)
    (hj : arrays[j]? = some rolls) (hlow : AtLeast j low st.probs) :
    AtLeast j low (pre.foldl (highestStep hp arrays) st).probs := by
  induction pre generalizing st with
  | nil => exact hlow
  | cons v pre ih =>
    obtain ⟨p, hp', hle⟩ := atLeast_highestStep hp h hj hlow
    have hgrow := levelShare_nonneg hp arrays v (pre ++ levels) j
      (countsBefore hp v (pre ++ levels) rolls)
    exact ih (aboveBefore_highestStep hp h) ⟨p, hp', (le_add_of_nonneg_right hgrow).trans hle⟩

theorem aboveBefore_foldl {arrays : List RollArray} {pre levels : List Int} {st : HighestState}
    (h : AboveBefore hp arrays (pre ++ levels) st) :
    AboveBefore hp arrays levels (pre.foldl (highestStep hp arrays) st) := by
  induction pre generalizing st with
  | nil => exact h
  | cons v pre ih => exact ih (aboveBefore_highestStep hp h)

theorem countRolls_pos {p : Fin 16 → Bool} : 0 < countRolls p ↔ ∃ i, p i = true := by
  simp [countRolls, List.countP_pos_iff]

theorem countAt_pos {rolls : RollArray} {v : Int} :
    0 < countAt hp rolls v ↔ ∃ i, capped hp rolls i = v := by
  simp [countAt, countRolls_pos]

theorem mem_rest_iff {arrays : List RollArray} {v : Int} {pre rest : List Int} {rolls : RollArray}
    (hlevels : damageLevels hp arrays = pre ++ v :: rest) (hrolls : rolls ∈ arrays) {i : Fin 16} :
    capped hp rolls i ∈ rest ↔ capped hp rolls i < v := by
  have hsorted := pairwise_damageLevels hp arrays
  have hnodup := nodup_damageLevels hp arrays
  rw [hlevels] at hsorted hnodup
  constructor
  · intro hrest
    have hle := (List.pairwise_cons.1 (List.pairwise_append.1 hsorted).2.1).1 _ hrest
    have hne := (List.nodup_cons.1 (List.nodup_append.1 hnodup).2.1).1
    exact lt_of_le_of_ne hle fun heq => hne (heq ▸ hrest)
  · intro hi
    have hmem : capped hp rolls i ∈ pre ++ v :: rest := by
      rw [← hlevels]
      exact (mem_damageLevels hp).2 ⟨rolls, hrolls, i, rfl⟩
    obtain hpre | hmem := List.mem_append.1 hmem
    · have hle := (List.pairwise_append.1 hsorted).2.2 _ hpre v List.mem_cons_self
      omega
    · exact (List.mem_cons.1 hmem).resolve_left hi.ne

theorem rollsOn_pos {arrays : List RollArray} {v : Int} {pre rest : List Int} {rolls : RollArray}
    (hlevels : damageLevels hp arrays = pre ++ v :: rest) (hrolls : rolls ∈ arrays) {i : Fin 16}
    (hi : capped hp rolls i < v) : 0 < rollsOn hp rest rolls := by
  have hon : 0 < countAt hp rolls (capped hp rolls i) := (countAt_pos hp).2 ⟨i, rfl⟩
  exact hon.trans_le (List.single_le_sum (fun _ _ => Nat.zero_le _) _
    (List.mem_map_of_mem ((mem_rest_iff hp hlevels hrolls).2 hi)))

theorem levelShare_pos {arrays : List RollArray} {j : Nat} {rolls : RollArray} {i : Fin 16}
    {pre rest : List Int} (hlevels : damageLevels hp arrays = pre ++ capped hp rolls i :: rest)
    (hreach : ∀ r ∈ arrays, ∃ k, capped hp r k ≤ capped hp rolls i) :
    let v := capped hp rolls i
    let share := levelShare (arrays.map (countsBefore hp v rest)) j (countsBefore hp v rest rolls)
    (hp ≤ rolls i → 0 < share.1) ∧ (rolls i < hp → 0 < share.2) := by
  intro v share
  have hfactor : 0 < shareFactor (arrays.map (countsBefore hp v rest)) j := by
    apply shareFactor_pos j (below_nonneg_countsBefore hp)
    intro c hc hon
    obtain ⟨r, hr, rfl⟩ := List.mem_map.1 hc
    obtain ⟨k, hk⟩ := hreach r hr
    have hne : capped hp r k ≠ v := fun heq => ((countAt_pos hp).2 ⟨k, heq⟩).ne' hon
    rw [below_countsBefore]
    exact Int.natCast_pos.2 (rollsOn_pos hp hlevels hr (lt_of_le_of_ne hk hne))
  have hon : (countsBefore hp v rest rolls).on ≠ 0 := ((countAt_pos hp).2 ⟨i, rfl⟩).ne'
  have hshare : share = _ := levelShare_of_on hon
  rw [hshare]
  constructor
  · intro hkill
    have hcount : 0 < countRolls fun k => capped hp rolls k == v && decide (hp ≤ rolls k) :=
      countRolls_pos.2 ⟨i, by simpa [v] using hkill⟩
    exact mul_pos (div_pos (Nat.cast_pos.2 hcount) (by norm_num)) hfactor
  · intro hnokill
    have hcount : 0 < countRolls fun k => capped hp rolls k == v && !decide (hp ≤ rolls k) :=
      countRolls_pos.2 ⟨i, by simpa [v] using hnokill⟩
    exact mul_pos (div_pos (Nat.cast_pos.2 hcount) (by norm_num)) hfactor

theorem foldl_highestStep_pos {arrays : List RollArray} {j : Nat} {rolls : RollArray} {i : Fin 16}
    (hj : arrays[j]? = some rolls)
    (hreach : ∀ r ∈ arrays, ∃ k, capped hp r k ≤ capped hp rolls i) :
    ∃ p, ((damageLevels hp arrays).foldl (highestStep hp arrays)
      ⟨arrays.map fun _ => 0, arrays.map fun _ => (0, 0)⟩).probs[j]? = some p ∧
      (hp ≤ rolls i → 0 < p.1) ∧ (rolls i < hp → 0 < p.2) := by
  have hrolls : rolls ∈ arrays := List.mem_of_getElem? hj
  obtain ⟨pre, rest, hlevels⟩ :=
    List.append_of_mem ((mem_damageLevels hp).2 ⟨rolls, hrolls, i, rfl⟩)
  obtain ⟨hkill, hnokill⟩ := levelShare_pos (j := j) hp hlevels hreach
  have hstart := aboveBefore_start hp arrays
  rw [hlevels] at hstart
  have hzero : AtLeast j 0 (arrays.map fun _ => ((0 : ℚ), (0 : ℚ))) :=
    ⟨0, by rw [List.getElem?_map, hj]; rfl, le_rfl⟩
  have hlow := atLeast_foldl hp hstart hj hzero
  have hlevel := aboveBefore_foldl hp hstart
  obtain ⟨p, hp', hle⟩ := atLeast_highestStep hp hlevel hj hlow
  have hafter := aboveBefore_highestStep hp hlevel
  rw [← List.append_nil rest] at hafter
  obtain ⟨q, hq, hpq⟩ := atLeast_foldl hp hafter hj ⟨p, hp', hle⟩
  rw [zero_add] at hpq
  refine ⟨q, ?_, fun h => (hkill h).trans_le hpq.1, fun h => (hnokill h).trans_le hpq.2⟩
  rw [hlevels, List.foldl_append]
  exact hq

theorem highestDamageProbs_pos {arrays : List RollArray} {j : Nat} {rolls : RollArray} {i : Fin 16}
    (hj : arrays[j]? = some rolls)
    (hreach : ∀ r ∈ arrays, ∃ k, capped hp r k ≤ capped hp rolls i) :
    ∃ p, (highestDamageProbs hp arrays)[j]? = some p ∧
      (hp ≤ rolls i → 0 < p.1) ∧ (rolls i < hp → 0 < p.2) := by
  match arrays, hj, hreach with
  | [r], hj, _ =>
    obtain ⟨rfl, rfl⟩ : j = 0 ∧ r = rolls := by
      cases j with
      | zero => exact ⟨rfl, Option.some.inj hj⟩
      | succ j => cases hj
    refine ⟨_, rfl, fun hkill => ?_, fun hnokill => ?_⟩
    · have hcount : 0 < countRolls fun k => decide (hp ≤ r k) :=
        countRolls_pos.2 ⟨i, decide_eq_true hkill⟩
      exact div_pos (Nat.cast_pos.2 hcount) (by norm_num)
    · have hcount : (countRolls fun k => decide (hp ≤ r k)) < 16 := by
        refine lt_of_le_of_ne (List.countP_le_length) fun hall => ?_
        have hall' := List.countP_eq_length.1 hall i (List.mem_finRange i)
        exact absurd (of_decide_eq_true hall') (not_le.2 hnokill)
      have hcast : ((countRolls fun k => decide (hp ≤ r k) : Nat) : ℚ) < 16 := by
        exact_mod_cast hcount
      rw [sub_pos, div_lt_one (by norm_num)]
      exact hcast
  | r :: r' :: arrays, hj, hreach => exact foldl_highestStep_pos hp hj hreach

end HighestProbs

end Engine

end NuzlockeSolver
