import Mathlib.Algebra.BigOperators.Group.List.Lemmas
import Mathlib.Algebra.BigOperators.Group.Finset.Basic
import Mathlib.Data.List.FinRange
import Mathlib.Tactic.FinCases
import Mathlib.Tactic.NormNum
import Mathlib.Tactic.Linarith
import Mathlib.Tactic.FieldSimp
import NuzlockeSolver.Oracle.TransitionOracle

/-!
# What a draw offers

The oracle reads the options of a branch back from one log entry. For every call of a resolver
with a regular crit chance they are the outcomes of the draw with their own probabilities, damage
rolls merged by damage.
-/

namespace NuzlockeSolver

namespace Draw

def offers (d : Draw) (aggregate : Bool) : List (Int × Rat) :=
  match d.dmgByRoll, aggregate with
  | some dmg, true => aggregatedRolls dmg
  | _, _ => d.support.map fun v => (v, d.prob v)

def offered (d : Draw) (aggregate : Bool) : List Int := (d.offers aggregate).map (·.1)

def Taken (d : Draw) (aggregate : Bool) (v : Int) : Prop :=
  v = d.default ∨ v ∈ d.offered aggregate

structure Proper (d : Draw) (aggregate : Bool) : Prop where
  isCatB : d.event.isCatB
  kind : d.boolean = d.event.isBool
  bool : d.event.isBool → ∀ v ∈ d.offered aggregate, v = 0 ∨ v = 1
  expand : ∀ v, d.Taken aggregate v →
    expandExact (d.entryOf v) aggregate = .ok (d.offers aggregate)
  pos : ∀ o ∈ d.offers aggregate, 0 < o.2
  uncertain : d.event.isBool → ∀ o ∈ d.offers aggregate, o.2 < 1
  sum : ((d.offers aggregate).map (·.2)).sum = 1
  nodup : (d.offered aggregate).Nodup
  mean : ∀ f : Int → Rat, ((d.offers aggregate).map fun o => o.2 * f (d.outcome o.1)).sum =
    (d.support.map fun v => d.prob v * f (d.outcome v)).sum

end Draw

theorem upTo_nodup (n : Nat) : (upTo n).Nodup :=
  List.nodup_range.map fun a b h => by simpa using h

theorem length_upTo (n : Nat) : (upTo n).length = n := by
  simp [upTo]

theorem length_intRange (lo hi : Int) : (intRange lo hi).length = (hi - lo + 1).toNat := by
  simp [intRange]

theorem intRange_nodup (lo hi : Int) : (intRange lo hi).Nodup :=
  List.nodup_range.map fun a b h => by simpa using h

theorem sum_map_const {α : Type*} (l : List α) (p : Rat) :
    (l.map fun _ => p).sum = l.length * p := by
  simp

theorem mem_damages {dmg : DmgByRoll} {d : Int} : d ∈ damages dmg ↔ ∃ roll, dmg roll = d := by
  simp [damages]

theorem damages_nodup (dmg : DmgByRoll) : (damages dmg).Nodup :=
  ((List.perm_insertionSort (· ≤ ·) _).nodup_iff).2 (List.nodup_dedup _)

theorem rollsOf_ne_nil {dmg : DmgByRoll} {d : Int} (hd : d ∈ damages dmg) :
    rollsOf dmg d ≠ [] := by
  obtain ⟨roll, hroll⟩ := mem_damages.1 hd
  have : roll ∈ rollsOf dmg d := by simp [rollsOf, hroll]
  exact List.ne_nil_of_mem this

theorem dmg_headD_rollsOf {dmg : DmgByRoll} {d : Int} (hd : d ∈ damages dmg) :
    dmg ((rollsOf dmg d).headD 0) = d := by
  have hmem : (rollsOf dmg d).headD 0 ∈ rollsOf dmg d := by
    cases h : rollsOf dmg d with
    | nil => exact absurd h (rollsOf_ne_nil hd)
    | cons roll rest => simp
  simpa [rollsOf] using hmem

theorem length_rollsOf (dmg : DmgByRoll) (d : Int) :
    (rollsOf dmg d).length = ((List.finRange 16).map dmg).count d := by
  rw [rollsOf, ← List.countP_eq_length_filter, List.count, List.countP_map]
  rfl

theorem sum_damages (dmg : DmgByRoll) (f : Int → Rat) :
    ((damages dmg).map fun d => ((rollsOf dmg d).length / 16 : Rat) * f d).sum =
      ((List.finRange 16).map fun roll => (1 / 16 : Rat) * f (dmg roll)).sum := by
  have hfin : ((List.finRange 16).map fun roll => (1 / 16 : Rat) * f (dmg roll)) =
      ((List.finRange 16).map dmg).map fun d => (1 / 16 : Rat) * f d := by
    simp [Function.comp_def]
  have hperm : (damages dmg).Perm ((List.finRange 16).map dmg).dedup :=
    List.perm_insertionSort _ _
  rw [hfin, (hperm.map _).sum_eq, ← List.sum_toFinset _ (List.nodup_dedup _),
    Finset.sum_list_map_count ((List.finRange 16).map dmg)]
  refine Finset.sum_congr (by ext; simp) fun d _ => ?_
  rw [length_rollsOf, nsmul_eq_mul]
  ring

namespace Draw

variable {d : Draw} {aggregate : Bool}

theorem offers_of_plain (h : d.dmgByRoll = none ∨ aggregate = false) :
    d.offers aggregate = d.support.map fun v => (v, d.prob v) := by
  rcases h with h | rfl
  · simp [offers, h]
  · cases hd : d.dmgByRoll <;> simp [offers, hd]

theorem offered_of_plain (h : d.dmgByRoll = none ∨ aggregate = false) :
    d.offered aggregate = d.support := by
  simp [offered, offers_of_plain h, Function.comp_def]

theorem Proper.of_plain (h : d.dmgByRoll = none ∨ aggregate = false)
    (isCatB : d.event.isCatB) (kind : d.boolean = d.event.isBool)
    (bool : d.event.isBool → ∀ v ∈ d.support, v = 0 ∨ v = 1)
    (expand : ∀ v, v = d.default ∨ v ∈ d.support →
      expandExact (d.entryOf v) aggregate = .ok (d.support.map fun v => (v, d.prob v)))
    (pos : ∀ v ∈ d.support, 0 < d.prob v)
    (uncertain : d.event.isBool → ∀ v ∈ d.support, d.prob v < 1) (sum : (d.support.map d.prob).sum = 1)
    (nodup : d.support.Nodup) : d.Proper aggregate where
  isCatB := isCatB
  kind := kind
  bool := by simpa [offered_of_plain h] using bool
  expand := by simpa [Taken, offered_of_plain h, offers_of_plain h] using expand
  pos := by
    intro o ho
    rw [offers_of_plain h] at ho
    obtain ⟨v, hv, rfl⟩ := List.mem_map.1 ho
    exact pos v hv
  uncertain := by
    intro hb o ho
    rw [offers_of_plain h] at ho
    obtain ⟨v, hv, rfl⟩ := List.mem_map.1 ho
    exact uncertain hb v hv
  sum := by
    rw [offers_of_plain h, List.map_map]
    exact sum
  nodup := by simpa [offered_of_plain h] using nodup
  mean := by
    intro f
    rw [offers_of_plain h, List.map_map]
    rfl

end Draw

theorem proper_of_bernoulli {d : Draw} {aggregate : Bool} {p : Rat} (hd : d.dmgByRoll = none)
    (hbool : d.event.isBool) (hcatB : d.event.isCatB) (hkind : d.boolean = true)
    (hopts : d.options = [0, 1]) (hsupp : d.support = [0, 1]) (hprob : d.prob = bernoulli p)
    (hdef : d.default = 0 ∨ d.default = 1) (h0 : 0 < p) (h1 : p < 1) : d.Proper aggregate := by
  refine .of_plain (.inl hd) hcatB (by rw [hkind, hbool]) ?_ ?_ ?_ ?_ ?_ ?_
  · simp [hsupp]
  · intro v hv
    have hv : v = 0 ∨ v = 1 := by
      rcases hv with rfl | hv
      · exact hdef
      · simpa [hsupp] using hv
    rcases hv with rfl | rfl
    · have : ¬ (1 - p < 0) := by linarith
      simp [expandExact, Draw.entryOf, Draw.entry, analyticalRngLogDraw, hopts, hsupp, hprob,
        bernoulli, hbool, this]
    · have : ¬ (p < 0) := by linarith
      simp [expandExact, Draw.entryOf, Draw.entry, analyticalRngLogDraw, hopts, hsupp, hprob,
        bernoulli, hbool, this]
  · simp [hsupp, hprob, bernoulli, h0, h1]
  · simp [hsupp, hprob, bernoulli, h0, h1]
  · simp [hsupp, hprob, bernoulli]
  · simp [hsupp]

theorem outcomeOf_eq (b : Bool) : outcomeOf b = 0 ∨ outcomeOf b = 1 := by
  cases b <;> simp [outcomeOf]

theorem percentDraw_proper {event : RngEvent} {chance threshold : Rat} {side : Int}
    (aggregate : Bool) (hbool : event.isBool) (hcatB : event.isCatB)
    (hsat : (percentDraw event chance threshold side).saturated = none) :
    (percentDraw event chance threshold side).Proper aggregate := by
  have hchance : 0 < chance ∧ chance < 100 := by
    simp only [percentDraw] at hsat
    split_ifs at hsat with h100 h0
    exact ⟨not_le.1 h0, not_le.1 h100⟩
  refine proper_of_bernoulli (p := chance / 100) rfl hbool hcatB rfl rfl rfl rfl
    (outcomeOf_eq _) (by linarith [hchance.1]) (by linarith [hchance.2])

theorem resolveCanAct_proper {event : RngEvent} {chance threshold : Rat} (aggregate : Bool)
    (hbool : event.isBool) (hcatB : event.isCatB) (h0 : 0 < chance) (h100 : chance < 100) :
    (resolveCanAct chance threshold event).Proper aggregate :=
  proper_of_bernoulli (p := chance / 100) rfl hbool hcatB rfl rfl rfl rfl
    (outcomeOf_eq _) (by linarith) (by linarith)

namespace CritCtx

/-- The crit rolls whose chance is a probability that the saturation test recognises. -/
def Regular (c : CritCtx) (copy : CritCopy) (critThreshold : Rat) : Prop :=
  c.blocked ∨ if c.laserFocus then critThreshold ≤ 100 else c.stage copy < 3

instance (c : CritCtx) (copy : CritCopy) (critThreshold : Rat) :
    Decidable (c.Regular copy critThreshold) :=
  inferInstanceAs (Decidable (_ ∨ _))

end CritCtx

theorem getCritChance_of_regular {c : CritCtx} {copy : CritCopy} {threshold : Rat}
    (h : c.Regular copy threshold) :
    getCritChance copy c = 0 ∨ (getCritChance copy c = 1 ∧ threshold ≤ 100) ∨
      (0 < getCritChance copy c ∧ getCritChance copy c ≤ 1 / 2) := by
  by_cases hb : c.blocked
  · simp [getCritChance, hb]
  · have h := h.resolve_left hb
    by_cases hl : c.laserFocus
    · simp only [hl, if_true] at h
      simp [getCritChance, hb, hl, h]
    · simp only [hl, Bool.false_eq_true, if_false] at h
      have hstage : c.stage copy = 0 ∨ c.stage copy = 1 ∨ c.stage copy = 2 := by omega
      rcases hstage with hs | hs | hs <;>
        norm_num [getCritChance, hb, hl, hs, critChanceTable]

theorem getCritChance_of_not_regular {c : CritCtx} {copy : CritCopy} {threshold : Rat}
    (h : ¬ c.Regular copy threshold) :
    getCritChance copy c = 100 ∨ (getCritChance copy c = 1 ∧ 100 < threshold) := by
  simp only [CritCtx.Regular, not_or] at h
  obtain ⟨hb, h⟩ := h
  by_cases hl : c.laserFocus
  · simp only [hl, if_true, not_le] at h
    simp [getCritChance, hb, hl, h]
  · simp only [hl, Bool.false_eq_true, if_false, not_lt] at h
    have hmin : min (c.stage copy) 3 = 3 := by omega
    simp [getCritChance, hb, hl, hmin, critChanceTable]

theorem rngResolveCrit_proper {c : CritCtx} {copy : CritCopy} {threshold : Rat} {side : Int}
    (aggregate : Bool) (h : c.Regular copy threshold)
    (hsat : (rngResolveCrit (getCritChance copy c) threshold side).saturated = none) :
    (rngResolveCrit (getCritChance copy c) threshold side).Proper aggregate := by
  rcases getCritChance_of_regular h with h0 | ⟨h1, ht⟩ | ⟨h0, hhalf⟩
  · simp [rngResolveCrit, h0] at hsat
  · have : ¬ ((1 : Rat) ≤ 0) := by norm_num
    simp [rngResolveCrit, h1, ht, this] at hsat
  · exact proper_of_bernoulli (p := getCritChance copy c) rfl rfl rfl rfl rfl rfl rfl
      (outcomeOf_eq _) h0 (by linarith)

theorem expandExact_truncated {e : RngEntry} (aggregate : Bool) (h : e.optionsTruncated = true)
    (he : e.event = .psywaveRoll) :
    expandExact e aggregate = .ok ((upTo 101).map fun k => (k, psywaveProb k)) := by
  simp [expandExact, h, he]

theorem rngResolvePsywaveRollK_proper (detRoll : Rat) (aggregate : Bool) :
    (rngResolvePsywaveRollK detRoll).Proper aggregate := by
  refine .of_plain (.inl rfl) rfl rfl (by simp [rngResolvePsywaveRollK, RngEvent.isBool])
    (fun v _ => expandExact_truncated _ rfl rfl) ?_ (nomatch ·) ?_ (upTo_nodup _)
  · intro v _
    simp only [rngResolvePsywaveRollK, psywaveProb]
    split_ifs <;> norm_num
  · show ((upTo 101).map psywaveProb).sum = 1
    decide +kernel

theorem expandExact_rolls {d : Draw} {n : Nat} (he : d.event = .damageRoll)
    (ho : d.options = upTo n) (hn : 0 < n ∧ n ≤ 16) (v : Int) (hp : 0 ≤ d.prob v)
    (aggregate : Bool) (hg : ¬ (n = 16 ∧ aggregate = true)) :
    expandExact (d.entryOf v) aggregate = .ok ((upTo n).map fun v => (v, 1 / (n : Rat))) := by
  have hne : upTo n ≠ [] := by
    intro h
    have := length_upTo n
    rw [h] at this
    simp at this
    omega
  have hbool : RngEvent.isBool .damageRoll = false := rfl
  simp [expandExact, Draw.entryOf, Draw.entry, analyticalRngLogDraw, he, ho, length_upTo, hn.2,
    not_lt.2 hn.2, not_lt.2 hp, hne, hbool, hg, uniformOptions]

theorem sum_upTo_const (n : Nat) (hn : 0 < n) :
    ((upTo n).map fun _ => 1 / (n : Rat)).sum = 1 := by
  rw [sum_map_const, length_upTo]
  have : (n : Rat) ≠ 0 := by positivity
  field_simp

theorem rngResolveConfusionSelfHitRoll_proper (detRoll : Rat) (aggregate : Bool) :
    (rngResolveConfusionSelfHitRoll detRoll).Proper aggregate := by
  refine .of_plain (.inl rfl) rfl rfl (by simp [rngResolveConfusionSelfHitRoll, RngEvent.isBool])
    (fun v _ => ?_) (fun v _ => ?_) (nomatch ·) ?_ (upTo_nodup _)
  · exact expandExact_rolls rfl rfl (by simp) v
      (by norm_num [rngResolveConfusionSelfHitRoll]) _ (by simp)
  · norm_num [rngResolveConfusionSelfHitRoll]
  · exact sum_upTo_const 15 (by simp)

theorem offers_rngResolveDamageRoll (detRoll : Rat) (dmg : DmgByRoll) (side : Int) :
    (rngResolveDamageRoll detRoll dmg side).offers true = aggregatedRolls dmg :=
  rfl

theorem outcome_rngResolveDamageRoll (detRoll : Rat) (dmg : DmgByRoll) (side : Int)
    (roll : Fin 16) :
    (rngResolveDamageRoll detRoll dmg side).outcome ((roll : Nat) : Int) = dmg roll := by
  simp [rngResolveDamageRoll, Draw.outcome]

theorem rngResolveDamageRoll_proper (detRoll : Rat) (dmg : DmgByRoll) (side : Int)
    (aggregate : Bool) : (rngResolveDamageRoll detRoll dmg side).Proper aggregate := by
  cases aggregate with
  | false =>
    refine .of_plain (.inr rfl) rfl rfl (by simp [rngResolveDamageRoll, RngEvent.isBool])
      (fun v _ => ?_) (fun v _ => ?_) (nomatch ·) ?_ (upTo_nodup _)
    · exact expandExact_rolls rfl rfl (by simp) v (by norm_num [rngResolveDamageRoll]) _ (by simp)
    · norm_num [rngResolveDamageRoll]
    · exact sum_upTo_const 16 (by simp)
  | true =>
    refine ⟨rfl, rfl, by simp [rngResolveDamageRoll, RngEvent.isBool], fun v _ => ?_, ?_,
      (nomatch ·), ?_, ?_, ?_⟩
    · have : ¬ ((16 : Rat)⁻¹ < 0) := by norm_num
      simp [expandExact, Draw.entryOf, Draw.entry, analyticalRngLogDraw, rngResolveDamageRoll,
        Draw.offers, RngEvent.isBool, this, upTo]
    · intro o ho
      obtain ⟨d, hd, rfl⟩ := List.mem_map.1 ho
      have : 0 < (rollsOf dmg d).length := List.length_pos_iff.2 (rollsOf_ne_nil hd)
      positivity
    · have := sum_damages dmg fun _ => 1
      simp only [mul_one] at this
      rw [offers_rngResolveDamageRoll, aggregatedRolls, List.map_map]
      refine this.trans ?_
      rw [sum_map_const, List.length_finRange]
      norm_num
    · rw [Draw.offered, offers_rngResolveDamageRoll, aggregatedRolls, List.map_map]
      refine List.Nodup.map_on (fun d hd d' hd' h => ?_) (damages_nodup dmg)
      have h : (rollsOf dmg d).headD 0 = (rollsOf dmg d').headD 0 := by
        apply Fin.ext
        simpa using h
      rw [← dmg_headD_rollsOf hd, h, dmg_headD_rollsOf hd']
    · intro f
      have hl : ((aggregatedRolls dmg).map fun o =>
          o.2 * f ((rngResolveDamageRoll detRoll dmg side).outcome o.1)) =
          (damages dmg).map fun d => ((rollsOf dmg d).length / 16 : Rat) * f d := by
        rw [aggregatedRolls, List.map_map]
        refine List.map_congr_left fun d hd => ?_
        dsimp only [Function.comp]
        rw [outcome_rngResolveDamageRoll, dmg_headD_rollsOf hd]
      have hr : ((upTo 16).map fun v =>
          (1 / 16 : Rat) * f ((rngResolveDamageRoll detRoll dmg side).outcome v)) =
          (List.finRange 16).map fun roll => (1 / 16 : Rat) * f (dmg roll) := by
        rw [upTo, ← List.map_coe_finRange_eq_range, List.map_map, List.map_map]
        refine List.map_congr_left fun roll _ => ?_
        dsimp only [Function.comp]
        rw [outcome_rngResolveDamageRoll]
      show ((aggregatedRolls dmg).map _).sum = ((upTo 16).map _).sum
      rw [hl, sum_damages]
      exact congrArg List.sum hr.symm

theorem mem_intRange {lo hi v : Int} : v ∈ intRange lo hi ↔ lo ≤ v ∧ v ≤ hi := by
  simp only [intRange, List.mem_map, List.mem_range]
  constructor
  · rintro ⟨i, hi, rfl⟩
    omega
  · rintro ⟨hlo, hhi⟩
    exact ⟨(v - lo).toNat, by omega, by omega⟩

theorem multiHitOptions_pair {mn mx : Int} (h : ¬ (mn = 2 ∧ mx = 5)) :
    multiHitOptions [mn, mx] = uniformOptions (intRange mn mx) (mx - mn + 1) := by
  unfold multiHitOptions
  split
  · rename_i heq
    simp only [List.cons.injEq, and_true] at heq
    exact absurd heq h
  · rename_i heq
    simp only [List.cons.injEq, and_true] at heq
    rw [heq.1, heq.2]
  · rename_i hpair
    exact absurd rfl (hpair mn mx)

theorem expandExact_multiHit {d : Draw} {mn mx : Int} (he : d.event = .multiHitCount)
    (ho : d.options = [mn, mx]) (v : Int) (hp : 0 ≤ d.prob v) (aggregate : Bool) :
    expandExact (d.entryOf v) aggregate = .ok (multiHitOptions [mn, mx]) := by
  have hbool : RngEvent.isBool .multiHitCount = false := rfl
  simp [expandExact, Draw.entryOf, Draw.entry, analyticalRngLogDraw, he, ho, not_lt.2 hp, hbool]

theorem rngResolveMultiHit_proper (range : HitRange) (roll : Rat) (side : Int) (aggregate : Bool)
    (hsat : (rngResolveMultiHit range.minHits range.maxHits roll side).saturated = none) :
    (rngResolveMultiHit range.minHits range.maxHits roll side).Proper aggregate := by
  obtain ⟨mn, mx, hle⟩ := range
  dsimp only at hsat ⊢
  have hne : mn ≠ mx := by
    intro h
    simp [rngResolveMultiHit, h] at hsat
  have hopts : (rngResolveMultiHit mn mx roll side).options = [mn, mx] := by
    simp [rngResolveMultiHit, hne]
  by_cases h25 : mn = 2 ∧ mx = 5
  · obtain ⟨rfl, rfl⟩ := h25
    have hdef : (rngResolveMultiHit 2 5 roll side).default ∈ intRange 2 5 := by
      simp only [rngResolveMultiHit, and_self, if_true, mem_intRange]
      split_ifs <;> omega
    have hpos : ∀ v ∈ intRange 2 5, 0 < (rngResolveMultiHit 2 5 roll side).prob v := by
      intro v hv
      obtain ⟨h2, h5⟩ := mem_intRange.1 hv
      simp only [rngResolveMultiHit, and_self, if_true, multiHitProb25]
      split_ifs with h₁ h₂
      · norm_num
      · norm_num
      · omega
    refine .of_plain (.inl rfl) rfl rfl (by simp [rngResolveMultiHit, RngEvent.isBool])
      (fun v hv => ?_) hpos (nomatch ·) ?_ (intRange_nodup _ _)
    · have hv : v ∈ intRange 2 5 := by
        rcases hv with rfl | hv
        · exact hdef
        · exact hv
      rw [expandExact_multiHit rfl hopts v (hpos v hv).le]
      rfl
    · show ((intRange 2 5).map multiHitProb25).sum = 1
      decide +kernel
  · have hcount : (0 : Rat) < ((mx - mn + 1 : Int) : Rat) := by
      exact_mod_cast (by omega : (0 : Int) < mx - mn + 1)
    have hprob : (rngResolveMultiHit mn mx roll side).prob =
        fun _ => 1 / ((mx - mn + 1 : Int) : Rat) := by
      simp [rngResolveMultiHit, h25]
    refine .of_plain (.inl rfl) rfl rfl (by simp [rngResolveMultiHit, RngEvent.isBool])
      (fun v _ => ?_) (fun v _ => ?_) (nomatch ·) ?_ (intRange_nodup _ _)
    · rw [expandExact_multiHit rfl hopts v (by rw [hprob]; positivity), multiHitOptions_pair h25,
        hprob]
      rfl
    · rw [hprob]
      positivity
    · rw [hprob, sum_map_const]
      show ((intRange mn mx).length : Rat) * _ = 1
      have hlen : (((intRange mn mx).length : Nat) : Rat) = ((mx - mn + 1 : Int) : Rat) := by
        rw [length_intRange]
        exact_mod_cast Int.toNat_of_nonneg (by omega)
      rw [hlen]
      field_simp

theorem rngResolveBindingDuration_proper (roll : Rat) (aggregate : Bool) :
    (rngResolveBindingDuration roll).Proper aggregate := by
  refine .of_plain (.inl rfl) rfl rfl (by simp [rngResolveBindingDuration, RngEvent.isBool])
    (fun v _ => ?_) (fun v _ => ?_) (nomatch ·) ?_ (by simp [rngResolveBindingDuration])
  · have : ¬ ((2 : Rat)⁻¹ < 0) := by norm_num
    simp [expandExact, Draw.entryOf, Draw.entry, analyticalRngLogDraw, rngResolveBindingDuration,
      RngEvent.isBool, this]
  · norm_num [rngResolveBindingDuration]
  · norm_num [rngResolveBindingDuration]

theorem rngResolveRampageDuration_proper (roll : Rat) (aggregate : Bool) :
    (rngResolveRampageDuration roll).Proper aggregate := by
  refine .of_plain (.inl rfl) rfl rfl (by simp [rngResolveRampageDuration, RngEvent.isBool])
    (fun v _ => ?_) (fun v _ => ?_) (nomatch ·) ?_ (by simp [rngResolveRampageDuration])
  · have : ¬ ((2 : Rat)⁻¹ < 0) := by norm_num
    simp [expandExact, Draw.entryOf, Draw.entry, analyticalRngLogDraw, rngResolveRampageDuration,
      RngEvent.isBool, this]
  · norm_num [rngResolveRampageDuration]
  · norm_num [rngResolveRampageDuration]

namespace ResolverCall

/-- Every call but an irregular crit roll. -/
def Regular : ResolverCall → Prop
  | crit ctx copy critThreshold _ => ctx.Regular copy critThreshold
  | _ => True

theorem proper_of_regular {call : ResolverCall} (h : call.Regular)
    (hsat : call.draw.saturated = none) (aggregate : Bool) : call.draw.Proper aggregate := by
  cases call with
  | accuracy effAcc isNone threshold side =>
    cases isNone with
    | true => simp [draw, rngResolveAccuracy] at hsat
    | false => exact percentDraw_proper aggregate rfl rfl (by exact hsat)
  | crit ctx copy critThreshold side => exact rngResolveCrit_proper aggregate h hsat
  | multiHit range roll side => exact rngResolveMultiHit_proper range roll side aggregate hsat
  | chance event percent threshold side =>
    cases event <;> exact percentDraw_proper aggregate rfl rfl hsat
  | wake isRestSleep sleepTurns threshold => exact percentDraw_proper aggregate rfl rfl hsat
  | defrost threshold => exact percentDraw_proper aggregate rfl rfl hsat
  | fullParalysis threshold =>
    exact resolveCanAct_proper aggregate rfl rfl (by norm_num) (by norm_num)
  | confusionSnap confusionTurns threshold =>
    exact percentDraw_proper aggregate rfl rfl hsat
  | confusionSelfHit threshold =>
    exact proper_of_bernoulli (p := confusionNoSelfHitChance / 100) rfl rfl rfl rfl rfl rfl rfl
      (outcomeOf_eq _) (by norm_num [confusionNoSelfHitChance])
      (by norm_num [confusionNoSelfHitChance])
  | confusionSelfHitRoll roll => exact rngResolveConfusionSelfHitRoll_proper roll aggregate
  | attractImmobilize threshold =>
    exact resolveCanAct_proper aggregate rfl rfl (by norm_num) (by norm_num)
  | damageRoll roll dmgByRoll side =>
    exact rngResolveDamageRoll_proper roll dmgByRoll side aggregate
  | psywaveRoll roll => exact rngResolvePsywaveRollK_proper roll aggregate
  | quickClaw threshold =>
    exact proper_of_bernoulli (p := 1 / 5) rfl rfl rfl rfl rfl rfl rfl (outcomeOf_eq _)
      (by norm_num) (by norm_num)
  | bindingDuration roll => exact rngResolveBindingDuration_proper roll aggregate
  | rampageDuration roll => exact rngResolveRampageDuration_proper roll aggregate

end ResolverCall

end NuzlockeSolver
