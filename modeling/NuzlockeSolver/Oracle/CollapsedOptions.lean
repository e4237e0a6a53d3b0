import Mathlib.Data.Fintype.Basic
import NuzlockeSolver.Oracle.Weights

/-!
# Collapsed and merged options

A pessimal or a coarse expansion keeps some of the outcomes that the exact expansion offers, and
the aggregation of a damage roll keeps one roll of each damage. Three loops over the same table of
damages pick the rolls, and all of them pick the lowest roll of a damage.
-/

namespace NuzlockeSolver

section Extremes

variable {better : Int → Int → Bool}

structure StrictComparison (better : Int → Int → Bool) : Prop where
  irrefl : ∀ a, better a a = false
  trans : ∀ a b c, better a b → better b c → better a c

theorem strictComparison_lt : StrictComparison fun a b => a < b where
  irrefl a := by simp
  trans a b c hab hbc := by
    simp only [decide_eq_true_eq] at hab hbc ⊢
    omega

theorem strictComparison_gt : StrictComparison fun a b => b < a where
  irrefl a := by simp
  trans a b c hab hbc := by
    simp only [decide_eq_true_eq] at hab hbc ⊢
    omega

theorem strictComparison_worse (oppAttacks : Bool) : StrictComparison (worse oppAttacks) := by
  cases oppAttacks with
  | true => exact strictComparison_gt
  | false => exact strictComparison_lt

theorem foldl_extreme_first (hb : StrictComparison better) (dmg : DmgByRoll)
    (l : List (Fin 16)) (best : Fin 16) :
    let r := l.foldl (fun best roll => if better (dmg roll) (dmg best) then roll else best) best
    r = best ∨ better (dmg r) (dmg best) ∧
      ∃ before after, l = before ++ r :: after ∧ ∀ roll ∈ before, dmg roll ≠ dmg r := by
  induction l generalizing best with
  | nil => exact .inl rfl
  | cons roll l ih =>
    intro r
    by_cases hroll : better (dmg roll) (dmg best) = true
    · have hr : r = l.foldl (fun best roll => if better (dmg roll) (dmg best) then roll else best)
          roll := by
        simp only [r, List.foldl_cons, if_pos hroll]
      right
      rcases ih roll with hsame | ⟨hbetter, before, after, hl, hdiffer⟩
      · rw [← hr] at hsame
        rw [hsame]
        exact ⟨hroll, [], l, rfl, by simp⟩
      · rw [← hr] at hbetter hl hdiffer
        refine ⟨hb.trans _ _ _ hbetter hroll, roll :: before, after, by rw [hl]; rfl, ?_⟩
        rintro roll' hmem heq
        rcases List.mem_cons.1 hmem with rfl | hmem
        · rw [heq, hb.irrefl] at hbetter
          cases hbetter
        · exact hdiffer roll' hmem heq
    · have hr : r = l.foldl (fun best roll => if better (dmg roll) (dmg best) then roll else best)
          best := by
        simp only [r, List.foldl_cons, if_neg hroll]
      rcases ih best with hsame | ⟨hbetter, before, after, hl, hdiffer⟩
      · left
        rw [hr, hsame]
      · right
        rw [← hr] at hbetter hl hdiffer
        refine ⟨hbetter, roll :: before, after, by rw [hl]; rfl, ?_⟩
        rintro roll' hmem heq
        rcases List.mem_cons.1 hmem with rfl | hmem
        · rw [heq] at hroll
          exact hroll hbetter
        · exact hdiffer roll' hmem heq

def LowestRoll (dmg : DmgByRoll) (roll : Fin 16) : Prop := ∀ r, dmg r = dmg roll → roll ≤ r

theorem extremeRoll_lowest (hb : StrictComparison better) (dmg : DmgByRoll) :
    LowestRoll dmg (extremeRoll better dmg) := by
  intro r hr
  rcases foldl_extreme_first hb dmg (List.finRange 16) 0 with hzero | ⟨-, before, after, hl, hdiffer⟩
  · rw [extremeRoll, hzero]
    exact Fin.zero_le r
  · rw [← extremeRoll] at hl hdiffer
    have hmem : r ∈ before ++ extremeRoll better dmg :: after := hl ▸ List.mem_finRange r
    have hsorted : (before ++ extremeRoll better dmg :: after).Pairwise (· < ·) :=
      hl ▸ List.pairwise_lt_finRange 16
    rcases List.mem_append.1 hmem with hbefore | hmem
    · exact absurd hr (hdiffer r hbefore)
    rcases List.mem_cons.1 hmem with heq | hafter
    · exact le_of_eq heq.symm
    · have htail := (List.pairwise_append.1 hsorted).2.1
      exact le_of_lt ((List.pairwise_cons.1 htail).1 r hafter)

end Extremes

section Groups

variable {dmg : DmgByRoll}

theorem headD_rollsOf_lowest {d : Int} (hd : d ∈ damages dmg) :
    LowestRoll dmg ((rollsOf dmg d).headD 0) := by
  intro r hr
  rw [dmg_headD_rollsOf hd] at hr
  have hmem : r ∈ rollsOf dmg d := by simpa [rollsOf] using hr
  have hsorted : (rollsOf dmg d).Pairwise (· < ·) := (List.pairwise_lt_finRange 16).filter _
  cases hrolls : rollsOf dmg d with
  | nil => exact absurd hrolls (rollsOf_ne_nil hd)
  | cons low rest =>
    rw [hrolls] at hmem hsorted
    rw [List.headD_cons]
    rcases List.mem_cons.1 hmem with rfl | hmem
    · exact le_rfl
    · exact le_of_lt ((List.pairwise_cons.1 hsorted).1 r hmem)

def rollCount (dmg : DmgByRoll) (roll : Fin 16) : ℕ :=
  (Finset.univ.filter fun r => dmg r = dmg roll).card

theorem length_rollsOf_eq_rollCount (roll : Fin 16) :
    (rollsOf dmg (dmg roll)).length = rollCount dmg roll := by
  have hnodup : (rollsOf dmg (dmg roll)).Nodup := (List.nodup_finRange 16).filter _
  rw [rollCount, ← List.toFinset_card_of_nodup hnodup]
  congr 1
  ext r
  simp [rollsOf]

/-- One option for each damage: its lowest roll, with the share of its rolls. -/
def GroupsByDamage (dmg : DmgByRoll) (options : List BranchOption) : Prop :=
  ∃ rolls : List (Fin 16),
    options = rolls.map (fun roll : Fin 16 =>
      (((roll : ℕ) : Int), some ((rollCount dmg roll : Rat) / 16))) ∧
    (rolls.map dmg).Nodup ∧ (∀ roll, dmg roll ∈ rolls.map dmg) ∧
    (∀ roll ∈ rolls, LowestRoll dmg roll) ∧ (options.map fun o => o.2.getD 0).sum = 1

theorem sum_aggregatedRolls (dmg : DmgByRoll) : ((aggregatedRolls dmg).map (·.2)).sum = 1 :=
  (rngResolveDamageRoll_proper 0 dmg 0 true).sum

theorem aggregatedRolls_groups (dmg : DmgByRoll) :
    GroupsByDamage dmg ((aggregatedRolls dmg).map fun o => (o.1, some o.2)) := by
  have hback : ((damages dmg).map fun d => (rollsOf dmg d).headD 0).map dmg = damages dmg := by
    rw [List.map_map]
    exact (List.map_congr_left fun d hd => dmg_headD_rollsOf hd).trans (List.map_id _)
  refine ⟨(damages dmg).map fun d => (rollsOf dmg d).headD 0, ?_, ?_, fun roll => ?_, ?_, ?_⟩
  · rw [aggregatedRolls, List.map_map, List.map_map]
    refine List.map_congr_left fun d hd => ?_
    simp only [Function.comp_apply]
    rw [← length_rollsOf_eq_rollCount, dmg_headD_rollsOf hd]
  · rw [hback]
    exact damages_nodup dmg
  · rw [hback]
    exact mem_damages.2 ⟨roll, rfl⟩
  · intro roll hroll
    obtain ⟨d, hd, rfl⟩ := List.mem_map.1 hroll
    exact headD_rollsOf_lowest hd
  · rw [List.map_map]
    exact sum_aggregatedRolls dmg

theorem GroupsByDamage.exists_mem {options : List BranchOption} (h : GroupsByDamage dmg options)
    {roll : Fin 16} (hlow : LowestRoll dmg roll) :
    ∃ p, 0 < p ∧ (((roll : ℕ) : Int), some p) ∈ options := by
  obtain ⟨rolls, rfl, -, hall, hlowest, -⟩ := h
  obtain ⟨low, hlowMem, hdmg⟩ := List.mem_map.1 (hall roll)
  have heq : low = roll := le_antisymm (hlowest low hlowMem roll hdmg.symm) (hlow low hdmg)
  subst heq
  refine ⟨(rollCount dmg low : Rat) / 16, ?_, List.mem_map_of_mem hlowMem⟩
  have hpos : 0 < rollCount dmg low := Finset.card_pos.2 ⟨low, by simp⟩
  positivity

end Groups

section Expansion

namespace RngEntry

def Shaped (e : RngEntry) : Prop :=
  match e.event with
  | .psywaveRoll => e.optionsTruncated = true ∧ e.options = []
  | .damageRoll =>
    e.optionsTruncated = false ∧
      (e.options = upTo 16 ∧ e.optionsCount = 16 ∧ e.dmgByRoll.isSome ∨
        e.options = upTo 15 ∧ e.optionsCount = 15 ∧ e.dmgByRoll = none)
  | .multiHitCount =>
    e.optionsTruncated = false ∧
      ((∃ v, e.options = [v]) ∨ ∃ mn mx, mn < mx ∧ e.options = [mn, mx])
  | .bindingDuration => e.optionsTruncated = false ∧ e.options = [4, 5]
  | .rampageDuration => e.optionsTruncated = false ∧ e.options = [2, 3]
  | event =>
    e.optionsTruncated = false ∧ event.isBool ∧ e.options = [0, 1] ∧ (e.chosen = 0 ∨ e.chosen = 1)

/-- A Category-B entry of a resolver: its options, and the probability of the chosen one. -/
structure WellFormed (e : RngEntry) : Prop where
  shaped : e.Shaped
  pos : 0 < e.pChosen
  le_one : e.pChosen ≤ 1

/-- A boolean draw that the log reports as certain. -/
def Certain (e : RngEntry) : Prop := e.event.isBool ∧ e.pChosen = 1

/-- The collapsed options are possible outcomes of the exact expansion. -/
def CollapsesWithin (e : RngEntry) : Prop :=
  ∃ exact, expandCatbOptions e true .none = .ok exact ∧
    ∀ mode ∈ [CollapseMode.pessimal, .coarse], ∃ options,
      expandCatbOptions e true mode = .ok options ∧ options ≠ [] ∧
        ∀ o ∈ options, ∃ p, 0 < p ∧ (o.1, some p) ∈ exact

variable {e : RngEntry}

/-- What is left to check: the exact options are possible, and the two collapses pick of them. -/
theorem CollapsesWithin.of_exact {exact : List (Int × Rat)}
    (hexact : expandExact e true = .ok exact) (hne : exact ≠ []) (hpos : ∀ o ∈ exact, 0 < o.2)
    (hpick : ∀ options, pessimalOptions e = some options ∨ coarseOptions e = some options →
      options ≠ [] ∧ ∀ o ∈ options, ∃ o' ∈ exact, o'.1 = o.1) : e.CollapsesWithin := by
  have hsame : expandCatbOptions e true .none = .ok (exact.map fun o => (o.1, some o.2)) := by
    simp only [expandCatbOptions, hexact]
    rfl
  have hfall : ∀ o ∈ exact.map fun o => (o.1, some o.2), ∃ p, 0 < p ∧
      (o.1, some p) ∈ exact.map fun o => (o.1, some o.2) := by
    intro o ho
    obtain ⟨o', ho', rfl⟩ := List.mem_map.1 ho
    exact ⟨o'.2, hpos o' ho', ho⟩
  have hpicked : ∀ options, pessimalOptions e = some options ∨ coarseOptions e = some options →
      options ≠ [] ∧ ∀ o ∈ options, ∃ p, 0 < p ∧
        (o.1, some p) ∈ exact.map fun o => (o.1, some o.2) := by
    intro options h
    obtain ⟨hne, hmem⟩ := hpick options h
    refine ⟨hne, fun o ho => ?_⟩
    obtain ⟨o', ho', heq⟩ := hmem o ho
    exact ⟨o'.2, hpos o' ho', List.mem_map.2 ⟨o', ho', by rw [heq]⟩⟩
  refine ⟨_, hsame, fun mode hmode => ?_⟩
  obtain rfl | rfl : mode = .pessimal ∨ mode = .coarse := by simpa using hmode
  · cases hcollapse : pessimalOptions e with
    | none =>
      refine ⟨exact.map fun o => (o.1, some o.2), ?_, by simpa using hne, hfall⟩
      simp only [expandCatbOptions, hcollapse, hexact]
      rfl
    | some options =>
      refine ⟨options, ?_, hpicked options (.inl hcollapse)⟩
      simp only [expandCatbOptions, hcollapse]
  · cases hcollapse : coarseOptions e with
    | none =>
      refine ⟨exact.map fun o => (o.1, some o.2), ?_, by simpa using hne, hfall⟩
      simp only [expandCatbOptions, hcollapse, hexact]
      rfl
    | some options =>
      refine ⟨options, ?_, hpicked options (.inr hcollapse)⟩
      simp only [expandCatbOptions, hcollapse]

theorem coarseOptions_of_ne (h : e.event ≠ .damageRoll) : coarseOptions e = none := by
  rw [coarseOptions]
  split
  · rw [if_neg fun hroll => h hroll.1]
  · rfl

theorem mem_options_of_pessimal (h : e.event ≠ .damageRoll) {options : List BranchOption}
    (hp : pessimalOptions e = some options) : ∃ v ∈ e.options, options = [(v, none)] := by
  rw [pessimalOptions] at hp
  split at hp
  · cases hp
  · rename_i worst _
    simp only [if_neg h] at hp
    split at hp
    · rename_i hmem
      cases hp
      exact ⟨worst, by simpa using hmem, rfl⟩
    · cases hp

theorem CollapsesWithin.of_options {exact : List (Int × Rat)} (hroll : e.event ≠ .damageRoll)
    (hexact : expandExact e true = .ok exact) (hne : exact ≠ []) (hpos : ∀ o ∈ exact, 0 < o.2)
    (hmem : ∀ v ∈ e.options, ∃ o ∈ exact, o.1 = v) : e.CollapsesWithin := by
  refine .of_exact hexact hne hpos fun options h => ?_
  rcases h with h | h
  · obtain ⟨v, hv, rfl⟩ := mem_options_of_pessimal hroll h
    refine ⟨by simp, fun o ho => ?_⟩
    obtain rfl := List.mem_singleton.1 ho
    exact hmem v hv
  · rw [coarseOptions_of_ne hroll] at h
    cases h

theorem expandExact_bool (hbool : e.event.isBool) (htrunc : e.optionsTruncated = false)
    (hoptions : e.options = [0, 1]) (hp : 0 < e.pChosen) :
    expandExact e true = .ok [(0, if 0 = e.chosen then e.pChosen else 1 - e.pChosen),
      (1, if 1 = e.chosen then e.pChosen else 1 - e.pChosen)] := by
  simp [expandExact, htrunc, not_lt.2 hp.le, hoptions, hbool]

theorem collapsesWithin_bool (hbool : e.event.isBool) (htrunc : e.optionsTruncated = false)
    (hoptions : e.options = [0, 1]) (hp : 0 < e.pChosen) (hlt : e.pChosen < 1) :
    e.CollapsesWithin := by
  have hroll : e.event ≠ .damageRoll := fun h => by
    rw [h] at hbool
    cases hbool
  have hweight (v : Int) : 0 < if v = e.chosen then e.pChosen else 1 - e.pChosen := by
    split
    · exact hp
    · linarith
  refine .of_options hroll (expandExact_bool hbool htrunc hoptions hp) (by simp)
    (fun o ho => ?_) fun v hv => ?_
  · rcases List.mem_cons.1 ho with rfl | ho
    · exact hweight 0
    · obtain rfl := List.mem_singleton.1 ho
      exact hweight 1
  · rw [hoptions] at hv
    obtain rfl | rfl : v = 0 ∨ v = 1 := by simpa using hv
    · exact ⟨_, List.mem_cons_self, rfl⟩
    · exact ⟨_, List.mem_cons_of_mem _ List.mem_cons_self, rfl⟩

theorem expandExact_multiHitCount (hevent : e.event = .multiHitCount)
    (htrunc : e.optionsTruncated = false) (hne : e.options ≠ []) (hp : 0 < e.pChosen) :
    expandExact e true = .ok (multiHitOptions e.options) := by
  have hbool : RngEvent.isBool .multiHitCount = false := rfl
  simp [expandExact, htrunc, not_lt.2 hp.le, hne, hevent, hbool]

theorem multiHitOptions_spec {mn mx : Int} (hlt : mn < mx) :
    (∀ o ∈ multiHitOptions [mn, mx], 0 < o.2) ∧
      ∀ v, mn ≤ v → v ≤ mx → ∃ o ∈ multiHitOptions [mn, mx], o.1 = v := by
  by_cases h25 : mn = 2 ∧ mx = 5
  · obtain ⟨rfl, rfl⟩ := h25
    refine ⟨fun o ho => ?_, fun v hlo hhi => ?_⟩
    · have hpos : ∀ o ∈ multiHitOptions [2, 5], 0 < o.2 := by
        simp only [multiHitOptions, List.mem_cons, List.not_mem_nil, or_false, forall_eq_or_imp,
          forall_eq]
        norm_num
      exact hpos o ho
    · obtain rfl | rfl | rfl | rfl : v = 2 ∨ v = 3 ∨ v = 4 ∨ v = 5 := by omega
      all_goals simp [multiHitOptions]
  · rw [multiHitOptions_pair h25, uniformOptions]
    have hcount : (0 : Rat) < ((mx - mn + 1 : Int) : Rat) := by
      exact_mod_cast (by omega : (0 : Int) < mx - mn + 1)
    refine ⟨fun o ho => ?_, fun v hlo hhi => ?_⟩
    · obtain ⟨v, -, rfl⟩ := List.mem_map.1 ho
      exact one_div_pos.2 hcount
    · exact ⟨_, List.mem_map_of_mem (mem_intRange.2 ⟨hlo, hhi⟩), rfl⟩

theorem collapsesWithin_multiHit (hevent : e.event = .multiHitCount)
    (htrunc : e.optionsTruncated = false)
    (hoptions : (∃ v, e.options = [v]) ∨ ∃ mn mx, mn < mx ∧ e.options = [mn, mx])
    (hp : 0 < e.pChosen) : e.CollapsesWithin := by
  have hroll : e.event ≠ .damageRoll := by simp [hevent]
  rcases hoptions with ⟨v, hv⟩ | ⟨mn, mx, hlt, hpair⟩
  · have hexact := expandExact_multiHitCount hevent htrunc (by simp [hv]) hp
    rw [hv] at hexact
    refine .of_options hroll hexact (by simp [multiHitOptions]) ?_ ?_
    · simp [multiHitOptions]
    · simp [hv, multiHitOptions]
  · have hexact := expandExact_multiHitCount hevent htrunc (by simp [hpair]) hp
    rw [hpair] at hexact
    obtain ⟨hpos, hmem⟩ := multiHitOptions_spec hlt
    refine .of_options hroll hexact ?_ hpos fun v hv => ?_
    · obtain ⟨o, ho, -⟩ := hmem mn le_rfl hlt.le
      exact List.ne_nil_of_mem ho
    · rw [hpair] at hv
      obtain rfl | rfl : v = mn ∨ v = mx := by simpa using hv
      · exact hmem v le_rfl hlt.le
      · exact hmem v hlt.le le_rfl

theorem collapsesWithin_duration (hevent : e.event = .bindingDuration ∨ e.event = .rampageDuration)
    (htrunc : e.optionsTruncated = false) (hne : e.options ≠ []) (hp : 0 < e.pChosen) :
    e.CollapsesWithin := by
  have hroll : e.event ≠ .damageRoll := by rcases hevent with h | h <;> simp [h]
  have hexact : expandExact e true = .ok (e.options.map fun v => (v, 1 / 2)) := by
    rcases hevent with h | h <;>
      simp [expandExact, htrunc, not_lt.2 hp.le, hne, h, RngEvent.isBool]
  refine .of_options hroll hexact (by simpa using hne) (fun o ho => ?_) fun v hv =>
    ⟨_, List.mem_map_of_mem hv, rfl⟩
  obtain ⟨v, -, rfl⟩ := List.mem_map.1 ho
  norm_num

theorem collapsesWithin_psywave (hevent : e.event = .psywaveRoll)
    (htrunc : e.optionsTruncated = true) (hoptions : e.options = []) : e.CollapsesWithin := by
  have hexact : expandExact e true = .ok ((upTo 101).map fun k => (k, psywaveProb k)) := by
    simp [expandExact, htrunc, hevent]
  refine .of_options (by simp [hevent]) hexact (by simp [upTo]) (fun o ho => ?_) (by simp [hoptions])
  obtain ⟨k, -, rfl⟩ := List.mem_map.1 ho
  simp only [psywaveProb]
  split <;> norm_num

theorem expandExact_aggregated {dmg : DmgByRoll} (hevent : e.event = .damageRoll)
    (htrunc : e.optionsTruncated = false) (hoptions : e.options = upTo 16)
    (hcount : e.optionsCount = 16) (hdmg : e.dmgByRoll = some dmg) (hp : 0 < e.pChosen) :
    expandExact e true = .ok (aggregatedRolls dmg) := by
  simp [expandExact, htrunc, not_lt.2 hp.le, hoptions, hevent, hcount, hdmg, RngEvent.isBool, upTo]

theorem collapsesWithin_rolls {dmg : DmgByRoll} (hevent : e.event = .damageRoll)
    (htrunc : e.optionsTruncated = false) (hoptions : e.options = upTo 16)
    (hcount : e.optionsCount = 16) (hdmg : e.dmgByRoll = some dmg) (hp : 0 < e.pChosen) :
    e.CollapsesWithin := by
  have hgroups := aggregatedRolls_groups dmg
  have hmem {better : Int → Int → Bool} (hb : StrictComparison better) :
      ∃ o ∈ aggregatedRolls dmg, o.1 = ((extremeRoll better dmg : ℕ) : Int) := by
    obtain ⟨p, -, hroll⟩ := hgroups.exists_mem (extremeRoll_lowest hb dmg)
    obtain ⟨o, ho, heq⟩ := List.mem_map.1 hroll
    exact ⟨o, ho, congrArg Prod.fst heq⟩
  have hpos : ∀ o ∈ aggregatedRolls dmg, 0 < o.2 :=
    (rngResolveDamageRoll_proper 0 dmg 0 true).pos
  obtain ⟨o₀, ho₀, -⟩ := hmem strictComparison_lt
  refine .of_exact (expandExact_aggregated hevent htrunc hoptions hcount hdmg hp)
    (List.ne_nil_of_mem ho₀) hpos fun options h => ?_
  rcases h with h | h
  · -- the worst roll for the player
    obtain rfl : [(((extremeRoll (worse (e.attackerSide = 1)) dmg : ℕ) : Int), none)] = options := by
      have hrange := (extremeRoll (worse (e.attackerSide = 1)) dmg).isLt
      rw [pessimalOptions, collapseRule, hevent, hdmg] at h
      simpa [hcount] using h
    refine ⟨by simp, fun o ho => ?_⟩
    obtain rfl := List.mem_singleton.1 ho
    exact hmem (strictComparison_worse _)
  · -- the rolls of the least and of the greatest damage
    rw [coarseOptions, hdmg] at h
    simp only [hevent, hcount, and_self, if_true] at h
    split at h
    · cases h
      refine ⟨by simp, fun o ho => ?_⟩
      obtain rfl := List.mem_singleton.1 ho
      exact hmem strictComparison_lt
    · cases h
      refine ⟨by simp, fun o ho => ?_⟩
      rcases List.mem_cons.1 ho with rfl | ho
      · exact hmem strictComparison_lt
      · obtain rfl := List.mem_singleton.1 ho
        exact hmem strictComparison_gt

theorem collapsesWithin_confusionRoll (hevent : e.event = .damageRoll)
    (htrunc : e.optionsTruncated = false) (hoptions : e.options = upTo 15)
    (hcount : e.optionsCount = 15) (hdmg : e.dmgByRoll = none) (hp : 0 < e.pChosen) :
    e.CollapsesWithin := by
  have hexact : expandExact e true = .ok (uniformOptions (upTo 15) 15) := by
    simp [expandExact, htrunc, not_lt.2 hp.le, hoptions, hevent, hcount, RngEvent.isBool, upTo]
  refine .of_exact hexact (by simp [uniformOptions, upTo]) (fun o ho => ?_) fun options h => ?_
  · obtain ⟨v, -, rfl⟩ := List.mem_map.1 ho
    norm_num
  · rcases h with h | h
    · rw [pessimalOptions, collapseRule, hevent, hdmg] at h
      cases h
    · rw [coarseOptions, hdmg] at h
      cases h

theorem WellFormed.collapsesWithin (h : e.WellFormed) (hcertain : ¬ e.Certain) :
    e.CollapsesWithin := by
  obtain ⟨hshape, hp, hle⟩ := h
  have hbool (htail : e.optionsTruncated = false ∧ e.event.isBool ∧ e.options = [0, 1] ∧
      (e.chosen = 0 ∨ e.chosen = 1)) : e.CollapsesWithin := by
    obtain ⟨htrunc, hbool, hoptions, -⟩ := htail
    have hne : e.pChosen ≠ 1 := fun hone => hcertain ⟨hbool, hone⟩
    exact collapsesWithin_bool hbool htrunc hoptions hp (lt_of_le_of_ne hle hne)
  rw [Shaped] at hshape
  split at hshape
  · rename_i hevent
    exact collapsesWithin_psywave hevent hshape.1 hshape.2
  · rename_i hevent
    obtain ⟨htrunc, ⟨hoptions, hcount, hsome⟩ | ⟨hoptions, hcount, hnone⟩⟩ := hshape
    · obtain ⟨dmg, hdmg⟩ := Option.isSome_iff_exists.1 hsome
      exact collapsesWithin_rolls hevent htrunc hoptions hcount hdmg hp
    · exact collapsesWithin_confusionRoll hevent htrunc hoptions hcount hnone hp
  · rename_i hevent
    exact collapsesWithin_multiHit hevent hshape.1 hshape.2 hp
  · rename_i hevent
    exact collapsesWithin_duration (.inl hevent) hshape.1 (by simp [hshape.2]) hp
  · rename_i hevent
    exact collapsesWithin_duration (.inr hevent) hshape.1 (by simp [hshape.2]) hp
  · exact hbool hshape

theorem WellFormed.not_collapsesWithin (h : e.WellFormed) (hcertain : e.Certain) :
    ¬ e.CollapsesWithin := by
  obtain ⟨hbool, hone⟩ := hcertain
  obtain ⟨htrunc, hoptions, hchosen⟩ : e.optionsTruncated = false ∧ e.options = [0, 1] ∧
      (e.chosen = 0 ∨ e.chosen = 1) := by
    have hshape := h.shaped
    rw [Shaped] at hshape
    split at hshape
    case h_6 => exact ⟨hshape.1, hshape.2.2.1, hshape.2.2.2⟩
    all_goals
      rename_i hevent
      rw [hevent] at hbool
      cases hbool
  have hroll : e.event ≠ .damageRoll := fun hroll => by
    rw [hroll] at hbool
    cases hbool
  have hexact := expandExact_bool hbool htrunc hoptions h.pos
  rintro ⟨exact, hsame, hmodes⟩
  obtain ⟨options, hcoarse, -, hsub⟩ := hmodes .coarse (by simp)
  simp only [expandCatbOptions, hexact, coarseOptions_of_ne hroll] at hsame hcoarse
  obtain rfl := Except.ok.inj hsame
  obtain rfl := Except.ok.inj hcoarse
  simp only [List.map_cons, List.map_nil, List.mem_cons, List.not_mem_nil, or_false,
    forall_eq_or_imp, forall_eq, hone, Prod.mk.injEq, Option.some.injEq] at hsub
  obtain ⟨⟨p, hp, hzero⟩, q, hq, hunit⟩ := hsub
  rcases hchosen with hc | hc
  · simp only [hc] at hunit
    norm_num at hunit
    linarith
  · simp only [hc] at hzero
    norm_num at hzero
    linarith

variable {d : Draw} {v : Int}

theorem wellFormed_of_unsaturated (hsat : d.saturated = none) (hshape : (d.entryOf v).Shaped)
    (hpos : 0 < d.prob v) (hle : d.prob v ≤ 1) : (d.logEntry v).WellFormed := by
  rw [Draw.logEntry, hsat]
  exact ⟨hshape, hpos, hle⟩

theorem wellFormed_of_boolean (hbool : d.event.isBool) (hoptions : d.options = [0, 1])
    (hsupport : d.support = [0, 1]) (hdmg : d.dmgByRoll = none)
    (hdefault : d.default = 0 ∨ d.default = 1)
    (hsat : ∀ w, d.saturated = some w → w = 0 ∨ w = 1)
    (hproper : d.saturated = none → d.Proper false) (hv : d.Settles false v) :
    (d.logEntry v).WellFormed := by
  have hshape (p : Rat) (hv : v = 0 ∨ v = 1) : (d.entry v p).Shaped := by
    rw [Shaped]
    split
    case h_6 => exact ⟨by simp [Draw.entry, analyticalRngLogDraw, hoptions], hbool,
      by simp [Draw.entry, analyticalRngLogDraw, hoptions], hv⟩
    all_goals
      rename_i hevent
      change d.event = _ at hevent
      rw [hevent] at hbool
      cases hbool
  cases hs : d.saturated with
  | some w =>
    have hvw : v = w := by simpa [Draw.Settles, hs] using hv
    rw [Draw.logEntry, hs]
    exact ⟨hshape 1 (by rw [hvw]; exact hsat w hs), one_pos, le_rfl⟩
  | none =>
    have hp := hproper hs
    have htaken : d.Taken false v := by simpa [Draw.Settles, hs] using hv
    have hoffered : d.offered false = [0, 1] := by
      rw [Draw.offered_of_plain (.inl hdmg), hsupport]
    have hv01 : v = 0 ∨ v = 1 := by
      rcases htaken with rfl | hmem
      · exact hdefault
      · simpa [hoffered] using hmem
    have hmem : (v, d.prob v) ∈ d.offers false := by
      rw [Draw.offers_of_plain (.inl hdmg), hsupport]
      rcases hv01 with rfl | rfl <;> simp
    exact wellFormed_of_unsaturated hs (hshape _ hv01) (hp.pos _ hmem)
      (hp.uncertain hbool _ hmem).le

theorem saturated_percentDraw {event : RngEvent} {chance threshold : Rat} {side w : Int}
    (h : (percentDraw event chance threshold side).saturated = some w) : w = 0 ∨ w = 1 := by
  rw [percentDraw] at h
  split_ifs at h
  · exact .inr (Option.some.inj h).symm
  · exact .inl (Option.some.inj h).symm

theorem saturated_resolveCanAct {event : RngEvent} {chance threshold : Rat} {w : Int}
    (h : (resolveCanAct chance threshold event).saturated = some w) : w = 0 ∨ w = 1 := by
  rw [resolveCanAct] at h
  split_ifs at h
  · exact .inl (Option.some.inj h).symm
  · exact .inr (Option.some.inj h).symm

theorem saturated_rngResolveCrit {chance threshold : Rat} {side w : Int}
    (h : (rngResolveCrit chance threshold side).saturated = some w) : w = 0 ∨ w = 1 := by
  rw [rngResolveCrit] at h
  split_ifs at h
  · exact .inl (Option.some.inj h).symm
  · exact .inr (Option.some.inj h).symm

theorem wellFormed_rngResolveMultiHit {range : HitRange} {roll : Rat} {side : Int}
    (hv : (rngResolveMultiHit range.minHits range.maxHits roll side).Settles false v) :
    ((rngResolveMultiHit range.minHits range.maxHits roll side).logEntry v).WellFormed := by
  obtain ⟨mn, mx, hle⟩ := range
  dsimp only at hv ⊢
  by_cases heq : mn = mx
  · subst heq
    have hsat : (rngResolveMultiHit mn mn roll side).saturated = some mn := if_pos rfl
    rw [Draw.logEntry, hsat]
    refine ⟨⟨?_, .inl ⟨mn, ?_⟩⟩, one_pos, le_rfl⟩
    · simp [Draw.entry, analyticalRngLogDraw, rngResolveMultiHit]
    · simp [Draw.entry, analyticalRngLogDraw, rngResolveMultiHit]
  · have hsat : (rngResolveMultiHit mn mx roll side).saturated = none := if_neg heq
    have hproper := rngResolveMultiHit_proper ⟨mn, mx, hle⟩ roll side false hsat
    have htaken : (rngResolveMultiHit mn mx roll side).Taken false v := by
      simpa [Draw.Settles, hsat] using hv
    have hshape : ((rngResolveMultiHit mn mx roll side).entryOf v).Shaped := by
      refine ⟨?_, .inr ⟨mn, mx, lt_of_le_of_ne hle heq, ?_⟩⟩
      · simp [Draw.entryOf, Draw.entry, analyticalRngLogDraw, rngResolveMultiHit, heq]
      · simp [Draw.entryOf, Draw.entry, analyticalRngLogDraw, rngResolveMultiHit, heq]
    refine wellFormed_of_unsaturated hsat hshape ?_ ?_ <;>
      simp only [rngResolveMultiHit]
    · split
      · rename_i h25
        rw [multiHitProb25]
        split_ifs with hlow hhigh
        · norm_num
        · norm_num
        · -- an outcome outside the range would have been refused
          exfalso
          have hexpand := hproper.expand v htaken
          have hneg : ((rngResolveMultiHit mn mx roll side).entryOf v).pChosen < 0 := by
            show (rngResolveMultiHit mn mx roll side).prob v < 0
            simp [rngResolveMultiHit, h25, multiHitProb25, hlow, hhigh]
          rw [expandExact, if_neg (by simp [hshape.1]), if_pos hneg] at hexpand
          cases hexpand
      · have hcount : (0 : Rat) < ((mx - mn + 1 : Int) : Rat) := by
          exact_mod_cast (by omega : (0 : Int) < mx - mn + 1)
        positivity
    · split
      · rw [multiHitProb25]
        split_ifs <;> norm_num
      · have hcount : (1 : Rat) ≤ ((mx - mn + 1 : Int) : Rat) := by
          exact_mod_cast (by omega : (1 : Int) ≤ mx - mn + 1)
        exact (div_le_one (by linarith)).2 hcount

theorem wellFormed_of_call {call : ResolverCall} (h : call.Regular)
    (hv : call.draw.Settles false v) : (call.draw.logEntry v).WellFormed := by
  have hproper (hs : call.draw.saturated = none) := ResolverCall.proper_of_regular h hs false
  cases call with
  | accuracy effAcc isNone threshold side =>
    cases isNone with
    | true =>
      exact wellFormed_of_boolean rfl rfl rfl rfl (outcomeOf_eq _)
        (fun w hw => .inr (Option.some.inj hw).symm) hproper hv
    | false =>
      exact wellFormed_of_boolean rfl rfl rfl rfl (outcomeOf_eq _)
        (fun _ => saturated_percentDraw) hproper hv
  | crit ctx copy critThreshold side =>
    exact wellFormed_of_boolean rfl rfl rfl rfl (outcomeOf_eq _)
      (fun _ => saturated_rngResolveCrit) hproper hv
  | multiHit range roll side => exact wellFormed_rngResolveMultiHit hv
  | chance event percent threshold side =>
    cases event <;> exact wellFormed_of_boolean rfl rfl rfl rfl (outcomeOf_eq _)
      (fun _ => saturated_percentDraw) hproper hv
  | wake isRestSleep sleepTurns threshold =>
    exact wellFormed_of_boolean rfl rfl rfl rfl (outcomeOf_eq _)
      (fun _ => saturated_percentDraw) hproper hv
  | defrost threshold =>
    exact wellFormed_of_boolean rfl rfl rfl rfl (outcomeOf_eq _)
      (fun _ => saturated_percentDraw) hproper hv
  | fullParalysis threshold =>
    exact wellFormed_of_boolean rfl rfl rfl rfl (outcomeOf_eq _)
      (fun _ => saturated_resolveCanAct) hproper hv
  | confusionSnap confusionTurns threshold =>
    exact wellFormed_of_boolean rfl rfl rfl rfl (outcomeOf_eq _)
      (fun _ => saturated_percentDraw) hproper hv
  | confusionSelfHit threshold =>
    exact wellFormed_of_boolean rfl rfl rfl rfl (outcomeOf_eq _)
      (fun _ hw => by cases hw) hproper hv
  | confusionSelfHitRoll roll =>
    exact wellFormed_of_unsaturated rfl ⟨rfl, .inr ⟨rfl, rfl, rfl⟩⟩
      (by norm_num [ResolverCall.draw, rngResolveConfusionSelfHitRoll])
      (by norm_num [ResolverCall.draw, rngResolveConfusionSelfHitRoll])
  | attractImmobilize threshold =>
    exact wellFormed_of_boolean rfl rfl rfl rfl (outcomeOf_eq _)
      (fun _ => saturated_resolveCanAct) hproper hv
  | damageRoll roll dmgByRoll side =>
    exact wellFormed_of_unsaturated rfl ⟨rfl, .inl ⟨rfl, rfl, rfl⟩⟩
      (by norm_num [ResolverCall.draw, rngResolveDamageRoll])
      (by norm_num [ResolverCall.draw, rngResolveDamageRoll])
  | psywaveRoll roll =>
    refine wellFormed_of_unsaturated rfl ⟨rfl, rfl⟩ ?_ ?_ <;>
      · simp only [ResolverCall.draw, rngResolvePsywaveRollK, psywaveProb]
        split <;> norm_num
  | quickClaw threshold =>
    exact wellFormed_of_boolean rfl rfl rfl rfl (outcomeOf_eq _)
      (fun _ hw => by cases hw) hproper hv
  | bindingDuration roll =>
    exact wellFormed_of_unsaturated rfl ⟨rfl, rfl⟩
      (by norm_num [ResolverCall.draw, rngResolveBindingDuration])
      (by norm_num [ResolverCall.draw, rngResolveBindingDuration])
  | rampageDuration roll =>
    exact wellFormed_of_unsaturated rfl ⟨rfl, rfl⟩
      (by norm_num [ResolverCall.draw, rngResolveRampageDuration])
      (by norm_num [ResolverCall.draw, rngResolveRampageDuration])

/-- On a well-formed entry the collapses stay within the possible outcomes exactly when the draw
is not a boolean one logged as certain; the options of an annotated roll are one for each damage. -/
theorem collapsed_options (e : RngEntry) (h : e.WellFormed) :
    (e.CollapsesWithin ↔ ¬ e.Certain) ∧
    ∀ dmg, e.event = .damageRoll → e.dmgByRoll = some dmg →
      ∃ options, expandCatbOptions e true .none = .ok options ∧ GroupsByDamage dmg options := by
  refine ⟨⟨fun hwithin hcertain => h.not_collapsesWithin hcertain hwithin, h.collapsesWithin⟩,
    fun dmg hevent hdmg => ?_⟩
  have hshape := h.shaped
  rw [Shaped, hevent] at hshape
  obtain ⟨htrunc, ⟨hoptions, hcount, -⟩ | ⟨-, -, hnone⟩⟩ := hshape
  · refine ⟨_, ?_, aggregatedRolls_groups dmg⟩
    simp only [expandCatbOptions, expandExact_aggregated hevent htrunc hoptions hcount hdmg h.pos]
    rfl
  · rw [hdmg] at hnone
    cases hnone

def ruledOutCrit : RngEntry := (rngResolveCrit 0 100 1).entry 0 1

theorem collapse_leaves_possible :
    ruledOutCrit.WellFormed ∧ expandCatbOptions ruledOutCrit true .pessimal = .ok [(1, none)] ∧
      expandCatbOptions ruledOutCrit true .none = .ok [(0, some 1), (1, some 0)] ∧
      ¬ ∀ e : RngEntry, e.WellFormed → e.CollapsesWithin := by
  have hshape : ruledOutCrit.WellFormed :=
    ⟨by simp [Shaped, ruledOutCrit, Draw.entry, analyticalRngLogDraw, rngResolveCrit,
      RngEvent.isBool], by decide +kernel, by decide +kernel⟩
  have hpessimal : expandCatbOptions ruledOutCrit true .pessimal = .ok [(1, none)] := by
    decide +kernel
  have hexact : expandCatbOptions ruledOutCrit true .none = .ok [(0, some 1), (1, some 0)] := by
    decide +kernel
  refine ⟨hshape, hpessimal, hexact, fun h => ?_⟩
  obtain ⟨exact, hsame, hmodes⟩ := h ruledOutCrit hshape
  obtain ⟨options, hcollapsed, -, hsub⟩ := hmodes .pessimal (by simp)
  rw [hexact] at hsame
  rw [hpessimal] at hcollapsed
  obtain rfl := Except.ok.inj hsame
  obtain rfl := Except.ok.inj hcollapsed
  obtain ⟨p, hp, hmem⟩ := hsub (1, none) List.mem_cons_self
  simp only [List.mem_cons, List.not_mem_nil, or_false, Prod.mk.injEq, Option.some.injEq] at hmem
  norm_num at hmem
  linarith

def risingRolls : DmgByRoll := fun roll => (20 + (roll : ℕ) / 4 : ℕ)

theorem collapsed_options_risingRolls :
    let e := (rngResolveDamageRoll 0 risingRolls 0).entryOf 3
    (e.CollapsesWithin ↔ ¬ e.Certain) ∧
    ∃ options, expandCatbOptions e true .none = .ok options ∧ GroupsByDamage risingRolls options := by
  have h : ((rngResolveDamageRoll 0 risingRolls 0).entryOf 3).WellFormed :=
    ⟨⟨rfl, .inl ⟨by decide, rfl, rfl⟩⟩, by decide +kernel, by decide +kernel⟩
  have hmain := collapsed_options _ h
  exact ⟨hmain.1, hmain.2 risingRolls rfl rfl⟩

end RngEntry

end Expansion

end NuzlockeSolver
