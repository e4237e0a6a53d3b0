import Mathlib.Algebra.Order.BigOperators.Group.List
import NuzlockeSolver.Oracle.Offers

/-!
# The weights of the branches

A logged entry is either certain, and then the oracle passes over it, or its branches carry
positive weights that add up to one. This holds of every entry a turn can log exactly when every
crit roll of the turn has its stage below three, or is decided by an ability or by Laser Focus.
-/

namespace NuzlockeSolver

namespace RngEntry

def branched (e : RngEntry) (aggregate : Bool) : Except Fault (List (Int × Rat)) :=
  (expandExact e aggregate).map (List.filter fun o => o.2 ≠ 0)

/-- A certain outcome is not branched on, and a branch is a real outcome properly weighted. -/
def WellWeighted (e : RngEntry) (aggregate : Bool) : Prop :=
  e.saturated ∨ ∃ options, e.branched aggregate = .ok options ∧
    (∀ o ∈ options, 0 < o.2 ∧ o.2 ≤ 1) ∧ (options.map (·.2)).sum = 1 ∧
    (e.event.isBool → ∀ o ∈ options, o.2 < 1)

end RngEntry

namespace Draw

def Settles (d : Draw) (aggregate : Bool) (v : Int) : Prop :=
  match d.saturated with
  | some w => v = w
  | none => d.Taken aggregate v

def logEntry (d : Draw) (v : Int) : RngEntry :=
  if d.saturated.isSome then d.entry v 1 else d.entryOf v

end Draw

/-- Some run of the turn makes the call and comes to the outcome. -/
inductive Turn.Resolves {σ : Type} (aggregate : Bool) : Turn σ → ResolverCall → Int → Prop
  | here {call : ResolverCall} {next : Int → Turn σ} {v : Int}
      (hv : call.draw.Settles aggregate v) : Resolves aggregate (.draw call next) call v
  | later {call call' : ResolverCall} {next : Int → Turn σ} {v w : Int}
      (hv : call.draw.Settles aggregate v)
      (h : Resolves aggregate (next (call.draw.outcome v)) call' w) :
      Resolves aggregate (.draw call next) call' w
  | answered {event : RngEvent} {options : List Int} {next : OracleAnswer → Turn σ}
      {a : OracleAnswer} {call : ResolverCall} {v : Int} (h : Resolves aggregate (next a) call v) :
      Resolves aggregate (.ask event options next) call v

variable {σ : Type} {aggregate : Bool}

theorem Turn.Resolves.change {t : Turn σ} {call : ResolverCall} {v w : Int}
    (h : t.Resolves aggregate call v) (hw : call.draw.Settles aggregate w) :
    t.Resolves aggregate call w := by
  induction h with
  | here _ => exact .here hw
  | later hv _ ih => exact .later hv (ih hw)
  | answered _ ih => exact .answered (ih hw)

theorem Turn.Resolves.settles {t : Turn σ} {call : ResolverCall} {v : Int}
    (h : t.Resolves aggregate call v) : call.draw.Settles aggregate v := by
  induction h with
  | here hv => exact hv
  | later _ _ ih => exact ih
  | answered _ ih => exact ih

theorem filter_pos_eq {l : List (Int × Rat)} (h : ∀ o ∈ l, 0 < o.2) :
    l.filter (fun o => o.2 ≠ 0) = l := by
  refine List.filter_eq_self.2 fun o ho => ?_
  simpa using (h o ho).ne'

theorem le_one_of_sum_eq_one {l : List (Int × Rat)} (hpos : ∀ o ∈ l, 0 < o.2)
    (hsum : (l.map (·.2)).sum = 1) : ∀ o ∈ l, o.2 ≤ 1 := by
  intro o ho
  rw [← hsum]
  refine List.single_le_sum (fun p hp => ?_) _ (List.mem_map_of_mem ho)
  obtain ⟨o', ho', rfl⟩ := List.mem_map.1 hp
  exact (hpos o' ho').le

theorem Draw.Proper.wellWeighted {d : Draw} (h : d.Proper aggregate) {v : Int}
    (hv : d.Taken aggregate v) : (d.entryOf v).WellWeighted aggregate := by
  refine .inr ⟨d.offers aggregate, ?_, ?_, h.sum, h.uncertain⟩
  · rw [RngEntry.branched, h.expand v hv]
    exact congrArg Except.ok (filter_pos_eq h.pos)
  · intro o ho
    exact ⟨h.pos o ho, le_one_of_sum_eq_one h.pos h.sum o ho⟩

theorem ResolverCall.wellWeighted_of_regular {call : ResolverCall} (h : call.Regular) {v : Int}
    (hv : call.draw.Settles aggregate v) : (call.draw.logEntry v).WellWeighted aggregate := by
  cases hsat : call.draw.saturated with
  | some w =>
    left
    simp [Draw.logEntry, hsat, RngEntry.saturated, Draw.entry, analyticalRngLogDraw, tolerance]
  | none =>
    have hv : call.draw.Taken aggregate v := by simpa [Draw.Settles, hsat] using hv
    have := (call.proper_of_regular h hsat aggregate).wellWeighted hv
    simpa [Draw.logEntry, hsat] using this

theorem logEntry_rngResolveCrit {p threshold : Rat} {side : Int} (v : Int)
    (hsat : (rngResolveCrit p threshold side).saturated = none) :
    (rngResolveCrit p threshold side).logEntry v =
      analyticalRngLogDraw .crit side v [0, 1] (bernoulli p v) := by
  simp [Draw.logEntry, hsat]
  rfl

theorem branched_crit {side v : Int} {q : Rat} (hq : 0 ≤ q) :
    (analyticalRngLogDraw .crit side v [0, 1] q).branched aggregate =
      .ok ([(0, if 0 = v then q else 1 - q), (1, if 1 = v then q else 1 - q)].filter
        fun o => o.2 ≠ 0) := by
  simp [RngEntry.branched, expandExact, analyticalRngLogDraw, not_lt.2 hq, RngEvent.isBool,
    Except.map]

theorem crit_not_wellWeighted_of_chance {threshold : Rat} {side : Int} :
    ¬ ((rngResolveCrit 100 threshold side).logEntry
      (rngResolveCrit 100 threshold side).default).WellWeighted aggregate := by
  have hsat : (rngResolveCrit 100 threshold side).saturated = none := by
    norm_num [rngResolveCrit]
  rw [logEntry_rngResolveCrit _ hsat]
  by_cases ht : threshold ≤ 100
  · have hdef : (rngResolveCrit 100 threshold side).default = 1 := by
      simp [rngResolveCrit, ht, outcomeOf]
    rw [hdef]
    rintro (h | ⟨options, hb, hpos, -⟩)
    · norm_num [RngEntry.saturated, analyticalRngLogDraw, bernoulli, tolerance] at h
    · rw [branched_crit (by norm_num [bernoulli])] at hb
      have hmem : ((0 : Int), (-99 : Rat)) ∈ options := by
        rw [← Except.ok.inj hb]
        norm_num [bernoulli]
      have := (hpos _ hmem).1
      norm_num at this
  · have hdef : (rngResolveCrit 100 threshold side).default = 0 := by
      simp [rngResolveCrit, ht, outcomeOf]
    rw [hdef]
    rintro (h | ⟨options, hb, -⟩)
    · norm_num [RngEntry.saturated, analyticalRngLogDraw, bernoulli, tolerance] at h
    · norm_num [RngEntry.branched, expandExact, analyticalRngLogDraw, bernoulli,
        Except.map] at hb
      cases hb

theorem crit_not_wellWeighted_of_threshold {threshold : Rat} {side : Int} (ht : 100 < threshold) :
    ¬ ((rngResolveCrit 1 threshold side).logEntry
      (rngResolveCrit 1 threshold side).default).WellWeighted aggregate := by
  have hsat : (rngResolveCrit 1 threshold side).saturated = none := by
    simp only [rngResolveCrit, not_le.2 ht, and_false, if_false]
    norm_num
  have hdef : (rngResolveCrit 1 threshold side).default = 0 := by
    have : ¬ threshold ≤ 1 := by linarith
    simp [rngResolveCrit, this, outcomeOf]
  rw [logEntry_rngResolveCrit _ hsat, hdef]
  rintro (h | ⟨options, hb, -, -, hone⟩)
  · norm_num [RngEntry.saturated, analyticalRngLogDraw, bernoulli, tolerance] at h
  · rw [branched_crit (by norm_num [bernoulli])] at hb
    have hmem : ((1 : Int), (1 : Rat)) ∈ options := by
      rw [← Except.ok.inj hb]
      norm_num [bernoulli]
    exact absurd (hone rfl _ hmem) (lt_irrefl _)

/-- An irregular crit roll is not saturated, and its unforced entry is badly weighted. -/
theorem ResolverCall.not_wellWeighted_of_irregular (aggregate : Bool) {call : ResolverCall}
    (h : ¬ call.Regular) :
    call.draw.saturated = none ∧ call.draw.logged = true ∧
      ¬ (call.draw.logEntry call.draw.default).WellWeighted aggregate := by
  cases call with
  | crit ctx copy critThreshold side =>
    rcases getCritChance_of_not_regular h with hp | ⟨hp, ht⟩
    · simp only [draw, hp]
      exact ⟨by norm_num [rngResolveCrit], rfl, crit_not_wellWeighted_of_chance⟩
    · simp only [draw, hp]
      refine ⟨?_, rfl, crit_not_wellWeighted_of_threshold ht⟩
      simp only [rngResolveCrit, not_le.2 ht, and_false, if_false]
      norm_num
  | _ => exact absurd trivial h

/-- The entries a turn can log are all well weighted exactly when its crit rolls are regular. -/
theorem logged_wellWeighted_iff (t : Turn σ) (aggregate : Bool) :
    (∀ call v, t.Resolves aggregate call v → call.draw.logged →
      (call.draw.logEntry v).optionsTruncated = false →
      (call.draw.logEntry v).WellWeighted aggregate) ↔
    ∀ call v, t.Resolves aggregate call v → call.Regular := by
  constructor
  · intro h call v hv
    by_contra hirr
    obtain ⟨hsat, hlog, hbad⟩ := call.not_wellWeighted_of_irregular aggregate hirr
    have hdef : t.Resolves aggregate call call.draw.default :=
      hv.change (by simp [Draw.Settles, hsat, Draw.Taken])
    refine hbad (h call _ hdef hlog ?_)
    cases call with
    | crit ctx copy critThreshold side => rw [ResolverCall.draw, logEntry_rngResolveCrit _ hsat]; rfl
    | _ => exact absurd trivial hirr
  · intro h call v hv _ _
    exact call.wellWeighted_of_regular (h call v hv) hv.settles

def frostBreathCrit : ResolverCall :=
  .crit
    { attackerAbility := .other, attackerItem := .other, leekSpecies := false, laserFocus := false,
      critStage := 0, defenderAbility := .other, critBoost := 3, magicRoom := false }
    .moveExec 50 0

def frostBreathTurn : Turn Int := .draw frostBreathCrit .done

def frostBreathEnv : DfsEnv Int where
  turn := frostBreathTurn
  oppAction := {}
  oppProb := 1
  emit := fun _ => true
  cfg := {}

/-- The oracle emits a child without the crit of weight -99, and one with it of weight 100. -/
theorem frostBreath_badly_weighted :
    ((frostBreathEnv.dfs (maxPrefixDepth + 1) [] 0 {}).map fun S =>
        S.emitted.map fun leaf => (leaf.child, leaf.prob)) =
      .ok [(0, some (-99)), (1, some 100)] ∧
    ¬ ∀ call v, frostBreathTurn.Resolves true call v → call.draw.logged →
      (call.draw.logEntry v).optionsTruncated = false →
      (call.draw.logEntry v).WellWeighted true := by
  refine ⟨by decide +kernel, fun h => ?_⟩
  have hirr : ¬ frostBreathCrit.Regular := by
    show ¬ CritCtx.Regular _ .moveExec 50
    decide +kernel
  obtain ⟨hsat, hlog, hbad⟩ := frostBreathCrit.not_wellWeighted_of_irregular true hirr
  refine hbad (h frostBreathCrit _ (.here ?_) hlog rfl)
  simp [Draw.Settles, hsat, Draw.Taken]

end NuzlockeSolver
