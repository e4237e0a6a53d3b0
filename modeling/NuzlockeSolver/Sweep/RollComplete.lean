import NuzlockeSolver.Sweep.RollSweep
import Mathlib.Data.Finset.Max
import Mathlib.Algebra.Order.Ring.Rat
import Mathlib.Tactic.Ring

/-!
# What the roll enumeration finds

The survivors of the phase loop are the turns in the observed order in which every mover rolls the
least of the sixteen rolls that do its damage and at most one self-hit leaves the default roll. So
no outcome is lost as long as no two self-hitters do another damage than at the default roll.
-/

namespace NuzlockeSolver

section KeepFirst

variable {κ α ρ : Type} [DecidableEq κ] {k : κ} {a : α}

theorem mem_keepFirst {seen : List κ} {l : List (κ × α)} :
    (k, a) ∈ keepFirst seen l ↔
      k ∉ seen ∧ ∃ l₁ l₂, l = l₁ ++ (k, a) :: l₂ ∧ ∀ x ∈ l₁, x.1 ≠ k := by
  induction l generalizing seen with
  | nil => simp [keepFirst]
  | cons x l ih =>
    obtain ⟨k₀, a₀⟩ := x
    rw [keepFirst]
    have hcons : ∀ hne : k₀ ≠ k,
        (∃ l₁ l₂, (k₀, a₀) :: l = l₁ ++ (k, a) :: l₂ ∧ ∀ x ∈ l₁, x.1 ≠ k) ↔
          ∃ l₁ l₂, l = l₁ ++ (k, a) :: l₂ ∧ ∀ x ∈ l₁, x.1 ≠ k := by
      intro hne
      constructor
      · rintro ⟨l₁, l₂, heq, hl₁⟩
        cases l₁ with
        | nil =>
          obtain ⟨hx, _⟩ := List.cons.inj heq
          exact absurd (congrArg Prod.fst hx) hne
        | cons y l₁ =>
          exact ⟨l₁, l₂, (List.cons.inj heq).2, fun x hx => hl₁ x (List.mem_cons_of_mem _ hx)⟩
      · rintro ⟨l₁, l₂, rfl, hl₁⟩
        exact ⟨(k₀, a₀) :: l₁, l₂, rfl, List.forall_mem_cons.2 ⟨hne, hl₁⟩⟩
    by_cases hne : k₀ = k
    · subst hne
      split
      · rename_i hseen
        rw [ih]
        exact iff_of_false (fun h => h.1 hseen) (fun h => h.1 hseen)
      · rename_i hseen
        rw [List.mem_cons, ih]
        constructor
        · rintro (h | h)
          · obtain ⟨-, rfl⟩ := Prod.mk.inj h
            exact ⟨hseen, [], l, rfl, by simp⟩
          · exact absurd List.mem_cons_self h.1
        · rintro ⟨-, l₁, l₂, heq, hl₁⟩
          cases l₁ with
          | nil => exact Or.inl (List.cons.inj heq).1.symm
          | cons y l₁ =>
            obtain ⟨rfl, -⟩ := List.cons.inj heq
            exact absurd rfl (hl₁ _ List.mem_cons_self)
    · rw [hcons hne]
      split
      · exact ih
      · rw [List.mem_cons, ih, List.mem_cons]
        have h₁ : ¬ (k, a) = (k₀, a₀) := fun h => hne (congrArg Prod.fst h).symm
        have h₂ : ¬ k = k₀ := fun h => hne h.symm
        simp only [h₁, h₂, false_or]

theorem lookup_keepFirst {seen : List κ} {l : List (κ × α)} (h : (k, a) ∈ keepFirst seen l) :
    (keepFirst seen l).lookup k = some a := by
  induction l generalizing seen with
  | nil => simp [keepFirst] at h
  | cons x l ih =>
    obtain ⟨k₀, a₀⟩ := x
    rw [keepFirst] at h ⊢
    split at h
    · rename_i hseen
      rw [if_pos hseen]
      exact ih h
    · rename_i hseen
      rw [if_neg hseen]
      rcases List.mem_cons.1 h with h | h
      · obtain ⟨rfl, rfl⟩ := Prod.mk.inj h
        exact List.lookup_cons_self
      · have hne : (k == k₀) = false := by
          have := (mem_keepFirst.1 h).1
          simp only [List.mem_cons, not_or] at this
          simpa using this.1
        rw [List.lookup_cons, hne]
        exact ih h

/-- Over a sorted list of trials, the trial kept for a key is the least one that gives it. -/
theorem mem_keepFirst_filterMap [LinearOrder ρ] {l : List ρ} (hl : l.Pairwise (· < ·))
    {f : ρ → Option (κ × α)} :
    (k, a) ∈ keepFirst [] (l.filterMap f) ↔
      ∃ r ∈ l, f r = some (k, a) ∧ ∀ r' ∈ l, r' < r → ∀ b, f r' ≠ some (k, b) := by
  rw [mem_keepFirst]
  constructor
  · rintro ⟨-, l₁, l₂, heq, hl₁⟩
    obtain ⟨t₁, t, rfl, rfl, ht⟩ := List.filterMap_eq_append_iff.1 heq
    obtain ⟨skip, r, t₂, rfl, hskip, hf, -⟩ := List.filterMap_eq_cons_iff.1 ht
    rw [← List.append_assoc] at hl ⊢
    refine ⟨r, List.mem_append_right _ List.mem_cons_self, hf, fun r' hr' hlt b hf' => ?_⟩
    rcases List.mem_append.1 hr' with hr' | hr'
    · rcases List.mem_append.1 hr' with hr' | hr'
      · exact hl₁ (k, b) (List.mem_filterMap.2 ⟨r', hr', hf'⟩) rfl
      · rw [hskip r' hr'] at hf'
        cases hf'
    · rcases List.mem_cons.1 hr' with rfl | hr'
      · exact lt_irrefl _ hlt
      · have hgt := List.rel_of_pairwise_cons (List.pairwise_append.1 hl).2.1 hr'
        exact lt_asymm hlt hgt
  · rintro ⟨r, hr, hf, hleast⟩
    obtain ⟨t₁, t₂, rfl⟩ := List.append_of_mem hr
    refine ⟨List.not_mem_nil, t₁.filterMap f, t₂.filterMap f, ?_, ?_⟩
    · rw [List.filterMap_append, List.filterMap_cons_some hf]
    · rintro ⟨k', b⟩ hx rfl
      obtain ⟨r', hr', hf'⟩ := List.mem_filterMap.1 hx
      have hlt : r' < r := (List.pairwise_append.1 hl).2.2 r' hr' r List.mem_cons_self
      exact hleast r' (List.mem_append_left _ hr') hlt b hf'

end KeepFirst

def entriesOf (rolls : Nat → ℚ) (crits : Nat → Bool) : Nat → List (Nat × Nat) → List MoverEntry
  | _, [] => []
  | i, mover :: movers =>
    (mover.1, mover.2, .scalar (rolls i), .flag (crits i)) :: entriesOf rolls crits (i + 1) movers

namespace PhaseTurn

variable {σ κ : Type} (T : PhaseTurn σ κ)

def observedCrit (i : Nat) : Bool := 0 < (T.critCounts[i]?).getD 0

def turnConfig (rolls : Nat → ℚ) (crits : Nat → Bool) (hits : List SelfHitRoll) : SweepConfig κ :=
  sweepConfigOf T.setting (entriesOf rolls crits 0 T.movers) hits

def moverDamage (mover : Nat × Nat) (out : Option σ × CapturingLogger) : Option Int :=
  out.1.map fun _ => (attackerPerHitDamages out.2 mover.1 (T.attackerTeamIdx mover)).headD 0

def observedTurn (rolls : Nat → ℚ) (hits : List SelfHitRoll) : Option (σ × CapturingLogger) :=
  let out := T.run (T.turnConfig rolls T.observedCrit hits)
  match out.1 with
  | none => none
  | some rs => if checkActionOrder out.2 (T.movers.map Prod.fst) then some (rs, out.2) else none

/-- The damage of mover `i` when it is tried with a roll: placeholders after it. -/
def trial (rolls : Nat → ℚ) (i : Nat) (mover : Nat × Nat) (roll : ℚ) : Option Int :=
  T.moverDamage mover (T.run (T.turnConfig
    (fun j => if j < i then rolls j else if j = i then roll else 1 / 2)
    (fun j => if j ≤ i then T.observedCrit j else false) []))

def KeptRoll (rolls : Nat → ℚ) (i : Nat) (mover : Nat × Nat) : Prop :=
  rolls i ∈ sweepRolls ∧ ∃ dmg, T.trial rolls i mover (rolls i) = some dmg ∧
    ∀ r ∈ sweepRolls, r < rolls i → T.trial rolls i mover r ≠ some dmg

/-- The movers before position `k` have these rolls. -/
def Decides (p : PartialCandidate) (k : Nat) (rolls : Nat → ℚ) : Prop :=
  p.rolls = (List.range k).map (fun j => .scalar (rolls j)) ∧
    p.crits = (List.range k).map (fun j => .flag (T.observedCrit j)) ∧ p.moverIteration = k

variable {T}

theorem moverEntries_eq {p : PartialCandidate} {k : Nat} {rolls : Nat → ℚ}
    (hp : T.Decides p k rolls) (roll : ℚ) (crit : Bool) (i : Nat) (movers : List (Nat × Nat)) :
    moverEntries p k (.scalar roll) (.flag crit) i movers =
      entriesOf (fun j => if j < k then rolls j else if j = k then roll else 1 / 2)
        (fun j => if j < k then T.observedCrit j else if j = k then crit else false) i movers := by
  induction movers generalizing i with
  | nil => rfl
  | cons mover movers ih =>
    rw [moverEntries, entriesOf, ih]
    congr 1
    by_cases hlt : i < k
    · simp only [hlt, if_true, hp.1, hp.2.1, List.getElem?_map, List.getElem?_range hlt,
        Option.map_some, Option.getD_some]
    · by_cases heq : i = k
      · simp only [heq, if_true, if_false, lt_irrefl]
      · rw [if_neg hlt, if_neg heq, if_neg hlt, if_neg hlt, if_neg heq, if_neg heq]

theorem entriesOf_congr {rolls rolls' : Nat → ℚ} {crits crits' : Nat → Bool} {i : Nat}
    {movers : List (Nat × Nat)}
    (h : ∀ j, j < i + movers.length → rolls j = rolls' j ∧ crits j = crits' j) :
    entriesOf rolls crits i movers = entriesOf rolls' crits' i movers := by
  induction movers generalizing i with
  | nil => rfl
  | cons mover movers ih =>
    rw [List.length_cons] at h
    obtain ⟨hr, hc⟩ := h i (by omega)
    rw [entriesOf, entriesOf, hr, hc, ih fun j hj => h j (by omega)]

theorem finalRun_eq {p : PartialCandidate} {rolls : Nat → ℚ}
    (hp : T.Decides p T.movers.length rolls) (hit : Option SelfHitRoll) :
    T.finalRun p hit =
      (T.observedTurn rolls hit.toList).map fun o => ⟨p.rolls, p.crits, o.1, o.2⟩ := by
  have hcfg : makeSweepConfig T.setting p T.movers T.movers.length (.scalar (1 / 2)) (.flag false)
      hit = T.turnConfig rolls T.observedCrit hit.toList := by
    rw [makeSweepConfig, turnConfig, moverEntries_eq hp]
    congr 1
    apply entriesOf_congr
    intro j hj
    rw [Nat.zero_add] at hj
    exact ⟨if_pos hj, if_pos hj⟩
  unfold finalRun observedTurn
  dsimp only
  rw [hcfg]
  generalize T.run (T.turnConfig rolls T.observedCrit hit.toList) = out
  obtain ⟨rs, log⟩ := out
  cases rs with
  | none => rfl
  | some rs =>
    dsimp only
    split
    · rfl
    · rfl

theorem trialDamage_eq {p : PartialCandidate} {i : Nat} {rolls : Nat → ℚ} (hp : T.Decides p i rolls)
    (mover : Nat × Nat) (roll : ℚ) (crits : List ℚ)
    (hcrit : decide (crits.headD 101 = 0) = T.observedCrit i) :
    T.trialDamage p i mover 1 false crits 0 roll = T.trial rolls i mover roll := by
  have hcfg : makeSweepConfig T.setting p T.movers i (.scalar roll) (.flag (crits.headD 101 = 0))
      none = T.turnConfig (fun j => if j < i then rolls j else if j = i then roll else 1 / 2)
        (fun j => if j ≤ i then T.observedCrit j else false) [] := by
    rw [makeSweepConfig, turnConfig, hcrit, moverEntries_eq hp]
    congr 1
    apply entriesOf_congr
    intro j _
    refine ⟨rfl, ?_⟩
    rcases lt_trichotomy j i with h | h | h
    · rw [if_pos h, if_pos h.le]
    · rw [if_neg (by omega), if_pos h, if_pos h.le, h]
    · rw [if_neg (by omega), if_neg (by omega), if_neg (by omega)]
  unfold trialDamage trial moverDamage
  simp only [if_true, hcfg]
  generalize T.run _ = out
  obtain ⟨rs, log⟩ := out
  cases rs with
  | none => rfl
  | some rs =>
    dsimp only [Option.map_some]
    cases attackerPerHitDamages log mover.1 (T.attackerTeamIdx mover) with
    | nil => rfl
    | cons dmg _ => rfl

theorem pairwise_sweepRolls : sweepRolls.Pairwise (· < ·) := by decide +kernel

/-- The rolls kept for a single-hit mover: for each damage the least roll that does it. -/
theorem mem_hitRollMap {p : PartialCandidate} {i : Nat} {rolls : Nat → ℚ} (hp : T.Decides p i rolls)
    {mover : Nat × Nat} {crits : List ℚ}
    (hcrit : decide (crits.headD 101 = 0) = T.observedCrit i) {dmg : Int} {roll : ℚ} :
    (dmg, roll) ∈ T.hitRollMap p i mover 1 false crits 0 ↔
      roll ∈ sweepRolls ∧ T.trial rolls i mover roll = some dmg ∧
        ∀ r ∈ sweepRolls, r < roll → T.trial rolls i mover r ≠ some dmg := by
  rw [hitRollMap, mem_keepFirst_filterMap pairwise_sweepRolls]
  simp only [trialDamage_eq hp mover _ crits hcrit, Option.map_eq_some_iff, Prod.mk.injEq]
  constructor
  · rintro ⟨r, hr, ⟨d, hd, rfl, rfl⟩, hleast⟩
    exact ⟨hr, hd, fun r' hr' hlt h => hleast r' hr' hlt r' (Option.map_eq_some_iff.2 ⟨_, h, rfl⟩)⟩
  · rintro ⟨hr, hd, hleast⟩
    refine ⟨roll, hr, ⟨dmg, hd, rfl, rfl⟩, ?_⟩
    intro r' hr' hlt b h
    obtain ⟨d, hd', heq⟩ := Option.map_eq_some_iff.1 h
    rw [(Prod.mk.inj heq).1] at hd'
    exact hleast _ hr' hlt hd'

theorem critAssignments_single (c : Nat) :
    critAssignments 1 (if 0 < c then 1 else 0) = [[if 0 < c then 0 else 101]] := by
  by_cases hc : 0 < c
  · rw [if_pos hc, if_pos hc]
    rfl
  · rw [if_neg hc, if_neg hc]
    rfl

theorem critAssignmentRolls_single (p : PartialCandidate) (i : Nat) (mover : Nat × Nat)
    (crits : List ℚ) :
    ∃ results, T.critAssignmentRolls p i mover 1 false crits = .ok results ∧
      ∀ x, x ∈ results ↔
        ∃ dmg roll, (dmg, roll) ∈ T.hitRollMap p i mover 1 false crits 0 ∧ x = ([roll], crits) := by
  have hmaps : (List.range 1).map (T.hitRollMap p i mover 1 false crits) =
      [T.hitRollMap p i mover 1 false crits 0] := rfl
  unfold critAssignmentRolls
  dsimp only
  rw [hmaps]
  have hlookup : ∀ {dmg roll}, (dmg, roll) ∈ T.hitRollMap p i mover 1 false crits 0 →
      (T.hitRollMap p i mover 1 false crits 0).lookup dmg = some roll :=
    fun h => lookup_keepFirst h
  generalize T.hitRollMap p i mover 1 false crits 0 = map at hlookup
  split
  · rename_i hempty
    obtain rfl : map = [] := by simpa using hempty
    exact ⟨[], rfl, by simp⟩
  · have hcombos : damageCombos (fun _ _ => true) [[]] ([map].map fun m => m.map Prod.fst) =
        map.map fun x => [x.1] := by
      simp [damageCombos]
    rw [if_neg Bool.false_ne_true, hcombos]
    have hroll : ∀ x ∈ map, perHitRolls 0 [x.1] [map] = .ok [x.2] := by
      intro x hx
      rw [perHitRolls, hlookup hx]
      rfl
    have hok : (map.map fun x => [x.1]).mapM (fun combo => perHitRolls 0 combo [map]) =
        .ok (map.map fun x => [x.2]) :=
      mapM_except_map hroll
    rw [hok]
    refine ⟨_, rfl, fun x => ?_⟩
    simp only [List.mem_map, List.mem_eraseDups]
    constructor
    · rintro ⟨_, ⟨y, hy, rfl⟩, rfl⟩
      exact ⟨y.1, y.2, hy, rfl⟩
    · rintro ⟨dmg, roll, h, rfl⟩
      exact ⟨[roll], ⟨(dmg, roll), h, rfl⟩, rfl⟩

/-- The enumeration of a single-hit mover never raises and keeps the least roll of each damage. -/
theorem enumerateMoverRolls_single {p : PartialCandidate} {i : Nat} {rolls : Nat → ℚ}
    (hp : T.Decides p i rolls) (mover : Nat × Nat) :
    ∃ results, T.enumerateMoverRolls p i mover 1 (T.moverCritCount i false) false = .ok results ∧
      ∀ x, x ∈ results ↔ ∃ dmg roll, x = ([roll], [if T.observedCrit i then 0 else 101]) ∧
        roll ∈ sweepRolls ∧ T.trial rolls i mover roll = some dmg ∧
          ∀ r ∈ sweepRolls, r < roll → T.trial rolls i mover r ≠ some dmg := by
  have hcount : T.moverCritCount i false = if 0 < (T.critCounts[i]?).getD 0 then 1 else 0 := rfl
  have hflag : ∀ c : Bool, decide (([if c then 0 else 101] : List ℚ).headD 101 = 0) = c := by
    decide +kernel
  obtain ⟨results, hok, hmem⟩ :=
    T.critAssignmentRolls_single p i mover [if T.observedCrit i then 0 else 101]
  refine ⟨results, ?_, fun x => ?_⟩
  · rw [enumerateMoverRolls, hcount, critAssignments_single]
    simp only [observedCrit, decide_eq_true_eq] at hok
    rw [List.mapM_cons, hok, ok_bind, List.mapM_nil]
    exact congrArg Except.ok (List.append_nil results)
  · rw [hmem]
    simp only [mem_hitRollMap hp (hflag _)]
    constructor
    · rintro ⟨dmg, roll, h, rfl⟩
      exact ⟨dmg, roll, rfl, h⟩
    · rintro ⟨dmg, roll, rfl, h⟩
      exact ⟨dmg, roll, h, rfl⟩

/-- The partial candidates that decide the first `k` movers with kept rolls. -/
def Kept (T : PhaseTurn σ κ) (k : Nat) (p : PartialCandidate) : Prop :=
  ∃ rolls : Nat → ℚ, T.Decides p k rolls ∧
    ∀ i < k, ∀ mover, T.movers[i]? = some mover → T.KeptRoll rolls i mover

theorem trial_congr {rolls rolls' : Nat → ℚ} {i : Nat} (h : ∀ j < i, rolls j = rolls' j)
    (mover : Nat × Nat) (roll : ℚ) : T.trial rolls i mover roll = T.trial rolls' i mover roll := by
  unfold trial
  congr 4
  funext j
  by_cases hj : j < i
  · rw [if_pos hj, if_pos hj, h j hj]
  · rw [if_neg hj, if_neg hj]

theorem keptRoll_congr {rolls rolls' : Nat → ℚ} {i : Nat} (h : ∀ j ≤ i, rolls j = rolls' j)
    (mover : Nat × Nat) : T.KeptRoll rolls i mover ↔ T.KeptRoll rolls' i mover := by
  have htrial : T.trial rolls i mover = T.trial rolls' i mover :=
    funext fun roll => trial_congr (fun j hj => h j hj.le) mover roll
  rw [KeptRoll, KeptRoll, h i le_rfl, htrial]

theorem extendPartial_eq (p : PartialCandidate) (k : Nat) (roll : ℚ) :
    extendPartial p k false ([roll], [if T.observedCrit k then 0 else 101]) =
      { rolls := p.rolls ++ [.scalar roll]
        crits := p.crits ++ [.flag (T.observedCrit k)]
        moverIteration := k + 1 } := by
  have hflag : ∀ c : Bool, decide (([if c then 0 else 101] : List ℚ).headD 101 = 0) = c := by
    decide +kernel
  unfold extendPartial
  rw [hflag]
  rfl

theorem decides_succ {p : PartialCandidate} {k : Nat} {rolls : Nat → ℚ} :
    T.Decides p (k + 1) rolls ↔
      ∃ p', T.Decides p' k rolls ∧
        p = extendPartial p' k false ([rolls k], [if T.observedCrit k then 0 else 101]) := by
  simp only [extendPartial_eq]
  constructor
  · rintro ⟨hr, hc, hi⟩
    rw [List.range_succ, List.map_append] at hr hc
    refine ⟨⟨_, _, k⟩, ⟨rfl, rfl, rfl⟩, ?_⟩
    cases p
    exact congr (congr (congrArg PartialCandidate.mk hr) hc) hi
  · rintro ⟨p', ⟨hr, hc, -⟩, rfl⟩
    rw [Decides, List.range_succ, List.map_append, List.map_append, hr, hc]
    exact ⟨rfl, rfl, rfl⟩

theorem decides_congr {p : PartialCandidate} {k : Nat} {rolls rolls' : Nat → ℚ}
    (h : ∀ j < k, rolls j = rolls' j) : T.Decides p k rolls ↔ T.Decides p k rolls' := by
  have hmap : (List.range k).map (fun j => RollEntry.scalar (rolls j)) =
      (List.range k).map (fun j => RollEntry.scalar (rolls' j)) :=
    List.map_congr_left fun j hj => by rw [h j (List.mem_range.1 hj)]
  rw [Decides, Decides, hmap]

theorem moverStep_spec {k : Nat} {mover : Nat × Nat} {active : List PartialCandidate}
    (hsingle : (T.moverHitCounts[k]?).getD 1 = 1) (hmover : T.movers[k]? = some mover)
    (hactive : ∀ p, p ∈ active ↔ T.Kept k p) :
    ∃ next, T.moverStep k mover active = .ok next ∧ ∀ p, p ∈ next ↔ T.Kept (k + 1) p := by
  have hrun : ∀ p ∈ active, ∃ b, (do
      let results ← T.enumerateMoverRolls p k mover 1 (T.moverCritCount k false) false
      .ok (results.map (extendPartial p k false)) : Except SweepFault _) = .ok b := by
    intro p hp
    obtain ⟨rolls, hdec, -⟩ := (hactive p).1 hp
    obtain ⟨results, hok, -⟩ := enumerateMoverRolls_single hdec mover
    exact ⟨_, by rw [hok, ok_bind]⟩
  obtain ⟨next, hnext⟩ := mapM_except_ok hrun
  refine ⟨next.flatten, ?_, fun q => ?_⟩
  · rw [moverStep, hsingle]
    exact congrArg (fun x : Except SweepFault (List (List PartialCandidate)) =>
      x >>= fun next => .ok next.flatten) hnext
  rw [List.mem_flatten]
  constructor
  · rintro ⟨b, hb, hq⟩
    obtain ⟨p, hp, hb⟩ := (mem_mapM_except hnext).1 hb
    obtain ⟨rolls, hdec, hkept⟩ := (hactive p).1 hp
    obtain ⟨results, hok, hmem⟩ := enumerateMoverRolls_single hdec mover
    rw [hok] at hb
    cases hb
    obtain ⟨x, hx, rfl⟩ := List.mem_map.1 hq
    obtain ⟨dmg, roll, rfl, hroll, htrial, hleast⟩ := (hmem x).1 hx
    have hat : Function.update rolls k roll k = roll := Function.update_self _ _ _
    have hbefore : ∀ j < k, rolls j = Function.update rolls k roll j :=
      fun j hj => (Function.update_of_ne (Nat.ne_of_lt hj) _ _).symm
    refine ⟨Function.update rolls k roll, ?_, fun i hi mover' hmover' => ?_⟩
    · exact decides_succ.2 ⟨p, (decides_congr hbefore).1 hdec, by rw [hat]⟩
    · rcases Nat.lt_succ_iff_lt_or_eq.1 hi with hlt | rfl
      · rw [← keptRoll_congr fun j hj => hbefore j (Nat.lt_of_le_of_lt hj hlt)]
        exact hkept i hlt mover' hmover'
      · obtain rfl : mover = mover' := Option.some.inj (hmover.symm.trans hmover')
        have heq : T.trial rolls i mover = T.trial (Function.update rolls i roll) i mover :=
          funext fun r => trial_congr hbefore mover r
        rw [KeptRoll, hat, ← heq]
        exact ⟨hroll, dmg, htrial, hleast⟩
  · rintro ⟨rolls, hsucc, hkept⟩
    obtain ⟨p, hdec, rfl⟩ := decides_succ.1 hsucc
    have hp : p ∈ active :=
      (hactive p).2 ⟨rolls, hdec, fun i hi => hkept i (Nat.lt_succ_of_lt hi)⟩
    obtain ⟨results, hok, hmem⟩ := enumerateMoverRolls_single hdec mover
    obtain ⟨hroll, dmg, htrial, hleast⟩ := hkept k (Nat.lt_succ_self k) mover hmover
    refine ⟨results.map (extendPartial p k false), (mem_mapM_except hnext).2 ⟨p, hp, ?_⟩, ?_⟩
    · rw [hok, ok_bind]
    · exact List.mem_map.2 ⟨_, (hmem _).2 ⟨dmg, rolls k, rfl, hroll, htrial, hleast⟩, rfl⟩

/-- The whole loop, by induction on the movers left. -/
theorem moverLoop_spec (hsingle : ∀ i < T.movers.length, (T.moverHitCounts[i]?).getD 1 = 1)
    {k : Nat} {movers : List (Nat × Nat)} {active : List PartialCandidate}
    (hdrop : T.movers.drop k = movers) (hactive : ∀ p, p ∈ active ↔ T.Kept k p) :
    ∃ final, T.moverLoop k movers active = .ok final ∧
      ∀ p, p ∈ final ↔ T.Kept (k + movers.length) p := by
  induction movers generalizing k active with
  | nil => exact ⟨active, rfl, hactive⟩
  | cons mover movers ih =>
    have hk : k < T.movers.length := by
      have := congrArg List.length hdrop
      rw [List.length_drop, List.length_cons] at this
      omega
    have hmover : T.movers[k]? = some mover := by
      rw [← List.head?_drop, hdrop]
      rfl
    obtain ⟨next, hok, hnext⟩ := moverStep_spec (hsingle k hk) hmover hactive
    have hdrop' : T.movers.drop (k + 1) = movers := by
      rw [← List.drop_drop, hdrop]
      rfl
    obtain ⟨final, hfinal, hspec⟩ := ih hdrop' hnext
    refine ⟨final, ?_, fun p => ?_⟩
    · rw [moverLoop, hok, ok_bind, hfinal]
    · rw [hspec, List.length_cons, Nat.add_assoc, Nat.add_comm 1]

def selfHitTrial (T : PhaseTurn σ κ) (rolls : Nat → ℚ) (sh : Nat × Nat) (roll : ℚ) : Option Int :=
  (T.observedTurn rolls [(sh.1, sh.2, roll)]).map fun o => selfHitDamage o.2 sh.1

/-- The self-hit rolls that the expansion keeps: none without self-hit slots, else one slot at the
least roll of its damage. -/
def KeptHits (T : PhaseTurn σ κ) (rolls : Nat → ℚ) (hits : List SelfHitRoll) : Prop :=
  (T.selfHitSlots = [] ∧ hits = []) ∨
    ∃ sh ∈ T.selfHitSlots, ∃ roll ∈ sweepRolls, hits = [(sh.1, sh.2, roll)] ∧
      ∀ r ∈ sweepRolls, r < roll → T.selfHitTrial rolls sh r ≠ T.selfHitTrial rolls sh roll

theorem mem_selfHitRuns {p : PartialCandidate} {rolls : Nat → ℚ}
    (hp : T.Decides p T.movers.length rolls) {sh : Nat × Nat} {v : Survivor σ} :
    v ∈ T.selfHitRuns sh p ↔ ∃ roll ∈ sweepRolls,
      (∃ o, T.observedTurn rolls [(sh.1, sh.2, roll)] = some o ∧
        v = ⟨p.rolls, p.crits, o.1, o.2⟩) ∧
      ∀ r ∈ sweepRolls, r < roll → T.selfHitTrial rolls sh r ≠ T.selfHitTrial rolls sh roll := by
  have hrun : ∀ roll, (T.finalRun p (some (sh.1, sh.2, roll))).map
      (fun s => (selfHitDamage s.log sh.1, s)) = (T.observedTurn rolls [(sh.1, sh.2, roll)]).map
        fun o => (selfHitDamage o.2 sh.1, ⟨p.rolls, p.crits, o.1, o.2⟩) := by
    intro roll
    rw [finalRun_eq hp, Option.map_map]
    rfl
  simp only [selfHitRuns, hrun]
  rw [List.mem_map]
  constructor
  · rintro ⟨⟨dmg, v⟩, hv, rfl⟩
    obtain ⟨roll, hroll, hf, hleast⟩ := (mem_keepFirst_filterMap pairwise_sweepRolls).1 hv
    obtain ⟨o, ho, heq⟩ := Option.map_eq_some_iff.1 hf
    obtain ⟨rfl, rfl⟩ := Prod.mk.inj heq
    refine ⟨roll, hroll, ⟨o, ho, rfl⟩, fun r hr hlt h => ?_⟩
    unfold selfHitTrial at h
    rw [ho, Option.map_some] at h
    obtain ⟨o', ho', heq'⟩ := Option.map_eq_some_iff.1 h
    apply hleast r hr hlt
    rw [ho', Option.map_some, heq']
  · rintro ⟨roll, hroll, ⟨o, ho, rfl⟩, hleast⟩
    refine ⟨(selfHitDamage o.2 sh.1, _), (mem_keepFirst_filterMap pairwise_sweepRolls).2
      ⟨roll, hroll, by rw [ho]; rfl, fun r hr hlt b h => hleast r hr hlt ?_⟩, rfl⟩
    obtain ⟨o', ho', heq⟩ := Option.map_eq_some_iff.1 h
    unfold selfHitTrial
    rw [ho, ho', Option.map_some, Option.map_some, (Prod.mk.inj heq).1]

/-- The phase loop returns, and its survivors are the turns with kept rolls and kept self-hits. -/
theorem runPhaseLoop_spec (hsingle : ∀ i < T.movers.length, (T.moverHitCounts[i]?).getD 1 = 1) :
    ∃ survivors, T.runPhaseLoop = .ok survivors ∧ ∀ rs, (∃ v ∈ survivors, v.state = rs) ↔
      ∃ rolls hits log, (∀ i < T.movers.length, ∀ mover, T.movers[i]? = some mover →
          T.KeptRoll rolls i mover) ∧ T.KeptHits rolls hits ∧
        T.observedTurn rolls hits = some (rs, log) := by
  have hinit : ∀ p, p ∈ [({} : PartialCandidate)] ↔ T.Kept 0 p := by
    intro p
    rw [List.mem_singleton]
    constructor
    · rintro rfl
      exact ⟨fun _ => 0, ⟨rfl, rfl, rfl⟩, fun i hi => absurd hi (Nat.not_lt_zero i)⟩
    · rintro ⟨rolls, ⟨hr, hc, hi⟩, -⟩
      cases p
      exact congr (congr (congrArg PartialCandidate.mk hr) hc) hi
  obtain ⟨active, hok, hactive⟩ := @moverLoop_spec σ κ T hsingle 0 T.movers _ rfl hinit
  rw [Nat.zero_add] at hactive
  refine ⟨_, by rw [runPhaseLoop, hok, ok_bind], fun rs => ?_⟩
  -- a decided candidate for given rolls
  have hdecided : ∀ rolls, (∀ i < T.movers.length, ∀ mover, T.movers[i]? = some mover →
      T.KeptRoll rolls i mover) → ∃ p ∈ active, T.Decides p T.movers.length rolls :=
    fun rolls hkept => ⟨⟨_, _, _⟩, (hactive _).2 ⟨rolls, ⟨rfl, rfl, rfl⟩, hkept⟩, ⟨rfl, rfl, rfl⟩⟩
  cases hslots : T.selfHitSlots with
  | nil =>
    rw [List.isEmpty_nil, if_pos rfl]
    constructor
    · rintro ⟨v, hv, rfl⟩
      obtain ⟨p, hp, hfinal⟩ := List.mem_filterMap.1 hv
      obtain ⟨rolls, hdec, hkept⟩ := (hactive p).1 hp
      rw [finalRun_eq hdec] at hfinal
      obtain ⟨o, ho, rfl⟩ := Option.map_eq_some_iff.1 hfinal
      exact ⟨rolls, [], o.2, hkept, Or.inl ⟨hslots, rfl⟩, ho⟩
    · rintro ⟨rolls, hits, log, hkept, hhits, hobs⟩
      obtain ⟨p, hp, hdec⟩ := hdecided rolls hkept
      rcases hhits with ⟨-, rfl⟩ | ⟨sh, hsh, -⟩
      · refine ⟨⟨p.rolls, p.crits, rs, log⟩, List.mem_filterMap.2 ⟨p, hp, ?_⟩, rfl⟩
        rw [finalRun_eq hdec, Option.toList_none, hobs]
        rfl
      · rw [hslots] at hsh
        cases hsh
  | cons sh₀ slots =>
    rw [List.isEmpty_cons, if_neg Bool.false_ne_true, ← hslots]
    constructor
    · rintro ⟨v, hv, rfl⟩
      obtain ⟨sh, hsh, hv⟩ := List.mem_flatMap.1 hv
      obtain ⟨p, hp, hv⟩ := List.mem_flatMap.1 hv
      obtain ⟨rolls, hdec, hkept⟩ := (hactive p).1 hp
      obtain ⟨roll, hroll, ⟨o, ho, rfl⟩, hleast⟩ := (mem_selfHitRuns hdec).1 hv
      exact ⟨rolls, _, o.2, hkept, Or.inr ⟨sh, hsh, roll, hroll, rfl, hleast⟩, ho⟩
    · rintro ⟨rolls, hits, log, hkept, hhits, hobs⟩
      obtain ⟨p, hp, hdec⟩ := hdecided rolls hkept
      rcases hhits with ⟨hnil, -⟩ | ⟨sh, hsh, roll, hroll, rfl, hleast⟩
      · rw [hslots] at hnil
        cases hnil
      · refine ⟨⟨p.rolls, p.crits, rs, log⟩, List.mem_flatMap.2 ⟨sh, hsh,
          List.mem_flatMap.2 ⟨p, hp, ?_⟩⟩, rfl⟩
        exact (mem_selfHitRuns hdec).2 ⟨roll, hroll, ⟨_, hobs, rfl⟩, hleast⟩

def allHits (T : PhaseTurn σ κ) (selfRolls : Nat × Nat → ℚ) : List SelfHitRoll :=
  T.selfHitSlots.map fun sh => (sh.1, sh.2, selfRolls sh)

def damageAt (T : PhaseTurn σ κ) (rolls : Nat → ℚ) (hits : List SelfHitRoll) (mover : Nat × Nat) :
    Option Int :=
  T.moverDamage mover (T.run (T.turnConfig rolls T.observedCrit hits))

def HitsIn (T : PhaseTurn σ κ) (hits : List SelfHitRoll) : Prop :=
  ∀ h ∈ hits, (h.1, h.2.1) ∈ T.selfHitSlots

/-- The damage of a mover depends only on its own roll and crit and on those of earlier movers. -/
def DamageCausal (T : PhaseTurn σ κ) : Prop :=
  ∀ (i : Nat) (mover : Nat × Nat) (rolls rolls' : Nat → ℚ) (crits crits' : Nat → Bool)
    (hits hits' : List SelfHitRoll), T.movers[i]? = some mover →
      (∀ j ≤ i, rolls j = rolls' j ∧ crits j = crits' j) → T.HitsIn hits → T.HitsIn hits' →
        T.moverDamage mover (T.run (T.turnConfig rolls crits hits)) =
          T.moverDamage mover (T.run (T.turnConfig rolls' crits' hits'))

def InSweep (T : PhaseTurn σ κ) (rolls : Nat → ℚ) : Prop :=
  ∀ i < T.movers.length, rolls i ∈ sweepRolls

/-- Every outcome of the movers' and the self-hitters' rolls in the observed order is the state of
a survivor. -/
def LosesNothing (T : PhaseTurn σ κ) : Prop :=
  ∃ survivors, T.runPhaseLoop = .ok survivors ∧
    ∀ rolls selfRolls rs log, T.InSweep rolls →
      (∀ sh ∈ T.selfHitSlots, selfRolls sh ∈ sweepRolls) →
        T.observedTurn rolls (T.allHits selfRolls) = some (rs, log) →
          ∃ v ∈ survivors, v.state = rs

structure SameTurn (T : PhaseTurn σ κ) (out out' : Option σ × CapturingLogger) : Prop where
  state : out.1 = out'.1
  order : moveOrder out.2 = moveOrder out'.2
  movers : ∀ mover ∈ T.movers, T.moverDamage mover out = T.moverDamage mover out'
  selfHits : ∀ sh ∈ T.selfHitSlots, selfHitDamage out.2 sh.1 = selfHitDamage out'.2 sh.1

def outcome (T : PhaseTurn σ κ) (rolls : Nat → ℚ) (hits : List SelfHitRoll) :
    Option σ × CapturingLogger :=
  T.run (T.turnConfig rolls T.observedCrit hits)

/-- In no observed outcome do two self-hitters leave the damage of the default roll: the self-hits
do what one of them does alone. -/
def OneLeavesDefault (T : PhaseTurn σ κ) : Prop :=
  ∀ rolls selfRolls o, T.InSweep rolls → (∀ sh ∈ T.selfHitSlots, selfRolls sh ∈ sweepRolls) →
    T.observedTurn rolls (T.allHits selfRolls) = some o → T.selfHitSlots ≠ [] →
      ∃ sh ∈ T.selfHitSlots, ∃ roll ∈ sweepRolls, ∀ sh' ∈ T.selfHitSlots,
        selfHitDamage o.2 sh'.1 =
          selfHitDamage (T.outcome rolls [(sh.1, sh.2, roll)]).2 sh'.1

/-- A roll can be exchanged for another that does the same damage. -/
structure RollsExchange (T : PhaseTurn σ κ) : Prop where
  mover : ∀ rolls hits i m r, T.InSweep rolls → T.HitsIn hits → T.movers[i]? = some m →
    r ∈ sweepRolls → T.damageAt (Function.update rolls i r) hits m = T.damageAt rolls hits m →
      T.SameTurn (T.outcome rolls hits) (T.outcome (Function.update rolls i r) hits)
  selfHit : ∀ rolls sh r r', T.InSweep rolls → sh ∈ T.selfHitSlots → r ∈ sweepRolls →
    r' ∈ sweepRolls →
      selfHitDamage (T.outcome rolls [(sh.1, sh.2, r)]).2 sh.1 =
        selfHitDamage (T.outcome rolls [(sh.1, sh.2, r')]).2 sh.1 →
      T.SameTurn (T.outcome rolls [(sh.1, sh.2, r)]) (T.outcome rolls [(sh.1, sh.2, r')])
  selfHits : ∀ rolls hits hits', T.InSweep rolls → T.HitsIn hits → T.HitsIn hits' →
    (∀ sh ∈ T.selfHitSlots, selfHitDamage (T.outcome rolls hits).2 sh.1 =
      selfHitDamage (T.outcome rolls hits').2 sh.1) →
    T.SameTurn (T.outcome rolls hits) (T.outcome rolls hits')

/-- The final state shows what the movers and the self-hitters did. -/
def ShowsDamages (T : PhaseTurn σ κ) : Prop :=
  ∀ rolls rolls' hits hits' rs log log', T.HitsIn hits → T.HitsIn hits' →
    T.observedTurn rolls hits = some (rs, log) → T.observedTurn rolls' hits' = some (rs, log') →
      (∀ mover ∈ T.movers, T.damageAt rolls hits mover = T.damageAt rolls' hits' mover) ∧
        ∀ sh ∈ T.selfHitSlots, selfHitDamage log sh.1 = selfHitDamage log' sh.1

theorem hitsIn_allHits (selfRolls : Nat × Nat → ℚ) : T.HitsIn (T.allHits selfRolls) := by
  intro h hh
  obtain ⟨sh, hsh, rfl⟩ := List.mem_map.1 hh
  exact hsh

theorem KeptHits.hitsIn {rolls : Nat → ℚ} {hits : List SelfHitRoll} (h : T.KeptHits rolls hits) :
    T.HitsIn hits := by
  intro x hx
  rcases h with ⟨-, rfl⟩ | ⟨sh, hsh, roll, -, rfl, -⟩
  · cases hx
  · rw [List.mem_singleton.1 hx]
    exact hsh

theorem trial_eq_damageAt (hcausal : T.DamageCausal) {i : Nat} {mover : Nat × Nat}
    (hmover : T.movers[i]? = some mover) {hits : List SelfHitRoll} (hhits : T.HitsIn hits)
    (rolls : Nat → ℚ) (r : ℚ) :
    T.trial rolls i mover r = T.damageAt (Function.update rolls i r) hits mover := by
  apply hcausal i mover _ _ _ _ _ _ hmover _ (by simp [HitsIn]) hhits
  intro j hj
  refine ⟨?_, if_pos hj⟩
  rcases hj.lt_or_eq with hlt | rfl
  · rw [if_pos hlt, Function.update_of_ne (Nat.ne_of_lt hlt)]
  · rw [if_neg (lt_irrefl _), if_pos rfl, Function.update_self]

theorem damageAt_isSome {rolls : Nat → ℚ} {hits : List SelfHitRoll} {o : σ × CapturingLogger}
    (h : T.observedTurn rolls hits = some o) (mover : Nat × Nat) :
    ∃ dmg, T.damageAt rolls hits mover = some dmg := by
  unfold observedTurn at h
  unfold damageAt moverDamage
  dsimp only at h
  split at h
  · cases h
  · rename_i rs hrs
    exact ⟨_, by rw [hrs]; rfl⟩

theorem exists_least {ρ : Type} [LinearOrder ρ] {l : List ρ} {P : ρ → Prop}
    (h : ∃ r ∈ l, P r) : ∃ r ∈ l, P r ∧ ∀ r' ∈ l, r' < r → ¬ P r' := by
  classical
  obtain ⟨r₀, hr₀, hP₀⟩ := h
  obtain ⟨r, hr, hmin⟩ := Finset.exists_min_image (l.toFinset.filter P) id
    ⟨r₀, Finset.mem_filter.2 ⟨List.mem_toFinset.2 hr₀, hP₀⟩⟩
  obtain ⟨hmem, hP⟩ := Finset.mem_filter.1 hr
  refine ⟨r, List.mem_toFinset.1 hmem, hP, fun r' hr' hlt hP' => ?_⟩
  exact absurd hlt (not_lt.2 (hmin r' (Finset.mem_filter.2 ⟨List.mem_toFinset.2 hr', hP'⟩)))

theorem observedTurn_eq_some {rolls : Nat → ℚ} {hits : List SelfHitRoll} {rs : σ}
    {log : CapturingLogger} :
    T.observedTurn rolls hits = some (rs, log) ↔
      T.run (T.turnConfig rolls T.observedCrit hits) = (some rs, log) ∧
        checkActionOrder log (T.movers.map Prod.fst) = true := by
  unfold observedTurn
  generalize T.run (T.turnConfig rolls T.observedCrit hits) = out
  obtain ⟨rs', log'⟩ := out
  cases rs' with
  | none => simp
  | some rs' =>
    dsimp only
    split
    · rename_i h
      simp only [Option.some.injEq, Prod.mk.injEq]
      constructor
      · rintro ⟨rfl, rfl⟩
        exact ⟨⟨rfl, rfl⟩, h⟩
      · exact fun h => h.1
    · rename_i h
      simp only [Prod.mk.injEq]
      constructor
      · intro h'
        cases h'
      · rintro ⟨⟨-, rfl⟩, h'⟩
        exact absurd h' h

theorem SameTurn.refl (out : Option σ × CapturingLogger) : T.SameTurn out out :=
  ⟨rfl, rfl, fun _ _ => rfl, fun _ _ => rfl⟩

theorem SameTurn.trans {out₁ out₂ out₃ : Option σ × CapturingLogger} (h : T.SameTurn out₁ out₂)
    (h' : T.SameTurn out₂ out₃) : T.SameTurn out₁ out₃ where
  state := h.state.trans h'.state
  order := h.order.trans h'.order
  movers mover hm := (h.movers mover hm).trans (h'.movers mover hm)
  selfHits sh hsh := (h.selfHits sh hsh).trans (h'.selfHits sh hsh)

theorem SameTurn.observed {rolls rolls' : Nat → ℚ} {hits hits' : List SelfHitRoll}
    (h : T.SameTurn (T.outcome rolls hits) (T.outcome rolls' hits')) {rs : σ}
    {log : CapturingLogger} (hobs : T.observedTurn rolls hits = some (rs, log)) :
    ∃ log', T.observedTurn rolls' hits' = some (rs, log') := by
  obtain ⟨hrun, hcheck⟩ := observedTurn_eq_some.1 hobs
  have hstate := h.state
  have horder := h.order
  rw [outcome, hrun] at hstate horder
  refine ⟨(T.outcome rolls' hits').2, observedTurn_eq_some.2 ⟨Prod.ext hstate.symm rfl, ?_⟩⟩
  unfold checkActionOrder at hcheck ⊢
  rw [← horder]
  exact hcheck

theorem InSweep.update {rolls : Nat → ℚ} (h : T.InSweep rolls) (i : Nat) {r : ℚ}
    (hr : r ∈ sweepRolls) : T.InSweep (Function.update rolls i r) := by
  intro j hj
  by_cases heq : j = i
  · subst heq
    rwa [Function.update_self]
  · rw [Function.update_of_ne heq]
    exact h j hj

theorem damageAt_congr (hcausal : T.DamageCausal) {rolls rolls' : Nat → ℚ}
    {hits hits' : List SelfHitRoll} (hhits : T.HitsIn hits) (hhits' : T.HitsIn hits') {i : Nat}
    {mover : Nat × Nat} (hmover : T.movers[i]? = some mover) (h : ∀ j ≤ i, rolls j = rolls' j) :
    T.damageAt rolls hits mover = T.damageAt rolls' hits' mover :=
  hcausal i mover rolls rolls' _ _ hits hits' hmover (fun j hj => ⟨h j hj, rfl⟩) hhits hhits'

/-- The movers take their least rolls one after the other, and the turn stays the same. -/
theorem exists_kept_rolls (hcausal : T.DamageCausal) (hex : T.RollsExchange) {rolls : Nat → ℚ}
    {hits : List SelfHitRoll} (hhits : T.HitsIn hits) {o : σ × CapturingLogger}
    (hobs : T.observedTurn rolls hits = some o) (hrolls : T.InSweep rolls) {k : Nat}
    (hk : k ≤ T.movers.length) :
    ∃ rolls' : Nat → ℚ, T.InSweep rolls' ∧
      T.SameTurn (T.outcome rolls hits) (T.outcome rolls' hits) ∧
      ∀ i < k, ∀ mover, T.movers[i]? = some mover → T.KeptRoll rolls' i mover := by
  induction k with
  | zero => exact ⟨rolls, hrolls, .refl _, fun i hi => absurd hi (Nat.not_lt_zero i)⟩
  | succ k ih =>
    obtain ⟨rolls', hrolls', hsame, hkept⟩ := ih (by omega)
    have hmover : T.movers[k]? = some T.movers[k] := List.getElem?_eq_getElem (by omega)
    obtain ⟨log', hobs'⟩ := hsame.observed hobs
    obtain ⟨d, hd⟩ := damageAt_isSome hobs' T.movers[k]
    have htrial := trial_eq_damageAt hcausal hmover hhits rolls'
    have htry : ∃ r ∈ sweepRolls, T.trial rolls' k T.movers[k] r = some d :=
      ⟨rolls' k, hrolls' k (by omega), by rw [htrial, Function.update_eq_self, hd]⟩
    obtain ⟨r, hr, hdmg, hleast⟩ := exists_least htry
    have hbefore : ∀ j < k, Function.update rolls' k r j = rolls' j :=
      fun j hj => Function.update_of_ne (Nat.ne_of_lt hj) _ _
    refine ⟨Function.update rolls' k r, hrolls'.update k hr, hsame.trans (hex.mover _ _ _ _ _
      hrolls' hhits hmover hr (by rw [← htrial, hdmg, hd])), fun i hi mover hm => ?_⟩
    rcases Nat.lt_succ_iff_lt_or_eq.1 hi with hlt | rfl
    · rw [keptRoll_congr fun j hj => hbefore j (Nat.lt_of_le_of_lt hj hlt)]
      exact hkept i hlt mover hm
    · obtain rfl : T.movers[i] = mover := Option.some.inj (hmover.symm.trans hm)
      have hsameTrial : T.trial (Function.update rolls' i r) i T.movers[i] =
          T.trial rolls' i T.movers[i] := funext fun x => trial_congr hbefore _ x
      rw [KeptRoll, hsameTrial, Function.update_self]
      exact ⟨hr, d, hdmg, hleast⟩

/-- Turns with the same damages of the movers are the same: the rolls are exchanged one by one. -/
theorem sameTurn_of_damages (hcausal : T.DamageCausal) (hex : T.RollsExchange)
    {rolls rolls' : Nat → ℚ} {hits : List SelfHitRoll} (hhits : T.HitsIn hits)
    (hrolls : T.InSweep rolls) (hrolls' : T.InSweep rolls')
    (hdmg : ∀ mover ∈ T.movers, T.damageAt rolls hits mover = T.damageAt rolls' hits mover) :
    T.SameTurn (T.outcome rolls hits) (T.outcome rolls' hits) := by
  have hupto : ∀ k ≤ T.movers.length, ∃ mid : Nat → ℚ, T.InSweep mid ∧ (∀ j < k, mid j = rolls' j) ∧
      T.SameTurn (T.outcome rolls hits) (T.outcome mid hits) := by
    intro k hk
    induction k with
    | zero => exact ⟨rolls, hrolls, fun j hj => absurd hj (Nat.not_lt_zero j), .refl _⟩
    | succ k ih =>
      obtain ⟨mid, hmid, hagree, hsame⟩ := ih (by omega)
      have hmover : T.movers[k]? = some T.movers[k] := List.getElem?_eq_getElem (by omega)
      have hroll := hrolls' k (by omega)
      have hnew : ∀ j ≤ k, Function.update mid k (rolls' k) j = rolls' j := by
        intro j hj
        rcases hj.lt_or_eq with hlt | rfl
        · rw [Function.update_of_ne (Nat.ne_of_lt hlt), hagree j hlt]
        · exact Function.update_self _ _ _
      refine ⟨_, hmid.update k hroll, fun j hj => hnew j (Nat.le_of_lt_succ hj),
        hsame.trans (hex.mover _ _ _ _ _ hmid hhits hmover hroll ?_)⟩
      rw [damageAt_congr hcausal hhits hhits hmover hnew, ← hdmg _ (List.getElem_mem _)]
      exact hsame.movers _ (List.getElem_mem _)
  obtain ⟨mid, -, hagree, hsame⟩ := hupto _ le_rfl
  have hcfg : T.outcome mid hits = T.outcome rolls' hits := by
    rw [outcome, outcome, turnConfig, turnConfig]
    congr 2
    exact entriesOf_congr fun j hj => ⟨hagree j (by omega), rfl⟩
  rwa [hcfg] at hsame

theorem hitsIn_single {sh : Nat × Nat} (hsh : sh ∈ T.selfHitSlots) (roll : ℚ) :
    T.HitsIn [(sh.1, sh.2, roll)] := by
  intro h hh
  rw [List.mem_singleton.1 hh]
  exact hsh

def Found (T : PhaseTurn σ κ) (rs : σ) : Prop :=
  ∃ rolls hits log, (∀ i < T.movers.length, ∀ mover, T.movers[i]? = some mover →
    T.KeptRoll rolls i mover) ∧ T.KeptHits rolls hits ∧
      T.observedTurn rolls hits = some (rs, log)

/-- An outcome with one self-hit is found: first the movers take their least rolls, then the
self-hitter does. -/
theorem found_of_single (hcausal : T.DamageCausal) (hex : T.RollsExchange) {rolls : Nat → ℚ}
    (hrolls : T.InSweep rolls) {sh : Nat × Nat} (hsh : sh ∈ T.selfHitSlots) {roll : ℚ}
    (hroll : roll ∈ sweepRolls) {rs : σ} {log : CapturingLogger}
    (hobs : T.observedTurn rolls [(sh.1, sh.2, roll)] = some (rs, log)) : T.Found rs := by
  have hin := hitsIn_single hsh roll
  obtain ⟨rolls', hrolls', hsame, hkept⟩ := exists_kept_rolls hcausal hex hin hobs hrolls le_rfl
  obtain ⟨log₁, hobs₁⟩ := hsame.observed hobs
  have htry : ∃ r ∈ sweepRolls, T.selfHitTrial rolls' sh r = some (selfHitDamage log₁ sh.1) :=
    ⟨roll, hroll, by rw [selfHitTrial, hobs₁]; rfl⟩
  obtain ⟨r, hr, hfound, hmin⟩ := exists_least htry
  obtain ⟨o, ho, hod⟩ := Option.map_eq_some_iff.1 hfound
  have hdamage : selfHitDamage (T.outcome rolls' [(sh.1, sh.2, roll)]).2 sh.1 =
      selfHitDamage (T.outcome rolls' [(sh.1, sh.2, r)]).2 sh.1 := by
    rw [outcome, outcome, (observedTurn_eq_some.1 hobs₁).1, (observedTurn_eq_some.1 ho).1]
    exact hod.symm
  obtain ⟨log₂, hobs₂⟩ :=
    (hex.selfHit rolls' sh roll r hrolls' hsh hroll hr hdamage).observed hobs₁
  refine ⟨rolls', _, log₂, hkept, Or.inr ⟨sh, hsh, r, hr, rfl, fun r' hr' hlt => ?_⟩, hobs₂⟩
  rw [hfound]
  exact hmin r' hr' hlt

theorem found_of_oneLeavesDefault (hcausal : T.DamageCausal) (hex : T.RollsExchange)
    (hone : T.OneLeavesDefault) {rolls : Nat → ℚ} {selfRolls : Nat × Nat → ℚ} {rs : σ}
    {log : CapturingLogger} (hrolls : T.InSweep rolls)
    (hselfRolls : ∀ sh ∈ T.selfHitSlots, selfRolls sh ∈ sweepRolls)
    (hobs : T.observedTurn rolls (T.allHits selfRolls) = some (rs, log)) : T.Found rs := by
  have hin : T.HitsIn (T.allHits selfRolls) := hitsIn_allHits selfRolls
  by_cases hslots : T.selfHitSlots = []
  · have hnil : T.allHits selfRolls = [] := by rw [allHits, hslots, List.map_nil]
    rw [hnil] at hin hobs
    obtain ⟨rolls', -, hsame, hkept⟩ := exists_kept_rolls hcausal hex hin hobs hrolls le_rfl
    obtain ⟨log', hobs'⟩ := hsame.observed hobs
    exact ⟨rolls', [], log', hkept, Or.inl ⟨hslots, rfl⟩, hobs'⟩
  · obtain ⟨sh, hsh, roll, hroll, hdamages⟩ :=
      hone rolls selfRolls _ hrolls hselfRolls hobs hslots
    have hrun := (observedTurn_eq_some.1 hobs).1
    obtain ⟨log', hobs'⟩ := (hex.selfHits rolls _ _ hrolls hin (hitsIn_single hsh roll)
      fun sh' hsh' => by rw [outcome, hrun]; exact hdamages sh' hsh').observed hobs
    exact found_of_single hcausal hex hrolls hsh hroll hobs'

section Sample

def slotRoll (o : SideOverrides Unit) (slot : Nat) : ℚ :=
  match o.rollsPerHit with
  | none => o.roll
  | some (.tuple rolls) => rolls.headD (1 / 2)
  | some (.bySlot table) =>
    match table.lookup slot with
    | some (.scalar r) => r
    | _ => 1 / 2

def slotDamage (o : SideOverrides Unit) : Int := (15 * slotRoll o 0).floor

/-- A turn of one mon against one: the damage of each is fifteen times its roll, rounded down, and
the state is the two damages. -/
def sampleTurn (movers selfHitSlots : List (Nat × Nat))
    (log : Int → Int → CapturingLogger) : PhaseTurn (Int × Int) Unit where
  run := fun c =>
    (some (slotDamage c.side0, slotDamage c.side1), log (slotDamage c.side0) (slotDamage c.side1))
  activeIndices := ⟨⟨0, []⟩, ⟨0, []⟩⟩
  actions := ⟨.single {}, .single {}⟩
  movers := movers
  moverHitCounts := []
  critCounts := []
  setting := ⟨0, [], [], []⟩
  opponentHpDeltas := []
  playerHpDeltas := []
  opponentMaxHp := ⟨1, []⟩
  selfHitSlots := selfHitSlots

def bothSelfHit : PhaseTurn (Int × Int) Unit :=
  sampleTurn [] [(0, 0), (1, 0)] fun d₀ d₁ =>
    [.hitSelfConfusion (some 0) d₀, .hitSelfConfusion (some 1) d₁]

def moveAndSelfHit : PhaseTurn (Int × Int) Unit :=
  sampleTurn [(0, 0)] [(1, 0)] fun d₀ d₁ =>
    [.moveUse (some 0), .damage "move" (some 0) (some 0) d₀, .hitSelfConfusion (some 1) d₁]

theorem foldl_setSelfHit {hits : List SelfHitRoll} (h : ∀ x ∈ hits, x.1 = 1)
    (player opp : SideTables) :
    hits.foldl setSelfHit ⟨player, opp⟩ = ⟨player, (hits.foldl setSelfHit ⟨{}, opp⟩).opp⟩ := by
  induction hits generalizing opp with
  | nil => rfl
  | cons x hits ih =>
    have hx : ∀ player, setSelfHit ⟨player, opp⟩ x =
        ⟨player, { opp with rolls := slotSet opp.rolls x.2.1 (.scalar x.2.2) }⟩ := by
      intro player
      rw [setSelfHit, h x List.mem_cons_self]
      rfl
    rw [List.foldl_cons, hx, ih fun y hy => h y (List.mem_cons_of_mem _ hy), List.foldl_cons, hx]

/-- The mover's side has the mover's roll, the other side depends on the self-hits only. -/
theorem moveAndSelfHit_run (rolls : Nat → ℚ) (crits : Nat → Bool) {hits : List SelfHitRoll}
    (hhits : moveAndSelfHit.HitsIn hits) :
    moveAndSelfHit.run (moveAndSelfHit.turnConfig rolls crits hits) =
      (some ((15 * rolls 0).floor,
          slotDamage (buildSideOverrides (hits.foldl setSelfHit ⟨{}, {}⟩).opp [])),
        [.moveUse (some 0), .damage "move" (some 0) (some 0) (15 * rolls 0).floor,
          .hitSelfConfusion (some 1)
            (slotDamage (buildSideOverrides (hits.foldl setSelfHit ⟨{}, {}⟩).opp []))]) := by
  have hside : ∀ x ∈ hits, x.1 = 1 := fun x hx =>
    congrArg Prod.fst (List.mem_singleton.1 (hhits x hx))
  have hcfg : moveAndSelfHit.turnConfig rolls crits hits =
      { tieWinner := 0
        extraPreInject := none
        side0 := { crit := .flag (crits 0), roll := rolls 0 }
        side1 := buildSideOverrides (hits.foldl setSelfHit ⟨{}, {}⟩).opp [] } := by
    have htables : moveAndSelfHit.turnConfig rolls crits hits =
        (fun t : PerSide SideTables => ⟨0, none, buildSideOverrides t.player [],
          buildSideOverrides t.opp []⟩) (hits.foldl setSelfHit
            ⟨{ rolls := [(0, .scalar (rolls 0))], crits := [(0, .flag (crits 0))] }, {}⟩) := rfl
    rw [htables, foldl_setSelfHit hside]
    rfl
  rw [hcfg]
  rfl

theorem moveAndSelfHit_damage (rolls : Nat → ℚ) (crits : Nat → Bool) {hits : List SelfHitRoll}
    (hhits : moveAndSelfHit.HitsIn hits) {i : Nat} {mover : Nat × Nat}
    (hmover : moveAndSelfHit.movers[i]? = some mover) :
    moveAndSelfHit.moverDamage mover
        (moveAndSelfHit.run (moveAndSelfHit.turnConfig rolls crits hits)) =
      some (15 * rolls 0).floor := by
  obtain rfl : mover = (0, 0) := List.mem_singleton.1 (List.mem_of_getElem? hmover)
  rw [moveAndSelfHit_run rolls crits hhits]
  rfl

end Sample

end PhaseTurn

end NuzlockeSolver
