import NuzlockeSolver.Basic
import Mathlib.Data.List.Zip
import Mathlib.Algebra.Order.Ring.Int
import Mathlib.Tactic.Linarith

/-!
# HP bars and the HP filters of the sweep

The camera reads an opponent's HP as a number of bar pixels and the player's HP exactly. The sweep
turns a bar reading back into a range of HP values and drops the simulations whose HP leave it:
hit by hit while the rolls of a multi-hit move are enumerated, and at the end of the turn against
the last reading of each mon.

Python rounds the quotients of `hp_range` to 53 bits before it takes their ceiling; for the HP of
the engine, which have 32 bits, this is the ceiling of the exact quotient.
-/

namespace NuzlockeSolver

def hpRange (k maxHp : Int) : Int × Int :=
  if k = 0 then (0, 0)
  else (-(-(k * maxHp) / 48), min (-(-((k + 1) * maxHp) / 48) - 1) maxHp)

/-- The forward map from HP to bar pixels. -/
def hpToK (hp maxHp : Int) : Int :=
  if hp ≤ 0 then 0 else max 1 (hp * 48 / maxHp)

def InHpRange (hp k maxHp : Int) : Prop :=
  (hpRange k maxHp).1 ≤ hp ∧ hp ≤ (hpRange k maxHp).2

instance (hp k maxHp : Int) : Decidable (InHpRange hp k maxHp) :=
  inferInstanceAs (Decidable (_ ∧ _))

/-- The HP is not below the first pixel of the bar, unless there is none left. -/
def ReadsBack (hp maxHp : Int) : Prop := hp = 0 ∨ maxHp ≤ 48 * hp

instance (hp maxHp : Int) : Decidable (ReadsBack hp maxHp) :=
  inferInstanceAs (Decidable (_ ∨ _))

section Reading

variable {hp maxHp : Int}

theorem hpToK_pos (hpos : 0 < hp) : 1 ≤ hpToK hp maxHp := by
  rw [hpToK, if_neg (by omega)]
  exact le_max_left _ _

theorem hpToK_eq_zero : hpToK hp maxHp = 0 ↔ hp ≤ 0 := by
  constructor
  · intro h
    by_contra hpos
    have : 1 ≤ hpToK hp maxHp := hpToK_pos (not_le.1 hpos)
    omega
  · intro h
    rw [hpToK, if_pos h]

theorem hpToK_spec (hM : 1 ≤ maxHp) (hpos : 0 < hp) (hfull : maxHp ≤ 48 * hp) :
    hpToK hp maxHp * maxHp ≤ 48 * hp ∧ 48 * hp < (hpToK hp maxHp + 1) * maxHp := by
  have hdiv : 1 ≤ hp * 48 / maxHp := by
    apply Int.le_ediv_of_mul_le (by omega)
    omega
  rw [hpToK, if_neg (by omega), max_eq_right hdiv]
  have hmod := Int.emod_add_mul_ediv (hp * 48) maxHp
  have hlt := Int.emod_lt_of_pos (hp * 48) (by omega : 0 < maxHp)
  have hnn := Int.emod_nonneg (hp * 48) (by omega : maxHp ≠ 0)
  rw [add_mul, mul_comm (hp * 48 / maxHp) maxHp]
  omega

/-- The range of a reading contains the HP exactly from the first pixel on: below it the bar still
shows one pixel, whose range starts at the first pixel. -/
theorem inHpRange_hpToK (hM : 1 ≤ maxHp) (h0 : 0 ≤ hp) (hle : hp ≤ maxHp) :
    InHpRange hp (hpToK hp maxHp) maxHp ↔ ReadsBack hp maxHp := by
  unfold InHpRange ReadsBack hpRange
  rcases h0.eq_or_lt with rfl | hpos
  · simp [hpToK]
  · have hk : 1 ≤ hpToK hp maxHp := hpToK_pos hpos
    rw [if_neg (by omega : hpToK hp maxHp ≠ 0)]
    by_cases hfull : maxHp ≤ 48 * hp
    · have hspec := hpToK_spec hM hpos hfull
      simp only [le_min_iff, hle, and_true, hfull, or_true, iff_true]
      omega
    · have hone : hpToK hp maxHp = 1 := by
        rw [hpToK, if_neg (by omega)]
        apply max_eq_left
        have : hp * 48 / maxHp < 1 := Int.ediv_lt_of_lt_mul (by omega) (by omega)
        omega
      rw [hone]
      constructor
      · rintro ⟨hmin, _⟩
        simp only [one_mul] at hmin
        omega
      · intro h
        omega

def reading (side : Nat) (maxHp hp : Int) : Int :=
  if side = 0 then hp else hpToK hp maxHp

end Reading

def hitPassesConstraint (cumulative anchor newVal : Int) (useHpRange : Bool)
    (opponentMaxHp : Int) : Bool :=
  if useHpRange then
    let old := hpRange anchor opponentMaxHp
    let new := hpRange newVal opponentMaxHp
    old.1 ≤ new.2 + cumulative ∧ (newVal = 0 ∨ new.1 + cumulative ≤ old.2)
  else if newVal = 0 then anchor - cumulative ≤ 0
  else anchor - cumulative = newVal

/-- The constraint of one hit: the reading its segment starts from, the reading after it, and the
number of hits before the segment. -/
structure HitConstraint where
  anchor : Int
  newVal : Int
  segStart : Nat
deriving DecidableEq, Repr

/-- The loop of `_segment_hp_deltas_into_hits`: a heal moves the anchor, anything else is a hit. -/
def segmentFrom (segAnchor : Int) (segStart hits : Nat) : List (Int × Int) → List HitConstraint
  | [] => []
  | (frm, into) :: deltas =>
    if frm < into then segmentFrom into hits hits deltas
    else ⟨segAnchor, into, segStart⟩ :: segmentFrom segAnchor segStart (hits + 1) deltas

def segmentHpDeltasIntoHits : List (Int × Int) → List HitConstraint
  | [] => []
  | (frm, into) :: deltas => segmentFrom frm 0 0 ((frm, into) :: deltas)

/-- The test of hit `hpPartial.length` for a prefix of damages; hits past the last reading are
free. -/
def hitAllowed (constraints : List HitConstraint) (useHpRange : Bool) (opponentMaxHp : Int)
    (hpPartial : List Int) (dmg : Int) : Bool :=
  match constraints[hpPartial.length]? with
  | none => true
  | some c =>
    hitPassesConstraint ((hpPartial.drop c.segStart).sum + dmg) c.anchor c.newVal useHpRange
      opponentMaxHp

/-- The damages of the hits, extended hit by hit with what the test allows. -/
def damageCombos (allowed : List Int → Int → Bool) :
    List (List Int) → List (List Int) → List (List Int)
  | partials, [] => partials
  | partials, dmgs :: sets =>
    damageCombos allowed
      (partials.flatMap fun p => (dmgs.filter (allowed p)).map fun d => p ++ [d]) sets

theorem mem_damageCombos {allowed : List Int → Int → Bool} {sets : List (List Int)}
    {done ds : List Int} {partials : List (List Int)} (hdone : done ∈ partials)
    (hmem : List.Forall₂ (fun d s => d ∈ s) ds sets)
    (hall : ∀ l d r, ds = l ++ d :: r → allowed (done ++ l) d = true) :
    done ++ ds ∈ damageCombos allowed partials sets := by
  induction hmem generalizing done partials with
  | nil => simpa [damageCombos] using hdone
  | @cons d s ds sets hd _ ih =>
    rw [damageCombos, List.append_cons]
    apply ih
    · apply List.mem_flatMap.2
      refine ⟨done, hdone, List.mem_map.2 ⟨d, List.mem_filter.2 ⟨hd, ?_⟩, rfl⟩⟩
      simpa using hall [] d ds rfl
    · intro l d' r hds
      have := hall (d :: l) d' r (by rw [hds, List.cons_append])
      simpa using this

inductive HpChange
  | hit (damage : Int)
  | heal (amount : Int)
deriving DecidableEq, Repr

def hitDamages (changes : List HpChange) : List Int :=
  changes.filterMap fun
    | .hit d => some d
    | .heal _ => none

/-- The pairs of consecutive readings of a mon whose HP start at `h` and then take the values of
the list. -/
def deltasFrom (read : Int → Int) (h : Int) : List Int → List (Int × Int)
  | [] => []
  | h' :: hps => (read h, read h') :: deltasFrom read h' hps

section TrueHits

variable {side : Nat} {maxHp : Int}

theorem reading_mono (hM : 1 ≤ maxHp) {h h' : Int} (hle : h' ≤ h) :
    reading side maxHp h' ≤ reading side maxHp h := by
  unfold reading
  split
  · exact hle
  · by_cases hpos : h' ≤ 0
    · rw [hpToK_eq_zero.2 hpos]
      unfold hpToK
      split
      · exact le_rfl
      · exact zero_le_one.trans (le_max_left _ _)
    · rw [hpToK, hpToK, if_neg hpos, if_neg (by omega)]
      exact max_le_max le_rfl (Int.ediv_le_ediv (by omega) (by omega))

def SeenRight (side : Nat) (maxHp h : Int) : Prop :=
  side = 0 ∨ InHpRange h (hpToK h maxHp) maxHp

/-- A hit of the true turn passes its check: the damage since the segment started is the HP lost,
or more at a KO. -/
theorem hitPassesConstraint_true {H h c : Int} (hH : SeenRight side maxHp H)
    (hh : SeenRight side maxHp h) (heq : h = max 0 (H - c)) :
    hitPassesConstraint c (reading side maxHp H) (reading side maxHp h) (side != 0) maxHp =
      true := by
  have hlost : H - c ≤ h := heq ▸ le_max_right _ _
  have hexact : 0 < h → h = H - c := by
    intro hpos
    rcases max_choice 0 (H - c) with hm | hm
    · omega
    · omega
  have hnn : 0 ≤ h := heq ▸ le_max_left _ _
  by_cases hside : side = 0
  · subst hside
    simp only [hitPassesConstraint, reading, bne_self_eq_false, Bool.false_eq_true, if_false,
      if_true]
    split
    · simp only [decide_eq_true_eq]
      omega
    · simp only [decide_eq_true_eq]
      omega
  · have hbne : (side != 0) = true := by simpa using hside
    have hold := hH.resolve_left hside
    have hnew := hh.resolve_left hside
    simp only [InHpRange] at hold hnew
    simp only [hitPassesConstraint, reading, hbne, if_true, if_neg hside, decide_eq_true_eq,
      hpToK_eq_zero]
    refine ⟨by omega, ?_⟩
    rcases hnn.eq_or_lt with h0 | hpos
    · exact Or.inl h0.ge
    · right
      have := hexact hpos
      omega

end TrueHits

/-- The HP changes of one mon in a turn, bound to its identity. -/
structure HpDeltaSeq where
  side : Nat
  species : Int
  slot : Nat
  deltas : List (Int × Int)
  maxHp : Int
deriving DecidableEq, Repr

structure SweepMon where
  species : Int
  hp : Int
deriving DecidableEq, Repr

structure SweepSide where
  team : List SweepMon
  activeIndices : List Nat
deriving DecidableEq, Repr

/-- What the filter reads of the state a simulation ends in. -/
structure SweepResult where
  side0 : SweepSide
  side1 : SweepSide
deriving DecidableEq, Repr

namespace SweepResult

def side (st : SweepResult) (i : Nat) : SweepSide := if i = 0 then st.side0 else st.side1

variable (speciesName : Int → String)

def resolveRecordTeamIdx (st : SweepResult) (record : HpDeltaSeq) (finalVal : Int) :
    Except String Nat :=
  let sideState := st.side record.side
  let matching := sideState.team.findIdxs fun mon => mon.species == record.species
  let hpAt := fun i => (sideState.team[i]?.map SweepMon.hp).getD 0
  match matching with
  | [] =>
    .error ("_check_hp_match: species " ++ speciesName record.species ++
      " not found in result_state side " ++ toString record.side ++
        " team. Cannot validate HP delta.")
  | [i] => .ok i
  | _ =>
    let fainted := if finalVal = 0 then matching.filter fun i => hpAt i == 0 else []
    match fainted, sideState.activeIndices[record.slot]? with
    | [i], _ => .ok i
    | _, some i =>
      if i ∈ matching then .ok i
      else .error (ambiguous matching.length record)
    | _, none => .error (ambiguous matching.length record)
where
  ambiguous (n : Nat) (record : HpDeltaSeq) : String :=
    "_check_hp_match: species " ++ speciesName record.species ++ " appears " ++ toString n ++
      " times in result_state side " ++ toString record.side ++
        " team and none is active in slot " ++ toString record.slot ++
          ". Same-species ambiguity — cannot determine which mon's HP to validate."

def hpMatchDetail (st : SweepResult) : List HpDeltaSeq → Except String (Bool × Option String)
  | [] => .ok (true, none)
  | record :: hpDeltas =>
    match record.deltas.getLast? with
    | none => hpMatchDetail st hpDeltas
    | some (_, finalVal) => do
      let teamIdx ← st.resolveRecordTeamIdx speciesName record finalVal
      let actualHp := (((st.side record.side).team[teamIdx]?).map SweepMon.hp).getD 0
      let range := hpRange finalVal record.maxHp
      if record.side = 0 then
        if actualHp ≠ finalVal then
          .ok (false, some (speciesName record.species ++ "(side0 slot" ++ toString record.slot ++
            "): actual_hp=" ++ toString actualHp ++ " != expected " ++ toString finalVal))
        else hpMatchDetail st hpDeltas
      else if ¬ (range.1 ≤ actualHp ∧ actualHp ≤ range.2) then
        .ok (false, some (speciesName record.species ++ "(side1 slot" ++ toString record.slot ++
          "): actual_hp=" ++ toString actualHp ++ " not in hp_range(k=" ++ toString finalVal ++
            ",max=" ++ toString record.maxHp ++ ")=[" ++ toString range.1 ++ "," ++
              toString range.2 ++ "]"))
      else hpMatchDetail st hpDeltas

/-- The survivors of the filter; an unresolved record stops the sweep. -/
def hpFilter (hpDeltas : List HpDeltaSeq) : List SweepResult → Except String (List SweepResult)
  | [] => .ok []
  | st :: survivors => do
    let verdict ← st.hpMatchDetail speciesName hpDeltas
    let kept ← hpFilter hpDeltas survivors
    .ok (if verdict.1 then st :: kept else kept)

end SweepResult

end NuzlockeSolver
