import Mathlib.Data.List.Lex
import Mathlib.Data.Nat.Bitwise
import NuzlockeSolver.Bucket.Breakpoints

/-!
# Fingerprints, damage tables and candidate deltas

The HP changes one turn can make are collected from the damage tables of the two sides and from
the residual effects that the battle state lets act; the inputs of an expansion are split where
one of them carries an HP value across a breakpoint.
-/

namespace NuzlockeSolver

inductive Stage
  | precondition
  | weakDominanceViolation
  | unsupportedMove
  | supportFlip
  | replayDivergence
  | shiftViolation
  | internMismatch
  | derivedSplitOverflow
  | imageSplit
deriving DecidableEq, Repr

/-- An `ExpandError` with its stage, or another exception that passes through. -/
inductive ExpandFault
  | expandError (stage : Stage) (what : String)
  | other (fault : Fault)
deriving DecidableEq, Repr

abbrev ExpandM (α : Type) := Except ExpandFault α

def liftFault {α : Type} (x : Except Fault α) : ExpandM α := x.mapError .other

@[simp] theorem liftFault_eq_ok {α : Type} {x : Except Fault α} {a : α} :
    liftFault x = .ok a ↔ x = .ok a := by
  cases x <;> simp [liftFault, Except.mapError]

abbrev ActionProb := ExecAction × Rat

abbrev SupportKey := List Int

def supportKey (a : ExecAction) : SupportKey :=
  [a.kind, a.moveSlot, a.switchToSlot, a.targetSide, a.targetSlot]

def supportKeys (probs : List ActionProb) : List SupportKey :=
  ((probs.filter fun ap => 0 < ap.2).map fun ap => supportKey ap.1).insertionSort (· ≤ ·)

def fnvMix (h : UInt64) (v : Int) : UInt64 :=
  (h ^^^ (UInt64.ofNat (v % 2 ^ 32).toNat)) * 1099511628211

def supportFingerprint (probs : List ActionProb) : UInt64 :=
  (supportKeys probs).foldl (fun h key => fnvMix (key.foldl fnvMix h) 0x5eadbeef)
    1469598103934665603

structure DamageTable where
  noncrit : List Int
  crit : List Int
  immune : Bool := false
  maxHits : Nat := 1
  hitCountSupport : List Int := []
deriving DecidableEq, Repr

def tableIsVacuous (t : DamageTable) : Bool :=
  t.crit = [] ∨ t.noncrit = [] ∨ (t.noncrit.all (· = 0) ∧ t.crit.all (· = 0))

def critDominance (le : Int → Int → Bool) (t : DamageTable) : Bool :=
  tableIsVacuous t ∨ t.crit.all fun c => t.noncrit.all fun n => le n c

def strictCritDominance : DamageTable → Bool := critDominance fun n c => n < c

def weakCritDominance : DamageTable → Bool := critDominance fun n c => n ≤ c

def damageTablesEqual (a b : DamageTable) : Bool :=
  a.noncrit = b.noncrit ∧ a.crit = b.crit ∧ a.maxHits = b.maxHits ∧
    a.hitCountSupport = b.hitCountSupport

def deltaCap : Nat := 4096

/-- The sums of further hits: `all` so far, and the sums of exactly `h` hits. -/
def convolveHits (perHit : List Int) : Nat → List Int → List Int → ExpandM (List Int)
  | 0, all, _ => .ok all
  | hits + 1, all, prev => do
    let next := sortedSet (prev.flatMap fun a => perHit.map fun b => a + b)
    if deltaCap < next.length then
      .error (.expandError .derivedSplitOverflow
        ("cumulative_attack_deltas: cumulative distinct-sum set exceeded " ++ toString deltaCap))
    else
      let all := sortedSet (all ++ next)
      if deltaCap < all.length then
        .error (.expandError .derivedSplitOverflow
          ("cumulative_attack_deltas: union-of-hit-counts exceeded " ++ toString deltaCap))
      else convolveHits perHit hits all next

def cumulativeAttackDeltas (t : DamageTable) : ExpandM (List Int) :=
  let perHit := sortedSet (t.noncrit ++ t.crit)
  if perHit = [] then .ok []
  else convolveHits perHit (max t.maxHits 1 - 1) perHit perHit

def supportedFixedDamage : List Int := [49, 82, 69, 101, 149]

def ohkoMoves : List Int := [12, 32, 90, 329]

structure MonView where
  maxHp : Int
  level : Int := 1
  status : Int := 0
  toxicTurns : Int := 0
  item : Int := 0
  ability : Int := 0
  volatiles : Nat := 0
  timedVolatiles : List Int := []
  moves : List Int := []
deriving DecidableEq, Repr

def supportedFixedDamageSet (attacker : MonView) (moveId : Int) : List Int :=
  if moveId = 49 then [20]
  else if moveId = 82 then [40]
  else if moveId = 69 ∨ moveId = 101 then [max 1 attacker.level]
  else if moveId = 149 then
    sortedSet ((List.range 101).map fun k => max 1 ((50 + (k : Int)) * attacker.level / 100))
  else []

structure FieldView where
  weather : Int := 0
  terrain : Int := 0
deriving DecidableEq, Repr

def MonView.knows (m : MonView) (moveId : Int) : Bool := moveId ∈ m.moves

def MonView.hasVolatile (m : MonView) (bit : Nat) : Bool := m.volatiles &&& bit ≠ 0

def bothSigns (magnitude : Int) : List Int := [magnitude, -magnitude]

def fraction (maxHp divisor : Int) : Int := max 1 (maxHp / divisor)

/-- The magnitudes that the state lets act on one side's active, in the order of the source. -/
def residualMagnitudes (isBerry : Int → Bool) (field : FieldView) (mon opp : MonView) :
    List Int :=
  let m := mon.maxHp
  let ripen : Bool := mon.ability = 247
  let rain : Bool := field.weather = 2 ∨ field.weather = 5
  let sun : Bool := field.weather = 1 ∨ field.weather = 6
  let add (cond : Bool) (magnitude : Int) : List Int := if cond then [magnitude] else []
  -- burn, poison, toxic
  add (mon.status = 1) (fraction m 16) ++
  add (mon.status = 4 ∨ mon.status = 5 ∨ mon.ability = 90) (fraction m 8) ++
  (if mon.status = 5 then
    ((List.range 16).filter fun c =>
      (if 0 < mon.toxicTurns then mon.toxicTurns else 1) ≤ (c : Int)).map fun c =>
        max 1 (m * (c : Int) / 16)
  else []) ++
  -- sixteenths
  add (mon.item = 234) (fraction m 16) ++
  add (mon.ability = 44) (fraction m 16) ++
  add (mon.ability = 87 ∧ rain) (fraction m 16) ++
  add (field.terrain = 2) (fraction m 16) ++
  add (mon.hasVolatile 32768) (fraction m 16) ++
  add (mon.hasVolatile 65536) (fraction m 16) ++
  add (mon.item = 281) (fraction m 16) ++
  add (field.weather = 3 ∨ field.weather = 4) (fraction m 16) ++
  -- eighths
  add (mon.item = 281) (fraction m 8) ++
  add (mon.ability = 94 ∧ sun) (fraction m 8) ++
  add (mon.ability = 87 ∧ sun) (fraction m 8) ++
  add (mon.item = 288) (fraction m 8) ++
  add (mon.status = 6 ∧ opp.ability = 123) (fraction m 8) ++
  add (mon.hasVolatile 2) (fraction m 8) ++
  -- Nightmare, Curse, binding moves
  add (26 ∈ mon.timedVolatiles ∧ mon.status = 6) (fraction m 4) ++
  add (mon.hasVolatile 4) (fraction m 4) ++
  (if 4 ∈ mon.timedVolatiles then [fraction m 8, fraction m 6] else []) ++
  -- Leech Seed on the other side
  (if opp.hasVolatile 2 then
    fraction opp.maxHp 8 :: add (mon.item = 296) (fraction opp.maxHp 8 * 13 / 10)
  else []) ++
  -- HP berries
  (if mon.item = 158 then
    let a := if ripen then m * 2 / 4 else m / 4
    add (0 < a) a
  else []) ++
  add (mon.item = 155) (if ripen then 20 else 10) ++
  add (mon.item = 34) 20 ++
  (if mon.item ∈ [159, 160, 161, 162, 163] then
    let a := if ripen then m * 2 / 2 else m / 2
    add (0 < a) a
  else []) ++
  add (mon.ability = 167 ∧ isBerry mon.item) (fraction m 3) ++
  -- fractions on a hit
  add (mon.item = 270 ∧ mon.ability ≠ 98) (fraction m 10) ++
  add (mon.knows 796) (fraction m 2) ++
  add (mon.knows 136 ∨ mon.knows 26 ∨ mon.knows 916) (fraction m 2) ++
  add (mon.knows 596) (fraction m 8) ++
  add (opp.item = 540) (fraction m 6) ++
  add (opp.ability = 24 ∨ opp.ability = 160) (fraction m 8) ++
  -- Aftermath alone has no floor of one
  add (opp.ability = 106) (m / 4)

def residualDeltaCandidates (isBerry : Int → Bool) (field : FieldView) (mon opp : MonView) :
    List Int :=
  if mon.maxHp ≤ 0 then [0]
  else sortedSet (0 :: (residualMagnitudes isBerry field mon opp).flatMap bothSigns)

def derivedSplitPoints (breakpoints deltas : List Int) (lo hi : Int) : List Int :=
  sortedSet ((breakpoints.flatMap fun b => deltas.map fun d => b + d).filter fun x =>
    lo < x ∧ x < hi)

def splitAxis (hi : Int) : List Int → (cur : Int) → cur ≤ hi → List HpInterval
  | [], cur, h => [⟨cur, hi, h⟩]
  | x :: pts, cur, h =>
    if hx : x < cur ∨ hi ≤ x then splitAxis hi pts cur h
    else ⟨cur, x, by omega⟩ :: splitAxis hi pts (x + 1) (by omega)

theorem exists_mem_splitAxis {hi : Int} {pts : List Int} {cur : Int} (h : cur ≤ hi) {x : Int}
    (hlo : cur ≤ x) (hhi : x ≤ hi) : ∃ iv ∈ splitAxis hi pts cur h, x ∈ iv := by
  induction pts generalizing cur with
  | nil => exact ⟨_, List.mem_singleton_self _, hlo, hhi⟩
  | cons y pts ih =>
    rw [splitAxis]
    split
    · exact ih h hlo
    · rename_i hy
      by_cases hxy : x ≤ y
      · exact ⟨_, List.mem_cons_self, hlo, hxy⟩
      · obtain ⟨iv, hiv, hx⟩ := @ih (y + 1) (by omega) (by omega)
        exact ⟨iv, List.mem_cons_of_mem _ hiv, hx⟩

def splitRuns (hi : Int) : List Int → Int → List HpInterval
  | [], cursor => if h : cursor ≤ hi then [⟨cursor, hi, h⟩] else []
  | b :: touching, cursor =>
    (if h : cursor < b then [⟨cursor, b - 1, Int.le_sub_one_of_lt h⟩] else []) ++
      .singleton b :: splitRuns hi touching (b + 1)

def splitAtBreakpoints (iv : HpInterval) (bps : List Int) : List HpInterval :=
  let touching := sortedSet (bps.filter fun b => iv.lo ≤ b ∧ b ≤ iv.hi)
  match splitRuns iv.hi touching iv.lo with
  | [] => [iv]
  | out => out

/-- The pieces cover the interval, and nothing else when the breakpoints touch it in order. -/
theorem exists_mem_splitRuns {hi : Int} {touching : List Int} {cursor x : Int}
    (hsorted : touching.Pairwise (· < ·)) (hin : ∀ b ∈ touching, cursor ≤ b ∧ b ≤ hi) :
    (∃ iv ∈ splitRuns hi touching cursor, x ∈ iv) ↔ cursor ≤ x ∧ x ≤ hi := by
  induction touching generalizing cursor with
  | nil =>
    rw [splitRuns]
    split
    · simp [HpInterval.mem_def]
    · simp only [List.not_mem_nil, false_and, exists_false, false_iff, not_and]
      omega
  | cons b touching ih =>
    obtain ⟨hb, hrest⟩ := List.pairwise_cons.1 hsorted
    have hbin := hin b List.mem_cons_self
    have ih := @ih (b + 1) hrest fun b' hb' =>
      ⟨hb b' hb', (hin b' (List.mem_cons_of_mem _ hb')).2⟩
    have hgap : (∃ iv ∈ (if h : cursor < b then [(⟨cursor, b - 1, by omega⟩ : HpInterval)]
        else []), x ∈ iv) ↔ cursor ≤ x ∧ x ≤ b - 1 := by
      split
      · simp [HpInterval.mem_def]
      · simp only [List.not_mem_nil, false_and, exists_false, false_iff, not_and]
        omega
    rw [splitRuns]
    simp only [List.mem_append, List.mem_cons, or_and_right, exists_or, exists_eq_left, hgap, ih,
      HpInterval.mem_singleton]
    omega

/-- Some piece holds the low end, so the fallback to the whole interval is never taken. -/
theorem splitAtBreakpoints_eq (iv : HpInterval) (bps : List Int) :
    splitAtBreakpoints iv bps =
      splitRuns iv.hi (sortedSet (bps.filter fun b => iv.lo ≤ b ∧ b ≤ iv.hi)) iv.lo := by
  have hlow := (@exists_mem_splitRuns iv.hi _ iv.lo iv.lo
    (pairwise_sortedSet (bps.filter fun b => iv.lo ≤ b ∧ b ≤ iv.hi))
    (fun b hb => by simpa using (List.mem_filter.1 (mem_sortedSet.1 hb)).2)).2
      ⟨le_rfl, iv.lo_le_hi⟩
  rw [splitAtBreakpoints]
  split
  · rename_i hempty
    obtain ⟨piece, hpiece, -⟩ := hlow
    rw [hempty] at hpiece
    cases hpiece
  · rfl

theorem exists_mem_splitAtBreakpoints {iv : HpInterval} {bps : List Int} {x : Int} :
    (∃ seg ∈ splitAtBreakpoints iv bps, x ∈ seg) ↔ x ∈ iv := by
  rw [splitAtBreakpoints_eq]
  exact exists_mem_splitRuns (pairwise_sortedSet _)
    fun b hb => by simpa using (List.mem_filter.1 (mem_sortedSet.1 hb)).2

end NuzlockeSolver
