import Mathlib.Data.List.Sort
import Mathlib.Data.List.Dedup
import NuzlockeSolver.Basic
import NuzlockeSolver.Bucket.Bucket

/-!
# Breakpoints and bucket construction

A breakpoint is an HP value whose crossing can change what the engine does. Each breakpoint is a
segment of its own, and each maximal run of other values is one; a bucket has no breakpoint
strictly inside either interval.
-/

namespace NuzlockeSolver

def sortedSet (l : List Int) : List Int := l.dedup.insertionSort (· ≤ ·)

@[simp] theorem mem_sortedSet {l : List Int} {x : Int} : x ∈ sortedSet l ↔ x ∈ l := by
  rw [sortedSet, List.mem_insertionSort, List.mem_dedup]

theorem pairwise_sortedSet (l : List Int) : (sortedSet l).Pairwise (· < ·) := by
  have hle : (sortedSet l).Pairwise (· ≤ ·) := List.pairwise_insertionSort _ _
  have hne : (sortedSet l).Nodup := (List.perm_insertionSort _ _).nodup_iff.2 l.nodup_dedup
  exact hle.imp₂ (fun _ _ h h' => lt_of_le_of_ne h h') hne

structure HpAxis where
  maxHp : Int
  points : List Int
  sorted : points.Pairwise (· < ·)
  bounded : ∀ b ∈ points, 0 ≤ b ∧ b ≤ maxHp

def normalize (raw : List Int) (maxHp : Int) : HpAxis where
  maxHp := maxHp
  points := sortedSet (raw.filter fun v => 0 ≤ v ∧ v ≤ maxHp)
  sorted := pairwise_sortedSet _
  bounded b hb := by simpa using (List.mem_filter.1 (mem_sortedSet.1 hb)).2

structure BpSet where
  player : HpAxis
  opp : HpAxis

/-- The segments from the cursor on: a gap below each breakpoint, the breakpoint itself, and what
is left at the top. -/
def buildSegments (maxHp : Int) : List Int → Int → List HpInterval
  | [], cursor => if h : cursor ≤ maxHp then [⟨cursor, maxHp, h⟩] else []
  | b :: bps, cursor =>
    (if h : cursor < b then [⟨cursor, b - 1, by omega⟩] else []) ++
      if cursor ≤ b then .singleton b :: buildSegments maxHp bps (b + 1)
      else buildSegments maxHp bps cursor

namespace HpAxis

def segments (axis : HpAxis) : List HpInterval :=
  if axis.maxHp < 0 then [] else buildSegments axis.maxHp axis.points 0

/-- The first breakpoint above `lo` lies below `hi`. -/
def hasInteriorBreakpoint (axis : HpAxis) (lo hi : Int) : Bool :=
  if hi ≤ lo then false
  else
    match axis.points.find? (lo < ·) with
    | none => false
    | some b => b < hi

end HpAxis

def showInterval (iv : HpInterval) : String :=
  "[" ++ toString iv.lo ++ ", " ++ toString iv.hi ++ "]"

/-- An inverted interval, the first check of the source, cannot be built here. -/
def validateInterval (name : String) (iv : HpInterval) (axis : HpAxis) : Except Fault Unit :=
  if iv.lo < 0 ∨ axis.maxHp < iv.hi then
    .error (.runtimeError ("Bucket: " ++ name ++ " interval " ++ showInterval iv ++
      " out of range [0, " ++ toString axis.maxHp ++ "]"))
  else if axis.hasInteriorBreakpoint iv.lo iv.hi then
    .error (.runtimeError ("Bucket: " ++ name ++ " interval " ++ showInterval iv ++
      " contains an interior breakpoint (INV-1 violated)"))
  else .ok ()

namespace Bucket

def make (d : UInt32) (playerHp oppHp : HpInterval) (supportFp : UInt64) (bp : BpSet) :
    Except Fault Bucket := do
  validateInterval "player" playerHp bp.player
  validateInterval "opp" oppHp bp.opp
  .ok ⟨d, playerHp, oppHp, supportFp⟩

end Bucket

namespace HpInterval

def adjacentOrOverlapping (a b : HpInterval) : Bool :=
  max a.lo b.lo ≤ min a.hi b.hi ∨ a.hi + 1 = b.lo ∨ b.hi + 1 = a.lo

def union (a b : HpInterval) : HpInterval where
  lo := min a.lo b.lo
  hi := max a.hi b.hi
  lo_le_hi := (min_le_left _ _).trans (a.lo_le_hi.trans (le_max_left _ _))

theorem mem_union {a b : HpInterval} (h : adjacentOrOverlapping a b) {x : Int} :
    x ∈ union a b ↔ x ∈ a ∨ x ∈ b := by
  have ha := a.lo_le_hi
  have hb := b.lo_le_hi
  simp only [adjacentOrOverlapping, decide_eq_true_eq] at h
  simp only [mem_def, union]
  omega

end HpInterval

def tryMerge (a b : Bucket) : Option Bucket :=
  if a.d ≠ b.d then none
  else if a.supportFp ≠ b.supportFp then none
  else if a.playerHp = b.playerHp ∧ a.oppHp = b.oppHp then some a
  else if a.playerHp = b.playerHp ∧ a.oppHp.adjacentOrOverlapping b.oppHp then
    some ⟨a.d, a.playerHp, a.oppHp.union b.oppHp, a.supportFp⟩
  else if a.oppHp = b.oppHp ∧ a.playerHp.adjacentOrOverlapping b.playerHp then
    some ⟨a.d, a.playerHp.union b.playerHp, a.oppHp, a.supportFp⟩
  else none

def Bucket.Covers (b : Bucket) (p o : Int) : Prop := p ∈ b.playerHp ∧ o ∈ b.oppHp

/-- A merge covers what its two buckets cover, in their context and with their fingerprint. -/
theorem tryMerge_spec {a b m : Bucket} (h : tryMerge a b = some m) :
    a.d = b.d ∧ a.supportFp = b.supportFp ∧ m.d = a.d ∧ m.supportFp = a.supportFp ∧
      ∀ p o, m.Covers p o ↔ a.Covers p o ∨ b.Covers p o := by
  unfold tryMerge at h
  split at h
  · cases h
  rename_i hd
  split at h
  · cases h
  rename_i hfp
  refine ⟨not_not.1 hd, not_not.1 hfp, ?_⟩
  split at h
  · rename_i heq
    cases h
    refine ⟨rfl, rfl, fun p o => ?_⟩
    simp [Bucket.Covers, heq.1, heq.2]
  split at h
  · rename_i heq
    cases h
    refine ⟨rfl, rfl, fun p o => ?_⟩
    simp only [Bucket.Covers, HpInterval.mem_union heq.2, ← heq.1]
    exact and_or_left
  split at h
  · rename_i heq
    cases h
    refine ⟨rfl, rfl, fun p o => ?_⟩
    simp only [Bucket.Covers, HpInterval.mem_union heq.2, ← heq.1]
    exact or_and_right
  · cases h

end NuzlockeSolver
