import NuzlockeSolver.Question
import Mathlib.Order.Basic
import Mathlib.Data.Int.Order.Basic

/-!
# Buckets

A bucket is a battle context together with one HP interval per side and the fingerprint of the
AI's support. The search identifies buckets by their key, which leaves the fingerprint out.
-/

namespace NuzlockeSolver

/-- An inclusive HP interval; an inverted one cannot be built. -/
@[ext] structure HpInterval where
  lo : Int
  hi : Int
  lo_le_hi : lo ≤ hi
deriving DecidableEq

namespace HpInterval

instance : Membership Int HpInterval := ⟨fun iv h => iv.lo ≤ h ∧ h ≤ iv.hi⟩

theorem mem_def {iv : HpInterval} {h : Int} : h ∈ iv ↔ iv.lo ≤ h ∧ h ≤ iv.hi :=
  Iff.rfl

instance (iv : HpInterval) (h : Int) : Decidable (h ∈ iv) :=
  inferInstanceAs (Decidable (_ ∧ _))

theorem lo_mem (iv : HpInterval) : iv.lo ∈ iv :=
  ⟨le_rfl, iv.lo_le_hi⟩

theorem hi_mem (iv : HpInterval) : iv.hi ∈ iv :=
  ⟨iv.lo_le_hi, le_rfl⟩

def singleton (h : Int) : HpInterval :=
  ⟨h, h, le_rfl⟩

@[simp] theorem mem_singleton {h k : Int} : k ∈ singleton h ↔ k = h := by
  simp only [mem_def, singleton]
  omega

end HpInterval

structure Bucket where
  d : UInt32
  playerHp : HpInterval
  oppHp : HpInterval
  supportFp : UInt64
deriving DecidableEq

/-- Bucket identity: the context and both intervals, without the support fingerprint. -/
structure BucketKey where
  d : UInt32
  plLo : Int
  plHi : Int
  opLo : Int
  opHi : Int
deriving DecidableEq, Repr

def keyOf (b : Bucket) : BucketKey :=
  ⟨b.d, b.playerHp.lo, b.playerHp.hi, b.oppHp.lo, b.oppHp.hi⟩

structure ChildBucket where
  bucket : Bucket
  aiAction : ExecAction
deriving DecidableEq

structure ExpandStats where
  leaves : Nat := 0
  replays : Nat := 0
  subRects : Nat := 0
  derivedSplitPoints : Nat := 0
  imageSplits : Nat := 0
  childrenBeforeMerge : Nat := 0
  childrenAfterMerge : Nat := 0
  fastPath : Bool := false
deriving DecidableEq, Repr

structure ExpandResult where
  concessionTag : UInt32 := 0
  children : List ChildBucket := []
  stats : ExpandStats := {}
deriving DecidableEq

end NuzlockeSolver
