import NuzlockeSolver.Basic
import NuzlockeSolver.Bucket.Bucket

/-!
# The edge cache

Expansions are stored per bucket key, breakpoint fingerprint and action, and are shared by the
searches that use one cache. Every field of the action is part of the key.
-/

namespace NuzlockeSolver

structure EdgeKey where
  bucket : BucketKey
  bpFp : UInt64
  kind : Int
  moveSlot : Int
  moveOverride : Int
  switchToSlot : Int
  targetSide : Int
  targetSlot : Int
  sourceSlot : Int
  mega : Bool
deriving DecidableEq, Repr

def makeEdgeKey (key : BucketKey) (bpFp : UInt64) (a : ExecAction) : EdgeKey where
  bucket := key
  bpFp := bpFp
  kind := a.kind
  moveSlot := a.moveSlot
  moveOverride := a.moveOverride
  switchToSlot := a.switchToSlot
  targetSide := a.targetSide
  targetSlot := a.targetSlot
  sourceSlot := a.sourceSlot
  mega := a.mega

theorem makeEdgeKey_inj {k k' : BucketKey} {fp fp' : UInt64} {a a' : ExecAction}
    (h : makeEdgeKey k fp a = makeEdgeKey k' fp' a') : k = k' ∧ fp = fp' ∧ a = a' := by
  cases a
  cases a'
  simp only [makeEdgeKey, EdgeKey.mk.injEq] at h
  simp [h]

inductive CacheMode
  | unset
  | exact
  | canonical
deriving DecidableEq, Repr

structure TransitionCache where
  edges : List (EdgeKey × ExpandResult) := []
  mode : CacheMode := .unset
  hits : Nat := 0
  misses : Nat := 0

namespace TransitionCache

def requireMode (c : TransitionCache) (m : CacheMode) : Except Fault TransitionCache :=
  if c.mode = .unset then .ok { c with mode := m }
  else if c.mode ≠ m then
    .error (.logicError
      "TransitionCache::require_mode: canonical/exact regime mismatch on a shared cache")
  else .ok c

def lookup (c : TransitionCache) (key : EdgeKey) : Option ExpandResult × TransitionCache :=
  match c.edges.lookup key with
  | none => (none, { c with misses := c.misses + 1 })
  | some r => (some r, { c with hits := c.hits + 1 })

def insert (c : TransitionCache) (key : EdgeKey) (r : ExpandResult) :
    Except Fault TransitionCache :=
  match c.edges.lookup key with
  | some _ => .error (.logicError "TransitionCache::insert: duplicate EdgeKey")
  | none => .ok { c with edges := (key, r) :: c.edges }

def Agrees (c : TransitionCache) (expand : BucketKey → ExecAction → ExpandResult)
    (bpFp : UInt64) : Prop :=
  ∀ key a r, (makeEdgeKey key bpFp a, r) ∈ c.edges → r = expand key a

variable {c c' : TransitionCache} {expand : BucketKey → ExecAction → ExpandResult}
  {bpFp : UInt64}

theorem agrees_empty : Agrees {} expand bpFp := by
  simp [Agrees]

theorem Agrees.of_edges (h : c.Agrees expand bpFp) (he : c'.edges = c.edges) :
    c'.Agrees expand bpFp := by
  simpa only [Agrees, he] using h

theorem Agrees.requireMode {m : CacheMode} (h : c.Agrees expand bpFp)
    (hc : c.requireMode m = .ok c') : c'.Agrees expand bpFp := by
  simp only [TransitionCache.requireMode] at hc
  split_ifs at hc <;> cases hc <;> exact h

@[simp] theorem lookup_edges (c : TransitionCache) (key : EdgeKey) :
    (c.lookup key).2.edges = c.edges := by
  simp only [lookup]
  split <;> rfl

theorem lookup_fst (c : TransitionCache) (key : EdgeKey) :
    (c.lookup key).1 = c.edges.lookup key := by
  cases h : c.edges.lookup key <;> simp only [lookup, h]

theorem Agrees.insert {key : BucketKey} {a : ExecAction} (h : c.Agrees expand bpFp)
    (hc : c.insert (makeEdgeKey key bpFp a) (expand key a) = .ok c') :
    c'.Agrees expand bpFp := by
  simp only [TransitionCache.insert] at hc
  split at hc
  · cases hc
  · cases hc
    intro key' a' r hr
    rcases List.mem_cons.1 hr with hr | hr
    · obtain ⟨hk, rfl⟩ := Prod.mk.inj hr
      obtain ⟨rfl, -, rfl⟩ := makeEdgeKey_inj hk
      rfl
    · exact h key' a' r hr

end TransitionCache

structure SharedCache (expand : BucketKey → ExecAction → ExpandResult) (bpFp : UInt64) where
  cache : TransitionCache
  agrees : cache.Agrees expand bpFp

def SharedCache.empty (expand : BucketKey → ExecAction → ExpandResult) (bpFp : UInt64) :
    SharedCache expand bpFp :=
  ⟨{}, TransitionCache.agrees_empty⟩

end NuzlockeSolver
