import NuzlockeSolver.Bucket.PpCanon
import NuzlockeSolver.Bucket.TransitionCache

/-!
# The bucket search

A tri-valued depth-first search over buckets. A bucket met again on its own stack fails, and the
lowlink of a verdict is the least stack depth it depends on, so that a failure is stored in the
verdict memo only when it depends on nothing above the bucket itself.

The search reads a bucket only through its key: the terminal classification, the corner state
and the expansion are parameters of the key.
-/

namespace NuzlockeSolver

structure Corner where
  legal : List ExecAction
  plActive : Int
  opActive : Int
  plPressure : Bool
  opPressure : Bool
deriving DecidableEq

structure WinProblem where
  classify : BucketKey → Outcome
  corner : BucketKey → Corner
  expand : BucketKey → ExecAction → ExpandResult

structure BucketWinConfig where
  depthCap : Int := 500
  visitCap : Nat := 1000000
  enableEdgeCache : Bool := true
  enableVerdictMemo : Bool := true
  enablePpCanon : Bool := false

inductive BucketWinVerdict
  | win
  | fail
  | indeterminate
deriving DecidableEq, Repr

inductive IndetReason
  | none
  | depthCap
  | visitCap
  | ppAuditFail
deriving DecidableEq, Repr

structure BucketWinStats where
  bucketsVisited : Nat := 0
  terminalBuckets : Nat := 0
  expandCalls : Nat := 0
  replays : Nat := 0
  oracleLeaves : Nat := 0
  concededBranches : Nat := 0
  maxDepth : Nat := 0
  edgeHits : Nat := 0
  edgeMisses : Nat := 0
  memoHits : Nat := 0
  memoStores : Nat := 0
  memoSuppressed : Nat := 0
  memoContainmentMissed : Nat := 0
  canonicalRepeats : Nat := 0
  ppHorizonUsed : Int := 0
  auditExpands : Nat := 0
  ppAuditRejects : Nat := 0
deriving DecidableEq, Repr

abbrev Policy := List (BucketKey × ExecAction)

structure BucketWinResult where
  verdict : BucketWinVerdict := .fail
  reason : IndetReason := .none
  policy : Policy := []
  concessionHistogram : Vector Nat 32 := Vector.replicate 32 0
  stats : BucketWinStats := {}

inductive V
  | win
  | fail
  | indet
deriving DecidableEq, Repr

def lowlinkInf : Nat := 2147483647

structure DfsResult where
  verdict : V
  lowlink : Nat
deriving DecidableEq, Repr

structure WinEnv where
  problem : WinProblem
  q : Question
  cfg : BucketWinConfig
  bpFp : UInt64

structure WinState where
  cache : TransitionCache := {}
  stack : List (BucketKey × Nat) := []
  memo : List (BucketKey × Bool) := []
  memoByD : List (BucketKey × Bool) := []
  visitCapHit : Bool := false
  firstReason : IndetReason := .none
  policy : Policy := []
  histogram : Vector Nat 32 := Vector.replicate 32 0
  stats : BucketWinStats := {}

abbrev Search := Except Fault (DfsResult × WinState)

namespace WinState

def recordReason (S : WinState) (r : IndetReason) : WinState :=
  if S.firstReason = .none then { S with firstReason := r } else S

def tallyConcession (S : WinState) (tag : UInt32) : WinState :=
  { S with
    histogram := S.histogram.mapFinIdx fun bit n _ => if tag.toNat.testBit bit then n + 1 else n
    stats.concededBranches := S.stats.concededBranches + 1 }

def storeMemo (S : WinState) (key : BucketKey) (win : Bool) : WinState :=
  { S with
    memo := (key, win) :: S.memo
    memoByD := S.memoByD ++ [(key, win)]
    stats.memoStores := S.stats.memoStores + 1 }

def covers (query : BucketKey) : BucketKey × Bool → Bool
  | (k, true) => k.plLo ≤ query.plLo && k.plHi ≥ query.plHi &&
      k.opLo ≤ query.opLo && k.opHi ≥ query.opHi
  | (k, false) => k.plLo ≥ query.plLo && k.plHi ≤ query.plHi &&
      k.opLo ≥ query.opLo && k.opHi ≤ query.opHi

def containmentScan (S : WinState) (query : BucketKey) : WinState :=
  if S.memoByD.any fun p => p.1.d = query.d && covers query p then
    { S with stats.memoContainmentMissed := S.stats.memoContainmentMissed + 1 }
  else S

def visit (S : WinState) (depth : Nat) : WinState :=
  { S with
    stats.bucketsVisited := S.stats.bucketsVisited + 1
    stats.maxDepth := max S.stats.maxDepth depth }

def push (S : WinState) (key : BucketKey) (depth : Nat) : WinState :=
  { S with stack := (key, depth) :: S.stack }

def pop (S : WinState) (key : BucketKey) : WinState :=
  { S with stack := S.stack.filter fun p => p.1 ≠ key }

end WinState

def doExpand (E : WinEnv) (S : WinState) (key : BucketKey) (action : ExecAction) :
    ExpandResult × WinState :=
  let r := E.problem.expand key action
  (r, { S with
    stats.expandCalls := S.stats.expandCalls + 1
    stats.replays := S.stats.replays + r.stats.replays
    stats.oracleLeaves := S.stats.oracleLeaves + r.stats.leaves })

def edgeExpand (E : WinEnv) (S : WinState) (key : BucketKey) (action : ExecAction) :
    Except Fault (ExpandResult × WinState) :=
  if ¬ E.cfg.enableEdgeCache then .ok (doExpand E S key action)
  else
    match S.cache.lookup (makeEdgeKey key E.bpFp action) with
    | (some r, cache) =>
      .ok (r, { S with cache := cache, stats.edgeHits := S.stats.edgeHits + 1 })
    | (none, cache) => do
      let S := { S with cache := cache, stats.edgeMisses := S.stats.edgeMisses + 1 }
      let (fresh, S) := doExpand E S key action
      let cache ← S.cache.insert (makeEdgeKey key E.bpFp action) fresh
      .ok (fresh, { S with cache := cache })

def andOverChildren (visit : Bucket → WinState → Search) :
    List ChildBucket → Nat → WinState → Search
  | [], low, S => .ok (⟨.win, low⟩, S)
  | child :: rest, low, S => do
    let (cr, S) ← visit child.bucket S
    let low := min low cr.lowlink
    if cr.verdict = .win then andOverChildren visit rest low S
    else .ok (⟨cr.verdict, low⟩, S)

def tryAction (E : WinEnv) (visit : Bucket → WinState → Search) (key : BucketKey)
    (action : ExecAction) (S : WinState) : Except Fault (Option DfsResult × WinState) :=
  if ¬ actionFilter E.q action then .ok (none, S)
  else do
    let (r, S) ← edgeExpand E S key action
    if r.concessionTag ≠ 0 then .ok (none, S.tallyConcession r.concessionTag)
    else if r.children.isEmpty then
      .error (.logicError
        "bucket_win_certify: expand produced no children with concession_tag=0")
    else do
      let (av, S) ← andOverChildren visit r.children lowlinkInf S
      .ok (some av, S)

structure OrResult where
  won : Bool := false
  anyIndet : Bool := false
  lowlink : Nat := lowlinkInf

def OrResult.absorb (acc : OrResult) (av : DfsResult) : OrResult where
  won := acc.won || av.verdict = .win
  anyIndet := acc.anyIndet || av.verdict = .indet
  lowlink := min acc.lowlink av.lowlink

def orOverActions (E : WinEnv) (visit : Bucket → WinState → Search) (key : BucketKey) :
    List ExecAction → OrResult → WinState → Except Fault (OrResult × WinState)
  | [], acc, S => .ok (acc, S)
  | action :: rest, acc, S => do
    let (o, S) ← tryAction E visit key action S
    match o with
    | none => orOverActions E visit key rest acc S
    | some av =>
      if av.verdict = .win then
        .ok (acc.absorb av, { S with policy := (key, action) :: S.policy })
      else orOverActions E visit key rest (acc.absorb av) S

def OrResult.verdict (acc : OrResult) : V :=
  if acc.won then .win else if acc.anyIndet then .indet else .fail

/-- A WIN is always stored, a FAIL only when nothing above `depth` was referenced. -/
def memoize (E : WinEnv) (key : BucketKey) (depth : Nat) (r : DfsResult) (S : WinState) :
    WinState :=
  if ¬ E.cfg.enableVerdictMemo then S
  else
    match r.verdict with
    | .win => S.storeMemo key true
    | .fail =>
      if r.lowlink ≥ depth then S.storeMemo key false
      else { S with stats.memoSuppressed := S.stats.memoSuppressed + 1 }
    | .indet => S

def exploreBucket (E : WinEnv) (visit : Bucket → WinState → Search) (key : BucketKey)
    (depth : Nat) (S : WinState) : Search := do
  let (acc, S) ← orOverActions E visit key (E.problem.corner key).legal {} (S.push key depth)
  let S := S.pop key
  let S := memoize E key depth ⟨acc.verdict, acc.lowlink⟩ S
  .ok (⟨acc.verdict, if acc.verdict = .win then lowlinkInf else acc.lowlink⟩, S)

def settled (E : WinEnv) (key : BucketKey) (S : WinState) : Option DfsResult × WinState :=
  match E.problem.classify key with
  | .win => (some ⟨.win, lowlinkInf⟩,
      { S with stats.terminalBuckets := S.stats.terminalBuckets + 1 })
  | .loss => (some ⟨.fail, lowlinkInf⟩,
      { S with stats.terminalBuckets := S.stats.terminalBuckets + 1 })
  | .cont =>
    if ¬ E.cfg.enableVerdictMemo then (none, S)
    else
      match S.memo.lookup key with
      | some win => (some ⟨if win then .win else .fail, lowlinkInf⟩,
          { S with stats.memoHits := S.stats.memoHits + 1 })
      | none => (none, S.containmentScan key)

/-- The recursion is on the depth still allowed, the effective cap less `depth`. -/
def dfs (E : WinEnv) : Nat → Nat → Bucket → WinState → Search
  | remaining, depth, A, S =>
    let key := keyOf A
    match settled E key (S.visit depth) with
    | (some r, S) => .ok (r, S)
    | (none, S) =>
      match remaining with
      | 0 => .ok (⟨.indet, lowlinkInf⟩, S.recordReason .depthCap)
      | remaining + 1 =>
        match S.stack.lookup key with
        | some ancestor =>
          .ok (⟨.fail, ancestor⟩,
            { S with stats.canonicalRepeats := S.stats.canonicalRepeats + 1 })
        | none =>
          if S.visitCapHit ∨ S.stats.bucketsVisited > E.cfg.visitCap then
            .ok (⟨.indet, lowlinkInf⟩, { S with visitCapHit := true }.recordReason .visitCap)
          else exploreBucket E (dfs E remaining (depth + 1)) key depth S

end NuzlockeSolver
