import NuzlockeSolver.Bucket.WinSolver

/-!
# Certification and the certificate walk

The entry point classifies the root, runs the search and, when PP is canonicalised, walks the
winning policy into the graph that the PP audit consumes. The walk raises on a cycle and on a
bucket without a policy entry.
-/

namespace NuzlockeSolver

def actionPpCost (a : ExecAction) (opposingPressure : Bool) : Int :=
  if a.kind ≠ 0 ∨ a.moveSlot < 0 then 0 else if opposingPressure then 2 else 1

def auditEdge (E : WinEnv) (S : WinState) (key : BucketKey) (action : ExecAction) :
    ExpandResult × WinState :=
  let fresh (S : WinState) :=
    (E.problem.expand key action, { S with stats.auditExpands := S.stats.auditExpands + 1 })
  if ¬ E.cfg.enableEdgeCache then fresh S
  else
    match S.cache.lookup (makeEdgeKey key E.bpFp action) with
    | (some r, cache) => (r, { S with cache := cache })
    | (none, cache) => fresh { S with cache := cache }

structure CertWalk where
  nodes : List PpCertNode := []
  built : List (BucketKey × Nat) := []
  search : WinState

def certEdges (E : WinEnv) (build : Bucket → CertWalk → Except Fault (Nat × CertWalk))
    (corner : Corner) :
    List ChildBucket → CertWalk → Except Fault (List PpCertEdge × CertWalk)
  | [], w => .ok ([], w)
  | child :: rest, w => do
    let oppSlot : PpSlotKey := ⟨1, corner.opActive, child.aiAction.moveSlot⟩
    let oppCost := actionPpCost child.aiAction corner.plPressure
    if E.problem.classify (keyOf child.bucket) = .win then
      let (edges, w) ← certEdges E build corner rest w
      .ok (⟨oppSlot, oppCost, -1⟩ :: edges, w)
    else
      let (idx, w) ← build child.bucket w
      let (edges, w) ← certEdges E build corner rest w
      .ok (⟨oppSlot, oppCost, idx⟩ :: edges, w)

/-- `onStack` holds the buckets being built; the depth is at most one more than the number of
buckets with a policy entry. -/
def buildCertNode (E : WinEnv) :
    Nat → List BucketKey → Bucket → CertWalk → Except Fault (Nat × CertWalk)
  | 0, _, _, _ => .error .fuel
  | fuel + 1, onStack, A, w =>
    let key := keyOf A
    if key ∈ onStack then
      .error (.logicError "bucket_win_certify: cycle in WIN certificate during PP audit")
    else
      match w.built.lookup key with
      | some idx => .ok (idx, w)
      | none =>
        match w.search.policy.lookup key with
        | none => .error (.logicError
            "bucket_win_certify: WIN certificate node missing a policy entry during PP audit")
        | some action => do
          let corner := E.problem.corner key
          let (r, search) := auditEdge E w.search key action
          let (edges, w) ← certEdges E (buildCertNode E fuel (key :: onStack)) corner r.children
            { w with search := search }
          let node : PpCertNode :=
            { playerSlot := ⟨0, corner.plActive, action.moveSlot⟩
              playerCost := actionPpCost action corner.opPressure
              children := edges }
          let idx := w.nodes.length
          .ok (idx, { w with nodes := w.nodes ++ [node], built := (key, idx) :: w.built })

def ppCertAudit (E : WinEnv) (rootPp : PpRootPp) (root : Bucket) (S : WinState) :
    Except Fault (Bool × WinState) :=
  match S.policy.lookup (keyOf root) with
  | none => .ok (true, S)
  | some _ => do
    let (idx, w) ← buildCertNode E (S.policy.length + 1) [] root { search := S }
    let consumption ← ppMaxConsumption ⟨w.nodes, idx⟩
    let ok ← ppCertAuditOk rootPp consumption
    .ok (ok, w.search)

structure RealRoot where
  ppHorizon : Int
  rootPp : PpRootPp

def effectiveDepthCap (cfg : BucketWinConfig) (real : RealRoot) : Int :=
  if cfg.enablePpCanon then min cfg.depthCap real.ppHorizon else cfg.depthCap

def winThread (E : WinEnv) (real : RealRoot) (root : Bucket) (S : WinState) :
    Except Fault (V × WinState) := do
  let (r, S) ← dfs E (effectiveDepthCap E.cfg real).toNat 0 root S
  if r.verdict = .win ∧ E.cfg.enablePpCanon then
    let (ok, S) ← ppCertAudit E real.rootPp root S
    if ok then .ok (.win, S)
    else .ok (.indet, { S with
      stats.ppAuditRejects := 1
      firstReason := .ppAuditFail })
  else .ok (r.verdict, S)

def resultOf (v : V) (S : WinState) : BucketWinResult where
  verdict := match v with
    | .win => .win
    | .fail => .fail
    | .indet => .indeterminate
  reason := match v with
    | .indet => S.firstReason
    | _ => .none
  policy := S.policy
  concessionHistogram := S.histogram
  stats := S.stats

def WinState.initial (cfg : BucketWinConfig) (real : RealRoot) (cache : TransitionCache) :
    WinState where
  cache := cache
  stats := { ppHorizonUsed := if cfg.enablePpCanon then real.ppHorizon else 0 }

def bucketWinCertify (E : WinEnv) (real : RealRoot) (cache : TransitionCache) (root : Bucket) :
    Except Fault (BucketWinResult × TransitionCache) :=
  match E.problem.classify (keyOf root) with
  | .win => .ok ({ verdict := .win }, cache)
  | .loss => .ok ({ verdict := .fail }, cache)
  | .cont => do
    let cache ← cache.requireMode (if E.cfg.enablePpCanon then .canonical else .exact)
    let (v, S) ← winThread E real root (.initial E.cfg real cache)
    .ok (resultOf v S, S.cache)

end NuzlockeSolver
