import NuzlockeSolver.Bucket.Deltas
import NuzlockeSolver.Bucket.StateCodec
import NuzlockeSolver.Oracle.ReplayPath

/-!
# Expansion of a bucket

The turn is run at the low corner of every sub-rectangle and replayed, leaf by leaf, at its high
corner. What lies between the two end states is the image of the leaf; it is split at the
breakpoints into children, which are then deduplicated and merged.
-/

namespace NuzlockeSolver

structure StdSort (α : Type) where
  sort : (α → α → Bool) → List α → List α
  perm : ∀ lt l, (sort lt l).Perm l

/-- A child before the merge, with the crit class of the leaf that it comes from. -/
structure RawChild where
  child : ChildBucket
  crit : Bool
deriving DecidableEq

/-- The parts of the engine that an expansion calls. -/
structure Engine (Ctx : Type) where
  actives : BattleState Ctx → StateView
  mon : BattleState Ctx → Int → MonView
  field : BattleState Ctx → FieldView
  isBerry : Int → Bool
  isFixedDamageMove : Int → Bool
  aiProbs : BattleState Ctx → List ActionProb
  damageTable : BattleState Ctx → Int → ExecAction → Except Fault DamageTable
  turn : BattleState Ctx → ExecAction → ExecAction → Turn (BattleState Ctx)
  pausedState : BattleState Ctx → ExecAction → ExecAction → Path → BattleState Ctx
  canonicalizePp : Ctx → Ctx
  entrySort : StdSort RawChild

structure ExpandOptions where
  forceGeneralPath : Bool := false
  skipHpDependentScreen : Bool := false
  skipDerivedSplits : Bool := false

structure ExpandContext (Ctx : Type) where
  engine : Engine Ctx
  bp : BpSet
  concede : BattleState Ctx → BattleState Ctx → ExecAction → UInt32 := fun _ _ _ => 0
  options : ExpandOptions := {}
  canonicalizePp : Bool := false

def expandFault {α : Type} (stage : Stage) (what : String) : ExpandM α :=
  .error (.expandError stage ("expand: " ++ what))

section Expand

variable {Ctx : Type} (X : ExpandContext Ctx)

def cornerState (I : ContextInterner Ctx) (A : Bucket) (plHp oppHp : Int) :
    ExpandM (BattleState Ctx) :=
  liftFault (I.unpack (makePackedKey A.d plHp oppHp))

def supportFp (s : BattleState Ctx) : UInt64 := supportFingerprint (X.engine.aiProbs s)

def supportGate (A : Bucket) (lo hi : BattleState Ctx) : ExpandM Unit :=
  if supportFp X lo ≠ supportFp X hi ∨ supportFp X lo ≠ A.supportFp then
    expandFault .supportFlip ("support fingerprint mismatch — bucket_fp=" ++ toString A.supportFp ++
      " lo_fp=" ++ toString (supportFp X lo) ++ " hi_fp=" ++ toString (supportFp X hi))
  else .ok ()

def aiMoveActions (probs : List ActionProb) : List ExecAction :=
  (probs.filter fun ap => 0 < ap.2 ∧ ap.1.kind = 0).map (·.1)

def moveIdAtSlot (s : BattleState Ctx) (side slot : Int) : Int :=
  if 0 ≤ slot ∧ slot < 4 then ((X.engine.mon s side).moves[slot.toNat]?).getD 0 else 0

def resolveActionMoveId (s : BattleState Ctx) (side : Int) (a : ExecAction) : Int :=
  if 0 ≤ a.moveOverride then a.moveOverride else moveIdAtSlot X s side a.moveSlot

def effectiveDamageTable (s : BattleState Ctx) (side : Int) (act : ExecAction) :
    ExpandM DamageTable :=
  let moveId := resolveActionMoveId X s side act
  if 0 < moveId ∧ moveId ∈ supportedFixedDamage then
    let noncrit := supportedFixedDamageSet (X.engine.mon s side) moveId
    .ok { noncrit, crit := [], immune := noncrit = [] }
  else liftFault (X.engine.damageTable s side act)

def screenMove (lo hi : BattleState Ctx) (side : Int) (who : String) (act : ExecAction) :
    ExpandM Bool := do
  let dtLo ← liftFault (X.engine.damageTable lo side act)
  let dtHi ← liftFault (X.engine.damageTable hi side act)
  let moveId := moveIdAtSlot X lo side act.moveSlot
  let move := who ++ " move slot=" ++ toString act.moveSlot ++ " move_id=" ++ toString moveId
  if X.options.skipHpDependentScreen = false ∧ 0 < moveId ∧ moveId ∈ ohkoMoves then
    expandFault .unsupportedMove
      (move ++ " is an OHKO move (inventory §14 #6 all-zero damage-table) — UnsupportedMove")
  else if X.options.skipHpDependentScreen = false ∧ 0 < moveId ∧
      X.engine.isFixedDamageMove moveId ∧ moveId ∉ supportedFixedDamage then
    expandFault .unsupportedMove
      (move ++ " is a fixed-damage move (§5.2) — routed to UnsupportedMove")
  else if X.options.skipHpDependentScreen = false ∧ damageTablesEqual dtLo dtHi = false then
    expandFault .unsupportedMove (move ++ " has HP-dependent damage table — routed to §5.2" ++
      if side = 0 then " (UnsupportedMove)" else "")
  else if weakCritDominance dtLo = false ∨ weakCritDominance dtHi = false then
    expandFault .weakDominanceViolation (who ++ " move" ++
      (if side = 0 then "" else " slot=" ++ toString act.moveSlot) ++
      " violates weak crit dominance")
  else .ok (strictCritDominance dtLo && strictCritDominance dtHi)

def attackPool (dt : DamageTable) : ExpandM (List Int × Int) := do
  let sums ← cumulativeAttackDeltas dt
  match sums.head?, sums.getLast? with
  | some dmin, some dmax =>
    let range := (List.range (dmax - dmin + 1).toNat).map fun k => dmin + (k : Int)
    .ok ((sums ++ range).flatMap bothSigns, dmax)
  | _, _ => .ok ([], 0)

def attackPools : List DamageTable → ExpandM (List Int × Int)
  | [] => .ok ([], 0)
  | dt :: rest => do
    let (pool, maxDmg) ← attackPool dt
    let (pools, maxRest) ← attackPools rest
    .ok (pool ++ pools, max maxDmg maxRest)

def killZoneSingletons (maxDmg : Int) (iv : HpInterval) : List Int :=
  if maxDmg ≤ 0 then []
  else
    (List.range (min maxDmg iv.hi - max 1 iv.lo + 1).toNat).map fun k => max 1 iv.lo + (k : Int)

def splitPoints (axis : HpAxis) (deltas : List Int) (maxDmg : Int) (iv : HpInterval) : List Int :=
  if X.options.skipDerivedSplits then []
  else
    sortedSet ((derivedSplitPoints axis.points deltas iv.lo iv.hi ++
      killZoneSingletons maxDmg iv).filter fun x => iv.lo ≤ x ∧ x < iv.hi)

structure SubRect where
  player : HpInterval
  opp : HpInterval

def inputSplits (A : Bucket) (lo : BattleState Ctx) (move : ExecAction)
    (aiActions : List ExecAction) : ExpandM (List Int × List Int) := do
  let aiTables ← aiActions.mapM fun act => effectiveDamageTable X lo 1 act
  let (plAttack, plMaxDmg) ← attackPools aiTables
  let playerTable ← effectiveDamageTable X lo 0 move
  let (opAttack, opMaxDmg) ← attackPool playerTable
  let residual (mon opp : MonView) :=
    residualDeltaCandidates X.engine.isBerry (X.engine.field lo) mon opp
  let pl := X.engine.mon lo 0
  let op := X.engine.mon lo 1
  .ok (splitPoints X X.bp.player (sortedSet (0 :: (plAttack ++ residual pl op))) plMaxDmg A.playerHp,
    splitPoints X X.bp.opp (sortedSet (0 :: (opAttack ++ residual op pl))) (max 0 opMaxDmg) A.oppHp)

def subRects (A : Bucket) (plPts opPts : List Int) : List SubRect :=
  (splitAxis A.playerHp.hi plPts A.playerHp.lo A.playerHp.lo_le_hi).flatMap fun player =>
    (splitAxis A.oppHp.hi opPts A.oppHp.lo A.oppHp.lo_le_hi).map fun opp => ⟨player, opp⟩

structure SubRectLeaf (Ctx : Type) where
  aiAction : ExecAction
  loChild : BattleState Ctx
  hiChild : BattleState Ctx
  wasCritLeaf : Bool

def pathTookCrit (path : Path) : Bool :=
  path.any fun pe => pe.channel = .catB ∧ pe.event = .crit ∧ pe.value = 1

def oracleEnv (s : BattleState Ctx) (move : ExecAction) : OracleEnv (BattleState Ctx) where
  view := X.engine.actives s
  playerAction := move
  aiProbs := X.engine.aiProbs s
  turn := X.engine.turn s move
  emit := fun _ => true
  cfg := {}

def replayPath (s : BattleState Ctx) (move aiAction : ExecAction) (path : Path) :
    Except Fault (BattleState Ctx) := do
  checkPreconditions (X.engine.actives s) move
  replayTurn (X.engine.turn s move aiAction) (X.engine.pausedState s move aiAction path) path

/-- A replay that throws diverged; a `logic_error` passes through. -/
def replayLeaf (hi : BattleState Ctx) (move : ExecAction) (leaf : Leaf (BattleState Ctx)) :
    ExpandM (SubRectLeaf Ctx) :=
  match replayPath X hi move leaf.aiAction leaf.path with
  | .ok child => .ok ⟨leaf.aiAction, leaf.child, child, pathTookCrit leaf.path⟩
  | .error (.runtimeError what) =>
    expandFault .replayDivergence ("replay_path diverged — " ++ what)
  | .error fault => .error (.other fault)

def runLeaves (lo hi : BattleState Ctx) (move : ExecAction) : ExpandM (List (SubRectLeaf Ctx)) := do
  let (leaves, _) ← liftFault (step (oracleEnv X lo move))
  leaves.mapM (replayLeaf X hi move)

def shiftGate (axis : String) (loIn hiIn loOut hiOut maxHp : Int) : ExpandM Unit :=
  if hiOut - loOut = hiIn - loIn then .ok ()
  else if (loOut = 0 ∧ hiOut = 0) ∨ (loOut = maxHp ∧ hiOut = maxHp) then .ok ()
  else
    expandFault .shiftViolation ("shift violation on " ++ axis ++ " axis — in_width=" ++
      toString (hiIn - loIn) ++ " out_width=" ++ toString (hiOut - loOut) ++ " (lo_in=" ++
      toString loIn ++ " hi_in=" ++ toString hiIn ++ " lo_out=" ++ toString loOut ++ " hi_out=" ++
      toString hiOut ++ ")")

def imageInterval (loHp hiHp : Int) : HpInterval :=
  if h : loHp ≤ hiHp then ⟨loHp, hiHp, h⟩ else ⟨hiHp, loHp, by omega⟩

def canonical (s : BattleState Ctx) : BattleState Ctx :=
  if X.canonicalizePp then { s with ctx := X.engine.canonicalizePp s.ctx } else s

def internAndMatch [DecidableEq Ctx] (I : ContextInterner Ctx) (lo hi : BattleState Ctx) :
    ExpandM (UInt32 × ContextInterner Ctx) := do
  let (loKey, I) ← liftFault (I.pack lo)
  let (hiKey, I) ← liftFault (I.pack hi)
  if loKey.ctx ≠ hiKey.ctx then
    expandFault .internMismatch ("interned ctx mismatch — lo_ctx=" ++ toString loKey.ctx ++
      " hi_ctx=" ++ toString hiKey.ctx)
  else .ok (loKey.ctx, I)

structure Collected (Ctx : Type) where
  interner : ContextInterner Ctx
  raw : List RawChild := []
  stats : ExpandStats := {}

def imageChild (d : UInt32) (fp : UInt64) (aiAction : ExecAction) (crit : Bool)
    (seg : HpInterval × HpInterval) : ExpandM RawChild := do
  let bucket ← liftFault (Bucket.make d seg.1 seg.2 fp X.bp)
  .ok ⟨⟨bucket, aiAction⟩, crit⟩

def imageChildren (d : UInt32) (player opp : HpInterval) (fp : UInt64) (aiAction : ExecAction)
    (crit : Bool) : ExpandM (List RawChild) :=
  ((splitAtBreakpoints player X.bp.player.points).flatMap fun plSeg =>
    (splitAtBreakpoints opp X.bp.opp.points).map fun opSeg => (plSeg, opSeg)).mapM
    (imageChild X d fp aiAction crit)

def expandLeaf [DecidableEq Ctx] (r : SubRect) (leaf : SubRectLeaf Ctx) (S : Collected Ctx) :
    ExpandM (Collected Ctx) := do
  let lo := leaf.loChild
  let hi := leaf.hiChild
  shiftGate "player" r.player.lo r.player.hi lo.playerHp hi.playerHp (X.engine.mon lo 0).maxHp
  shiftGate "opp" r.opp.lo r.opp.hi lo.oppHp hi.oppHp (X.engine.mon lo 1).maxHp
  let (d, I) ← internAndMatch S.interner (canonical X lo) (canonical X hi)
  let player := imageInterval lo.playerHp hi.playerHp
  let opp := imageInterval lo.oppHp hi.oppHp
  -- the fingerprint of the low corner goes to every piece of the image
  let fp := supportFp X (canonical X lo)
  let split : Bool := 1 < (splitAtBreakpoints player X.bp.player.points).length ∨
    1 < (splitAtBreakpoints opp X.bp.opp.points).length
  let children ← imageChildren X d player opp fp leaf.aiAction leaf.wasCritLeaf
  .ok
    { interner := I
      raw := S.raw ++ children
      stats := { S.stats with imageSplits := S.stats.imageSplits + if split then 1 else 0 } }

def expandLeaves [DecidableEq Ctx] (r : SubRect) :
    List (SubRectLeaf Ctx) → Collected Ctx → ExpandM (Collected Ctx)
  | [], S => .ok S
  | leaf :: rest, S => do
    let S ← expandLeaf X r leaf S
    expandLeaves r rest S

def expandSubRect [DecidableEq Ctx] (A : Bucket) (move : ExecAction) (r : SubRect)
    (S : Collected Ctx) : ExpandM (Collected Ctx) := do
  let lo ← cornerState S.interner A r.player.lo r.opp.lo
  let hi ← cornerState S.interner A r.player.hi r.opp.hi
  supportGate X A lo hi
  let leaves ← runLeaves X lo hi move
  expandLeaves X r leaves
    { S with stats :=
        { S.stats with
          subRects := S.stats.subRects + 1
          replays := S.stats.replays + leaves.length
          leaves := S.stats.leaves + leaves.length } }

def expandSubRects [DecidableEq Ctx] (A : Bucket) (move : ExecAction) :
    List SubRect → Collected Ctx → ExpandM (Collected Ctx)
  | [], S => .ok S
  | r :: rest, S => do
    let S ← expandSubRect X A move r S
    expandSubRects A move rest S

def dedupeChildren : List RawChild → List RawChild → List RawChild
  | [], seen => seen.reverse
  | c :: rest, seen =>
    if seen.any fun c' => c'.child.bucket = c.child.bucket ∧
        c'.child.aiAction.moveSlot = c.child.aiAction.moveSlot ∧ c'.crit = c.crit then
      dedupeChildren rest seen
    else dedupeChildren rest (c :: seen)

def mergeVetoAxis (a b : HpInterval) (bps : List Int) : Bool :=
  let isSingletonBp (iv : HpInterval) : Bool := iv.lo = iv.hi ∧ iv.lo ∈ bps
  (bps.any fun x => min a.lo b.lo < x ∧ x < max a.hi b.hi) ||
    ((isSingletonBp a || isSingletonBp b) && (a.lo ≠ b.lo ∨ a.hi ≠ b.hi))

def mergePair (bp : BpSet) (general : Bool) (a b : RawChild) : Option RawChild :=
  if a.child.bucket.d ≠ b.child.bucket.d then none
  else if a.child.aiAction.moveSlot ≠ b.child.aiAction.moveSlot then none
  else if general ∧ a.crit ≠ b.crit then none
  else if mergeVetoAxis a.child.bucket.playerHp b.child.bucket.playerHp bp.player.points then none
  else if mergeVetoAxis a.child.bucket.oppHp b.child.bucket.oppHp bp.opp.points then none
  else (tryMerge a.child.bucket b.child.bucket).map fun m => ⟨⟨m, a.child.aiAction⟩, a.crit⟩

/-- The first two neighbours that merge are merged. -/
def mergeOnce (bp : BpSet) (general : Bool) : List RawChild → Option (List RawChild)
  | a :: b :: rest =>
    match mergePair bp general a b with
    | some m => some (m :: rest)
    | none => (mergeOnce bp general (b :: rest)).map (a :: ·)
  | _ => none

/-- Every merge makes the list shorter, so as many rounds as there are entries are enough. -/
def mergeAll (bp : BpSet) (general : Bool) : Nat → List RawChild → List RawChild
  | 0, entries => entries
  | n + 1, entries =>
    match mergeOnce bp general entries with
    | some entries => mergeAll bp general n entries
    | none => entries

def entryLt (general : Bool) (a b : RawChild) : Bool :=
  if a.child.bucket.d ≠ b.child.bucket.d then a.child.bucket.d < b.child.bucket.d
  else if a.child.aiAction.moveSlot ≠ b.child.aiAction.moveSlot then
    a.child.aiAction.moveSlot < b.child.aiAction.moveSlot
  else if general ∧ a.crit ≠ b.crit then !a.crit && b.crit
  else if a.child.bucket.playerHp.lo ≠ b.child.bucket.playerHp.lo then
    a.child.bucket.playerHp.lo < b.child.bucket.playerHp.lo
  else a.child.bucket.oppHp.lo < b.child.bucket.oppHp.lo

def mergePass (general : Bool) (raw : List RawChild) : List ChildBucket :=
  let entries := X.engine.entrySort.sort (entryLt general) raw
  (mergeAll X.bp general entries.length entries).map (·.child)

def expand [DecidableEq Ctx] (I : ContextInterner Ctx) (A : Bucket) (move : ExecAction) :
    ExpandM (ExpandResult × ContextInterner Ctx) := do
  if A.playerHp.lo < 1 ∨ A.oppHp.lo < 1 then
    expandFault .precondition
      "bucket interval touches 0 (terminal) — never expand a terminal bucket"
  else
  let lo ← cornerState I A A.playerHp.lo A.oppHp.lo
  let hi ← cornerState I A A.playerHp.hi A.oppHp.hi
  supportGate X A lo hi
  if X.concede lo hi move ≠ 0 then
    .ok ({ concessionTag := X.concede lo hi move, stats := { fastPath := true } }, I)
  else
  let playerFast ← screenMove X lo hi 0 "player" move
  let aiActions := aiMoveActions (X.engine.aiProbs lo)
  let aiFast ← aiActions.mapM (screenMove X lo hi 1 "AI")
  let (plPts, opPts) ← inputSplits X A lo move aiActions
  let S ← expandSubRects X A move (subRects A plPts opPts)
    { interner := I, stats := { derivedSplitPoints := plPts.length + opPts.length } }
  let fastPath := playerFast && aiFast.all id && !X.options.forceGeneralPath
  let children := mergePass X (!fastPath) (dedupeChildren S.raw [])
  .ok ({ concessionTag := 0
         children
         stats :=
          { S.stats with
            fastPath
            childrenBeforeMerge := S.raw.length
            childrenAfterMerge := children.length } }, S.interner)

end Expand

end NuzlockeSolver
