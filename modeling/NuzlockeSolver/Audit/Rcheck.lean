import Mathlib.Data.List.FinRange
import NuzlockeSolver.Audit.MatchupGen
import NuzlockeSolver.Bucket.Pipeline
import NuzlockeSolver.Counter

/-!
# The referee audit

The pipeline runs on every matchup of a shard and an exact search referees it. Every matchup falls
into one of nine classes and gives one line of the output; a summary line marks the shard as
complete.
-/

namespace NuzlockeSolver.Audit

inductive RcheckClass
  | thrown
  | refereeIndet
  | soundAgreeWin
  | soundAgreeLoss
  | hardFailBWin
  | hardFailPessimalLoss
  | soundUnknownOnLoss
  | conservativeTagged
  | conservativeUntagged
deriving DecidableEq, Repr

namespace RcheckClass

def all : List RcheckClass :=
  [.thrown, .refereeIndet, .soundAgreeWin, .soundAgreeLoss, .hardFailBWin, .hardFailPessimalLoss,
    .soundUnknownOnLoss, .conservativeTagged, .conservativeUntagged]

def name : RcheckClass → String
  | .thrown => "THROWN"
  | .refereeIndet => "REFEREE_INDET"
  | .soundAgreeWin => "SOUND_AGREE_WIN"
  | .soundAgreeLoss => "SOUND_AGREE_LOSS"
  | .hardFailBWin => "HARD_FAIL_B_WIN"
  | .hardFailPessimalLoss => "HARD_FAIL_PESSIMAL_LOSS"
  | .soundUnknownOnLoss => "SOUND_UNKNOWN_ON_LOSS"
  | .conservativeTagged => "CONSERVATIVE_TAGGED"
  | .conservativeUntagged => "CONSERVATIVE_UNTAGGED"

def isHardFail (c : RcheckClass) : Bool := c = .hardFailBWin || c = .hardFailPessimalLoss

theorem mem_all (c : RcheckClass) : c ∈ all := by cases c <;> decide

theorem name_injective {c d : RcheckClass} (h : c.name = d.name) : c = d := by
  have hdecide : ∀ c ∈ all, ∀ d ∈ all, c.name = d.name → c = d := by decide
  exact hdecide c c.mem_all d d.mem_all h

end RcheckClass

structure PipelineOutcome where
  verdict : PipelineVerdict := .unknown
  thrown : Bool := false
  concessionMask : UInt32 := 0

def classifyRcheck (po : PipelineOutcome) (exact : BVerdict) : RcheckClass :=
  if po.thrown then .thrown
  else if exact = .indeterminate then .refereeIndet
  else
    match po.verdict with
    | .win => if exact = .win then .soundAgreeWin else .hardFailBWin
    | .loss => if exact = .loss then .soundAgreeLoss else .hardFailPessimalLoss
    | .unknown =>
      if exact = .loss then .soundUnknownOnLoss
      else if po.concessionMask ≠ 0 then .conservativeTagged
      else .conservativeUntagged

def bverdictStr : BVerdict → String
  | .win => "WIN"
  | .loss => "LOSS"
  | .indeterminate => "INDET"

def bindetStr : BIndeterminateReason → String
  | .none => "None"
  | .leafBudget => "LeafBudget"
  | .nodeCap => "NodeCap"
  | .depthCap => "DepthCap"
  | .cycle => "Cycle"

def pverdictStr : PipelineVerdict → String
  | .win => "WIN"
  | .loss => "LOSS"
  | .unknown => "UNKNOWN"

def bwverdictStr : BucketWinVerdict → String
  | .win => "WIN"
  | .fail => "FAIL"
  | .indeterminate => "INDET"

def bwindetStr : IndetReason → String
  | .none => "None"
  | .depthCap => "DepthCap"
  | .visitCap => "VisitCap"
  | .ppAuditFail => "PpAuditFail"

def expandStageName : Stage → String
  | .precondition => "Precondition"
  | .weakDominanceViolation => "WeakDominanceViolation"
  | .unsupportedMove => "UnsupportedMove"
  | .supportFlip => "SupportFlip"
  | .replayDivergence => "ReplayDivergence"
  | .shiftViolation => "ShiftViolation"
  | .internMismatch => "InternMismatch"
  | .derivedSplitOverflow => "DerivedSplitOverflow"
  | .imageSplit => "ImageSplit"

def concessionTags : List String :=
  ["SLEEP_ACTING", "FREEZE", "PARALYSIS", "CONFUSION", "ATTRACT", "LOCK_MOVE", "RECHARGE",
    "FLINCH_SLOWER", "ORDER_RNG", "HP_DEP_MOVE", "MULTI_HIT_HARD", "SUBSTITUTE",
    "DMG_TABLE_CAVEAT"]

def concessionTagNames (mask : UInt32) : String :=
  "|".intercalate ((concessionTags.zipIdx.filter fun tag => mask.toNat.testBit tag.2).map (·.1))

def concessionName (bit : Nat) : String :=
  let name := concessionTagNames (1 <<< UInt32.ofNat bit)
  if name = "" then "bit" ++ toString bit else name

abbrev Histogram := Vector Nat 32

def maskOf (hist : Histogram) : UInt32 :=
  (List.finRange 32).foldl (fun m (bit : Fin 32) =>
    if hist[bit] ≠ 0 then m ||| 1 <<< UInt32.ofNat bit else m) 0

def concessionsJson (hist : Histogram) : List (String × Nat) :=
  (List.finRange 32).filterMap fun (bit : Fin 32) =>
    if hist[bit] = 0 then none else some (concessionName bit, hist[bit])

def faultWhat : Fault → String
  | .logicError what => what
  | .runtimeError what => what
  | .fuel => ""

def exceptionWhat : ExpandFault → String
  | .expandError _ what => what
  | .other fault => faultWhat fault

def hasText (what sub : String) : Bool := decide (sub.toList <:+: what.toList)

/-- The characters within the first bytes of a text. A character cut in two is left out here, where
the dump of the record would refuse the text. -/
def charsWithin : Nat → List Char → List Char
  | _, [] => []
  | bytes, c :: cs =>
    if c.utf8Size ≤ bytes then c :: charsWithin (bytes - c.utf8Size) cs else []

def throwCensusKey : ExpandFault → String
  | .expandError stage _ => "expand:" ++ expandStageName stage
  | .other fault =>
    let what := faultWhat fault
    if hasText what "residual_unknown" then "residual_unknown"
    else if hasText what "form-change" then "form-change"
    else if hasText what "ai-final-gambit" then "ai-final-gambit"
    else if hasText what "ai-bench" then "ai-bench"
    else "other:" ++ String.ofList (charsWithin 60 what.toList)

structure Timing where
  pessimal : Nat
  b : Nat
  exact : Nat
deriving DecidableEq, Repr

/-- What the clock measures in one round. -/
structure Clock where
  timing : Timing := ⟨0, 0, 0⟩
  bElapsed : Nat := 0
deriving DecidableEq, Repr

inductive PipelineJson
  | thrown (key what : String)
  | ran (verdict pessimalVerdict pessimalReason : String) (bRan : Bool) (bVerdict bReason : String)
    (concessions : List (String × Nat))
deriving DecidableEq, Repr

structure AuditRecord where
  klass : String
  seed : Nat
  index : Int
  shardK : Int
  shardOf : Int
  classification : String
  pipeline : PipelineJson
  exactVerdict : String
  exactReason : String
  timing : Timing
  telemetry : List (String × Int)
deriving DecidableEq, Repr

structure ShardSummary where
  klass : String
  seed : Nat
  shardK : Int
  shardOf : Int
  n : Nat
  bins : List (String × Nat)
  throwCensus : List (String × Nat)
  concessionHistogram : List (String × Nat)
  hardFails : Option Nat
deriving DecidableEq, Repr

inductive AuditLine
  | record (r : AuditRecord)
  | summary (s : ShardSummary)
deriving DecidableEq, Repr

def telemetryJson (s : BucketWinStats) (elapsed : Nat) : List (String × Int) :=
  [("buckets_visited", s.bucketsVisited), ("terminal_buckets", s.terminalBuckets),
    ("expand_calls", s.expandCalls), ("replays", s.replays), ("oracle_leaves", s.oracleLeaves),
    ("conceded_branches", s.concededBranches), ("max_depth", s.maxDepth),
    ("b_elapsed_us", elapsed), ("edge_hits", s.edgeHits), ("edge_misses", s.edgeMisses),
    ("memo_hits", s.memoHits), ("memo_stores", s.memoStores),
    ("memo_suppressed", s.memoSuppressed),
    ("memo_containment_missed", s.memoContainmentMissed),
    ("canonical_repeats", s.canonicalRepeats), ("pp_horizon_used", s.ppHorizonUsed),
    ("audit_expands", s.auditExpands), ("pp_audit_rejects", s.ppAuditRejects)]

structure RcheckConfig (σ : Type) where
  seed : UInt64 := 1
  klass : String := "uniform"
  n : Int := 100
  shardK : Int := 0
  shardOf : Int := 1
  repoRoot : String := ""
  exactLeaves : Nat := 5000
  exactNodes : Nat := 1000
  pessLeaves : Nat := 5000
  pessNodes : Nat := 1000
  bDepth : Int := 500
  bVisits : Nat := 1000000
  enableCache : Bool := true
  enablePpCanon : Bool := false
  injected : List σ := []

namespace RcheckConfig

variable {σ : Type} (cfg : RcheckConfig σ)

def pipelineConfig : PipelineConfig where
  pessimalCfg := { oracleMaxLeaves := cfg.pessLeaves, nodeCap := cfg.pessNodes }
  winCfg :=
    { depthCap := cfg.bDepth
      visitCap := cfg.bVisits
      enableEdgeCache := cfg.enableCache
      enableVerdictMemo := cfg.enableCache
      enablePpCanon := cfg.enablePpCanon }

def exactConfig : BsolverConfig :=
  { oracleMaxLeaves := cfg.exactLeaves, nodeCap := cfg.exactNodes }

end RcheckConfig

structure Referees (σ : Type) where
  pipeline : σ → Except ExpandFault PipelineResult
  exact : σ → Except Fault BsolverResult
  clock : Nat → Clock

structure AuditCase where
  pipeline : Except ExpandFault PipelineResult
  exact : BsolverResult

namespace AuditCase

def outcome (c : AuditCase) : PipelineOutcome :=
  match c.pipeline with
  | .ok pres => { verdict := pres.verdict, concessionMask := maskOf pres.concessionHistogram }
  | .error _ => { thrown := true }

def klass (c : AuditCase) : RcheckClass := classifyRcheck c.outcome c.exact.verdict

def pipelineJson (c : AuditCase) : PipelineJson :=
  match c.pipeline with
  | .ok pres =>
    .ran (pverdictStr pres.verdict) (bverdictStr pres.pessimalVerdict)
      (bindetStr pres.pessimalReason)
      pres.bRan (bwverdictStr pres.bVerdict) (bwindetStr pres.bReason)
      (concessionsJson pres.concessionHistogram)
  | .error e => .thrown (throwCensusKey e) (exceptionWhat e)

def timing (c : AuditCase) (clock : Clock) : Timing :=
  match c.pipeline with
  | .ok _ => clock.timing
  | .error _ => ⟨0, 0, clock.timing.exact⟩

def telemetry (c : AuditCase) (clock : Clock) : List (String × Int) :=
  match c.pipeline with
  | .ok pres => telemetryJson pres.bStats clock.bElapsed
  | .error _ => telemetryJson {} 0

end AuditCase

namespace AuditCase

def throwKey (c : AuditCase) : Option String :=
  match c.pipeline with
  | .ok _ => none
  | .error e => some (throwCensusKey e)

def concessions (c : AuditCase) : Histogram :=
  match c.pipeline with
  | .ok pres => pres.concessionHistogram
  | .error _ => Vector.replicate 32 0

end AuditCase

structure RcheckReport where
  n : Nat := 0
  bins : RcheckClass → Nat := fun _ => 0
  hardFails : Nat := 0
  throwCensus : List (String × Nat) := []
  concessionHistogram : Histogram := Vector.replicate 32 0

def RcheckReport.add (report : RcheckReport) (c : AuditCase) : RcheckReport where
  n := report.n + 1
  bins klass := if klass = c.klass then report.bins klass + 1 else report.bins klass
  hardFails := if c.klass.isHardFail then report.hardFails + 1 else report.hardFails
  throwCensus :=
    match c.pipeline with
    | .ok _ => report.throwCensus
    | .error e => bump (throwCensusKey e) 1 report.throwCensus
  concessionHistogram :=
    match c.pipeline with
    | .ok pres => report.concessionHistogram.zipWith (· + ·) pres.concessionHistogram
    | .error _ => report.concessionHistogram

inductive RcheckFault
  | invalidArgument (what : String)
  | generator (fault : GenFault)
  | referee (fault : Fault)
deriving DecidableEq, Repr

structure RcheckOutput where
  lines : List AuditLine
  result : Except RcheckFault RcheckReport

section Run

variable {σ γ : Type} (cfg : RcheckConfig σ) (R : Referees σ)

def auditRecord (i : Nat) (c : AuditCase) : AuditRecord where
  klass := cfg.klass
  seed := cfg.seed.toNat
  index := cfg.shardK + i * cfg.shardOf
  shardK := cfg.shardK
  shardOf := cfg.shardOf
  classification := c.klass.name
  pipeline := c.pipelineJson
  exactVerdict := bverdictStr c.exact.verdict
  exactReason := bindetStr c.exact.reason
  timing := c.timing (R.clock i)
  telemetry := c.telemetry (R.clock i)

def shardSummary (report : RcheckReport) : ShardSummary where
  klass := cfg.klass
  seed := cfg.seed.toNat
  shardK := cfg.shardK
  shardOf := cfg.shardOf
  n := report.n
  bins := RcheckClass.all.map fun c => (c.name, report.bins c)
  throwCensus := report.throwCensus
  concessionHistogram := concessionsJson report.concessionHistogram
  hardFails := some report.hardFails

/-- The rounds that are left, from round `i` on; an exception leaves the lines written so far. -/
def rcheckLoop (next : γ → Except GenFault (σ × γ)) : Nat → Nat → γ → RcheckReport → RcheckOutput
  | 0, _, _, report => ⟨[.summary (shardSummary cfg report)], .ok report⟩
  | left + 1, i, g, report =>
    match next g with
    | .error fault => ⟨[], .error (.generator fault)⟩
    | .ok r =>
      match R.exact r.1 with
      | .error fault => ⟨[], .error (.referee fault)⟩
      | .ok ex =>
        let c : AuditCase := ⟨R.pipeline r.1, ex⟩
        let rest := rcheckLoop next left (i + 1) r.2 (report.add c)
        ⟨.record (auditRecord cfg R i c) :: rest.lines, rest.result⟩

def injectedNext : List σ → Except GenFault (σ × List σ)
  | [] => .error .spent
  | s :: states => .ok (s, states)

/-- The generator of a shard that is ready to run. -/
structure Source (σ γ : Type) where
  next : γ → Except GenFault (σ × γ)
  start : γ

def rcheckRun (generator : Except RcheckFault (Source σ γ)) : RcheckOutput :=
  if cfg.injected ≠ [] ∧ cfg.repoRoot ≠ "" then
    ⟨[], .error (.invalidArgument
      ("rcheck_run: injected list and repo_root both set — mutually exclusive; " ++
        "clear repo_root when injecting matchups"))⟩
  else if cfg.injected ≠ [] then
    rcheckLoop cfg R injectedNext cfg.injected.length 0 cfg.injected {}
  else
    match generator with
    | .error fault => ⟨[], .error fault⟩
    | .ok source => rcheckLoop cfg R source.next cfg.n.toNat 0 source.start {}

/-- Both referees on one matchup. -/
def Referees.audit (s : σ) : Except RcheckFault AuditCase := do
  let ex ← (R.exact s).mapError .referee
  .ok ⟨R.pipeline s, ex⟩

def auditNext (next : γ → Except GenFault (σ × γ)) (g : γ) :
    Except RcheckFault (AuditCase × γ) := do
  let r ← (next g).mapError .generator
  let c ← R.audit r.1
  .ok (c, r.2)

/-- The records of the rounds from `i` on. -/
def recordsFrom (i : Nat) (cases : List AuditCase) : List AuditRecord :=
  (cases.zipIdx i).map fun p => auditRecord cfg R p.2 p.1

def RcheckReport.tally (report : RcheckReport) (cases : List AuditCase) : RcheckReport :=
  cases.foldl .add report

variable {cfg R} {next : γ → Except GenFault (σ × γ)} {left i : Nat} {g : γ}
  {report report' : RcheckReport}

theorem mapError_eq_ok {ε ε' α : Type} {f : ε → ε'} {x : Except ε α} {a : α} :
    x.mapError f = .ok a ↔ x = .ok a := by
  cases x with
  | error e => exact ⟨(nomatch ·), (nomatch ·)⟩
  | ok b => simp [Except.mapError]

theorem audit_eq_ok {s : σ} {c : AuditCase} :
    R.audit s = .ok c ↔ ∃ ex, R.exact s = .ok ex ∧ c = ⟨R.pipeline s, ex⟩ := by
  unfold Referees.audit
  constructor
  · intro h
    obtain ⟨ex, hexact, h⟩ := bind_eq_ok.1 h
    exact ⟨ex, mapError_eq_ok.1 hexact, (Except.ok.inj h).symm⟩
  · intro ⟨ex, hexact, hc⟩
    exact bind_eq_ok.2 ⟨ex, mapError_eq_ok.2 hexact, congrArg _ hc.symm⟩

theorem auditNext_eq_ok {c : AuditCase} {g₁ : γ} :
    auditNext R next g = .ok (c, g₁) ↔ ∃ s, next g = .ok (s, g₁) ∧ R.audit s = .ok c := by
  unfold auditNext
  constructor
  · intro h
    obtain ⟨⟨s, g₂⟩, hnext, h⟩ := bind_eq_ok.1 h
    obtain ⟨c', haudit, h⟩ := bind_eq_ok.1 h
    cases h
    exact ⟨s, mapError_eq_ok.1 hnext, haudit⟩
  · intro ⟨s, hnext, haudit⟩
    exact bind_eq_ok.2 ⟨_, mapError_eq_ok.2 hnext, bind_eq_ok.2 ⟨c, haudit, rfl⟩⟩

theorem collect_auditNext {r : List AuditCase × γ} :
    Sharding.collect (auditNext R next) left g = .ok r ↔
      ∃ states, Sharding.collect next left g = .ok (states, r.2) ∧
        List.Forall₂ (fun s c => R.audit s = .ok c) states r.1 := by
  induction left generalizing g r with
  | zero =>
    constructor
    · intro h
      cases h
      exact ⟨[], rfl, .nil⟩
    · intro ⟨states, h, haudit⟩
      cases h
      obtain ⟨cases, g'⟩ := r
      cases haudit
      rfl
  | succ left ih =>
    constructor
    · intro h
      obtain ⟨⟨c, g₁⟩, hfirst, h⟩ := bind_eq_ok.1 h
      obtain ⟨rest, hrest, h⟩ := bind_eq_ok.1 h
      cases h
      obtain ⟨s, hnext, haudit⟩ := auditNext_eq_ok.1 hfirst
      obtain ⟨states, hstates, haudits⟩ := ih.1 hrest
      exact ⟨s :: states, bind_eq_ok.2 ⟨_, hnext, bind_eq_ok.2 ⟨_, hstates, rfl⟩⟩,
        .cons haudit haudits⟩
    · intro ⟨states, h, haudits⟩
      obtain ⟨⟨s, g₁⟩, hnext, h⟩ := bind_eq_ok.1 h
      obtain ⟨rest, hrest, h⟩ := bind_eq_ok.1 h
      obtain ⟨cases, g'⟩ := r
      cases h
      cases haudits with
      | cons haudit haudits =>
        refine bind_eq_ok.2 ⟨_, auditNext_eq_ok.2 ⟨s, hnext, haudit⟩, ?_⟩
        exact bind_eq_ok.2 ⟨(_, rest.2), ih.2 ⟨_, hrest, haudits⟩, rfl⟩

theorem rcheckLoop_of_collect {r : List AuditCase × γ}
    (h : Sharding.collect (auditNext R next) left g = .ok r) :
    rcheckLoop cfg R next left i g report =
      ⟨(recordsFrom cfg R i r.1).map .record ++ [.summary (shardSummary cfg (report.tally r.1))],
        .ok (report.tally r.1)⟩ := by
  induction left generalizing i g report r with
  | zero =>
    cases h
    rfl
  | succ left ih =>
    obtain ⟨⟨c, g₁⟩, hfirst, h⟩ := bind_eq_ok.1 h
    obtain ⟨rest, hrest, h⟩ := bind_eq_ok.1 h
    cases h
    obtain ⟨s, hnext, haudit⟩ := auditNext_eq_ok.1 hfirst
    obtain ⟨ex, hexact, rfl⟩ := audit_eq_ok.1 haudit
    simp only [rcheckLoop, hnext, hexact, ih hrest]
    rfl

theorem rcheckLoop_of_error {fault : RcheckFault}
    (h : Sharding.collect (auditNext R next) left g = .error fault) :
    (rcheckLoop cfg R next left i g report).result = .error fault ∧
      ∀ line ∈ (rcheckLoop cfg R next left i g report).lines, ∃ r, line = .record r := by
  induction left generalizing i g report with
  | zero => cases h
  | succ left ih =>
    simp only [Sharding.collect, auditNext, Referees.audit] at h
    cases hnext : next g with
    | error fault =>
      rw [hnext] at h
      cases h
      simp [rcheckLoop, hnext]
    | ok r =>
      simp only [hnext, Except.mapError, ok_bind] at h
      cases hexact : R.exact r.1 with
      | error fault =>
        simp only [hexact] at h
        cases h
        simp [rcheckLoop, hnext, hexact]
      | ok ex =>
        simp only [hexact, ok_bind] at h
        cases hrest : Sharding.collect (auditNext R next) left r.2 with
        | ok rest =>
          rw [hrest] at h
          cases h
        | error fault' =>
          rw [hrest] at h
          cases h
          simp only [rcheckLoop, hnext, hexact]
          obtain ⟨hresult, hlines⟩ := ih hrest
          refine ⟨hresult, fun line hline => ?_⟩
          obtain rfl | hline := List.mem_cons.1 hline
          · exact ⟨_, rfl⟩
          · exact hlines line hline

variable {cases : List AuditCase}

theorem tally_n : (report.tally cases).n = report.n + cases.length := by
  induction cases generalizing report with
  | nil => rfl
  | cons c cases ih =>
    rw [RcheckReport.tally, List.foldl_cons, ← RcheckReport.tally, ih, List.length_cons]
    simp only [RcheckReport.add]
    omega

theorem tally_bins (klass : RcheckClass) : (report.tally cases).bins klass =
    report.bins klass + cases.countP fun c => c.klass = klass := by
  induction cases generalizing report with
  | nil => rfl
  | cons c cases ih =>
    rw [RcheckReport.tally, List.foldl_cons, ← RcheckReport.tally, ih, List.countP_cons]
    simp only [RcheckReport.add, decide_eq_true_eq, eq_comm (a := klass)]
    split <;> omega

theorem tally_hardFails : (report.tally cases).hardFails =
    report.hardFails + cases.countP fun c => c.klass.isHardFail := by
  induction cases generalizing report with
  | nil => rfl
  | cons c cases ih =>
    rw [RcheckReport.tally, List.foldl_cons, ← RcheckReport.tally, ih, List.countP_cons]
    simp only [RcheckReport.add]
    split <;> omega

theorem tally_throwCensus (key : String) : countOf (report.tally cases).throwCensus key =
    countOf report.throwCensus key + cases.countP fun c => c.throwKey = some key := by
  induction cases generalizing report with
  | nil => rfl
  | cons c cases ih =>
    rw [RcheckReport.tally, List.foldl_cons, ← RcheckReport.tally, ih, List.countP_cons]
    have hadd : countOf (report.add c).throwCensus key =
        countOf report.throwCensus key + if c.throwKey = some key then 1 else 0 := by
      unfold RcheckReport.add AuditCase.throwKey
      cases c.pipeline with
      | ok pres => simp
      | error e => simp only [countOf_bump, Option.some.injEq]
    rw [hadd]
    simp only [decide_eq_true_eq]
    omega

theorem tally_concessions (bit : Fin 32) : (report.tally cases).concessionHistogram[bit] =
    report.concessionHistogram[bit] + (cases.map fun c => c.concessions[bit]).sum := by
  induction cases generalizing report with
  | nil => rfl
  | cons c cases ih =>
    rw [RcheckReport.tally, List.foldl_cons, ← RcheckReport.tally, ih, List.map_cons, List.sum_cons,
      ← Nat.add_assoc]
    have hadd : (report.add c).concessionHistogram[bit] =
        report.concessionHistogram[bit] + c.concessions[bit] := by
      unfold RcheckReport.add AuditCase.concessions
      cases c.pipeline with
      | ok pres => simp
      | error e => simp
    rw [hadd]

theorem sum_countP_klass (cases : List AuditCase) :
    (RcheckClass.all.map fun klass => cases.countP fun c => c.klass = klass).sum =
      cases.length := by
  induction cases with
  | nil => rfl
  | cons c cases ih =>
    have hone : ∀ d : RcheckClass,
        (RcheckClass.all.map fun klass => if d = klass then 1 else 0).sum = 1 := by
      intro d
      cases d <;> rfl
    have hsum := congrArg₂ (· + ·) ih (hone c.klass)
    simp only [← List.sum_map_add] at hsum
    simpa only [List.countP_cons, List.length_cons, decide_eq_true_eq] using hsum

theorem countP_isHardFail (cases : List AuditCase) : (cases.countP fun c => c.klass.isHardFail) =
    (cases.countP fun c => c.klass = .hardFailBWin) +
      cases.countP fun c => c.klass = .hardFailPessimalLoss := by
  induction cases with
  | nil => rfl
  | cons c cases ih =>
    simp only [List.countP_cons, ih]
    cases c.klass <;> simp [RcheckClass.isHardFail] <;> omega

def Referees.Ran (R : Referees σ) (c : AuditCase) : Prop :=
  ∃ s ex, R.exact s = .ok ex ∧ c = ⟨R.pipeline s, ex⟩

theorem ran_of_collect {r : List AuditCase × γ}
    (h : Sharding.collect (auditNext R next) left g = .ok r) : ∀ c ∈ r.1, R.Ran c := by
  induction left generalizing g r with
  | zero =>
    cases h
    exact fun c hc => absurd hc List.not_mem_nil
  | succ left ih =>
    obtain ⟨⟨c, g₁⟩, hfirst, h⟩ := bind_eq_ok.1 h
    obtain ⟨rest, hrest, h⟩ := bind_eq_ok.1 h
    cases h
    obtain ⟨s, -, haudit⟩ := auditNext_eq_ok.1 hfirst
    intro c' hc'
    obtain rfl | hc' := List.mem_cons.1 hc'
    · exact ⟨s, audit_eq_ok.1 haudit⟩
    · exact ih hrest c' hc'

def RcheckConfig.total (cfg : RcheckConfig σ) : Nat :=
  if cfg.injected = [] then cfg.n.toNat else cfg.injected.length

theorem rcheckLoop_eq_ok (h : (rcheckLoop cfg R next left i g report).result = .ok report') :
    ∃ cases : List AuditCase, cases.length = left ∧ (∀ c ∈ cases, R.Ran c) ∧
      report' = report.tally cases ∧ (rcheckLoop cfg R next left i g report).lines =
        (recordsFrom cfg R i cases).map .record ++ [.summary (shardSummary cfg report')] := by
  cases hcollect : Sharding.collect (auditNext R next) left g with
  | error fault =>
    rw [(rcheckLoop_of_error hcollect).1] at h
    cases h
  | ok r =>
    rw [rcheckLoop_of_collect hcollect] at h ⊢
    cases h
    exact ⟨r.1, Sharding.length_of_collect hcollect, ran_of_collect hcollect, rfl, rfl⟩

/-- A run that ends has audited every matchup: one record each, and the report tallies them. -/
theorem rcheckRun_eq_ok {generator : Except RcheckFault (Source σ γ)}
    (h : (rcheckRun cfg R generator).result = .ok report) :
    ∃ cases : List AuditCase, cases.length = cfg.total ∧ (∀ c ∈ cases, R.Ran c) ∧
      report = RcheckReport.tally {} cases ∧ (rcheckRun cfg R generator).lines =
        (recordsFrom cfg R 0 cases).map .record ++ [.summary (shardSummary cfg report)] := by
  unfold rcheckRun at h ⊢
  unfold RcheckConfig.total
  split at h
  · cases h
  rename_i hexclusive
  rw [if_neg hexclusive]
  split at h
  · rename_i hinjected
    rw [if_pos hinjected, if_neg hinjected]
    exact rcheckLoop_eq_ok h
  · rename_i hinjected
    rw [if_neg hinjected, if_pos (not_not.1 hinjected)]
    cases generator with
    | error fault => cases h
    | ok source => exact rcheckLoop_eq_ok h

/-- Both referees speak the truth about who wins, where they speak. -/
structure Referees.Sound (R : Referees σ) (wins : σ → Prop) : Prop where
  win : ∀ {s pres}, R.pipeline s = .ok pres → pres.verdict = .win → wins s
  loss : ∀ {s pres}, R.pipeline s = .ok pres → pres.verdict = .loss → ¬wins s
  exact_win : ∀ {s ex}, R.exact s = .ok ex → ex.verdict = .win → wins s
  exact_loss : ∀ {s ex}, R.exact s = .ok ex → ex.verdict = .loss → ¬wins s

theorem isHardFail_iff (po : PipelineOutcome) (exact : BVerdict) :
    (classifyRcheck po exact).isHardFail = true ↔ po.thrown = false ∧
      (po.verdict = .win ∧ exact = .loss ∨ po.verdict = .loss ∧ exact = .win) := by
  obtain ⟨verdict, thrown, mask⟩ := po
  cases thrown with
  | true => simp [classifyRcheck, RcheckClass.isHardFail]
  | false =>
    by_cases hmask : mask = 0 <;> cases verdict <;> cases exact <;>
      simp [classifyRcheck, RcheckClass.isHardFail, hmask]

theorem Referees.Sound.not_isHardFail {wins : σ → Prop} (hR : R.Sound wins) {c : AuditCase}
    (hc : R.Ran c) : c.klass.isHardFail = false := by
  obtain ⟨s, ex, hexact, rfl⟩ := hc
  refine Bool.eq_false_iff.2 fun hfail => ?_
  obtain ⟨hthrown, hverdicts⟩ := (isHardFail_iff _ _).1 hfail
  cases hpipeline : R.pipeline s with
  | error e =>
    rw [AuditCase.outcome, hpipeline] at hthrown
    cases hthrown
  | ok pres =>
    rw [AuditCase.outcome, hpipeline] at hverdicts
    cases hverdicts with
    | inl h => exact hR.exact_loss hexact h.2 (hR.win hpipeline h.1)
    | inr h => exact hR.loss hpipeline h.1 (hR.exact_win hexact h.2)

theorem rcheckRun_hardFails {wins : σ → Prop} (hR : R.Sound wins)
    {generator : Except RcheckFault (Source σ γ)}
    (h : (rcheckRun cfg R generator).result = .ok report) : report.hardFails = 0 := by
  obtain ⟨cases, -, hran, rfl, -⟩ := rcheckRun_eq_ok h
  rw [tally_hardFails, Nat.zero_add, List.countP_eq_zero]
  intro c hc
  rw [hR.not_isHardFail (hran c hc)]
  exact Bool.false_ne_true

end Run

section Matchups

variable {Ctx : Type}

/-- The pipeline and the exact search, with the budgets of the run. -/
def pipelineReferees {σ : Type} (cfg : RcheckConfig σ) (input : σ → PipelineInput Ctx)
    (clock : Nat → Clock) : Referees σ where
  pipeline s := liftFault ((input s).pipeline {} cfg.pipelineConfig 0)
  exact s := .ok (bsolverCertify (input s).exact {} cfg.exactConfig (input s).start).1
  clock := clock

variable [DecidableEq Ctx] {ppCanon : Bool}

def matchupReferees (cfg : RcheckConfig (Matchup Ctx {} ppCanon)) (clock : Nat → Clock) :
    Referees (Matchup Ctx {} ppCanon) :=
  pipelineReferees cfg Matchup.toPipelineInput clock

variable {γ : Type} {cfg : RcheckConfig (Matchup Ctx {} ppCanon)}

def duelConfig : RcheckConfig (Matchup Unit {} false) := { injected := [duel, duel] }

def noGenerator {σ : Type} : Except RcheckFault (Source σ Unit) :=
  .error (.invalidArgument "no generator")

end Matchups

def parseKlass (k : String) : Except RcheckFault GenClass :=
  if k = "uniform" then .ok .uniform
  else if k = "berry" then .ok .berryHolders
  else if k = "sash" then .ok .sashSturdy
  else .error (.invalidArgument ("rcheck: unknown klass '" ++ k ++ "' (use uniform/berry/sash)"))

end NuzlockeSolver.Audit
