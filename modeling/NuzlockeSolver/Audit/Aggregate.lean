import Mathlib.Algebra.BigOperators.Fin
import NuzlockeSolver.Audit.Rcheck

/-!
# Merging the shards

The aggregator reads the output files of the shards, checks each against its own summary and counts
everything again from the records. It accepts exactly the files that a complete run could have
written, and its counts do not depend on how the matchups were shared out.
-/

namespace NuzlockeSolver.Audit

def classes : List String :=
  ["THROWN", "REFEREE_INDET", "SOUND_AGREE_WIN", "SOUND_AGREE_LOSS", "HARD_FAIL_B_WIN",
    "HARD_FAIL_PESSIMAL_LOSS", "SOUND_UNKNOWN_ON_LOSS", "CONSERVATIVE_TAGGED",
    "CONSERVATIVE_UNTAGGED"]

def hardFailClasses : List String := ["HARD_FAIL_B_WIN", "HARD_FAIL_PESSIMAL_LOSS"]

def cacheFields : List String :=
  ["edge_hits", "edge_misses", "memo_hits", "memo_stores", "memo_suppressed",
    "memo_containment_missed"]

def ppCanonFields : List String :=
  ["canonical_repeats", "pp_horizon_used", "audit_expands", "pp_audit_rejects"]

def telemetryFields : List String :=
  ["buckets_visited", "expand_calls", "replays", "oracle_leaves", "max_depth"]

theorem classes_eq : classes = RcheckClass.all.map RcheckClass.name := rfl

inductive FileLine
  | blank
  | invalid (what : String)
  | line (l : AuditLine)
deriving DecidableEq

structure ScanState where
  records : List AuditRecord := []
  summary : Option ShardSummary := none
deriving DecidableEq

def scanLine (path : String) (lineno : Nat) (st : ScanState) : FileLine → Except String ScanState
  | .blank => .ok st
  | .invalid what =>
    .error (path ++ ":" ++ toString lineno ++ ": invalid JSON: " ++ what)
  | .line (.summary s) =>
    if st.summary.isSome then .error (path ++ ": multiple summary lines")
    else .ok { st with summary := some s }
  | .line (.record r) =>
    if st.summary.isSome then
      .error (path ++ ":" ++ toString lineno ++
        ": record after summary line (truncated/corrupt)")
    else .ok { st with records := st.records ++ [r] }

def scanLines (path : String) : Nat → ScanState → List FileLine → Except String ScanState
  | _, st, [] => .ok st
  | lineno, st, l :: ls => do
    let st ← scanLine path lineno st l
    scanLines path (lineno + 1) st ls

def recomputeBins (path : String) : List AuditRecord → List (String × Nat) →
    Except String (List (String × Nat))
  | [], bins => .ok bins
  | r :: records, bins =>
    if r.classification ∈ classes then recomputeBins path records (bump r.classification 1 bins)
    else .error (path ++ ": unknown classification '" ++ r.classification ++ "'")

def checkBins (path : String) (embedded recomputed : List (String × Nat)) : Except String Unit :=
  match classes.find? fun c => countOf embedded c ≠ countOf recomputed c with
  | none => .ok ()
  | some c =>
    .error (path ++ ": bin '" ++ c ++ "' embedded " ++ toString (countOf embedded c) ++
      " != recomputed " ++ toString (countOf recomputed c) ++ " (corrupt)")

def pythonOptional : Option Nat → String
  | none => "None"
  | some n => toString n

def parseShardFile (path : String) (lines : List FileLine) :
    Except String (List AuditRecord × ShardSummary) := do
  let st ← scanLines path 1 {} lines
  match st.summary with
  | none => .error (path ++ ": missing summary line (shard incomplete)")
  | some summary =>
    if st.records.length ≠ summary.n then
      .error (path ++ ": record count " ++ toString st.records.length ++ " != summary n " ++
        toString summary.n)
    else do
      let recomputed ← recomputeBins path st.records (classes.map (·, 0))
      checkBins path summary.bins recomputed
      let hard := (hardFailClasses.map (countOf recomputed)).sum
      if hard ≠ summary.hardFails.getD 0 then
        .error (path ++ ": hard_fails embedded " ++ pythonOptional summary.hardFails ++
          " != recomputed " ++ toString hard)
      else .ok (st.records, summary)

def linesOf : List FileLine → Option (List AuditLine)
  | [] => some []
  | .blank :: ls => linesOf ls
  | .invalid _ :: _ => none
  | .line l :: ls => (linesOf ls).map (l :: ·)

theorem linesOf_map (lines : List AuditLine) : linesOf (lines.map .line) = some lines := by
  induction lines with
  | nil => rfl
  | cons l lines ih => rw [List.map_cons, linesOf, ih, Option.map_some]

section Parse

variable {path : String} {lineno : Nat} {records records' : List AuditRecord} {s s' : ShardSummary}
  {lines : List FileLine} {st : ScanState}

theorem scanLines_done : scanLines path lineno ⟨records, some s⟩ lines = .ok st ↔
    linesOf lines = some [] ∧ st = ⟨records, some s⟩ := by
  induction lines generalizing lineno with
  | nil => simp [scanLines, linesOf, eq_comm]
  | cons l lines ih =>
    cases l with
    | blank => simp only [scanLines, scanLine, ok_bind, linesOf, ih]
    | invalid what => simp [scanLines, scanLine, linesOf, bind, Except.bind]
    | line l =>
      cases l <;> cases hlines : linesOf lines <;>
        simp [scanLines, scanLine, linesOf, hlines, bind, Except.bind]

theorem scanLines_eq_ok : scanLines path lineno ⟨records, none⟩ lines = .ok ⟨records', some s⟩ ↔
    ∃ rs, linesOf lines = some (rs.map .record ++ [.summary s]) ∧ records' = records ++ rs := by
  induction lines generalizing lineno records with
  | nil => simp [scanLines, linesOf]
  | cons l lines ih =>
    cases l with
    | blank => simp only [scanLines, scanLine, ok_bind, linesOf, ih]
    | invalid what => simp [scanLines, scanLine, linesOf, bind, Except.bind]
    | line l =>
      cases l with
      | summary s₁ =>
        simp only [scanLines, scanLine, Option.isSome_none, Bool.false_eq_true, if_false, ok_bind,
          linesOf, scanLines_done]
        constructor
        · intro ⟨hlines, hst⟩
          cases hst
          exact ⟨[], by rw [hlines]; rfl, (List.append_nil _).symm⟩
        · intro ⟨rs, hlines, hrecords⟩
          obtain ⟨ls, hls, hcons⟩ := Option.map_eq_some_iff.1 hlines
          cases rs with
          | nil =>
            cases hcons
            rw [hrecords, List.append_nil]
            exact ⟨hls, rfl⟩
          | cons r rs => cases hcons
      | record r =>
        simp only [scanLines, scanLine, Option.isSome_none, Bool.false_eq_true, if_false, ok_bind,
          linesOf, ih]
        constructor
        · intro ⟨rs, hlines, hrecords⟩
          refine ⟨r :: rs, by rw [hlines]; rfl, ?_⟩
          rw [hrecords, List.append_assoc, List.singleton_append]
        · intro ⟨rs, hlines, hrecords⟩
          obtain ⟨ls, hls, hcons⟩ := Option.map_eq_some_iff.1 hlines
          cases rs with
          | nil => cases hcons
          | cons r' rs =>
            cases hcons
            refine ⟨rs, hls, ?_⟩
            rw [hrecords, List.append_assoc, List.singleton_append]

structure WellFormedShard (records : List AuditRecord) (s : ShardSummary) : Prop where
  n : records.length = s.n
  known : ∀ r ∈ records, r.classification ∈ classes
  bins : ∀ c ∈ classes, countOf s.bins c = records.countP fun r => r.classification = c
  hardFails : (records.countP fun r => r.classification ∈ hardFailClasses) = s.hardFails.getD 0

theorem recomputeBins_eq_ok {bins bins' : List (String × Nat)} :
    recomputeBins path records bins = .ok bins' ↔ (∀ r ∈ records, r.classification ∈ classes) ∧
      bins' = countAll (records.map fun r => (r.classification, 1)) bins := by
  induction records generalizing bins with
  | nil => simp [recomputeBins, countAll, eq_comm]
  | cons r records ih =>
    rw [recomputeBins]
    split
    · rename_i hknown
      rw [ih, List.forall_mem_cons]
      simp only [hknown, true_and]
      rfl
    · rename_i hunknown
      simp [hunknown]

theorem countOf_zeros (c : String) : countOf (classes.map (·, 0)) c = 0 := by
  induction classes with
  | nil => rfl
  | cons c' cs ih =>
    rw [List.map_cons, countOf_cons, ih, ite_self]

theorem countOf_recomputed (records : List AuditRecord) (c : String) :
    countOf (countAll (records.map fun r => (r.classification, 1)) (classes.map (·, 0))) c =
      records.countP fun r => r.classification = c := by
  rw [countOf_countAll, countOf_zeros, Nat.zero_add, List.map_map, ← sum_map_indicator]
  simp only [Function.comp_def, decide_eq_true_eq]

theorem checkBins_eq_ok {embedded recomputed : List (String × Nat)} :
    checkBins path embedded recomputed = .ok () ↔
      ∀ c ∈ classes, countOf embedded c = countOf recomputed c := by
  unfold checkBins
  split
  · rename_i hnone
    rw [List.find?_eq_none] at hnone
    simpa using hnone
  · rename_i c hsome
    have hmem := List.mem_of_find?_eq_some hsome
    have hne := List.find?_some hsome
    simp only [ne_eq, decide_eq_true_eq] at hne
    simp only [reduceCtorEq, false_iff]
    exact fun hall => hne (hall c hmem)

theorem sum_hardFailClasses (records : List AuditRecord) :
    (hardFailClasses.map fun c => records.countP fun r => r.classification = c).sum =
      records.countP fun r => r.classification ∈ hardFailClasses := by
  induction records with
  | nil => rfl
  | cons r records ih =>
    have hone : (hardFailClasses.map fun c => if r.classification = c then 1 else 0).sum =
        if r.classification ∈ hardFailClasses then 1 else 0 := by
      by_cases hwin : r.classification = "HARD_FAIL_B_WIN"
      · rw [hwin]
        decide
      · simp [hardFailClasses, hwin]
    simp only [List.countP_cons, List.sum_map_add, ih, decide_eq_true_eq, hone]

theorem parseShardFile_eq_ok : parseShardFile path lines = .ok (records, s) ↔
    linesOf lines = some (records.map .record ++ [.summary s]) ∧ WellFormedShard records s := by
  have hhard (records : List AuditRecord) : (hardFailClasses.map (countOf
      (countAll (records.map fun r => (r.classification, 1)) (classes.map (·, 0))))).sum =
        records.countP fun r => r.classification ∈ hardFailClasses := by
    rw [← sum_hardFailClasses]
    exact congrArg List.sum (List.map_congr_left fun c _ => countOf_recomputed records c)
  unfold parseShardFile
  constructor
  · intro h
    obtain ⟨⟨rs, summary⟩, hscan, h⟩ := bind_eq_ok.1 h
    cases summary with
    | none => cases h
    | some s₁ =>
      dsimp only at h
      split at h
      · cases h
      rename_i hn
      obtain ⟨recomputed, hrecomputed, h⟩ := bind_eq_ok.1 h
      obtain ⟨⟨⟩, hbins, h⟩ := bind_eq_ok.1 h
      obtain ⟨hknown, rfl⟩ := recomputeBins_eq_ok.1 hrecomputed
      split at h
      · cases h
      rename_i hfails
      cases h
      obtain ⟨rs, hlines, rfl⟩ := scanLines_eq_ok.1 hscan
      refine ⟨hlines, not_not.1 hn, hknown, fun c hc => ?_, ?_⟩
      · rw [checkBins_eq_ok.1 hbins c hc, countOf_recomputed]
      · rw [← hhard]
        exact not_not.1 hfails
  · intro h
    obtain ⟨hlines, hshard⟩ := h
    refine bind_eq_ok.2 ⟨⟨records, some s⟩, scanLines_eq_ok.2 ⟨records, hlines, rfl⟩, ?_⟩
    dsimp only
    rw [if_neg (not_not.2 hshard.n)]
    refine bind_eq_ok.2 ⟨_, recomputeBins_eq_ok.2 ⟨hshard.known, rfl⟩, bind_eq_ok.2 ⟨(), ?_, ?_⟩⟩
    · refine checkBins_eq_ok.2 fun c hc => ?_
      rw [hshard.bins c hc, countOf_recomputed]
    · rw [hhard, if_neg (not_not.2 hshard.hardFails)]

end Parse

structure AggregateReport where
  shards : Nat := 0
  n : Nat := 0
  hardFails : Nat := 0
  bins : List (String × Nat) := classes.map (·, 0)
  perClassBins : List ((String × String) × Nat) := []
  perSeedBins : List ((Nat × String) × Nat) := []
  throwCensus : List (String × Nat) := []
  concessionHistogram : List (String × Nat) := []
  untaggedByReason : List (String × Nat) := []
  telemetry : List (String × Int) := []
  cache : List (String × Int) := []
  ppCanon : List (String × Int) := []

def fieldSeries (fields : List String) (telemetry : List (String × Int)) : List (String × Int) :=
  fields.filterMap fun key => (telemetry.lookup key).map fun value => (key, value)

def PipelineJson.bRan : PipelineJson → Bool
  | .thrown _ _ => false
  | .ran _ _ _ bRan _ _ _ => bRan

def missingField (r : AuditRecord) : Option String :=
  if r.pipeline.bRan then
    (cacheFields ++ ppCanonFields).find? fun key => (r.telemetry.lookup key).isNone
  else none

namespace AggregateReport

def add (report : AggregateReport) (r : AuditRecord) : AggregateReport where
  shards := report.shards
  n := report.n + 1
  hardFails := if r.classification ∈ hardFailClasses then report.hardFails + 1 else report.hardFails
  bins := bump r.classification 1 report.bins
  perClassBins := bump (r.klass, r.classification) 1 report.perClassBins
  perSeedBins := bump (r.seed, r.classification) 1 report.perSeedBins
  throwCensus :=
    match r.pipeline with
    | .thrown key _ => bump key 1 report.throwCensus
    | .ran .. => report.throwCensus
  concessionHistogram :=
    match r.pipeline with
    | .thrown _ _ => report.concessionHistogram
    | .ran _ _ _ _ _ _ concessions => countAll concessions report.concessionHistogram
  untaggedByReason :=
    match r.pipeline with
    | .thrown _ _ => report.untaggedByReason
    | .ran _ _ _ _ _ bReason _ =>
      if r.classification = "CONSERVATIVE_UNTAGGED" then bump bReason 1 report.untaggedByReason
      else report.untaggedByReason
  telemetry := report.telemetry ++ fieldSeries telemetryFields r.telemetry
  cache :=
    if r.pipeline.bRan then report.cache ++ fieldSeries cacheFields r.telemetry else report.cache
  ppCanon :=
    if r.pipeline.bRan then report.ppCanon ++ fieldSeries ppCanonFields r.telemetry
    else report.ppCanon

def addRecord (path : String) (report : AggregateReport) (r : AuditRecord) :
    Except String AggregateReport :=
  match missingField r with
  | none => .ok (report.add r)
  | some key =>
    .error (path ++ ": B-ran record index " ++ toString r.index ++ " missing telemetry field '" ++
      key ++ "' (stale shard?)")

def addRecords (path : String) : AggregateReport → List AuditRecord → Except String AggregateReport
  | report, [] => .ok report
  | report, r :: records => do
    let report ← report.addRecord path r
    addRecords path report records

def addFiles : AggregateReport → List (String × List FileLine) → Except String AggregateReport
  | report, [] => .ok report
  | report, file :: files => do
    let parsed ← parseShardFile file.1 file.2
    let report ← addRecords file.1 report parsed.1
    addFiles report files

end AggregateReport

def expectEq (expected : Option Int) (actual : Nat) (what : String) : Except String Unit :=
  match expected with
  | none => .ok ()
  | some n => if (actual : Int) ≠ n then .error what else .ok ()

def aggregate (files : List (String × List FileLine)) (expectShards expectN : Option Int) :
    Except String AggregateReport := do
  expectEq expectShards files.length
    ("--expect-shards " ++ toString (expectShards.getD 0) ++ " but found " ++
      toString files.length ++ " shard files")
  let report ← AggregateReport.addFiles { shards := files.length } files
  expectEq expectN report.n
    ("--expect-n " ++ toString (expectN.getD 0) ++ " but aggregated " ++ toString report.n ++
      " matchups")
  .ok report

def aggregateMain (files : List (String × List FileLine)) (expectShards expectN : Option Int) :
    Nat :=
  if files = [] then 1
  else
    match aggregate files expectShards expectN with
    | .error _ => 1
    | .ok report => if 0 < report.hardFails then 1 else 0

namespace AggregateReport

variable {path : String} {report report' : AggregateReport} {records : List AuditRecord}
  {files : List (String × List FileLine)}

theorem addRecords_eq_ok : addRecords path report records = .ok report' ↔
    (∀ r ∈ records, missingField r = none) ∧ report' = records.foldl add report := by
  induction records generalizing report with
  | nil => simp [addRecords, eq_comm]
  | cons r records ih =>
    rw [addRecords, addRecord, List.forall_mem_cons, List.foldl_cons]
    cases missingField r with
    | none => simp only [ok_bind, ih, true_and]
    | some key => simp [bind, Except.bind]

theorem addFiles_eq_ok : addFiles report files = .ok report' ↔
    ∃ parsed, List.Forall₂ (fun file p => parseShardFile file.1 file.2 = .ok p) files parsed ∧
      (∀ r ∈ parsed.flatMap (·.1), missingField r = none) ∧
        report' = (parsed.flatMap (·.1)).foldl add report := by
  induction files generalizing report with
  | nil =>
    constructor
    · intro h
      cases h
      exact ⟨[], .nil, fun r hr => absurd hr List.not_mem_nil, rfl⟩
    · intro ⟨parsed, hparsed, _, hreport⟩
      cases hparsed
      rw [hreport]
      rfl
  | cons file files ih =>
    constructor
    · intro h
      obtain ⟨p, hp, h⟩ := bind_eq_ok.1 h
      obtain ⟨report₁, hrecords, h⟩ := bind_eq_ok.1 h
      obtain ⟨hfields, rfl⟩ := addRecords_eq_ok.1 hrecords
      obtain ⟨parsed, hparsed, hrest, rfl⟩ := ih.1 h
      refine ⟨p :: parsed, .cons hp hparsed, ?_, ?_⟩
      · rw [List.flatMap_cons]
        exact List.forall_mem_append.2 ⟨hfields, hrest⟩
      · rw [List.flatMap_cons, List.foldl_append]
    · intro ⟨parsed, hparsed, hfields, hreport⟩
      cases hparsed with
      | cons hp hparsed =>
        rw [List.flatMap_cons] at hfields hreport
        obtain ⟨hfirst, hrest⟩ := List.forall_mem_append.1 hfields
        rw [List.foldl_append] at hreport
        refine bind_eq_ok.2 ⟨_, hp, bind_eq_ok.2 ⟨_, addRecords_eq_ok.2 ⟨hfirst, rfl⟩, ?_⟩⟩
        exact ih.2 ⟨_, hparsed, hrest, hreport⟩

end AggregateReport

structure ShardRun (σ : Type) where
  path : String
  cfg : RcheckConfig σ
  referees : Referees σ
  cases : List AuditCase

namespace ShardRun

variable {σ : Type} (run : ShardRun σ)

def records : List AuditRecord := recordsFrom run.cfg run.referees 0 run.cases

def report : RcheckReport := RcheckReport.tally {} run.cases

def lines : List AuditLine :=
  run.records.map .record ++ [.summary (shardSummary run.cfg run.report)]

def file : String × List FileLine := (run.path, run.lines.map .line)

end ShardRun

section Records

variable {σ : Type} {cfg : RcheckConfig σ} {R : Referees σ} {i : Nat} {cases : List AuditCase}

theorem recordsFrom_cons (c : AuditCase) :
    recordsFrom cfg R i (c :: cases) =
      auditRecord cfg R i c :: recordsFrom cfg R (i + 1) cases := by
  rw [recordsFrom, List.zipIdx_cons, List.map_cons]
  rfl

theorem length_recordsFrom : (recordsFrom cfg R i cases).length = cases.length := by
  rw [recordsFrom, List.length_map, List.length_zipIdx]

theorem mem_recordsFrom {r : AuditRecord} (h : r ∈ recordsFrom cfg R i cases) :
    ∃ j c, r = auditRecord cfg R j c := by
  obtain ⟨p, -, rfl⟩ := List.mem_map.1 h
  exact ⟨p.2, p.1, rfl⟩

theorem countP_recordsFrom {p : AuditRecord → Bool} {q : AuditCase → Bool}
    (h : ∀ i c, p (auditRecord cfg R i c) = q c) :
    (recordsFrom cfg R i cases).countP p = cases.countP q := by
  induction cases generalizing i with
  | nil => rfl
  | cons c cases ih => rw [recordsFrom_cons, List.countP_cons, List.countP_cons, ih, h]

theorem mem_classes (c : RcheckClass) : c.name ∈ classes := List.mem_map_of_mem c.mem_all

theorem name_mem_hardFailClasses (c : RcheckClass) :
    c.name ∈ hardFailClasses ↔ c.isHardFail = true := by
  cases c <;> decide

theorem countOf_bins (bins : RcheckClass → Nat) (c : RcheckClass) :
    countOf (RcheckClass.all.map fun d => (d.name, bins d)) c.name = bins c := by
  cases c <;> rfl

theorem missingField_auditRecord (c : AuditCase) : missingField (auditRecord cfg R i c) = none := by
  unfold missingField auditRecord AuditCase.pipelineJson AuditCase.telemetry
  cases c.pipeline with
  | error e => rfl
  | ok pres =>
    dsimp only
    split
    · rfl
    · rfl

end Records

theorem ShardRun.wellFormed {σ : Type} (run : ShardRun σ) :
    WellFormedShard run.records (shardSummary run.cfg run.report) where
  n := by
    rw [ShardRun.records, length_recordsFrom]
    exact (tally_n.trans (Nat.zero_add _)).symm
  known r hr := by
    obtain ⟨j, c, rfl⟩ := mem_recordsFrom hr
    exact mem_classes c.klass
  bins c hc := by
    obtain ⟨klass, -, rfl⟩ := List.mem_map.1 (classes_eq ▸ hc)
    have hklass (i : Nat) (c : AuditCase) :
        decide ((auditRecord run.cfg run.referees i c).classification = klass.name) =
          decide (c.klass = klass) :=
      decide_eq_decide.2 ⟨RcheckClass.name_injective, congrArg RcheckClass.name⟩
    rw [ShardRun.records, countP_recordsFrom hklass]
    exact (countOf_bins _ _).trans ((tally_bins klass).trans (Nat.zero_add _))
  hardFails := by
    have hfail (i : Nat) (c : AuditCase) :
        decide ((auditRecord run.cfg run.referees i c).classification ∈ hardFailClasses) =
          c.klass.isHardFail := by
      rw [Bool.eq_iff_iff, decide_eq_true_eq]
      exact name_mem_hardFailClasses c.klass
    rw [ShardRun.records, countP_recordsFrom hfail]
    exact (tally_hardFails.trans (Nat.zero_add _)).symm

theorem ShardRun.parse {σ : Type} (run : ShardRun σ) : parseShardFile run.file.1 run.file.2 =
    .ok (run.records, shardSummary run.cfg run.report) :=
  parseShardFile_eq_ok.2 ⟨linesOf_map _, run.wellFormed⟩

structure CountsCases (report : AggregateReport) (cases : List AuditCase) : Prop where
  n : report.n = cases.length
  hardFails : report.hardFails = cases.countP fun c => c.klass.isHardFail
  bins : ∀ klass : RcheckClass,
    countOf report.bins klass.name = cases.countP fun c => c.klass = klass
  throwCensus : ∀ key, countOf report.throwCensus key = cases.countP fun c => c.throwKey = some key
  concessions : ∀ bit : Fin 32, countOf report.concessionHistogram (concessionName bit) =
    (cases.map fun c => c.concessions[bit]).sum

theorem concessionName_injective : ∀ b b' : Fin 32,
    concessionName b = concessionName b' → b = b' := by
  decide +kernel

theorem sum_named (count : Fin 32 → Nat) (bit : Fin 32) (l : List (Fin 32)) :
    ((l.filterMap fun b => if count b = 0 then none else some (concessionName b, count b)).map
      fun e => if e.1 = concessionName bit then e.2 else 0).sum =
      (l.map fun b => if b = bit then count b else 0).sum := by
  induction l with
  | nil => rfl
  | cons b l ih =>
    have hname : concessionName b = concessionName bit ↔ b = bit :=
      ⟨concessionName_injective b bit, fun h => h ▸ rfl⟩
    by_cases hzero : count b = 0
    · simp only [List.filterMap_cons, hzero, if_true, ih, List.map_cons, List.sum_cons,
        ite_self, Nat.zero_add]
    · simp only [List.filterMap_cons, if_neg hzero, List.map_cons, List.sum_cons, ih, hname]

theorem sum_concessionsJson (hist : Histogram) (bit : Fin 32) :
    ((concessionsJson hist).map fun e => if e.1 = concessionName bit then e.2 else 0).sum =
      hist.get bit := by
  refine (sum_named hist.get bit (List.finRange 32)).trans ?_
  rw [← Fin.sum_univ_def, Finset.sum_ite_eq' Finset.univ bit, if_pos (Finset.mem_univ bit)]

section Counts

variable {σ : Type} {report : AggregateReport}

theorem foldl_add_runs (runs : List (ShardRun σ)) {π : AggregateReport → Nat} {w : AuditCase → Nat}
    (h : ∀ (report : AggregateReport) (cfg : RcheckConfig σ) (R : Referees σ) i c,
      π (report.add (auditRecord cfg R i c)) = π report + w c) :
    π ((runs.flatMap ShardRun.records).foldl .add report) =
      π report + ((runs.flatMap ShardRun.cases).map w).sum := by
  have hrecords {cfg : RcheckConfig σ} {R : Referees σ} {i : Nat} {cases : List AuditCase}
      {report : AggregateReport} : π ((recordsFrom cfg R i cases).foldl .add report) =
        π report + (cases.map w).sum := by
    induction cases generalizing i report with
    | nil => rfl
    | cons c cases ih =>
      rw [recordsFrom_cons, List.foldl_cons, ih, h, List.map_cons, List.sum_cons, Nat.add_assoc]
  induction runs generalizing report with
  | nil => rfl
  | cons run runs ih =>
    rw [List.flatMap_cons, List.foldl_append, ih, ShardRun.records, hrecords, List.flatMap_cons,
      List.map_append, List.sum_append, Nat.add_assoc]

theorem countsCases_foldl (runs : List (ShardRun σ)) (shards : Nat) : CountsCases
    ((runs.flatMap ShardRun.records).foldl .add { shards := shards })
      (runs.flatMap ShardRun.cases) where
  n := by
    refine (foldl_add_runs runs (π := AggregateReport.n) (w := fun _ => 1)
      fun _ _ _ _ _ => rfl).trans ?_
    simp
  hardFails := by
    refine (foldl_add_runs runs (π := AggregateReport.hardFails)
      (w := fun c => if c.klass.isHardFail then 1 else 0) fun report cfg R i c => ?_).trans ?_
    · simp only [AggregateReport.add, auditRecord, name_mem_hardFailClasses]
      split <;> rfl
    · rw [sum_map_indicator, Nat.zero_add]
  bins klass := by
    refine (foldl_add_runs runs (π := fun report => countOf report.bins klass.name)
      (w := fun c => if c.klass = klass then 1 else 0) fun report cfg R i c => ?_).trans ?_
    · have hname : c.klass.name = klass.name ↔ c.klass = klass :=
        ⟨RcheckClass.name_injective, congrArg RcheckClass.name⟩
      simp only [AggregateReport.add, auditRecord, countOf_bump, hname]
    · rw [countOf_zeros, Nat.zero_add, ← sum_map_indicator]
      simp only [decide_eq_true_eq]
  throwCensus key := by
    refine (foldl_add_runs runs (π := fun report => countOf report.throwCensus key)
      (w := fun c => if c.throwKey = some key then 1 else 0) fun report cfg R i c => ?_).trans ?_
    · cases hc : c.pipeline <;>
        simp [AggregateReport.add, auditRecord, AuditCase.pipelineJson, AuditCase.throwKey, hc,
          countOf_bump]
    · rw [countOf_nil, Nat.zero_add, ← sum_map_indicator]
      simp only [decide_eq_true_eq]
  concessions bit := by
    refine (foldl_add_runs runs
      (π := fun report => countOf report.concessionHistogram (concessionName bit))
      (w := fun c => c.concessions[bit]) fun report cfg R i c => ?_).trans ?_
    · cases hc : c.pipeline with
      | error e =>
        simp [AggregateReport.add, auditRecord, AuditCase.pipelineJson, AuditCase.concessions, hc]
      | ok pres =>
        simp only [AggregateReport.add, auditRecord, AuditCase.pipelineJson, AuditCase.concessions,
          hc, countOf_countAll, sum_concessionsJson]
        rfl
    · rw [countOf_nil, Nat.zero_add]

theorem foldl_add_shards (records : List AuditRecord) :
    (records.foldl .add report).shards = report.shards := by
  induction records generalizing report with
  | nil => rfl
  | cons r records ih => rw [List.foldl_cons, ih, AggregateReport.add]

/-- The files of complete runs are accepted together, and the counts are those of all the cases. -/
theorem aggregate_runs (runs : List (ShardRun σ)) : ∃ report,
    aggregate (runs.map ShardRun.file) (some runs.length)
      (some (runs.flatMap ShardRun.cases).length) = .ok report ∧
        report.shards = runs.length ∧ CountsCases report (runs.flatMap ShardRun.cases) := by
  have hfiles : AggregateReport.addFiles { shards := runs.length } (runs.map ShardRun.file) =
      .ok ((runs.flatMap ShardRun.records).foldl .add { shards := runs.length }) := by
    refine AggregateReport.addFiles_eq_ok.2
      ⟨runs.map fun run => (run.records, shardSummary run.cfg run.report), ?_, ?_, ?_⟩
    · rw [List.forall₂_map_left_iff, List.forall₂_map_right_iff]
      exact List.forall₂_same.2 fun run _ => run.parse
    · intro r hr
      rw [List.flatMap_map] at hr
      obtain ⟨run, -, hr⟩ := List.mem_flatMap.1 hr
      obtain ⟨j, c, rfl⟩ := mem_recordsFrom hr
      exact missingField_auditRecord c
    · rw [List.flatMap_map]
  have hcounts := countsCases_foldl runs runs.length
  refine ⟨_, ?_, foldl_add_shards _, hcounts⟩
  have hexpect (n : Nat) (what : String) : expectEq (some n) n what = .ok () := by
    simp [expectEq]
  unfold aggregate
  rw [List.length_map, hexpect, ok_bind, hfiles, ok_bind, hcounts.n, hexpect, ok_bind]

theorem CountsCases.perm {cases cases' : List AuditCase} (h : CountsCases report cases)
    (hperm : cases.Perm cases') : CountsCases report cases' where
  n := h.n.trans hperm.length_eq
  hardFails := h.hardFails.trans (hperm.countP_eq _)
  bins klass := (h.bins klass).trans (hperm.countP_eq _)
  throwCensus key := (h.throwCensus key).trans (hperm.countP_eq _)
  concessions bit := (h.concessions bit).trans (hperm.map _).sum_eq

end Counts

/-- The aggregator and the audit report the same counts. -/
structure SameCounts (report : AggregateReport) (audit : RcheckReport) : Prop where
  n : report.n = audit.n
  hardFails : report.hardFails = audit.hardFails
  bins : ∀ klass : RcheckClass, countOf report.bins klass.name = audit.bins klass
  throwCensus : ∀ key, countOf report.throwCensus key = countOf audit.throwCensus key
  concessions : ∀ bit : Fin 32, countOf report.concessionHistogram (concessionName bit) =
    audit.concessionHistogram[bit]

theorem CountsCases.sameCounts {report : AggregateReport} {cases : List AuditCase}
    (h : CountsCases report cases) : SameCounts report (RcheckReport.tally {} cases) where
  n := by rw [h.n, tally_n, Nat.zero_add]
  hardFails := by rw [h.hardFails, tally_hardFails, Nat.zero_add]
  bins klass := by rw [h.bins, tally_bins, Nat.zero_add]
  throwCensus key := by rw [h.throwCensus, tally_throwCensus, countOf_nil, Nat.zero_add]
  concessions bit := by
    rw [h.concessions, tally_concessions]
    simp

section Grid

variable {ρ : Type} (G : MatchupGen ρ) (cfg : RcheckConfig Engine.BattleState)
  (R : Referees Engine.BattleState) (s : ρ)

/-- One shard of the audit, with as many matchups, on a machine with a clock of its own. -/
def auditShard (clock : Nat → Clock) (shard : Shard) (n : Nat) : RcheckOutput :=
  rcheckRun { cfg with shardK := shard.k, shardOf := shard.of, n := n, injected := [] }
    { R with clock := clock } (.ok ⟨G.next shard, (0, s)⟩)

def shardRun (clock : Nat → Clock) (shard : Shard) (n : Nat) (path : String)
    (cases : List AuditCase) : ShardRun Engine.BattleState where
  path := path
  cfg := { cfg with shardK := shard.k, shardOf := shard.of, n := n, injected := [] }
  referees := { R with clock := clock }
  cases := cases

variable {G cfg R s} {clock : Nat → Clock} {shard : Shard} {n : Nat}

theorem auditShard_of_cases {cases : List AuditCase} {t : Nat × ρ}
    (h : Sharding.collect (auditNext R (G.next shard)) n (0, s) = .ok (cases, t)) (path : String) :
    auditShard G cfg R s clock shard n =
      ⟨(shardRun cfg R clock shard n path cases).lines, .ok (RcheckReport.tally {} cases)⟩ :=
  rcheckLoop_of_collect (R := { R with clock := clock }) h

theorem cases_of_auditShard {audit : RcheckReport}
    (h : (auditShard G cfg R s clock shard n).result = .ok audit) :
    ∃ r, Sharding.collect (auditNext R (G.next shard)) n (0, s) = .ok r ∧
      audit = RcheckReport.tally {} r.1 := by
  cases hcollect : Sharding.collect (auditNext R (G.next shard)) n (0, s) with
  | error fault =>
    have hcut : (auditShard G cfg R s clock shard n).result = .error fault :=
      (rcheckLoop_of_error (R := { R with clock := clock }) hcollect).1
    cases hcut.symm.trans h
  | ok r =>
    rw [auditShard_of_cases hcollect ""] at h
    exact ⟨r, rfl, (Except.ok.inj h).symm⟩

theorem collect_shard {of : Nat} (hof : 0 < of) {r : List AuditCase × (Nat × ρ)}
    (h : Sharding.collect (auditNext R (G.next ⟨0, 1, Nat.one_pos⟩)) ((n + 1) * of) (0, s) = .ok r)
    (hshard : shard.of = of) : ∃ t, Sharding.collect (auditNext R (G.next shard)) (n + 1) (0, s) =
      .ok (Sharding.strided of shard.k (n + 1) r.1, t) := by
  obtain ⟨states, hstates, haudits⟩ := collect_auditNext.1 h
  obtain ⟨m, hm⟩ : ∃ m, (n + 1) * of = m + 1 :=
    Nat.exists_eq_succ_of_ne_zero (Nat.mul_pos (Nat.succ_pos n) hof).ne'
  rw [hm, MatchupGen.collect_next] at hstates
  obtain ⟨all, hall, hstates⟩ := bind_eq_ok.1 hstates
  have hlength : all.1.length = m + 1 := by
    rw [Sharding.length_of_collect hall]
    dsimp only
    omega
  have hstates : all.1 = states :=
    (Sharding.strided_one hlength).symm.trans (congrArg Prod.fst (Except.ok.inj hstates))
  have htotal : 0 + 1 + m * 1 = (n + 1) * of := by omega
  dsimp only at hall
  rw [htotal] at hall
  obtain ⟨k, of, hk⟩ := shard
  cases hshard
  obtain ⟨t, ht⟩ := (G.next_partition.1 all hall).1 k hk
  exact ⟨t, collect_auditNext.2 ⟨_, ht, hstates ▸ Sharding.strided_forall₂ haudits of k (n + 1)⟩⟩

/-- The same counts come out of the shards of a corpus, in whatever order their files are read, as
out of the whole corpus in one run. -/
theorem aggregate_shards {of : Nat} (hof : 0 < of) {audit : RcheckReport}
    (h : (auditShard G cfg R s clock ⟨0, 1, Nat.one_pos⟩ ((n + 1) * of)).result = .ok audit)
    (clocks : Nat → Nat → Clock) (path : Nat → String) (order : List Shard)
    (horder : (order.map Shard.k).Perm (List.range of))
    (hmodulus : ∀ shard ∈ order, shard.of = of) :
    ∃ report, aggregate
      (order.map fun shard => (path shard.k,
        (auditShard G cfg R s (clocks shard.k) shard (n + 1)).lines.map .line))
      (some of) (some ((n + 1) * of : Nat)) = .ok report ∧ SameCounts report audit := by
  obtain ⟨r, hr, rfl⟩ := cases_of_auditShard h
  let runs := order.map fun shard => shardRun cfg R (clocks shard.k) shard (n + 1) (path shard.k)
    (Sharding.strided of shard.k (n + 1) r.1)
  have hfiles : (order.map fun shard => (path shard.k,
      (auditShard G cfg R s (clocks shard.k) shard (n + 1)).lines.map FileLine.line)) =
        runs.map ShardRun.file := by
    rw [List.map_map]
    refine List.map_congr_left fun shard hshard => ?_
    obtain ⟨t, ht⟩ := collect_shard hof hr (hmodulus shard hshard)
    rw [auditShard_of_cases ht (path shard.k)]
    rfl
  have hlength : runs.length = of := by
    have hlength := horder.length_eq
    rw [List.length_map, List.length_range] at hlength
    rw [List.length_map, hlength]
  have hcases : (runs.flatMap ShardRun.cases).Perm r.1 := by
    have hflat : runs.flatMap ShardRun.cases =
        (order.map Shard.k).flatMap fun k => Sharding.strided of k (n + 1) r.1 := by
      rw [List.flatMap_map, List.flatMap_map]
      rfl
    rw [hflat]
    exact (horder.flatMap_right _).trans
      (Sharding.flatMap_strided_perm (Sharding.length_of_collect hr))
  obtain ⟨report, hreport, -, hcounts⟩ := aggregate_runs runs
  rw [hlength, hcases.length_eq, Sharding.length_of_collect hr] at hreport
  rw [hfiles]
  exact ⟨report, hreport, (hcounts.perm hcases).sameCounts⟩

/-- Where the referees speak the truth, the aggregator passes the shards of a corpus. -/
theorem aggregateMain_shards {wins : Engine.BattleState → Prop} (hR : R.Sound wins) {of : Nat}
    (hof : 0 < of) {audit : RcheckReport}
    (h : (auditShard G cfg R s clock ⟨0, 1, Nat.one_pos⟩ ((n + 1) * of)).result = .ok audit)
    (clocks : Nat → Nat → Clock) (path : Nat → String) (order : List Shard)
    (horder : (order.map Shard.k).Perm (List.range of))
    (hmodulus : ∀ shard ∈ order, shard.of = of) :
    aggregateMain
      (order.map fun shard => (path shard.k,
        (auditShard G cfg R s (clocks shard.k) shard (n + 1)).lines.map .line))
      (some of) (some ((n + 1) * of : Nat)) = 0 := by
  obtain ⟨report, hreport, hsame⟩ := aggregate_shards hof h clocks path order horder hmodulus
  have hsound : ({ R with clock := clock } : Referees _).Sound wins :=
    ⟨hR.win, hR.loss, hR.exact_win, hR.exact_loss⟩
  have hnone : report.hardFails = 0 := hsame.hardFails.trans (rcheckRun_hardFails hsound h)
  have hfiles : (order.map fun shard => (path shard.k,
      (auditShard G cfg R s (clocks shard.k) shard (n + 1)).lines.map FileLine.line)) ≠ [] := by
    intro hnil
    have hlength := horder.length_eq
    rw [List.map_eq_nil_iff.1 hnil, List.map_nil, List.length_nil, List.length_range] at hlength
    omega
  unfold aggregateMain
  rw [if_neg hfiles, hreport]
  simp only [hnone, lt_irrefl, if_false]

end Grid

section Duo

def hpReferees : Referees Engine.BattleState where
  pipeline b := .ok { verdict := if b.side0.team.toList.all (·.hp < 100) then .loss else .win }
  exact b := .ok { verdict := if b.side0.team.toList.all (·.hp < 100) then .loss else .win }
  clock _ := {}

theorem hpReferees_sound :
    hpReferees.Sound fun b => b.side0.team.toList.all (·.hp < 100) = false where
  win {b _} h hverdict := by
    cases h
    by_contra hall
    rw [Bool.not_eq_false] at hall
    rw [if_pos hall] at hverdict
    cases hverdict
  loss {b _} h hverdict := by
    cases h
    intro hall
    rw [hall] at hverdict
    cases hverdict
  exact_win {b _} h hverdict := by
    cases h
    by_contra hall
    rw [Bool.not_eq_false] at hall
    rw [if_pos hall] at hverdict
    cases hverdict
  exact_loss {b _} h hverdict := by
    cases h
    intro hall
    rw [hall] at hverdict
    cases hverdict

def duoShards : List Shard := [⟨1, 2, Nat.one_lt_two⟩, ⟨0, 2, Nat.zero_lt_two⟩]

theorem duoAudit : (auditShard duoGen {} hpReferees 3 (fun _ => {}) ⟨0, 1, Nat.one_pos⟩
    ((1 + 1) * 2)).result.map (·.n) = .ok 4 := by
  decide +kernel

theorem duo_aggregate : ∃ audit report, audit.n = 4 ∧ SameCounts report audit ∧ aggregate
    (duoShards.map fun shard => (toString shard.k,
      (auditShard duoGen {} hpReferees 3 (fun _ => {}) shard 2).lines.map .line))
    (some 2) (some 4) = .ok report := by
  obtain ⟨audit, haudit, hn⟩ := map_eq_ok.1 duoAudit
  obtain ⟨report, hreport, hsame⟩ := aggregate_shards Nat.two_pos haudit (fun _ _ => {}) toString
    duoShards (by decide) (by decide)
  exact ⟨audit, report, hn, hsame, hreport⟩

theorem duo_aggregateMain : aggregateMain
    (duoShards.map fun shard => (toString shard.k,
      (auditShard duoGen {} hpReferees 3 (fun _ => {}) shard 2).lines.map .line))
    (some 2) (some 4) = 0 := by
  obtain ⟨audit, haudit, -⟩ := map_eq_ok.1 duoAudit
  exact aggregateMain_shards hpReferees_sound Nat.two_pos haudit (fun _ _ => {}) toString
    duoShards (by decide) (by decide)

end Duo

section Truncated

variable {σ γ : Type} {cfg : RcheckConfig σ} {R : Referees σ}
  {generator : Except RcheckFault (Source σ γ)} {path : String}

theorem mem_lines_of_error {fault : RcheckFault}
    (h : (rcheckRun cfg R generator).result = .error fault) :
    ∀ line ∈ (rcheckRun cfg R generator).lines, ∃ r, line = .record r := by
  have hloop {γ : Type} {next : γ → Except GenFault (σ × γ)} {left : Nat} {g : γ}
      (h : (rcheckLoop cfg R next left 0 g {}).result = .error fault) :
      ∀ line ∈ (rcheckLoop cfg R next left 0 g {}).lines, ∃ r, line = .record r := by
    cases hcollect : Sharding.collect (auditNext R next) left g with
    | error fault' => exact (rcheckLoop_of_error hcollect).2
    | ok r =>
      rw [rcheckLoop_of_collect hcollect] at h
      cases h
  unfold rcheckRun at h ⊢
  split
  · exact fun line hline => absurd hline List.not_mem_nil
  rename_i hexclusive
  rw [if_neg hexclusive] at h
  split
  · rename_i hinjected
    rw [if_pos hinjected] at h
    exact hloop h
  · rename_i hinjected
    rw [if_neg hinjected] at h
    cases generator with
    | error fault' => exact fun line hline => absurd hline List.not_mem_nil
    | ok source => exact hloop h

/-- Of what is left of an output file, the aggregator accepts only the whole of a complete run. -/
theorem accepted_iff_complete {lines : List AuditLine}
    (h : lines.Sublist (rcheckRun cfg R generator).lines) :
    (∃ p, parseShardFile path (lines.map .line) = .ok p) ↔
      (∃ report, (rcheckRun cfg R generator).result = .ok report) ∧
        lines = (rcheckRun cfg R generator).lines := by
  constructor
  · intro ⟨⟨records, s⟩, hparse⟩
    obtain ⟨hlines, hshard⟩ := parseShardFile_eq_ok.1 hparse
    rw [linesOf_map] at hlines
    obtain rfl := Option.some.inj hlines
    have hsummary :=
      h.subset (List.mem_append_right _ (List.mem_singleton_self (AuditLine.summary s)))
    cases hresult : (rcheckRun cfg R generator).result with
    | error fault =>
      obtain ⟨r, hr⟩ := mem_lines_of_error hresult _ hsummary
      cases hr
    | ok report =>
      refine ⟨⟨report, rfl⟩, ?_⟩
      obtain ⟨cases, -, -, rfl, hout⟩ := rcheckRun_eq_ok hresult
      rw [hout] at h hsummary ⊢
      have hs : s = shardSummary cfg (RcheckReport.tally {} cases) := by
        cases List.mem_append.1 hsummary with
        | inl hrecord =>
          obtain ⟨r, -, hr⟩ := List.mem_map.1 hrecord
          cases hr
        | inr hsummary => exact AuditLine.summary.inj (List.mem_singleton.1 hsummary)
      have hn : records.length = cases.length := by
        rw [hshard.n, hs]
        exact tally_n.trans (Nat.zero_add _)
      refine h.eq_of_length ?_
      simp only [List.length_append, List.length_map, List.length_singleton, hn, length_recordsFrom]
  · intro ⟨⟨report, hresult⟩, hlines⟩
    obtain ⟨cases, -, -, rfl, hout⟩ := rcheckRun_eq_ok hresult
    rw [hlines, hout]
    exact ⟨_, ShardRun.parse ⟨path, cfg, R, cases⟩⟩

end Truncated

def truncatedDuel : List AuditLine :=
  (rcheckRun duelConfig (matchupReferees duelConfig fun _ => {}) noGenerator).lines.take 2

theorem truncatedDuel_rejected :
    ¬∃ p, parseShardFile "duel.jsonl" (truncatedDuel.map .line) = .ok p := by
  intro haccepted
  have hlength : truncatedDuel.length ≠
      (rcheckRun duelConfig (matchupReferees duelConfig fun _ => {}) noGenerator).lines.length := by
    decide +kernel
  exact hlength (congrArg List.length
    ((accepted_iff_complete (List.take_sublist 2 _)).1 haccepted).2)

end NuzlockeSolver.Audit
