import NuzlockeSolver.Audit.Aggregate

/-!
# Comparing two audits

Two audits of the same matchups are joined record by record. Without canonicalized PP a decided
verdict may not flip; with it only a failure that turns into a win contradicts. Two complete audits
of one corpus and one regime of the PP that differ in caches and budgets never raise an alarm.
-/

namespace NuzlockeSolver.Audit

structure RowKey where
  klass : String
  seed : Nat
  shardK : Int
  index : Int
deriving DecidableEq, Repr

def rowKey (r : AuditRecord) : RowKey := ⟨r.klass, r.seed, r.shardK, r.index⟩

abbrev Rows := List (RowKey × AuditRecord)

def pythonTuple (k : RowKey) : String :=
  "('" ++ k.klass ++ "', " ++ toString k.seed ++ ", " ++ toString k.shardK ++ ", " ++
    toString k.index ++ ")"

def RowKey.le (a b : RowKey) : Bool :=
  if a.klass ≠ b.klass then a.klass < b.klass
  else if a.seed ≠ b.seed then a.seed < b.seed
  else if a.shardK ≠ b.shardK then a.shardK < b.shardK
  else a.index ≤ b.index

def onlyKeys (rows others : Rows) : String :=
  let keys := (rows.map (·.1)).filter fun key => (others.lookup key).isNone
  "[" ++
    ", ".intercalate (((keys.insertionSort fun a b => RowKey.le a b).take 5).map pythonTuple) ++
    "]"

def loadFile (path : String) : Rows → List FileLine → Except String Rows
  | rows, [] => .ok rows
  | _, .blank :: _ => .error "JSONDecodeError"
  | _, .invalid what :: _ => .error ("JSONDecodeError: " ++ what)
  | rows, .line (.summary _) :: lines => loadFile path rows lines
  | rows, .line (.record r) :: lines =>
    if (rows.lookup (rowKey r)).isSome then
      .error ("FAIL: duplicate matchup " ++ pythonTuple (rowKey r) ++ " in " ++ path)
    else loadFile path (rows ++ [(rowKey r, r)]) lines

def loadFiles : Rows → List (String × List FileLine) → Except String Rows
  | rows, [] => .ok rows
  | rows, file :: files => do
    let rows ← loadFile file.1 rows file.2
    loadFiles rows files

def load (pattern : String) (files : List (String × List FileLine)) : Except String Rows :=
  if files = [] then .error ("FAIL: no files match " ++ pattern) else loadFiles [] files

def bv (r : AuditRecord) : String :=
  match r.pipeline with
  | .thrown _ _ => "THROWN"
  | .ran _ _ _ bRan bVerdict _ _ => if bRan then bVerdict else "NOT_RUN"

def bReason (r : AuditRecord) : String :=
  match r.pipeline with
  | .thrown _ _ => "None"
  | .ran _ _ _ bRan _ reason _ => if bRan then reason else "None"

structure CompareReport where
  transitions : List ((String × String) × Nat) := []
  alarms : List (RowKey × String × String) := []
  conservatism : List (String × Nat) :=
    [("WIN->FAIL", 0), ("WIN->INDET(PpAuditFail)", 0), ("WIN->INDET(other)", 0)]
  decidedToIndet : List (RowKey × String) := []
  times : List (Nat × Nat) := []
  counters : List (String × Int) := []

def isAlarm (canon : Bool) (vb vc : String) : Bool :=
  if canon then vb = "FAIL" && vc = "WIN"
  else (vb = "WIN" && vc = "FAIL") || (vb = "FAIL" && vc = "WIN")

def conservatismOf (vb vc reason : String) : Option String :=
  if vb = "WIN" ∧ vc = "FAIL" then some "WIN->FAIL"
  else if vb = "WIN" ∧ vc = "INDET" then
    if reason = "PpAuditFail" then some "WIN->INDET(PpAuditFail)" else some "WIN->INDET(other)"
  else none

def compareFields : List String :=
  cacheFields ++ ["canonical_repeats", "pp_audit_rejects", "audit_expands"]

namespace CompareReport

def add (canon : Bool) (report : CompareReport) (key : RowKey) (base cand : AuditRecord) :
    CompareReport where
  transitions := bump (bv base, bv cand) 1 report.transitions
  alarms :=
    if isAlarm canon (bv base) (bv cand) then report.alarms ++ [(key, bv base, bv cand)]
    else report.alarms
  conservatism :=
    match (if canon then conservatismOf (bv base) (bv cand) (bReason cand) else none) with
    | none => report.conservatism
    | some sub => bump sub 1 report.conservatism
  decidedToIndet :=
    if bv base ∈ ["WIN", "FAIL"] ∧ bv cand = "INDET" then report.decidedToIndet ++ [(key, bv base)]
    else report.decidedToIndet
  times :=
    if base.pipeline.bRan ∧ cand.pipeline.bRan then report.times ++ [(base.timing.b, cand.timing.b)]
    else report.times
  counters := report.counters ++ fieldSeries compareFields cand.telemetry

def addRows (canon : Bool) (cand : Rows) : CompareReport → Rows → Except String CompareReport
  | report, [] => .ok report
  | report, row :: rows =>
    match cand.lookup row.1 with
    | none => .error "KeyError"
    | some r => addRows canon cand (report.add canon row.1 row.2 r) rows

end CompareReport

def sameKeys (base cand : Rows) : Bool :=
  base.all (fun row => (cand.lookup row.1).isSome) && cand.all fun row => (base.lookup row.1).isSome

def compare (canon : Bool) (base cand : String × List (String × List FileLine)) :
    Except String CompareReport := do
  let base ← load base.1 base.2
  let cand ← load cand.1 cand.2
  if sameKeys base cand then CompareReport.addRows canon cand {} base
  else
    .error ("FAIL: join mismatch; baseline-only=" ++ onlyKeys base cand ++ " candidate-only=" ++
      onlyKeys cand base)

/-- The exit code of the comparison. -/
def compareMain (canon : Bool) (base cand : String × List (String × List FileLine)) : Nat :=
  match compare canon base cand with
  | .error _ => 1
  | .ok report => if report.alarms = [] then 0 else 1

section Rows

variable {rows : Rows} {key : RowKey} {r : AuditRecord}

theorem lookup_of_mem (hnodup : (rows.map Prod.fst).Nodup) (h : (key, r) ∈ rows) :
    rows.lookup key = some r := by
  induction rows with
  | nil => cases h
  | cons row rows ih =>
    obtain ⟨hnotMem, hnodup⟩ := List.nodup_cons.1 hnodup
    cases List.mem_cons.1 h with
    | inl heq => rw [← heq, List.lookup_cons_self]
    | inr hmem =>
      have hne : key ≠ row.1 := fun heq => hnotMem (heq ▸ List.mem_map_of_mem hmem)
      rw [List.lookup_cons, beq_eq_false_iff_ne.2 hne]
      exact ih hnodup hmem

theorem lookup_isSome_iff : (rows.lookup key).isSome = true ↔ key ∈ rows.map Prod.fst := by
  induction rows with
  | nil => simp
  | cons row rows ih =>
    by_cases h : key = row.1
    · simp [h]
    · rw [List.lookup_cons, beq_eq_false_iff_ne.2 h, List.map_cons, List.mem_cons, or_iff_right h]
      exact ih

theorem sameKeys_iff {base cand : Rows} : sameKeys base cand = true ↔
    ∀ key, key ∈ base.map Prod.fst ↔ key ∈ cand.map Prod.fst := by
  unfold sameKeys
  simp only [Bool.and_eq_true, List.all_eq_true, lookup_isSome_iff]
  constructor
  · intro ⟨hbase, hcand⟩ key
    constructor
    · intro h
      obtain ⟨row, hrow, rfl⟩ := List.mem_map.1 h
      exact hbase row hrow
    · intro h
      obtain ⟨row, hrow, rfl⟩ := List.mem_map.1 h
      exact hcand row hrow
  · intro h
    exact ⟨fun row hrow => (h row.1).1 (List.mem_map_of_mem hrow),
      fun row hrow => (h row.1).2 (List.mem_map_of_mem hrow)⟩

end Rows

def rowsOf (records : List AuditRecord) : Rows := records.map fun r => (rowKey r, r)

theorem loadFile_records {path : String} {rows : Rows} {records : List AuditRecord}
    {s : ShardSummary} (h : ((rows ++ rowsOf records).map Prod.fst).Nodup) :
    loadFile path rows ((records.map AuditLine.record ++ [AuditLine.summary s]).map .line) =
      .ok (rows ++ rowsOf records) := by
  induction records generalizing rows with
  | nil => simp [loadFile, rowsOf]
  | cons r records ih =>
    have hnone : (rows.lookup (rowKey r)).isSome = false := by
      rw [Bool.eq_false_iff, Ne, lookup_isSome_iff]
      intro hmem
      rw [List.map_append] at h
      exact (List.nodup_append.1 h).2.2 _ hmem _ List.mem_cons_self rfl
    have hshift : rows ++ rowsOf (r :: records) = rows ++ [(rowKey r, r)] ++ rowsOf records := by
      rw [List.append_assoc]
      rfl
    simp only [List.map_cons, List.cons_append, loadFile, hnone, Bool.false_eq_true, if_false]
    rw [hshift] at h ⊢
    exact ih h

section Runs

variable {σ : Type} {runs : List (ShardRun σ)}

theorem loadFiles_runs (rows : Rows)
    (h : ((rows ++ rowsOf (runs.flatMap ShardRun.records)).map Prod.fst).Nodup) :
    loadFiles rows (runs.map ShardRun.file) =
      .ok (rows ++ rowsOf (runs.flatMap ShardRun.records)) := by
  induction runs generalizing rows with
  | nil => simp [loadFiles, rowsOf]
  | cons run runs ih =>
    have hsplit : rows ++ rowsOf ((run :: runs).flatMap ShardRun.records) =
        rows ++ rowsOf run.records ++ rowsOf (runs.flatMap ShardRun.records) := by
      rw [List.flatMap_cons, rowsOf, List.map_append, List.append_assoc]
      rfl
    rw [hsplit] at h ⊢
    rw [List.map_cons, loadFiles, ShardRun.file, ShardRun.lines, loadFile_records, ok_bind, ih _ h]
    rw [List.map_append] at h
    exact (List.nodup_append.1 h).1

def roundKey (cfg : RcheckConfig σ) (i : Nat) : RowKey :=
  ⟨cfg.klass, cfg.seed.toNat, cfg.shardK, cfg.shardK + i * cfg.shardOf⟩

theorem map_rowKey_records (run : ShardRun σ) :
    run.records.map rowKey = (List.range run.cases.length).map (roundKey run.cfg) := by
  rw [List.range_eq_range', ← List.zipIdx_map_snd, ShardRun.records, recordsFrom, List.map_map,
    List.map_map]
  rfl

theorem roundKey_injective {cfg : RcheckConfig σ} (h : cfg.shardOf ≠ 0) :
    Function.Injective (roundKey cfg) := by
  intro i j hij
  have hindex := congrArg RowKey.index hij
  have hmul := Int.eq_of_mul_eq_mul_right h (Int.add_left_cancel hindex)
  exact Int.ofNat_inj.1 hmul

theorem map_fst_rowsOf (records : List AuditRecord) :
    (rowsOf records).map Prod.fst = records.map rowKey := by
  rw [rowsOf, List.map_map]
  rfl

def Joins (canon : Bool) (r r' : AuditRecord) : Prop :=
  rowKey r = rowKey r' ∧ isAlarm canon (bv r) (bv r') = false

theorem map_rowKey_of_joins {canon : Bool} {records records' : List AuditRecord}
    (h : List.Forall₂ (Joins canon) records records') :
    records'.map rowKey = records.map rowKey := by
  induction h with
  | nil => rfl
  | cons hjoin _ ih => rw [List.map_cons, List.map_cons, ih, hjoin.1]

theorem addRows_of_joins {canon : Bool} {cand rows : Rows} (report : CompareReport)
    (h : ∀ row ∈ rows, ∃ r, cand.lookup row.1 = some r ∧ isAlarm canon (bv row.2) (bv r) = false) :
    ∃ report', CompareReport.addRows canon cand report rows = .ok report' ∧
      report'.alarms = report.alarms := by
  induction rows generalizing report with
  | nil => exact ⟨report, rfl, rfl⟩
  | cons row rows ih =>
    obtain ⟨hrow, hrows⟩ := List.forall_mem_cons.1 h
    obtain ⟨r, hlookup, halarm⟩ := hrow
    have hadd : CompareReport.addRows canon cand report (row :: rows) =
        CompareReport.addRows canon cand (report.add canon row.1 row.2 r) rows := by
      simp only [CompareReport.addRows, hlookup]
    obtain ⟨report', hrest, halarms⟩ := ih (report.add canon row.1 row.2 r) hrows
    refine ⟨report', hadd.trans hrest, halarms.trans ?_⟩
    simp only [CompareReport.add, halarm, Bool.false_eq_true, if_false]

theorem compareMain_of_joins {canon : Bool} {base cand : List (ShardRun σ)}
    {pattern pattern' : String}
    {records records' : List AuditRecord} (h : List.Forall₂ (Joins canon) records records')
    (hnodup : (records.map rowKey).Nodup) (hbase : (base.flatMap ShardRun.records).Perm records)
    (hcand : (cand.flatMap ShardRun.records).Perm records') (hne : base ≠ [] ∧ cand ≠ []) :
    compareMain canon (pattern, base.map ShardRun.file) (pattern', cand.map ShardRun.file) = 0 := by
  have hkeys := map_rowKey_of_joins h
  have hbaseRows : ((rowsOf (base.flatMap ShardRun.records)).map Prod.fst).Nodup := by
    rw [map_fst_rowsOf]
    exact (hbase.map rowKey).nodup_iff.2 hnodup
  have hcandRows : ((rowsOf (cand.flatMap ShardRun.records)).map Prod.fst).Nodup := by
    rw [map_fst_rowsOf]
    exact (hcand.map rowKey).nodup_iff.2 (hkeys ▸ hnodup)
  have hloadBase : load pattern (base.map ShardRun.file) =
      .ok (rowsOf (base.flatMap ShardRun.records)) := by
    rw [load, if_neg fun hnil => hne.1 (List.map_eq_nil_iff.1 hnil)]
    exact loadFiles_runs [] hbaseRows
  have hloadCand : load pattern' (cand.map ShardRun.file) =
      .ok (rowsOf (cand.flatMap ShardRun.records)) := by
    rw [load, if_neg fun hnil => hne.2 (List.map_eq_nil_iff.1 hnil)]
    exact loadFiles_runs [] hcandRows
  have hsame : sameKeys (rowsOf (base.flatMap ShardRun.records))
      (rowsOf (cand.flatMap ShardRun.records)) = true := by
    refine sameKeys_iff.2 fun key => ?_
    rw [map_fst_rowsOf, map_fst_rowsOf, (hbase.map rowKey).mem_iff, (hcand.map rowKey).mem_iff,
      hkeys]
  have hjoin : ∀ row ∈ rowsOf (base.flatMap ShardRun.records), ∃ r,
      (rowsOf (cand.flatMap ShardRun.records)).lookup row.1 = some r ∧
        isAlarm canon (bv row.2) (bv r) = false := by
    intro row hrow
    obtain ⟨r, hr, rfl⟩ := List.mem_map.1 hrow
    obtain ⟨r', hr', hkey, halarm⟩ := mem_of_forall₂ h.flip (hbase.mem_iff.1 hr)
    refine ⟨r', lookup_of_mem hcandRows ?_, halarm⟩
    exact List.mem_map.2 ⟨r', hcand.mem_iff.2 hr', by rw [hkey]⟩
  obtain ⟨report, hreport, halarms⟩ := addRows_of_joins {} hjoin
  unfold compareMain compare
  simp only [hloadBase, hloadCand, ok_bind, hsame, if_true, hreport, halarms]

def AuditCase.bv (c : AuditCase) : String :=
  match c.pipeline with
  | .ok pres => if pres.bRan then bwverdictStr pres.bVerdict else "NOT_RUN"
  | .error _ => "THROWN"

theorem bv_auditRecord (cfg : RcheckConfig σ) (R : Referees σ) (i : Nat) (c : AuditCase) :
    bv (auditRecord cfg R i c) = c.bv := by
  unfold bv auditRecord AuditCase.pipelineJson AuditCase.bv
  cases c.pipeline <;> rfl

theorem bwverdictStr_eq {v v' : BucketWinVerdict} (h : bwverdictStr v = bwverdictStr v') :
    v = v' := by
  cases v <;> cases v' <;> first | rfl | simp [bwverdictStr] at h

theorem bwverdictStr_ran (v : BucketWinVerdict) :
    bwverdictStr v ≠ "NOT_RUN" ∧ bwverdictStr v ≠ "THROWN" := by
  cases v <;> decide

theorem AuditCase.bv_eq {c : AuditCase} {v : BucketWinVerdict} (h : c.bv = bwverdictStr v) :
    ∃ pres, c.pipeline = .ok pres ∧ pres.bRan = true ∧ pres.bVerdict = v := by
  unfold AuditCase.bv at h
  split at h
  · rename_i pres hpipeline
    split at h
    · rename_i hran
      exact ⟨pres, hpipeline, hran, bwverdictStr_eq h⟩
    · exact absurd h.symm (bwverdictStr_ran v).1
  · exact absurd h.symm (bwverdictStr_ran v).2

structure Referees.Decides (R : Referees σ) (P : σ → Prop) : Prop where
  win : ∀ {s pres}, R.pipeline s = .ok pres → pres.bRan = true → pres.bVerdict = .win → P s
  fail : ∀ {s pres}, R.pipeline s = .ok pres → pres.bRan = true → pres.bVerdict = .fail → ¬P s

theorem not_isAlarm_of_decides {P : σ → Prop} {R R' : Referees σ} (hR : R.Decides P)
    (hR' : R'.Decides P) {s : σ} {c c' : AuditCase} (hc : R.audit s = .ok c)
    (hc' : R'.audit s = .ok c') (canon : Bool) : isAlarm canon c.bv c'.bv = false := by
  obtain ⟨ex, -, rfl⟩ := audit_eq_ok.1 hc
  obtain ⟨ex', -, rfl⟩ := audit_eq_ok.1 hc'
  have hwinFail (h : AuditCase.bv ⟨R.pipeline s, ex⟩ = "WIN") :
      AuditCase.bv ⟨R'.pipeline s, ex'⟩ ≠ "FAIL" := by
    intro h'
    obtain ⟨pres, hpres, hran, hverdict⟩ := AuditCase.bv_eq (v := .win) h
    obtain ⟨pres', hpres', hran', hverdict'⟩ := AuditCase.bv_eq (v := .fail) h'
    exact hR'.fail hpres' hran' hverdict' (hR.win hpres hran hverdict)
  have hfailWin (h : AuditCase.bv ⟨R.pipeline s, ex⟩ = "FAIL") :
      AuditCase.bv ⟨R'.pipeline s, ex'⟩ ≠ "WIN" := by
    intro h'
    obtain ⟨pres, hpres, hran, hverdict⟩ := AuditCase.bv_eq (v := .fail) h
    obtain ⟨pres', hpres', hran', hverdict'⟩ := AuditCase.bv_eq (v := .win) h'
    exact hR.fail hpres hran hverdict (hR'.win hpres' hran' hverdict')
  unfold isAlarm
  simp only [Bool.ite_eq_false_distrib, Bool.and_eq_false_iff, Bool.or_eq_false_iff,
    decide_eq_false_iff_not]
  split
  · exact or_iff_not_imp_left.2 fun h => hfailWin (not_not.1 h)
  · exact ⟨or_iff_not_imp_left.2 fun h => hwinFail (not_not.1 h),
      or_iff_not_imp_left.2 fun h => hfailWin (not_not.1 h)⟩

theorem forall₂_of_audits {R R' : Referees σ} {T : AuditCase → AuditCase → Prop}
    (h : ∀ s c c', R.audit s = .ok c → R'.audit s = .ok c' → T c c') {states : List σ}
    {cases cases' : List AuditCase}
    (hcases : List.Forall₂ (fun s c => R.audit s = .ok c) states cases)
    (hcases' : List.Forall₂ (fun s c => R'.audit s = .ok c) states cases') :
    List.Forall₂ T cases cases' := by
  induction hcases generalizing cases' with
  | nil =>
    cases hcases'
    exact .nil
  | cons haudit _ ih =>
    cases hcases' with
    | cons haudit' hcases' => exact .cons (h _ _ _ haudit haudit') (ih hcases')

theorem joins_records {run run' : ShardRun σ} {canon : Bool}
    (hkey : roundKey run.cfg = roundKey run'.cfg)
    (h : List.Forall₂ (fun c c' => isAlarm canon (AuditCase.bv c) (AuditCase.bv c') = false)
      run.cases run'.cases) : List.Forall₂ (Joins canon) run.records run'.records := by
  have hfrom {cases cases' : List AuditCase} (i : Nat)
      (h : List.Forall₂ (fun c c' => isAlarm canon (AuditCase.bv c) (AuditCase.bv c') = false)
        cases cases') : List.Forall₂ (Joins canon) (recordsFrom run.cfg run.referees i cases)
          (recordsFrom run'.cfg run'.referees i cases') := by
    induction h generalizing i with
    | nil => exact .nil
    | cons halarm _ ih =>
      rw [recordsFrom_cons, recordsFrom_cons]
      refine .cons ⟨congrFun hkey i, ?_⟩ (ih (i + 1))
      rw [bv_auditRecord, bv_auditRecord]
      exact halarm
  exact hfrom 0 h

/-- One shard of a corpus: its identity, its length and where its matchups come from. -/
structure Cell (σ γ : Type) where
  path : String
  klass : String
  seed : UInt64
  shard : Shard
  n : Nat
  source : Source σ γ

namespace Cell

variable {γ : Type} (cell : Cell σ γ)

def config (cfg : RcheckConfig σ) : RcheckConfig σ :=
  { cfg with
    klass := cell.klass
    seed := cell.seed
    shardK := cell.shard.k
    shardOf := cell.shard.of
    n := cell.n
    injected := [] }

def audit (cfg : RcheckConfig σ) (R : Referees σ) : RcheckOutput :=
  rcheckRun (cell.config cfg) R (.ok cell.source)

def file (cfg : RcheckConfig σ) (R : Referees σ) : String × List FileLine :=
  (cell.path, (cell.audit cfg R).lines.map .line)

/-- What tells the rows of a cell from those of another. -/
def id : String × Nat × Nat := (cell.klass, cell.seed.toNat, cell.shard.k)

def cases (R : Referees σ) : List AuditCase :=
  match Sharding.collect (auditNext R cell.source.next) cell.n cell.source.start with
  | .ok r => r.1
  | .error _ => []

def run (cfg : RcheckConfig σ) (R : Referees σ) : ShardRun σ :=
  ⟨cell.path, cell.config cfg, R, cell.cases R⟩

variable {cell}

theorem run_of_audit {cfg : RcheckConfig σ} {R : Referees σ} {report : RcheckReport}
    (h : (cell.audit cfg R).result = .ok report) :
    (cell.run cfg R).file = cell.file cfg R ∧ ∃ states, ∃ g : γ,
      Sharding.collect cell.source.next cell.n cell.source.start = .ok (states, g) ∧
        List.Forall₂ (fun s c => R.audit s = .ok c) states (cell.cases R) := by
  have haudit : cell.audit cfg R =
      rcheckLoop (cell.config cfg) R cell.source.next cell.n 0 cell.source.start {} := rfl
  rw [haudit] at h
  unfold run file cases
  rw [haudit]
  cases hcollect : Sharding.collect (auditNext R cell.source.next) cell.n cell.source.start with
  | error fault => cases (rcheckLoop_of_error hcollect).1.symm.trans h
  | ok r =>
    rw [rcheckLoop_of_collect hcollect]
    obtain ⟨states, hstates, haudits⟩ := collect_auditNext.1 hcollect
    exact ⟨rfl, states, r.2, hstates, haudits⟩

/-- Two audits of a cell, by referees that decide the same, join without a contradiction. -/
theorem joins_run {P : σ → Prop} {R R' : Referees σ} (hR : R.Decides P) (hR' : R'.Decides P)
    {cfg cfg' : RcheckConfig σ} {report report' : RcheckReport}
    (h : (cell.audit cfg R).result = .ok report) (h' : (cell.audit cfg' R').result = .ok report')
    (canon : Bool) :
    List.Forall₂ (Joins canon) (cell.run cfg R).records (cell.run cfg' R').records := by
  obtain ⟨-, states, g, hstates, haudits⟩ := run_of_audit h
  obtain ⟨-, states', g', hstates', haudits'⟩ := run_of_audit h'
  cases hstates.symm.trans hstates'
  refine joins_records rfl ?_
  exact forall₂_of_audits (fun s c c' hc hc' => not_isAlarm_of_decides hR hR' hc hc' canon) haudits
    haudits'

end Cell

/-- Two complete audits of one corpus, by referees that decide the same, never raise an alarm,
whatever the order of the files and the mode of the comparison. -/
theorem compareMain_cells {γ : Type} {P : σ → Prop} {R R' : Referees σ} (hR : R.Decides P)
    (hR' : R'.Decides P) {cfg cfg' : RcheckConfig σ} {cells : List (Cell σ γ)}
    (hid : (cells.map Cell.id).Nodup) (hran : ∀ cell ∈ cells,
      (∃ report, (cell.audit cfg R).result = .ok report) ∧
        ∃ report, (cell.audit cfg' R').result = .ok report)
    {base cand : List (Cell σ γ)} (hbase : base.Perm cells) (hcand : cand.Perm cells)
    (hne : cells ≠ []) (canon : Bool) (pattern pattern' : String) :
    compareMain canon (pattern, base.map (Cell.file · cfg R))
      (pattern', cand.map (Cell.file · cfg' R')) = 0 := by
  have hbaseFiles :
      base.map (Cell.file · cfg R) = (base.map (Cell.run · cfg R)).map ShardRun.file := by
    rw [List.map_map]
    refine List.map_congr_left fun cell hcell => ?_
    obtain ⟨report, hreport⟩ := (hran cell (hbase.mem_iff.1 hcell)).1
    exact (Cell.run_of_audit hreport).1.symm
  have hcandFiles : cand.map (Cell.file · cfg' R') =
      (cand.map (Cell.run · cfg' R')).map ShardRun.file := by
    rw [List.map_map]
    refine List.map_congr_left fun cell hcell => ?_
    obtain ⟨report, hreport⟩ := (hran cell (hcand.mem_iff.1 hcell)).2
    exact (Cell.run_of_audit hreport).1.symm
  have hjoins : List.Forall₂ (Joins canon) (cells.flatMap fun cell => (cell.run cfg R).records)
      (cells.flatMap fun cell => (cell.run cfg' R').records) := by
    refine List.rel_flatMap (R := fun cell cell' => cell = cell' ∧ cell ∈ cells) ?_ ?_
    · exact List.forall₂_same.2 fun cell hcell => ⟨rfl, hcell⟩
    · intro cell cell' ⟨heq, hcell⟩
      obtain ⟨⟨report, hreport⟩, report', hreport'⟩ := hran cell hcell
      exact heq ▸ Cell.joins_run hR hR' hreport hreport' canon
  have hnodup : ((cells.flatMap fun cell => (cell.run cfg R).records).map rowKey).Nodup := by
    rw [List.map_flatMap]
    simp only [map_rowKey_records]
    refine List.nodup_flatMap.2 ⟨fun cell _ => ?_, ?_⟩
    · refine List.nodup_range.map (roundKey_injective ?_)
      have hlt := cell.shard.k_lt_of
      change (cell.shard.of : Int) ≠ 0
      omega
    · refine (List.pairwise_map.1 hid).imp fun {cell cell'} hne => ?_
      intro key hkey hkey'
      obtain ⟨i, -, rfl⟩ := List.mem_map.1 hkey
      obtain ⟨j, -, hj⟩ := List.mem_map.1 hkey'
      refine hne ?_
      have hklass := congrArg RowKey.klass hj
      have hseed := congrArg RowKey.seed hj
      have hshard := Int.ofNat_inj.1 (congrArg RowKey.shardK hj)
      exact Prod.ext hklass.symm (Prod.ext hseed.symm hshard.symm)
  rw [hbaseFiles, hcandFiles]
  refine compareMain_of_joins hjoins hnodup ?_ ?_ ⟨?_, ?_⟩
  · rw [List.flatMap_map]
    exact hbase.flatMap_right _
  · rw [List.flatMap_map]
    exact hcand.flatMap_right _
  · exact fun hnil => hne (List.Perm.nil_eq (List.map_eq_nil_iff.1 hnil ▸ hbase)).symm
  · exact fun hnil => hne (List.Perm.nil_eq (List.map_eq_nil_iff.1 hnil ▸ hcand)).symm

end Runs

section Matchups

variable {Ctx : Type}

theorem pipelineReferees_decides {σ : Type} (cfg : RcheckConfig σ) (input : σ → PipelineInput Ctx)
    (clock : Nat → Clock) :
    (pipelineReferees cfg input clock).Decides fun s =>
      keyOf ((input s).root cfg.enablePpCanon) ∈
        (winGraph ((input s).buckets cfg.enablePpCanon) {}).region where
  win {s _} h hran hverdict :=
    ((input s).pipeline_bVerdict _ _ (liftFault_eq_ok.1 h) hran).1 hverdict
  fail {s _} h hran hverdict :=
    ((input s).pipeline_bVerdict _ _ (liftFault_eq_ok.1 h) hran).2 hverdict

/-- Caches, budgets and clocks do not flip a verdict: two complete audits of one grid under the same
regime of the PP pass the comparison in both modes. -/
theorem compareMain_pipelines {σ γ : Type} {cfg cfg' : RcheckConfig σ}
    (hregime : cfg'.enablePpCanon = cfg.enablePpCanon) (input : σ → PipelineInput Ctx)
    {clock clock' : Nat → Clock} (cells : List (Cell σ γ))
    (hid : (cells.map Cell.id).Nodup) (hran : ∀ cell ∈ cells,
      (∃ report, (cell.audit cfg (pipelineReferees cfg input clock)).result = .ok report) ∧
        ∃ report, (cell.audit cfg' (pipelineReferees cfg' input clock')).result = .ok report)
    {base cand : List (Cell σ γ)} (hbase : base.Perm cells) (hcand : cand.Perm cells)
    (hne : cells ≠ []) (canon : Bool) (pattern pattern' : String) :
    compareMain canon (pattern, base.map (Cell.file · cfg (pipelineReferees cfg input clock)))
      (pattern', cand.map (Cell.file · cfg' (pipelineReferees cfg' input clock'))) = 0 :=
  compareMain_cells (pipelineReferees_decides cfg input clock)
    (hregime ▸ pipelineReferees_decides cfg' input clock') hid hran hbase hcand hne canon pattern
    pattern'

def duelCell (k : Nat) (h : k < 2) : Cell (PipelineInput Unit) Unit where
  path := toString k
  klass := "uniform"
  seed := 1
  shard := ⟨k, 2, h⟩
  n := 2
  source := ⟨fun _ => .ok (duel.toPipelineInput, ()), ()⟩

def duelCells : List (Cell (PipelineInput Unit) Unit) :=
  [duelCell 0 Nat.zero_lt_two, duelCell 1 Nat.one_lt_two]

def uncached : RcheckConfig (PipelineInput Unit) := { enableCache := false, bVisits := 5 }

theorem duelCells_compare : compareMain false
    ("cached", duelCells.map (Cell.file · {} (pipelineReferees {} id fun _ => {})))
    ("uncached",
        duelCells.reverse.map (Cell.file · uncached (pipelineReferees uncached id fun _ => {}))) =
      0 := by
  have hran (cfg : RcheckConfig (PipelineInput Unit)) (hcfg : cfg = {} ∨ cfg = uncached) :
      ∀ cell ∈ duelCells,
        ∃ report, (cell.audit cfg (pipelineReferees cfg id fun _ => {})).result = .ok report := by
    intro cell hcell
    have hn : (cell.audit cfg (pipelineReferees cfg id fun _ => {})).result.map (·.n) = .ok 2 := by
      obtain rfl | rfl := hcfg <;> revert cell <;> decide +kernel
    obtain ⟨report, hreport, -⟩ := map_eq_ok.1 hn
    exact ⟨report, hreport⟩
  have hregime : uncached.enablePpCanon = ({} : RcheckConfig (PipelineInput Unit)).enablePpCanon :=
    rfl
  refine compareMain_pipelines hregime id duelCells (by decide) (fun cell hcell => ?_) (.refl _)
    (List.reverse_perm _) (by decide) false "cached" "uncached"
  exact ⟨hran {} (.inl rfl) cell hcell, hran uncached (.inr rfl) cell hcell⟩

end Matchups

end NuzlockeSolver.Audit
