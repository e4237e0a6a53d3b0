import Mathlib.Data.List.Sort
import NuzlockeSolver.Engine.AiAnalytic
import NuzlockeSolver.Engine.Effects

/-!
# The analytic certifier

A greedy damage race. A line carries the worst-case HP of the player and an interval for the HP of
the opponent; a turn hits both, in the order of the speeds, and a speed tie follows both orders.
-/

namespace NuzlockeSolver

namespace Engine

section Queries

variable (moves : List MoveData) (state : BattleState)

/-- The damage table of an action; anything but a known move is refused. -/
def queryDamageTable (attackerSide : Int) (action : ExecAction) : Except String DamageTable := do
  if action.kind ≠ actionMove then
    throw "engine_queries: action must be a MOVE (kind=0)"
  let moveId ←
    if action.moveOverride ≥ 0 then pure (Int32.ofInt action.moveOverride)
    else if action.moveSlot < 0 ∨ action.moveSlot > 3 then
      throw "engine_queries: move_slot out of range (0-3)"
    else pure (moveIdAt (activeMon state attackerSide) action.moveSlot)
  if moveId ≤ 0 then
    throw "engine_queries: resolved move_id is 0 (no move at slot)"
  damageTableOf moves (activeCall state attackerSide moveId)

def DamageTable.values (dt : DamageTable) : List Int := dt.noncrit ++ dt.crit

def tableMin (dt : DamageTable) : Int := dt.values.min?.getD 0

def tableMax (dt : DamageTable) : Int := dt.values.foldl max 0

def damagingMove (moveId : Int32) : Option MoveData :=
  if moveId ≤ 0 then none else (moveDataGet moves moveId).filter (·.category != catStatus)

def playerTable (slot : Int) : Option DamageTable :=
  match damagingMove moves (moveIdAt (activeMon state 0) slot) with
  | none => none
  | some md =>
    if md.maxHits > 1 then none
    else match queryDamageTable moves state 0 (makeMoveAction slot) with
      | .error _ => none
      | .ok dt => if dt.immune then none else some dt

def pickPlayerMove : Option (Int × DamageTable) :=
  ([0, 1, 2, 3] : List Int).foldl (fun best slot =>
    match playerTable moves state slot with
    | none => best
    | some dt => if tableMin dt > best.elim (-1) (tableMin ·.2) then some (slot, dt) else best) none

def oppMaxDamage (support : List ExecAction) : Int :=
  support.foldl (fun mx act =>
    match queryDamageTable moves state 1 act with
    | .error _ => mx
    | .ok dt => if dt.immune then mx else max mx (tableMax dt)) 0

def damagingSupport (support : List ExecAction) : List ExecAction :=
  support.filter fun act => act.kind == actionMove &&
    (damagingMove moves (moveIdAt (activeMon state 1) act.moveSlot)).isSome

end Queries

inductive AVerdict
  | win
  | loss
  | unknown
deriving DecidableEq, Repr

inductive ATag
  | ok
  | scope
  | mask
  | thresh
  | notTight
  | stall
  | cap
deriving DecidableEq, Repr

structure AnalyticResult where
  tag : ATag := .ok
  tight : Bool := true
  killTurn : Nat := 0
deriving DecidableEq, Repr

/-- The player's worst-case HP with its ceiling, the interval of the opponent's HP, and whether the
opponent's item is spent. -/
structure LineState where
  pw : Int
  pwHi : Int
  oLo : Int
  oHi : Int
  oppItemUsed : Bool
  tight : Bool
deriving DecidableEq, Repr

structure RunLineCtx where
  state0 : BattleState
  plMaxHp : Int
  oppMaxHp : Int
  oppHasSitrus : Bool
  oppHasSash : Bool

section Interval

structure IntervalHit where
  oHi : Int
  oLo : Int
  itemUsed : Bool
deriving DecidableEq, Repr

def applyPlayerDamageToInterval (minDmg maxDmg oHiIn oLoIn oppMaxHp : Int)
    (oppHasSash oppHasSitrus oppItemUsed oppAtFullHp : Bool) :
    Except String (Option IntervalHit) :=
  let newHi := oHiIn - minDmg
  let newLo := oLoIn - maxDmg
  let sash := oppHasSash && !oppItemUsed && oppAtFullHp && decide (newLo ≤ 0)
  if sash ∧ newHi > 0 then pure none
  else
    let newHi := if sash then 1 else newHi
    let newLo := if sash then 1 else newLo
    let itemUsed := oppItemUsed || sash
    if newHi ≤ 0 then pure (some ⟨newHi, newLo, itemUsed⟩)
    else
      -- killed branches leave the interval as wins
      let newLo := if newLo ≤ 0 then 1 else newLo
      let sitrus := oppHasSitrus && !oppItemUsed
      let hiTriggers := decide (newHi ≤ oppMaxHp.tdiv 2)
      let loTriggers := decide (newLo ≤ oppMaxHp.tdiv 2)
      if sitrus ∧ hiTriggers ≠ loTriggers then pure none
      else
        let healed := sitrus && hiTriggers
        let heal := (oppMaxHp * 3).tdiv 10
        let newHi := if healed then min (newHi + heal) oppMaxHp else newHi
        let newLo := if healed then min (newLo + heal) oppMaxHp else newLo
        if newHi < newLo then throw "analytic: interval inverted after damage application"
        else pure (some ⟨newHi, newLo, itemUsed || healed⟩)

end Interval

section Line

variable (moves : List MoveData) (ctx : RunLineCtx)

def setHp (hp : Int) (mon : PokemonState) : PokemonState :=
  { mon with hp := Int32.ofInt hp, hasHp := true }

def clearItem (mon : PokemonState) : PokemonState := { mon with item := itemNone }

def syncState (state0 : BattleState) (pw oHi : Int) (oppItemUsed : Bool) : BattleState :=
  let s := (state0.modifyActive 0 (setHp pw)).modifyActive 1 (setHp oHi)
  if oppItemUsed then s.modifyActive 1 clearItem else s

def LineState.sync (ctx : RunLineCtx) (L : LineState) : BattleState :=
  syncState ctx.state0 L.pw L.oHi L.oppItemUsed

def supportSet (acts : List ExecAction) : List Int :=
  (acts.map (·.moveSlot)).insertionSort (· ≤ ·)

def maskStableAt (baseState : BattleState) (ref : List Int) (hp : Int) : Except String Bool := do
  let acts ← possibleAiActions moves (baseState.modifyActive 1 (setHp hp)) 1
  pure (supportSet acts == ref)

def intervalMaskStable (baseState : BattleState) (oLo oHi : Int)
    (supportAtOHi : List ExecAction) : Except String Bool :=
  if oLo = oHi then pure true
  else
    ((List.range (oHi - oLo).toNat).map fun (k : Nat) => oLo + k).allM
      (maskStableAt moves baseState (supportSet supportAtOHi))

inductive TurnResult
  | goesOn (L : LineState)
  | playerDead
  | oppDead
  | unknown (tag : ATag)
deriving DecidableEq, Repr

def playerHit (L : LineState) : Except String TurnResult := do
  match pickPlayerMove moves (L.sync ctx) with
  | none => pure (.unknown .scope)
  | some (_, tbl) =>
    let hit ← applyPlayerDamageToInterval (tableMin tbl) (tableMax tbl) L.oHi L.oLo ctx.oppMaxHp
      ctx.oppHasSash ctx.oppHasSitrus L.oppItemUsed (L.oHi == ctx.oppMaxHp)
    match hit with
    | none => pure (.unknown .thresh)
    | some hit =>
      if hit.oHi ≤ 0 then pure .oppDead
      else pure (.goesOn { L with oHi := hit.oHi, oLo := hit.oLo, oppItemUsed := hit.itemUsed })

def oppHit (oppMx : Int) (L : LineState) : TurnResult :=
  if L.pw - oppMx ≤ 0 then .playerDead else .goesOn { L with pw := L.pw - oppMx }

def simTurnOrdered (L : LineState) (playerFirst : Bool) (oppMx : Int) :
    Except String TurnResult := do
  if oppMx ≤ 0 then pure (.unknown .stall)
  else if playerFirst then
    match ← playerHit moves ctx L with
    | .goesOn L => pure (oppHit oppMx L)
    | r => pure r
  else
    match oppHit oppMx L with
    | .goesOn L => playerHit moves ctx L
    | r => pure r

inductive TurnPlay
  | stop (tag : ATag)
  | single (r : TurnResult)
  | tie (playerFirst oppFirst : TurnResult)
deriving DecidableEq, Repr

def checkLine (L : LineState) : Except String Unit := do
  if L.oHi < L.oLo then throw "analytic: opp HP interval inverted at turn entry"
  if L.pw ≤ 0 then throw "analytic: player HP <= 0 at turn entry"

def lineGuard (L : LineState) (support : List ExecAction) : Except String Bool :=
  if L.oLo < L.oHi then intervalMaskStable moves ctx.state0 L.oLo L.oHi support else pure true

/-- The support that the turn uses, and whether the guard lets it. -/
def guardedSupport (L : LineState) : Except String (List ExecAction × Bool) := do
  let support ← possibleAiActions moves (L.sync ctx) 1
  let stable ← lineGuard moves ctx L support
  pure (support, stable)

def playOrders (L : LineState) (support : List ExecAction) : Except String TurnPlay := do
  let cur := L.sync ctx
  let oppMx := oppMaxDamage moves cur (damagingSupport moves cur support)
  let plSpd := effectiveSpeed (activeMon cur 0) cur.side0 cur
  let oppSpd := effectiveSpeed (activeMon cur 1) cur.side1 cur
  if plSpd = oppSpd then
    let pf ← simTurnOrdered moves ctx L true oppMx
    let sf ← simTurnOrdered moves ctx L false oppMx
    match pf, sf with
    | .unknown tag, _ => pure (.stop tag)
    | _, .unknown tag => pure (.stop tag)
    | pf, sf => pure (.tie pf sf)
  else pure (.single (← simTurnOrdered moves ctx L (decide (plSpd > oppSpd)) oppMx))

def turnPlay (L : LineState) : Except String TurnPlay := do
  checkLine L
  match pickPlayerMove moves (L.sync ctx) with
  | none => pure (.stop .scope)
  | some _ =>
    let (support, stable) ← guardedSupport moves ctx L
    if stable then playOrders moves ctx L support else pure (.stop .mask)

end Line

section Run

def turnCap : Nat := 50

def lineCap : Nat := 64

def depthCap : Nat := 8

structure LineRun where
  verdict : AVerdict
  result : AnalyticResult
  linesUsed : Nat
deriving DecidableEq, Repr

def LineRun.stopped (tag : ATag) (result : AnalyticResult) (linesUsed : Nat) : LineRun :=
  ⟨.unknown, { result with tag := tag }, linesUsed⟩

def LineRun.won (turn : Nat) (result : AnalyticResult) (linesUsed : Nat) : LineRun :=
  ⟨.win, { result with killTurn := turn }, linesUsed⟩

def LineRun.lost (tight : Bool) (result : AnalyticResult) (linesUsed : Nat) : LineRun :=
  ⟨if tight then .loss else .unknown, result, linesUsed⟩

def mergeOrders (result : AnalyticResult) (pf sf : LineRun) : LineRun :=
  if pf.verdict = .win ∧ sf.verdict = .win then
    .won (if pf.result.killTurn > 0 then pf.result.killTurn else sf.result.killTurn) result
      sf.linesUsed
  else if pf.verdict = sf.verdict then
    if pf.verdict = .loss then ⟨.loss, { result with tag := .ok }, sf.linesUsed⟩
    else .stopped pf.result.tag result sf.linesUsed
  else ⟨.unknown, { result with tight := false, tag := .notTight }, sf.linesUsed⟩

abbrev LineRunner := LineState → Nat → AnalyticResult → Except String LineRun

def orderRun (recurse : LineRunner) (tight : Bool) (turn : Nat) (linesUsed : Nat)
    (result : AnalyticResult) : TurnResult → Except String LineRun
  | .oppDead => pure (.won turn result linesUsed)
  | .playerDead => pure (.lost tight result linesUsed)
  | .unknown tag => pure (.stopped tag result linesUsed)
  | .goesOn L => recurse L (linesUsed + 1) result

def runTurns (play : LineState → Except String TurnPlay) (recurse : LineRunner) :
    Nat → LineRunner
  | 0, _, linesUsed, result => pure (.stopped .cap result linesUsed)
  | left + 1, L, linesUsed, result => do
    match ← play L with
    | .stop tag => pure (.stopped tag result linesUsed)
    | .single (.goesOn L') => runTurns play recurse left L' linesUsed result
    | .single r => orderRun recurse L.tight (turnCap - left) linesUsed result r
    | .tie pf sf =>
      let pf ← orderRun recurse L.tight (turnCap - left) linesUsed result pf
      let sf ← orderRun recurse L.tight (turnCap - left) pf.linesUsed result sf
      pure (mergeOrders result pf sf)

def runLine (play : LineState → Except String TurnPlay) : Nat → LineRunner
  | 0, _, linesUsed, result => pure (.stopped .cap result linesUsed)
  | levels + 1, L, linesUsed, result =>
    if linesUsed > lineCap then pure (.stopped .cap result linesUsed)
    else runTurns play (runLine play levels) turnCap L linesUsed result

/-- The lines a turn goes on with. -/
def TurnPlay.lines : TurnPlay → List LineState
  | .stop _ => []
  | .single (.goesOn L) => [L]
  | .single _ => []
  | .tie pf sf => (match pf with | .goesOn L => [L] | _ => []) ++
      (match sf with | .goesOn L => [L] | _ => [])

/-- The lines of the recursion from a line, over all turns and depths. -/
inductive Reached (play : LineState → Except String TurnPlay) (L₀ : LineState) :
    LineState → Prop
  | start : Reached play L₀ L₀
  | turn {L L' : LineState} {p : TurnPlay} (h : Reached play L₀ L) (hplay : play L = .ok p)
      (hmem : L' ∈ p.lines) : Reached play L₀ L'

theorem Reached.trans {play : LineState → Except String TurnPlay} {L₀ L₁ L₂ : LineState}
    (h : Reached play L₀ L₁) (h' : Reached play L₁ L₂) : Reached play L₀ L₂ := by
  induction h' with
  | start => exact h
  | turn _ hplay hmem ih => exact ih.turn hplay hmem

/-- The results of the orders that a turn is played in. -/
def TurnPlay.results : TurnPlay → List TurnResult
  | .stop _ => []
  | .single r => [r]
  | .tie pf sf => [pf, sf]

theorem TurnPlay.mem_lines {p : TurnPlay} {L : LineState} :
    L ∈ p.lines ↔ TurnResult.goesOn L ∈ p.results := by
  cases p with
  | stop tag => simp [lines, results]
  | single r => cases r <;> simp [lines, results]
  | tie pf sf => cases pf <;> cases sf <;> simp [lines, results]

/-- Every order comes to this end, in the turn itself or on the line that it goes on with. -/
inductive Ends (play : LineState → Except String TurnPlay) (r₀ : TurnResult) : LineState → Prop
  | turn {L : LineState} {p : TurnPlay} (hplay : play L = .ok p) (hne : p.results ≠ [])
      (hends : ∀ r ∈ p.results, r = r₀ ∨ ∃ L', r = .goesOn L')
      (hlines : ∀ L' ∈ p.lines, Ends play r₀ L') : Ends play r₀ L

def AVerdict.death : AVerdict → Option TurnResult
  | .win => some .oppDead
  | .loss => some .playerDead
  | .unknown => none

variable {play play' : LineState → Except String TurnPlay} {recurse recurse' : LineRunner}
  {L : LineState} {linesUsed : Nat} {result : AnalyticResult} {run : LineRun} {r₀ : TurnResult}

theorem orderRun_congr {r : TurnResult}
    (h : ∀ L, r = .goesOn L → recurse' L = recurse L) (tight : Bool) (turn linesUsed : Nat)
    (result : AnalyticResult) : orderRun recurse' tight turn linesUsed result r =
      orderRun recurse tight turn linesUsed result r := by
  cases r with
  | goesOn L => rw [orderRun, orderRun, h L rfl]
  | _ => rfl

theorem runTurns_congr (hplay : ∀ L', Reached play L L' → play' L' = play L')
    (hrec : ∀ L', Reached play L L' → recurse' L' = recurse L') (left linesUsed : Nat)
    (result : AnalyticResult) : runTurns play' recurse' left L linesUsed result =
      runTurns play recurse left L linesUsed result := by
  induction left generalizing L with
  | zero => rfl
  | succ left ih =>
    rw [runTurns, runTurns, hplay L .start]
    refine bind_congr_ok fun p hp => ?_
    have hreach {L' : LineState} (hmem : TurnResult.goesOn L' ∈ p.results) :
        Reached play L L' := Reached.start.turn hp (TurnPlay.mem_lines.2 hmem)
    cases p with
    | stop tag => rfl
    | single r =>
      cases r with
      | goesOn L' =>
        have hL' : Reached play L L' := hreach (by simp [TurnPlay.results])
        exact ih (fun L'' h => hplay L'' (hL'.trans h)) fun L'' h => hrec L'' (hL'.trans h)
      | _ => rfl
    | tie pf sf =>
      have horder {r : TurnResult} (hr : r ∈ (TurnPlay.tie pf sf).results) (L' : LineState)
          (heq : r = .goesOn L') : recurse' L' = recurse L' := hrec L' (hreach (heq ▸ hr))
      dsimp only
      rw [orderRun_congr (horder (by simp [TurnPlay.results]))]
      refine bind_congr_ok fun pf _ => ?_
      rw [orderRun_congr (horder (by simp [TurnPlay.results]))]

theorem runLine_congr (h : ∀ L', Reached play L L' → play' L' = play L') (levels : Nat) :
    runLine play' levels L = runLine play levels L := by
  induction levels generalizing L with
  | zero => rfl
  | succ levels ih =>
    funext linesUsed result
    rw [runLine, runLine]
    split
    · rfl
    · exact runTurns_congr h (fun L' hL' => ih fun L'' hL'' => h L'' (hL'.trans hL'')) _ _ _

theorem ends_of_orderRun {tight : Bool} {turn : Nat} {r : TurnResult}
    (h : orderRun recurse tight turn linesUsed result r = .ok run)
    (hdeath : run.verdict.death = some r₀) :
    r = r₀ ∨ ∃ L, r = .goesOn L ∧ recurse L (linesUsed + 1) result = .ok run := by
  cases r with
  | goesOn L => exact .inr ⟨L, rfl, h⟩
  | playerDead =>
    cases h
    cases tight <;> cases hdeath
    exact .inl rfl
  | oppDead =>
    cases h
    cases hdeath
    exact .inl rfl
  | unknown tag =>
    cases h
    cases hdeath

theorem death_of_mergeOrders {pf sf : LineRun}
    (h : (mergeOrders result pf sf).verdict.death = some r₀) :
    pf.verdict.death = some r₀ ∧ sf.verdict.death = some r₀ := by
  unfold mergeOrders at h
  split at h
  · rename_i hwin
    rw [hwin.1, hwin.2]
    exact ⟨h, h⟩
  · split at h
    · rename_i heq
      split at h
      · rename_i hloss
        rw [← heq, hloss]
        exact ⟨h, h⟩
      · cases h
    · cases h

theorem AVerdict.death_ne {v : AVerdict} (h : v.death = some r₀) (L : LineState) :
    r₀ ≠ .goesOn L := by
  cases v <;> cases h <;> exact fun heq => nomatch heq

theorem Ends.of_results {p : TurnPlay} (hr₀ : ∀ L, r₀ ≠ .goesOn L) (hplay : play L = .ok p)
    (hne : p.results ≠ [])
    (h : ∀ r ∈ p.results, r = r₀ ∨ ∃ L', r = .goesOn L' ∧ Ends play r₀ L') :
    Ends play r₀ L := by
  refine .turn hplay hne (fun r hr => (h r hr).imp_right fun ⟨L', heq, _⟩ => ⟨L', heq⟩) ?_
  intro L' hL'
  obtain heq | ⟨L'', heq, hends⟩ := h _ (TurnPlay.mem_lines.1 hL')
  · exact absurd heq.symm (hr₀ L')
  · exact TurnResult.goesOn.inj heq ▸ hends

theorem ends_of_runTurns
    (hrec : ∀ L linesUsed run, recurse L linesUsed result = .ok run →
      run.verdict.death = some r₀ → Ends play r₀ L) {left : Nat}
    (h : runTurns play recurse left L linesUsed result = .ok run)
    (hdeath : run.verdict.death = some r₀) : Ends play r₀ L := by
  induction left generalizing L with
  | zero =>
    cases h
    cases hdeath
  | succ left ih =>
    rw [runTurns] at h
    obtain ⟨p, hplay, h⟩ := bind_eq_ok.1 h
    have hof := Ends.of_results (AVerdict.death_ne hdeath) hplay
    have horder {tight turn linesUsed r run}
        (h : orderRun recurse tight turn linesUsed result r = .ok run)
        (hdeath : run.verdict.death = some r₀) :
        r = r₀ ∨ ∃ L', r = .goesOn L' ∧ Ends play r₀ L' :=
      (ends_of_orderRun h hdeath).imp_right fun ⟨L', heq, hrun⟩ =>
        ⟨L', heq, hrec _ _ _ hrun hdeath⟩
    cases p with
    | stop tag =>
      cases h
      cases hdeath
    | single r =>
      refine hof (List.cons_ne_nil _ _) fun r' hr' => ?_
      obtain rfl : r' = r := List.mem_singleton.1 hr'
      cases r' with
      | goesOn L' => exact .inr ⟨L', rfl, ih h⟩
      | _ => exact horder h hdeath
    | tie pf sf =>
      obtain ⟨pfRun, hpf, h⟩ := bind_eq_ok.1 h
      obtain ⟨sfRun, hsf, h⟩ := bind_eq_ok.1 h
      cases h
      obtain ⟨hpfDeath, hsfDeath⟩ := death_of_mergeOrders hdeath
      refine hof (List.cons_ne_nil _ _) fun r hr => ?_
      obtain rfl | hr := List.mem_cons.1 hr
      · exact horder hpf hpfDeath
      · obtain rfl := List.mem_singleton.1 hr
        exact horder hsf hsfDeath

theorem ends_of_runLine {levels : Nat} (h : runLine play levels L linesUsed result = .ok run)
    (hdeath : run.verdict.death = some r₀) : Ends play r₀ L := by
  induction levels generalizing L linesUsed run with
  | zero =>
    cases h
    cases hdeath
  | succ levels ih =>
    rw [runLine] at h
    split at h
    · cases h
      cases hdeath
    · exact ends_of_runTurns (fun _ _ _ h hdeath => ih h hdeath) h hdeath

end Run

end Engine

end NuzlockeSolver
