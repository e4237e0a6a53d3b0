import NuzlockeSolver.Basic
import NuzlockeSolver.Engine.AiAgree
import NuzlockeSolver.Engine.AiViewChoices
import NuzlockeSolver.Engine.AnalyticGate

/-!
# The interval mask guard

The guard asks the AI at every HP of the interval, in the entry state. Its answers hold for the
state that the line has reached where the two states agree in all that the AI reads.
-/

namespace NuzlockeSolver

namespace Engine

section Guard

theorem allM_eq_ok {α ε : Type} {p : α → Except ε Bool} {l : List α} :
    l.allM p = .ok true ↔ ∀ a ∈ l, p a = .ok true := by
  induction l with
  | nil =>
    constructor
    · intro _ a ha
      cases ha
    · exact fun _ => rfl
  | cons a l ih =>
    rw [List.allM, bind_eq_ok, List.forall_mem_cons]
    constructor
    · rintro ⟨b, hb, hrest⟩
      cases b with
      | false => cases hrest
      | true => exact ⟨hb, ih.1 hrest⟩
    · rintro ⟨ha, hrest⟩
      exact ⟨true, ha, ih.2 hrest⟩

variable {moves : List MoveData} {ctx : RunLineCtx} {L : LineState}

def templateState (state0 : BattleState) (h : Int) : BattleState :=
  state0.modifyActive 1 (setHp h)

theorem maskStableAt_iff {state0 : BattleState} {ref : List Int} {h : Int} :
    maskStableAt moves state0 ref h = .ok true ↔
      ∃ acts, possibleAiActions moves (templateState state0 h) 1 = .ok acts ∧
        supportSet acts = ref := by
  rw [maskStableAt, bind_eq_ok]
  refine exists_congr fun acts => and_congr Iff.rfl ?_
  rw [pure, Applicative.toPure, Monad.toApplicative, Except.instMonad]
  simp only [Except.pure, Except.ok.injEq, beq_iff_eq]

theorem intervalMaskStable_iff {state0 : BattleState} {lo hi : Int} (hle : lo ≤ hi)
    {support : List ExecAction} :
    intervalMaskStable moves state0 lo hi support = .ok true ↔
      ∀ h, lo ≤ h → h < hi → ∃ acts,
        possibleAiActions moves (templateState state0 h) 1 = .ok acts ∧
          supportSet acts = supportSet support := by
  rw [intervalMaskStable]
  split
  · rename_i heq
    exact ⟨fun _ h hlo hhi => by omega, fun _ => rfl⟩
  · rw [allM_eq_ok]
    constructor
    · intro hall h hlo hhi
      apply maskStableAt_iff.1 (hall h _)
      refine List.mem_map.2 ⟨(h - lo).toNat, List.mem_range.2 (by omega), by omega⟩
    · intro hall h hmem
      obtain ⟨k, hk, rfl⟩ := List.mem_map.1 hmem
      have hlt := List.mem_range.1 hk
      exact maskStableAt_iff.2 (hall _ (by omega) (by omega))

theorem lineGuard_iff (hle : L.oLo ≤ L.oHi) {support : List ExecAction} :
    lineGuard moves ctx L support = .ok true ↔
      intervalMaskStable moves ctx.state0 L.oLo L.oHi support = .ok true := by
  rw [lineGuard]
  split
  · exact Iff.rfl
  · rw [intervalMaskStable, if_pos (by omega)]

theorem guardedSupport_iff (hle : L.oLo ≤ L.oHi) {support : List ExecAction} :
    guardedSupport moves ctx L = .ok (support, true) ↔
      possibleAiActions moves (L.sync ctx) 1 = .ok support ∧
        ∀ h, L.oLo ≤ h → h < L.oHi → ∃ acts,
          possibleAiActions moves (templateState ctx.state0 h) 1 = .ok acts ∧
            supportSet acts = supportSet support := by
  rw [← intervalMaskStable_iff hle, ← lineGuard_iff hle, guardedSupport, bind_eq_ok]
  constructor
  · rintro ⟨acts, hacts, hguard⟩
    obtain ⟨stable, hstable, hpair⟩ := bind_eq_ok.1 hguard
    cases hpair
    exact ⟨hacts, hstable⟩
  · rintro ⟨hacts, hstable⟩
    exact ⟨support, hacts, bind_eq_ok.2 ⟨true, hstable, rfl⟩⟩

end Guard

section Interval

variable {moves : List MoveData} {ctx : RunLineCtx} {L L' : LineState}

theorem oLo_le_oHi_of_hit {minDmg maxDmg oHi oLo oppMaxHp : Int} {sash sitrus used full : Bool}
    {hit : IntervalHit}
    (h : applyPlayerDamageToInterval minDmg maxDmg oHi oLo oppMaxHp sash sitrus used full =
      .ok (some hit)) (halive : 0 < hit.oHi) : hit.oLo ≤ hit.oHi := by
  unfold applyPlayerDamageToInterval at h
  extract_lets newHi newLo saves savedHi savedLo itemUsed clampedLo berry hiTriggers loTriggers
    healed heal healedHi healedLo at h
  split at h
  · cases h
  split at h
  · rename_i hdead
    cases h
    exact absurd hdead (not_le.2 halive)
  split at h
  · cases h
  split at h
  · cases h
  · rename_i hle
    cases h
    exact not_lt.1 hle

theorem interval_of_playerHit (h : playerHit moves ctx L = .ok (.goesOn L')) :
    L'.oLo ≤ L'.oHi := by
  rw [playerHit] at h
  split at h
  · cases h
  · obtain ⟨hit, hhit, hrest⟩ := bind_eq_ok.1 h
    cases hit with
    | none => cases hrest
    | some hit =>
      dsimp only at hrest
      split at hrest
      · cases hrest
      · rename_i halive
        cases hrest
        exact oLo_le_oHi_of_hit hhit (not_le.1 halive)

theorem oppHit_goesOn {oppMx : Int} (h : oppHit oppMx L = .goesOn L') :
    L' = { L with pw := L.pw - oppMx } := by
  rw [oppHit] at h
  split at h
  · cases h
  · exact (TurnResult.goesOn.inj h).symm

theorem interval_of_simTurnOrdered {playerFirst : Bool} {oppMx : Int}
    (h : simTurnOrdered moves ctx L playerFirst oppMx = .ok (.goesOn L')) : L'.oLo ≤ L'.oHi := by
  rw [simTurnOrdered] at h
  split at h
  · cases h
  split at h
  · obtain ⟨r, hr, hrest⟩ := bind_eq_ok.1 h
    cases r with
    | goesOn L₁ =>
      have hmid : L₁.oLo ≤ L₁.oHi := interval_of_playerHit hr
      rw [oppHit_goesOn (Except.ok.inj hrest)]
      exact hmid
    | playerDead => cases hrest
    | oppDead => cases hrest
    | unknown tag => cases hrest
  · cases hopp : oppHit oppMx L with
    | goesOn L₁ =>
      rw [hopp] at h
      exact interval_of_playerHit h
    | playerDead =>
      rw [hopp] at h
      cases h
    | oppDead =>
      rw [hopp] at h
      cases h
    | unknown tag =>
      rw [hopp] at h
      cases h

theorem mem_lines_tie {pf sf : TurnResult} (h : L' ∈ (TurnPlay.tie pf sf).lines) :
    pf = .goesOn L' ∨ sf = .goesOn L' := by
  rcases List.mem_append.1 h with h | h
  · cases pf with
    | goesOn L₁ => exact .inl (congrArg TurnResult.goesOn (List.mem_singleton.1 h).symm)
    | playerDead => cases h
    | oppDead => cases h
    | unknown tag => cases h
  · cases sf with
    | goesOn L₁ => exact .inr (congrArg TurnResult.goesOn (List.mem_singleton.1 h).symm)
    | playerDead => cases h
    | oppDead => cases h
    | unknown tag => cases h

theorem mem_lines_single {r : TurnResult} (h : L' ∈ (TurnPlay.single r).lines) :
    r = .goesOn L' := by
  cases r with
  | goesOn L₁ => exact congrArg TurnResult.goesOn (List.mem_singleton.1 h).symm
  | playerDead => cases h
  | oppDead => cases h
  | unknown tag => cases h

theorem exists_order_of_playOrders {support : List ExecAction} {p : TurnPlay}
    (h : playOrders moves ctx L support = .ok p) (hmem : L' ∈ p.lines) :
    ∃ playerFirst oppMx, simTurnOrdered moves ctx L playerFirst oppMx = .ok (.goesOn L') := by
  unfold playOrders at h
  extract_lets cur oppMx plSpd oppSpd at h
  split at h
  · obtain ⟨pf, hpf, h⟩ := bind_eq_ok.1 h
    obtain ⟨sf, hsf, h⟩ := bind_eq_ok.1 h
    split at h
    · cases h
      cases hmem
    · cases h
      cases hmem
    · cases h
      obtain rfl | rfl := mem_lines_tie hmem
      · exact ⟨true, oppMx, hpf⟩
      · exact ⟨false, oppMx, hsf⟩
  · obtain ⟨r, hr, h⟩ := bind_eq_ok.1 h
    cases h
    rw [mem_lines_single hmem] at hr
    exact ⟨_, oppMx, hr⟩

theorem exists_order_of_turnPlay {p : TurnPlay} (h : turnPlay moves ctx L = .ok p)
    (hmem : L' ∈ p.lines) :
    ∃ playerFirst oppMx, simTurnOrdered moves ctx L playerFirst oppMx = .ok (.goesOn L') := by
  rw [turnPlay] at h
  obtain ⟨-, -, h⟩ := bind_eq_ok.1 h
  split at h
  · cases h
    cases hmem
  · obtain ⟨⟨support, stable⟩, -, h⟩ := bind_eq_ok.1 h
    dsimp only at h
    split at h
    · exact exists_order_of_playOrders h hmem
    · cases h
      cases hmem

theorem Reached.interval {L₀ : LineState} (hstart : L₀.oLo ≤ L₀.oHi)
    (h : Reached (turnPlay moves ctx) L₀ L) : L.oLo ≤ L.oHi := by
  cases h with
  | start => exact hstart
  | turn _ hplay hmem =>
    obtain ⟨playerFirst, oppMx, hsim⟩ := exists_order_of_turnPlay hplay hmem
    exact interval_of_simTurnOrdered hsim

end Interval

section Sound

variable {moves : List MoveData} {ctx : RunLineCtx} {L L₀ : LineState}

/-- The state reached on a line, at an HP of the opponent; `s` has everything but the two HPs. -/
def reachedState (s : BattleState) (pw h : Int) : BattleState :=
  (s.modifyActive 0 (setHp pw)).modifyActive 1 (setHp h)

/-- The AI's possible actions in a state are these. -/
def PossibleAre (moves : List MoveData) (s : BattleState) (acts : List ExecAction) : Prop :=
  ∃ acts', possibleAiActions moves s 1 = .ok acts' ∧ ∀ a, a ∈ acts' ↔ a ∈ acts

/-- What the AI reads of the reached state is what it reads of the queried one: at the top of the
interval the state of the line, below it the entry state. -/
structure Fresh (moves : List MoveData) (ctx : RunLineCtx) (L : LineState) (s : BattleState) :
    Prop where
  top : (reachedState s L.pw L.oHi).aiView moves = (L.sync ctx).aiView moves
  below : ∀ h, L.oLo ≤ h → h < L.oHi →
    (reachedState s L.pw h).aiView moves = (templateState ctx.state0 h).aiView moves

def Optional (moves : List MoveData) (state : BattleState) (a : ExecAction) : Prop :=
  a ∈ legalActions moves state 1 ∧
    (isMoveAction a = true ∨ switchGate moves state 1 (legalActions moves state 1) = .ok true)

/-- The move slot tells the options of the two queries apart. -/
def SlotsTell (moves : List MoveData) (ctx : RunLineCtx) (L : LineState) : Prop :=
  ∀ h, L.oLo ≤ h → h < L.oHi → ∀ a b, Optional moves (templateState ctx.state0 h) a →
    Optional moves (L.sync ctx) b → a.moveSlot = b.moveSlot → a = b

theorem optional_of_possible {state : BattleState} (hsingles : state.format ≠ formatDoubles)
    {acts : List ExecAction} (h : possibleAiActions moves state 1 = .ok acts) {a : ExecAction}
    (ha : a ∈ acts) : Optional moves state a := by
  obtain ⟨probs, hprobs, hacts⟩ := bind_eq_ok.1 h
  rw [← Except.ok.inj hacts] at ha
  obtain ⟨ap, hap, rfl⟩ := List.mem_map.1 ha
  obtain ⟨hap, hpos⟩ := List.mem_filter.1 hap
  obtain ⟨run, rfl⟩ := exists_gateRun hprobs
  obtain hap | hdoubles := mem_expandDoubles hap
  · rw [gatedShares_eq] at hap
    obtain ⟨a, hlegal, rfl⟩ := List.mem_map.1 hap
    refine ⟨hlegal, or_iff_not_imp_left.2 fun hswitch => ?_⟩
    have hkind : isMoveAction a = false := Bool.eq_false_iff.2 hswitch
    have hshare : 0 < run.prob a := of_decide_eq_true hpos
    have htarget := run.target_eq
    split at htarget
    · -- the gate opens, so it was let through
      rename_i hopen
      rw [run.gate_eq, (Bool.and_eq_true_iff.1 hopen).1]
    · rw [GateRun.prob, htarget] at hshare
      exact absurd (lawShare_of_switch moves state 1 run.exc hkind) hshare.ne'
  · exact absurd hdoubles.1 hsingles

theorem format_modifyActive (state : BattleState) (i : Int) (f : PokemonState → PokemonState) :
    (state.modifyActive i f).format = state.format := by
  rw [BattleState.modifyActive, BattleState.modifyMon, BattleState.setSide]
  split
  · rfl
  · rfl

theorem format_sync (L : LineState) : (L.sync ctx).format = ctx.state0.format := by
  rw [LineState.sync, syncState]
  split
  · simp only [format_modifyActive]
  · simp only [format_modifyActive]

theorem mem_supportSet {acts : List ExecAction} {n : Int} :
    n ∈ supportSet acts ↔ ∃ a ∈ acts, a.moveSlot = n := by
  rw [supportSet, List.mem_insertionSort, List.mem_map]

def askReached (moves : List MoveData) (s : BattleState) (L : LineState) :
    Except String (List ExecAction × Bool) := do
  let support ← possibleAiActions moves (reachedState s L.pw L.oHi) 1
  let stable ←
    if L.oLo < L.oHi then
      ((List.range (L.oHi - L.oLo).toNat).map fun (k : Nat) => L.oLo + k).allM fun h => do
        let acts ← possibleAiActions moves (reachedState s L.pw h) 1
        pure (supportSet acts == supportSet support)
    else pure true
  pure (support, stable)

def reachedPlay (moves : List MoveData) (ctx : RunLineCtx) (s : LineState → BattleState)
    (L : LineState) : Except String TurnPlay := do
  checkLine L
  match pickPlayerMove moves (L.sync ctx) with
  | none => pure (.stop .scope)
  | some _ =>
    let (support, stable) ← askReached moves (s L) L
    if stable then playOrders moves ctx L support else pure (.stop .mask)

theorem allM_congr {α : Type} {f g : α → Except String Bool} {l : List α}
    (h : ∀ a ∈ l, f a = g a) : l.allM f = l.allM g := by
  induction l with
  | nil => rfl
  | cons a l ih =>
    rw [List.allM, List.allM, h a List.mem_cons_self,
      ih fun b hb => h b (List.mem_cons_of_mem a hb)]

theorem askReached_of_fresh {s : BattleState} (hfresh : Fresh moves ctx L s) :
    askReached moves s L = guardedSupport moves ctx L := by
  rw [askReached, guardedSupport, possibleAiActions_congr 1 hfresh.top]
  refine bind_congr_ok fun support _ => ?_
  rw [lineGuard]
  split
  · rename_i hlt
    rw [intervalMaskStable, if_neg hlt.ne]
    refine congrArg (· >>= fun stable => pure (support, stable)) (allM_congr fun h hh => ?_)
    obtain ⟨k, hk, rfl⟩ := List.mem_map.1 hh
    have hk : k < (L.oHi - L.oLo).toNat := List.mem_range.1 hk
    rw [possibleAiActions_congr 1 (hfresh.below _ (by omega) (by omega))]
    rfl
  · rfl

/-- A race whose reached lines are all fresh is the race that asks the AI in the reached states. -/
theorem runLine_of_fresh {s : LineState → BattleState}
    (hfresh : ∀ L, Reached (turnPlay moves ctx) L₀ L → Fresh moves ctx L (s L)) (levels : Nat) :
    runLine (reachedPlay moves ctx s) levels L₀ = runLine (turnPlay moves ctx) levels L₀ := by
  refine runLine_congr (fun L hL => ?_) levels
  unfold reachedPlay turnPlay
  refine bind_congr_ok fun _ _ => ?_
  cases pickPlayerMove moves (L.sync ctx) with
  | none => rfl
  | some best =>
    exact congrArg (fun x => x >>= fun asked =>
      if asked.2 = true then playOrders moves ctx L asked.1 else pure (.stop .mask))
      (askReached_of_fresh (hfresh L hL))

end Sound

section Stale

theorem damageLevels_eq : damageLevels = fun hp arrays =>
    ((arrays.flatMap fun rolls => (List.finRange 16).map (capped hp rolls)).dedup).insertionSort
      (· ≥ ·) := by
  funext hp arrays
  exact List.mergeSort_eq_insertionSort (r := (· ≥ ·)) _

theorem distinctSorted_eq : distinctSorted = fun l => (l.insertionSort (· ≤ ·)).dedup := by
  funext l
  exact congrArg List.dedup (List.mergeSort_eq_insertionSort (r := (· ≤ ·)) _)

theorem eq_ok_of_toOption {ε α : Type} {x : Except ε α} {a : α} (h : x.toOption = some a) :
    x = .ok a := by
  cases x with
  | error e => cases h
  | ok b => exact congrArg Except.ok (Option.some.inj h)

def poundData : ScopeMoveData :=
  { moveId := 1, moveType := 0, category := 0, basePower := 40, tags := 129 }

def vineWhipData : ScopeMoveData :=
  { moveId := 22, moveType := 4, category := 0, basePower := 45, tags := 129 }

def strengthData : ScopeMoveData :=
  { moveId := 70, moveType := 0, category := 0, basePower := 80, tags := 129 }

def raceTable : List ScopeMoveData := [poundData, vineWhipData, strengthData]

def raceMoves : List MoveData := raceTable.map (·.toMoveData)

def racePlayer : PokemonState :=
  { level := 10
    moveId0 := 1, movePp0 := 35
    hasStats := true
    statHp := 42, statAtk := 8, statDef := 16, statSpa := 10, statSpd := 16, statSpe := 20
    hasMaxHp := true, maxHp := 42, hasHp := true, hp := 42
    hasTypes := true, types := ⟨[1], by decide⟩ }

def raceOpponent : PokemonState :=
  { level := 10
    ability := 65
    moveId0 := 70, moveId1 := 22, movePp0 := 15, movePp1 := 25
    hasStats := true
    statHp := 30, statAtk := 30, statDef := 30, statSpa := 10, statSpd := 16, statSpe := 10
    hasMaxHp := true, maxHp := 30, hasHp := true, hp := 13
    hasTypes := true, types := ⟨[4], by decide⟩ }

def raceState : BattleState :=
  { side0 := { team := ⟨[racePlayer], by decide⟩, activeIndices := firstActive }
    side1 := { team := ⟨[raceOpponent], by decide⟩, activeIndices := firstActive }
    expParticipants := ⟨[⟨⟨[0], by decide⟩⟩], by decide⟩ }

def usedFirstSlot (moveId : Int32) (mon : PokemonState) : PokemonState :=
  { mon with
    movePp0 := mon.movePp0 - 1
    lastUsedSlot := 0
    movesUsed := 1
    hasActed := true
    mirrorMoveLastMove := moveId
    turnsInBattle := 1 }

def raceReached : BattleState :=
  { (raceState.modifyActive 0 (usedFirstSlot 1)).modifyActive 1 (usedFirstSlot 70) with
    battleLastMove := 70
    turnNumber := 2
    turnOrder := ⟨[0, 1], by decide⟩
    prevTurnOrder := ⟨[0, 1], by decide⟩ }

def raceLine : LineState := ⟨12, 42, 9, 11, false, true⟩

theorem raceState_inScope : fullScopeCheck raceTable raceState {} = 0 := by
  unfold fullScopeCheck effectiveSlot queryDamageTable damageTableOf
  rw [distinctSorted_eq]
  decide +kernel

theorem raceLine_reached :
    Reached (certifierPlay raceTable raceState) (startLine raceState) raceLine := by
  have hplay : (certifierPlay raceTable raceState (startLine raceState)).toOption =
      some (.single (.goesOn raceLine)) := by
    unfold certifierPlay turnPlay guardedSupport playOrders oppMaxDamage simTurnOrdered playerHit
      pickPlayerMove playerTable queryDamageTable damageTableOf possibleAiActions
      computeActionProbabilities moveProbs iterDamageConfigs
    rw [damageLevels_eq, distinctSorted_eq]
    decide +kernel
  exact .turn .start (eq_ok_of_toOption hplay) (List.mem_singleton.2 rfl)

/-- Against 12 HP only Strength is highest, until Overgrow lets Vine Whip kill as well. -/
theorem race_possible :
    ((possibleAiActions raceMoves (raceLine.sync (certifierCtx raceState)) 1).toOption,
      (possibleAiActions raceMoves (reachedState raceReached 12 10) 1).toOption) =
      (some [makeMoveAction 0], some [makeMoveAction 0, makeMoveAction 1]) := by
  unfold possibleAiActions computeActionProbabilities moveProbs iterDamageConfigs
  rw [damageLevels_eq]
  decide +kernel

theorem race_template :
    ∀ h ∈ ([9, 10] : List Int),
      (possibleAiActions raceMoves (templateState raceState h) 1).toOption =
        some [makeMoveAction 0] := by
  unfold possibleAiActions computeActionProbabilities moveProbs iterDamageConfigs
  rw [damageLevels_eq]
  decide +kernel

theorem mem_raceHps {h : Int} (hlo : 9 ≤ h) (hhi : h < 11) : h ∈ ([9, 10] : List Int) := by
  simp only [List.mem_cons, List.not_mem_nil, or_false]
  omega

theorem race_guarded :
    guardedSupport raceMoves (certifierCtx raceState) raceLine = .ok ([makeMoveAction 0], true) := by
  apply (guardedSupport_iff (by decide)).2
  refine ⟨eq_ok_of_toOption (congrArg Prod.fst race_possible), fun h hlo hhi => ?_⟩
  exact ⟨[makeMoveAction 0], eq_ok_of_toOption (race_template h (mem_raceHps hlo hhi)), rfl⟩

theorem race_killed_by_vineWhip :
    ¬ PossibleAre raceMoves (reachedState raceReached raceLine.pw 10) [makeMoveAction 0] := by
  rintro ⟨acts, hacts, hmem⟩
  have hboth : possibleAiActions raceMoves (reachedState raceReached raceLine.pw 10) 1 =
      .ok [makeMoveAction 0, makeMoveAction 1] :=
    eq_ok_of_toOption (congrArg Prod.snd race_possible)
  cases hboth.symm.trans hacts
  exact absurd ((hmem (makeMoveAction 1)).1 (by decide)) (by decide)

def rockOpponent : PokemonState :=
  { raceOpponent with moveId1 := 0, movePp1 := 0, types := ⟨[typeRock, typeSteel], by decide⟩ }

def rockState : BattleState :=
  { raceState with
    side1 := { team := ⟨[rockOpponent], by decide⟩, activeIndices := firstActive } }

def rockReached : BattleState :=
  { (rockState.modifyActive 0 (usedFirstSlot 1)).modifyActive 1 (usedFirstSlot 70) with
    battleLastMove := 70
    turnNumber := 2
    turnOrder := ⟨[0, 1], by decide⟩
    prevTurnOrder := ⟨[0, 1], by decide⟩ }

def rockLine : LineState := ⟨12, 42, 12, 12, false, true⟩

theorem rockLine_reached :
    Reached (certifierPlay raceTable rockState) (startLine rockState) rockLine := by
  have hplay : (certifierPlay raceTable rockState (startLine rockState)).toOption =
      some (.single (.goesOn rockLine)) := by
    unfold certifierPlay turnPlay guardedSupport playOrders oppMaxDamage simTurnOrdered playerHit
      pickPlayerMove playerTable queryDamageTable damageTableOf possibleAiActions
      computeActionProbabilities moveProbs iterDamageConfigs
    rw [damageLevels_eq, distinctSorted_eq]
    decide +kernel
  exact .turn .start (eq_ok_of_toOption hplay) (List.mem_singleton.2 rfl)

theorem rock_possible :
    (possibleAiActions raceMoves (rockLine.sync (certifierCtx rockState)) 1).toOption =
      some [makeMoveAction 0] := by
  unfold possibleAiActions computeActionProbabilities moveProbs iterDamageConfigs
  rw [damageLevels_eq]
  decide +kernel

theorem rock_guarded :
    guardedSupport raceMoves (certifierCtx rockState) rockLine = .ok ([makeMoveAction 0], true) := by
  apply (guardedSupport_iff (by decide)).2
  refine ⟨eq_ok_of_toOption rock_possible, fun h hlo hhi => ?_⟩
  exact absurd (lt_of_le_of_lt hlo hhi) (lt_irrefl 12)

theorem rock_fresh : Fresh raceMoves (certifierCtx rockState) rockLine rockReached where
  top := rfl
  below _ hlo hhi := absurd (lt_of_le_of_lt hlo hhi) (lt_irrefl 12)

def entryLine : LineState := ⟨42, 42, 9, 11, false, true⟩

theorem entry_guarded :
    guardedSupport raceMoves (certifierCtx raceState) entryLine =
      .ok ([makeMoveAction 0], true) := by
  have htop : (possibleAiActions raceMoves (entryLine.sync (certifierCtx raceState)) 1).toOption =
      some [makeMoveAction 0] := by
    unfold possibleAiActions computeActionProbabilities moveProbs iterDamageConfigs
    rw [damageLevels_eq]
    decide +kernel
  apply (guardedSupport_iff (by decide)).2
  refine ⟨eq_ok_of_toOption htop, fun h hlo hhi => ?_⟩
  exact ⟨[makeMoveAction 0], eq_ok_of_toOption (race_template h (mem_raceHps hlo hhi)), rfl⟩

theorem entry_slotsTell : SlotsTell raceMoves (certifierCtx raceState) entryLine := by
  intro h hlo hhi a b ha hb hslot
  have hlegal : ∀ h ∈ ([9, 10] : List Int), legalActions raceMoves (templateState raceState h) 1 =
      [makeMoveAction 0, makeMoveAction 1] := by decide +kernel
  have hlegal := hlegal h (mem_raceHps hlo hhi)
  have hlegal' : legalActions raceMoves (entryLine.sync (certifierCtx raceState)) 1 =
      [makeMoveAction 0, makeMoveAction 1] := by decide +kernel
  have ha := hlegal ▸ ha.1
  have hb := hlegal' ▸ hb.1
  simp only [List.mem_cons, List.not_mem_nil, or_false] at ha hb
  obtain rfl | rfl := ha <;> obtain rfl | rfl := hb <;> first | rfl | cases hslot

theorem entry_fresh : Fresh raceMoves (certifierCtx raceState) entryLine raceState where
  top := rfl
  below _ _ _ := rfl

end Stale

end Engine

end NuzlockeSolver
