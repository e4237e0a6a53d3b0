import NuzlockeSolver.Basic
import NuzlockeSolver.Engine.AiLaw

/-!
# The analytic distribution and the policy

The analytic probabilities are a distribution over the legal actions, and they are those of the
sampling policy exactly when the switch gate cannot tell drawn scores from possible scores.
-/

namespace NuzlockeSolver

namespace Engine

open WeightedList

section Shares

variable (moves : List MoveData) (state : BattleState) (aiIdx : Int)

def targetHp : Int := (activeMon state (1 - aiIdx)).hp.toInt

def legalActions : List ExecAction := enumerateLegalActions moves state aiIdx 0

def legalLaw (exc : Bool) : List (List (ExecAction × Int) × ℚ) :=
  scoreLaw moves state aiIdx (legalActions moves state aiIdx) (targetHp state aiIdx) exc

def lawShare (exc : Bool) (a : ExecAction) : ℚ :=
  avg (legalLaw moves state aiIdx exc) (leaderShare a)

theorem legalShape_of_mem : ∀ a ∈ legalActions moves state aiIdx, LegalShape a :=
  fun _ ha => legalShape ha

theorem nodup_legalActions : (legalActions moves state aiIdx).Nodup :=
  nodup_enumerateLegalActions moves state aiIdx 0

theorem moveProbs_eq_map (exc : Bool) :
    moveProbs moves state aiIdx (legalActions moves state aiIdx)
      (buildDamageContext moves state aiIdx (legalActions moves state aiIdx))
      (targetHp state aiIdx) exc =
      (legalActions moves state aiIdx).map (lawShare moves state aiIdx exc) := by
  apply List.ext_getElem?
  intro i
  rw [getElem?_moveProbs moves state aiIdx (legalShape_of_mem moves state aiIdx)
    (nodup_legalActions moves state aiIdx), List.getElem?_map]
  rfl

theorem lawShare_nonneg (exc : Bool) (a : ExecAction) : 0 ≤ lawShare moves state aiIdx exc a := by
  apply (positive_scoreLaw moves state aiIdx _ _ exc).avg_nonneg
  intro ps _
  exact div_nonneg (Nat.cast_nonneg _) (Nat.cast_nonneg _)

theorem lawShare_of_switch (exc : Bool) {a : ExecAction} (ha : isMoveAction a = false) :
    lawShare moves state aiIdx exc a = 0 := by
  have hzero : ∀ psw ∈ legalLaw moves state aiIdx exc, (leaderShare a psw.1 : ℚ) = 0 := by
    intro psw hpsw
    apply leaderShare_eq_zero
    rintro as has rfl
    have hmove := (mem_of_scoreLaw moves state aiIdx (List.mem_map_of_mem hpsw) has).2
    rw [ha] at hmove
    cases hmove
  rw [lawShare, avg_congr (g := fun _ => 0) hzero, avg_const, mul_zero]

theorem sum_lawShare (exc : Bool) :
    ((legalActions moves state aiIdx).map (lawShare moves state aiIdx exc)).sum = 1 := by
  have hdraw : ∀ psw ∈ legalLaw moves state aiIdx exc,
      ((legalActions moves state aiIdx).map fun a => (leaderShare a psw.1 : ℚ)).sum = 1 := by
    intro psw hpsw
    have hmem := List.mem_map_of_mem (f := Prod.fst) hpsw
    apply sum_leaderShare
    · exact ne_nil_of_scoreLaw moves state aiIdx (exists_legal_move moves state aiIdx 0) hmem
    · exact nodup_legalActions moves state aiIdx
    · intro as has
      exact (mem_of_scoreLaw moves state aiIdx hmem has).1
  have hswap := avg_sum (legalLaw moves state aiIdx exc) (legalActions moves state aiIdx) leaderShare
  rw [avg_congr (g := fun _ => 1) hdraw, ← mass_eq_avg] at hswap
  exact hswap.trans (mass_scoreLaw moves state aiIdx _ _ exc)

end Shares

section Analytic

variable {moves : List MoveData} {state : BattleState} {aiIdx : Int}

def gateOpens (moves : List MoveData) (state : BattleState) (aiIdx : Int) (gate : Bool) : Bool :=
  gate && allMovesLow moves state aiIdx (legalActions moves state aiIdx)
    (buildDamageContext moves state aiIdx (legalActions moves state aiIdx)) (targetHp state aiIdx)

structure GateRun (moves : List MoveData) (state : BattleState) (aiIdx : Int) where
  exc : Bool
  gate : Bool
  target : Option ExecAction
  exc_eq : exceptionMoveSeesKill moves state aiIdx = .ok exc
  gate_eq : switchGate moves state aiIdx (legalActions moves state aiIdx) = .ok gate
  target_eq :
    if gateOpens moves state aiIdx gate then
      ∃ slot, selectVoluntarySwitchTarget moves state aiIdx = .ok slot ∧
        target = switchTo ((legalActions moves state aiIdx).filter (!isMoveAction ·)) slot
    else target = none

def gatedShares (run : GateRun moves state aiIdx) : List ActionProb :=
  gatedProbs (legalActions moves state aiIdx)
    ((legalActions moves state aiIdx).map (lawShare moves state aiIdx run.exc)) run.target

theorem legalActions_ne_nil : (legalActions moves state aiIdx).isEmpty = false := by
  obtain ⟨a, ha, -⟩ := exists_legal_move moves state aiIdx 0
  exact List.isEmpty_eq_false_iff.2 (List.ne_nil_of_mem ha)

theorem exists_gateRun {probs : List ActionProb}
    (h : computeActionProbabilities moves state aiIdx = .ok probs) :
    ∃ run : GateRun moves state aiIdx, probs = expandDoubles moves state aiIdx (gatedShares run) := by
  have hempty : (enumerateLegalActions moves state aiIdx 0).isEmpty = false := legalActions_ne_nil
  simp only [computeActionProbabilities, hempty, Bool.false_eq_true, if_false] at h
  obtain ⟨exc, hexc, h⟩ := bind_eq_ok.1 h
  obtain ⟨gate, hgate, h⟩ := bind_eq_ok.1 h
  split at h
  · rename_i hopen
    obtain ⟨slot, hslot, h⟩ := bind_eq_ok.1 h
    refine ⟨⟨exc, gate, switchTo ((legalActions moves state aiIdx).filter (!isMoveAction ·)) slot,
      hexc, hgate, ?_⟩, ?_⟩
    · rw [if_pos (show gateOpens moves state aiIdx gate = true from hopen)]
      exact ⟨slot, hslot, rfl⟩
    · rw [← Except.ok.inj h, gatedShares, ← moveProbs_eq_map]
      rfl
  · rename_i hclosed
    refine ⟨⟨exc, gate, none, hexc, hgate, ?_⟩, ?_⟩
    · rw [if_neg (show ¬ gateOpens moves state aiIdx gate = true from hclosed)]
    · rw [← Except.ok.inj h, gatedShares, ← moveProbs_eq_map]
      rfl

theorem switchTo_switch {actions : List ExecAction} {slot : Nat} {t : ExecAction}
    (h : switchTo (actions.filter (!isMoveAction ·)) slot = some t) :
    t ∈ actions ∧ isMoveAction t = false := by
  have hmem : t ∈ actions.filter (!isMoveAction ·) := by
    obtain hfind | ⟨-, hhead⟩ := Option.or_eq_some_iff.1 h
    · exact List.mem_of_find?_eq_some hfind
    · exact List.mem_of_mem_head? hhead
  simpa using List.mem_filter.1 hmem

theorem GateRun.target_switch (run : GateRun moves state aiIdx) {t : ExecAction}
    (h : run.target = some t) :
    t ∈ legalActions moves state aiIdx ∧ isMoveAction t = false := by
  have htarget := run.target_eq
  split at htarget
  · obtain ⟨slot, -, heq⟩ := htarget
    rw [h] at heq
    exact switchTo_switch heq.symm
  · rw [htarget] at h
    cases h

/-- The probability that the analytic distribution gives to a legal action. -/
def GateRun.prob (run : GateRun moves state aiIdx) (a : ExecAction) : ℚ :=
  match run.target with
  | none => lawShare moves state aiIdx run.exc a
  | some t =>
    if isMoveAction a then lawShare moves state aiIdx run.exc a / 2 else if a = t then 1 / 2 else 0

theorem gatedShares_eq (run : GateRun moves state aiIdx) :
    gatedShares run =
      (legalActions moves state aiIdx).map fun a => (⟨a, run.prob a⟩ : ActionProb) := by
  rw [gatedShares]
  cases htarget : run.target with
  | none =>
    rw [gatedProbs, ← List.map_prod_left_eq_zip, List.map_map]
    refine List.map_congr_left fun a _ => ?_
    simp only [Function.comp_apply, GateRun.prob, htarget]
  | some t =>
    rw [gatedProbs, ← List.map_prod_left_eq_zip, List.map_map]
    refine List.map_congr_left fun a _ => ?_
    simp only [Function.comp_apply, GateRun.prob, htarget]
    split <;> rfl

theorem GateRun.prob_nonneg (run : GateRun moves state aiIdx) (a : ExecAction) :
    0 ≤ run.prob a := by
  have hshare := lawShare_nonneg moves state aiIdx run.exc a
  rw [GateRun.prob]
  split
  · exact hshare
  · split_ifs
    · positivity
    · norm_num
    · exact le_rfl

theorem GateRun.sum_prob (run : GateRun moves state aiIdx) :
    ((legalActions moves state aiIdx).map run.prob).sum = 1 := by
  have hsum := sum_lawShare moves state aiIdx run.exc
  cases htarget : run.target with
  | none =>
    rw [← hsum]
    refine congrArg List.sum (List.map_congr_left fun a _ => ?_)
    simp only [GateRun.prob, htarget]
  | some t =>
    obtain ⟨ht, hswitch⟩ := run.target_switch htarget
    have hsplit : ∀ a, run.prob a =
        lawShare moves state aiIdx run.exc a / 2 + if t = a then 1 / 2 else 0 := by
      intro a
      simp only [GateRun.prob, htarget]
      cases hmove : isMoveAction a with
      | true =>
        have hne : t ≠ a := by
          rintro rfl
          rw [hmove] at hswitch
          cases hswitch
        rw [if_pos rfl, if_neg hne, add_zero]
      | false =>
        rw [if_neg Bool.false_ne_true, lawShare_of_switch moves state aiIdx run.exc hmove, zero_div,
          zero_add]
        simp only [eq_comm]
    have hone := sum_single (nodup_legalActions moves state aiIdx) ht fun _ => (1 / 2 : ℚ)
    rw [List.map_congr_left fun a _ => hsplit a, List.sum_map_add, hone]
    simp only [div_eq_mul_inv]
    rw [List.sum_map_mul_right, hsum]
    norm_num

theorem sum_expandDoubles (probs : List ActionProb) :
    ((expandDoubles moves state aiIdx probs).map (·.prob)).sum = (probs.map (·.prob)).sum := by
  unfold expandDoubles
  split
  · induction probs with
    | nil => rfl
    | cons ap probs ih =>
      rw [List.flatMap_cons, List.map_append, List.sum_append, ih, List.map_cons, List.sum_cons]
      refine congrArg (· + _) ?_
      dsimp only
      split
      · simp
      · simp
  · rfl

theorem mem_expandDoubles {probs : List ActionProb} {ap : ActionProb}
    (h : ap ∈ expandDoubles moves state aiIdx probs) :
    ap ∈ probs ∨ state.format = formatDoubles ∧ ∃ bp ∈ probs, ap.prob = bp.prob / 2 ∧
      (ap.action = bp.action ∨ ap.action = { bp.action with targetSlot := 1 }) := by
  unfold expandDoubles at h
  split at h
  · rename_i hdoubles
    obtain ⟨bp, hbp, h⟩ := List.mem_flatMap.1 h
    dsimp only at h
    split at h
    · refine .inr ⟨hdoubles.1, bp, hbp, ?_⟩
      obtain rfl | h := List.mem_cons.1 h
      · exact ⟨rfl, .inl rfl⟩
      · rw [List.mem_singleton.1 h]
        exact ⟨rfl, .inr rfl⟩
    · rw [List.mem_singleton.1 h]
      exact .inl hbp
  · exact .inl h

end Analytic

section Total

variable {moves : List MoveData} {state : BattleState} {aiIdx : Int}

/-- Every move of a team member has data. -/
def MovesKnown (moves : List MoveData) (state : BattleState) : Prop :=
  ∀ side ∈ [state.side0, state.side1], ∀ mon ∈ side.team.toList, ∀ slot ∈ ([0, 1, 2, 3] : List Int),
    moveIdAt mon slot = moveNone ∨ (moveDataGet moves (moveIdAt mon slot)).isSome = true

theorem lookupMove_of_isSome {moveId : Int32} (h : (moveDataGet moves moveId).isSome = true) :
    ∃ md, lookupMove moves moveId = .ok md := by
  obtain ⟨md, hmd⟩ := Option.isSome_iff_exists.1 h
  refine ⟨md, ?_⟩
  rw [lookupMove]
  rw [moveDataGet] at hmd
  rw [hmd]

theorem known_of_monAt (h : MovesKnown moves state) (ref : MonRef) {slot : Int}
    (hslot : slot ∈ ([0, 1, 2, 3] : List Int)) :
    moveIdAt (monAt state ref) slot = moveNone ∨
      ∃ md, lookupMove moves (moveIdAt (monAt state ref) slot) = .ok md := by
  have hside : state.side ref.side ∈ [state.side0, state.side1] := by
    unfold BattleState.side
    split <;> simp
  rw [monAt, SideState.mon, List.getD_eq_getElem?_getD]
  cases hmon : (state.side ref.side).team.toList[ref.idx.toInt.toNat]? with
  | some mon =>
    exact (h _ hside mon (List.mem_of_getElem? hmon) slot hslot).imp_right lookupMove_of_isSome
  | none =>
    left
    simp only [List.mem_cons, List.not_mem_nil, or_false] at hslot
    obtain rfl | rfl | rfl | rfl := hslot <;> rfl

theorem foldlM_ok {α β : Type} {f : β → α → Except String β} {P : β → Prop} {l : List α}
    (hstep : ∀ b, P b → ∀ a ∈ l, ∃ b', f b a = .ok b' ∧ P b') {b : β} (hb : P b) :
    ∃ b', l.foldlM f b = .ok b' ∧ P b' := by
  induction l generalizing b with
  | nil => exact ⟨b, rfl, hb⟩
  | cons a l ih =>
    obtain ⟨c, hc, hP⟩ := hstep b hb a List.mem_cons_self
    obtain ⟨d, hd, hP⟩ := ih (fun b hb a' ha' => hstep b hb a' (List.mem_cons_of_mem _ ha')) hP
    refine ⟨d, ?_, hP⟩
    rw [List.foldlM_cons, hc]
    exact hd

theorem bestDamageMove_ok (h : MovesKnown moves state) (atk defn : MonRef)
    (opts : EstimateOptions) :
    ∃ m, bestDamageMove moves state atk defn opts = .ok m ∧
      (m = moveNone ∨ ∃ md, lookupMove moves m = .ok md) := by
  have hstep : ∀ best : Int32 × Int, (best.1 = moveNone ∨ ∃ md, lookupMove moves best.1 = .ok md) →
      ∀ slot ∈ ([0, 1, 2, 3] : List Int), ∃ best', (do
        let moveId := moveIdAt (monAt state atk) slot
        if moveId = moveNone then pure best
        else
          let md ← lookupMove moves moveId
          let dmg := expectedDamage state atk md defn opts
          pure (if best.2 < dmg then (moveId, dmg) else best) : Except String (Int32 × Int)) =
        .ok best' ∧ (best'.1 = moveNone ∨ ∃ md, lookupMove moves best'.1 = .ok md) := by
    intro best hbest slot hslot
    dsimp only
    split
    · exact ⟨best, rfl, hbest⟩
    · rename_i hne
      obtain ⟨md, hmd⟩ := (known_of_monAt h atk hslot).resolve_left hne
      refine ⟨_, by rw [hmd]; rfl, ?_⟩
      split
      · exact .inr ⟨md, hmd⟩
      · exact hbest
  obtain ⟨best, hbest, hP⟩ := foldlM_ok hstep (b := (moveNone, (0 : Int))) (.inl rfl)
  refine ⟨best.1, ?_, hP⟩
  rw [bestDamageMove]
  refine Eq.trans (congrArg (· >>= _) hbest) rfl

theorem bestMoveDamage_ok (h : MovesKnown moves state) (atk defn : MonRef) :
    ∃ d, bestMoveDamage moves state atk defn = .ok d := by
  obtain ⟨m, hm, hknown⟩ := bestDamageMove_ok h atk defn switchEstimate
  rw [bestMoveDamage, hm]
  by_cases hnone : m = moveNone
  · exact ⟨none, if_pos hnone⟩
  · obtain ⟨md, hmd⟩ := hknown.resolve_left hnone
    refine ⟨some (expectedDamage state atk md defn switchEstimate), (if_neg hnone).trans ?_⟩
    rw [hmd]
    rfl

theorem koesWithBestMove_ok (h : MovesKnown moves state) (atk defn : MonRef) :
    ∃ b, koesWithBestMove moves state atk defn = .ok b := by
  obtain ⟨m, hm, hknown⟩ := bestDamageMove_ok h atk defn switchEstimate
  rw [koesWithBestMove, hm]
  by_cases hnone : m = moveNone
  · exact ⟨false, if_pos hnone⟩
  · obtain ⟨md, hmd⟩ := hknown.resolve_left hnone
    refine ⟨canKo state atk md defn switchEstimate, (if_neg hnone).trans ?_⟩
    rw [hmd]
    rfl

theorem cond2ValidSlots_ok (h : MovesKnown moves state) :
    ∃ valid, cond2ValidSlots moves state aiIdx = .ok valid := by
  have hstep : ∀ st : Bool × List Nat, True → ∀ slot ∈ benchSlots state aiIdx,
      ∃ st', cond2Step moves state aiIdx st slot = .ok st' ∧ True := by
    intro st _ slot _
    obtain ⟨ohko, hohko⟩ :=
      koesWithBestMove_ok h (activeRef state (1 - aiIdx)) (benchRef aiIdx slot)
    obtain ⟨d, hd⟩ := bestMoveDamage_ok h (activeRef state (1 - aiIdx)) (benchRef aiIdx slot)
    rw [cond2Step]
    dsimp only
    split
    · rw [hohko]
      exact ⟨_, rfl, trivial⟩
    · rw [survivesTwoHits, hd]
      exact ⟨_, rfl, trivial⟩
  obtain ⟨st, hst, -⟩ := foldlM_ok hstep (b := (false, [])) trivial
  refine ⟨st.2, ?_⟩
  rw [cond2ValidSlots, hst]
  rfl

theorem postKoSwitchScore_ok (h : MovesKnown moves state) (bench player : MonRef) :
    ∃ score, postKoSwitchScore moves state bench player = .ok score := by
  obtain ⟨b, hb⟩ := koesWithBestMove_ok h bench player
  obtain ⟨p, hp⟩ := koesWithBestMove_ok h player bench
  obtain ⟨d, hd⟩ := bestMoveDamage_ok h bench player
  obtain ⟨e, he⟩ := bestMoveDamage_ok h player bench
  rw [postKoSwitchScore, hb, hp, hd, he]
  exact ⟨_, rfl⟩

def targetStep (moves : List MoveData) (state : BattleState) (aiIdx : Int)
    (best : Option (Nat × Int)) (slot : Nat) : Except String (Option (Nat × Int)) := do
  let score ← postKoSwitchScore moves state (benchRef aiIdx slot) (activeRef state (1 - aiIdx))
  pure (match best with
    | none => some (slot, score)
    | some b => if b.2 < score then some (slot, score) else some b)

theorem targetStep_ok (h : MovesKnown moves state) (best : Option (Nat × Int)) (slot : Nat) :
    ∃ best', targetStep moves state aiIdx best slot = .ok best' ∧ best'.isSome = true := by
  obtain ⟨score, hscore⟩ :=
    postKoSwitchScore_ok h (benchRef aiIdx slot) (activeRef state (1 - aiIdx))
  rw [targetStep, hscore]
  cases best with
  | none => exact ⟨_, rfl, rfl⟩
  | some b =>
    refine ⟨_, rfl, ?_⟩
    dsimp only
    split <;> rfl

theorem selectVoluntarySwitchTarget_ok (h : MovesKnown moves state)
    (hvalid : hasValidSwitchCandidate moves state aiIdx = .ok true) :
    ∃ slot, selectVoluntarySwitchTarget moves state aiIdx = .ok slot := by
  have hslots : ∃ valid, cond2ValidSlots moves state aiIdx = .ok valid := cond2ValidSlots_ok h
  obtain ⟨valid, hslots⟩ := hslots
  rw [hasValidSwitchCandidate, hslots] at hvalid
  cases valid with
  | nil => cases hvalid
  | cons slot rest =>
    obtain ⟨first, hfirst, hsome⟩ := targetStep_ok h none slot
    obtain ⟨best, hbest, hsome⟩ := foldlM_ok (l := rest) (P := fun b => b.isSome = true)
      (fun b _ slot _ => targetStep_ok h b slot) hsome
    obtain ⟨b, rfl⟩ := Option.isSome_iff_exists.1 hsome
    refine ⟨b.1, ?_⟩
    rw [selectVoluntarySwitchTarget, hslots, ok_bind]
    change ((slot :: rest).foldlM (targetStep moves state aiIdx) none >>= _) = _
    rw [List.foldlM_cons, hfirst]
    exact congrArg (· >>= _) hbest

theorem exceptionMoveSeesKill_ok (h : MovesKnown moves state) :
    ∃ exc, exceptionMoveSeesKill moves state aiIdx = .ok exc := by
  have hslot : ∀ l : List Int, (∀ s ∈ l, s ∈ ([0, 1, 2, 3] : List Int)) → ∃ exc,
      (l.anyM fun slot => do
        let moveId := moveIdAt (activeMon state aiIdx) slot
        if moveId = moveNone ∨ movePpAt (activeMon state aiIdx) slot = 0 then pure false
        else if ¬ isTrapping moveId ∧ moveId ≠ moveFutureSight then pure false
        else
          let md ← lookupMove moves moveId
          pure (seesOwnKill state aiIdx md) : Except String Bool) = .ok exc := by
    intro l hl
    induction l with
    | nil => exact ⟨false, rfl⟩
    | cons s l ih =>
      obtain ⟨rest, hrest⟩ := ih fun t ht => hl t (List.mem_cons_of_mem _ ht)
      rw [List.anyM]
      dsimp only
      split
      · exact ⟨rest, hrest⟩
      · rename_i hnone
        split
        · exact ⟨rest, hrest⟩
        · have hknown := known_of_monAt h (activeRef state aiIdx) (hl s List.mem_cons_self)
          obtain ⟨md, hmd⟩ := hknown.resolve_left fun heq => hnone (.inl heq)
          have hmd' : lookupMove moves (moveIdAt (activeMon state aiIdx) s) = .ok md := hmd
          rw [hmd']
          cases hkill : seesOwnKill state aiIdx md with
          | true => exact ⟨true, by simp only [bind, Except.bind, hkill, pure, Except.pure]⟩
          | false =>
            refine ⟨rest, ?_⟩
            simp only [bind, Except.bind, hkill, pure, Except.pure]
            exact hrest
  exact hslot _ fun _ hs => hs

theorem switchGate_ok (h : MovesKnown moves state) (actions : List ExecAction) :
    ∃ gate, switchGate moves state aiIdx actions = .ok gate ∧
      (gate = true → hasValidSwitchCandidate moves state aiIdx = .ok true) := by
  rw [switchGate]
  split
  · have hslots : ∃ valid, cond2ValidSlots moves state aiIdx = .ok valid := cond2ValidSlots_ok h
    obtain ⟨valid, hslots⟩ := hslots
    rw [hasValidSwitchCandidate, hslots]
    exact ⟨!valid.isEmpty, rfl, fun hgate => congrArg Except.ok hgate⟩
  · exact ⟨false, rfl, fun hgate => absurd hgate Bool.false_ne_true⟩

theorem computeActionProbabilities_ok (h : MovesKnown moves state) :
    ∃ probs, computeActionProbabilities moves state aiIdx = .ok probs := by
  have hexc : ∃ exc, exceptionMoveSeesKill moves state aiIdx = .ok exc := exceptionMoveSeesKill_ok h
  have hgate : ∃ gate, switchGate moves state aiIdx (enumerateLegalActions moves state aiIdx 0) =
      .ok gate ∧ (gate = true → hasValidSwitchCandidate moves state aiIdx = .ok true) :=
    switchGate_ok h _
  obtain ⟨exc, hexc⟩ := hexc
  obtain ⟨gate, hgate, hvalid⟩ := hgate
  have hempty : (enumerateLegalActions moves state aiIdx 0).isEmpty = false := legalActions_ne_nil
  simp only [computeActionProbabilities, hempty, Bool.false_eq_true, if_false, hexc, hgate]
  cases gate with
  | false => exact ⟨_, rfl⟩
  | true =>
    obtain ⟨slot, hslot⟩ := selectVoluntarySwitchTarget_ok h (hvalid rfl)
    simp only [hslot]
    cases allMovesLow moves state aiIdx (enumerateLegalActions moves state aiIdx 0)
        (buildDamageContext moves state aiIdx (enumerateLegalActions moves state aiIdx 0))
        (activeMon state (1 - aiIdx)).hp.toInt with
    | true => exact ⟨_, rfl⟩
    | false => exact ⟨_, rfl⟩

end Total

section Distribution

/-- With data for every move the analytic distribution is computed; whatever it returns are
probabilities of legal actions, up to the target slot of the doubles expansion, that add up to
one. -/
theorem actionProbabilities_distribution (moves : List MoveData) (state : BattleState)
    (aiIdx : Int) :
    (MovesKnown moves state → ∃ probs, computeActionProbabilities moves state aiIdx = .ok probs) ∧
    ∀ probs, computeActionProbabilities moves state aiIdx = .ok probs →
      (∀ p ∈ probs, p.action ∈ enumerateLegalActions moves state aiIdx 0 ∨
        state.format = formatDoubles ∧ ∃ a ∈ enumerateLegalActions moves state aiIdx 0,
          p.action = { a with targetSlot := 1 }) ∧
      (∀ p ∈ probs, 0 ≤ p.prob) ∧ (probs.map (·.prob)).sum = 1 := by
  refine ⟨computeActionProbabilities_ok, fun probs h => ?_⟩
  obtain ⟨run, rfl⟩ := exists_gateRun h
  have hmem : ∀ p ∈ gatedShares run, p.action ∈ legalActions moves state aiIdx ∧ 0 ≤ p.prob := by
    intro p hp
    rw [gatedShares_eq] at hp
    obtain ⟨a, ha, rfl⟩ := List.mem_map.1 hp
    exact ⟨ha, run.prob_nonneg a⟩
  refine ⟨fun p hp => ?_, fun p hp => ?_, ?_⟩
  · obtain hp | ⟨hdoubles, q, hq, -, haction⟩ := mem_expandDoubles hp
    · exact .inl (hmem p hp).1
    · obtain haction | haction := haction
      · exact .inl (haction ▸ (hmem q hq).1)
      · exact .inr ⟨hdoubles, q.action, (hmem q hq).1, haction⟩
  · obtain hp | ⟨-, q, hq, hprob, -⟩ := mem_expandDoubles hp
    · exact (hmem p hp).2
    · rw [hprob]
      exact div_nonneg (hmem q hq).2 zero_le_two
  · rw [sum_expandDoubles, gatedShares_eq, List.map_map]
    exact run.sum_prob

def spikesData : MoveData where
  moveId := moveSpikes
  moveType := 0
  category := catStatus
  basePower := 0
  tags := tagHazard

def idleMon : PokemonState where
  hasMaxHp := true
  maxHp := 100
  hasHp := true
  hp := 100
  statSpe := 50

def spikesMon : PokemonState :=
  { idleMon with moveId0 := moveSpikes, movePp0 := 20, turnsInBattle := 1 }

def spikesState : BattleState where
  side0 := {
    team := ⟨[idleMon], by decide⟩
    activeIndices := firstActive
    sideConditions := ⟨[⟨scSpikes1, 0⟩], by decide⟩ }
  side1 := {
    team := ⟨[spikesMon, idleMon], by decide⟩
    activeIndices := firstActive }

theorem movesKnown_spikesState : MovesKnown [spikesData] spikesState := by
  unfold MovesKnown
  decide

theorem spikesState_distribution :
    ∃ probs, computeActionProbabilities [spikesData] spikesState 1 = .ok probs ∧
      (probs.map (·.prob)).sum = 1 := by
  obtain ⟨hok, hdist⟩ := actionProbabilities_distribution [spikesData] spikesState 1
  obtain ⟨probs, hprobs⟩ := hok movesKnown_spikesState
  exact ⟨probs, hprobs, (hdist probs hprobs).2.2⟩

end Distribution

section Sampled

variable {moves : List MoveData} {state : BattleState} {aiIdx : Int}

def drawnLow (ps : List (ExecAction × Int)) : Bool := ps.all fun as => decide (as.2 ≤ 5)

def gateTarget (moves : List MoveData) (state : BattleState) (aiIdx : Int) :
    Except String (Option ExecAction) :=
  (selectVoluntarySwitchTarget moves state aiIdx).map fun slot =>
    switchTo ((legalActions moves state aiIdx).filter (!isMoveAction ·)) slot

def drawnProb (moves : List MoveData) (state : BattleState) (aiIdx : Int) (gate : Bool)
    (a : ExecAction) (ps : List (ExecAction × Int)) : ℚ :=
  if gate && drawnLow ps then
    match gateTarget moves state aiIdx with
    | .error _ => 0
    | .ok none => leaderShare a ps
    | .ok (some t) => (if t = a then 1 / 2 else 0) + leaderShare a ps / 2
  else leaderShare a ps

theorem sampledSwitchTarget_eq {gate : Bool}
    (hgate : switchGate moves state aiIdx (legalActions moves state aiIdx) = .ok gate)
    (scores : List Int) :
    sampledSwitchTarget moves state aiIdx (legalActions moves state aiIdx) scores =
      if gate && drawnLow (((legalActions moves state aiIdx).zip scores).filter (isMoveAction ·.1)) then
        gateTarget moves state aiIdx
      else .ok none := by
  have hlow : drawnLow (((legalActions moves state aiIdx).zip scores).filter (isMoveAction ·.1)) =
      ((legalActions moves state aiIdx).zip scores).all fun as =>
        !isMoveAction as.1 || decide (as.2 ≤ 5) := by
    rw [drawnLow, List.all_filter]
  rw [switchGate] at hgate
  rw [sampledSwitchTarget, hlow]
  by_cases hsides : (legalActions moves state aiIdx).any isMoveAction ∧
      (legalActions moves state aiIdx).any (!isMoveAction ·) ∧ state.format ≠ formatDoubles ∧
      hpPct (activeMon state aiIdx) ≥ 1 / 2
  · rw [if_pos hsides] at hgate
    cases hall : ((legalActions moves state aiIdx).zip scores).all fun as =>
        !isMoveAction as.1 || decide (as.2 ≤ 5) with
    | true =>
      rw [if_pos ⟨hsides.1, hsides.2.1, hsides.2.2.1, hsides.2.2.2, rfl⟩, hgate]
      cases gate with
      | false => rfl
      | true =>
        rw [gateTarget]
        cases selectVoluntarySwitchTarget moves state aiIdx with
        | error e => rfl
        | ok slot => rfl
    | false =>
      rw [if_neg (fun h => Bool.false_ne_true h.2.2.2.2), Bool.and_false]
      rfl
  · rw [if_neg hsides] at hgate
    rw [if_neg fun h => hsides ⟨h.1, h.2.1, h.2.2.1, h.2.2.2.1⟩, ← Except.ok.inj hgate,
      Bool.false_and]
    rfl

theorem max?_of_ne_nil {l : List Int} (h : l ≠ []) :
    ∃ top, l.max? = some top ∧ top ∈ l ∧ ∀ x ∈ l, x ≤ top := by
  obtain ⟨top, htop⟩ := Option.isSome_iff_exists.1 (List.isSome_max?_iff.2 h)
  exact ⟨top, htop, List.max?_eq_some_iff.1 htop⟩

theorem avg_tieBreak {actions : List ExecAction} {scores : List Int}
    {target : Option ExecAction} (hne : (actions.zip scores).filter (isMoveAction ·.1) ≠ [])
    (f : Except String ExecAction → ℚ) :
    avg (tieBreak ⟨actions, scores, target⟩) f =
      avg (uniform (leaders ((actions.zip scores).filter (isMoveAction ·.1)))) fun a => f (.ok a) := by
  have hscores : ((actions.zip scores).filter (isMoveAction ·.1)).map (·.2) ≠ [] :=
    fun h => hne (List.map_eq_nil_iff.1 h)
  obtain ⟨top, htop, hmem, hmax⟩ := max?_of_ne_nil hscores
  obtain ⟨as, has, heq⟩ := List.mem_map.1 hmem
  have hleaders : ((actions.zip scores).filter (isMoveAction ·.1)).filter (·.2 == top) =
      ((actions.zip scores).filter (isMoveAction ·.1)).filter fun kb => decide
        (∀ kc ∈ (actions.zip scores).filter (isMoveAction ·.1), kc.2 ≤ kb.2) := by
    refine List.filter_congr fun bs hbs => ?_
    rw [Bool.eq_iff_iff, beq_iff_eq, decide_eq_true_iff]
    constructor
    · rintro rfl cs hcs
      exact hmax _ (List.mem_map_of_mem hcs)
    · intro hall
      exact le_antisymm (hmax _ (List.mem_map_of_mem hbs)) (heq ▸ hall as has)
  rw [tieBreak]
  dsimp only
  rw [htop]
  dsimp only
  rw [hleaders, avg_map _ Except.ok]
  rfl

theorem avg_uniform_indicator (l : List ExecAction) (a : ExecAction) :
    avg (uniform l) (fun b => if b = a then (1 : ℚ) else 0) = (l.count a : ℚ) / l.length := by
  rw [avg_uniform]
  refine congrArg (· / _) ?_
  induction l with
  | nil => rfl
  | cons b l ih =>
    rw [List.map_cons, List.sum_cons, ih, List.count_cons, Nat.cast_add, add_comm]
    by_cases hb : b = a <;> simp [hb]

def returns (a : ExecAction) : Except String ExecAction → ℚ
  | .ok b => if b = a then 1 else 0
  | .error _ => 0

theorem avg_tieBreak_returns {actions : List ExecAction} {scores : List Int}
    {target : Option ExecAction} (hne : (actions.zip scores).filter (isMoveAction ·.1) ≠ [])
    (a : ExecAction) :
    avg (tieBreak ⟨actions, scores, target⟩) (returns a) =
      leaderShare a ((actions.zip scores).filter (isMoveAction ·.1)) := by
  rw [avg_tieBreak hne, leaderShare, ← avg_uniform_indicator]
  rfl

/-- What the policy does with a scored result. -/
def finish (scored : Except String AiScoreResult) : List (Except String ExecAction × ℚ) :=
  match scored with
  | .error e => point (.error e)
  | .ok res =>
    if res.actions.isEmpty then point (.error "AIPolicy: no legal actions")
    else
      match res.switchTarget with
      | some target =>
        andThen [(true, 1 / 2), (false, 1 / 2)] fun gate =>
          if gate then point (.ok target) else tieBreak res
      | none => tieBreak res

theorem avg_finish {gate : Bool}
    (hgate : switchGate moves state aiIdx (legalActions moves state aiIdx) = .ok gate)
    {scores : List Int}
    (hne : ((legalActions moves state aiIdx).zip scores).filter (isMoveAction ·.1) ≠ [])
    (a : ExecAction) :
    avg (finish ((sampledSwitchTarget moves state aiIdx (legalActions moves state aiIdx) scores).map
      fun target => ⟨legalActions moves state aiIdx, scores, target⟩)) (returns a) =
      drawnProb moves state aiIdx gate a
        (((legalActions moves state aiIdx).zip scores).filter (isMoveAction ·.1)) := by
  have hnone : avg (finish (.ok ⟨legalActions moves state aiIdx, scores, none⟩)) (returns a) =
      leaderShare a (((legalActions moves state aiIdx).zip scores).filter (isMoveAction ·.1)) := by
    simp only [finish, legalActions_ne_nil, Bool.false_eq_true, if_false]
    exact avg_tieBreak_returns hne a
  rw [sampledSwitchTarget_eq hgate, drawnProb]
  split
  · cases gateTarget moves state aiIdx with
    | error e =>
      rw [Except.map, finish, avg_point]
      rfl
    | ok target =>
      cases target with
      | none => exact hnone
      | some t =>
        simp only [Except.map, finish, legalActions_ne_nil, Bool.false_eq_true, if_false,
          avg_andThen, avg_cons, avg_nil, if_true]
        rw [avg_tieBreak_returns hne a, avg_point, returns]
        split <;> ring
  · exact hnone

theorem mass_sampleScore (slots : HighestSlots) (exc : Bool) {a : ExecAction}
    (ha : a.kind = actionSwitch) : mass (sampleScore moves state aiIdx slots exc a) = 1 := by
  rw [sampleScore, if_pos ha]
  exact mass_point _

theorem avg_sampledScores (slots : HighestSlots) (exc : Bool)
    (g : List (ExecAction × Int) → ℚ) :
    avg (drawAll (sampleScore moves state aiIdx slots exc) (legalActions moves state aiIdx))
      (fun scores => g (((legalActions moves state aiIdx).zip scores).filter (isMoveAction ·.1))) =
      avg (drawAll (keyed (slotDist moves state aiIdx slots exc))
        ((legalActions moves state aiIdx).filter isMoveAction)) g := by
  rw [avg_drawAll_zip _ _ fun ps => g (ps.filter (isMoveAction ·.1)), avg_drawAll_filter]
  · apply avg_drawAll_congr
    intro a ha f
    rw [avg_keyed, avg_keyed]
    exact avg_sampleScore moves state aiIdx slots exc (List.mem_filter.1 ha).2 _
  · intro a ha hmove
    apply mass_sampleScore
    obtain hshape | rfl | hkind := legalShape ha
    · rw [hshape] at hmove
      cases hmove
    · cases hmove
    · exact hkind

theorem scoredMoves_ne_nil {scores : List Int}
    (h : scores.length = (legalActions moves state aiIdx).length) :
    ((legalActions moves state aiIdx).zip scores).filter (isMoveAction ·.1) ≠ [] := by
  obtain ⟨a, ha, hmove⟩ := exists_legal_move moves state aiIdx 0
  obtain ⟨i, hi⟩ := List.mem_iff_getElem?.1 ha
  obtain ⟨hlt, -⟩ := List.getElem?_eq_some_iff.1 hi
  have hscore := List.getElem?_eq_getElem (show i < scores.length from h ▸ hlt)
  have hzip := List.getElem?_zip_eq_some (z := (a, _)) |>.2 ⟨hi, hscore⟩
  exact List.ne_nil_of_mem (List.mem_filter.2 ⟨List.mem_of_getElem? hzip, hmove⟩)

theorem selectProb_eq (hsingles : state.format ≠ formatDoubles) {exc gate : Bool}
    (hexc : exceptionMoveSeesKill moves state aiIdx = .ok exc)
    (hgate : switchGate moves state aiIdx (legalActions moves state aiIdx) = .ok gate)
    (a : ExecAction) :
    selectProb moves state aiIdx a =
      avg (legalLaw moves state aiIdx exc) (drawnProb moves state aiIdx gate a) := by
  have hempty : (enumerateLegalActions moves state aiIdx 0).isEmpty = false := legalActions_ne_nil
  have hselect : selectProb moves state aiIdx a =
      avg (scoreAiActions moves state aiIdx) fun scored => avg (finish scored) (returns a) := by
    rw [selectProb, select, avg_andThen]
    rfl
  have hsecond : secondTargets moves state aiIdx (enumerateLegalActions moves state aiIdx 0) = [] :=
    if_neg fun h => hsingles h.1
  rw [hselect, scoreAiActions]
  dsimp only
  rw [if_neg (by simp [hempty]), hexc, hsecond, List.append_nil, avg_andThen, sampleHighestSlots,
    avg_andThen, legalLaw, scoreLaw]
  dsimp only
  rw [avg_andThen]
  apply avg_congr
  intro raws _
  rw [avg_point, avg_andThen]
  refine Eq.trans (avg_congr fun scoresW hscores => ?_) (avg_sampledScores _ exc _)
  rw [avg_point]
  apply avg_finish hgate
  exact scoredMoves_ne_nil (length_of_mem_outcomes (List.mem_map_of_mem hscores))

end Sampled

end Engine

end NuzlockeSolver
