import NuzlockeSolver.Engine.AiAgree

/-!
# The switch gate of the policy and of the analytic distribution

The policy's gate looks at the scores it has drawn, the analytic gate at the highest scores that
are possible. The two distributions are equal exactly when that makes no difference.
-/

namespace NuzlockeSolver

namespace Engine

open WeightedList

section Low

variable {moves : List MoveData} {state : BattleState} {aiIdx : Int}

theorem le_foldl_max (l : List Int) (b : Int) :
    b ≤ l.foldl max b ∧ ∀ s ∈ l, s ≤ l.foldl max b := by
  induction l generalizing b with
  | nil => exact ⟨le_rfl, fun s hs => by cases hs⟩
  | cons x l ih =>
    obtain ⟨hstart, hrest⟩ := ih (max b x)
    refine ⟨(le_max_left b x).trans hstart, fun s hs => ?_⟩
    obtain rfl | hs := List.mem_cons.1 hs
    · exact (le_max_right b s).trans hstart
    · exact hrest s hs

theorem possible_le_five {a : ExecAction} {split : Option (ℚ × ℚ)}
    (h : maxPossibleMoveScore moves state aiIdx a split ≤ 5) :
    ∀ s ∈ possibleMoveScores moves state aiIdx a split, s ≤ 5 :=
  fun s hs => ((le_foldl_max _ _).2 s hs).trans h

theorem nodup_contextSlots {actions : List ExecAction} (hshape : ∀ a ∈ actions, LegalShape a)
    (hnodup : actions.Nodup) :
    ((buildDamageContext moves state aiIdx actions).map (·.slot)).Nodup := by
  rw [slots_of_context moves state aiIdx hshape]
  exact nodup_damagingSlots moves state aiIdx hshape hnodup

theorem splitBySlot_eq {ctx : List DamageEntry} (hnodup : (ctx.map (·.slot)).Nodup) {hp : Int}
    {j : Nat} {e : DamageEntry} {p : ℚ × ℚ} {a : ExecAction} (he : ctx[j]? = some e)
    (hslot : e.slot = a.moveSlot)
    (hprob : (highestDamageProbs hp (ctx.map (·.rolls)))[j]? = some p) :
    splitBySlot ctx hp a = some p := by
  rw [splitBySlot]
  have hmem := List.mem_of_getElem? (List.getElem?_zip_eq_some (z := (e, p)) |>.2 ⟨he, hprob⟩)
  cases hfind : (ctx.zip (highestDamageProbs hp (ctx.map (·.rolls)))).find?
      (·.1.slot == a.moveSlot) with
  | none => exact absurd (List.find?_eq_none.1 hfind _ hmem) (by simp [hslot])
  | some ep =>
    obtain ⟨j', hj'⟩ := List.mem_iff_getElem?.1 (List.mem_of_find?_eq_some hfind)
    obtain ⟨hentry, hprob'⟩ := List.getElem?_zip_eq_some.1 hj'
    have hslot' : ep.1.slot = a.moveSlot := by simpa using List.find?_some hfind
    have hj : (ctx.map (·.slot))[j']? = (ctx.map (·.slot))[j]? := by
      rw [List.getElem?_map, List.getElem?_map, hentry, he, Option.map_some, Option.map_some,
        hslot', hslot]
    have hlt : j' < (ctx.map (·.slot)).length := by
      rw [List.length_map]
      exact (List.getElem?_eq_some_iff.1 hentry).1
    rw [(List.getElem?_inj hlt hnodup).1 hj, hprob] at hprob'
    exact hprob'.symm

theorem mem_possible_of_not_highest {a : ExecAction} (split : Option (ℚ × ℚ)) {s : Int}
    (hs : s ∈ outcomes (distAction moves state aiIdx a 0 false (aiFaster state aiIdx) false)) :
    s ∈ possibleMoveScores moves state aiIdx a split := by
  cases split with
  | none => exact hs
  | some p => exact List.mem_append_right _ hs

theorem mem_possible_of_highest {a : ExecAction} {p : ℚ × ℚ} {kills : Bool}
    (hkill : kills = true → 0 < p.1) (hnokill : kills = false → 0 < p.2) {s : Int}
    (hs : s ∈ outcomes (distAction moves state aiIdx a 1 kills (aiFaster state aiIdx) false)) :
    s ∈ possibleMoveScores moves state aiIdx a (some p) := by
  refine List.mem_append_left _ ?_
  cases kills with
  | true =>
    refine List.mem_append_left _ ?_
    rw [if_pos (hkill rfl)]
    exact hs
  | false =>
    refine List.mem_append_right _ ?_
    rw [if_pos (hnokill rfl)]
    exact hs

theorem damageEntry_of_slot {actions : List ExecAction} (hshape : ∀ a ∈ actions, LegalShape a)
    {a : ExecAction} (ha : a ∈ actions) (hmove : isMoveAction a = true) {e : DamageEntry}
    (he : e ∈ buildDamageContext moves state aiIdx actions) (hslot : e.slot = a.moveSlot) :
    damageEntry moves state aiIdx a = some e := by
  obtain ⟨b, hb, hentry⟩ := List.mem_filterMap.1 he
  obtain ⟨heq, hmoveB, hpos⟩ := slot_of_damageEntry hentry
  rw [← eq_of_moveSlot_eq (hshape b hb) (hshape a ha) hmoveB hmove hpos (heq ▸ hslot)]
  exact hentry

theorem getElem?_of_outcome {ctx : List DamageEntry} {raws : List Int}
    (hraws : raws ∈ outcomes (sampleRolls ctx)) {j : Nat} {e : DamageEntry} (he : ctx[j]? = some e) :
    ∃ x, raws[j]? = some x := by
  have hlt : j < raws.length := by
    rw [length_of_mem_outcomes hraws]
    exact (List.getElem?_eq_some_iff.1 he).1
  exact ⟨_, List.getElem?_eq_getElem hlt⟩

theorem drawn_of_getElem? {ctx : List DamageEntry} {raws : List Int}
    (hraws : raws ∈ outcomes (sampleRolls ctx)) {j : Nat} {e : DamageEntry} {x : Int}
    (he : ctx[j]? = some e) (hx : raws[j]? = some x) : ∃ i, e.rolls i = x := by
  have hmem := List.mem_of_getElem? (List.getElem?_zip_eq_some (z := (e, x)) |>.2 ⟨he, hx⟩)
  exact mem_outcomes_rollDraw.1 ((List.forall₂_iff_zip.1 (mem_outcomes_drawAll.1 hraws)).2 hmem)

theorem exists_possible_ge {actions : List ExecAction} (hshape : ∀ a ∈ actions, LegalShape a)
    (hnodup : actions.Nodup) {hp : Int} (exc : Bool) {raws : List Int}
    (hraws : raws ∈ outcomes (sampleRolls (buildDamageContext moves state aiIdx actions)))
    {a : ExecAction} (ha : a ∈ actions) (hmove : isMoveAction a = true) {s : Int}
    (hs : s ∈ outcomes (slotDist moves state aiIdx
      (highestSlots ((buildDamageContext moves state aiIdx actions).map (·.slot)) raws hp) exc a)) :
    ∃ t ∈ possibleMoveScores moves state aiIdx a
      (splitBySlot (buildDamageContext moves state aiIdx actions) hp a), s ≤ t := by
  rw [slotDist] at hs
  cases hhighest : (highestSlots ((buildDamageContext moves state aiIdx actions).map (·.slot))
      raws hp).highest.contains a.moveSlot with
  | false =>
    rw [hhighest] at hs
    obtain ⟨t, ht, hle⟩ := dominated_distAction moves state aiIdx a _ _ _ _ s hs
    exact ⟨t, mem_possible_of_not_highest _ ht, hle⟩
  | true =>
    rw [hhighest] at hs
    obtain ⟨⟨k, x⟩, hkx, hslot⟩ := List.mem_map.1 (List.contains_iff_mem.1 hhighest)
    obtain ⟨hmem, htop⟩ := List.mem_filter.1 hkx
    obtain ⟨j, hj⟩ := List.mem_iff_getElem?.1 hmem
    obtain ⟨hkey, hroll⟩ := List.getElem?_zip_eq_some.1 hj
    rw [List.getElem?_map] at hkey
    obtain ⟨e, he, hk⟩ := Option.map_eq_some_iff.1 hkey
    have heslot : e.slot = a.moveSlot := hk.trans hslot
    have hentry := damageEntry_of_slot hshape ha hmove (List.mem_of_getElem? he) heslot
    have hkill : (highestSlots ((buildDamageContext moves state aiIdx actions).map (·.slot))
        raws hp).kill.contains a.moveSlot = decide (hp ≤ x) :=
      contains_filter_zip (nodup_contextSlots hshape hnodup) (fun x => decide (hp ≤ x))
        (by rw [List.getElem?_map, he, Option.map_some, heslot]) hroll
    rw [distAction_of_damageEntry moves state aiIdx hentry, hkill, Bool.true_and, if_pos rfl] at hs
    obtain ⟨i, hi⟩ := drawn_of_getElem? hraws he hroll
    have hreach : ∀ r ∈ (buildDamageContext moves state aiIdx actions).map (·.rolls),
        ∃ k, capped hp r k ≤ capped hp e.rolls i := by
      intro r hr
      obtain ⟨e', he', rfl⟩ := List.mem_map.1 hr
      obtain ⟨j', hj'⟩ := List.mem_iff_getElem?.1 he'
      obtain ⟨x', hx'⟩ := getElem?_of_outcome hraws hj'
      obtain ⟨k', hk'⟩ := drawn_of_getElem? hraws hj' hx'
      refine ⟨k', ?_⟩
      rw [capped, capped, hk', hi, show min x hp = _ from beq_iff_eq.1 htop]
      have hcapped : min x' hp ∈ raws.map (min · hp) :=
        List.mem_map_of_mem (List.mem_of_getElem? hx')
      exact (topDamage_spec (List.ne_nil_of_mem hcapped)).2 _ hcapped
    obtain ⟨p, hp', hfst, hsnd⟩ := highestDamageProbs_pos hp
      (show ((buildDamageContext moves state aiIdx actions).map (·.rolls))[j]? = some e.rolls by
        rw [List.getElem?_map, he]; rfl) hreach
    rw [hi] at hfst hsnd
    refine ⟨s, ?_, le_rfl⟩
    rw [splitBySlot_eq (nodup_contextSlots hshape hnodup) he heslot hp']
    apply mem_possible_of_highest _ _ hs
    · intro h
      exact hfst (of_decide_eq_true h)
    · intro h
      exact hsnd (not_le.1 (of_decide_eq_false h))

end Low

section Gate

variable {moves : List MoveData} {state : BattleState} {aiIdx : Int}

def legalContext (moves : List MoveData) (state : BattleState) (aiIdx : Int) : List DamageEntry :=
  buildDamageContext moves state aiIdx (legalActions moves state aiIdx)

def drawnSlots (moves : List MoveData) (state : BattleState) (aiIdx : Int) (raws : List Int) :
    HighestSlots :=
  highestSlots ((legalContext moves state aiIdx).map (·.slot)) raws (targetHp state aiIdx)

/-- Under every draw of the rolls there is a move that can only score more than 5. -/
def AlwaysHigh (moves : List MoveData) (state : BattleState) (aiIdx : Int) (exc : Bool) : Prop :=
  ∀ raws ∈ outcomes (sampleRolls (legalContext moves state aiIdx)),
    ∃ a ∈ legalActions moves state aiIdx, isMoveAction a = true ∧
      ∀ s ∈ outcomes (slotDist moves state aiIdx (drawnSlots moves state aiIdx raws) exc a), 5 < s

theorem mem_legalLaw {exc : Bool} {ps : List (ExecAction × Int)} :
    ps ∈ outcomes (legalLaw moves state aiIdx exc) ↔
      ∃ raws ∈ outcomes (sampleRolls (legalContext moves state aiIdx)),
        ps ∈ outcomes (drawAll
          (keyed (slotDist moves state aiIdx (drawnSlots moves state aiIdx raws) exc))
          ((legalActions moves state aiIdx).filter isMoveAction)) := by
  rw [legalLaw, scoreLaw]
  exact mem_outcomes_andThen

theorem drawnLow_of_allMovesLow {exc : Bool}
    (hlow : allMovesLow moves state aiIdx (legalActions moves state aiIdx)
      (legalContext moves state aiIdx) (targetHp state aiIdx) = true)
    {ps : List (ExecAction × Int)} (hps : ps ∈ outcomes (legalLaw moves state aiIdx exc)) :
    drawnLow ps = true := by
  rw [drawnLow, List.all_eq_true]
  intro as has
  obtain ⟨raws, hraws, hdraw⟩ := mem_legalLaw.1 hps
  obtain ⟨a, ha, hkey⟩ := source_of_mem_outcomes hdraw has
  obtain ⟨ha, hmove⟩ := List.mem_filter.1 ha
  rw [outcomes_keyed] at hkey
  obtain ⟨s, hs, rfl⟩ := List.mem_map.1 hkey
  obtain ⟨t, ht, hle⟩ := exists_possible_ge (legalShape_of_mem moves state aiIdx)
    (nodup_legalActions moves state aiIdx) exc hraws ha hmove hs
  rw [allMovesLow, List.all_eq_true] at hlow
  have hmax := hlow a (List.mem_filter.2 ⟨ha, hmove⟩)
  exact decide_eq_true (hle.trans (possible_le_five (of_decide_eq_true hmax) t ht))

theorem not_drawnLow_of_alwaysHigh {exc : Bool} (hhigh : AlwaysHigh moves state aiIdx exc)
    {ps : List (ExecAction × Int)} (hps : ps ∈ outcomes (legalLaw moves state aiIdx exc)) :
    drawnLow ps = false := by
  obtain ⟨raws, hraws, hdraw⟩ := mem_legalLaw.1 hps
  obtain ⟨a, ha, hmove, hscores⟩ := hhigh raws hraws
  have hmem : a ∈ ps.map (·.1) := by
    rw [keys_of_mem_outcomes hdraw]
    exact List.mem_filter.2 ⟨ha, hmove⟩
  obtain ⟨as, has, rfl⟩ := List.mem_map.1 hmem
  obtain ⟨b, -, hkey⟩ := source_of_mem_outcomes hdraw has
  rw [outcomes_keyed] at hkey
  obtain ⟨s, hs, rfl⟩ := List.mem_map.1 hkey
  rw [drawnLow, List.all_eq_false]
  exact ⟨(b, s), has, by simpa using hscores s hs⟩

theorem exists_drawnLow {exc : Bool} (hhigh : ¬ AlwaysHigh moves state aiIdx exc) :
    ∃ ps ∈ outcomes (legalLaw moves state aiIdx exc), drawnLow ps = true := by
  rw [AlwaysHigh] at hhigh
  push Not at hhigh
  obtain ⟨raws, hraws, hlow⟩ := hhigh
  have hchoice : ∀ a ∈ (legalActions moves state aiIdx).filter isMoveAction, ∃ as : ExecAction × Int,
      as ∈ outcomes (keyed (slotDist moves state aiIdx (drawnSlots moves state aiIdx raws) exc) a) ∧
        as.2 ≤ 5 := by
    intro a ha
    obtain ⟨ha, hmove⟩ := List.mem_filter.1 ha
    obtain ⟨s, hs, hle⟩ := hlow a ha hmove
    refine ⟨(a, s), ?_, hle⟩
    rw [outcomes_keyed]
    exact List.mem_map_of_mem hs
  choose! choice hmem hle using hchoice
  refine ⟨_, mem_legalLaw.2 ⟨raws, hraws, map_mem_outcomes hmem⟩, ?_⟩
  rw [drawnLow, List.all_eq_true]
  intro as has
  obtain ⟨a, ha, rfl⟩ := List.mem_map.1 has
  exact decide_eq_true (hle a ha)

theorem GateRun.target_closed (run : GateRun moves state aiIdx)
    (h : gateOpens moves state aiIdx run.gate = false) : run.target = none := by
  have htarget := run.target_eq
  rwa [if_neg (by simp [h])] at htarget

theorem selectProb_of_closed (hsingles : state.format ≠ formatDoubles)
    (run : GateRun moves state aiIdx) (hnone : run.target = none)
    (hclosed : ∀ ps ∈ outcomes (legalLaw moves state aiIdx run.exc),
      (run.gate && drawnLow ps) = false) (a : ExecAction) :
    selectProb moves state aiIdx a = run.prob a := by
  rw [selectProb_eq hsingles run.exc_eq run.gate_eq, GateRun.prob, hnone]
  apply avg_congr
  intro psw hpsw
  rw [drawnProb, if_neg (by simp [hclosed _ (List.mem_map_of_mem hpsw)])]

theorem selectProb_of_open (hsingles : state.format ≠ formatDoubles)
    (run : GateRun moves state aiIdx) (hgate : run.gate = true)
    (hopens : gateOpens moves state aiIdx run.gate = true)
    (hlow : ∀ ps ∈ outcomes (legalLaw moves state aiIdx run.exc), drawnLow ps = true)
    (a : ExecAction) : selectProb moves state aiIdx a = run.prob a := by
  have htarget := run.target_eq
  rw [if_pos hopens] at htarget
  obtain ⟨slot, hslot, htarget⟩ := htarget
  have hfound : gateTarget moves state aiIdx = .ok run.target := by
    rw [gateTarget, hslot, htarget]
    rfl
  rw [selectProb_eq hsingles run.exc_eq run.gate_eq, GateRun.prob]
  have hdrawn : ∀ psw ∈ legalLaw moves state aiIdx run.exc,
      drawnProb moves state aiIdx run.gate a psw.1 =
        run.target.elim (leaderShare a psw.1) fun t =>
          (if t = a then 1 / 2 else 0) + leaderShare a psw.1 / 2 := by
    intro psw hpsw
    rw [drawnProb, if_pos (by rw [hgate, hlow _ (List.mem_map_of_mem hpsw)]; rfl), hfound]
    cases run.target with
    | none => rfl
    | some t => rfl
  rw [avg_congr (g := fun ps => run.target.elim (leaderShare a ps) fun t =>
    (if t = a then 1 / 2 else 0) + leaderShare a ps / 2) hdrawn]
  cases hsome : run.target with
  | none => rfl
  | some t =>
    have hhalf : avg (legalLaw moves state aiIdx run.exc)
        (fun ps => (if t = a then 1 / 2 else 0) + leaderShare a ps / 2) =
        (if t = a then 1 / 2 else 0) + lawShare moves state aiIdx run.exc a / 2 := by
      rw [avg_add, avg_const, lawShare, legalLaw, mass_scoreLaw, one_mul]
      simp only [div_eq_inv_mul (_ : ℚ) 2, avg_mul]
    simp only [Option.elim_some]
    rw [hhalf]
    have hswitch := (run.target_switch hsome).2
    cases hmove : isMoveAction a with
    | true =>
      have hne : t ≠ a := by
        rintro rfl
        rw [hmove] at hswitch
        cases hswitch
      rw [if_neg hne, if_pos rfl, zero_add]
    | false =>
      rw [lawShare_of_switch moves state aiIdx run.exc hmove, zero_div, add_zero,
        if_neg Bool.false_ne_true]
      simp only [eq_comm]

def gateLoss (moves : List MoveData) (state : BattleState) (aiIdx : Int)
    (ps : List (ExecAction × Int)) : ℚ :=
  if drawnLow ps then
    match gateTarget moves state aiIdx with
    | .error _ => 1
    | .ok none => 0
    | .ok (some _) => 1 / 2
  else 0

theorem gateTarget_switch {t : ExecAction} (h : gateTarget moves state aiIdx = .ok (some t)) :
    isMoveAction t = false := by
  rw [gateTarget] at h
  cases hslot : selectVoluntarySwitchTarget moves state aiIdx with
  | error e =>
    rw [hslot] at h
    cases h
  | ok slot =>
    rw [hslot] at h
    exact (switchTo_switch (Except.ok.inj h)).2

theorem drawnProb_of_move {a : ExecAction} (ha : isMoveAction a = true)
    (ps : List (ExecAction × Int)) :
    drawnProb moves state aiIdx true a ps =
      leaderShare a ps - leaderShare a ps * gateLoss moves state aiIdx ps := by
  rw [drawnProb, gateLoss, Bool.true_and]
  split
  · cases htarget : gateTarget moves state aiIdx with
    | error e => simp
    | ok target =>
      cases target with
      | none => simp
      | some t =>
        have hne : t ≠ a := by
          rintro rfl
          rw [gateTarget_switch htarget] at ha
          cases ha
        dsimp only
        rw [if_neg hne]
        ring
  · ring

theorem gateLoss_nonneg (ps : List (ExecAction × Int)) : 0 ≤ gateLoss moves state aiIdx ps := by
  rw [gateLoss]
  split
  · split <;> norm_num
  · exact le_rfl

theorem gateLoss_pos {ps : List (ExecAction × Int)} (hlow : drawnLow ps = true)
    (hgate : switchGate moves state aiIdx (legalActions moves state aiIdx) = .ok true) :
    0 < gateLoss moves state aiIdx ps := by
  have hswitch : (legalActions moves state aiIdx).any (!isMoveAction ·) = true := by
    rw [switchGate] at hgate
    split at hgate
    · rename_i hsides
      exact hsides.2.1
    · cases hgate
  obtain ⟨b, hb, hmove⟩ := List.any_eq_true.1 hswitch
  have hmem : b ∈ (legalActions moves state aiIdx).filter (!isMoveAction ·) :=
    List.mem_filter.2 ⟨hb, hmove⟩
  rw [gateLoss, if_pos hlow, gateTarget]
  cases selectVoluntarySwitchTarget moves state aiIdx with
  | error e => exact one_pos
  | ok slot =>
    cases htarget : switchTo ((legalActions moves state aiIdx).filter (!isMoveAction ·)) slot with
    | none =>
      rw [switchTo, Option.or_eq_none_iff, List.head?_eq_none_iff] at htarget
      exact absurd htarget.2 (List.ne_nil_of_mem hmem)
    | some t =>
      rw [Except.map, htarget]
      norm_num

theorem sum_drawnShares {exc : Bool} {ps : List (ExecAction × Int)}
    (hps : ps ∈ outcomes (legalLaw moves state aiIdx exc)) :
    ((legalActions moves state aiIdx).map fun a => (leaderShare a ps : ℚ)).sum = 1 := by
  apply sum_leaderShare
  · exact ne_nil_of_scoreLaw moves state aiIdx (exists_legal_move moves state aiIdx 0) hps
  · exact nodup_legalActions moves state aiIdx
  · intro as has
    exact (mem_of_scoreLaw moves state aiIdx hps has).1

theorem not_drawnLow_of_agree (hsingles : state.format ≠ formatDoubles) {exc : Bool}
    (hexc : exceptionMoveSeesKill moves state aiIdx = .ok exc)
    (hgate : switchGate moves state aiIdx (legalActions moves state aiIdx) = .ok true)
    (hagree : ∀ a ∈ legalActions moves state aiIdx,
      selectProb moves state aiIdx a = lawShare moves state aiIdx exc a) :
    ∀ ps ∈ outcomes (legalLaw moves state aiIdx exc), drawnLow ps = false := by
  have hloss : ∀ a ∈ legalActions moves state aiIdx, avg (legalLaw moves state aiIdx exc)
      (fun ps => leaderShare a ps * gateLoss moves state aiIdx ps) = 0 := by
    intro a ha
    cases hmove : isMoveAction a with
    | true =>
      have hsplit : avg (legalLaw moves state aiIdx exc) (drawnProb moves state aiIdx true a) +
          avg (legalLaw moves state aiIdx exc)
            (fun ps => leaderShare a ps * gateLoss moves state aiIdx ps) =
          lawShare moves state aiIdx exc a := by
        rw [lawShare, ← avg_add]
        refine avg_congr fun psw _ => ?_
        rw [drawnProb_of_move hmove, sub_add_cancel]
      rw [← hagree a ha, selectProb_eq hsingles hexc hgate] at hsplit
      exact add_eq_left.1 hsplit
    | false =>
      have hzero : ∀ psw ∈ legalLaw moves state aiIdx exc,
          leaderShare a psw.1 * gateLoss moves state aiIdx psw.1 = 0 := by
        intro psw hpsw
        rw [leaderShare_eq_zero, zero_mul]
        rintro as has rfl
        have hmem := (mem_of_scoreLaw moves state aiIdx (List.mem_map_of_mem hpsw) has).2
        rw [hmove] at hmem
        cases hmem
      rw [avg_congr (g := fun _ => 0) hzero, avg_const, mul_zero]
  have hsum : avg (legalLaw moves state aiIdx exc) (gateLoss moves state aiIdx) = 0 := by
    have hswap := avg_sum (legalLaw moves state aiIdx exc) (legalActions moves state aiIdx)
      fun a ps => leaderShare a ps * gateLoss moves state aiIdx ps
    have hzero : ((legalActions moves state aiIdx).map fun a =>
        avg (legalLaw moves state aiIdx exc)
          fun ps => leaderShare a ps * gateLoss moves state aiIdx ps).sum = 0 := by
      apply List.sum_eq_zero
      intro x hx
      obtain ⟨a, ha, rfl⟩ := List.mem_map.1 hx
      exact hloss a ha
    rw [← hzero, hswap]
    refine avg_congr fun psw hpsw => ?_
    rw [List.sum_map_mul_right, sum_drawnShares (List.mem_map_of_mem hpsw), one_mul]
  have hzero := (positive_scoreLaw moves state aiIdx _ _ exc).eq_zero_of_avg
    (fun ps _ => gateLoss_nonneg ps) hsum
  intro ps hps
  by_contra hlow
  have hpos := gateLoss_pos (Bool.eq_true_of_not_eq_false hlow) hgate
  exact hpos.ne' (hzero ps hps)

theorem exists_singlesRun (hsingles : state.format ≠ formatDoubles) {probs : List ActionProb}
    (hprobs : computeActionProbabilities moves state aiIdx = .ok probs) :
    ∃ run : GateRun moves state aiIdx,
      probs = (legalActions moves state aiIdx).map fun a => (⟨a, run.prob a⟩ : ActionProb) := by
  obtain ⟨run, rfl⟩ := exists_gateRun hprobs
  refine ⟨run, ?_⟩
  rw [expandDoubles, if_neg fun h => hsingles h.1, gatedShares_eq]

theorem mem_possible_iff {run : GateRun moves state aiIdx}
    (hprobs : computeActionProbabilities moves state aiIdx =
      .ok ((legalActions moves state aiIdx).map fun a => (⟨a, run.prob a⟩ : ActionProb)))
    {possible : List ExecAction} (hpossible : possibleAiActions moves state aiIdx = .ok possible)
    {a : ExecAction} (ha : a ∈ legalActions moves state aiIdx) :
    a ∈ possible ↔ 0 < run.prob a := by
  rw [possibleAiActions, hprobs] at hpossible
  rw [← Except.ok.inj hpossible]
  simp only [List.mem_map, List.mem_filter, decide_eq_true_eq]
  constructor
  · rintro ⟨_, ⟨⟨b, -, rfl⟩, hpos⟩, rfl⟩
    exact hpos
  · intro hpos
    exact ⟨_, ⟨⟨a, ha, rfl⟩, hpos⟩, rfl⟩

theorem selectProb_eq_prob (hsingles : state.format ≠ formatDoubles)
    (run : GateRun moves state aiIdx)
    (hcase : run.gate = false ∨ allMovesLow moves state aiIdx (legalActions moves state aiIdx)
      (legalContext moves state aiIdx) (targetHp state aiIdx) = true ∨
      AlwaysHigh moves state aiIdx run.exc) (a : ExecAction) :
    selectProb moves state aiIdx a = run.prob a := by
  cases hgate : run.gate with
  | false =>
    apply selectProb_of_closed hsingles run
    · apply run.target_closed
      rw [hgate]
      rfl
    · intro ps _
      rw [hgate, Bool.false_and]
  | true =>
    cases hlow : allMovesLow moves state aiIdx (legalActions moves state aiIdx)
        (legalContext moves state aiIdx) (targetHp state aiIdx) with
    | true =>
      apply selectProb_of_open hsingles run hgate
      · rw [hgate]
        exact hlow
      · intro ps hps
        exact drawnLow_of_allMovesLow hlow hps
    | false =>
      have hhigh : AlwaysHigh moves state aiIdx run.exc := by
        obtain h | h | h := hcase
        · rw [hgate] at h
          cases h
        · rw [hlow] at h
          cases h
        · exact h
      apply selectProb_of_closed hsingles run
      · apply run.target_closed
        rw [hgate]
        exact hlow
      · intro ps hps
        rw [not_drawnLow_of_alwaysHigh hhigh hps, Bool.and_false]

/-- The analytic probabilities are those of the policy exactly when the gate is closed by the
position, by no move that could score more than 5, or in every draw by one that must. -/
theorem policy_agrees_iff (hsingles : state.format ≠ formatDoubles) {probs : List ActionProb}
    (hprobs : computeActionProbabilities moves state aiIdx = .ok probs)
    {possible : List ExecAction} (hpossible : possibleAiActions moves state aiIdx = .ok possible)
    {exc : Bool} (hexc : exceptionMoveSeesKill moves state aiIdx = .ok exc) :
    ((∀ p ∈ probs, selectProb moves state aiIdx p.action = p.prob) ∧
      ∀ a ∈ enumerateLegalActions moves state aiIdx 0,
        a ∈ possible ↔ 0 < selectProb moves state aiIdx a) ↔
      switchGate moves state aiIdx (enumerateLegalActions moves state aiIdx 0) = .ok false ∨
      allMovesLow moves state aiIdx (enumerateLegalActions moves state aiIdx 0)
        (buildDamageContext moves state aiIdx (enumerateLegalActions moves state aiIdx 0))
        (activeMon state (1 - aiIdx)).hp.toInt = true ∨
      AlwaysHigh moves state aiIdx exc := by
  obtain ⟨run, rfl⟩ := exists_singlesRun hsingles hprobs
  have hexc' : run.exc = exc := Except.ok.inj (run.exc_eq.symm.trans hexc)
  have hgate' : switchGate moves state aiIdx (enumerateLegalActions moves state aiIdx 0) =
      .ok run.gate := run.gate_eq
  constructor
  · rintro ⟨hagree, -⟩
    by_contra hcases
    rw [not_or, not_or] at hcases
    obtain ⟨hopen, hlow, hhigh⟩ := hcases
    have hgate : run.gate = true := by
      cases hgate : run.gate with
      | true => rfl
      | false => exact absurd (hgate ▸ hgate') hopen
    have hnone : run.target = none := by
      apply run.target_closed
      rw [hgate]
      exact Bool.eq_false_of_not_eq_true hlow
    obtain ⟨ps, hps, hdrawn⟩ := exists_drawnLow hhigh
    have hclosed := not_drawnLow_of_agree hsingles hexc (hgate ▸ run.gate_eq) (fun a ha => by
      rw [hagree _ (List.mem_map_of_mem ha), GateRun.prob, hnone, hexc']) ps hps
    rw [hdrawn] at hclosed
    cases hclosed
  · intro hcases
    have hcase : run.gate = false ∨ allMovesLow moves state aiIdx (legalActions moves state aiIdx)
        (legalContext moves state aiIdx) (targetHp state aiIdx) = true ∨
        AlwaysHigh moves state aiIdx run.exc := by
      rw [hexc']
      exact hcases.imp_left fun h => Except.ok.inj (hgate'.symm.trans h)
    have hprob := selectProb_eq_prob hsingles run hcase
    constructor
    · intro p hp
      obtain ⟨a, -, rfl⟩ := List.mem_map.1 hp
      exact hprob a
    · intro a ha
      rw [hprob a]
      exact mem_possible_iff hprobs hpossible ha

theorem computed_of_movesKnown (h : MovesKnown moves state) :
    ∃ probs possible, computeActionProbabilities moves state aiIdx = .ok probs ∧
      possibleAiActions moves state aiIdx = .ok possible := by
  have hok : ∃ probs, computeActionProbabilities moves state aiIdx = .ok probs :=
    computeActionProbabilities_ok h
  obtain ⟨probs, hprobs⟩ := hok
  exact ⟨probs, _, hprobs, by rw [possibleAiActions, hprobs]; rfl⟩

def soloState : BattleState :=
  { spikesState with side1 := {
      team := ⟨[spikesMon], by decide⟩
      activeIndices := firstActive } }

theorem soloState_agrees :
    ∃ probs, computeActionProbabilities [spikesData] soloState 1 = .ok probs ∧
      ∀ p ∈ probs, selectProb [spikesData] soloState 1 p.action = p.prob := by
  have hknown : MovesKnown [spikesData] soloState := by
    unfold MovesKnown
    decide
  have hok : ∃ probs possible, computeActionProbabilities [spikesData] soloState 1 = .ok probs ∧
      possibleAiActions [spikesData] soloState 1 = .ok possible := computed_of_movesKnown hknown
  obtain ⟨probs, possible, hprobs, hpossible⟩ := hok
  have hexc : exceptionMoveSeesKill [spikesData] soloState 1 = .ok false := rfl
  exact ⟨probs, hprobs, ((policy_agrees_iff (by decide) hprobs hpossible hexc).2 (.inl rfl)).1⟩

theorem policy_switches_unforeseen :
    spikesState.format ≠ formatDoubles ∧
      ∃ probs, computeActionProbabilities [spikesData] spikesState 1 = .ok probs ∧
        (⟨makeSwitchAction 1, 0⟩ : ActionProb) ∈ probs ∧
        selectProb [spikesData] spikesState 1 (makeSwitchAction 1) = 1 / 8 := by
  have hok : ∃ probs, computeActionProbabilities [spikesData] spikesState 1 = .ok probs :=
    computeActionProbabilities_ok movesKnown_spikesState
  obtain ⟨probs, hprobs⟩ := hok
  obtain ⟨run, rfl⟩ := exists_singlesRun (by decide) hprobs
  have hlow : allMovesLow [spikesData] spikesState 1 (legalActions [spikesData] spikesState 1)
      (legalContext [spikesData] spikesState 1) (targetHp spikesState 1) = false := by
    decide +kernel
  have hnone : run.target = none := by
    apply run.target_closed
    exact (congrArg (run.gate && ·) hlow).trans (Bool.and_false _)
  have hzero : run.prob (makeSwitchAction 1) = 0 := by
    rw [GateRun.prob, hnone]
    exact lawShare_of_switch _ _ _ _ rfl
  have hlegal : makeSwitchAction 1 ∈ legalActions [spikesData] spikesState 1 := by decide +kernel
  refine ⟨by decide, _, hprobs, ?_, by decide +kernel⟩
  rw [← hzero]
  exact List.mem_map_of_mem (f := fun a => (⟨a, run.prob a⟩ : ActionProb)) hlegal

end Gate

end Engine

end NuzlockeSolver
