import NuzlockeSolver.Basic
import NuzlockeSolver.Engine.AiView

/-!
# Damage estimates on the view

The damage formula reads no PP, the turns in battle only for Slow Start, against a threshold that is
not above the clamp, and the order of the last turn only for Analytic and three moves. Every reader
of a battle on the way to an estimate gives the same on the view.
-/

namespace NuzlockeSolver

namespace Engine

def viewCall (k : Keeps) (c : DamageCall) : DamageCall :=
  { c with
    attacker := viewMon k c.attacker
    defender := viewMon k c.defender
    state := c.state.view k }

def viewCtx (k : Keeps) (x : PostRollCtx) : PostRollCtx :=
  { x with
    attacker := viewMon k x.attacker
    defender := viewMon k x.defender
    state := x.state.view k }

section Readers

variable {k : Keeps} (s : BattleState) (c : DamageCall) (x : PostRollCtx)

theorem map_mon_view (side : SideState) (indices : List Int32) :
    indices.map (side.view k).mon = (indices.map side.mon).map (viewMon k) := by
  rw [List.map_map]
  exact List.map_congr_left fun idx _ => mon_view side idx

theorem activeMons_view : activeMons (s.view k) = (activeMons s).map (viewMon k) := by
  rw [activeMons, activeMons, List.map_append, ← map_mon_view, ← map_mon_view]
  rfl

theorem effectiveWeather_view : effectiveWeather (s.view k) = effectiveWeather s := by
  rw [effectiveWeather, activeMons_view, List.any_map]
  rfl

theorem slowStart_view {m : PokemonState} (hslow : m.ability = abSlowStart → k.turns = true) :
    ((viewMon k m).ability = abSlowStart ∧ (viewMon k m).turnsInBattle < 5) ↔
      (m.ability = abSlowStart ∧ m.turnsInBattle < 5) := by
  refine and_congr_right fun h => ?_
  have hkept : (viewMon k m).turnsInBattle = clampTurns m.turnsInBattle := if_pos (hslow h)
  rw [hkept]
  exact clampTurns_lt_iff (by decide) m.turnsInBattle

theorem effectiveStat_view (m : PokemonState) : effectiveStat (viewMon k m) = effectiveStat m := by
  funext statIdx isCrit
  rfl

theorem isPhysicalHit_view : isPhysicalHit (viewCall k c) = isPhysicalHit c := by
  funext md
  simp only [isPhysicalHit, viewCall, effectiveStat_view]
  rfl

theorem hasAllyWith_view : hasAllyWith (viewCall k c) = hasAllyWith c := by
  funext ability
  simp only [hasAllyWith, viewCall, side_view, mon_view]
  rfl

theorem resolveMoveTypeAndBp_view (md : MoveData) :
    resolveMoveTypeAndBp (viewCall k c) md = resolveMoveTypeAndBp c md := by
  have hball : weatherBallTypeAndBp (viewCall k c) = weatherBallTypeAndBp c := by
    funext moveType bp
    simp only [weatherBallTypeAndBp, viewCall, effectiveWeather_view]
  simp only [resolveMoveTypeAndBp, hball]
  rfl

theorem computeBp_view : computeBp (viewCall k c) = computeBp c := by
  funext md moveType isPhysical bp
  have hweather : effectiveWeather (viewCall k c).state = effectiveWeather c.state :=
    effectiveWeather_view c.state
  simp only [computeBp, hasAllyWith_view, hweather]
  rfl

theorem inSun_view : inSun (s.view k) = inSun s := by
  rw [inSun, effectiveWeather_view, inSun]

theorem computeAttackStat_view (hslow : c.attacker.ability = abSlowStart → k.turns = true) :
    computeAttackStat (viewCall k c) = computeAttackStat c := by
  have hmodifiers : attackModifiers (viewCall k c) = attackModifiers c := by
    funext isPhysical atk
    have hsun : inSun (viewCall k c).state = inSun c.state := inSun_view c.state
    have hslow : ((viewCall k c).attacker.ability = abSlowStart ∧
        (viewCall k c).attacker.turnsInBattle < 5) ↔
        (c.attacker.ability = abSlowStart ∧ c.attacker.turnsInBattle < 5) :=
      slowStart_view hslow
    simp only [attackModifiers, hasAllyWith_view, hsun, hslow]
    rfl
  funext isPhysical isCrit
  rw [computeAttackStat, hmodifiers]
  rfl

theorem computeDefenseStat_view :
    computeDefenseStat (viewCall k c) = computeDefenseStat c := by
  funext isPhysical isCrit
  have hsun : inSun (viewCall k c).state = inSun c.state := inSun_view c.state
  have hweather : effectiveWeather (viewCall k c).state = effectiveWeather c.state :=
    effectiveWeather_view c.state
  simp only [computeDefenseStat, defenseModifiers, hsun, hweather]
  rfl

theorem applyWeather_view (damage : Int) (moveType : Int32) :
    applyWeather damage moveType (s.view k) = applyWeather damage moveType s := by
  simp only [applyWeather, effectiveWeather_view]
  rfl

theorem preCritDamage_view (hslow : c.attacker.ability = abSlowStart → k.turns = true)
    (md : MoveData) (isCrit : Bool) :
    preCritDamage (viewCall k c) md isCrit = preCritDamage c md isCrit := by
  have hweather (damage : Int) (moveType : Int32) :
      applyWeather damage moveType (viewCall k c).state =
        applyWeather damage moveType c.state := applyWeather_view c.state damage moveType
  simp only [preCritDamage, hitBp, isPhysicalHit_view, resolveMoveTypeAndBp_view, computeBp_view,
    computeAttackStat_view c hslow, computeDefenseStat_view, hweather]
  rfl

theorem postRollCtx_view (md : MoveData) (isCrit : Bool) :
    postRollCtx (viewCall k c) md isCrit = viewCtx k (postRollCtx c md isCrit) := by
  simp only [postRollCtx, resolveMoveTypeAndBp_view, isPhysicalHit_view]
  rfl

theorem applyTypeModifiers_view : applyTypeModifiers (viewCtx k x) = applyTypeModifiers x := by
  funext damage
  have hany (ability : Int32) : (activeMons (viewCtx k x).state).any (·.ability == ability) =
      (activeMons x.state).any (·.ability == ability) := by
    change (activeMons (x.state.view k)).any _ = _
    rw [activeMons_view, List.any_map]
    rfl
  simp only [applyTypeModifiers, auraFactor, hany]
  rfl

theorem actedLast_view (hview : x.aiScoringView = true)
    (hanalytic : x.attacker.ability = abAnalytic → k.order = true) :
    ((viewCtx k x).attacker.ability = abAnalytic ∧ actedLast (viewCtx k x) = true) ↔
      (x.attacker.ability = abAnalytic ∧ actedLast x = true) := by
  refine and_congr_right fun h => ?_
  have hkept : (x.state.view k).prevTurnOrder = x.state.prevTurnOrder := if_pos (hanalytic h)
  have hview' : (viewCtx k x).aiScoringView = true := hview
  have hstate : (viewCtx k x).state.prevTurnOrder = x.state.prevTurnOrder := hkept
  rw [actedLast, actedLast, hview, hview', if_pos rfl, if_pos rfl, hstate]
  rfl

theorem applySideModifiers_view (hview : x.aiScoringView = true)
    (hanalytic : x.attacker.ability = abAnalytic → k.order = true) :
    applySideModifiers (viewCtx k x) = applySideModifiers x := by
  funext damage
  have hscreen : behindScreen (viewCtx k x) = behindScreen x := by
    simp only [behindScreen, viewCtx, side_view]
    rfl
  have hguard : hasFriendGuard (viewCtx k x) = hasFriendGuard x := by
    simp only [hasFriendGuard, viewCtx, side_view, mon_view]
    rfl
  simp only [applySideModifiers, hscreen, hguard, actedLast_view x hview hanalytic]
  rfl

theorem applyModifiers_view (hview : x.aiScoringView = true)
    (hanalytic : x.attacker.ability = abAnalytic → k.order = true) :
    applyModifiers (viewCtx k x) = applyModifiers x := by
  funext damage
  rw [applyModifiers, applyTypeModifiers_view, applySideModifiers_view x hview hanalytic]
  rfl

theorem dealsNothing_view (md : MoveData) :
    dealsNothing (viewCall k c) md = dealsNothing c md := by
  simp only [dealsNothing, resolveMoveTypeAndBp_view]
  rfl

structure Keeps.CoversCall (k : Keeps) (c : DamageCall) : Prop where
  slowStart : c.attacker.ability = abSlowStart → k.turns = true
  analytic : c.attacker.ability = abAnalytic → k.order = true
  scoring : c.aiScoringView = true

theorem rollDamage_view (hk : k.CoversCall c) (md : MoveData) (isCrit : Bool) (roll : Nat) :
    rollDamage (viewCall k c) md isCrit roll = rollDamage c md isCrit roll := by
  have hmodifiers := applyModifiers_view (postRollCtx c md isCrit) hk.scoring hk.analytic
  simp only [rollDamage, applyRollAndModifiers, dealsNothing_view, postRollCtx_view, hmodifiers,
    preCritDamage_view c hk.slowStart]
  rfl

theorem isCritHit_view : isCritHit (viewCall k c) = isCritHit c := by
  funext md luck
  rfl

theorem hitDamage_view (hk : k.CoversCall c) (md : MoveData) (luck : LuckProfile)
    (rollIndex : Option Nat) : hitDamage (viewCall k c) md luck rollIndex =
      hitDamage c md luck rollIndex := by
  rw [hitDamage, hitDamage, isCritHit_view]
  exact rollDamage_view { c with procThreshold := luck.procThreshold }
    ⟨hk.slowStart, hk.analytic, hk.scoring⟩ md _ _

end Readers

section Estimates

variable {k : Keeps} {moves : List MoveData} {s : BattleState}

theorem monAt_view (ref : MonRef) : monAt (s.view k) ref = viewMon k (monAt s ref) := by
  rw [monAt, side_view, mon_view, monAt]

theorem activeRef_view (i : Int) : activeRef (s.view k) i = activeRef s i := by
  rw [activeRef, activeIdx_view, activeRef]

theorem hitBpOverride_view {md : MoveData} (hmd : k.CoversMove md) (atkSide : Int) :
    hitBpOverride (s.view k) atkSide md.moveId = hitBpOverride s atkSide md.moveId := by
  have horder : orderBpOverride (s.view k) atkSide md.moveId =
      orderBpOverride s atkSide md.moveId := by
    rw [orderBpOverride, orderBpOverride]
    by_cases hreads : readsOrder md = true
    · have hkept : (s.view k).prevTurnOrder = s.prevTurnOrder := if_pos (hmd.order hreads)
      rw [hkept]
    · simp only [readsOrder, Bool.or_eq_true, beq_iff_eq, not_or] at hreads
      simp [hreads]
  funext rolloutMaxBp hitNum
  rw [hitBpOverride, horder, hitBpOverride]

variable (hk : k.Covers moves s)
include hk

theorem expectedDamage_view {md : MoveData} (hmd : k.CoversMove md) (atk defn : MonRef)
    (opts : EstimateOptions) :
    expectedDamage (s.view k) atk md defn opts = expectedDamage s atk md defn opts := by
  have hatk := hk atk.side atk.idx
  unfold expectedDamage
  simp only [monAt_view, hitBpOverride_view hmd]
  refine congrArg List.sum (List.map_congr_left fun hitNum _ => ?_)
  have hhit := hitDamage_view (k := k)
    { attacker := monAt s atk
      moveId := md.moveId
      defender := monAt s defn
      state := s
      bpOverride := hitBpOverride s atk.side md.moveId opts.rolloutMaxBp hitNum
      defSideIdx := defn.side
      spreadHit := true
      aiScoringView := true
      attackerIdx := some atk.idx
      defenderIdx := some defn.idx } ⟨hatk.slowStart, hatk.analytic, rfl⟩ md opts.luck opts.rollIndex
  exact congrArg (fun dmg : Int =>
    if (opts.hitCountOverride.isNone && parentalBondActive (monAt s atk) md) = true ∧ hitNum = 1
    then max 1 (truncate (dmg * (1 / 4))) else dmg) hhit

theorem canKo_view {md : MoveData} (hmd : k.CoversMove md) (atk defn : MonRef)
    (opts : EstimateOptions) :
    canKo (s.view k) atk md defn opts = canKo s atk md defn opts := by
  simp only [canKo, monAt_view, expectedDamage_view hk hmd]
  rfl

omit hk in
theorem lookupMove_eq_ok {moveId : Int32} {md : MoveData} (h : lookupMove moves moveId = .ok md) :
    moveDataGet moves moveId = some md := by
  rw [lookupMove] at h
  split at h
  · rename_i hfind
    exact hfind.trans (congrArg some (Except.ok.inj h))
  · cases h

theorem coversMove_of_lookup {ref : MonRef} {slot : Int} {md : MoveData}
    (hslot : moveIdAt (monAt s ref) slot ≠ moveNone)
    (h : lookupMove moves (moveIdAt (monAt s ref) slot) = .ok md) : k.CoversMove md :=
  (hk ref.side ref.idx).moves slot md hslot (lookupMove_eq_ok h)

omit hk in
theorem foldlM_inv {α β ε : Type} {f : β → α → Except ε β} {P : β → Prop} {l : List α} {b b' : β}
    (hstep : ∀ b a b', P b → f b a = .ok b' → P b') (hb : P b) (h : l.foldlM f b = .ok b') :
    P b' := by
  induction l generalizing b with
  | nil => exact Except.ok.inj h ▸ hb
  | cons a l ih =>
    rw [List.foldlM_cons] at h
    obtain ⟨c, hc, hrest⟩ := bind_eq_ok.1 h
    exact ih (hstep b a c hb hc) hrest

omit hk in
theorem bestDamageMove_slot {atk defn : MonRef} {opts : EstimateOptions} {moveId : Int32}
    (h : bestDamageMove moves s atk defn opts = .ok moveId) :
    moveId = moveNone ∨ ∃ slot, moveIdAt (monAt s atk) slot = moveId := by
  rw [bestDamageMove] at h
  obtain ⟨best, hbest, h⟩ := bind_eq_ok.1 h
  rw [← Except.ok.inj h]
  refine foldlM_inv (P := fun best : Int32 × Int =>
    best.1 = moveNone ∨ ∃ slot, moveIdAt (monAt s atk) slot = best.1) ?_ (.inl rfl) hbest
  intro best slot best' hP hstep
  dsimp only at hstep
  split at hstep
  · exact Except.ok.inj hstep ▸ hP
  · obtain ⟨md, -, hstep⟩ := bind_eq_ok.1 hstep
    rw [← Except.ok.inj hstep]
    split
    · exact .inr ⟨slot, rfl⟩
    · exact hP

theorem bestDamageMove_view (atk defn : MonRef) (opts : EstimateOptions) :
    bestDamageMove moves (s.view k) atk defn opts = bestDamageMove moves s atk defn opts := by
  unfold bestDamageMove
  congr 2
  funext best slot
  dsimp only
  rw [monAt_view, moveIdAt_view]
  by_cases hslot : moveIdAt (monAt s atk) slot = moveNone
  · rw [if_pos hslot, if_pos hslot]
  · rw [if_neg hslot, if_neg hslot]
    refine bind_congr_ok fun md hmd => ?_
    rw [expectedDamage_view hk (coversMove_of_lookup hk hslot hmd)]

omit hk in
theorem effectiveSpeed_view {m : PokemonState} (hm : m.ability = abSlowStart → k.turns = true)
    (side : SideState) :
    effectiveSpeed (viewMon k m) (side.view k) (s.view k) = effectiveSpeed m side s := by
  simp only [effectiveSpeed, weatherSpeedBoost, effectiveWeather_view, effectiveStat_view,
    slowStart_view hm]
  rfl

theorem aiFaster_view (aiIdx : Int) : aiFaster (s.view k) aiIdx = aiFaster s aiIdx := by
  have hspeed (i : Int) : effectiveSpeed (activeMon (s.view k) i) ((s.view k).side i) (s.view k) =
      effectiveSpeed (activeMon s i) (s.side i) s := by
    rw [activeMon_view, side_view]
    exact effectiveSpeed_view (hk i _).slowStart _
  simp only [aiFaster, hspeed]

theorem rankedRolls_view {md : MoveData} (hmd : k.CoversMove md) (aiIdx : Int) :
    rankedRolls (s.view k) aiIdx md = rankedRolls s aiIdx md := by
  funext i
  simp only [rankedRolls, activeMon_view, activeRef_view, expectedDamage_view hk hmd]
  rfl

theorem damageEntry_view (aiIdx : Int) :
    damageEntry moves (s.view k) aiIdx = damageEntry moves s aiIdx := by
  funext action
  simp only [damageEntry, activeMon_view, moveIdAt_view]
  by_cases hmove : action.kind ≠ actionMove ∨ action.moveSlot < 0
  · rw [if_pos hmove, if_pos hmove]
  rw [if_neg hmove, if_neg hmove]
  by_cases hslot : moveIdAt (activeMon s aiIdx) action.moveSlot = moveNone
  · rw [if_pos hslot, if_pos hslot]
  rw [if_neg hslot, if_neg hslot]
  cases hmd : moveDataGet moves (moveIdAt (activeMon s aiIdx) action.moveSlot) with
  | none => rfl
  | some md =>
    have hcovers : k.CoversMove md := (hk aiIdx _).moves _ md hslot hmd
    have hmdId : md.moveId = moveIdAt (activeMon s aiIdx) action.moveSlot := moveId_of_moveDataGet hmd
    have hbelch : (moveIdAt (activeMon s aiIdx) action.moveSlot = moveBelch ∧
        (viewMon k (activeMon s aiIdx)).consumedBerry = itemNone) ↔
        (moveIdAt (activeMon s aiIdx) action.moveSlot = moveBelch ∧
          (activeMon s aiIdx).consumedBerry = itemNone) := by
      refine and_congr_right fun h => ?_
      have hkept : (viewMon k (activeMon s aiIdx)).consumedBerry =
          (activeMon s aiIdx).consumedBerry := if_pos (hcovers.berry (hmdId.trans h))
      rw [hkept]
    simp only [rankedRolls_view hk hcovers, hbelch]
    rfl

theorem buildDamageContext_view (aiIdx : Int) :
    buildDamageContext moves (s.view k) aiIdx = buildDamageContext moves s aiIdx := by
  funext actions
  rw [buildDamageContext, damageEntry_view hk, buildDamageContext]

end Estimates

end Engine

end NuzlockeSolver
