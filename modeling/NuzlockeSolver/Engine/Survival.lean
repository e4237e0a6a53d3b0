import NuzlockeSolver.Engine.Effects

/-!
# Damage and the effects that survive it

`cpp_apply_damage` and its delayed copy `apply_damage_fs`, against a law for both: hit points stay
within range, and a mon falls only to damage that reaches its hit points and that none of Endure,
Focus Sash, Sturdy and Focus Band stops.
-/

namespace NuzlockeSolver

namespace Engine

open Effects

section Model

def itemFocusBand : Int32 := 230

structure MoveExecLuck where
  procThreshold : ℚ := 0

def bandDraw (luck : MoveExecLuck) : ResolverCall := .chance .procFires 10 luck.procThreshold (-1)

/-- The hit points and the item that a hit leaves. The branches are tried in this order, and a
Focus Band that fails ends the search. -/
def afterHit (luck : MoveExecLuck) (defender : PokemonState) (damage : Int)
    (sturdyIgnored : Bool) : Turn (Int × Int32) :=
  let newHp := max 0 (defender.hp.toInt - damage)
  if newHp = 0 ∧ hasVolatile defender volatileEndureActive then .done (1, defender.item)
  else if newHp = 0 ∧ defender.item = itemFocusBand then
    .draw (bandDraw luck) fun fires => .done (if fires ≠ 0 then 1 else newHp, defender.item)
  else if newHp = 0 ∧ defender.item = itemFocusSash ∧ defender.hp = defender.maxHp then
    .done (1, itemNone)
  else if newHp = 0 ∧ defender.ability = abSturdy ∧ ¬ sturdyIgnored ∧
    defender.hp = defender.maxHp then .done (1, defender.item)
  else .done (newHp, defender.item)

def wound (damage newHp : Int) (newItem : Int32) (defender : PokemonState) : PokemonState :=
  { defender with
    hp := Int32.ofInt newHp
    fainted := newHp == 0
    item := newItem
    tookDamageThisTurn :=
      defender.tookDamageThisTurn || decide (min damage defender.hp.toInt > 0) }

def recordDamage (damage moveCategory : Int) (before defender : PokemonState) : PokemonState :=
  let actualTaken := min damage before.hp.toInt
  let tracked := actualTaken > 0 ∧ moveCategory ≥ 0
  { defender with
    hasHp := true
    lastDamageTaken :=
      if tracked then Int32.ofInt actualTaken else defender.lastDamageTaken
    lastPhysicalDamageTaken :=
      if tracked ∧ moveCategory = 0 then Int32.ofInt actualTaken
      else defender.lastPhysicalDamageTaken
    lastSpecialDamageTaken :=
      if tracked ∧ moveCategory = 1 then Int32.ofInt actualTaken
      else defender.lastSpecialDamageTaken }

def settleHit (state : BattleState) (defenderIdx : Int) (team : Int32) (newHp oppSideIdx : Int) :
    Turn BattleState :=
  if newHp = 0 then .done (cppReleaseInflictedTraps state defenderIdx team)
  else do
    let (_, state) ← checkBerry state defenderIdx oppSideIdx
    pure state

def cppApplyDamage (state : BattleState) (defenderIdx damage : Int) (attackerAbility : Int32)
    (luck : MoveExecLuck) (moveCategory oppSideIdx : Int) (defenderSlot : Nat) :
    Except Fault (Turn (Int × BattleState)) :=
  let team := activeIdx state defenderIdx defenderSlot
  let defender := (state.side defenderIdx).mon team
  if defender.fainted then
    .error (.runtimeError ("cpp_apply_damage called on already-fainted defender (species " ++
      toString defender.species.toInt ++ ", side " ++ toString defenderIdx ++ ")"))
  else
    .ok do
      let (newHp, newItem) ← afterHit luck defender damage (isMoldBreaker attackerAbility)
      let state := state.modifyMon defenderIdx team fun d =>
        recordDamage damage moveCategory d (wound damage newHp newItem d)
      let state ← settleHit state defenderIdx team newHp oppSideIdx
      pure (defender.hp.toInt - newHp, state)

/-- The delayed copy knows no attacker, and it does not look whether the mon still stands. -/
def applyDamageFs (state : BattleState) (defenderIdx damage : Int) (luck : MoveExecLuck)
    (oppSideIdx : Int) : Turn BattleState := do
  let team := activeIdx state defenderIdx 0
  let (newHp, newItem) ← afterHit luck ((state.side defenderIdx).mon team) damage false
  settleHit (state.modifyMon defenderIdx team (wound damage newHp newItem)) defenderIdx team newHp
    oppSideIdx

end Model

section Law

structure Hit where
  damage : Int
  sturdyIgnored : Bool
  bandFires : Bool

def drawFires (call : ResolverCall) (c : Channels) : Bool :=
  match call.draw.resolve c with
  | .ok (v, _) => call.draw.outcome v != 0
  | .error _ => false

def Rescued (d : PokemonState) (hit : Hit) : Prop :=
  hasVolatile d volatileEndureActive = true ∨
  (d.item = itemFocusSash ∧ d.hp = d.maxHp) ∨
  (d.ability = abSturdy ∧ d.hp = d.maxHp ∧ hit.sturdyIgnored = false) ∨
  (d.item = itemFocusBand ∧ hit.bandFires = true)

/-- What a hit may do to a defender. -/
structure SurvivalLaw (d : PokemonState) (hit : Hit) (after : PokemonState) : Prop where
  coherent : after.Coherent
  falls : after.fainted = true → d.hp.toInt ≤ hit.damage ∧ ¬ Rescued d hit

/-- A mon with Sturdy at full hit points whose Focus Band fails against a blow that reaches them:
the band is looked at, Sturdy is not. -/
def BandHidesSturdy (d : PokemonState) (hit : Hit) : Prop :=
  d.hp.toInt ≤ hit.damage ∧ hasVolatile d volatileEndureActive = false ∧
  d.item = itemFocusBand ∧ hit.bandFires = false ∧
  d.ability = abSturdy ∧ d.hp = d.maxHp ∧ hit.sturdyIgnored = false

end Law

section Proof

/-- A mon that stands: hit points above zero, within the maximum. -/
structure PokemonState.Standing (m : PokemonState) : Prop where
  pos : 0 < m.hp.toInt
  le_max : m.hp.toInt ≤ m.maxHp.toInt

/-- The hit as its defender meets it. -/
def hitOf (luck : MoveExecLuck) (c : Channels) (damage : Int) (sturdyIgnored : Bool) : Hit :=
  ⟨damage, sturdyIgnored, drawFires (bandDraw luck) c⟩

theorem rescued_of_bandHidesSturdy {d : PokemonState} {hit : Hit} (h : BandHidesSturdy d hit) :
    Rescued d hit :=
  .inr (.inr (.inl ⟨h.2.2.2.2.1, h.2.2.2.2.2.1, h.2.2.2.2.2.2⟩))

theorem drawFires_of_resolve {call : ResolverCall} {c c₁ : Channels} {v : Int}
    (h : call.draw.resolve c = .ok (v, c₁)) :
    drawFires call c = true ↔ call.draw.outcome v ≠ 0 := by
  simp [drawFires, h]

/-- What a hit leaves: nothing only where the damage suffices and no effect is looked at that
stops it. -/
theorem afterHit_spec {luck : MoveExecLuck} {d : PokemonState} {damage newHp : Int}
    {sturdyIgnored : Bool} {newItem : Int32} {c c' : Channels} (hd : d.Standing)
    (hdamage : 0 ≤ damage)
    (h : (afterHit luck d damage sturdyIgnored).Returns c (newHp, newItem) c') :
    (0 ≤ newHp ∧ newHp ≤ d.hp.toInt) ∧
      (newHp = 0 ↔ d.hp.toInt ≤ damage ∧
        (¬ Rescued d (hitOf luck c damage sturdyIgnored) ∨
          BandHidesSturdy d (hitOf luck c damage sturdyIgnored))) := by
  have hpos := hd.pos
  unfold afterHit at h
  extract_lets left at h
  have hleft : left = 0 ↔ d.hp.toInt ≤ damage := by omega
  have hband : itemFocusBand ≠ itemFocusSash := by decide
  simp only [Rescued, BandHidesSturdy, hitOf]
  split at h
  · obtain ⟨hret, -⟩ := Turn.returns_done.mp h
    cases hret
    grind
  split at h
  · obtain ⟨v, c₁, hv, h⟩ := Turn.returns_draw.mp h
    have hfires := drawFires_of_resolve hv
    obtain ⟨hret, -⟩ := Turn.returns_done.mp h
    cases hret
    grind
  split at h
  · obtain ⟨hret, -⟩ := Turn.returns_done.mp h
    cases hret
    grind
  split at h
  · obtain ⟨hret, -⟩ := Turn.returns_done.mp h
    cases hret
    grind
  · obtain ⟨hret, -⟩ := Turn.returns_done.mp h
    obtain ⟨rfl, rfl⟩ := Prod.mk.inj hret
    grind

theorem coherent_of_sameHp {m m' : PokemonState} (h : SameHp m m') (hm : m.Coherent) :
    m'.Coherent :=
  ⟨by rw [h.hp]; exact hm.nonneg, by rw [h.hp, h.maxHp]; exact hm.le_max,
    by rw [h.hp, h.fainted]; exact hm.fainted_iff⟩

theorem coherent_of_heals {m m' : PokemonState} (h : Heals m m') (hm : m.Coherent)
    (hstands : m.fainted = false) : m'.Coherent := by
  have hpos : m.hp.toInt ≠ 0 := fun h0 => by simp [hm.fainted_iff.mpr h0] at hstands
  obtain ⟨hrise, hle⟩ := h.rises hm.nonneg hm.le_max
  have hnonneg := hm.nonneg
  refine ⟨by omega, by rw [h.maxHp]; exact hle, ?_⟩
  rw [h.fainted, hstands]
  constructor
  · intro hf
    cases hf
  · intro h0
    omega

structure Wounds (newHp : Int) (m m' : PokemonState) : Prop where
  hp : m'.hp = Int32.ofInt newHp
  maxHp : m'.maxHp = m.maxHp
  fainted : m'.fainted = (newHp == 0)

theorem wounds_wound (damage newHp : Int) (newItem : Int32) (m : PokemonState) :
    Wounds newHp m (wound damage newHp newItem m) :=
  ⟨rfl, rfl, rfl⟩

theorem wounds_recordDamage (damage newHp moveCategory : Int) (newItem : Int32)
    (m : PokemonState) :
    Wounds newHp m (recordDamage damage moveCategory m (wound damage newHp newItem m)) :=
  ⟨rfl, rfl, rfl⟩

theorem Wounds.coherent {newHp : Int} {m m' : PokemonState} (h : Wounds newHp m m')
    (hm : m.Standing) (h0 : 0 ≤ newHp) (hle : newHp ≤ m.hp.toInt) : m'.Coherent := by
  have hmax := hm.le_max
  have hhp : m'.hp.toInt = newHp := by
    rw [h.hp]
    exact toInt_ofInt_hp m.maxHp h0 (by omega)
  refine ⟨by omega, by rw [h.maxHp]; omega, ?_⟩
  rw [h.fainted, hhp, beq_iff_eq]

/-- After the traps or the berry the mon is still coherent, and fallen as it was left. -/
theorem settleHit_spec {state after : BattleState} {i newHp oppSideIdx : Int} {team : Int32}
    {c c' : Channels} {f : PokemonState → PokemonState}
    (hd : ((state.side i).mon team).Standing)
    (hf : Wounds newHp ((state.side i).mon team) (f ((state.side i).mon team)))
    (h0 : 0 ≤ newHp) (hle : newHp ≤ ((state.side i).mon team).hp.toInt)
    (h : (settleHit (state.modifyMon i team f) i team newHp oppSideIdx).Returns c after c') :
    ((after.side i).mon team).Coherent ∧
      (((after.side i).mon team).fainted = true ↔ newHp = 0) := by
  have hmon := mon_modifyMon_self hd.pos f
  have hcoherent := hf.coherent hd h0 hle
  have hfainted : (f ((state.side i).mon team)).fainted = true ↔ newHp = 0 := by
    rw [hf.fainted, beq_iff_eq]
  rw [← hmon] at hcoherent hfainted
  unfold settleHit at h
  split at h
  · obtain ⟨rfl, -⟩ := Turn.returns_done.mp h
    have hsame := (related_cppReleaseInflictedTraps (state.modifyMon i team f) i team).mons i team
    exact ⟨coherent_of_sameHp hsame hcoherent, by rw [hsame.fainted]; exact hfainted⟩
  · rename_i hstands
    obtain ⟨⟨eaten, fed⟩, c₁, hberry, hdone⟩ := Turn.returns_bind.mp h
    obtain ⟨rfl, -⟩ := Turn.returns_pure.mp hdone
    have hheals := (related_checkBerry hberry).mons i team
    have hnot := Bool.eq_false_iff.mpr (mt hfainted.mp hstands)
    exact ⟨coherent_of_heals hheals hcoherent hnot, by rw [hheals.fainted]; exact hfainted⟩

theorem survivalLaw_iff {d after : PokemonState} {hit : Hit} {newHp : Int}
    (hnew : newHp = 0 ↔ d.hp.toInt ≤ hit.damage ∧ (¬ Rescued d hit ∨ BandHidesSturdy d hit))
    (hcoherent : after.Coherent) (hfainted : after.fainted = true ↔ newHp = 0) :
    SurvivalLaw d hit after ↔ ¬ BandHidesSturdy d hit := by
  constructor
  · intro hlaw hhides
    have hfalls := hlaw.falls (hfainted.mpr (hnew.mpr ⟨hhides.1, .inr hhides⟩))
    exact hfalls.2 (rescued_of_bandHidesSturdy hhides)
  · intro hshown
    refine ⟨hcoherent, fun hfell => ?_⟩
    obtain ⟨hreach, hfate⟩ := hnew.mp (hfainted.mp hfell)
    exact ⟨hreach, hfate.resolve_right hshown⟩

end Proof

section Result

/-- Both copies obey the law, except where a Focus Band that fails hides Sturdy. -/
theorem survives_iff_sturdy_seen (state : BattleState) (i damage : Int) (luck : MoveExecLuck)
    (oppSideIdx : Int) (c : Channels) (hdamage : 0 ≤ damage) :
    (∀ (slot : Nat) (attackerAbility : Int32) (moveCategory : Int),
      ((state.side i).mon (activeIdx state i slot)).Standing →
      ((state.side i).mon (activeIdx state i slot)).fainted = false →
      ∃ turn, cppApplyDamage state i damage attackerAbility luck moveCategory oppSideIdx slot =
          .ok turn ∧
        ∀ taken after c', turn.Returns c (taken, after) c' →
          (SurvivalLaw ((state.side i).mon (activeIdx state i slot))
              (hitOf luck c damage (isMoldBreaker attackerAbility))
              ((after.side i).mon (activeIdx state i slot)) ↔
            ¬ BandHidesSturdy ((state.side i).mon (activeIdx state i slot))
              (hitOf luck c damage (isMoldBreaker attackerAbility)))) ∧
    ((activeMon state i).Standing →
      ∀ after c', (applyDamageFs state i damage luck oppSideIdx).Returns c after c' →
        (SurvivalLaw (activeMon state i) (hitOf luck c damage false)
            ((after.side i).mon (activeIdx state i 0)) ↔
          ¬ BandHidesSturdy (activeMon state i) (hitOf luck c damage false))) := by
  constructor
  · intro slot attackerAbility moveCategory hd halive
    refine ⟨_, if_neg (by rw [halive]; decide), fun taken after c' hrun => ?_⟩
    obtain ⟨⟨newHp, newItem⟩, c₁, hhit, hrun⟩ := Turn.returns_bind.mp hrun
    obtain ⟨settled, c₂, hsettle, hdone⟩ := Turn.returns_bind.mp hrun
    obtain ⟨hret, -⟩ := Turn.returns_pure.mp hdone
    obtain ⟨-, rfl⟩ := Prod.mk.inj hret
    obtain ⟨⟨h0, hle⟩, hnew⟩ := afterHit_spec hd hdamage hhit
    obtain ⟨hcoherent, hfainted⟩ :=
      settleHit_spec hd (wounds_recordDamage damage newHp moveCategory newItem _) h0 hle hsettle
    exact survivalLaw_iff hnew hcoherent hfainted
  · intro hd after c' hrun
    obtain ⟨⟨newHp, newItem⟩, c₁, hhit, hsettle⟩ := Turn.returns_bind.mp hrun
    obtain ⟨⟨h0, hle⟩, hnew⟩ := afterHit_spec hd hdamage hhit
    obtain ⟨hcoherent, hfainted⟩ :=
      settleHit_spec hd (wounds_wound damage newHp newItem _) h0 hle hsettle
    exact survivalLaw_iff hnew hcoherent hfainted

def sturdyMon (item : Int32) : PokemonState :=
  { ability := abSturdy, item := item, hasMaxHp := true, maxHp := 20, hasHp := true, hp := 20 }

def sturdySide (item : Int32) : SideState where
  team := loneTeam (sturdyMon item)
  activeIndices := firstActive

def sturdyState (item : Int32) : BattleState :=
  { side0 := sturdySide itemNone, side1 := sturdySide item }

def unlucky : MoveExecLuck := { procThreshold := 50 }

theorem sturdy_saves :
    (∃ turn taken after c',
      cppApplyDamage (sturdyState itemNone) 1 30 0 unlucky 0 0 0 = .ok turn ∧
      turn.Returns {} (taken, after) c' ∧
      SurvivalLaw (activeMon (sturdyState itemNone) 1)
        (hitOf unlucky {} 30 (isMoldBreaker 0)) (activeMon after 1)) ∧
    ∃ after c', (applyDamageFs (sturdyState itemNone) 1 30 unlucky 0).Returns {} after c' ∧
      SurvivalLaw (activeMon (sturdyState itemNone) 1) (hitOf unlucky {} 30 false)
        (activeMon after 1) := by
  have hlaw := survives_iff_sturdy_seen (sturdyState itemNone) 1 30 unlucky 0 {} (by decide)
  have hshown (ignored : Bool) :
      ¬ BandHidesSturdy (activeMon (sturdyState itemNone) 1) (hitOf unlucky {} 30 ignored) :=
    fun hhides => absurd hhides.2.2.1 (by decide)
  constructor
  · obtain ⟨turn, hturn, hruns⟩ := hlaw.1 0 0 0 ⟨by decide, by decide⟩ rfl
    cases hturn
    exact ⟨_, _, _, _, rfl, rfl, (hruns _ _ _ rfl).mpr (hshown _)⟩
  · exact ⟨_, _, rfl, (hlaw.2 ⟨by decide, by decide⟩ _ _ rfl).mpr (hshown _)⟩

/-- Twenty of twenty hit points, thirty damage, and a Focus Band that fails: the mon falls, though
its Sturdy is not ignored. -/
theorem focus_band_hides_sturdy :
    ∃ turn taken after c',
      cppApplyDamage (sturdyState itemFocusBand) 1 30 0 unlucky 0 0 0 = .ok turn ∧
      turn.Returns {} (taken, after) c' ∧
      (activeMon (sturdyState itemFocusBand) 1).Standing ∧
      ¬ SurvivalLaw (activeMon (sturdyState itemFocusBand) 1)
        (hitOf unlucky {} 30 (isMoldBreaker 0)) (activeMon after 1) := by
  refine ⟨_, _, _, _, rfl, rfl, ⟨by decide, by decide⟩, fun hlaw => ?_⟩
  have hfalls := hlaw.falls (by decide)
  exact hfalls.2 (.inr (.inr (.inl ⟨by decide, by decide, by decide⟩)))

end Result

end Engine

end NuzlockeSolver
