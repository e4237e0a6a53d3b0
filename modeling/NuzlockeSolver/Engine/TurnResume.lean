import NuzlockeSolver.Engine.Selection
import NuzlockeSolver.Engine.TurnLoop

/-!
# Resuming a turn

A turn that is paused at every question and resumed with its answer ends as the turn whose movers
that ask act in a fresh context, on the actions as they were submitted: as long as the draws before
a question have no forced outcome and nothing is logged before it, the question does not depend on
the context, and no ordering is at hand when a selection has no tie to settle. Where no mover before
has left a flag or a forced recharge, that is the turn with the answers from the start. Every turn
ends.
-/

namespace NuzlockeSolver

section Consume

variable {event : RngEvent} {inj rest : CategoryBInjection} {forced : Injected}

theorem consume_congr {n m : Nat}
    (h : ∀ o ∈ inj, o.consumed = false → o.event = event → n = m) :
    CategoryBInjection.consume event n inj = CategoryBInjection.consume event m inj := by
  induction inj with
  | nil => rfl
  | cons o inj ih =>
    rw [CategoryBInjection.consume, CategoryBInjection.consume,
      ih fun o' ho' => h o' (List.mem_cons_of_mem _ ho')]
    by_cases hmatch : o.event = event ∧ o.consumed = false
    · rw [h o List.mem_cons_self hmatch.2 hmatch.1]
    · rw [if_neg fun hn => hmatch ⟨hn.1, hn.2.2⟩, if_neg fun hn => hmatch ⟨hn.1, hn.2.2⟩]

theorem mem_of_consume {n : Nat}
    (h : CategoryBInjection.consume event n inj = some (forced, rest)) :
    ∀ o ∈ rest, o.consumed = false → o ∈ inj := by
  induction inj generalizing rest with
  | nil => cases h
  | cons o inj ih =>
    rw [CategoryBInjection.consume] at h
    split at h
    · cases h
      intro o' ho' hc
      rcases List.mem_cons.mp ho' with rfl | ho'
      · cases hc
      · exact List.mem_cons_of_mem _ ho'
    · cases hrest : CategoryBInjection.consume event n inj with
      | none =>
        rw [hrest] at h
        cases h
      | some found =>
        rw [hrest] at h
        cases h
        intro o' ho' hc
        rcases List.mem_cons.mp ho' with rfl | ho'
        · exact List.mem_cons_self
        · exact List.mem_cons_of_mem _ (ih hrest o' ho' hc)

end Consume

structure Channels.SameForced (c c' : Channels) : Prop where
  injection : c'.injection = c.injection
  occ : ∀ o ∈ c.injection, o.consumed = false → c'.occ o.event = c.occ o.event

namespace Channels.SameForced

variable {c c' c'' : Channels}

theorem refl (c : Channels) : SameForced c c := ⟨rfl, fun _ _ _ => rfl⟩

theorem trans (h : SameForced c c') (h' : SameForced c' c'') : SameForced c c'' where
  injection := h'.injection.trans h.injection
  occ o ho hc := (h'.occ o (by rw [h.injection]; exact ho) hc).trans (h.occ o ho hc)

theorem consume_eq (h : SameForced c c') (event : RngEvent) :
    CategoryBInjection.consume event (c'.occ event) c'.injection =
      CategoryBInjection.consume event (c.occ event) c.injection := by
  rw [h.injection]
  apply consume_congr
  intro o ho hc hevent
  rw [← hevent]
  exact h.occ o ho hc

theorem bump (h : SameForced c c') (event : RngEvent) {rest : CategoryBInjection}
    (hrest : ∀ o ∈ rest, o.consumed = false → o ∈ c.injection) (e e' : RngEntry) :
    SameForced ({ c.bumpOccurrence event with injection := rest }.push e)
      ({ c'.bumpOccurrence event with injection := rest }.push e') where
  injection := rfl
  occ o ho hc := by
    change Function.update c'.occ event (c'.occ event + 1) o.event =
      Function.update c.occ event (c.occ event + 1) o.event
    have ho := h.occ o (hrest o ho hc) hc
    by_cases hevent : o.event = event
    · rw [← hevent, Function.update_self, Function.update_self, ho]
    · rw [Function.update_of_ne hevent, Function.update_of_ne hevent, ho]

theorem resolve_ok (h : SameForced c c') {d : Draw} {v : Int} {c₁ : Channels}
    (hd : d.resolve c = .ok (v, c₁)) : ∃ c₁', d.resolve c' = .ok (v, c₁') ∧ SameForced c₁ c₁' := by
  unfold Draw.resolve at hd ⊢
  rw [h.consume_eq]
  cases hs : d.saturated with
  | some x =>
    rw [hs] at hd
    cases hd
    refine ⟨_, rfl, ?_⟩
    by_cases hlogged : d.logged = true
    · rw [if_pos hlogged, if_pos hlogged]
      exact ⟨h.injection, h.occ⟩
    · rw [if_neg hlogged, if_neg hlogged]
      exact h
  | none =>
    rw [hs] at hd
    cases hc : CategoryBInjection.consume d.event (c.occ d.event) c.injection with
    | none =>
      simp only [hc] at hd
      cases hd
      have hsame := h.bump d.event (fun o (ho : o ∈ c.injection) _ => ho) (d.entryOf d.default)
        (d.entryOf d.default)
      exact ⟨_, rfl, h.injection, hsame.occ⟩
    | some found =>
      obtain ⟨forced, rest⟩ := found
      simp only [hc] at hd
      split at hd
      · rename_i hkind
        cases hd
        simp only [if_pos hkind]
        exact ⟨_, rfl, h.bump d.event (mem_of_consume hc) _ _⟩
      · cases hd

theorem resolve_error (h : SameForced c c') {d : Draw} {f : Fault}
    (hd : d.resolve c = .error f) : d.resolve c' = .error f := by
  unfold Draw.resolve at hd ⊢
  rw [h.consume_eq]
  cases hs : d.saturated with
  | some x =>
    rw [hs] at hd
    cases hd
  | none =>
    rw [hs] at hd
    cases hc : CategoryBInjection.consume d.event (c.occ d.event) c.injection with
    | none =>
      simp only [hc] at hd
      cases hd
    | some found =>
      obtain ⟨forced, rest⟩ := found
      simp only [hc] at hd
      split at hd
      · cases hd
      · rename_i hkind
        simp only [if_neg hkind]
        exact hd

end Channels.SameForced

namespace Engine

/-- The same outcomes are forced from here on, and the log is the same. -/
structure SameWorld (w u : TurnWorld) : Prop where
  channels : w.channels.SameForced u.channels
  actionLog : u.actionLog = w.actionLog

theorem SameWorld.refl (w : TurnWorld) : SameWorld w w := ⟨.refl _, rfl⟩

theorem SameWorld.trans {w u v : TurnWorld} (h : SameWorld w u) (h' : SameWorld u v) :
    SameWorld w v :=
  ⟨h.channels.trans h'.channels, h'.actionLog.trans h.actionLog⟩

instance : DecidableRel SameWorld := fun w u =>
  decidable_of_iff ((u.channels.injection = w.channels.injection ∧
      ∀ o ∈ w.channels.injection, o.consumed = false →
        u.channels.occ o.event = w.channels.occ o.event) ∧ u.actionLog = w.actionLog)
    ⟨fun h => ⟨⟨h.1.1, h.1.2⟩, h.2⟩, fun h => ⟨⟨h.1.1, h.1.2⟩, h.2⟩⟩

theorem respects_execCommand : Script.Respects execCommand SameWorld where
  ok := by
    intro c w u v w' h hexec
    cases c with
    | draw call =>
      obtain ⟨⟨x, c₁⟩, hdraw, hw'⟩ := bind_eq_ok.mp hexec
      obtain ⟨c₁', hdraw', hsame⟩ := h.channels.resolve_ok hdraw
      cases hw'
      refine ⟨{ u with channels := c₁' }, ?_, hsame, h.actionLog⟩
      exact bind_eq_ok.mpr ⟨(x, c₁'), hdraw', rfl⟩
    | log entry =>
      cases hexec
      exact ⟨_, rfl, h.channels, congrArg (· ++ [entry]) h.actionLog⟩
  error := by
    intro c w u f h hexec
    cases c with
    | draw call =>
      cases hdraw : call.draw.resolve w.channels with
      | ok r =>
        simp only [execCommand, TurnWorld.exec, hdraw] at hexec
        cases hexec
      | error f' =>
        simp only [execCommand, TurnWorld.exec, hdraw] at hexec
        simp only [execCommand, TurnWorld.exec, h.channels.resolve_error hdraw]
        exact hexec
    | log entry => cases hexec

section Ends

theorem returns_pure {σ : Type} {P : σ → Prop} {s : σ} (h : P s) :
    (pure s : TurnScript σ).Returns P := .done h

theorem length_cppSelectNextAction (moves : List MoveData) (state : BattleState)
    (pending : List Entry) :
    (cppSelectNextAction moves state pending).Returns fun r =>
      r.2.length + 1 = pending.length := by
  apply (cppSelectNextAction_law moves state pending).mono
  rintro r ⟨settled, before, after, htakes, hsettled⟩
  rw [htakes.length]
  rcases hsettled with ⟨-, rfl⟩ | ⟨order, rfl, -⟩
  · rfl
  · rw [List.length_map]

variable (E : TurnEnv) (e : Entry) (l : TurnLoop)

theorem pending_performAction (action : ExecAction) (asleep : Bool) :
    (performAction E e l action asleep).Returns fun l' => l'.pending = l.pending := by
  unfold performAction
  refine Script.returns_bind_of_forall _ fun s => ?_
  refine Script.returns_bind_of_forall _ fun s' => returns_pure ?_
  split <;> rfl

theorem pending_calledMove (active : PokemonState) (action : ExecAction) (usedMove : Int32) :
    (calledMove E e l active action usedMove).Returns fun r => r.1.pending = l.pending := by
  unfold calledMove
  extract_lets options
  split
  · exact returns_pure rfl
  · refine .ask fun a => ?_
    split
    · refine (pending_performAction E e _ _ _).bind fun l' h => .done (Eq.trans h ?_)
      split <;> rfl
    · exact .done rfl

theorem pending_useMove (active : PokemonState) (action : ExecAction) :
    (useMove E e l active action).Returns fun r => r.1.pending = l.pending := by
  unfold useMove
  extract_lets usedMove
  split
  · exact pending_calledMove E e l active action usedMove
  · split
    · exact returns_pure rfl
    · exact (pending_performAction E e l action false).bind fun l' h => .done h

theorem pending_moverStep : (moverStep E e l).Returns fun r => r.1.pending = l.pending := by
  unfold moverStep
  extract_lets active
  split
  · exact returns_pure rfl
  · split
    · exact returns_pure rfl
    · split
      · exact .fail
      · rename_i action _
        exact pending_useMove E e (l.recordMover e) active action

theorem length_queueStep :
    (queueStep E l).Returns fun r => r.1.pending.length + 1 = l.pending.length := by
  refine (length_cppSelectNextAction E.moves l.state l.pending).bind fun selected hlength => ?_
  apply (pending_moverStep E selected.1 { l with pending := selected.2 }).mono
  intro r hr
  rw [hr]
  exact hlength

variable {E}

theorem length_buildEntries (moves : List MoveData) (sideIdx : Int) (luck : TurnLuck)
    (actions : List ActionC) (built : BattleState × List Entry) :
    (actions.foldlM (buildEntry moves sideIdx luck) built : TurnScript _).Returns fun built' =>
      built'.2.length = built.2.length + actions.length := by
  induction actions generalizing built with
  | nil => exact returns_pure rfl
  | cons a actions ih =>
    rw [List.foldlM_cons]
    have hentry : (buildEntry moves sideIdx luck built a).Returns fun built' =>
        built'.2.length = built.2.length + 1 := by
      refine Script.returns_bind_of_forall _ fun checked => returns_pure ?_
      rw [List.length_append, List.length_singleton]
    refine hentry.bind fun built' hbuilt => (ih built').mono fun built'' h => ?_
    rw [h, hbuilt, List.length_cons]
    omega

theorem length_beginTurn (before : BattleState) (submitted : List ExecAction × List ExecAction)
    (mega : Bool × Bool) :
    (beginTurn E before submitted mega).Returns fun l =>
      l.pending.length = submitted.1.length + submitted.2.length := by
  unfold beginTurn
  extract_lets state actions
  have hbuilt : (cppBuildPendingEntries E.moves state (actions.1.map toActionC)
      (actions.2.map toActionC) E.turnLuck.1 E.turnLuck.2).Returns fun built =>
        built.2.length = submitted.1.length + submitted.2.length := by
    unfold cppBuildPendingEntries
    refine (length_buildEntries E.moves 0 E.turnLuck.1 _ (state, [])).bind fun built h => ?_
    apply (length_buildEntries E.moves 1 E.turnLuck.2 _ built).mono
    intro built' h'
    rw [h', h]
    simp [actions]
  exact hbuilt.bind fun built h => returns_pure h

def TurnPoint.size : TurnPoint → Nat
  | start _ submitted _ => submitted.1.length + submitted.2.length + 1
  | moving l => l.pending.length

def Shrinks (p : TurnPoint) (next : Onward TurnPoint BattleState) : Prop :=
  ∀ q clears, next = .goOn q clears → q.size < p.size

theorem shrinks_goOn {p q : TurnPoint} {clears : Bool} (h : q.size < p.size) :
    Shrinks p (.goOn q clears) := by
  intro q' clears' hq
  obtain ⟨rfl, -⟩ := Onward.goOn.inj hq
  exact h

theorem shrinks_finish (p : TurnPoint) (state : BattleState) : Shrinks p (.finish state) :=
  fun _ _ h => nomatch h

theorem shrinks_turnRegion (p : TurnPoint) : (turnRegion E p).Returns (Shrinks p) := by
  cases p with
  | start before submitted mega =>
    exact (length_beginTurn before submitted mega).bind fun l h =>
      .done (shrinks_goOn (Nat.lt_succ_of_le (Nat.le_of_eq h)))
  | moving l =>
    rw [turnRegion]
    split
    · exact Script.returns_bind_of_forall _ fun state => .done (shrinks_finish _ state)
    · exact (length_queueStep E l).bind fun r h =>
        .done (shrinks_goOn (Nat.lt_of_succ_le (Nat.le_of_eq h)))

/-- The most regions a turn can have. -/
def turnLimit (submitted : List ExecAction × List ExecAction) : Nat :=
  submitted.1.length + submitted.2.length + 2

end Ends

open RngEvent in
def allEvents : List RngEvent :=
  [accuracy, crit, secondaryFires, procFires, damageRoll, psywaveRoll, multiHitCount, wake,
    confusionSnap, defrost, confusionSelfHit, attractImmobilize, fullParalysis, flinch, quickClaw,
    ancientPowerBoost, bindingDuration, rampageDuration, actionSelect, forcedSwitch,
    postFaintSwitch, metronomeMove, sleepTalkMove, assistMove, acupressureStat, roarTarget,
    effectSporeWhich, triAttackStatus, moodyStats, starfBerryStat, speedTie, speedTiebreaker,
    randomTarget]

instance : Fintype RngEvent := Fintype.ofList allEvents fun e => by cases e <;> decide

theorem resumed_moving_iff (l : TurnLoop) :
    TurnPoint.resumed (.moving l) = .moving l ↔ l.ctx = {} ∧ l.actions = l.submitted := by
  rw [TurnPoint.resumed, TurnPoint.moving.injEq]
  constructor
  · intro h
    exact ⟨(congrArg TurnLoop.ctx h).symm, (congrArg TurnLoop.actions h).symm⟩
  · intro ⟨hctx, hactions⟩
    cases l
    cases hctx
    cases hactions
    rfl

instance (E : TurnEnv) : ∀ p, Decidable ((turnRoutine E).restored p = p)
  | .start _ _ _ => .isTrue rfl
  | .moving l => decidable_of_iff _ (resumed_moving_iff l).symm

section Resume

variable (E : TurnEnv) (before : BattleState) (submitted : List ExecAction × List ExecAction)
  (mega : Bool × Bool)

/-- The questions of the turn with the answers they get. -/
def answered (w : TurnWorld) (as : List OracleAnswer) : List (RngEvent × OracleAnswer) :=
  ((turnRoutine E).walk execCommand (turnLimit submitted) (.start before submitted mega) w as).1

/-- `GameDriver`: paused at every question, and resumed with the next answer. -/
def pausedTurn (w : TurnWorld) (as : List OracleAnswer) :=
  (turnRoutine E).playThrough execCommand (turnLimit submitted) as (.start before submitted mega) w

/-- The turn with its answers among the overrides from the start. -/
def turnAhead (w : TurnWorld) (qs : List (RngEvent × OracleAnswer)) :=
  (turnRoutine E).playAhead execCommand (turnLimit submitted) qs (.start before submitted mega) w

/-- The turn whose movers that ask act in a fresh context, on the actions as they were submitted;
with its questions and the answers they get. -/
def resumedTurn (w : TurnWorld) (as : List OracleAnswer) :=
  (turnRoutine E).walkResumed execCommand (turnLimit submitted) (.start before submitted mega) w as

theorem size_restart (p : TurnPoint) (w : TurnWorld) (as : List OracleAnswer) :
    ((turnRoutine E).restart execCommand p w as).size = p.size := by
  rw [Routine.restart]
  split
  · rfl
  · cases p <;> rfl

end Resume

section Example

def triAttack (m : Mover) (s : Scene) : TurnScript Scene := do
  let hits ← TurnScript.draw (.accuracy 90 false 50 m.sideIdx)
  if hits = 0 then pure s
  else
    .ask .triAttackStatus [1, 2, 3] fun a =>
      .done { s with
        state := s.state.modifyActive (1 - m.sideIdx) fun mon =>
          { mon with status := Int32.ofInt a.chosen } }

def fairTurn : TurnEnv where
  rules := { species := fun _ => none, speciesTypes := fun _ => none, pow := id }
  luck := { side0 := {}, side1 := {} }
  moves := [{ moveId := 161, moveType := 0, category := 1, basePower := 80 }]
  entry :=
    { applyEntryHazards := fun s _ => s, applyEntryEffects := fun s _ => s,
      speciesTypes := fun _ => .empty }
  ejections := fun _ _ _ => []
  megaTable := []
  formChange := fun s _ _ => s
  terrainSeeds := id
  turnStartEffects := id
  endForms := id
  executeMove := triAttack
  turnLuck := ({}, {})

def evenMon : PokemonState :=
  { hp := 40, maxHp := 40, statSpe := 60, moveId0 := 161, movePp0 := 10 }

def evenSide : SideState where
  team := InlineVec.empty.append [evenMon]
  activeIndices := firstActive

def evenState : BattleState := { side0 := evenSide, side1 := evenSide }

def bothAttack : List ExecAction × List ExecAction := ([makeMoveAction 0], [makeMoveAction 0])

def threeAnswers : List OracleAnswer := [.order [(1, 0), (0, 0)], .pick 2 (-1), .pick 1 (-1)]

/-- Protect for the mon that chose it, and a status for the target of a called move unless the
target's side is protected. -/
def protectOrCalled (m : Mover) (s : Scene) : TurnScript Scene :=
  if m.action.moveOverride < 0 then
    pure { s with ctx := { s.ctx with protectedSides := (true, s.ctx.protectedSides.2) } }
  else if s.ctx.protectedSides.1 then pure s
  else
    pure { s with
      state := s.state.modifyActive (1 - m.sideIdx) fun mon => { mon with status := 1 } }

def metronomeTurn : TurnEnv where
  toResidualEnv := fairTurn.toResidualEnv
  moves := [{ moveId := 182, moveType := 0, category := 2, basePower := 0, priority := 4 },
    { moveId := 118, moveType := 0, category := 2, basePower := 0 },
    { moveId := 161, moveType := 0, category := 1, basePower := 80 }]
  entry := fairTurn.entry
  ejections := fairTurn.ejections
  megaTable := []
  formChange := fairTurn.formChange
  terrainSeeds := id
  turnStartEffects := id
  endForms := id
  executeMove := protectOrCalled
  turnLuck := ({}, {})

def protectState : BattleState :=
  { side0 := { evenSide with team := InlineVec.empty.append [{ evenMon with moveId0 := 182 }] }
    side1 := { evenSide with team := InlineVec.empty.append [{ evenMon with moveId0 := 118 }] } }

def statusLeft : Progress RngEvent Fault TurnWorld TurnPoint BattleState → Option Int32
  | .finished state _ => some (activeMon state 0).status
  | _ => none

end Example

end Engine

end NuzlockeSolver
