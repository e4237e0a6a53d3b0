import NuzlockeSolver.Bucket.PpCanon
import NuzlockeSolver.Engine.Actions

/-!
# The canonical PP of a battle

`canonicalize_pp` keeps of the PP only whether a slot has any left, except in the slots of
self-healing moves, and of the turns in battle only what lies below the clamp. Two battles have the
same canonical form exactly when they agree in all else.
-/

namespace NuzlockeSolver

namespace Engine

def ppSentinel : Int32 := 99

def turnsInBattleClamp : Int32 := 5

def canonicalizeSlot (moveId pp : Int32) : Int32 :=
  if isCycleCapableMove moveId.toInt then pp else if pp > 0 then ppSentinel else pp

def clampTurns (turns : Int32) : Int32 :=
  if turns > turnsInBattleClamp then turnsInBattleClamp else turns

def canonicalizeMon (m : PokemonState) : PokemonState :=
  { m with
    movePp0 := canonicalizeSlot m.moveId0 m.movePp0
    movePp1 := canonicalizeSlot m.moveId1 m.movePp1
    movePp2 := canonicalizeSlot m.moveId2 m.movePp2
    movePp3 := canonicalizeSlot m.moveId3 m.movePp3
    turnsInBattle := clampTurns m.turnsInBattle }

def SideState.canonicalizePp (side : SideState) : SideState :=
  { side with team := side.team.map canonicalizeMon }

def BattleState.canonicalizePp (s : BattleState) : BattleState :=
  { s with side0 := s.side0.canonicalizePp, side1 := s.side1.canonicalizePp }

section Slots

theorem canonicalizeSlot_pos_iff (moveId pp : Int32) :
    canonicalizeSlot moveId pp > 0 ↔ pp > 0 := by
  unfold canonicalizeSlot
  split_ifs with hmove hpos
  · rfl
  · exact ⟨fun _ => hpos, fun _ => by decide⟩
  · rfl

theorem canonicalizeSlot_eq_zero_iff (moveId pp : Int32) :
    canonicalizeSlot moveId pp = 0 ↔ pp = 0 := by
  unfold canonicalizeSlot
  split_ifs with hmove hpos
  · rfl
  · refine ⟨fun h => absurd h (by decide), fun h => ?_⟩
    rw [h] at hpos
    exact absurd hpos (by decide)
  · rfl

theorem canonicalizeSlot_idem (moveId pp : Int32) :
    canonicalizeSlot moveId (canonicalizeSlot moveId pp) = canonicalizeSlot moveId pp := by
  unfold canonicalizeSlot
  split_ifs with hmove hpos hsentinel
  · rfl
  · rfl
  · exact absurd (by decide) hsentinel
  · rfl

theorem clampTurns_idem (turns : Int32) : clampTurns (clampTurns turns) = clampTurns turns := by
  unfold clampTurns
  split_ifs with h h'
  · rfl
  · rfl
  · rfl

theorem clampTurns_lt_iff {k : Int32} (hk : k ≤ turnsInBattleClamp) (turns : Int32) :
    clampTurns turns < k ↔ turns < k := by
  unfold clampTurns
  split_ifs with h
  · rw [gt_iff_lt, Int32.lt_iff_toInt_lt] at h
    rw [Int32.le_iff_toInt_le] at hk
    rw [Int32.lt_iff_toInt_lt, Int32.lt_iff_toInt_lt]
    omega
  · rfl

theorem clampTurns_gt_iff {k : Int32} (hk : k < turnsInBattleClamp) (turns : Int32) :
    clampTurns turns > k ↔ turns > k := by
  unfold clampTurns
  split_ifs with h
  · rw [gt_iff_lt, Int32.lt_iff_toInt_lt] at h
    rw [Int32.lt_iff_toInt_lt] at hk
    rw [gt_iff_lt, gt_iff_lt, Int32.lt_iff_toInt_lt, Int32.lt_iff_toInt_lt]
    omega
  · rfl

theorem clampTurns_eq_iff {k : Int32} (hk : k < turnsInBattleClamp) (turns : Int32) :
    clampTurns turns = k ↔ turns = k := by
  unfold clampTurns
  split_ifs with h
  · refine ⟨fun heq => ?_, fun heq => ?_⟩
    · rw [heq] at hk
      exact absurd hk (by rw [Int32.lt_iff_toInt_lt]; omega)
    · rw [heq, gt_iff_lt, Int32.lt_iff_toInt_lt] at h
      rw [Int32.lt_iff_toInt_lt] at hk
      omega
  · rfl

structure SamePp (moveId p q : Int32) : Prop where
  cycle : isCycleCapableMove moveId.toInt = true → p = q
  masked : isCycleCapableMove moveId.toInt = false → (p = q ∧ p ≤ 0) ∨ (0 < p ∧ 0 < q)

theorem canonicalizeSlot_eq_iff (moveId p q : Int32) :
    canonicalizeSlot moveId p = canonicalizeSlot moveId q ↔ SamePp moveId p q := by
  cases hcycle : isCycleCapableMove moveId.toInt with
  | true =>
    simp only [canonicalizeSlot, hcycle, if_true]
    exact ⟨fun h => ⟨fun _ => h, fun hnot => absurd (hcycle.symm.trans hnot) (by decide)⟩,
      fun h => h.cycle hcycle⟩
  | false =>
    have hiff : canonicalizeSlot moveId p = canonicalizeSlot moveId q ↔
        (p = q ∧ p ≤ 0) ∨ (0 < p ∧ 0 < q) := by
      simp only [canonicalizeSlot, hcycle, Bool.false_eq_true, if_false, gt_iff_lt]
      by_cases hp : 0 < p <;> by_cases hq : 0 < q
      · simp [hp, hq]
      · rw [if_pos hp, if_neg hq]
        refine ⟨fun h => absurd (h ▸ by decide) hq, fun h => ?_⟩
        rcases h with ⟨rfl, -⟩ | ⟨-, h⟩
        · exact absurd hp hq
        · exact absurd h hq
      · rw [if_neg hp, if_pos hq]
        refine ⟨fun h => absurd (h ▸ by decide) hp, fun h => ?_⟩
        rcases h with ⟨rfl, -⟩ | ⟨h, -⟩
        · exact absurd hq hp
        · exact absurd h hp
      · rw [if_neg hp, if_neg hq]
        refine ⟨fun h => .inl ⟨h, Int32.not_lt.1 hp⟩, fun h => ?_⟩
        rcases h with ⟨h, -⟩ | ⟨h, -⟩
        · exact h
        · exact absurd h hp
    rw [hiff]
    exact ⟨fun h => ⟨fun hyes => absurd (hcycle.symm.trans hyes) (by decide), fun _ => h⟩,
      fun h => h.masked hcycle⟩

def SameTurns (p q : Int32) : Prop := p = q ∨ (turnsInBattleClamp ≤ p ∧ turnsInBattleClamp ≤ q)

theorem clampTurns_eq_clampTurns_iff (p q : Int32) :
    clampTurns p = clampTurns q ↔ SameTurns p q := by
  unfold clampTurns SameTurns
  simp only [gt_iff_lt, Int32.lt_iff_toInt_lt, Int32.le_iff_toInt_le]
  have hext : ∀ x y : Int32, x = y ↔ x.toInt = y.toInt := fun x y => Int32.toInt_inj.symm
  split_ifs with hp hq hq
  · exact ⟨fun _ => .inr ⟨hp.le, hq.le⟩, fun _ => rfl⟩
  · rw [hext, hext p q]
    omega
  · rw [hext, hext p q]
    omega
  · rw [hext p q]
    omega

end Slots

section Kernel

def setCounters (m : PokemonState) (pp0 pp1 pp2 pp3 turns : Int32) : PokemonState :=
  { m with movePp0 := pp0, movePp1 := pp1, movePp2 := pp2, movePp3 := pp3, turnsInBattle := turns }

def withoutCounters (m : PokemonState) : PokemonState := setCounters m 0 0 0 0 0

/-- Mons that agree in all but counters, which may differ as far as they are masked. -/
structure SameMon (m n : PokemonState) : Prop where
  rest : withoutCounters m = withoutCounters n
  pp0 : SamePp m.moveId0 m.movePp0 n.movePp0
  pp1 : SamePp m.moveId1 m.movePp1 n.movePp1
  pp2 : SamePp m.moveId2 m.movePp2 n.movePp2
  pp3 : SamePp m.moveId3 m.movePp3 n.movePp3
  turns : SameTurns m.turnsInBattle n.turnsInBattle

theorem canonicalizeMon_eq (m : PokemonState) :
    canonicalizeMon m = setCounters (withoutCounters m)
      (canonicalizeSlot m.moveId0 m.movePp0) (canonicalizeSlot m.moveId1 m.movePp1)
      (canonicalizeSlot m.moveId2 m.movePp2) (canonicalizeSlot m.moveId3 m.movePp3)
      (clampTurns m.turnsInBattle) := rfl

theorem withoutCounters_canonicalizeMon (m : PokemonState) :
    withoutCounters (canonicalizeMon m) = withoutCounters m := rfl

theorem moveIds_of_withoutCounters {m n : PokemonState}
    (h : withoutCounters m = withoutCounters n) :
    m.moveId0 = n.moveId0 ∧ m.moveId1 = n.moveId1 ∧ m.moveId2 = n.moveId2 ∧
      m.moveId3 = n.moveId3 :=
  ⟨(congrArg PokemonState.moveId0 h :), (congrArg PokemonState.moveId1 h :),
    (congrArg PokemonState.moveId2 h :), (congrArg PokemonState.moveId3 h :)⟩

theorem canonicalizeMon_eq_iff (m n : PokemonState) :
    canonicalizeMon m = canonicalizeMon n ↔ SameMon m n := by
  constructor
  · intro h
    have hrest : withoutCounters m = withoutCounters n := (congrArg withoutCounters h :)
    obtain ⟨h0, h1, h2, h3⟩ := moveIds_of_withoutCounters hrest
    have hpp0 : canonicalizeSlot m.moveId0 m.movePp0 = canonicalizeSlot n.moveId0 n.movePp0 :=
      (congrArg PokemonState.movePp0 h :)
    have hpp1 : canonicalizeSlot m.moveId1 m.movePp1 = canonicalizeSlot n.moveId1 n.movePp1 :=
      (congrArg PokemonState.movePp1 h :)
    have hpp2 : canonicalizeSlot m.moveId2 m.movePp2 = canonicalizeSlot n.moveId2 n.movePp2 :=
      (congrArg PokemonState.movePp2 h :)
    have hpp3 : canonicalizeSlot m.moveId3 m.movePp3 = canonicalizeSlot n.moveId3 n.movePp3 :=
      (congrArg PokemonState.movePp3 h :)
    rw [← h0, canonicalizeSlot_eq_iff] at hpp0
    rw [← h1, canonicalizeSlot_eq_iff] at hpp1
    rw [← h2, canonicalizeSlot_eq_iff] at hpp2
    rw [← h3, canonicalizeSlot_eq_iff] at hpp3
    exact ⟨hrest, hpp0, hpp1, hpp2, hpp3,
      (clampTurns_eq_clampTurns_iff _ _).1 (congrArg PokemonState.turnsInBattle h :)⟩
  · intro h
    obtain ⟨h0, h1, h2, h3⟩ := moveIds_of_withoutCounters h.rest
    rw [canonicalizeMon_eq m, canonicalizeMon_eq n, h.rest,
      (canonicalizeSlot_eq_iff _ _ _).2 h.pp0, (canonicalizeSlot_eq_iff _ _ _).2 h.pp1,
      (canonicalizeSlot_eq_iff _ _ _).2 h.pp2, (canonicalizeSlot_eq_iff _ _ _).2 h.pp3,
      (clampTurns_eq_clampTurns_iff _ _).2 h.turns, h0, h1, h2, h3]

theorem canonicalizeMon_idem (m : PokemonState) :
    canonicalizeMon (canonicalizeMon m) = canonicalizeMon m := by
  rw [canonicalizeMon_eq (canonicalizeMon m), withoutCounters_canonicalizeMon,
    canonicalizeMon_eq m]
  simp only [setCounters, withoutCounters, canonicalizeSlot_idem, clampTurns_idem]

def SideState.withoutTeam (side : SideState) : SideState := { side with team := .empty }

structure SideState.SameSide (a b : SideState) : Prop where
  rest : a.withoutTeam = b.withoutTeam
  team : List.Forall₂ SameMon a.team.toList b.team.toList

theorem SideState.canonicalizePp_eq_iff (a b : SideState) :
    a.canonicalizePp = b.canonicalizePp ↔ a.SameSide b := by
  have hteam : a.team.toList.map canonicalizeMon = b.team.toList.map canonicalizeMon ↔
      List.Forall₂ SameMon a.team.toList b.team.toList := by
    rw [← List.forall₂_eq_eq_eq, List.forall₂_map_left_iff, List.forall₂_map_right_iff]
    simp only [canonicalizeMon_eq_iff]
  constructor
  · intro h
    exact ⟨(congrArg SideState.withoutTeam h :),
      hteam.1 (congrArg (fun side : SideState => side.team.toList) h :)⟩
  · intro h
    have hmap : a.team.map canonicalizeMon = b.team.map canonicalizeMon :=
      InlineVec.ext (hteam.2 h.team)
    have heq (side : SideState) : side.canonicalizePp =
        { side.withoutTeam with team := side.team.map canonicalizeMon } := rfl
    rw [heq a, heq b, h.rest, hmap]

def BattleState.withoutSides (s : BattleState) : BattleState :=
  { s with side0 := {}, side1 := {} }

structure BattleState.SameBattle (s t : BattleState) : Prop where
  rest : s.withoutSides = t.withoutSides
  side0 : s.side0.SameSide t.side0
  side1 : s.side1.SameSide t.side1

theorem BattleState.canonicalizePp_eq_iff (s t : BattleState) :
    s.canonicalizePp = t.canonicalizePp ↔ s.SameBattle t := by
  constructor
  · intro h
    exact ⟨(congrArg BattleState.withoutSides h :),
      (SideState.canonicalizePp_eq_iff _ _).1 (congrArg BattleState.side0 h :),
      (SideState.canonicalizePp_eq_iff _ _).1 (congrArg BattleState.side1 h :)⟩
  · intro h
    have heq (s : BattleState) : s.canonicalizePp =
        { s.withoutSides with
          side0 := s.side0.canonicalizePp, side1 := s.side1.canonicalizePp } := rfl
    rw [heq s, heq t, h.rest, (SideState.canonicalizePp_eq_iff _ _).2 h.side0,
      (SideState.canonicalizePp_eq_iff _ _).2 h.side1]

theorem SideState.canonicalizePp_idem (side : SideState) :
    side.canonicalizePp.canonicalizePp = side.canonicalizePp := by
  have hteam : (side.team.map canonicalizeMon).map canonicalizeMon =
      side.team.map canonicalizeMon := by
    refine InlineVec.ext ?_
    simp only [InlineVec.map, List.map_map]
    exact List.map_congr_left fun m _ => canonicalizeMon_idem m
  have heq : side.canonicalizePp.canonicalizePp =
      { side with team := (side.team.map canonicalizeMon).map canonicalizeMon } := rfl
  rw [heq, hteam]
  rfl

theorem BattleState.canonicalizePp_idem (s : BattleState) :
    s.canonicalizePp.canonicalizePp = s.canonicalizePp := by
  have heq : s.canonicalizePp.canonicalizePp =
      { s with
        side0 := s.side0.canonicalizePp.canonicalizePp
        side1 := s.side1.canonicalizePp.canonicalizePp } := rfl
  rw [heq, SideState.canonicalizePp_idem, SideState.canonicalizePp_idem]
  rfl

end Kernel

end Engine

end NuzlockeSolver
