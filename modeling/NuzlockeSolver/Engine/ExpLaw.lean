import NuzlockeSolver.Engine.Exp

/-!
# What a gain of experience keeps

The law of one gain, of one distribution, and of every sequence of distributions. It holds as long
as the recalculated maximum of each level reached leaves a standing mon standing and a fallen one
without hit points.
-/

namespace NuzlockeSolver

namespace Engine

section Curve

theorem cppExpForLevel_nonneg (g : GrowthRate) (n : Int) : 0 ≤ cppExpForLevel g n :=
  le_max_left _ _

theorem cppExpForLevel_succ (g : GrowthRate) (n : Nat) (hn : n < 100) :
    cppExpForLevel g n ≤ cppExpForLevel g (n + 1) := by
  have hall : ∀ g ∈ GrowthRate.all, ∀ n ∈ List.range 100,
      cppExpForLevel g (n : Nat) ≤ cppExpForLevel g ((n : Nat) + 1) := by decide +kernel
  exact hall g (by cases g <;> decide) n (List.mem_range.mpr hn)

theorem cppExpForLevel_mono (g : GrowthRate) {m n : Int} (h0 : 0 ≤ m) (hmn : m ≤ n)
    (hn : n ≤ 100) : cppExpForLevel g m ≤ cppExpForLevel g n := by
  lift m to Nat using h0
  lift n to Nat using by omega
  induction n with
  | zero =>
    obtain rfl : m = 0 := by omega
    exact le_refl _
  | succ k ih =>
    by_cases hmk : m ≤ k
    · have hstep := cppExpForLevel_succ g k (by omega)
      push_cast
      exact (ih (by omega) (by omega)).trans hstep
    · obtain rfl : m = k + 1 := by omega
      exact le_refl _

theorem cppExpForLevel_lt (g : GrowthRate) {n : Int} (h0 : 0 ≤ n) (hn : n ≤ 100) :
    cppExpForLevel g n < 2 ^ 31 := by
  have htop : ∀ g ∈ GrowthRate.all, cppExpForLevel g 100 < 2 ^ 31 := by decide +kernel
  exact (cppExpForLevel_mono g h0 hn le_rfl).trans_lt (htop g (by cases g <;> decide))

end Curve

section Law

structure PokemonState.Levelled (cap : LevelCap) (g : GrowthRate) (m : PokemonState) : Prop where
  nonneg : 0 ≤ m.level.toInt
  le_cap : m.level.toInt ≤ hardCap cap
  reached : cppExpForLevel g m.level.toInt ≤ m.exp.toInt
  top : ∀ n, m.level.toInt < n → n ≤ hardCap cap → m.exp.toInt < cppExpForLevel g n

structure PokemonState.Consistent (species : SpeciesTable) (cap : LevelCap) (m : PokemonState) :
    Prop where
  coherent : m.Coherent
  levelled : ∃ data, species m.species = some data ∧ m.Levelled cap data.growthRate

structure ExpLaw (species : SpeciesTable) (cap : LevelCap) (before after : PokemonState)
    (gain : Int) : Prop where
  consistent : after.Consistent species cap
  exp_le : before.exp.toInt ≤ after.exp.toInt
  level_le : before.level.toInt ≤ after.level.toInt
  level_le_cap : after.level.toInt ≤ hardCap cap
  gain_eq : gain = after.exp.toInt - before.exp.toInt
  fainted : after.fainted = before.fainted
  missing : before.fainted = false →
    after.maxHp.toInt - after.hp.toInt = before.maxHp.toInt - before.hp.toInt
  fallen : before.fainted = true → after.hp.toInt = 0

/-- The recalculated maximum at a level suits a mon: one that stands keeps standing with the hit
points it misses, one that has fainted gets none. -/
def SuitsLevel (data : SpeciesExpData) (m : PokemonState) (level : Int32) : Prop :=
  if m.fainted then
    m.species = speciesShedinja ∨ recalcMaxHp data m level = m.maxHp
  else m.maxHp.toInt - m.hp.toInt < (recalcMaxHp data m level).toInt

structure GainSuits (cap : LevelCap) (data : SpeciesExpData) (m : PokemonState) (amount : Int) :
    Prop where
  fits : m.level.toInt < hardCap cap → hardCap cap = 100 → m.exp.toInt + amount < 2 ^ 31
  suits : ∀ level : Int32, m.level.toInt < level.toInt → level.toInt ≤ hardCap cap →
    cppExpForLevel data.growthRate level.toInt ≤ m.exp.toInt + amount → SuitsLevel data m level

end Law

section LevelUps

structure Kept (m m' : PokemonState) : Prop where
  species : m'.species = m.species
  ivHp : m'.ivHp = m.ivHp
  exp : m'.exp = m.exp
  fainted : m'.fainted = m.fainted
  coherent : m'.Coherent
  missing : m.fainted = false →
    m'.maxHp.toInt - m'.hp.toInt = m.maxHp.toInt - m.hp.toInt
  fallen : m.fainted = true → m.species = speciesShedinja ∨ m'.maxHp = m.maxHp

theorem Kept.refl {m : PokemonState} (hm : m.Coherent) : Kept m m :=
  ⟨rfl, rfl, rfl, rfl, hm, fun _ => rfl, fun _ => .inr rfl⟩

theorem Kept.trans {a b c : PokemonState} (h : Kept a b) (h' : Kept b c) : Kept a c where
  species := h'.species.trans h.species
  ivHp := h'.ivHp.trans h.ivHp
  exp := h'.exp.trans h.exp
  fainted := h'.fainted.trans h.fainted
  coherent := h'.coherent
  missing hstands := by rw [h'.missing (h.fainted.trans hstands), h.missing hstands]
  fallen hfell := by
    rcases h.fallen hfell with hshedinja | hmax
    · exact .inl hshedinja
    · rcases h'.fallen (h.fainted.trans hfell) with hshedinja | hmax'
      · exact .inl (h.species ▸ hshedinja)
      · exact .inr (hmax'.trans hmax)

theorem recalcMaxHp_congr {data : SpeciesExpData} {m m' : PokemonState} {level : Int32}
    (hspecies : m'.species = m.species) (hiv : m'.ivHp = m.ivHp) :
    recalcMaxHp data m' level = recalcMaxHp data m level := by
  rw [recalcMaxHp, recalcMaxHp, hspecies, hiv]

theorem SuitsLevel.of_kept {data : SpeciesExpData} {m m' : PokemonState} {level : Int32}
    (h : SuitsLevel data m level) (hkept : Kept m m') : SuitsLevel data m' level := by
  unfold SuitsLevel at h ⊢
  rw [hkept.fainted, recalcMaxHp_congr hkept.species hkept.ivHp, hkept.species]
  cases hfell : m.fainted with
  | true =>
    rw [hfell, if_pos rfl] at h
    rw [if_pos rfl]
    rcases hkept.fallen hfell with hshedinja | hmax
    · exact .inl hshedinja
    · rw [hmax]
      exact h
  | false =>
    rw [hfell, if_neg (by decide)] at h
    rw [if_neg (by decide), hkept.missing hfell]
    exact h

theorem cppRecalcStats_spec {species : SpeciesTable} {data : SpeciesExpData} {m m' : PokemonState}
    (h : cppRecalcStats species m = .ok m') (hdata : species m.species = some data) :
    m'.maxHp = recalcMaxHp data m m.level ∧ m'.hp = Int32.ofInt (recalcHp data m) ∧
      m'.level = m.level ∧ m'.species = m.species ∧ m'.ivHp = m.ivHp ∧ m'.exp = m.exp ∧
      m'.fainted = m.fainted := by
  unfold cppRecalcStats at h
  obtain ⟨sp, hsp, h⟩ := bind_eq_ok.mp h
  obtain ⟨atk, -, h⟩ := bind_eq_ok.mp h
  obtain ⟨dfs, -, h⟩ := bind_eq_ok.mp h
  obtain ⟨spa, -, h⟩ := bind_eq_ok.mp h
  obtain ⟨spd, -, h⟩ := bind_eq_ok.mp h
  obtain ⟨spe, -, h⟩ := bind_eq_ok.mp h
  rw [cppSpeciesExpData, hdata] at hsp
  cases hsp
  cases h
  exact ⟨rfl, rfl, rfl, rfl, rfl, rfl, rfl⟩

theorem fainted_of_coherent {m : PokemonState} (hm : m.Coherent) (hfell : m.fainted = true) :
    m.hp.toInt = 0 :=
  hm.fainted_iff.mp hfell

theorem hp_pos_of_coherent {m : PokemonState} (hm : m.Coherent) (hstands : m.fainted = false) :
    0 < m.hp.toInt := by
  have hne : m.hp.toInt ≠ 0 := fun h0 => by simp [hm.fainted_iff.mpr h0] at hstands
  have hnonneg := hm.nonneg
  omega

theorem recalcMaxHp_shedinja {data : SpeciesExpData} {m : PokemonState} {level : Int32}
    (h : m.species = speciesShedinja) : (recalcMaxHp data m level).toInt = 1 := by
  rw [recalcMaxHp, if_pos h]
  decide

theorem recalcHp_raiseLevel (data : SpeciesExpData) (m : PokemonState) :
    recalcHp data (raiseLevel m) =
      if m.species = speciesShedinja then min 1 m.hp.toInt
      else
        min (recalcMaxHp data m (m.level + 1)).toInt
          (m.hp.toInt + ((recalcMaxHp data m (m.level + 1)).toInt - m.maxHp.toInt)) :=
  rfl

theorem recalcHp_of_standing {data : SpeciesExpData} {m : PokemonState} (hm : m.Coherent)
    (hstands : m.fainted = false) (hsuits : SuitsLevel data m (m.level + 1)) :
    recalcHp data (raiseLevel m) =
        (recalcMaxHp data m (m.level + 1)).toInt - (m.maxHp.toInt - m.hp.toInt) ∧
      0 < recalcHp data (raiseLevel m) := by
  have hpos := hp_pos_of_coherent hm hstands
  have hle := hm.le_max
  unfold SuitsLevel at hsuits
  rw [if_neg (by rw [hstands]; decide)] at hsuits
  rw [recalcHp_raiseLevel]
  by_cases hshedinja : m.species = speciesShedinja
  · have hone := @recalcMaxHp_shedinja data m (m.level + 1) hshedinja
    rw [if_pos hshedinja]
    omega
  · rw [if_neg hshedinja]
    omega

theorem recalcHp_of_fainted {data : SpeciesExpData} {m : PokemonState} (hm : m.Coherent)
    (hfell : m.fainted = true) (hsuits : SuitsLevel data m (m.level + 1)) :
    recalcHp data (raiseLevel m) = 0 ∧ 0 ≤ (recalcMaxHp data m (m.level + 1)).toInt := by
  have hzero := fainted_of_coherent hm hfell
  have hle := hm.le_max
  unfold SuitsLevel at hsuits
  rw [if_pos hfell] at hsuits
  rw [recalcHp_raiseLevel]
  by_cases hshedinja : m.species = speciesShedinja
  · have hone := @recalcMaxHp_shedinja data m (m.level + 1) hshedinja
    rw [if_pos hshedinja]
    omega
  · rw [if_neg hshedinja, hsuits.resolve_left hshedinja]
    omega

theorem recalc_kept {species : SpeciesTable} {data : SpeciesExpData} {m m' : PokemonState}
    (h : cppRecalcStats species (raiseLevel m) = .ok m') (hdata : species m.species = some data)
    (hm : m.Coherent) (hsuits : SuitsLevel data m (m.level + 1)) :
    Kept m m' ∧ m'.level = m.level + 1 := by
  obtain ⟨hmax, hhp, hlevel, hspecies, hiv, hexp, hfainted⟩ := cppRecalcStats_spec h hdata
  have hmax : m'.maxHp = recalcMaxHp data m (m.level + 1) := hmax
  refine ⟨⟨hspecies, hiv, hexp, hfainted, ?_, ?_, ?_⟩, hlevel⟩
  · cases hfell : m.fainted with
    | true =>
      obtain ⟨hzero, hnonneg⟩ := recalcHp_of_fainted hm hfell hsuits
      have hhp' : m'.hp.toInt = 0 := by rw [hhp, hzero]; decide
      refine ⟨by omega, by rw [hmax]; omega, ?_⟩
      rw [hfainted, hhp']
      exact iff_of_true hfell rfl
    | false =>
      obtain ⟨hvalue, hpos⟩ := recalcHp_of_standing hm hfell hsuits
      have hle := hm.le_max
      have hhp' : m'.hp.toInt = recalcHp data (raiseLevel m) := by
        rw [hhp]
        exact toInt_ofInt_hp m'.maxHp (by omega) (by rw [hmax]; omega)
      refine ⟨by omega, by rw [hmax]; omega, ?_⟩
      rw [hfainted, hhp']
      refine iff_of_false ?_ (by omega)
      rw [show (raiseLevel m).fainted = false from hfell]
      decide
  · intro hstands
    obtain ⟨hvalue, hpos⟩ := recalcHp_of_standing hm hstands hsuits
    have hle := hm.le_max
    have hhp' : m'.hp.toInt = recalcHp data (raiseLevel m) := by
      rw [hhp]
      exact toInt_ofInt_hp m'.maxHp (by omega) (by rw [hmax]; omega)
    rw [hhp', hmax]
    omega
  · intro hfell
    unfold SuitsLevel at hsuits
    rw [if_pos hfell, ← hmax] at hsuits
    exact hsuits

theorem toInt_level_succ {level : Int32} (hlt : level.toInt < 100) :
    (level + 1).toInt = level.toInt + 1 := by
  have hleast := level.le_toInt
  rw [Int32.toInt_add, show (1 : Int32).toInt = 1 from rfl]
  exact Int.bmod_eq_of_le_mul_two (by omega) (by omega)

/-- The loop stops at the cap or below the next threshold, and it keeps the mon coherent. -/
theorem levelUps_spec {species : SpeciesTable} {data : SpeciesExpData} {cap newExp : Int}
    (hcap : cap ≤ 100) (n : Nat) {m m' : PokemonState}
    (h : levelUps species data.growthRate cap newExp n m = .ok m')
    (hdata : species m.species = some data) (hm : m.Coherent) (h0 : 0 ≤ m.level.toInt)
    (hle : m.level.toInt ≤ cap) (hn : cap - m.level.toInt ≤ n)
    (hreached : cppExpForLevel data.growthRate m.level.toInt ≤ newExp)
    (hsuits : ∀ level : Int32, m.level.toInt < level.toInt → level.toInt ≤ cap →
      cppExpForLevel data.growthRate level.toInt ≤ newExp → SuitsLevel data m level) :
    Kept m m' ∧ m.level.toInt ≤ m'.level.toInt ∧ m'.level.toInt ≤ cap ∧
      cppExpForLevel data.growthRate m'.level.toInt ≤ newExp ∧
      (m'.level.toInt = cap ∨ newExp < cppExpForLevel data.growthRate (m'.level.toInt + 1)) := by
  induction n generalizing m with
  | zero =>
    cases h
    exact ⟨.refl hm, le_rfl, hle, hreached, .inl (by omega)⟩
  | succ n ih =>
    unfold levelUps at h
    split at h
    · rename_i hgo
      obtain ⟨m₁, hrecalc, h⟩ := bind_eq_ok.mp h
      have hsucc : (m.level + 1).toInt = m.level.toInt + 1 := toInt_level_succ (by omega)
      have hnext : SuitsLevel data m (m.level + 1) :=
        hsuits (m.level + 1) (by omega) (by omega) (by rw [hsucc]; exact hgo.2)
      obtain ⟨hkept, hlevel⟩ := recalc_kept hrecalc hdata hm hnext
      have hlevel₁ : m₁.level.toInt = m.level.toInt + 1 := by rw [hlevel, hsucc]
      obtain ⟨hkept', hge, hrest⟩ := ih h (by rw [hkept.species]; exact hdata) hkept.coherent
        (by omega) (by omega) (by omega) (by rw [hlevel₁]; exact hgo.2) fun level hlt hcap hexp =>
          (hsuits level (by omega) hcap hexp).of_kept hkept
      exact ⟨hkept.trans hkept', by omega, hrest⟩
    · rename_i hstop
      obtain rfl := Except.ok.inj h
      refine ⟨.refl hm, le_rfl, hle, hreached, ?_⟩
      by_cases hlt : m.level.toInt < cap
      · exact .inr (lt_of_not_ge fun hge => hstop ⟨hlt, hge⟩)
      · exact .inl (by omega)

end LevelUps

section Gain

variable {species : SpeciesTable} {cap : LevelCap} {m m' : PokemonState}

theorem hardCap_le (cap : LevelCap) : hardCap cap ≤ 100 := by
  cases cap with
  | none => exact le_refl _
  | some c => exact min_le_right _ _

theorem ExpLaw.refl (hm : m.Consistent species cap) : ExpLaw species cap m m 0 := by
  obtain ⟨data, hdata, hlevelled⟩ := hm.levelled
  exact ⟨hm, le_rfl, le_rfl, hlevelled.le_cap, by omega, rfl, fun _ => rfl,
    fainted_of_coherent hm.coherent⟩

theorem ExpLaw.trans {a b c : PokemonState} {x y : Int} (h : ExpLaw species cap a b x)
    (h' : ExpLaw species cap b c y) : ExpLaw species cap a c (x + y) where
  consistent := h'.consistent
  exp_le := h.exp_le.trans h'.exp_le
  level_le := h.level_le.trans h'.level_le
  level_le_cap := h'.level_le_cap
  gain_eq := by
    have hx := h.gain_eq
    have hy := h'.gain_eq
    omega
  fainted := h'.fainted.trans h.fainted
  missing hstands := (h'.missing (h.fainted.trans hstands)).trans (h.missing hstands)
  fallen hfell := h'.fallen (h.fainted.trans hfell)

/-- Below the cap the new total lies between the old one and the uncapped one, and it fits. -/
theorem cappedExp_spec {data : SpeciesExpData} {amount : Int}
    (hm : m.Levelled cap data.growthRate) (hbelow : m.level.toInt < hardCap cap)
    (hamount : 0 < amount) (hfits : hardCap cap = 100 → m.exp.toInt + amount < 2 ^ 31) :
    m.exp.toInt ≤ cappedExp cap data.growthRate (m.exp.toInt + amount) ∧
      cappedExp cap data.growthRate (m.exp.toInt + amount) ≤ m.exp.toInt + amount ∧
      cappedExp cap data.growthRate (m.exp.toInt + amount) < 2 ^ 31 := by
  have hcap := hardCap_le cap
  have h0 := hm.nonneg
  unfold cappedExp
  split
  · rename_i hlt
    have hnext := hm.top (m.level.toInt + 1) (by omega) (by omega)
    have hmono := cppExpForLevel_mono data.growthRate (m := m.level.toInt + 1)
      (n := hardCap cap + 1) (by omega) (by omega) (by omega)
    have hbound := cppExpForLevel_lt data.growthRate (n := hardCap cap + 1) (by omega) (by omega)
    omega
  · have hbound := hfits (by omega)
    omega

theorem levelled_of_stop {g : GrowthRate} (hcap : m.level.toInt ≤ hardCap cap)
    (h0 : 0 ≤ m.level.toInt) (hreached : cppExpForLevel g m.level.toInt ≤ m.exp.toInt)
    (hstop : m.level.toInt = hardCap cap ∨ m.exp.toInt < cppExpForLevel g (m.level.toInt + 1)) :
    m.Levelled cap g := by
  refine ⟨h0, hcap, hreached, fun n hlt hle => ?_⟩
  have hhard := hardCap_le cap
  rcases hstop with htop | hbelow
  · omega
  · exact hbelow.trans_le (cppExpForLevel_mono g (by omega) (by omega) (by omega))

theorem toInt_setExp {g : GrowthRate} {n : Int} (h0 : 0 ≤ n) (hn : n ≤ 100) :
    (setExp m (cppExpForLevel g n)).exp.toInt = cppExpForLevel g n := by
  have hnonneg := cppExpForLevel_nonneg g n
  have hbound := cppExpForLevel_lt g h0 hn
  exact Int32.toInt_ofInt_of_le (by omega) (by omega)

theorem settleExp_spec {g : GrowthRate} (hm : m.Levelled cap g) :
    (settleExp cap g m).Levelled cap g ∧
      (settleExp cap g m = m ∨
        m.level.toInt = hardCap cap ∧
          (settleExp cap g m).exp.toInt = cppExpForLevel g m.level.toInt) := by
  have h0 := hm.nonneg
  have hle := hm.le_cap
  cases cap with
  | none => exact ⟨hm, .inl rfl⟩
  | some c =>
    by_cases hc : c ≤ m.level
    · have hset : settleExp (some c) g m = setExp m (cppExpForLevel g c.toInt) := if_pos hc
      have hlevel : c.toInt = m.level.toInt := by
        have hge : c.toInt ≤ m.level.toInt := Int32.le_iff_toInt_le.mp hc
        have hmin : m.level.toInt ≤ min c.toInt 100 := hle
        omega
      have hexp := @toInt_setExp m g m.level.toInt h0 (hle.trans (hardCap_le (some c)))
      rw [hset, hlevel]
      exact ⟨⟨h0, hle, hexp.ge, fun n hlt hn => by
        have hmin : n ≤ min c.toInt 100 := hn
        have hlt : m.level.toInt < n := hlt
        omega⟩, .inr ⟨le_antisymm hle (by
        rw [← hlevel]
        exact min_le_left _ _), hexp⟩⟩
    · have hset : settleExp (some c) g m = m := if_neg hc
      rw [hset]
      exact ⟨hm, .inl rfl⟩

theorem kept_settleExp (g : GrowthRate) (m : PokemonState) :
    (settleExp cap g m).hp = m.hp ∧ (settleExp cap g m).maxHp = m.maxHp ∧
      (settleExp cap g m).fainted = m.fainted ∧ (settleExp cap g m).species = m.species ∧
      (settleExp cap g m).level = m.level := by
  cases cap with
  | none => exact ⟨rfl, rfl, rfl, rfl, rfl⟩
  | some c =>
    unfold settleExp
    dsimp only
    split <;> exact ⟨rfl, rfl, rfl, rfl, rfl⟩

theorem lt_hardCap (hlevel : ¬ 100 ≤ m.level) (hcap : ¬ capReached cap m.level) :
    m.level.toInt < hardCap cap := by
  have htop : m.level.toInt < 100 := Int32.lt_iff_toInt_lt.mp (Int32.not_le.mp hlevel)
  cases cap with
  | none => exact htop
  | some c =>
    have hc : m.level.toInt < c.toInt :=
      Int32.lt_iff_toInt_lt.mp (Int32.not_le.mp fun hle => hcap ⟨c, rfl, hle⟩)
    exact lt_min hc htop

theorem cppApplyExpGain_law {data : SpeciesExpData} {amount gained : Int}
    (h : cppApplyExpGain species m amount cap data.growthRate = .ok (m', gained))
    (hdata : species m.species = some data) (hm : m.Consistent species cap)
    (hsuits : GainSuits cap data m amount) : ExpLaw species cap m m' gained := by
  obtain ⟨data', hdata', hlevelled⟩ := hm.levelled
  obtain rfl : data' = data := Option.some.inj (hdata'.symm.trans hdata)
  have hhard := hardCap_le cap
  have h0 := hlevelled.nonneg
  unfold cppApplyExpGain at h
  split at h
  · cases h
    exact .refl hm
  · rename_i hgo
    obtain ⟨hamount, hrest⟩ := not_or.mp hgo
    obtain ⟨hlevel, hcapped⟩ := not_or.mp hrest
    have hbelow := lt_hardCap hlevel hcapped
    have hamount := not_le.mp hamount
    obtain ⟨hge, hle, hfits⟩ := cappedExp_spec hlevelled hbelow hamount (hsuits.fits hbelow)
    extract_lets newExp at h
    obtain ⟨raised, hraised, h⟩ := bind_eq_ok.mp h
    obtain ⟨rfl, rfl⟩ := Prod.mk.inj (Except.ok.inj h)
    have hpos := (cppExpForLevel_nonneg _ _).trans hlevelled.reached
    have hset : (setExp m newExp).exp.toInt = newExp :=
      Int32.toInt_ofInt_of_le (by omega) (by omega)
    obtain ⟨hkept, hlevels, hcap, hreached, hstop⟩ := levelUps_spec hhard _ hraised hdata
      ⟨hm.coherent.nonneg, hm.coherent.le_max, hm.coherent.fainted_iff⟩ h0 hbelow.le (by
        change hardCap cap - m.level.toInt ≤ _
        omega) (hlevelled.reached.trans hge) fun level hlt hcap hexp =>
        hsuits.suits level hlt hcap (hexp.trans hle)
    have hexp : raised.exp.toInt = newExp := by rw [hkept.exp, hset]
    have hlevels : m.level.toInt ≤ raised.level.toInt := hlevels
    have hraisedLevelled : raised.Levelled cap data'.growthRate :=
      levelled_of_stop hcap (by omega) (by rw [hexp]; exact hreached) (by rw [hexp]; exact hstop)
    obtain ⟨hsettled, hexp'⟩ := settleExp_spec hraisedLevelled
    obtain ⟨hhp, hmaxHp, hfainted, hspecies, hsame⟩ := @kept_settleExp cap data'.growthRate raised
    have hcoherent : (settleExp cap data'.growthRate raised).Coherent :=
      ⟨by rw [hhp]; exact hkept.coherent.nonneg, by rw [hhp, hmaxHp]; exact hkept.coherent.le_max,
        by rw [hhp, hfainted]; exact hkept.coherent.fainted_iff⟩
    have hrises : m.exp.toInt ≤ (settleExp cap data'.growthRate raised).exp.toInt := by
      rcases hexp' with hmon | ⟨htop, hthreshold⟩
      · rw [hmon, hexp]
        exact hge
      · rw [hthreshold, htop]
        exact (hlevelled.top (hardCap cap) hbelow le_rfl).le
    refine ⟨⟨hcoherent, data', ?_, hsettled⟩, hrises, by rw [hsame]; exact hlevels,
      hsettled.le_cap, rfl, hfainted.trans hkept.fainted, fun hstands => ?_, fun hfell => ?_⟩
    · rw [hspecies, hkept.species]
      exact hdata
    · rw [hhp, hmaxHp]
      exact hkept.missing hstands
    · rw [hhp]
      exact fainted_of_coherent hkept.coherent (hkept.fainted.trans hfell)

end Gain

section Distribution

variable {species : SpeciesTable} {pow : ℚ → ℚ}

def TeamConsistent (species : SpeciesTable) (state : BattleState) : Prop :=
  ∀ m ∈ state.side0.team.toList, m.Consistent species state.levelCap?

def gainOf (gains : ExpGains) (i : Nat) : Int :=
  ((gains.filter (·.1 = i)).map (·.2)).sum

/-- The law of every mon of the player's team. -/
structure TeamLaw (species : SpeciesTable) (before after : BattleState) (gains : ExpGains) :
    Prop where
  cap : after.levelCap? = before.levelCap?
  mons : ∀ i m, before.side0.team.toList[i]? = some m →
    ∃ m', after.side0.team.toList[i]? = some m' ∧
      ExpLaw species before.levelCap? m m' (gainOf gains i)
  length : after.side0.team.toList.length = before.side0.team.toList.length

theorem TeamLaw.refl {state : BattleState} (h : TeamConsistent species state) :
    TeamLaw species state state [] :=
  ⟨rfl, fun _ m hm => ⟨m, hm, .refl (h m (List.mem_of_getElem? hm))⟩, rfl⟩

theorem gainOf_append (x y : ExpGains) (i : Nat) : gainOf (x ++ y) i = gainOf x i + gainOf y i := by
  simp [gainOf]

theorem TeamLaw.trans {s t u : BattleState} {x y : ExpGains} (h : TeamLaw species s t x)
    (h' : TeamLaw species t u y) : TeamLaw species s u (x ++ y) where
  cap := h'.cap.trans h.cap
  mons i m hm := by
    obtain ⟨m', hm', hlaw⟩ := h.mons i m hm
    obtain ⟨m'', hm'', hlaw'⟩ := h'.mons i m' hm'
    rw [h.cap] at hlaw'
    exact ⟨m'', hm'', by rw [gainOf_append]; exact hlaw.trans hlaw'⟩
  length := h'.length.trans h.length

theorem TeamLaw.teamConsistent {s t : BattleState} {x : ExpGains} (h : TeamLaw species s t x) :
    TeamConsistent species t := by
  intro m' hm'
  obtain ⟨i, hi⟩ := List.mem_iff_getElem?.mp hm'
  have hlt : i < s.side0.team.toList.length := by
    rw [← h.length]
    exact (List.getElem?_eq_some_iff.mp hi).1
  obtain ⟨n', hn', hlaw⟩ := h.mons i _ (List.getElem?_eq_getElem hlt)
  obtain rfl : n' = m' := Option.some.inj (hn'.symm.trans hi)
  rw [h.cap]
  exact hlaw.consistent

def AwardSuits (species : SpeciesTable) (pow : ℚ → ℚ) (ko : KnockOut) (state : BattleState)
    (teamIdx : Nat) : Prop :=
  ∀ winner amount data, state.side0.team.toList[teamIdx]? = some winner →
    (winner.fainted = true → ko.allowFaintedWinners = true) →
    cppCalcExpGain species pow ko.species ko.level winner.level = .ok amount →
    species winner.species = some data →
    GainSuits state.levelCap? data winner amount.toInt

theorem getElem?_setTeamMon (state : BattleState) (idx i : Nat) (mon : PokemonState) :
    (setTeamMon state idx mon).side0.team.toList[i]? =
      if idx = i then (state.side0.team.toList[i]?).map fun _ => mon
      else state.side0.team.toList[i]? := by
  simp only [setTeamMon, InlineVec.set, List.getElem?_set]
  by_cases h : idx = i
  · subst h
    by_cases hlt : idx < state.side0.team.toList.length <;> simp [hlt]
  · simp [h]

theorem species_of_expData {speciesId : Int32} {data : SpeciesExpData}
    (h : cppSpeciesExpData species speciesId = .ok data) : species speciesId = some data := by
  unfold cppSpeciesExpData at h
  split at h
  · rename_i hsome
    cases h
    exact hsome
  · cases h

theorem awardExp_law {ko : KnockOut} {state after : BattleState} {teamIdx : Nat} {gains : ExpGains}
    (h : awardExp species pow ko state teamIdx = .ok (after, gains))
    (hteam : TeamConsistent species state) (hsuits : AwardSuits species pow ko state teamIdx) :
    TeamLaw species state after gains ∧
      ∀ i, i ≠ teamIdx → after.side0.team.toList[i]? = state.side0.team.toList[i]? := by
  unfold awardExp at h
  cases hwinner : state.side0.team.toList[teamIdx]? with
  | none =>
    rw [hwinner] at h
    cases h
    exact ⟨.refl hteam, fun _ _ => rfl⟩
  | some winner =>
    rw [hwinner] at h
    dsimp only at h
    split at h
    · cases h
      exact ⟨.refl hteam, fun _ _ => rfl⟩
    · rename_i hallowed
      obtain ⟨amount, hamount, h⟩ := bind_eq_ok.mp h
      obtain ⟨data, hdata, h⟩ := bind_eq_ok.mp h
      obtain ⟨⟨mon, gained⟩, hgain, h⟩ := bind_eq_ok.mp h
      obtain ⟨rfl, rfl⟩ := Prod.mk.inj (Except.ok.inj h)
      have hspecies := species_of_expData hdata
      have hwants : winner.fainted = true → ko.allowFaintedWinners = true := fun hfell => by
        by_contra hno
        exact hallowed ⟨hfell, hno⟩
      have hlaw := cppApplyExpGain_law hgain hspecies (hteam winner (List.mem_of_getElem? hwinner))
        (hsuits winner amount data hwinner hwants hamount hspecies)
      refine ⟨⟨rfl, fun i m hm => ?_, by simp [setTeamMon, InlineVec.set]⟩, fun i hi => ?_⟩
      · rw [getElem?_setTeamMon]
        by_cases hi : teamIdx = i
        · subst hi
          obtain rfl : winner = m := Option.some.inj (hwinner.symm.trans hm)
          exact ⟨mon, by rw [if_pos rfl, hm]; rfl, by simpa [gainOf] using hlaw⟩
        · refine ⟨m, by rw [if_neg hi]; exact hm, ?_⟩
          have hnone : gainOf [(teamIdx, gained)] i = 0 := by simp [gainOf, hi]
          rw [hnone]
          exact .refl (hteam m (List.mem_of_getElem? hm))
      · rw [getElem?_setTeamMon, if_neg (Ne.symm hi)]

theorem awardAll_law {ko : KnockOut} (team : List Nat) (hnodup : team.Nodup)
    {state after : BattleState} {gains : ExpGains}
    (h : awardAll species pow ko team state = .ok (after, gains))
    (hteam : TeamConsistent species state)
    (hsuits : ∀ i ∈ team, AwardSuits species pow ko state i) :
    TeamLaw species state after gains := by
  induction team generalizing state gains with
  | nil =>
    cases h
    exact .refl hteam
  | cons teamIdx rest ih =>
    obtain ⟨hfresh, hnodup⟩ := List.nodup_cons.mp hnodup
    obtain ⟨⟨state₁, gained⟩, haward, h⟩ := bind_eq_ok.mp h
    obtain ⟨⟨state₂, gains₂⟩, hrest, h⟩ := bind_eq_ok.mp h
    obtain ⟨rfl, rfl⟩ := Prod.mk.inj (Except.ok.inj h)
    obtain ⟨hlaw, hother⟩ := awardExp_law haward hteam (hsuits teamIdx (by simp))
    refine hlaw.trans (ih hnodup hrest hlaw.teamConsistent fun i hi => ?_)
    -- a later participant is as it was before this award
    intro winner amount data hwinner hwants hamount hspecies
    rw [hother i fun heq => hfresh (heq ▸ hi)] at hwinner
    rw [hlaw.cap]
    exact hsuits i (List.mem_cons_of_mem _ hi) winner amount data hwinner hwants hamount hspecies

/-- A call, with the opposing side as it stands then. -/
structure ExpCall where
  opponents : SideState
  faintedTeamIdx : Int32
  expParticipants : ExpParticipants
  allowFaintedWinners : Bool

def ExpCall.state (call : ExpCall) (state : BattleState) : BattleState :=
  { state with side1 := call.opponents }

def ExpCall.knockOut (call : ExpCall) : KnockOut :=
  let faintedMon := call.opponents.mon call.faintedTeamIdx
  ⟨faintedMon.species, faintedMon.level, call.allowFaintedWinners⟩

def ExpCall.run (species : SpeciesTable) (pow : ℚ → ℚ) (call : ExpCall) (state : BattleState) :
    Except String (BattleState × ExpParticipants × ExpGains) :=
  cppDistributeExp species pow (call.state state) call.faintedTeamIdx call.expParticipants
    call.allowFaintedWinners

def ExpCall.rewarded (call : ExpCall) : List Nat :=
  match call.opponents.activeIndices.toList.findIdx? (· == call.faintedTeamIdx) with
  | none => []
  | some slotPos => call.expParticipants[slotPos]?.getD []

/-- The gain of every participant suits it. -/
def ExpCall.Suits (species : SpeciesTable) (pow : ℚ → ℚ) (call : ExpCall) (state : BattleState) :
    Prop :=
  ∀ i ∈ call.rewarded, AwardSuits species pow call.knockOut state i

theorem mem_sortedParticipants {participants : List Nat} {i : Nat} :
    i ∈ sortedParticipants participants ↔ i ∈ participants := by
  rw [sortedParticipants, List.mem_insertionSort, List.mem_dedup]

theorem nodup_sortedParticipants (participants : List Nat) :
    (sortedParticipants participants).Nodup :=
  (List.perm_insertionSort _ _).nodup_iff.mpr (List.nodup_dedup participants)

theorem ExpCall.run_law {call : ExpCall} {state after : BattleState} {parts : ExpParticipants}
    {gains : ExpGains} (h : call.run species pow state = .ok (after, parts, gains))
    (hteam : TeamConsistent species state) (hsuits : call.Suits species pow state) :
    TeamLaw species state after gains := by
  -- the player's side and the cap are those of the state itself
  have hlift {t : BattleState} {x : ExpGains} (hlaw : TeamLaw species (call.state state) t x) :
      TeamLaw species state t x := ⟨hlaw.cap, hlaw.mons, hlaw.length⟩
  have hstay (h : (Except.ok (call.state state, call.expParticipants, []) :
      Except String (BattleState × ExpParticipants × ExpGains)) = .ok (after, parts, gains)) :
      TeamLaw species state after gains := by
    cases h
    exact hlift (.refl hteam)
  unfold ExpCall.run cppDistributeExp at h
  split at h
  · exact hstay h
  · rename_i slotPos hslot
    split at h
    · exact hstay h
    · exact hstay h
    · rename_i participants _ hparticipants
      have hrewarded : call.rewarded = participants := by
        have hslot : call.opponents.activeIndices.toList.findIdx? (· == call.faintedTeamIdx) =
          some slotPos := hslot
        rw [ExpCall.rewarded, hslot]
        simp [hparticipants]
      obtain ⟨⟨state₁, gains₁⟩, hawards, h⟩ := bind_eq_ok.mp h
      cases h
      refine hlift (awardAll_law _ (nodup_sortedParticipants participants) hawards hteam
        fun i hi => ?_)
      exact hsuits i (hrewarded ▸ mem_sortedParticipants.mp hi)

/-- The states reached by distributions whose gains suit. -/
inductive SuitedRun (species : SpeciesTable) (pow : ℚ → ℚ) (start : BattleState) :
    BattleState → Prop
  | start : SuitedRun species pow start start
  | call {before after : BattleState} {parts : ExpParticipants} {gains : ExpGains}
      (call : ExpCall) : SuitedRun species pow start before → call.Suits species pow before →
      call.run species pow before = .ok (after, parts, gains) →
      SuitedRun species pow start after

/-- Every state reached is consistent, and every further distribution obeys the law. -/
theorem distributeExp_keeps_consistent (species : SpeciesTable) (pow : ℚ → ℚ)
    (start state : BattleState) (hstart : TeamConsistent species start)
    (hrun : SuitedRun species pow start state) :
    TeamConsistent species state ∧
      ∀ (call : ExpCall) after parts gains, call.Suits species pow state →
        call.run species pow state = .ok (after, parts, gains) →
        TeamLaw species state after gains := by
  have hteam : TeamConsistent species state := by
    induction hrun with
    | start => exact hstart
    | call call _ hsuits hcall ih => exact (call.run_law hcall ih hsuits).teamConsistent
  exact ⟨hteam, fun call after parts gains hsuits hcall => call.run_law hcall hteam hsuits⟩

def plainSpecies : SpeciesTable := fun _ => some ⟨50, 50, 50, 50, 50, 50, .mediumFast, 100⟩

def evenPow : ℚ → ℚ := fun _ => 1

def traineeMon (hp : Int32) (fainted : Bool) : PokemonState :=
  { species := 1, level := 10, exp := 1200, hasMaxHp := true, maxHp := 30, hasHp := true, hp := hp,
    fainted := fainted }

def traineeState (hp : Int32) (fainted : Bool) : BattleState :=
  { side0 := { team := loneTeam (traineeMon hp fainted) } }

def traineeCall (allow : Bool) : ExpCall where
  opponents :=
    { team := loneTeam (traineeMon 0 true)
      activeIndices := firstActive }
  faintedTeamIdx := 0
  expParticipants := [[0]]
  allowFaintedWinners := allow

theorem trainee_consistent {hp : Int32} {fainted : Bool} (h : (traineeMon hp fainted).Coherent) :
    TeamConsistent plainSpecies (traineeState hp fainted) := by
  intro m hm
  obtain rfl := List.mem_singleton.mp hm
  have hlevel : (0 : Int) ≤ 10 ∧ (10 : Int) ≤ 100 ∧ cppExpForLevel .mediumFast 10 ≤ 1200 := by decide
  refine ⟨h, _, rfl, hlevel.1, hlevel.2.1, hlevel.2.2, fun n hlt hle => ?_⟩
  have hmono := cppExpForLevel_mono .mediumFast (m := 11) (n := n) (by decide) hlt hle
  have hnext : (1200 : Int) < cppExpForLevel .mediumFast 11 := by decide
  exact hnext.trans_le hmono

theorem trainee_gain : cppCalcExpGain plainSpecies evenPow 1 10 10 = .ok 201 := by
  decide +kernel

theorem trainee_suits (allow : Bool) :
    (traineeCall allow).Suits plainSpecies evenPow (traineeState 30 false) := by
  intro i hi winner amount data hwinner _ hamount hdata
  obtain rfl := List.mem_singleton.mp hi
  obtain rfl := Option.some.inj hwinner
  obtain rfl := Option.some.inj hdata
  obtain rfl : (201 : Int32) = amount := Except.ok.inj (trainee_gain.symm.trans hamount)
  refine ⟨fun _ _ => by decide, fun level hlt hle hexp => ?_⟩
  have hlevel : level = 11 := by
    have hlt : 10 < level.toInt := hlt
    have hle : level.toInt ≤ 100 := hle
    by_contra hne
    have hne : level.toInt ≠ 11 := fun h => hne (Int32.toInt_inj.mp h)
    have hmono := cppExpForLevel_mono .mediumFast (m := 12) (n := level.toInt) (by decide)
      (by omega) hle
    have hfar : (1401 : Int) < cppExpForLevel .mediumFast 12 := by decide
    have hexp : cppExpForLevel .mediumFast level.toInt ≤ 1401 := hexp
    omega
  subst hlevel
  have hmax : (0 : Int) < (hpStat 50 0 11).toInt := by decide +kernel
  exact hmax

theorem trainee_run :
    TeamConsistent plainSpecies (traineeState 30 false) ∧
      ∀ after parts gains,
        (traineeCall true).run plainSpecies evenPow (traineeState 30 false) =
          .ok (after, parts, gains) →
        TeamLaw plainSpecies (traineeState 30 false) after gains := by
  obtain ⟨hteam, hcalls⟩ := distributeExp_keeps_consistent plainSpecies evenPow
    (traineeState 30 false) (traineeState 30 false)
    (trainee_consistent ⟨by decide, by decide, by decide⟩) .start
  exact ⟨hteam, fun after parts gains hcall =>
    hcalls (traineeCall true) after parts gains (trainee_suits true) hcall⟩

theorem fainted_winner_gains_hp :
    ∃ after parts gains,
      (traineeCall true).run plainSpecies evenPow (traineeState 0 true) =
        .ok (after, parts, gains) ∧
      TeamConsistent plainSpecies (traineeState 0 true) ∧
      ¬ TeamLaw plainSpecies (traineeState 0 true) after gains := by
  have hhp : ((traineeCall true).run plainSpecies evenPow (traineeState 0 true)).toOption.map
      (fun r => r.1.side0.team.toList[0]?.map (·.hp)) = some (some 2) := by decide +kernel
  cases hrun : (traineeCall true).run plainSpecies evenPow (traineeState 0 true) with
  | error e =>
    rw [hrun] at hhp
    cases hhp
  | ok r =>
    obtain ⟨after, parts, gains⟩ := r
    rw [hrun] at hhp
    refine ⟨after, parts, gains, rfl, trainee_consistent ⟨by decide, by decide, by decide⟩,
      fun hlaw => ?_⟩
    obtain ⟨m, hm, hmon⟩ := hlaw.mons 0 (traineeMon 0 true) rfl
    have htwo : m.hp = 2 := by
      have hhp : after.side0.team.toList[0]?.map (·.hp) = some 2 := Option.some.inj hhp
      rw [hm] at hhp
      exact Option.some.inj hhp
    have hzero := hmon.fallen rfl
    rw [htwo] at hzero
    exact absurd hzero (by decide)

end Distribution

end Engine

end NuzlockeSolver
