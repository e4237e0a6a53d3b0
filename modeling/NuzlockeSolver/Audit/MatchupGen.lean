import Mathlib.Data.List.Sort
import Mathlib.Data.List.Perm.Subperm
import NuzlockeSolver.Engine.Exp
import NuzlockeSolver.Engine.Json
import NuzlockeSolver.Sharding

/-!
# Random matchups

A deterministic stream of 1v1 battles at level 50. Every draw is a remainder of one output of the
generator; moves, abilities and items come from the tables of the species. A shard keeps the
battles at the positions of its residue.
-/

namespace NuzlockeSolver.Audit

open Engine (PokemonState SideState computeStat firstActive loneTeam)

inductive GenFault
  | runtimeError (what : String)
  | divideByZero
  /-- The fuel of a loop is spent; no run gets here. -/
  | spent
deriving DecidableEq, Repr

inductive GenClass
  | uniform
  | berryHolders
  | sashSturdy
deriving DecidableEq, Repr

def genLevel : Int32 := 50

def genIv : Int32 := 31

def genderMale : Int32 := 0

def genderFemale : Int32 := 1

def genderGenderless : Int32 := 2

def abilityQuickDraw : Int32 := 259

def abilitySturdy : Int32 := 5

def itemFocusSash : Int32 := 275

def itemFocusBand : Int32 := 230

def itemNone : Int32 := 0

def corpusBanned : List String := ["GOLISOPOD", "WIMPOD"]

def stressBerries : List Int32 :=
  [158, 210, 201, 202, 203, 204, 205, 206, 207, 159, 160, 161, 162, 163]

def sashSturdyItems : List Int32 := [itemFocusSash, itemFocusBand]

def generalItems : List Int32 :=
  [158, 157, 155, 149, 150, 151, 152, 153, 154, 156, 159, 160, 161, 162, 163,
    201, 202, 203, 204, 205, 206, 207, 210, 687, 688,
    184, 185, 186, 187, 188, 189, 190, 191, 192, 193,
    194, 195, 196, 197, 198, 199, 200, 686, 564,
    4001, 4002, 4003, 4004, 4005, 4006, 4007, 4008,
    4009, 4010, 4011, 4012, 4013, 4014, 4015, 4016, 4017,
    234, 270, 275, 230, 220, 297, 287, 640, 538, 281, 540,
    217, 265, 232, 268, 266, 267, 221, 326, 327, 213, 279, 278, 541,
    214, 271, 296, 269, 285, 284, 283, 282, 277, 272, 273, 288,
    542, 547, 650, 880, 1118, 846, 1121, 639,
    249, 243, 239, 242, 248, 246, 241, 240, 244, 245,
    237, 238, 251, 222, 247, 250, 233]

structure NameTables where
  species : String → Int32
  ability : String → Int32
  move : String → Int32

structure CorpusSpecies where
  id : Int32
  normalAbilities : List Int32
  allAbilities : List Int32
  learnset : List Int32
deriving DecidableEq

def usableAbilities (T : NameTables) (names : List Json) : List Int32 :=
  names.filterMap fun name =>
    match name with
    | .str s =>
      if T.ability s < 0 ∨ T.ability s = abilityQuickDraw then none else some (T.ability s)
    | _ => none

def learnsetMoves (T : NameTables) (moves : List (String × Json)) : List Int32 :=
  moves.filterMap fun move => if T.move move.1 ≤ 0 then none else some (T.move move.1)

def jsonArray? : Option Json → Option (List Json)
  | some (.arr elems) => some elems
  | _ => none

def corpusSpecies (T : NameTables) (abilities : Json) (name : String) (moves : Json) :
    Option CorpusSpecies :=
  if name ∈ corpusBanned ∨ T.species name < 0 then none
  else
    match (abilities.get? name).bind fun entry => jsonArray? (entry.get? "normal"), moves with
    | some normal, .obj fields =>
      let normalAbls := usableAbilities T normal
      let hidden :=
        ((abilities.get? name).bind fun entry => jsonArray? (entry.get? "hidden")).getD []
      let learnset := learnsetMoves T fields
      if normalAbls = [] ∨ learnset = [] then none
      else some ⟨T.species name, normalAbls, normalAbls ++ usableAbilities T hidden, learnset⟩
    | _, _ => none

structure Corpus where
  species : List CorpusSpecies
  pool : List Int32
deriving DecidableEq

namespace Corpus

def find? (C : Corpus) (id : Int32) : Option CorpusSpecies :=
  C.species.find? fun entry => entry.id = id

def learnsetContains (C : Corpus) (speciesId moveId : Int32) : Bool :=
  match C.find? speciesId with
  | none => false
  | some entry => entry.learnset.contains moveId

def load (T : NameTables) (learnsets abilities : Json) : Except GenFault Corpus :=
  match learnsets with
  | .obj fields =>
    if abilities.isObject = false then
      .error (.runtimeError "MatchupGen: abilities JSON must be an object")
    else
      let species := fields.filterMap fun field => corpusSpecies T abilities field.1 field.2
      if species = [] then
        .error (.runtimeError "MatchupGen: empty species pool after filtering")
      else .ok ⟨species.reverse, (species.map (·.id)).insertionSort (· ≤ ·)⟩
  | _ => .error (.runtimeError "MatchupGen: learnsets JSON must be an object")

/-- What the loader promises: positive moves, some ability, none that is blocked, and a species
behind every id of the pool. -/
structure Valid (C : Corpus) : Prop where
  learnset : ∀ entry ∈ C.species, entry.learnset ≠ [] ∧ ∀ move ∈ entry.learnset, 0 < move
  abilities : ∀ entry ∈ C.species, entry.allAbilities ≠ [] ∧
    ∀ ability ∈ entry.allAbilities, 0 ≤ ability ∧ ability ≠ abilityQuickDraw
  pool : ∀ id, id ∈ C.pool ↔ ∃ entry, C.find? id = some entry

theorem mem_of_find? {C : Corpus} {id : Int32} {entry : CorpusSpecies}
    (h : C.find? id = some entry) : entry ∈ C.species ∧ entry.id = id :=
  ⟨List.mem_of_find?_eq_some h, by simpa using List.find?_some h⟩

end Corpus

theorem usableAbilities_spec {T : NameTables} {names : List Json} :
    ∀ ability ∈ usableAbilities T names, 0 ≤ ability ∧ ability ≠ abilityQuickDraw := by
  intro ability h
  obtain ⟨name, -, h⟩ := List.mem_filterMap.1 h
  split at h
  · split at h
    · cases h
    · rename_i hkeep
      cases h
      exact ⟨Int32.not_lt.1 fun hlt => hkeep (.inl hlt), fun heq => hkeep (.inr heq)⟩
  · cases h

theorem learnsetMoves_pos {T : NameTables} {moves : List (String × Json)} :
    ∀ move ∈ learnsetMoves T moves, 0 < move := by
  intro move h
  obtain ⟨field, -, h⟩ := List.mem_filterMap.1 h
  split at h
  · cases h
  · rename_i hpos
    cases h
    exact Int32.not_le.1 hpos

theorem corpusSpecies_spec {T : NameTables} {abilities moves : Json} {name : String}
    {entry : CorpusSpecies} (h : corpusSpecies T abilities name moves = some entry) :
    name ∉ corpusBanned ∧ entry.id = T.species name ∧
      (entry.learnset ≠ [] ∧ ∀ move ∈ entry.learnset, 0 < move) ∧
      entry.allAbilities ≠ [] ∧
        ∀ ability ∈ entry.allAbilities, 0 ≤ ability ∧ ability ≠ abilityQuickDraw := by
  unfold corpusSpecies at h
  split at h
  · cases h
  rename_i hknown
  split at h
  · rename_i normal fields _ _
    extract_lets normalAbls hidden learnset at h
    split at h
    · cases h
    rename_i hsome
    cases h
    refine ⟨fun hbanned => hknown (.inl hbanned), rfl, ⟨fun hnil => hsome (.inr hnil), ?_⟩, ?_, ?_⟩
    · exact learnsetMoves_pos
    · exact fun hnil => hsome (.inl (List.append_eq_nil_iff.1 hnil).1)
    · intro ability hability
      cases List.mem_append.1 hability with
      | inl hnormal => exact usableAbilities_spec ability hnormal
      | inr hhidden => exact usableAbilities_spec ability hhidden
  · cases h

namespace Corpus

theorem load_valid {T : NameTables} {learnsets abilities : Json} {C : Corpus}
    (h : load T learnsets abilities = .ok C) : C.Valid := by
  unfold load at h
  split at h
  · rename_i fields
    split at h
    · cases h
    extract_lets species at h
    split at h
    · cases h
    cases h
    have hentry (entry : CorpusSpecies) (hmem : entry ∈ species.reverse) :
        ∃ name moves, corpusSpecies T abilities name moves = some entry := by
      obtain ⟨field, -, hfield⟩ := List.mem_filterMap.1 (List.mem_reverse.1 hmem)
      exact ⟨_, _, hfield⟩
    refine ⟨fun entry hmem => ?_, fun entry hmem => ?_, fun id => ?_⟩
    · obtain ⟨name, moves, hspec⟩ := hentry entry hmem
      exact (corpusSpecies_spec hspec).2.2.1
    · obtain ⟨name, moves, hspec⟩ := hentry entry hmem
      exact (corpusSpecies_spec hspec).2.2.2
    · rw [(List.perm_insertionSort (· ≤ ·) _).mem_iff, ← Option.isSome_iff_exists]
      simp [find?]
  · cases h

end Corpus

structure Shard where
  k : Nat
  of : Nat
  k_lt_of : k < of

def Shard.make (shardK shardOf : Int) : Except GenFault Shard :=
  if shardOf ≤ 0 then .error (.runtimeError "MatchupGen: shard_of must be > 0")
  else if h : shardK < 0 ∨ shardK ≥ shardOf then
    .error (.runtimeError "MatchupGen: shard_k must be in [0, shard_of)")
  else .ok ⟨shardK.toNat, shardOf.toNat, by omega⟩

def Shard.wants (shard : Shard) (index : Nat) : Bool :=
  shard.of = 1 || index % shard.of = shard.k

structure SpeciesData where
  baseHp : UInt8
  baseAtk : UInt8
  baseDef : UInt8
  baseSpa : UInt8
  baseSpd : UInt8
  baseSpe : UInt8
  maleRatio : ℚ
deriving DecidableEq

structure MatchupGen (ρ : Type) where
  word : ρ → UInt64 × ρ
  speciesData : Int32 → Option SpeciesData
  corpus : Corpus
  klass : GenClass
  valid : corpus.Valid

namespace MatchupGen

variable {ρ : Type} (G : MatchupGen ρ)

def draw (n : Nat) (s : ρ) : Nat × ρ := ((G.word s).1.toNat % n, (G.word s).2)

def pick (values : List Int32) (s : ρ) : Int32 × ρ :=
  (values.getD (G.draw values.length s).1 0, (G.draw values.length s).2)

def sampleMoves : Nat → List Int32 → ρ → List Int32 × ρ
  | 0, _, s => ([], s)
  | n + 1, pool, s =>
    if pool = [] then ([], s)
    else
      let idx := G.draw pool.length s
      let rest := sampleMoves n (pool.eraseIdx idx.1) idx.2
      (pool.getD idx.1 0 :: rest.1, rest.2)

def sampleItem (s : ρ) : Int32 × ρ :=
  match G.klass with
  | .sashSturdy => G.pick sashSturdyItems s
  | .berryHolders => G.pick stressBerries s
  | .uniform => G.pick generalItems s

def classItem (abls : List Int32) (ability : Int32) (s : ρ) : (Int32 × Int32) × ρ :=
  let item := G.sampleItem s
  if G.klass = .sashSturdy ∧ abilitySturdy ∈ abls then
    let choice := G.draw 3 item.2
    if choice.1 = 2 then
      let general := G.pick generalItems choice.2
      ((general.1, abilitySturdy), general.2)
    else ((item.1, ability), choice.2)
  else ((item.1, ability), item.2)

def playerItem (isPlayer : Bool) (item : Int32) (s : ρ) : Int32 × ρ :=
  if isPlayer then
    let roll := G.draw 100 s
    (if roll.1 < 30 then itemNone else item, roll.2)
  else (item, s)

def sampleGender (maleRatio : ℚ) (s : ρ) : Int32 × ρ :=
  if maleRatio < 0 then (genderGenderless, s)
  else
    let r : ℚ := ((G.word s).1.toNat >>> 32 : Nat) / 4294967296
    (if r < maleRatio then genderMale else genderFemale, (G.word s).2)

def ofUInt8 (n : UInt8) : Int32 := Int32.ofNat n.toNat

def movePp (move : Int32) : Int32 := if move ≠ 0 then 40 else 0

def buildMon (sd : SpeciesData) (speciesId nature gender ability item : Int32)
    (moves : List Int32) : Except String PokemonState := do
  let hp ← computeStat 0 (ofUInt8 sd.baseHp) genIv nature genLevel
  let atk ← computeStat 1 (ofUInt8 sd.baseAtk) genIv nature genLevel
  let defense ← computeStat 2 (ofUInt8 sd.baseDef) genIv nature genLevel
  let spa ← computeStat 3 (ofUInt8 sd.baseSpa) genIv nature genLevel
  let spd ← computeStat 4 (ofUInt8 sd.baseSpd) genIv nature genLevel
  let spe ← computeStat 5 (ofUInt8 sd.baseSpe) genIv nature genLevel
  .ok {
    species := speciesId
    nature := nature
    ivHp := genIv
    ivAtk := genIv
    ivDef := genIv
    ivSpa := genIv
    ivSpd := genIv
    ivSpe := genIv
    gender := gender
    level := genLevel
    ability := ability
    baseAbility := ability
    item := item
    moveId0 := moves.getD 0 0
    moveId1 := moves.getD 1 0
    moveId2 := moves.getD 2 0
    moveId3 := moves.getD 3 0
    movePp0 := movePp (moves.getD 0 0)
    movePp1 := movePp (moves.getD 1 0)
    movePp2 := movePp (moves.getD 2 0)
    movePp3 := movePp (moves.getD 3 0)
    hasStats := true
    statHp := hp
    statAtk := atk
    statDef := defense
    statSpa := spa
    statSpd := spd
    statSpe := spe
    hasMaxHp := true
    maxHp := hp
    hasHp := true
    hp := hp }

def generateMon (speciesId : Int32) (isPlayer : Bool) (s : ρ) :
    Except GenFault (PokemonState × ρ) :=
  match G.speciesData speciesId, G.corpus.find? speciesId with
  | some sd, some entry =>
    let moves := G.sampleMoves 4 entry.learnset s
    let ability := G.pick entry.allAbilities moves.2
    let item := G.classItem entry.allAbilities ability.1 ability.2
    let held := G.playerItem isPlayer item.1.1 item.2
    let nature := G.draw 25 held.2
    let gender := G.sampleGender sd.maleRatio nature.2
    match buildMon sd speciesId (Int32.ofNat nature.1) gender.1 item.1.2 held.1 moves.1 with
    | .ok mon => .ok (mon, gender.2)
    | .error what => .error (.runtimeError what)
  | none, _ =>
    .error (.runtimeError ("MatchupGen: no SpeciesData for id " ++ toString speciesId.toInt))
  | _, none => .error (.runtimeError "unordered_map::at")

def side (mon : PokemonState) : SideState := { team := loneTeam mon, activeIndices := firstActive }

def generateOne (s : ρ) : Except GenFault (Engine.BattleState × ρ) :=
  let pool := G.corpus.pool
  if pool.length ≤ 1 then .error .divideByZero
  else do
    let idx0 := G.draw pool.length s
    let draw1 := G.draw (pool.length - 1) idx0.2
    let idx1 := if draw1.1 ≥ idx0.1 then draw1.1 + 1 else draw1.1
    let mon0 ← G.generateMon (pool.getD idx0.1 0) true draw1.2
    let mon1 ← G.generateMon (pool.getD idx1 0) false mon0.2
    .ok ({ side0 := side mon0.1, side1 := side mon1.1, turnNumber := 1, isTrainerBattle := true },
      mon1.2)

/-- The next battle of a shard: all before it are generated and discarded. -/
def next (shard : Shard) : Nat × ρ → Except GenFault (Engine.BattleState × (Nat × ρ)) :=
  Sharding.seek G.generateOne shard.wants .spent shard.of

end MatchupGen

def DealtItem (klass : GenClass) (ability item : Int32) : Prop :=
  match klass with
  | .uniform => item ∈ generalItems
  | .berryHolders => item ∈ stressBerries
  | .sashSturdy => item ∈ sashSturdyItems ∨ ability = abilitySturdy ∧ item ∈ generalItems

/-- A mon that its species can be: healthy, with moves of the learnset, an ability of the species, an
item of the class and a possible gender. -/
structure LegalMon {ρ : Type} (G : MatchupGen ρ) (isPlayer : Bool) (sd : SpeciesData)
    (entry : CorpusSpecies) (mon : PokemonState) : Prop where
  data : G.speciesData mon.species = some sd
  known : G.corpus.find? mon.species = some entry
  moves : ∃ moves : List Int32, moves.Subperm entry.learnset ∧
    moves.length = min 4 entry.learnset.length ∧
    [mon.moveId0, mon.moveId1, mon.moveId2, mon.moveId3] =
      moves ++ List.replicate (4 - moves.length) 0
  pp : [mon.movePp0, mon.movePp1, mon.movePp2, mon.movePp3] =
    [mon.moveId0, mon.moveId1, mon.moveId2, mon.moveId3].map MatchupGen.movePp
  ability : mon.ability ∈ entry.allAbilities ∧ mon.baseAbility = mon.ability
  item : DealtItem G.klass mon.ability mon.item ∨ isPlayer = true ∧ mon.item = itemNone
  nature : 0 ≤ mon.nature ∧ mon.nature < 25
  gender : (mon.gender = genderGenderless ∧ sd.maleRatio < 0) ∨
    (mon.gender = genderMale ∧ 0 < sd.maleRatio) ∨
      mon.gender = genderFemale ∧ 0 ≤ sd.maleRatio ∧ sd.maleRatio < 1
  hp : mon.hp = Int32.ofNat (sd.baseHp.toNat + 75) ∧ mon.maxHp = mon.hp ∧ mon.statHp = mon.hp
  level : mon.level = 50 ∧ mon.fainted = false

/-- A legal mon on each side, of species at two places of the pool. -/
def LegalBattle {ρ : Type} (G : MatchupGen ρ) (b : Engine.BattleState) : Prop :=
  ∃ mon0 mon1, b = { side0 := MatchupGen.side mon0, side1 := MatchupGen.side mon1 } ∧
    (∃ sd entry, LegalMon G true sd entry mon0) ∧ (∃ sd entry, LegalMon G false sd entry mon1) ∧
      [mon0.species, mon1.species].Subperm G.corpus.pool

namespace MatchupGen

variable {ρ : Type} (G : MatchupGen ρ)

theorem getD_mem {values : List Int32} {n : Nat} (h : n < values.length) :
    values.getD n 0 ∈ values := by
  rw [List.getD_eq_getElem _ _ h]
  exact List.getElem_mem h

theorem draw_lt {n : Nat} (h : 0 < n) (s : ρ) : (G.draw n s).1 < n := Nat.mod_lt _ h

theorem pick_mem {values : List Int32} (h : values ≠ []) (s : ρ) : (G.pick values s).1 ∈ values :=
  getD_mem (G.draw_lt (List.length_pos_of_ne_nil h) s)

theorem sampleMoves_subperm (n : Nat) (pool : List Int32) (s : ρ) :
    (G.sampleMoves n pool s).1.Subperm pool ∧
      (G.sampleMoves n pool s).1.length = min n pool.length := by
  induction n generalizing pool s with
  | zero => exact ⟨List.nil_subperm, by simp [sampleMoves]⟩
  | succ n ih =>
    rw [sampleMoves]
    split
    · rename_i hnil
      exact ⟨List.nil_subperm, by simp [hnil]⟩
    · rename_i hnil
      have hlt := G.draw_lt (List.length_pos_of_ne_nil hnil) s
      obtain ⟨hsubperm, hlength⟩ := ih (pool.eraseIdx (G.draw pool.length s).1)
        (G.draw pool.length s).2
      dsimp only
      constructor
      · rw [List.getD_eq_getElem _ _ hlt]
        exact ((List.subperm_cons _).2 hsubperm).trans (List.getElem_cons_eraseIdx_perm hlt).subperm
      · rw [List.length_cons, hlength, List.length_eraseIdx_of_lt hlt]
        omega

theorem sampleItem_dealt (ability : Int32) (s : ρ) :
    DealtItem G.klass ability (G.sampleItem s).1 := by
  unfold DealtItem sampleItem
  cases G.klass with
  | uniform => exact G.pick_mem (by decide) s
  | berryHolders => exact G.pick_mem (by decide) s
  | sashSturdy => exact .inl (G.pick_mem (by decide) s)

theorem classItem_spec {abls : List Int32} {ability : Int32} (h : ability ∈ abls) (s : ρ) :
    (G.classItem abls ability s).1.2 ∈ abls ∧
      DealtItem G.klass (G.classItem abls ability s).1.2 (G.classItem abls ability s).1.1 := by
  unfold classItem
  extract_lets item choice general
  split
  · rename_i hsturdy
    split
    · refine ⟨hsturdy.2, ?_⟩
      simp only [DealtItem, hsturdy.1]
      exact .inr ⟨trivial, G.pick_mem (by decide) _⟩
    · exact ⟨h, G.sampleItem_dealt ability s⟩
  · exact ⟨h, G.sampleItem_dealt ability s⟩

theorem playerItem_spec {P : Int32 → Prop} {isPlayer : Bool} {item : Int32} (h : P item) (s : ρ) :
    P (G.playerItem isPlayer item s).1 ∨
      isPlayer = true ∧ (G.playerItem isPlayer item s).1 = itemNone := by
  unfold playerItem
  split
  · rename_i hplayer
    dsimp only
    split
    · exact .inr ⟨hplayer, rfl⟩
    · exact .inl h
  · exact .inl h

theorem sampleGender_spec (maleRatio : ℚ) (s : ρ) :
    let gender := (G.sampleGender maleRatio s).1
    (gender = genderGenderless ∧ maleRatio < 0) ∨ (gender = genderMale ∧ 0 < maleRatio) ∨
      gender = genderFemale ∧ 0 ≤ maleRatio ∧ maleRatio < 1 := by
  unfold sampleGender
  split
  · rename_i hneg
    exact .inl ⟨rfl, hneg⟩
  · rename_i hneg
    extract_lets r gender
    have hword : (G.word s).1.toNat >>> 32 < 4294967296 := by
      have hlt := UInt64.toNat_lt (G.word s).1
      rw [Nat.shiftRight_eq_div_pow]
      omega
    have hr : 0 ≤ r ∧ r < 1 := by
      have hcast : ((G.word s).1.toNat >>> 32 : Nat) < (4294967296 : ℚ) := by exact_mod_cast hword
      exact ⟨by positivity, (div_lt_one (by norm_num)).2 hcast⟩
    right
    by_cases hmale : r < maleRatio
    · exact .inl ⟨if_pos hmale, hr.1.trans_lt hmale⟩
    · exact .inr ⟨if_neg hmale, not_lt.1 hneg, (not_lt.1 hmale).trans_lt hr.2⟩

theorem toInt_ofNat {n : Nat} (h : n < 2147483648) : (Int32.ofNat n).toInt = n :=
  Int32.toInt_ofNat_of_lt h

theorem ofNat_bounds {n : Nat} (h : n < 25) : 0 ≤ Int32.ofNat n ∧ Int32.ofNat n < 25 := by
  have htoInt := toInt_ofNat (n := n) (by omega)
  rw [Int32.le_iff_toInt_le, Int32.lt_iff_toInt_lt, htoInt]
  constructor
  · exact Int.natCast_nonneg n
  · exact Int.ofNat_lt.2 h

/-- At level 50 with the best individual value, the HP are those of the species and 75. -/
theorem hpStat_ofUInt8 (base : UInt8) :
    Engine.hpStat (ofUInt8 base) genIv genLevel = Int32.ofNat (base.toNat + 75) := by
  have hbase : (ofUInt8 base).toInt = base.toNat :=
    toInt_ofNat ((UInt8.toNat_lt base).trans (by decide))
  have hscaled : Engine.scaledStat (ofUInt8 base) genIv genLevel = base.toNat + 15 := by
    rw [Engine.scaledStat, hbase, Int.floor_eq_iff]
    have hiv : genIv.toInt = 31 := rfl
    have hlevel : genLevel.toInt = 50 := rfl
    rw [hiv, hlevel]
    push_cast
    constructor <;> linarith
  have hlevel : genLevel.toInt = 50 := rfl
  have hsum : (base.toNat : Int) + 15 + 50 + 10 = (base.toNat + 75 : Nat) := by omega
  rw [Engine.hpStat, hscaled, hlevel, hsum]
  exact Int32.ofInt_eq_ofNat

theorem buildMon_spec {sd : SpeciesData} {speciesId nature gender ability item : Int32}
    {moves : List Int32} {mon : PokemonState}
    (h : buildMon sd speciesId nature gender ability item moves = .ok mon) :
    mon.species = speciesId ∧ mon.nature = nature ∧ mon.gender = gender ∧ mon.ability = ability ∧
      mon.baseAbility = ability ∧ mon.item = item ∧ mon.level = 50 ∧ mon.fainted = false ∧
      [mon.moveId0, mon.moveId1, mon.moveId2, mon.moveId3] =
        [moves.getD 0 0, moves.getD 1 0, moves.getD 2 0, moves.getD 3 0] ∧
      [mon.movePp0, mon.movePp1, mon.movePp2, mon.movePp3] =
        [mon.moveId0, mon.moveId1, mon.moveId2, mon.moveId3].map movePp ∧
      mon.hp = Int32.ofNat (sd.baseHp.toNat + 75) ∧ mon.maxHp = mon.hp ∧ mon.statHp = mon.hp := by
  obtain ⟨hp, hhp, h⟩ := bind_eq_ok.1 h
  obtain ⟨_, -, h⟩ := bind_eq_ok.1 h
  obtain ⟨_, -, h⟩ := bind_eq_ok.1 h
  obtain ⟨_, -, h⟩ := bind_eq_ok.1 h
  obtain ⟨_, -, h⟩ := bind_eq_ok.1 h
  obtain ⟨_, -, h⟩ := bind_eq_ok.1 h
  obtain rfl := Except.ok.inj hhp
  cases h
  exact ⟨rfl, rfl, rfl, rfl, rfl, rfl, rfl, rfl, rfl, rfl, hpStat_ofUInt8 _, rfl, rfl⟩

theorem pad_moves {moves : List Int32} (h : moves.length ≤ 4) :
    [moves.getD 0 0, moves.getD 1 0, moves.getD 2 0, moves.getD 3 0] =
      moves ++ List.replicate (4 - moves.length) 0 := by
  obtain _ | ⟨_, _ | ⟨_, _ | ⟨_, _ | ⟨_, _ | ⟨_, moves⟩⟩⟩⟩⟩ := moves
  case cons.cons.cons.cons.cons =>
    simp only [List.length_cons] at h
    omega
  all_goals rfl

theorem generateMon_legal {speciesId : Int32} {isPlayer : Bool} {s : ρ} {r : PokemonState × ρ}
    (h : G.generateMon speciesId isPlayer s = .ok r) :
    r.1.species = speciesId ∧ ∃ sd entry, LegalMon G isPlayer sd entry r.1 := by
  unfold generateMon at h
  split at h
  · rename_i sd entry hdata hknown
    extract_lets moves ability item held nature gender at h
    split at h
    · rename_i mon hbuild
      cases h
      obtain ⟨rfl, hnature, hgender, hability, hbase, hitem, hlevel, hfainted, hmoves, hpp, hhp,
        hmax, hstat⟩ := buildMon_spec hbuild
      obtain ⟨hsubperm, hlength⟩ := G.sampleMoves_subperm 4 entry.learnset s
      obtain ⟨hentry, -⟩ := Corpus.mem_of_find? hknown
      obtain ⟨hchosen, hdealt⟩ := G.classItem_spec
        (G.pick_mem (G.valid.abilities entry hentry).1 moves.2) ability.2
      refine ⟨rfl, sd, entry, hdata, hknown, ⟨_, hsubperm, hlength, ?_⟩, hpp,
        ?_, ?_, ?_, ?_, ?_, ?_⟩
      · rw [hmoves, pad_moves (hlength.trans_le (Nat.min_le_left _ _))]
      · rw [hability, hbase]
        exact ⟨hchosen, rfl⟩
      · rw [hability, hitem]
        exact G.playerItem_spec hdealt item.2
      · rw [hnature]
        exact ofNat_bounds (G.draw_lt (by decide) held.2)
      · rw [hgender]
        exact G.sampleGender_spec sd.maleRatio nature.2
      · exact ⟨hhp, hmax, hstat⟩
      · exact ⟨hlevel, hfainted⟩
    · cases h
  · cases h
  · cases h

theorem pair_subperm {l : List Int32} {i j : Nat} (hi : i < l.length) (hj : j < l.length)
    (hne : j ≠ i) : [l.getD i 0, l.getD j 0].Subperm l := by
  rw [List.getD_eq_getElem _ _ hi, List.getD_eq_getElem _ _ hj]
  have hmem : l[j] ∈ l.eraseIdx i := List.mem_eraseIdx_iff_getElem.2 ⟨j, hj, hne, rfl⟩
  have hsingle : [l[j]].Subperm (l.eraseIdx i) := List.singleton_subperm_iff.2 hmem
  exact ((List.subperm_cons _).2 hsingle).trans (List.getElem_cons_eraseIdx_perm hi).subperm

theorem generateOne_legal {s : ρ} {r : Engine.BattleState × ρ} (h : G.generateOne s = .ok r) :
    LegalBattle G r.1 := by
  unfold generateOne at h
  extract_lets pool idx0 draw1 idx1 at h
  split at h
  · cases h
  rename_i hpool
  obtain ⟨mon0, hmon0, h⟩ := bind_eq_ok.1 h
  obtain ⟨mon1, hmon1, h⟩ := bind_eq_ok.1 h
  cases h
  obtain ⟨hspecies0, hlegal0⟩ := G.generateMon_legal hmon0
  obtain ⟨hspecies1, hlegal1⟩ := G.generateMon_legal hmon1
  refine ⟨mon0.1, mon1.1, rfl, hlegal0, hlegal1, ?_⟩
  have hlt0 : idx0.1 < pool.length := G.draw_lt (by omega) s
  have hlt1 : draw1.1 < pool.length - 1 := G.draw_lt (by omega) idx0.2
  have hidx1 : idx1 < pool.length ∧ idx1 ≠ idx0.1 := by
    change (if draw1.1 ≥ idx0.1 then draw1.1 + 1 else draw1.1) < _ ∧
      (if draw1.1 ≥ idx0.1 then draw1.1 + 1 else draw1.1) ≠ _
    split <;> omega
  rw [hspecies0, hspecies1]
  exact pair_subperm hlt0 hidx1.1 hidx1.2

theorem collect_legal {n : Nat} {s : ρ} {r : List Engine.BattleState × ρ}
    (h : Sharding.collect G.generateOne n s = .ok r) : ∀ b ∈ r.1, LegalBattle G b := by
  induction n generalizing s r with
  | zero =>
    cases h
    exact fun b hb => absurd hb List.not_mem_nil
  | succ n ih =>
    obtain ⟨first, hfirst, h⟩ := bind_eq_ok.1 h
    obtain ⟨rest, hrest, h⟩ := bind_eq_ok.1 h
    cases h
    intro b hb
    obtain rfl | hb := List.mem_cons.1 hb
    · exact G.generateOne_legal hfirst
    · exact ih hrest b hb

theorem collect_next (shard : Shard) (n : Nat) (s : ρ) :
    Sharding.collect (G.next shard) (n + 1) (0, s) =
      Sharding.collect G.generateOne (shard.k + 1 + n * shard.of) s >>= fun r =>
        .ok (Sharding.strided shard.of shard.k (n + 1) r.1, (shard.k + 1 + n * shard.of, r.2)) := by
  have hwants (j : Nat) : shard.wants (0 + j) = decide (j % shard.of = shard.k) := by
    have hlt := shard.k_lt_of
    rw [Nat.zero_add, Shard.wants]
    by_cases hof : shard.of = 1
    · have hk : shard.k = 0 := by omega
      simp [hof, hk, Nat.mod_one]
    · simp [hof]
  have h := Sharding.collect_seek G.generateOne .spent s shard.k_lt_of le_rfl hwants n
  rwa [Nat.zero_add] at h

/-- Every battle that a shard yields is legal. -/
theorem next_legal {shard : Shard} {n : Nat} {s : ρ} {r : List Engine.BattleState × (Nat × ρ)}
    (h : Sharding.collect (G.next shard) n (0, s) = .ok r) : ∀ b ∈ r.1, LegalBattle G b := by
  cases n with
  | zero =>
    cases h
    exact fun b hb => absurd hb List.not_mem_nil
  | succ n =>
    rw [collect_next] at h
    obtain ⟨all, hall, h⟩ := bind_eq_ok.1 h
    cases h
    intro b hb
    obtain ⟨i, -, hi⟩ := List.mem_filterMap.1 hb
    exact G.collect_legal hall b (List.mem_of_getElem? hi)

/-- Shards with as many battles each share out the battles of the unsharded stream. A fault of the
stream is one of the last shard. -/
theorem next_partition {of n : Nat} {s : ρ} :
    (∀ r, Sharding.collect G.generateOne ((n + 1) * of) s = .ok r →
      (∀ k (hk : k < of), ∃ t, Sharding.collect (G.next ⟨k, of, hk⟩) (n + 1) (0, s) =
        .ok (Sharding.strided of k (n + 1) r.1, t)) ∧
      ((List.range of).flatMap fun k => Sharding.strided of k (n + 1) r.1).Perm r.1) ∧
    ∀ fault (hof : of - 1 < of), Sharding.collect G.generateOne ((n + 1) * of) s = .error fault →
      Sharding.collect (G.next ⟨of - 1, of, hof⟩) (n + 1) (0, s) = .error fault := by
  refine ⟨fun r h => ⟨fun k hk => ?_, ?_⟩, fun fault hof h => ?_⟩
  · obtain ⟨rest, hrest⟩ : ∃ rest, (n + 1) * of = (k + 1 + n * of) + rest := by
      refine ⟨of - (k + 1), ?_⟩
      rw [Nat.succ_mul]
      omega
    rw [hrest] at h
    obtain ⟨t, ht⟩ := Sharding.collect_take h
    have hlt : k + n * of < k + 1 + n * of := by omega
    rw [collect_next, ht, ok_bind, Sharding.strided_take hlt]
    exact ⟨_, rfl⟩
  · exact Sharding.flatMap_strided_perm (Sharding.length_of_collect h)
  · have htotal : of - 1 + 1 + n * of = (n + 1) * of := by
      rw [Nat.succ_mul]
      omega
    rw [collect_next, htotal, h]
    rfl

end MatchupGen

section Duo

def duoNames : NameTables where
  species name := if name = "GEODUDE" then 74 else if name = "PIKACHU" then 25 else -1
  ability name := if name = "STURDY" then 5 else if name = "STATIC" then 9 else -1
  move name := if name = "TACKLE" then 33 else if name = "GROWL" then 45 else -1

def duoLearnsets : Json :=
  .obj [("GEODUDE", .obj [("GROWL", .null), ("TACKLE", .null)]),
    ("PIKACHU", .obj [("GROWL", .null)]),
    ("WIMPOD", .obj [("TACKLE", .null)])]

def duoAbilities : Json :=
  .obj [("GEODUDE", .obj [("normal", .arr [.str "STURDY"])]),
    ("PIKACHU", .obj [("hidden", .arr [.str "STURDY"]), ("normal", .arr [.str "STATIC"])]),
    ("WIMPOD", .obj [("normal", .arr [.str "STATIC"])])]

def duoCorpus : Corpus :=
  ⟨[⟨25, [9], [9, 5], [45]⟩, ⟨74, [5], [5], [45, 33]⟩], [25, 74]⟩

theorem duoCorpus_load : Corpus.load duoNames duoLearnsets duoAbilities = .ok duoCorpus := by
  decide +kernel

def duoGen : MatchupGen Nat where
  word s := (UInt64.ofNat (s * 6364136223846793005 + 1442695040888963407), s + 1)
  speciesData id := if id = 74 then some ⟨40, 80, 100, 30, 30, 20, 1 / 2⟩
    else if id = 25 then some ⟨35, 55, 40, 50, 50, 90, -1⟩ else none
  corpus := duoCorpus
  klass := .sashSturdy
  valid := Corpus.load_valid duoCorpus_load

def duoShard : Shard := ⟨1, 2, Nat.one_lt_two⟩

theorem duoGen_next_legal : ∃ r, Sharding.collect (duoGen.next duoShard) 2 (0, 3) = .ok r ∧
    r.1.length = 2 ∧ ∀ b ∈ r.1, LegalBattle duoGen b := by
  have hlength : (Sharding.collect (duoGen.next duoShard) 2 (0, 3)).map (·.1.length) = .ok 2 := by
    decide +kernel
  obtain ⟨r, hr, hlength⟩ := map_eq_ok.1 hlength
  exact ⟨r, hr, hlength, duoGen.next_legal hr⟩

theorem duoGen_next_partition : ∃ r, Sharding.collect duoGen.generateOne (2 * 2) 3 = .ok r ∧
    r.1.length = 4 ∧
      ((List.range 2).flatMap fun k => Sharding.strided 2 k 2 r.1).Perm r.1 := by
  have hlength : (Sharding.collect duoGen.generateOne (2 * 2) 3).map (·.1.length) = .ok 4 := by
    decide +kernel
  obtain ⟨r, hr, hlength⟩ := map_eq_ok.1 hlength
  exact ⟨r, hr, hlength, (duoGen.next_partition.1 r hr).2⟩

end Duo

end NuzlockeSolver.Audit
