import NuzlockeSolver.Engine.Codec
import NuzlockeSolver.Engine.StateEq

/-!
# The codec round trip

Decoding what the encoder wrote gives the state back, up to the values an absent optional field
hides.
-/

namespace NuzlockeSolver

namespace Engine

open Json

section Tags

variable (T : JsonText)

@[simp] theorem lookup_cons_ite (k k' : String) (v : Json) (fields : List (String × Json)) :
    List.lookup k ((k', v) :: fields) = if k = k' then some v else fields.lookup k := by
  rw [List.lookup_cons]
  by_cases h : k = k'
  · simp [h]
  · have hbeq : (k == k') = false := by simpa using h
    rw [hbeq, if_neg h]

@[simp] theorem requireType_record (name : String) (fields : List (String × Json)) :
    requireType T (record name fields) name = .ok (object fields) := by
  simp [requireType, requireField, record, getString]

@[simp] theorem decodeEnum_encodeEnum (name : String) (n : Int32) :
    decodeEnum T (encodeEnum name n) name = .ok n := by
  simp [decodeEnum, requireField, encodeEnum, getString]

@[simp] theorem decodeEnumOrInt_encodeEnum (name : String) (n : Int32) :
    decodeEnumOrInt T (encodeEnum name n) name = .ok n :=
  decodeEnum_encodeEnum T name n

@[simp] theorem decodeEnumOrInt_ofInt32 (name : String) (n : Int32) :
    decodeEnumOrInt T (ofInt32 n) name = .ok n :=
  getInt32_ofInt32 n

@[simp] theorem requireTuple_tupleOf (l : List Json) :
    requireTuple T (tupleOf l) = .ok (.arr l) := by
  simp [requireTuple, tupleOf]

@[simp] theorem requireFrozenset_frozensetOf (l : List Json) :
    requireFrozenset T (frozensetOf l) = .ok (.arr l) := by
  simp [requireFrozenset, frozensetOf]

@[simp] theorem requireList_arr (notList : String) (l : List Json) :
    requireList notList (.arr l) = .ok l :=
  rfl

theorem requireTupleOf_tupleOf {n : Nat} {l : List Json} (wrongSize : String) (h : l.length = n) :
    requireTupleOf T n wrongSize (tupleOf l) = .ok (.arr l) := by
  have hsize : ¬ (Json.arr l).size ≠ n := by
    rw [not_not]
    exact h
  rw [requireTupleOf, requireTuple_tupleOf, ok_bind, if_neg hsize]
  rfl

theorem decodeInts_of_mapM {n : Nat} {js : List Json} {l : List Int32} (wrongSize : String)
    (h : js.length = n) (hl : js.mapM getInt32 = .ok l) :
    decodeInts T n wrongSize (tupleOf js) = .ok l := by
  rw [decodeInts, requireTupleOf_tupleOf T wrongSize h, ok_bind, indexed, ok_bind, hl]

theorem decodeInts_tupleOf {n : Nat} {l : List Int32} (wrongSize : String) (h : l.length = n) :
    decodeInts T n wrongSize (tupleOf (l.map ofInt32)) = .ok l := by
  apply decodeInts_of_mapM T wrongSize (by rw [List.length_map, h])
  have hints : (l.map ofInt32).mapM getInt32 = .ok (l.map id) :=
    mapM_except_map fun n _ => getInt32_ofInt32 n
  rw [hints, List.map_id]

theorem decodePadded_tupleOf {n : Nat} {l : List Int32} {enc : Int32 → Json}
    {read : Json → Except JsonFault Int32} (tooLong : String) (h : l.length = n)
    (hread : ∀ a, read (enc a) = .ok a) :
    decodePadded T n tooLong read (tupleOf (l.map enc)) = .ok l := by
  have hvals : (l.map enc).mapM read = .ok (l.map id) := mapM_except_map fun a _ => hread a
  have hsize : ¬ (Json.arr (l.map enc)).size > n := by
    rw [Json.size, elems, List.length_map]
    omega
  rw [decodePadded, requireTuple_tupleOf, ok_bind, if_neg hsize, indexed, ok_bind, hvals,
    List.map_id, ok_bind, h, Nat.sub_self, List.replicate_zero, List.append_nil]
  rfl

theorem decodeEnumPair_encodeEnumPair {name wrongSize : String} {value n : Int32} {turns : Json}
    (h : turns.getInt32 = .ok n) :
    decodeEnumPair T name wrongSize (encodeEnumPair name value turns) = .ok (value, n) := by
  have hpair : requireTupleOf T 2 wrongSize (tupleOf [encodeEnum name value, turns]) =
      .ok (.arr [encodeEnum name value, turns]) := requireTupleOf_tupleOf T wrongSize rfl
  simp only [decodeEnumPair, encodeEnumPair, hpair, ok_bind, index, List.getElem?_cons_zero,
    List.getElem?_cons_succ, Option.getD_some, decodeEnum_encodeEnum, h]
  rfl

theorem decodeOptional_optionalField {α : Type} {read : Json → Except JsonFault α} {j : Json}
    {a : α}
    (present : Bool) (hnull : j.isNull = false) (h : read j = .ok a) :
    decodeOptional read (optionalField present j) = .ok (if present then some a else none) := by
  cases present with
  | false => rfl
  | true => simp [decodeOptional, optionalField, hnull, h]

end Tags

namespace InlineVec

variable {α : Type} {cap : Nat}

theorem pushBack_of_lt {v : InlineVec α cap} {a : α} (h : v.toList.length < cap) :
    ∃ w, v.pushBack a = some w ∧ w.toList = v.toList ++ [a] := by
  rw [pushBack, dif_pos h]
  exact ⟨_, rfl, rfl⟩

end InlineVec

theorem pushAll_ok {α β : Type} {cap : Nat} {read : β → Except JsonFault α} {bs : List β}
    {as : List α} (hread : List.Forall₂ (fun b a => read b = .ok a) bs as) {v : InlineVec α cap}
    (hcap : v.toList.length + as.length ≤ cap) :
    ∃ w, pushAll read v bs = .ok w ∧ w.toList = v.toList ++ as := by
  induction hread generalizing v with
  | nil => exact ⟨v, rfl, by simp⟩
  | @cons b a bs as hb _ ih =>
    rw [List.length_cons] at hcap
    obtain ⟨w, hw, hwl⟩ := InlineVec.pushBack_of_lt (v := v) (a := a) (by omega)
    obtain ⟨w', hw', hwl'⟩ := @ih w
      (by rw [hwl, List.length_append, List.length_singleton]; omega)
    refine ⟨w', ?_, ?_⟩
    · rw [pushAll, hb, ok_bind, hw]
      exact hw'
    · rw [hwl', hwl, List.append_assoc, List.singleton_append]

theorem pushAll_map {α β γ : Type} {cap : Nat} {read : γ → Except JsonFault β} {enc : α → γ}
    {g : α → β} {v : InlineVec α cap} (hread : ∀ a ∈ v.toList, read (enc a) = .ok (g a)) :
    pushAll read (@InlineVec.empty β cap) (v.toList.map enc) = .ok (v.map g) := by
  have hall : List.Forall₂ (fun j b => read j = .ok b) (v.toList.map enc) (v.map g).toList := by
    rw [InlineVec.map, List.forall₂_map_left_iff, List.forall₂_map_right_iff, List.forall₂_same]
    exact hread
  obtain ⟨w, hw, hwl⟩ := pushAll_ok hall (v := InlineVec.empty)
    (by simpa [InlineVec.empty] using (v.map g).size_le)
  rw [hw, InlineVec.ext (show w.toList = (v.map g).toList by rw [hwl]; rfl)]

theorem pushAll_self {α γ : Type} {cap : Nat} {read : γ → Except JsonFault α} {enc : α → γ}
    (hread : ∀ a, read (enc a) = .ok a) (v : InlineVec α cap) :
    pushAll read (@InlineVec.empty α cap) (v.toList.map enc) = .ok v := by
  have hid : v.map (fun a => a) = v := InlineVec.ext (List.map_id' v.toList)
  rw [pushAll_map fun a _ => hread a, hid]

section Pokemon

variable (T : JsonText)

theorem decodeTimedVolatile_encode (wrongSize : String) (tv : TimedVolatile) :
    decodeTimedVolatile T wrongSize (encodeTimedVolatile tv) = .ok tv := by
  rw [decodeTimedVolatile, encodeTimedVolatile,
    decodeEnumPair_encodeEnumPair T (getInt32_ofInt32 tv.turns)]
  rfl

theorem decodeTypes_encode (v : InlineVec Int32 pokemonTypesCap) :
    decodeTypes T (tupleOf (v.toList.map (encodeEnum "Type"))) = .ok v := by
  rw [decodeTypes, requireTuple_tupleOf, ok_bind, elems]
  apply pushAll_self
  exact decodeEnum_encodeEnum T "Type"

theorem decodeTimedVolatiles_encode (v : InlineVec TimedVolatile pokemonTimedVolatilesCap) :
    decodeTimedVolatiles T (.arr (v.toList.map encodeTimedVolatile)) = .ok v :=
  pushAll_self (decodeTimedVolatile_encode T "codec: timed_volatile entry must be 2-tuple") v

/-- What the codec keeps: the values behind an absent optional field are forgotten. -/
def PokemonState.visible (p : PokemonState) : PokemonState :=
  { p with
    statHp := if p.hasStats then p.statHp else 0
    statAtk := if p.hasStats then p.statAtk else 0
    statDef := if p.hasStats then p.statDef else 0
    statSpa := if p.hasStats then p.statSpa else 0
    statSpd := if p.hasStats then p.statSpd else 0
    statSpe := if p.hasStats then p.statSpe else 0
    maxHp := if p.hasMaxHp then p.maxHp else 0
    hp := if p.hasHp then p.hp else 0
    types := if p.hasTypes then p.types else .empty }

theorem requireField_of_mem {fields : List (String × Json)}
    (hnodup : (fields.map Prod.fst).Nodup) :
    ∀ e ∈ fields, requireField T (object fields) e.1 = .ok e.2 := by
  induction fields with
  | nil => simp
  | cons e fields ih =>
    rw [List.map_cons, List.nodup_cons] at hnodup
    intro e' he'
    have hlookup : List.lookup e'.1 (e :: fields) = some e'.2 := by
      rcases List.mem_cons.1 he' with rfl | he'
      · exact List.lookup_cons_self
      · have hne : (e'.1 == e.1) = false := by
          rw [beq_eq_false_iff_ne]
          intro heq
          exact hnodup.1 (heq ▸ List.mem_map_of_mem he')
        have htail := ih hnodup.2 e' he'
        rw [requireField, get?_object] at htail
        rw [List.lookup_cons, hne]
        cases hl : fields.lookup e'.1 with
        | none => simp [hl] at htail
        | some v =>
          rw [hl] at htail
          exact congrArg some (Except.ok.inj htail)
    rw [requireField, get?_object, hlookup]

theorem nodup_pokemonFields (p : PokemonState) : ((pokemonFields p).map Prod.fst).Nodup := by
  simp only [pokemonFields, List.map_cons, List.map_nil]
  decide

theorem ok_bind_step {α β : Type} (a : α) (f : α → Except JsonFault β) :
    (Except.ok a >>= f) = f a := by
  rw [ok_bind]

theorem isSome_optional {α : Type} (present : Bool) (a : α) :
    (if present then some a else none).isSome = present := by
  cases present <;> rfl

theorem getD_optional {α : Type} (present : Bool) (a d : α) :
    (if present then some a else none).getD d = if present then a else d := by
  cases present <;> rfl

theorem getD_optional_list (present : Bool) (l : List Int32) (i : Nat) :
    (if present then l else []).getD i 0 = if present then l.getD i 0 else 0 := by
  cases present <;> rfl

theorem decodePokemonState_encode (p : PokemonState) :
    decodePokemonState T (encodePokemonState p) = .ok p.visible := by
  rw [decodePokemonState, encodePokemonState, requireType_record, ok_bind]
  have hf := requireField_of_mem T (nodup_pokemonFields p)
  generalize object (pokemonFields p) = f at hf
  simp only [pokemonFields, List.forall_mem_cons] at hf
  have hstats : decodeOptional (decodeInts T 6 "codec: stats must have 6 elements")
      (optionalField p.hasStats (tupleOf
        ([p.statHp, p.statAtk, p.statDef, p.statSpa, p.statSpd, p.statSpe].map ofInt32))) = _ :=
    decodeOptional_optionalField _ rfl (decodeInts_tupleOf T _ rfl)
  have hmaxHp := decodeOptional_optionalField p.hasMaxHp rfl (getInt32_ofInt32 p.maxHp)
  have hhp := decodeOptional_optionalField p.hasHp rfl (getInt32_ofInt32 p.hp)
  have htypes := decodeOptional_optionalField p.hasTypes rfl (decodeTypes_encode T p.types)
  simp only [hf, ok_bind_step, decodeEnum_encodeEnum, decodeEnumOrInt_ofInt32, getInt32_ofInt32,
    getBool, getDouble, decodeTimedVolatiles_encode, decodeInts_tupleOf, decodePadded_tupleOf,
    List.length_cons, List.length_nil, Nat.reduceAdd, implies_true, hstats, hmaxHp, hhp, htypes,
    isSome_optional, getD_optional, getD_optional_list]
  rfl

theorem all_zip_self {α : Type} {l : List α} {eq : α × α → Bool} (h : ∀ a ∈ l, eq (a, a)) :
    (l.zip l).all eq = true := by
  induction l with
  | nil => rfl
  | cons a l ih =>
    rw [List.zip_cons_cons, List.all_cons, h a List.mem_cons_self,
      ih fun a ha => h a (List.mem_cons_of_mem _ ha)]
    rfl

@[simp] theorem equalTimed_self {cap : Nat} (v : InlineVec TimedVolatile cap) :
    equalTimed v v = true := by
  rw [equalTimed, beq_self_eq_true, Bool.true_and]
  apply all_zip_self
  simp

theorem PokemonState.stateEqual_visible (p : PokemonState) : p.visible.stateEqual p = true := by
  simp only [stateEqual, visible, equalTimed_self, beq_self_eq_true, Bool.and_true, Bool.true_and]
  cases p.hasStats <;> cases p.hasMaxHp <;> cases p.hasHp <;> cases p.hasTypes <;> simp

end Pokemon

section Side

variable (T : JsonText)

theorem toInt8_optional (present : Bool) (n : Int8) :
    (if present then n.toInt32 else 0).toInt8 = if present then n else 0 := by
  cases present with
  | false => rfl
  | true => exact Int8.toInt8_toInt32 n

theorem decodeSideCondition_encode (sce : SideConditionEntry) :
    decodeSideCondition T (encodeSideCondition sce) = .ok sce := by
  rw [decodeSideCondition, encodeSideCondition,
    decodeEnumPair_encodeEnumPair T (getInt32_ofInt8 sce.turns), ok_bind, Int8.toInt8_toInt32]
  rfl

theorem decodeBatonPass_encode (bp : BatonPassData) :
    decodeBatonPass T (encodeBatonPass bp) = .ok bp := by
  have htimed := pushAll_self
    (decodeTimedVolatile_encode T "codec: baton_pass_data tv entry must be 2-tuple")
    bp.timedVolatiles
  simp only [decodeBatonPass, encodeBatonPass, requireTupleOf_tupleOf, index,
    List.getElem?_cons_zero, List.getElem?_cons_succ, Option.getD_some, ok_bind_step,
    decodeInts_tupleOf, List.length_cons, List.length_nil, Nat.reduceAdd,
    decodeEnumOrInt_encodeEnum, requireTuple_tupleOf, elems, htimed, getInt32_ofInt32]
  rfl

theorem decodeImprisonedMoves_encode {v : InlineVec Int32 sideImprisonedMovesCap}
    (hsorted : sortedSet v) :
    decodeImprisonedMoves T (frozensetOf (v.toList.map (encodeEnum "Move"))) = .ok v := by
  have hread :
      pushAll (decodeEnum T · "Move") .empty (v.toList.map (encodeEnum "Move")) = .ok v := by
    apply pushAll_self
    exact decodeEnum_encodeEnum T "Move"
  rw [decodeImprisonedMoves, requireFrozenset_frozensetOf, ok_bind, elems, hread, ok_bind]
  congr 1
  apply InlineVec.ext
  exact List.mergeSort_of_pairwise (by simpa [sortedSet] using hsorted)

theorem decodeWish_encode (s : SideState) :
    decodeInts T 3 "codec: wish_pending must be 3-tuple"
      (tupleOf [ofInt8 s.wishTurns, ofInt32 s.wishHp, ofInt32 s.wishSlot]) =
      .ok [s.wishTurns.toInt32, s.wishHp, s.wishSlot] := by
  apply decodeInts_of_mapM T _ rfl
  simp only [List.mapM_cons, List.mapM_nil, getInt32_ofInt32, getInt32_ofInt8, ok_bind_step]
  rfl

theorem decodeFutureSight_encode (s : SideState) :
    decodeFutureSight T (tupleOf [ofInt8 s.fsTurns, ofInt32 s.fsDamage, encodeEnum "Move" s.fsMove,
      ofInt32 s.fsTargetSlot]) = .ok [s.fsTurns.toInt32, s.fsDamage, s.fsMove, s.fsTargetSlot] := by
  simp only [decodeFutureSight, requireTupleOf_tupleOf, index, List.getElem?_cons_zero,
    List.getElem?_cons_succ, Option.getD_some, ok_bind_step, decodeEnum_encodeEnum,
    getInt32_ofInt32, getInt32_ofInt8, List.length_cons, List.length_nil, Nat.reduceAdd]
  rfl

/-- What the codec keeps of a side. -/
def SideState.visible (s : SideState) : SideState :=
  { s with
    team := s.team.map PokemonState.visible
    batonPassData := if s.hasBatonPassData then s.batonPassData else {}
    wishTurns := if s.hasWishPending then s.wishTurns else 0
    wishHp := if s.hasWishPending then s.wishHp else 0
    wishSlot := if s.hasWishPending then s.wishSlot else 0
    fsTurns := if s.hasFutureSightPending then s.fsTurns else 0
    fsDamage := if s.hasFutureSightPending then s.fsDamage else 0
    fsMove := if s.hasFutureSightPending then s.fsMove else 0
    fsTargetSlot := if s.hasFutureSightPending then s.fsTargetSlot else 0 }

theorem nodup_sideFields (s : SideState) : ((sideFields s).map Prod.fst).Nodup := by
  simp only [sideFields, List.map_cons, List.map_nil]
  decide

theorem decodeSideState_encode {s : SideState} (hsorted : sortedSet s.imprisonedMoves) :
    decodeSideState T (encodeSideState s) = .ok s.visible := by
  rw [decodeSideState, encodeSideState, requireType_record, ok_bind]
  have hf := requireField_of_mem T (nodup_sideFields s)
  generalize object (sideFields s) = f at hf
  simp only [sideFields, List.forall_mem_cons] at hf
  have hteam := pushAll_map (v := s.team) fun p _ => decodePokemonState_encode T p
  have hactive := pushAll_self getInt32_ofInt32 s.activeIndices
  have hconditions := pushAll_self (decodeSideCondition_encode T) s.sideConditions
  have hbp := decodeOptional_optionalField s.hasBatonPassData rfl
    (decodeBatonPass_encode T s.batonPassData)
  have hwish := decodeOptional_optionalField s.hasWishPending rfl (decodeWish_encode T s)
  have hfs := decodeOptional_optionalField s.hasFutureSightPending rfl
    (decodeFutureSight_encode T s)
  simp only [hf, ok_bind_step, decodeEnum_encodeEnum, getInt32_ofInt32, getBool, requireList_arr,
    hteam, hactive, hconditions, hbp, hwish, hfs, decodeImprisonedMoves_encode T hsorted,
    isSome_optional, getD_optional, getD_optional_list, List.getD_cons_zero, toInt8_optional]
  rfl

@[simp] theorem equalSideConditions_self {cap : Nat} (v : InlineVec SideConditionEntry cap) :
    equalSideConditions v v = true := by
  rw [equalSideConditions, beq_self_eq_true, Bool.true_and]
  apply all_zip_self
  simp

@[simp] theorem equalBatonPass_self (bp : BatonPassData) : equalBatonPass bp bp = true := by
  simp [equalBatonPass]

theorem all_zip_map {α : Type} {l : List α} {eq : α × α → Bool} {g : α → α}
    (h : ∀ a, eq (g a, a)) : ((l.map g).zip l).all eq = true := by
  induction l with
  | nil => rfl
  | cons a l ih =>
    rw [List.map_cons, List.zip_cons_cons, List.all_cons, h a, ih]
    rfl

theorem equalSets_self {cap : Nat} {v : InlineVec Int32 cap} (h : sortedSet v) :
    equalSets v v = some true := by
  rw [equalSets, h, Bool.and_self, if_pos rfl, beq_self_eq_true]

theorem SideState.stateEqual_visible {s : SideState} (hsorted : sortedSet s.imprisonedMoves) :
    s.visible.stateEqual s = some true := by
  have hlength : ¬ s.visible.team.toList.length ≠ s.team.toList.length := by
    rw [not_not]
    exact List.length_map _
  have hteam : ((s.visible.team.toList.zip s.team.toList).all fun p => p.1.stateEqual p.2) = true :=
    all_zip_map PokemonState.stateEqual_visible
  have hsets : equalSets s.visible.imprisonedMoves s.imprisonedMoves = some true :=
    equalSets_self hsorted
  rw [stateEqual, if_neg hlength, hteam, hsets]
  simp only [visible, equalSideConditions_self, beq_self_eq_true, Bool.and_true, Bool.true_and]
  cases s.hasBatonPassData <;> cases s.hasWishPending <;> cases s.hasFutureSightPending <;> simp

end Side

section Battle

variable (T : JsonText)

theorem decodePseudoWeather_encode (pwe : PseudoWeatherEntry) :
    decodePseudoWeather T (encodePseudoWeather pwe) = .ok pwe := by
  rw [decodePseudoWeather, encodePseudoWeather,
    decodeEnumPair_encodeEnumPair T (getInt32_ofInt8 pwe.turns), ok_bind, Int8.toInt8_toInt32]
  rfl

theorem decodeExpParticipants_encode {eps : ExpParticipantSet} (hsorted : sortedSet eps.members) :
    decodeExpParticipants T (encodeExpParticipants eps) = .ok eps := by
  have hread : (eps.members.toList.map ofInt32).mapM getInt32 =
      .ok (eps.members.toList.map id) := mapM_except_map fun n _ => getInt32_ofInt32 n
  have hsort : eps.members.toList.mergeSort (· ≤ ·) = eps.members.toList :=
    List.mergeSort_of_pairwise (by simpa [sortedSet] using hsorted)
  have hpush : pushAll .ok .empty (eps.members.toList.map id) = .ok eps.members :=
    pushAll_self (fun n => rfl) eps.members
  rw [List.map_id] at hread hpush
  rw [decodeExpParticipants, encodeExpParticipants, requireFrozenset_frozensetOf, ok_bind, elems,
    hread, ok_bind, hsort, hpush, ok_bind]
  rfl

/-- The set-valued fields are in the order in which the code keeps them. -/
structure BattleState.SetsSorted (s : BattleState) : Prop where
  side0 : sortedSet s.side0.imprisonedMoves
  side1 : sortedSet s.side1.imprisonedMoves
  participants : ∀ eps ∈ s.expParticipants.toList, sortedSet eps.members

/-- What the codec keeps of a battle. -/
def BattleState.visible (b : BattleState) : BattleState :=
  { b with
    side0 := b.side0.visible
    side1 := b.side1.visible
    levelCap := if b.hasLevelCap then b.levelCap else 0 }

theorem nodup_battleFields (b : BattleState) : ((battleFields b).map Prod.fst).Nodup := by
  simp only [battleFields, List.map_cons, List.map_nil]
  decide

theorem decodeBattleState_encode {b : BattleState} (hsorted : b.SetsSorted) :
    decodeBattleState T (encodeBattleState b) = .ok b.visible := by
  rw [decodeBattleState, encodeBattleState, requireType_record, ok_bind]
  have hf := requireField_of_mem T (nodup_battleFields b)
  generalize object (battleFields b) = f at hf
  simp only [battleFields, List.forall_mem_cons] at hf
  have hpw := pushAll_self (decodePseudoWeather_encode T) b.pseudoWeather
  have horder := pushAll_self getInt32_ofInt32 b.turnOrder
  have hprev := pushAll_self getInt32_ofInt32 b.prevTurnOrder
  have hcap := decodeOptional_optionalField b.hasLevelCap rfl (getInt32_ofInt32 b.levelCap)
  have hexp : pushAll (decodeExpParticipants T) .empty
      (b.expParticipants.toList.map encodeExpParticipants) = .ok (b.expParticipants.map id) :=
    pushAll_map fun eps heps => decodeExpParticipants_encode T (hsorted.participants eps heps)
  simp only [hf, ok_bind_step, requireTupleOf_tupleOf, index, List.length_cons, List.length_nil,
    Nat.reduceAdd, List.getElem?_cons_zero, List.getElem?_cons_succ, Option.getD_some,
    decodeSideState_encode T hsorted.side0, decodeSideState_encode T hsorted.side1,
    decodeEnum_encodeEnum, decodeEnumOrInt_ofInt32, getInt32_ofInt32, getInt32_ofInt8, getBool,
    requireList_arr, requireTuple_tupleOf, elems, hpw, horder, hprev, hcap, hexp,
    isSome_optional, getD_optional, Int8.toInt8_toInt32]
  rw [InlineVec.ext (v := b.expParticipants.map id) (List.map_id b.expParticipants.toList)]
  rfl

@[simp] theorem equalPseudo_self {cap : Nat} (v : InlineVec PseudoWeatherEntry cap) :
    equalPseudo v v = true := by
  rw [equalPseudo, beq_self_eq_true, Bool.true_and]
  apply all_zip_self
  simp

theorem BattleState.stateEqual_visible {b : BattleState} (hsorted : b.SetsSorted) :
    b.visible.stateEqual b = some true := by
  have hside0 : b.visible.side0.stateEqual b.side0 = some true :=
    SideState.stateEqual_visible hsorted.side0
  have hside1 : b.visible.side1.stateEqual b.side1 = some true :=
    SideState.stateEqual_visible hsorted.side1
  have hexp : (b.expParticipants.toList.all fun inner => sortedSet inner.members) = true :=
    List.all_eq_true.2 hsorted.participants
  rw [stateEqual, stateEqualImpl, hside0, hside1]
  simp only [andAlso, visible, hexp, equalPseudo_self, beq_self_eq_true, bne_self_eq_false,
    Bool.and_true, Bool.true_and, Option.bind_some, if_true]
  cases b.hasLevelCap <;> simp

/-- A state written by the encoder is read back state-equal. -/
theorem battleStateFromJson_toJson (T : JsonText) (s : BattleState) (hsorted : s.SetsSorted)
    (htext : T.parse (T.dump (encodeBattleState s)) = .ok (encodeBattleState s)) :
    ∃ s', battleStateFromJson T (battleStateToJson T s) = .ok s' ∧ s'.stateEqual s = some true := by
  refine ⟨s.visible, ?_, BattleState.stateEqual_visible hsorted⟩
  rw [battleStateFromJson, battleStateToJson, htext, ok_bind]
  exact decodeBattleState_encode T hsorted

mutual

def compactText : Json → String
  | .null => "null"
  | .bool b => if b then "true" else "false"
  | .int n => toString n
  | .float x => toString x.num ++ ".0"
  | .str s => "\"" ++ s ++ "\""
  | .arr l => "[" ++ compactElems l ++ "]"
  | .obj fields => "\x7b" ++ compactFields fields ++ "\x7d"

def compactElems : List Json → String
  | [] => ""
  | [j] => compactText j
  | j :: js => compactText j ++ "," ++ compactElems js

def compactFields : List (String × Json) → String
  | [] => ""
  | [(k, v)] => "\"" ++ k ++ "\":" ++ compactText v
  | (k, v) :: fields => "\"" ++ k ++ "\":" ++ compactText v ++ "," ++ compactFields fields

end

def textOf (j : Json) : JsonText where
  dump := compactText
  parse := fun s => if s = compactText j then .ok j else .error .parseError

theorem textOf_parse (j : Json) : (textOf j).parse ((textOf j).dump j) = .ok j :=
  if_pos rfl

def woundedMon : PokemonState where
  species := 25
  hasMaxHp := true
  maxHp := 35
  hp := 7
  timedVolatiles := ⟨[⟨3, 2⟩], by decide⟩

def pendingState : BattleState where
  side0 := {
    team := ⟨[woundedMon], by decide⟩
    activeIndices := firstActive
    hasWishPending := true
    wishTurns := 1
    wishHp := 17
    imprisonedMoves := ⟨[33, 85], by decide⟩ }
  side1 := { hasFutureSightPending := true, fsTurns := 2, fsDamage := 40, fsMove := 248 }
  pseudoWeather := ⟨[⟨1, 5⟩], by decide⟩
  expParticipants := ⟨[⟨⟨[0, 2], by decide⟩⟩, ⟨.empty⟩], by decide⟩

theorem pendingState_roundTrip :
    ∃ s', battleStateFromJson (textOf (encodeBattleState pendingState))
        (battleStateToJson (textOf (encodeBattleState pendingState)) pendingState) = .ok s' ∧
      s'.stateEqual pendingState = some true :=
  battleStateFromJson_toJson (textOf (encodeBattleState pendingState)) pendingState
    ⟨by decide, by decide, by decide⟩ (textOf_parse _)

end Battle

end Engine

end NuzlockeSolver
