import NuzlockeSolver.Trace.Forced

/-!
# Replaying a golden trace

The packed keys are distinct, so the forced trace built from an accepted golden trace holds every
outcome under its turn, event and occurrence. A replay then serves requests as readings of a shelf
with one place for each event of each turn and one for the answers.
-/

namespace NuzlockeSolver.Trace

section Keys

theorem toNat_shiftLeft_or {x y : UInt64} {s : Nat} (hs : s < 64) (hy : y.toNat < 2 ^ s) :
    (x <<< UInt64.ofNat s ||| y).toNat = x.toNat % 2 ^ (64 - s) * 2 ^ s + y.toNat := by
  have hsplit : 2 ^ 64 = 2 ^ (64 - s) * 2 ^ s := by
    rw [← Nat.pow_add, Nat.sub_add_cancel (Nat.le_of_lt hs)]
  have hs64 : s % 2 ^ 64 = s := Nat.mod_eq_of_lt (by omega)
  have hshift : (UInt64.ofNat s).toNat % 64 = s := by
    rw [UInt64.toNat_ofNat', hs64, Nat.mod_eq_of_lt hs]
  rw [UInt64.toNat_or, UInt64.toNat_shiftLeft, hshift, Nat.shiftLeft_eq, hsplit,
    Nat.mul_mod_mul_right, ← Nat.shiftLeft_eq, ← Nat.shiftLeft_add_eq_or_of_lt hy, Nat.shiftLeft_eq]

theorem mod_toUInt64 (turn : Int32) :
    turn.toInt64.toUInt64.toNat % 2 ^ 32 = turn.toBitVec.toNat := by
  have hextend : turn.toInt64.toUInt64.toNat = (turn.toBitVec.signExtend 64).toNat := rfl
  have hlt := turn.toBitVec.isLt
  rw [hextend, BitVec.toNat_signExtend]
  split <;> simp <;> omega

theorem turn_inj {turn turn' : Int32}
    (h : turn.toInt64.toUInt64.toNat % 2 ^ 32 = turn'.toInt64.toUInt64.toNat % 2 ^ 32) :
    turn = turn' := by
  rw [mod_toUInt64, mod_toUInt64] at h
  exact Int32.toBitVec_inj.1 (BitVec.eq_of_toNat_eq h)

theorem toNat_packKey (turn : Int32) {event occurrence : Nat} (he : event < 2 ^ 8)
    (ho : occurrence < 2 ^ 16) : (packKey turn event occurrence).toNat =
      turn.toInt64.toUInt64.toNat % 2 ^ 40 * 2 ^ 24 + (event * 2 ^ 16 + occurrence) := by
  have hevent : (UInt64.ofNat event).toNat = event :=
    UInt64.toNat_ofNat_of_lt' (he.trans (by decide))
  have hocc : (UInt64.ofNat occurrence).toNat = occurrence :=
    UInt64.toNat_ofNat_of_lt' (ho.trans (by decide))
  have hlow : (UInt64.ofNat event <<< UInt64.ofNat 16 ||| UInt64.ofNat occurrence).toNat =
      event * 2 ^ 16 + occurrence := by
    rw [toNat_shiftLeft_or (by omega) (by omega), hevent, hocc]
    omega
  have hassoc : packKey turn event occurrence = turn.toInt64.toUInt64 <<< UInt64.ofNat 24 |||
      (UInt64.ofNat event <<< UInt64.ofNat 16 ||| UInt64.ofNat occurrence) := UInt64.or_assoc ..
  rw [hassoc, toNat_shiftLeft_or (by omega) (by omega), hlow]

theorem packKey_inj {turn turn' : Int32} {event event' occurrence occurrence' : Nat}
    (he : event < 2 ^ 8) (he' : event' < 2 ^ 8) (ho : occurrence < 2 ^ 16)
    (ho' : occurrence' < 2 ^ 16)
    (h : packKey turn event occurrence = packKey turn' event' occurrence') :
    turn = turn' ∧ event = event' ∧ occurrence = occurrence' := by
  have hnat := congrArg UInt64.toNat h
  rw [toNat_packKey turn he ho, toNat_packKey turn' he' ho'] at hnat
  exact ⟨turn_inj (by omega), by omega, by omega⟩

theorem occKey_inj {turn turn' : Int32} {event event' : Nat} (he : event < 2 ^ 8)
    (he' : event' < 2 ^ 8) (h : occKey turn event = occKey turn' event') :
    turn = turn' ∧ event = event' := by
  have hkey (turn : Int32) {event : Nat} (he : event < 2 ^ 8) : (occKey turn event).toNat =
      turn.toInt64.toUInt64.toNat % 2 ^ 56 * 2 ^ 8 + event := by
    have hevent : (UInt64.ofNat event).toNat = event :=
      UInt64.toNat_ofNat_of_lt' (he.trans (by decide))
    have hocc :
        occKey turn event = turn.toInt64.toUInt64 <<< UInt64.ofNat 8 ||| UInt64.ofNat event :=
      rfl
    rw [hocc, toNat_shiftLeft_or (by omega) (by omega), hevent]
  have hnat := congrArg UInt64.toNat h
  rw [hkey turn he, hkey turn' he'] at hnat
  exact ⟨turn_inj (by omega), by omega⟩

theorem code_eq_ctorIdx (e : RngEvent) : e.code = e.ctorIdx + 1 := by
  cases e <;> rfl

theorem code_lt (e : RngEvent) : e.code < 2 ^ 8 := by
  cases e <;> decide

theorem code_inj {e e' : RngEvent} (h : e.code = e'.code) : e = e' := by
  rw [code_eq_ctorIdx, code_eq_ctorIdx] at h
  rw [← RngEvent.ofNat_ctorIdx e, ← RngEvent.ofNat_ctorIdx e', Nat.succ_injective h]

end Keys

section Parse

/-- The fields of an outcome line that the packed key has room for. -/
structure RngLine.Fits (r : RngLine) : Prop where
  turn_ge : -2 ^ 31 ≤ r.turn
  turn_lt : r.turn < 2 ^ 31
  occurrence_le : r.occurrence ≤ 0xFFFF

def RngLine.slot (r : RngLine) : Int32 × RngEvent := (Int32.ofInt r.turn, r.event)

def RngLine.packed (r : RngLine) : UInt64 :=
  packKey (Int32.ofInt r.turn) r.event.code r.occurrence.toNat

theorem RngLine.packed_eq (r : RngLine) :
    r.packed = packKey r.slot.1 r.slot.2.code r.occurrence.toNat := rfl

def Outcome.forced : Outcome → ForcedOutcome
  | .bool b => { kind := 2, b := b }
  | .int n => { kind := 0, i := Int64.ofInt n }
  | .member value => { kind := 0, i := Int64.ofInt value }
  | .float x => { kind := 1, d := x }

structure Stock (rngs : List RngLine) : Prop where
  fits : ∀ r ∈ rngs, r.Fits
  numbered : Numbered RngLine.slot RngLine.occurrence rngs

variable {rngs : List RngLine}

theorem toInt_turn {r : RngLine} (h : r.Fits) : (Int32.ofInt r.turn).toInt = r.turn :=
  Int32.toInt_ofInt_of_le h.turn_ge h.turn_lt

theorem slot_eq_iff {r r' : RngLine} (h : r.Fits) (h' : r'.Fits) :
    r.slot = r'.slot ↔ r.key = r'.key := by
  constructor
  · intro hslot
    have hturn := congrArg Int32.toInt (congrArg Prod.fst hslot)
    rw [RngLine.slot, RngLine.slot, toInt_turn h, toInt_turn h'] at hturn
    have hevent : r.event = r'.event := congrArg Prod.snd hslot
    exact Prod.ext hturn hevent
  · intro hkey
    have hevent : r.event = r'.event := congrArg Prod.snd hkey
    have hturn : r.turn = r'.turn := congrArg Prod.fst hkey
    exact Prod.ext (congrArg Int32.ofInt hturn) hevent

theorem stock_of_numbered (hfits : ∀ r ∈ rngs, r.Fits)
    (h : Numbered RngLine.key RngLine.occurrence rngs) : Stock rngs where
  fits := hfits
  numbered := by
    intro p r q hsplit
    have hmem {r' : RngLine} (hr' : r' ∈ p ++ [r]) : r'.Fits := by
      refine hfits r' ?_
      rw [hsplit, List.append_cons]
      exact List.mem_append_left q hr'
    have hunder : under RngLine.slot r.slot p = under RngLine.key r.key p := by
      refine List.filter_congr fun r' hr' => ?_
      rw [decide_eq_decide]
      exact slot_eq_iff (hmem (List.mem_append_left _ hr')) (hmem (by simp))
    rw [hunder]
    exact h p r q hsplit

theorem Stock.occurrence (h : Stock rngs) {r : RngLine} (hr : r ∈ rngs) :
    ∃ n : Nat, r.occurrence = n ∧ n < 2 ^ 16 ∧ (under RngLine.slot r.slot rngs)[n]? = some r := by
  obtain ⟨n, hn, hget⟩ := h.numbered.exists_number hr
  have := (h.fits r hr).occurrence_le
  exact ⟨n, hn, by omega, hget⟩

theorem Stock.packed_inj (h : Stock rngs) {r r' : RngLine} (hr : r ∈ rngs) (hr' : r' ∈ rngs)
    (hpacked : r.packed = r'.packed) : r = r' := by
  obtain ⟨n, hn, hlt, hget⟩ := h.occurrence hr
  obtain ⟨n', hn', hlt', hget'⟩ := h.occurrence hr'
  unfold RngLine.packed at hpacked
  rw [hn, hn', Int.toNat_natCast, Int.toNat_natCast] at hpacked
  obtain ⟨hturn, hevent, rfl⟩ := packKey_inj (code_lt _) (code_lt _) hlt hlt' hpacked
  have hslot : r.slot = r'.slot := Prod.ext hturn (code_inj hevent)
  rw [hslot] at hget
  exact Option.some.inj (hget.symm.trans hget')

theorem key_eq_ok {r : RngLine} (h : r.Fits) (h0 : 0 ≤ r.occurrence) :
    ForcedTrace.key (Int32.ofInt r.turn) r.event.code r.occurrence = .ok r.packed := by
  have hocc := h.occurrence_le
  have hcode := code_lt r.event
  unfold ForcedTrace.key
  rw [if_neg (by omega), if_neg (by omega)]
  rfl

theorem outcomeFromJson_toJson (o : Outcome) : outcomeFromJson o.toJson = .ok o.forced := by
  cases o <;> rfl

def stocked (rngs : List RngLine) : List (UInt64 × ForcedOutcome) :=
  rngs.map fun r => (r.packed, r.outcome.forced)

theorem stocked_concat (rngs : List RngLine) (r : RngLine) :
    stocked (rngs ++ [r]) = stocked rngs ++ [(r.packed, r.outcome.forced)] :=
  List.map_append

theorem lookup_map_eq_some {α κ β : Type} [DecidableEq κ] {f : α → κ} {g : α → β} {l : List α}
    (hinj : ∀ a ∈ l, ∀ b ∈ l, f a = f b → a = b) {k : κ} {v : β} :
    (l.map fun a => (f a, g a)).lookup k = some v ↔ ∃ a ∈ l, f a = k ∧ g a = v := by
  induction l with
  | nil => simp
  | cons a l ih =>
    have ih := ih fun b hb c hc => hinj b (List.mem_cons_of_mem _ hb) c (List.mem_cons_of_mem _ hc)
    rw [List.map_cons, List.lookup_cons]
    by_cases hk : k = f a
    · subst hk
      rw [beq_self_eq_true]
      constructor
      · intro hv
        exact ⟨a, List.mem_cons_self, rfl, Option.some.inj hv⟩
      · intro ⟨b, hb, hkey, hv⟩
        obtain rfl := hinj b hb a List.mem_cons_self hkey
        exact congrArg some hv
    · rw [beq_eq_false_iff_ne.2 hk, ih]
      constructor
      · intro ⟨b, hb, hkey, hv⟩
        exact ⟨b, List.mem_cons_of_mem _ hb, hkey, hv⟩
      · intro ⟨b, hb, hkey, hv⟩
        rcases List.mem_cons.1 hb with rfl | hb
        · exact absurd hkey.symm hk
        · exact ⟨b, hb, hkey, hv⟩

theorem Stock.of_append {rest : List RngLine} (h : Stock (rngs ++ rest)) : Stock rngs :=
  ⟨fun r hr => h.fits r (List.mem_append_left _ hr), h.numbered.of_append⟩

theorem addRngEntry_eq_ok {r : RngLine} (h : Stock (rngs ++ [r])) :
    addRngEntry (stocked rngs) (convertRngRecord r) = .ok (stocked (rngs ++ [r])) := by
  have hr : r ∈ rngs ++ [r] := by simp
  obtain ⟨n, hn, hlt, -⟩ := h.occurrence hr
  have hfits := h.fits r hr
  have hcode := code_lt r.event
  have hevent : (Int32.ofInt (r.event.code : Int)).toInt = r.event.code :=
    Int32.toInt_ofInt_of_le (by omega) (by omega)
  have hocc : (Int32.ofInt r.occurrence).toInt = r.occurrence :=
    Int32.toInt_ofInt_of_le (by omega) (by omega)
  have hnew : (stocked rngs).lookup r.packed = none := by
    refine Option.eq_none_iff_forall_not_mem.2 fun v hv => ?_
    obtain ⟨r', hr', hpacked, -⟩ := (lookup_map_eq_some fun a ha b hb =>
      h.of_append.packed_inj ha hb).1 hv
    obtain rfl := h.packed_inj (List.mem_append_left _ hr') hr hpacked
    obtain ⟨n', hn', -, hget⟩ := h.of_append.occurrence hr'
    have hnumber := (numbered_concat.1 h.numbered).2
    obtain ⟨hlt', -⟩ := List.getElem?_eq_some_iff.1 hget
    omega
  have hkey := key_eq_ok hfits (by omega)
  simp [addRngEntry, convertRngRecord, fieldAt, List.lookup_cons, Json.getInt32, Json.getInt,
    Except.map, hevent, hocc, hkey, hnew, outcomeFromJson_toJson, stocked_concat]

theorem foldlM_addRngEntry {rest : List RngLine} (h : Stock (rngs ++ rest)) :
    (rest.map convertRngRecord).foldlM addRngEntry (stocked rngs) =
      .ok (stocked (rngs ++ rest)) := by
  induction rest generalizing rngs with
  | nil => simp [pure, Except.pure]
  | cons r rest ih =>
    rw [List.append_cons] at h ⊢
    rw [List.map_cons, List.foldlM_cons, addRngEntry_eq_ok h.of_append]
    exact ih h

/-- The member of the event enumeration that an answer's event stands for. -/
def AnswerEvent.member : AnswerEvent → RngEvent
  | .name s =>
    if s = "ACTION_SELECT" then .actionSelect
    else if s = "FORCED_SWITCH" then .forcedSwitch
    else .postFaintSwitch
  | .tagged event => event

def forcedAnswer (turn : Int) (event : RngEvent) (side i0 i1 : Int) (p0 p1 : Json) :
    ForcedAnswer :=
  ⟨Int32.ofInt turn, Int32.ofInt event.code, Int32.ofInt side, Int32.ofInt i0, Int32.ofInt i1,
    p0, p1⟩

/-- The answers an answer line stands for in a replay. -/
def AnswerLine.given (a : AnswerLine) : List ForcedAnswer :=
  match a.answer with
  | .actions side0 side1 =>
    [forcedAnswer a.turn a.event.member (-1) (-1) (-1) (encodeActions side0) (encodeActions side1)]
  | .slots slot0 slot1 =>
    (slot0.map fun s => forcedAnswer a.turn a.event.member 0 s (-1) .null .null).toList ++
      (slot1.map fun s => forcedAnswer a.turn a.event.member 1 s (-1) .null .null).toList
  | .stats boost drop => [forcedAnswer a.turn a.event.member (-1) boost drop .null .null]
  | .value n => [forcedAnswer a.turn a.event.member (-1) n (-1) .null .null]

theorem answerFromJson_entry (turn : Int) (event : RngEvent) (side i0 i1 : Int) (p0 p1 : Json) :
    answerFromJson (answerEntry turn event side i0 i1 p0 p1) =
      .ok (forcedAnswer turn event side i0 i1 p0 p1) := by
  simp [answerFromJson, answerEntry, fieldAt, valueInt, List.lookup_cons, Json.getInt32,
    Json.getInt, Except.map, forcedAnswer]

theorem makeRngAnswer_given {a : AnswerLine} {event : RngEvent} {entry : Json}
    (hevent : a.event.member = event) (h : makeRngAnswer a.turn event a.answer = .ok entry) :
    [entry].mapM answerFromJson = .ok a.given := by
  unfold AnswerLine.given
  cases ha : a.answer with
  | actions side0 side1 =>
    rw [ha] at h
    cases h
  | slots slot0 slot1 =>
    rw [ha] at h
    cases h
  | stats boost drop =>
    rw [ha, makeRngAnswer] at h
    split at h
    · cases h
      simp [answerFromJson_entry, hevent, pure, Except.pure]
    · cases h
  | value n =>
    rw [ha, makeRngAnswer] at h
    split at h
    · cases h
    · cases h
      simp [answerFromJson_entry, hevent, pure, Except.pure]

theorem makeActionSelect_given {a : AnswerLine} {entry : Json}
    (hevent : a.event.member = .actionSelect) (h : makeActionSelect a.turn a.answer = .ok entry) :
    [entry].mapM answerFromJson = .ok a.given := by
  unfold AnswerLine.given
  cases ha : a.answer with
  | actions side0 side1 =>
    rw [ha] at h
    cases h
    simp [answerFromJson_entry, hevent, pure, Except.pure]
  | slots slot0 slot1 =>
    rw [ha] at h
    cases h
  | stats boost drop =>
    rw [ha] at h
    cases h
  | value n =>
    rw [ha] at h
    cases h

theorem splitSwitchAnswer_given {a : AnswerLine} {event : RngEvent} {entries : List Json}
    (hevent : a.event.member = event)
    (h : splitSwitchAnswer a.turn event a.answer = .ok entries) :
    entries.mapM answerFromJson = .ok a.given := by
  unfold AnswerLine.given
  cases ha : a.answer with
  | slots slot0 slot1 =>
    rw [ha] at h
    cases h
    cases slot0 <;> cases slot1 <;>
      simp [answerFromJson_entry, hevent, pure, Except.pure]
  | actions side0 side1 =>
    rw [ha] at h
    cases h
  | stats boost drop =>
    rw [ha] at h
    cases h
  | value n =>
    rw [ha] at h
    cases h

theorem member_of_isNamed {e : AnswerEvent} {name : String} {event : RngEvent}
    (hname : (AnswerEvent.name name).member = event) (h : e.isNamed name event = true) :
    e.member = event := by
  cases e with
  | name s =>
    obtain rfl : s = name := of_decide_eq_true h
    exact hname
  | tagged e => exact of_decide_eq_true h

theorem convertAnswerRecord_given {a : AnswerLine} {entries : List Json}
    (h : convertAnswerRecord a = .ok entries) : entries.mapM answerFromJson = .ok a.given := by
  unfold convertAnswerRecord at h
  split at h
  · rename_i hselect
    obtain ⟨entry, hentry, rfl⟩ := map_eq_ok.1 h
    exact makeActionSelect_given (member_of_isNamed rfl hselect) hentry
  split at h
  · rename_i hswitch
    exact splitSwitchAnswer_given (member_of_isNamed (by decide) hswitch) h
  split at h
  · rename_i hswitch
    exact splitSwitchAnswer_given (member_of_isNamed (by decide) hswitch) h
  split at h
  · cases h
  · rename_i event hevent
    split at h
    · cases h
    · obtain ⟨entry, hentry, rfl⟩ := map_eq_ok.1 h
      exact makeRngAnswer_given (by rw [hevent]; rfl) hentry

theorem mapM_flatten_of {α β γ ε δ : Type} {f : α → Except ε (List β)} {g : β → Except δ γ}
    {h : α → List γ} (hfg : ∀ a bs, f a = .ok bs → bs.mapM g = .ok (h a)) {l : List α}
    {bss : List (List β)} (hl : l.mapM f = .ok bss) :
    bss.flatten.mapM g = .ok (l.flatMap h) := by
  induction l generalizing bss with
  | nil =>
    cases hl
    rfl
  | cons a l ih =>
    rw [List.mapM_cons] at hl
    obtain ⟨bs, hbs, hl⟩ := bind_eq_ok.1 hl
    obtain ⟨bss', hbss, hl⟩ := bind_eq_ok.1 hl
    cases hl
    rw [List.flatten_cons, List.mapM_append, hfg a bs hbs, ih hbss]
    rfl

def forcedOf (body : List TraceLine) : ForcedTrace where
  rng := stocked (body.filterMap TraceLine.rng?)
  answers := (body.filterMap TraceLine.answer?).flatMap AnswerLine.given

theorem forcedTraceFromJson_convert {records body : List TraceLine} {payload : Json}
    (h : WellFormed records body) (hstock : Stock (body.filterMap TraceLine.rng?))
    (hpayload : convertTrace records = .ok payload) :
    forcedTraceFromJson payload = .ok (forcedOf body) := by
  have hrest : (body ++ [TraceLine.finish]).dropLast = body := by simp
  have hlast : (TraceLine.header (some formatVersion) ::
      (body ++ [TraceLine.finish])).getLast? = some .finish := by
    rw [← List.cons_append, List.getLast?_concat]
  rw [h.records_eq, List.cons_append, convertTrace, if_neg (by simp [TraceLine.isHeader]), hlast,
    if_neg (by simp [TraceLine.isFinish]), hrest] at hpayload
  obtain ⟨entries, hentries, hpayload⟩ := bind_eq_ok.1 hpayload
  cases hpayload
  have hanswers : entries.flatten.mapM answerFromJson =
      .ok ((body.filterMap TraceLine.answer?).flatMap AnswerLine.given) :=
    mapM_flatten_of (f := convertAnswerRecord) (g := answerFromJson) (h := AnswerLine.given)
      (fun _ _ => convertAnswerRecord_given) hentries
  have hrng : ((body.filterMap TraceLine.rng?).map convertRngRecord).foldlM addRngEntry [] =
      .ok (stocked (body.filterMap TraceLine.rng?)) :=
    @foldlM_addRngEntry [] _ hstock
  simp [forcedTraceFromJson, entriesAt, List.lookup_cons, Json.elems, hanswers, hrng, forcedOf]

end Parse

section Actions

structure InRange (a : ExecAction) : Prop where
  kind : -2 ^ 31 ≤ a.kind ∧ a.kind < 2 ^ 31
  moveSlot : -2 ^ 31 ≤ a.moveSlot ∧ a.moveSlot < 2 ^ 31
  moveOverride : -2 ^ 31 ≤ a.moveOverride ∧ a.moveOverride < 2 ^ 31
  switchToSlot : -2 ^ 31 ≤ a.switchToSlot ∧ a.switchToSlot < 2 ^ 31
  targetSide : -2 ^ 31 ≤ a.targetSide ∧ a.targetSide < 2 ^ 31
  targetSlot : -2 ^ 31 ≤ a.targetSlot ∧ a.targetSlot < 2 ^ 31
  sourceSlot : -2 ^ 31 ≤ a.sourceSlot ∧ a.sourceSlot < 2 ^ 31

theorem cppActionFromJson_payload {a : ExecAction} (h : InRange a) :
    cppActionFromJson (actionPayload a) = .ok a := by
  have hint {n : Int} (hn : -2 ^ 31 ≤ n ∧ n < 2 ^ 31) : (Int32.ofInt n).toInt = n :=
    Int32.toInt_ofInt_of_le hn.1 hn.2
  simp [cppActionFromJson, actionPayload, valueInt, valueBool, List.lookup_cons, Json.getInt32,
    Json.getInt, Json.getBool, Except.map, hint h.kind, hint h.moveSlot, hint h.moveOverride,
    hint h.switchToSlot, hint h.targetSide, hint h.targetSlot, hint h.sourceSlot]

theorem mapM_payload {actions : List ExecAction} (h : ∀ a ∈ actions, InRange a) :
    (actions.map actionPayload).mapM cppActionFromJson = .ok actions := by
  induction actions with
  | nil => rfl
  | cons a actions ih =>
    rw [List.map_cons, List.mapM_cons, cppActionFromJson_payload (h a List.mem_cons_self), ok_bind,
      ih fun b hb => h b (List.mem_cons_of_mem _ hb)]
    rfl

/-- Both sides act in a replay as they did in the game, each action from the slot it is listed
at. -/
theorem forcedActions_forcedAnswer {turn : Int} {event : RngEvent} {side i0 i1 : Int}
    {actions0 actions1 : List ExecAction} (h0 : ∀ a ∈ actions0, InRange a)
    (h1 : ∀ a ∈ actions1, InRange a) :
    forcedActions (forcedAnswer turn event side i0 i1 (encodeActions (some actions0))
      (encodeActions (some actions1))) = .ok (sourced actions0, sourced actions1) := by
  simp [forcedActions, forcedAnswer, encodeActions, Json.isNull, Json.indexed, mapM_payload h0,
    mapM_payload h1]

end Actions

section Serve

def Request.place : Request → Option (Int32 × RngEvent)
  | .bool turn event => some (turn, event)
  | .double turn event => some (turn, event)
  | .int turn event => some (turn, event)
  | .answer _ _ _ => none

/-- A reply of the kind of the request; an answer is of its turn, event and side. -/
def Request.Fits : Request → Reply → Prop
  | .bool _ _, .bool _ => True
  | .double _ _, .double _ => True
  | .int _ _, .int _ => True
  | .answer turn event side, .answer a =>
    a.turn = turn ∧ a.event.toInt = event.code ∧ (side = -1 ∨ a.side = side)
  | _, _ => False

def Outcome.reply : Outcome → Reply
  | .bool b => .bool b
  | .int n => .int (Int64.ofInt n)
  | .member value => .int (Int64.ofInt value)
  | .float x => .double x

/-- What a trace holds for each place, in its order. -/
def shelfOf (body : List TraceLine) : Option (Int32 × RngEvent) → List Reply
  | none => ((body.filterMap TraceLine.answer?).flatMap AnswerLine.given).map .answer
  | some slot => (under RngLine.slot slot (body.filterMap TraceLine.rng?)).map (·.outcome.reply)

def RngLine.held (r : RngLine) (taken : Nat) : UInt64 × ForcedOutcome :=
  (r.packed, r.outcome.forced.withConsumed (decide (r.occurrence < taken)))

@[simp] theorem RngLine.held_fst (r : RngLine) (taken : Nat) : (r.held taken).1 = r.packed := rfl

structure Holds (body : List TraceLine) (taken : Option (Int32 × RngEvent) → Nat)
    (ft : ForcedTrace) : Prop where
  rng : ft.rng = (body.filterMap TraceLine.rng?).map fun r => r.held (taken (some r.slot))
  nextOcc : ∀ turn event, ft.nextOcc (occKey turn event.code) = taken (some (turn, event))
  answers : ft.answers = (body.filterMap TraceLine.answer?).flatMap AnswerLine.given
  cursor : ft.cursor = taken none

variable {body : List TraceLine} {taken : Option (Int32 × RngEvent) → Nat} {ft ft' : ForcedTrace}

theorem holds_forcedOf (h : Stock (body.filterMap TraceLine.rng?)) :
    Holds body (fun _ => 0) (forcedOf body) where
  rng := by
    refine List.map_congr_left fun r hr => ?_
    obtain ⟨n, hn, -, -⟩ := h.occurrence hr
    have hfresh : decide (r.occurrence < ((0 : Nat) : Int)) = false := decide_eq_false (by omega)
    rw [RngLine.held, hfresh]
    cases r.outcome <;> rfl
  nextOcc := fun _ _ => rfl
  answers := rfl
  cursor := rfl

theorem markConsumed_held (hstock : Stock (body.filterMap TraceLine.rng?)) {r r' : RngLine}
    (hr : r ∈ body.filterMap TraceLine.rng?) (hr' : r' ∈ body.filterMap TraceLine.rng?)
    (hnext : r.occurrence = taken (some r.slot)) :
    ForcedTrace.markConsumed r.packed (r'.held (taken (some r'.slot))) =
      r'.held (Function.update taken (some r.slot) (taken (some r.slot) + 1) (some r'.slot)) := by
  unfold ForcedTrace.markConsumed
  rw [RngLine.held_fst]
  by_cases hpacked : r'.packed = r.packed
  · obtain rfl := hstock.packed_inj hr' hr hpacked
    have hlt : r'.occurrence < ((taken (some r'.slot) + 1 : Nat) : Int) := by omega
    rw [if_pos rfl, Function.update_self]
    unfold RngLine.held
    rw [decide_eq_true hlt]
    rfl
  · rw [if_neg hpacked]
    by_cases hslot : r'.slot = r.slot
    · have hne : r'.occurrence ≠ r.occurrence := by
        intro hocc
        exact hpacked (by rw [RngLine.packed_eq, RngLine.packed_eq, hslot, hocc])
      have hiff : r'.occurrence < (taken (some r.slot) : Int) ↔
          r'.occurrence < ((taken (some r.slot) + 1 : Nat) : Int) := by omega
      rw [hslot, Function.update_self]
      unfold RngLine.held
      rw [decide_eq_decide.2 hiff]
    · rw [Function.update_of_ne (by simpa using hslot)]

theorem nextOcc_update {nextOcc : UInt64 → Int}
    (h : ∀ turn event, nextOcc (occKey turn event.code) = taken (some (turn, event)))
    (turn turn' : Int32) (event event' : RngEvent) :
    Function.update nextOcc (occKey turn event.code) (taken (some (turn, event)) + 1)
        (occKey turn' event'.code) =
      Function.update taken (some (turn, event)) (taken (some (turn, event)) + 1)
        (some (turn', event')) := by
  by_cases hslot : (turn', event') = (turn, event)
  · obtain ⟨rfl, rfl⟩ := Prod.mk.inj hslot
    rw [Function.update_self, Function.update_self]
    rfl
  · have hkey : occKey turn' event'.code ≠ occKey turn event.code := by
      intro hkey
      obtain ⟨hturn, hevent⟩ := occKey_inj (code_lt _) (code_lt _) hkey
      exact hslot (Prod.ext hturn (code_inj hevent))
    rw [Function.update_of_ne hkey, Function.update_of_ne (by simpa using hslot)]
    exact h turn' event'

theorem Holds.take (h : Holds body taken ft) (hstock : Stock (body.filterMap TraceLine.rng?))
    {r : RngLine} (hr : r ∈ body.filterMap TraceLine.rng?)
    (hnext : r.occurrence = taken (some r.slot)) :
    Holds body (Function.update taken (some r.slot) (taken (some r.slot) + 1))
      { ft with
        rng := ft.rng.map (ForcedTrace.markConsumed r.packed)
        nextOcc := Function.update ft.nextOcc (occKey r.slot.1 r.slot.2.code)
          (taken (some r.slot) + 1) } where
  rng := by
    rw [h.rng, List.map_map]
    exact List.map_congr_left fun r' hr' => markConsumed_held hstock hr hr' hnext
  nextOcc := fun turn event => nextOcc_update h.nextOcc r.slot.1 turn r.slot.2 event
  answers := h.answers
  cursor := by rw [Function.update_of_ne (by simp)]; exact h.cursor

theorem RngLine.forced_held (r : RngLine) (taken : Nat) :
    (r.held taken).2.withConsumed true = r.outcome.forced.withConsumed true := rfl

def nextAt (body : List TraceLine) (taken : Option (Int32 × RngEvent) → Nat)
    (slot : Int32 × RngEvent) : Option RngLine :=
  (under RngLine.slot slot (body.filterMap TraceLine.rng?))[taken (some slot)]?

theorem nextAt_eq_some (hstock : Stock (body.filterMap TraceLine.rng?)) {slot : Int32 × RngEvent}
    {r : RngLine} : nextAt body taken slot = some r ↔
      r ∈ body.filterMap TraceLine.rng? ∧ r.slot = slot ∧ r.occurrence = taken (some slot) :=
  hstock.numbered.getElem?_under _

theorem lookup_held (h : Holds body taken ft) (hstock : Stock (body.filterMap TraceLine.rng?))
    {k : UInt64} {fo : ForcedOutcome} : ft.rng.lookup k = some fo ↔
      ∃ r ∈ body.filterMap TraceLine.rng?,
        r.packed = k ∧ (r.held (taken (some r.slot))).2 = fo := by
  rw [h.rng]
  exact lookup_map_eq_some (g := fun r => (r.held (taken (some r.slot))).2)
    fun a ha b hb => hstock.packed_inj ha hb

theorem packed_eq_iff (hstock : Stock (body.filterMap TraceLine.rng?)) {r : RngLine}
    (hr : r ∈ body.filterMap TraceLine.rng?) {turn : Int32} {event : RngEvent} {n : Nat}
    (hn : n ≤ 0xFFFF) : r.packed = packKey turn event.code n ↔
      r.slot = (turn, event) ∧ r.occurrence = n := by
  obtain ⟨m, hm, hlt, -⟩ := hstock.occurrence hr
  rw [RngLine.packed_eq, hm, Int.toNat_natCast]
  constructor
  · intro h
    obtain ⟨hturn, hevent, hmn⟩ := packKey_inj (code_lt _) (code_lt _) hlt (by omega) h
    exact ⟨Prod.ext hturn (code_inj hevent), congrArg Int.ofNat hmn⟩
  · intro ⟨hslot, hmn⟩
    rw [hslot, Int.ofNat_inj.1 hmn]

theorem catb_eq_ok {turn : Int32} {event : RngEvent} {n : Nat} {fo : ForcedOutcome} :
    ft.catb turn event n = .ok (fo, ft') ↔
      n ≤ 0xFFFF ∧ ∃ fo₀, ft.rng.lookup (packKey turn event.code n) = some fo₀ ∧
        fo₀.consumed = false ∧ fo = fo₀.withConsumed true ∧
        ft' = { ft with
          rng := ft.rng.map (ForcedTrace.markConsumed (packKey turn event.code n)) } := by
  have hcode := code_lt event
  unfold ForcedTrace.catb ForcedTrace.key
  by_cases hn : n ≤ 0xFFFF
  · rw [if_neg (by omega), if_neg (by omega), Int.toNat_natCast, Int.toNat_natCast, ok_bind]
    cases hlookup : ft.rng.lookup (packKey turn event.code n) with
    | none => simp
    | some fo₀ =>
      cases hconsumed : fo₀.consumed with
      | true => simp [hconsumed]
      | false =>
        simp only [hconsumed, Bool.false_eq_true, if_false, Except.ok.injEq, Prod.mk.injEq,
          Option.some.injEq]
        constructor
        · intro ⟨hfo, hft⟩
          exact ⟨hn, fo₀, rfl, hconsumed, hfo.symm, hft.symm⟩
        · intro ⟨_, fo₁, hfo₁, _, hfo, hft⟩
          subst hfo₁
          exact ⟨hfo.symm, hft.symm⟩
  · rw [if_pos (by omega)]
    constructor
    · intro h
      cases h
    · intro ⟨h, _⟩
      exact absurd h hn

/-- A forced outcome is taken exactly when one stands next at its place and is of its kind. -/
theorem force_eq_ok (h : Holds body taken ft) (hstock : Stock (body.filterMap TraceLine.rng?))
    {kind : Int} {expected : String} {turn : Int32} {event : RngEvent} {fo : ForcedOutcome} :
    ft.force kind expected turn event = .ok (fo, ft') ↔
      ∃ r, nextAt body taken (turn, event) = some r ∧ r.outcome.forced.kind = kind ∧
        fo = r.outcome.forced.withConsumed true ∧
        ft' = { ft with
          rng := ft.rng.map (ForcedTrace.markConsumed r.packed)
          nextOcc := Function.update ft.nextOcc (occKey turn event.code)
            (taken (some (turn, event)) + 1) } := by
  unfold ForcedTrace.force
  rw [h.nextOcc]
  constructor
  · intro hforce
    obtain ⟨⟨fo₁, ft₁⟩, hcatb, hforce⟩ := bind_eq_ok.1 hforce
    obtain ⟨hn, fo₀, hlookup, hfresh, rfl, rfl⟩ := catb_eq_ok.1 hcatb
    obtain ⟨r, hr, hpacked, rfl⟩ := (lookup_held h hstock).1 hlookup
    obtain ⟨hslot, hocc⟩ := (packed_eq_iff hstock hr hn).1 hpacked
    split at hforce
    · cases hforce
    · rename_i hkind
      cases hforce
      exact ⟨r, (nextAt_eq_some hstock).2 ⟨hr, hslot, hocc⟩, not_not.1 hkind, rfl,
        by rw [hpacked]⟩
  · intro ⟨r, hnext, hkind, hfo, hft⟩
    obtain ⟨hr, hslot, hocc⟩ := (nextAt_eq_some hstock).1 hnext
    obtain ⟨m, hm, hlt, -⟩ := hstock.occurrence hr
    have hn : taken (some (turn, event)) ≤ 0xFFFF := by omega
    have hpacked := (packed_eq_iff hstock hr hn).2 ⟨hslot, hocc⟩
    have hlookup := (lookup_held h hstock).2 ⟨r, hr, hpacked, rfl⟩
    have hfresh : (r.held (taken (some r.slot))).2.consumed = false := by
      rw [hslot]
      exact decide_eq_false (by omega)
    refine bind_eq_ok.2 ⟨_, catb_eq_ok.2 ⟨hn, _, hlookup, hfresh, rfl, rfl⟩, ?_⟩
    have hkind' : ((r.held (taken (some r.slot))).2.withConsumed true).kind = kind := hkind
    rw [if_neg (not_not.2 hkind'), RngLine.forced_held, hfo, hft, ← hpacked]

theorem Holds.force (h : Holds body taken ft) (hstock : Stock (body.filterMap TraceLine.rng?))
    {kind : Int} {expected : String} {turn : Int32} {event : RngEvent} {fo : ForcedOutcome}
    (hforce : ft.force kind expected turn event = .ok (fo, ft')) :
    Holds body (Function.update taken (some (turn, event)) (taken (some (turn, event)) + 1))
      ft' := by
  obtain ⟨r, hnext, -, -, rfl⟩ := (force_eq_ok h hstock).1 hforce
  obtain ⟨hr, hslot, hocc⟩ := (nextAt_eq_some hstock).1 hnext
  rw [← hslot] at hocc ⊢
  have htake := h.take hstock hr hocc
  rw [hslot] at htake ⊢
  exact htake

theorem shelfOf_getElem? {slot : Int32 × RngEvent} {v : Reply} :
    (shelfOf body (some slot))[taken (some slot)]? = some v ↔
      ∃ r, nextAt body taken slot = some r ∧ r.outcome.reply = v := by
  rw [shelfOf, List.getElem?_map, Option.map_eq_some_iff]
  rfl

/-- A request for an outcome is served by what stands next at its place when that is of the kind
asked for. -/
theorem serve_forced (h : Holds body taken ft) (hstock : Stock (body.filterMap TraceLine.rng?))
    {kind : Int} {expected : String} {turn : Int32} {event : RngEvent}
    (value : ForcedOutcome → Reply) {q : Request}
    (hfits : ∀ (o : Outcome) v, o.reply = v ∧ q.Fits v ↔
      o.forced.kind = kind ∧ v = value (o.forced.withConsumed true)) {v : Reply} :
    (∃ ft', (ft.force kind expected turn event).map (fun r => (value r.1, r.2)) = .ok (v, ft')) ↔
      (shelfOf body (some (turn, event)))[taken (some (turn, event))]? = some v ∧ q.Fits v := by
  rw [shelfOf_getElem?]
  constructor
  · intro ⟨ft', hserve⟩
    obtain ⟨⟨fo, ft₁⟩, hforce, hv⟩ := map_eq_ok.1 hserve
    cases hv
    obtain ⟨r, hnext, hkind, hfo, -⟩ := (force_eq_ok h hstock).1 hforce
    obtain ⟨hreply, hq⟩ := (hfits r.outcome (value fo)).2 ⟨hkind, congrArg value hfo⟩
    exact ⟨⟨r, hnext, hreply⟩, hq⟩
  · intro ⟨⟨r, hnext, hreply⟩, hq⟩
    obtain ⟨hkind, hv⟩ := (hfits r.outcome v).1 ⟨hreply, hq⟩
    exact ⟨_, map_eq_ok.2 ⟨_, (force_eq_ok h hstock).2 ⟨r, hnext, hkind, rfl, rfl⟩, by rw [hv]⟩⟩

theorem fits_bool {turn : Int32} {event : RngEvent} (o : Outcome) (v : Reply) :
    o.reply = v ∧ (Request.bool turn event).Fits v ↔
      o.forced.kind = 2 ∧ v = .bool (o.forced.withConsumed true).b := by
  cases o <;> cases v <;>
    simp [Outcome.reply, Request.Fits, Outcome.forced, ForcedOutcome.withConsumed, eq_comm]

theorem fits_double {turn : Int32} {event : RngEvent} (o : Outcome) (v : Reply) :
    o.reply = v ∧ (Request.double turn event).Fits v ↔
      o.forced.kind = 1 ∧ v = .double (o.forced.withConsumed true).d := by
  cases o <;> cases v <;>
    simp [Outcome.reply, Request.Fits, Outcome.forced, ForcedOutcome.withConsumed, eq_comm]

theorem fits_int {turn : Int32} {event : RngEvent} (o : Outcome) (v : Reply) :
    o.reply = v ∧ (Request.int turn event).Fits v ↔
      o.forced.kind = 0 ∧ v = .int (o.forced.withConsumed true).i := by
  cases o <;> cases v <;>
    simp [Outcome.reply, Request.Fits, Outcome.forced, ForcedOutcome.withConsumed, eq_comm]

theorem map_map {ε α β γ : Type} (x : Except ε α) (f : α → β) (g : β → γ) :
    (x.map f).map g = x.map fun a => g (f a) := by
  cases x <;> rfl

theorem serve_bool (turn : Int32) (event : RngEvent) : ft.serve (.bool turn event) =
    (ft.force 2 "bool=2" turn event).map fun r => (.bool r.1.b, r.2) := by
  rw [ForcedTrace.serve, ForcedTrace.forceBool, map_map]

theorem serve_double (turn : Int32) (event : RngEvent) : ft.serve (.double turn event) =
    (ft.force 1 "double=1" turn event).map fun r => (.double r.1.d, r.2) := by
  rw [ForcedTrace.serve, ForcedTrace.forceDouble, map_map]

theorem serve_int (turn : Int32) (event : RngEvent) : ft.serve (.int turn event) =
    (ft.force 0 "int=0" turn event).map fun r => (.int r.1.i, r.2) := by
  rw [ForcedTrace.serve, ForcedTrace.forceInt, map_map]

theorem nextAnswer_eq_ok {turn : Int32} {event : RngEvent} {side : Int32} {a : ForcedAnswer} :
    ft.nextAnswer turn event side = .ok (a, ft') ↔
      ft.answers[ft.cursor]? = some a ∧ (Request.answer turn event side).Fits (.answer a) ∧
        ft' = { ft with cursor := ft.cursor + 1 } := by
  unfold ForcedTrace.nextAnswer Request.Fits
  cases ft.answers[ft.cursor]? with
  | none => simp
  | some a₀ =>
    simp only [Option.some.injEq]
    constructor
    · intro h
      split at h
      · cases h
      split at h
      · cases h
      split at h
      · cases h
      · rename_i hturn hevent hside
        cases h
        refine ⟨rfl, ⟨not_not.1 hturn, not_not.1 hevent, ?_⟩, rfl⟩
        by_cases hany : side = -1
        · exact .inl hany
        · exact .inr (not_not.1 fun hne => hside ⟨hany, hne⟩)
    · intro ⟨ha, ⟨hturn, hevent, hside⟩, hft⟩
      subst ha
      rw [if_neg (not_not.2 hturn), if_neg (not_not.2 hevent), if_neg ?_, hft]
      intro ⟨hany, hne⟩
      exact hside.elim hany hne

theorem serve_eq_ok (h : Holds body taken ft) (hstock : Stock (body.filterMap TraceLine.rng?))
    {q : Request} {v : Reply} : (∃ ft', ft.serve q = .ok (v, ft')) ↔
      (shelfOf body q.place)[taken q.place]? = some v ∧ q.Fits v := by
  cases q with
  | bool turn event =>
    rw [serve_bool]
    exact serve_forced h hstock (fun fo => .bool fo.b) fits_bool
  | double turn event =>
    rw [serve_double]
    exact serve_forced h hstock (fun fo => .double fo.d) fits_double
  | int turn event =>
    rw [serve_int]
    exact serve_forced h hstock (fun fo => .int fo.i) fits_int
  | answer turn event side =>
    have hshelf {a : ForcedAnswer} : (shelfOf body none)[taken none]? = some (.answer a) ↔
        ft.answers[ft.cursor]? = some a := by
      rw [shelfOf, List.getElem?_map, Option.map_eq_some_iff, ← h.answers, ← h.cursor]
      simp
    constructor
    · intro ⟨ft', hserve⟩
      obtain ⟨⟨a, ft₁⟩, hnext, hv⟩ := map_eq_ok.1 hserve
      cases hv
      obtain ⟨ha, hfits, -⟩ := nextAnswer_eq_ok.1 hnext
      exact ⟨hshelf.2 ha, hfits⟩
    · intro ⟨hv, hfits⟩
      cases v with
      | answer a =>
        exact ⟨_, map_eq_ok.2 ⟨_, nextAnswer_eq_ok.2 ⟨hshelf.1 hv, hfits, rfl⟩, rfl⟩⟩
      | bool b => cases hfits
      | double d => cases hfits
      | int i => cases hfits

theorem Holds.serve (h : Holds body taken ft) (hstock : Stock (body.filterMap TraceLine.rng?))
    {q : Request} {v : Reply} (hserve : ft.serve q = .ok (v, ft')) :
    Holds body (Function.update taken q.place (taken q.place + 1)) ft' := by
  cases q with
  | bool turn event =>
    rw [serve_bool] at hserve
    obtain ⟨⟨fo, ft₁⟩, hforce, hv⟩ := map_eq_ok.1 hserve
    cases hv
    exact h.force hstock hforce
  | double turn event =>
    rw [serve_double] at hserve
    obtain ⟨⟨fo, ft₁⟩, hforce, hv⟩ := map_eq_ok.1 hserve
    cases hv
    exact h.force hstock hforce
  | int turn event =>
    rw [serve_int] at hserve
    obtain ⟨⟨fo, ft₁⟩, hforce, hv⟩ := map_eq_ok.1 hserve
    cases hv
    exact h.force hstock hforce
  | answer turn event side =>
    obtain ⟨⟨a, ft₁⟩, hnext, hv⟩ := map_eq_ok.1 hserve
    cases hv
    obtain ⟨-, -, rfl⟩ := nextAnswer_eq_ok.1 hnext
    exact ⟨by simpa [Request.place, Function.update_of_ne] using h.rng,
      fun turn event => by simpa [Request.place, Function.update_of_ne] using h.nextOcc turn event,
      h.answers, by simp [Request.place, h.cursor]⟩

theorem leftoverRng_eq_zero (h : Holds body taken ft)
    (hstock : Stock (body.filterMap TraceLine.rng?)) :
    ft.leftoverRng = 0 ↔
      ∀ slot, (shelfOf body (some slot)).length ≤ taken (some slot) := by
  rw [ForcedTrace.leftoverRng, h.rng, List.countP_map, List.countP_eq_zero]
  constructor
  · intro hall slot
    by_contra hlt
    rw [shelfOf, List.length_map] at hlt
    have hnext : nextAt body taken slot = some _ :=
      List.getElem?_eq_getElem (Nat.lt_of_not_le hlt)
    obtain ⟨hr, hslot, hocc⟩ := (nextAt_eq_some hstock).1 hnext
    refine hall _ hr ?_
    rw [Function.comp_apply, RngLine.held, Bool.not_eq_true', hslot]
    exact decide_eq_false (by omega)
  · intro hall r hr hfresh
    obtain ⟨n, hn, -, hget⟩ := hstock.occurrence hr
    have hlength := hall r.slot
    rw [shelfOf, List.length_map] at hlength
    obtain ⟨hlt, -⟩ := List.getElem?_eq_some_iff.1 hget
    rw [Function.comp_apply, RngLine.held, Bool.not_eq_true'] at hfresh
    have := of_decide_eq_false hfresh
    omega

theorem verifyExhausted_eq_ok (h : Holds body taken ft)
    (hstock : Stock (body.filterMap TraceLine.rng?)) {u : Unit} :
    ft.verifyExhausted = .ok u ↔ ∀ k, (shelfOf body k).length ≤ taken k := by
  have hanswers : ft.leftoverAnswers = (shelfOf body none).length - taken none := by
    rw [ForcedTrace.leftoverAnswers, h.answers, h.cursor, shelfOf, List.length_map]
  have hleft := leftoverRng_eq_zero h hstock
  unfold ForcedTrace.verifyExhausted
  constructor
  · intro hok
    split at hok
    · cases hok
    · rename_i hnone
      intro k
      cases k with
      | none => omega
      | some slot => exact hleft.1 (by omega) slot
  · intro hall
    have hanswered := hall none
    have hcount := hleft.2 fun slot => hall (some slot)
    rw [if_neg (by omega)]

/-- The requests of a game with their replies, by place. -/
def served (qs : List Request) (vs : List Reply) : List (Option (Int32 × RngEvent) × Reply) :=
  (qs.map Request.place).zip vs

theorem replay_from_eq_ok (hstock : Stock (body.filterMap TraceLine.rng?))
    (h : Holds body taken ft) {qs : List Request} {vs : List Reply} :
    ft.replay qs = .ok vs ↔
      List.Forall₂ Request.Fits qs vs ∧ ReadsAll (shelfOf body) taken (served qs vs) := by
  induction qs generalizing ft taken vs with
  | nil =>
    rw [ForcedTrace.replay, map_eq_ok, List.forall₂_nil_left_iff]
    constructor
    · intro ⟨u, hok, hvs⟩
      exact ⟨hvs.symm, readsAll_nil.2 ((verifyExhausted_eq_ok h hstock).1 hok)⟩
    · intro ⟨hvs, hall⟩
      exact ⟨(), (verifyExhausted_eq_ok h hstock).2 (readsAll_nil.1 hall), hvs.symm⟩
  | cons q qs ih =>
    rw [ForcedTrace.replay]
    constructor
    · intro hok
      obtain ⟨⟨v, ft₁⟩, hserve, hok⟩ := bind_eq_ok.1 hok
      obtain ⟨rest, hrest, hok⟩ := bind_eq_ok.1 hok
      cases hok
      obtain ⟨hnext, hfits⟩ := (serve_eq_ok h hstock).1 ⟨_, hserve⟩
      obtain ⟨hall, hreads⟩ := (ih (h.serve hstock hserve)).1 hrest
      exact ⟨.cons hfits hall, readsAll_cons.2 ⟨hnext, hreads⟩⟩
    · intro ⟨hall, hreads⟩
      cases hall with
      | cons hfits hall =>
        obtain ⟨hnext, hreads⟩ := readsAll_cons.1 hreads
        obtain ⟨ft₁, hserve⟩ := (serve_eq_ok h hstock).2 ⟨hnext, hfits⟩
        exact bind_eq_ok.2 ⟨_, hserve, bind_eq_ok.2 ⟨_,
          (ih (h.serve hstock hserve)).2 ⟨hall, hreads⟩, rfl⟩⟩

end Serve

/-- The forced trace of an accepted golden trace serves a game's requests to its end exactly when
the game asks, for each event of each turn, for what was recorded there in its order, and for the
answers in the order of the trace. -/
theorem replay_iff (records : List TraceLine) {payload : Json}
    (haccepted : validateTrace records = .ok ())
    (hfits : ∀ r ∈ records.filterMap TraceLine.rng?, r.Fits)
    (hpayload : convertTrace records = .ok payload) :
    ∃ ft, forcedTraceFromJson payload = .ok ft ∧ ∀ qs vs, ft.replay qs = .ok vs ↔
      List.Forall₂ Request.Fits qs vs ∧ ∀ k, readFor k (served qs vs) = shelfOf records k := by
  obtain ⟨body, hwf⟩ := (validateTrace_iff records).1 haccepted
  have hrng : records.filterMap TraceLine.rng? = body.filterMap TraceLine.rng? := by
    simp [hwf.records_eq, List.filterMap_cons, TraceLine.rng?]
  have hanswer : records.filterMap TraceLine.answer? = body.filterMap TraceLine.answer? := by
    simp [hwf.records_eq, List.filterMap_cons, TraceLine.answer?]
  have hshelf : shelfOf records = shelfOf body := by
    funext k
    cases k with
    | none => rw [shelfOf, shelfOf, hanswer]
    | some slot => rw [shelfOf, shelfOf, hrng]
  rw [hrng] at hfits
  have hstock := stock_of_numbered hfits hwf.ordered.rngNumbered
  refine ⟨forcedOf body, forcedTraceFromJson_convert hwf hstock hpayload, fun qs vs => ?_⟩
  rw [hshelf]
  exact replay_from_eq_ok hstock (holds_forcedOf hstock)

section Duel

/-- One turn in which both sides attack, the first hit lands with a middling roll and a fallen
Pokemon is replaced. -/
def duelTrace : List TraceLine :=
  [.header (some 1),
    .answer ⟨1, .name "ACTION_SELECT", 0, 0,
      .actions (some [{ kind := 0, moveSlot := 0 }]) (some [{ kind := 0, moveSlot := 1 }])⟩,
    .rng ⟨1, 0, .accuracy, 0, .bool true⟩,
    .rng ⟨1, 1, .damageRoll, 0, .float (93 / 100)⟩,
    .rng ⟨1, 2, .accuracy, 1, .bool false⟩,
    .answer ⟨1, .name "POST_FAINT_SWITCH", 0, 3, .slots none (some 2)⟩,
    .snapshot (some 1) 3,
    .finish]

theorem duel_replays : ∃ ft, (∃ payload, convertTrace duelTrace = .ok payload ∧
      forcedTraceFromJson payload = .ok ft) ∧
    ∀ qs vs, ft.replay qs = .ok vs ↔
      List.Forall₂ Request.Fits qs vs ∧ ∀ k, readFor k (served qs vs) = shelfOf duelTrace k := by
  obtain ⟨ft, hparse, hreplay⟩ := replay_iff duelTrace rfl
    (by
      intro r hr
      have hr : r ∈ [_, _, _] := hr
      simp only [List.mem_cons, List.not_mem_nil, or_false] at hr
      obtain rfl | rfl | rfl := hr <;> constructor <;> decide) rfl
  exact ⟨ft, ⟨_, rfl, hparse⟩, hreplay⟩

end Duel

end NuzlockeSolver.Trace
