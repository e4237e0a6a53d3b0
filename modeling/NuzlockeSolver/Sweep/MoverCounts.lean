import NuzlockeSolver.Sweep.SwitchIns

/-!
# Crits and hits of the movers

Three passes over the messages of a turn list the movers and count their crits and hits. The
counts take every move message whose side is settled, and a name that nobody carries settles on
the hint; the movers are the messages that the slot map holds. So the lists stay aligned exactly
when every mover is recognised on its own side.

`int` of a text is a parameter, `none` where it raises.
-/

namespace NuzlockeSolver

def criticalHitId : String := "STRINGID_CRITICALHIT"

def hitXTimesId : String := "STRINGID_HITXTIMES"

/-- The mover that a message names; a move message without values names none. -/
def usedMoveName (msg : MatchResult) : Option String :=
  if msg.stringId = usedMoveId then msg.varValues.head? else none

/-- The entries `id(msg): (side, slot)` of a slot map, messages known by their position. -/
abbrev SlotEntries := List (Nat × Nat × Nat)

def slotMapOf (entries : SlotEntries) : SlotMap := fun i =>
  (entries.find? fun e => e.1 = i).map Prod.snd

structure MoverScan (α : Type) where
  counts : List α := []
  currentIdx : Int := -1

def countCrit (msg : MatchResult) (n : Nat) : Nat :=
  if msg.stringId = criticalHitId then n + 1 else n

def hitTimes (int : String → Option Int) (msg : MatchResult) : Option Int :=
  if msg.stringId = hitXTimesId then msg.varValues.head?.bind int else none

def countHits (int : String → Option Int) (msg : MatchResult) (n : Int) : Int :=
  (hitTimes int msg).getD n

namespace SweepLookup

variable (L : SweepLookup) (state : SweepState)

section SlotMaps

def resolvedMovers : Nat → List MatchResult → Except SweepFault (List (Nat × Nat × List Nat))
  | _, [] => .ok []
  | i, msg :: messages =>
    match usedMoveName msg with
    | none => resolvedMovers (i + 1) messages
    | some name => do
      let side ← L.fuzzyFindSide state name msg.sideHint
      let resolved ← resolvedMovers (i + 1) messages
      .ok (if (L.matchPositions state side name).isEmpty then resolved
        else (i, side, L.matchPositions state side name) :: resolved)

def attackerSlotMapFrom : Nat → List MatchResult → PerSide Nat → Except SweepFault SlotEntries
  | _, [], _ => .ok []
  | i, msg :: messages, cursor =>
    match usedMoveName msg with
    | none => attackerSlotMapFrom (i + 1) messages cursor
    | some name => do
      let side ← L.fuzzyFindSide state name msg.sideHint
      match L.resolveAttackerSlot state side name cursor with
      | none => attackerSlotMapFrom (i + 1) messages cursor
      | some (slot, cursor) => do
        let entries ← attackerSlotMapFrom (i + 1) messages cursor
        .ok ((i, side, slot) :: entries)

def buildAttackerSlotMap (messages : List MatchResult) : Except SweepFault SlotEntries :=
  L.attackerSlotMapFrom state 0 messages ⟨0, 0⟩

def assignSlots (resolved : List (Nat × Nat × List Nat)) (combo : List Nat) : SlotEntries :=
  resolved.zipWith (fun r pos => (r.1, r.2.1, pos)) combo

/-- No slot acts twice. -/
def slotsDistinct (entries : SlotEntries) : Bool := (entries.map Prod.snd).Nodup

def buildAttackerSlotMaps (messages : List MatchResult) :
    Except SweepFault (List SlotEntries) := do
  let resolved ← L.resolvedMovers state 0 messages
  let combos := product (resolved.map fun r => r.2.2)
  let maps := ((combos.map (assignSlots resolved)).filter slotsDistinct).eraseDups
  if maps.isEmpty then do
    let entries ← L.buildAttackerSlotMap state messages
    .ok [entries]
  else .ok maps

end SlotMaps

section Walks

def mappedOrder (slotMap : SlotMap) (messages : List MatchResult) : List (Nat × Nat) :=
  messages.zipIdx.filterMap fun p => if (usedMoveName p.1).isSome then slotMap p.2 else none

def cursorOrder : List MatchResult → PerSide Nat → Except SweepFault (List (Nat × Nat))
  | [], _ => .ok []
  | msg :: messages, cursor =>
    match usedMoveName msg with
    | none => cursorOrder messages cursor
    | some name => do
      let side ← L.fuzzyFindSide state name msg.sideHint
      match L.resolveAttackerSlot state side name cursor with
      | none => .error (.simulation ("Cannot resolve attacker slot: '" ++ name ++
          "' did not fuzzy-match any active mon on side " ++ toString side ++
            ". Active mons: " ++ pyNames ((state.side side).activeIndices.map fun i =>
              (((state.side side).team[i]?).map SweepMember.speciesName).getD "")))
      | some (slot, cursor) => do
        let order ← cursorOrder messages cursor
        .ok ((side, slot) :: order)

def messageActionOrderWithState (messages : List MatchResult) :
    Option SlotMap → Except SweepFault (List (Nat × Nat))
  | some slotMap => .ok (mappedOrder slotMap messages)
  | none => L.cursorOrder state messages ⟨0, 0⟩

variable {α : Type} (start : α) (update : MatchResult → α → α)

def moverCountStep (S : MoverScan α) (msg : MatchResult) : Except SweepFault (MoverScan α) :=
  match usedMoveName msg with
  | some name => do
    let _ ← L.fuzzyFindSide state name msg.sideHint
    .ok ⟨S.counts ++ [start], S.currentIdx + 1⟩
  | none =>
    if 0 ≤ S.currentIdx then
      .ok { S with counts := S.counts.modify S.currentIdx.toNat (update msg) }
    else .ok S

def moverCounts (messages : List MatchResult) : Except SweepFault (List α) := do
  let S ← messages.foldlM (L.moverCountStep state start update) {}
  .ok S.counts

def messageCritCountsWithState (messages : List MatchResult) : Except SweepFault (List Nat) :=
  L.moverCounts state 0 countCrit messages

def messageHitCountsWithState (int : String → Option Int) (messages : List MatchResult) :
    Except SweepFault (List Int) :=
  L.moverCounts state 1 (countHits int) messages

end Walks

end SweepLookup

def messagesOfMover (messages : List MatchResult) (i : Nat) : List MatchResult :=
  (messages.drop (i + 1)).takeWhile fun msg => msg.stringId ≠ usedMoveId

def critCountOf (segment : List MatchResult) : Nat :=
  segment.countP fun msg => msg.stringId = criticalHitId

def hitCountOf (int : String → Option Int) (segment : List MatchResult) : Int :=
  (segment.filterMap (hitTimes int)).getLast?.getD 1

def moveMessages (messages : List MatchResult) : List Nat :=
  (List.range messages.length).filter fun i => ((messages[i]?).bind usedMoveName).isSome

def moverMessages (slotMap : SlotMap) (messages : List MatchResult) : List Nat :=
  (moveMessages messages).filter fun i => (slotMap i).isSome

namespace SweepLookup

variable (L : SweepLookup) (state : SweepState)

/-- The three lists agree in length, and the counts of a mover are those of its own messages. -/
def MoverCountsAligned (int : String → Option Int) (messages : List MatchResult)
    (slotMap : SlotMap) : Prop :=
  ∃ (crits : List Nat) (hits : List Int) (order : List (Nat × Nat)),
    L.messageCritCountsWithState state messages = .ok crits ∧
    L.messageHitCountsWithState state int messages = .ok hits ∧
      L.messageActionOrderWithState state messages (some slotMap) = .ok order ∧
        (crits.length = order.length ∧ hits.length = order.length) ∧
          ∀ k i : Nat, (moverMessages slotMap messages)[k]? = some i →
            order[k]? = slotMap i ∧
              crits[k]? = some (critCountOf (messagesOfMover messages i)) ∧
                hits[k]? = some (hitCountOf int (messagesOfMover messages i))

/-- The message names an active of the side it hints at. -/
def recognised (msg : MatchResult) : Bool :=
  match usedMoveName msg, msg.sideHint with
  | some name, some side => L.activeMatches state side name
  | _, _ => false

end SweepLookup

def messagesToNextMover (messages : List MatchResult) (i : Nat) : List MatchResult :=
  (messages.drop (i + 1)).takeWhile fun msg => (usedMoveName msg).isNone

/-- What follows a move message without values does not change a count. -/
def NamelessSilent (int : String → Option Int) (messages : List MatchResult) : Prop :=
  ∀ i ∈ moveMessages messages,
    critCountOf (messagesToNextMover messages i) = critCountOf (messagesOfMover messages i) ∧
      hitCountOf int (messagesToNextMover messages i) =
        hitCountOf int (messagesOfMover messages i)

section Counts

variable {α : Type} {start : α} {update : MatchResult → α → α} {messages : List MatchResult}

theorem moveMessages_cons (msg : MatchResult) (messages : List MatchResult) :
    moveMessages (msg :: messages) =
      (if (usedMoveName msg).isSome then [0] else []) ++
        (moveMessages messages).map Nat.succ := by
  rw [moveMessages, List.length_cons, List.range_succ_eq_map, List.filter_cons, List.filter_map]
  change (if (usedMoveName msg).isSome then _ else _) = _
  split
  · rfl
  · rfl

theorem mem_moveMessages {i : Nat} :
    i ∈ moveMessages messages ↔ ∃ msg, messages[i]? = some msg ∧ (usedMoveName msg).isSome := by
  rw [moveMessages, List.mem_filter, List.mem_range]
  constructor
  · rintro ⟨hi, hmove⟩
    rw [List.getElem?_eq_getElem hi, Option.bind_some] at hmove
    exact ⟨messages[i], List.getElem?_eq_getElem hi, hmove⟩
  · rintro ⟨msg, hmsg, hmove⟩
    refine ⟨(List.getElem?_eq_some_iff.1 hmsg).1, ?_⟩
    rwa [hmsg, Option.bind_some]

/-- A message of a mover that starts at `n`, taken into the count. -/
def tallyFrom (update : MatchResult → α → α) (n : α) (segment : List MatchResult) : α :=
  segment.foldl (fun n msg => update msg n) n

def tallies (start : α) (update : MatchResult → α → α) (messages : List MatchResult) : List α :=
  (moveMessages messages).map fun i => tallyFrom update start (messagesToNextMover messages i)

theorem tallies_cons (msg : MatchResult) (messages : List MatchResult) :
    tallies start update (msg :: messages) =
      (if (usedMoveName msg).isSome then
        [tallyFrom update start (messages.takeWhile fun m => (usedMoveName m).isNone)] else []) ++
        tallies start update messages := by
  rw [tallies, moveMessages_cons, List.map_append, List.map_map]
  split
  · rfl
  · rfl

theorem modify_length_append (done : List α) (n : α) (f : α → α) :
    (done ++ [n]).modify done.length f = done ++ [f n] := by
  induction done with
  | nil => rfl
  | cons a done ih => rw [List.cons_append, List.length_cons, List.modify_succ_cons, ih]; rfl

variable {L : SweepLookup} {state : SweepState}

def SidesSettled (L : SweepLookup) (state : SweepState) (messages : List MatchResult) : Prop :=
  ∀ msg ∈ messages, ∀ name, usedMoveName msg = some name →
    ∃ side, L.fuzzyFindSide state name msg.sideHint = .ok side

theorem SidesSettled.tail {msg : MatchResult} (h : SidesSettled L state (msg :: messages)) :
    SidesSettled L state messages :=
  fun m hm => h m (List.mem_cons_of_mem _ hm)

variable (start update) in
/-- Once a mover is found, the rest of the walk finishes its count and adds those of the later
movers. -/
theorem foldlM_moverCountStep (h : SidesSettled L state messages) (done : List α) (n : α) :
    ∃ idx, messages.foldlM (L.moverCountStep state start update) ⟨done ++ [n], done.length⟩ =
      .ok ⟨done ++ tallyFrom update n (messages.takeWhile fun m => (usedMoveName m).isNone) ::
        tallies start update messages, idx⟩ := by
  induction messages generalizing done n with
  | nil => exact ⟨_, rfl⟩
  | cons msg messages ih =>
    rw [List.foldlM_cons, tallies_cons, SweepLookup.moverCountStep]
    cases hmove : usedMoveName msg with
    | some name =>
      obtain ⟨side, hside⟩ := h msg List.mem_cons_self name hmove
      obtain ⟨idx, hrest⟩ := ih h.tail (done ++ [n]) start
      refine ⟨idx, ?_⟩
      rw [List.takeWhile_cons_of_neg (by simp [hmove])]
      simpa [hside, tallyFrom] using hrest
    | none =>
      obtain ⟨idx, hrest⟩ := ih h.tail done (update msg n)
      refine ⟨idx, ?_⟩
      rw [List.takeWhile_cons_of_pos (by simp [hmove])]
      simpa [modify_length_append, tallyFrom] using hrest

theorem moverCounts_eq (h : SidesSettled L state messages) :
    L.moverCounts state start update messages = .ok (tallies start update messages) := by
  rw [SweepLookup.moverCounts]
  induction messages with
  | nil => rfl
  | cons msg messages ih =>
    rw [List.foldlM_cons, tallies_cons, SweepLookup.moverCountStep]
    cases hmove : usedMoveName msg with
    | some name =>
      obtain ⟨side, hside⟩ := h msg List.mem_cons_self name hmove
      obtain ⟨idx, hrest⟩ := foldlM_moverCountStep start update h.tail [] start
      dsimp only
      rw [hside]
      exact congrArg (fun r => r >>= fun S => Except.ok S.counts) hrest
    | none => exact ih h.tail

theorem tallyFrom_countCrit (segment : List MatchResult) (n : Nat) :
    tallyFrom countCrit n segment = n + critCountOf segment := by
  induction segment generalizing n with
  | nil => rfl
  | cons msg segment ih =>
    rw [tallyFrom, List.foldl_cons, ← tallyFrom, ih, critCountOf, critCountOf, List.countP_cons,
      countCrit]
    split
    · rename_i hcrit
      rw [if_pos (by simpa using hcrit)]
      omega
    · rename_i hcrit
      rw [if_neg (by simpa using hcrit)]
      omega

theorem tallyFrom_countHits (int : String → Option Int) (segment : List MatchResult) (n : Int) :
    tallyFrom (countHits int) n segment =
      (segment.filterMap (hitTimes int)).getLast?.getD n := by
  induction segment generalizing n with
  | nil => rfl
  | cons msg segment ih =>
    rw [tallyFrom, List.foldl_cons, ← tallyFrom, ih, countHits]
    cases hhits : hitTimes int msg with
    | none => rw [List.filterMap_cons_none hhits]; rfl
    | some v =>
      rw [List.filterMap_cons_some hhits, List.getLast?_cons, Option.getD_some, Option.getD_some]

end Counts

section SlotMaps

variable {L : SweepLookup} {state : SweepState} {messages : List MatchResult}

/-- The positions of the recognised movers, the first message being at `n`. -/
def recognisedFrom (L : SweepLookup) (state : SweepState) : Nat → List MatchResult → List Nat
  | _, [] => []
  | n, msg :: messages =>
    (if L.recognised state msg then [n] else []) ++ recognisedFrom L state (n + 1) messages

theorem mem_recognisedFrom {n i : Nat} :
    i ∈ recognisedFrom L state n messages ↔
      ∃ k msg, i = n + k ∧ messages[k]? = some msg ∧ L.recognised state msg := by
  induction messages generalizing n with
  | nil => simp [recognisedFrom]
  | cons msg messages ih =>
    rw [recognisedFrom, List.mem_append, ih]
    constructor
    · rintro (hhead | ⟨k, m, rfl, hm, hrec⟩)
      · split at hhead
        · rename_i hrec
          obtain rfl := List.mem_singleton.1 hhead
          exact ⟨0, msg, rfl, rfl, hrec⟩
        · cases hhead
      · exact ⟨k + 1, m, by omega, hm, hrec⟩
    · rintro ⟨k, m, rfl, hm, hrec⟩
      cases k with
      | zero =>
        obtain rfl : msg = m := Option.some.inj hm
        rw [if_pos hrec]
        exact Or.inl (List.mem_singleton.2 rfl)
      | succ k => exact Or.inr ⟨k, m, by omega, hm, hrec⟩

theorem fuzzyFindSide_eq_ok {name : String} {hint : Option Nat} {side : Nat}
    (h : L.fuzzyFindSide state name hint = .ok side) : hint = some side := by
  cases hint with
  | none => cases h
  | some hint =>
    rw [SweepLookup.fuzzyFindSide] at h
    split at h
    · cases h
    · split at h
      · cases h
      · rw [Except.ok.inj h]

theorem recognised_eq {msg : MatchResult} {name : String} {side : Nat}
    (hname : usedMoveName msg = some name) (hhint : msg.sideHint = some side) :
    L.recognised state msg = !(L.matchPositions state side name).isEmpty := by
  rw [SweepLookup.recognised, hname, hhint]
  rfl

theorem recognised_of_nameless {msg : MatchResult} (hname : usedMoveName msg = none) :
    L.recognised state msg = false := by
  rw [SweepLookup.recognised, hname]

theorem resolvedMovers_spec {n : Nat} {resolved : List (Nat × Nat × List Nat)}
    (h : L.resolvedMovers state n messages = .ok resolved) :
    SidesSettled L state messages ∧
      resolved.map Prod.fst = recognisedFrom L state n messages := by
  induction messages generalizing n resolved with
  | nil =>
    cases h
    exact ⟨fun msg hmsg => absurd hmsg List.not_mem_nil, rfl⟩
  | cons msg messages ih =>
    rw [SweepLookup.resolvedMovers] at h
    rw [recognisedFrom]
    split at h
    · rename_i hname
      obtain ⟨hsettled, hrest⟩ := ih h
      refine ⟨fun m hm name hmove => ?_, ?_⟩
      · rcases List.mem_cons.1 hm with rfl | hm
        · cases hname.symm.trans hmove
        · exact hsettled m hm name hmove
      · rw [hrest, recognised_of_nameless hname]
        rfl
    · rename_i name hname
      obtain ⟨side, hside, h⟩ := bind_eq_ok.1 h
      obtain ⟨resolved', hresolved, h⟩ := bind_eq_ok.1 h
      obtain ⟨hsettled, hrest⟩ := ih hresolved
      obtain rfl := Except.ok.inj h
      refine ⟨fun m hm name' hmove => ?_, ?_⟩
      · rcases List.mem_cons.1 hm with rfl | hm
        · obtain rfl := Option.some.inj (hname.symm.trans hmove)
          exact ⟨side, hside⟩
        · exact hsettled m hm name' hmove
      · rw [recognised_eq hname (fuzzyFindSide_eq_ok hside), ← hrest]
        cases (L.matchPositions state side name).isEmpty with
        | true => rfl
        | false => rfl

theorem resolveAttackerSlot_eq_none {side : Nat} {name : String} {cursor : PerSide Nat} :
    L.resolveAttackerSlot state side name cursor = none ↔
      (L.matchPositions state side name).isEmpty := by
  rw [SweepLookup.resolveAttackerSlot]
  split
  · rename_i hnone
    simp [hnone]
  · rename_i hone
    simp [hone]
  · rename_i hne _
    simpa using hne

theorem attackerSlotMapFrom_spec {n : Nat} {cursor : PerSide Nat} {entries : SlotEntries}
    (h : L.attackerSlotMapFrom state n messages cursor = .ok entries) :
    entries.map Prod.fst = recognisedFrom L state n messages := by
  induction messages generalizing n cursor entries with
  | nil =>
    cases h
    rfl
  | cons msg messages ih =>
    rw [SweepLookup.attackerSlotMapFrom] at h
    rw [recognisedFrom]
    split at h
    · rename_i hname
      rw [ih h, recognised_of_nameless hname]
      rfl
    · rename_i name hname
      obtain ⟨side, hside, h⟩ := bind_eq_ok.1 h
      rw [recognised_eq hname (fuzzyFindSide_eq_ok hside)]
      split at h
      · rename_i hslot
        rw [ih h, resolveAttackerSlot_eq_none.1 hslot]
        rfl
      · rename_i hslot
        obtain ⟨entries', hentries, h⟩ := bind_eq_ok.1 h
        obtain rfl := Except.ok.inj h
        have hsome : (L.matchPositions state side name).isEmpty = false := by
          by_contra hempty
          rw [resolveAttackerSlot_eq_none.2 (by simpa using hempty)] at hslot
          cases hslot
        rw [hsome, ← ih hentries]
        rfl

theorem map_fst_assignSlots {resolved : List (Nat × Nat × List Nat)} {combo : List Nat}
    (h : List.Forall₂ (fun pos positions => pos ∈ positions) combo
      (resolved.map fun r => r.2.2)) :
    (SweepLookup.assignSlots resolved combo).map Prod.fst = resolved.map Prod.fst := by
  induction resolved generalizing combo with
  | nil => rfl
  | cons r resolved ih =>
    cases h with
    | cons hpos hrest => exact congrArg (r.1 :: ·) (ih hrest)

theorem buildAttackerSlotMaps_spec {maps : List SlotEntries} {entries : SlotEntries}
    (h : L.buildAttackerSlotMaps state messages = .ok maps) (hmem : entries ∈ maps) :
    SidesSettled L state messages ∧
      entries.map Prod.fst = recognisedFrom L state 0 messages := by
  rw [SweepLookup.buildAttackerSlotMaps] at h
  obtain ⟨resolved, hresolved, h⟩ := bind_eq_ok.1 h
  obtain ⟨hsettled, hfst⟩ := resolvedMovers_spec hresolved
  refine ⟨hsettled, ?_⟩
  dsimp only at h
  split at h
  · obtain ⟨entries', hentries, h⟩ := bind_eq_ok.1 h
    obtain rfl := Except.ok.inj h
    obtain rfl := List.mem_singleton.1 hmem
    exact attackerSlotMapFrom_spec hentries
  · obtain rfl := Except.ok.inj h
    obtain ⟨hassign, -⟩ := List.mem_filter.1 (List.mem_eraseDups.1 hmem)
    obtain ⟨combo, hcombo, rfl⟩ := List.mem_map.1 hassign
    rw [map_fst_assignSlots (forall₂_of_mem_product hcombo), hfst]

theorem slotMapOf_isSome {entries : SlotEntries} {i : Nat} :
    (slotMapOf entries i).isSome ↔ i ∈ entries.map Prod.fst := by
  rw [slotMapOf, Option.isSome_map, List.find?_isSome, List.mem_map]
  simp only [decide_eq_true_eq]

theorem filterMap_zipIdx_moves (slotMap : SlotMap) (n : Nat) :
    ((messages.zipIdx n).filterMap fun p =>
      if (usedMoveName p.1).isSome then slotMap p.2 else none) =
      (moveMessages messages).filterMap fun i => slotMap (n + i) := by
  induction messages generalizing n with
  | nil => rfl
  | cons msg messages ih =>
    rw [List.zipIdx_cons, moveMessages_cons, List.filterMap_append, List.filterMap_map]
    have hshift : ((fun i => slotMap (n + i)) ∘ Nat.succ) = fun i => slotMap (n + 1 + i) := by
      funext i
      exact congrArg slotMap (Nat.succ_add_eq_add_succ n i).symm
    rw [hshift, ← ih (n + 1), List.filterMap_cons]
    cases (usedMoveName msg).isSome with
    | false => rfl
    | true =>
      simp only [if_true, List.filterMap_cons, List.filterMap_nil, Nat.add_zero]
      cases slotMap n with
      | none => rfl
      | some entry => rfl

theorem mappedOrder_eq (slotMap : SlotMap) (messages : List MatchResult) :
    SweepLookup.mappedOrder slotMap messages =
      (moverMessages slotMap messages).filterMap slotMap := by
  rw [SweepLookup.mappedOrder, filterMap_zipIdx_moves, moverMessages, List.filterMap_filter]
  congr 1
  funext i
  rw [Nat.zero_add]
  cases slotMap i with
  | none => rfl
  | some entry => rfl

theorem forall₂_filterMap {α β : Type} {f : α → Option β} {l : List α}
    (h : ∀ a ∈ l, (f a).isSome) :
    List.Forall₂ (fun b a => f a = some b) (l.filterMap f) l := by
  induction l with
  | nil => exact .nil
  | cons a l ih =>
    obtain ⟨b, hb⟩ := Option.isSome_iff_exists.1 (h a List.mem_cons_self)
    rw [List.filterMap_cons_some hb]
    exact .cons hb (ih fun a' ha' => h a' (List.mem_cons_of_mem _ ha'))

end SlotMaps

section Aligned

variable {L : SweepLookup} {state : SweepState} {messages : List MatchResult}
  {int : String → Option Int}

theorem moverCountsAligned_of_settled {slotMap : SlotMap} (h : SidesSettled L state messages) :
    L.MoverCountsAligned state int messages slotMap ↔
      (∀ i ∈ moveMessages messages, (slotMap i).isSome) ∧ NamelessSilent int messages := by
  have hcrits : L.messageCritCountsWithState state messages =
      .ok ((moveMessages messages).map fun i => critCountOf (messagesToNextMover messages i)) := by
    rw [SweepLookup.messageCritCountsWithState, moverCounts_eq h, tallies]
    simp only [tallyFrom_countCrit, Nat.zero_add]
  have hhits : L.messageHitCountsWithState state int messages =
      .ok ((moveMessages messages).map fun i =>
        hitCountOf int (messagesToNextMover messages i)) := by
    rw [SweepLookup.messageHitCountsWithState, moverCounts_eq h, tallies]
    simp only [tallyFrom_countHits]
    rfl
  have horder := forall₂_filterMap (f := slotMap) (l := moverMessages slotMap messages)
    fun i hi => (List.mem_filter.1 hi).2
  constructor
  · rintro ⟨crits, hits, order, hc, hh, ho, ⟨hlen, -⟩, hcounts⟩
    obtain rfl := Except.ok.inj (hcrits.symm.trans hc)
    obtain rfl := Except.ok.inj (hhits.symm.trans hh)
    obtain rfl := Except.ok.inj ho
    rw [mappedOrder_eq, List.length_map, horder.length_eq, moverMessages, eq_comm] at hlen
    have hall := List.length_filter_eq_length_iff.1 hlen
    refine ⟨hall, fun i hi => ?_⟩
    have hmovers : moverMessages slotMap messages = moveMessages messages :=
      List.filter_eq_self.2 hall
    obtain ⟨k, hk⟩ := List.mem_iff_getElem?.1 hi
    obtain ⟨-, hcrit, hhit⟩ := hcounts k i (hmovers ▸ hk)
    rw [List.getElem?_map, hk] at hcrit hhit
    exact ⟨Option.some.inj hcrit, Option.some.inj hhit⟩
  · rintro ⟨hall, hsilent⟩
    have hmovers : moverMessages slotMap messages = moveMessages messages :=
      List.filter_eq_self.2 hall
    refine ⟨_, _, _, hcrits, hhits, rfl, ?_, fun k i hk => ?_⟩
    · rw [mappedOrder_eq, horder.length_eq, hmovers, List.length_map, List.length_map]
      exact ⟨rfl, rfl⟩
    · obtain ⟨hcrit, hhit⟩ := hsilent i (hmovers ▸ List.mem_of_getElem? hk)
      refine ⟨?_, ?_, ?_⟩
      · obtain ⟨entry, hentry⟩ := Option.isSome_iff_exists.1
          (hall i (hmovers ▸ List.mem_of_getElem? hk))
        obtain ⟨entry', horder', hentry'⟩ := getElem?_of_forall₂ horder hk
        rw [mappedOrder_eq, horder', hentry']
      · rw [List.getElem?_map, ← hmovers, hk, ← hcrit]
        rfl
      · rw [List.getElem?_map, ← hmovers, hk, ← hhit]
        rfl

/-- The counts stay with the movers exactly when every move message names an active of its own
side. (A move message without values, which no template gives, must not be followed by a crit or
a hit count.) -/
theorem moverCountsAligned_iff_recognised {maps : List SlotEntries} {entries : SlotEntries}
    (h : L.buildAttackerSlotMaps state messages = .ok maps) (hmem : entries ∈ maps) :
    L.MoverCountsAligned state int messages (slotMapOf entries) ↔
      (∀ msg ∈ messages, (usedMoveName msg).isSome → L.recognised state msg) ∧
        NamelessSilent int messages := by
  obtain ⟨hsettled, hfst⟩ := buildAttackerSlotMaps_spec h hmem
  rw [moverCountsAligned_of_settled hsettled]
  refine and_congr_left' ⟨fun hall msg hmsg hmove => ?_, fun hall i hi => ?_⟩
  · obtain ⟨i, hi⟩ := List.mem_iff_getElem?.1 hmsg
    have hentry := hall i (mem_moveMessages.2 ⟨msg, hi, hmove⟩)
    rw [slotMapOf_isSome, hfst, mem_recognisedFrom] at hentry
    obtain ⟨k, m, rfl, hm, hrec⟩ := hentry
    rw [Nat.zero_add] at hi
    obtain rfl := Option.some.inj (hm.symm.trans hi)
    exact hrec
  · obtain ⟨msg, hmsg, hmove⟩ := mem_moveMessages.1 hi
    rw [slotMapOf_isSome, hfst, mem_recognisedFrom]
    exact ⟨i, msg, (Nat.zero_add i).symm, hmsg, hall msg (List.mem_of_getElem? hmsg) hmove⟩

end Aligned

section Sample

def duelState : SweepState where
  side0 := { team := [sampleMember "EEVEE"], activeIndices := [0] }
  side1 := { team := [sampleMember "ZUBAT"], activeIndices := [0] }

def usedTackle (side : Nat) (name : String) : MatchResult :=
  { stringId := usedMoveId, varValues := [name, "TACKLE"], sideHint := some side }

def landedCrit : MatchResult := { stringId := criticalHitId }

theorem aligned_duel :
    sampleLookup.MoverCountsAligned duelState (fun _ => none)
      [usedTackle 0 "EEVEE", usedTackle 1 "ZUBAT", landedCrit]
      (slotMapOf [(0, 0, 0), (1, 1, 0)]) := by
  have hmaps : sampleLookup.buildAttackerSlotMaps duelState
      [usedTackle 0 "EEVEE", usedTackle 1 "ZUBAT", landedCrit] =
        .ok [[(0, 0, 0), (1, 1, 0)]] := by decide +kernel
  apply (moverCountsAligned_iff_recognised hmaps (List.mem_singleton.2 rfl)).2
  unfold NamelessSilent
  decide +kernel

/-- A garbled name is trusted by the counts and left out of the order: the crit of the first
mover's message is that of no mover, and the lists have two entries and one. -/
theorem garbled_mover_shifts_counts :
    ∃ (maps : List SlotEntries) (entries : SlotEntries),
      sampleLookup.buildAttackerSlotMaps duelState
        [usedTackle 1 "XXXXX", landedCrit, usedTackle 0 "EEVEE"] = .ok maps ∧ entries ∈ maps ∧
      sampleLookup.messageCritCountsWithState duelState
        [usedTackle 1 "XXXXX", landedCrit, usedTackle 0 "EEVEE"] = .ok [1, 0] ∧
      sampleLookup.messageActionOrderWithState duelState
        [usedTackle 1 "XXXXX", landedCrit, usedTackle 0 "EEVEE"] (some (slotMapOf entries)) =
          .ok [(0, 0)] ∧
      ¬ sampleLookup.MoverCountsAligned duelState (fun _ => none)
        [usedTackle 1 "XXXXX", landedCrit, usedTackle 0 "EEVEE"] (slotMapOf entries) := by
  have hcrits : sampleLookup.messageCritCountsWithState duelState
      [usedTackle 1 "XXXXX", landedCrit, usedTackle 0 "EEVEE"] = .ok [1, 0] := by decide +kernel
  have horder : sampleLookup.messageActionOrderWithState duelState
      [usedTackle 1 "XXXXX", landedCrit, usedTackle 0 "EEVEE"]
        (some (slotMapOf [(2, 0, 0)])) = .ok [(0, 0)] := by decide +kernel
  refine ⟨[[(2, 0, 0)]], [(2, 0, 0)], by decide +kernel, List.mem_singleton.2 rfl, hcrits, horder,
    ?_⟩
  rintro ⟨crits, hits, order, hc, -, ho, ⟨hlen, -⟩, -⟩
  obtain rfl := Except.ok.inj (hcrits.symm.trans hc)
  obtain rfl := Except.ok.inj (horder.symm.trans ho)
  exact absurd hlen (by decide)

end Sample

end NuzlockeSolver
