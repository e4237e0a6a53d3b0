import NuzlockeSolver.Sweep.KnownActions
import Mathlib.Data.List.Sublists

/-!
# The replacement queue of a turn

After the simulated turn the driver sends out a replacement for each active of the opponent that
went down, taking the actions of the queue in order. The queue lists every switch-in of the
opponent, the chosen switch included, so its first entries are the replacements exactly when each
of them comes after a faint that no earlier switch-in answers.
-/

namespace NuzlockeSolver

inductive DriverFault
  | unportedTurn (what : String)
  | other (what : String)
deriving DecidableEq, Repr

/-- The engine bindings, on states whose parties the driver looks at. -/
structure TurnDriver (σ κ : Type) where
  parties : σ → SweepState
  runOneTurn : σ → List ExecAction → List ExecAction → κ → Except DriverFault σ
  applySwitch : σ → Nat → Int → Nat → Except DriverFault σ

def SweepParty.isFainted (p : SweepParty) (teamIdx : Nat) : Bool :=
  ((p.team[teamIdx]?).map SweepMember.fainted).getD false

def sideHasFaintedActive (p : SweepParty) : Bool := p.activeIndices.any p.isFainted

def sideHasLivingBench (p : SweepParty) : Bool :=
  p.team.zipIdx.any fun m => m.2 ∉ p.activeIndices ∧ !m.1.fainted

def faintedSlots (p : SweepParty) : List Nat :=
  (p.activeIndices.zipIdx.filter fun a => p.isFainted a.1).map Prod.snd

section Driver

variable {σ κ : Type} (D : TurnDriver σ κ)

def postFaintSwitches : σ → Nat → List (Nat × ExecAction) → Except DriverFault σ
  | current, _, [] => .ok current
  | current, side, (slot, act) :: rest => do
    let current ← D.applySwitch current side act.switchToSlot slot
    postFaintSwitches current side rest

def postFaintSide (side : Nat) (needs : Bool) (acts : List ExecAction) (current : σ) :
    Except DriverFault σ :=
  if !needs then .ok current
  else
    let slots := faintedSlots ((D.parties current).side side)
    if acts.length < slots.length then
      .error (.other ("post-faint boundary: side " ++ toString side ++ " needs " ++
        toString slots.length ++ " replacement switch(es) but got " ++ toString acts.length ++
          " action(s)"))
    else postFaintSwitches D current side (slots.zip acts)

def applyReplacements : σ → List Nat → List ExecAction →
    List (Nat × ExecAction) × Except DriverFault σ
  | current, [], _ => ([], .ok current)
  | current, _ :: _, [] => ([], .ok current)
  | current, slot :: slots, action :: queue =>
    match D.applySwitch current 1 action.switchToSlot slot with
    | .error e => ([(slot, action)], .error e)
    | .ok next =>
      let r := applyReplacements next slots queue
      ((slot, action) :: r.1, r.2)

def needsReplacement (p : SweepParty) : Bool := sideHasFaintedActive p && sideHasLivingBench p

/-- The slots that the opponent has to fill after a turn that does not stop at a prompt of the
player. -/
def oppReplacementSlots (postTurn : SweepState) : List Nat :=
  if needsReplacement postTurn.side0 then []
  else if sideHasLivingBench postTurn.side1 then faintedSlots postTurn.side1
  else []

/-- What the queue is asked for: nothing at a party prompt or when the turn fails. -/
def replacementSlots (state : σ) (action0 action1 : List ExecAction) (config : κ) : List Nat :=
  let parties := D.parties state
  if needsReplacement parties.side0 || needsReplacement parties.side1 then []
  else
    match D.runOneTurn state action0 action1 config with
    | .error _ => []
    | .ok postTurn => oppReplacementSlots (D.parties postTurn)

/-- The state at the next decision boundary, if the candidate survives, with the replacements taken
from the queue; an unported turn is raised again. -/
def runToDecisionBoundary (state : σ) (action0 action1 : List ExecAction) (config : κ)
    (queue : List ExecAction) : Except DriverFault (Option σ × List (Nat × ExecAction)) :=
  let parties := D.parties state
  let pf0 := needsReplacement parties.side0
  let pf1 := needsReplacement parties.side1
  let outcome : List (Nat × ExecAction) × Except DriverFault σ :=
    if pf0 || pf1 then
      ([], do
        let current ← postFaintSide D 0 pf0 action0 state
        postFaintSide D 1 pf1 action1 current)
    else
      match D.runOneTurn state action0 action1 config with
      | .error e => ([], .error e)
      | .ok postTurn =>
        applyReplacements D postTurn (oppReplacementSlots (D.parties postTurn)) queue
  match outcome.2 with
  | .error (.unportedTurn what) => .error (.unportedTurn what)
  | .error _ => .ok (none, outcome.1)
  | .ok current => .ok (some current, outcome.1)

variable {D}

theorem applyReplacements_spec (current : σ) (slots : List Nat) (queue : List ExecAction) :
    (applyReplacements D current slots queue).1 <+: slots.zip queue ∧
      ((applyReplacements D current slots queue).2.isOk = true →
        (applyReplacements D current slots queue).1 = slots.zip queue) := by
  induction slots generalizing current queue with
  | nil => exact ⟨List.nil_prefix, fun _ => rfl⟩
  | cons slot slots ih =>
    cases queue with
    | nil => exact ⟨List.nil_prefix, fun _ => rfl⟩
    | cons action queue =>
      rw [applyReplacements, List.zip_cons_cons]
      cases D.applySwitch current 1 action.switchToSlot slot with
      | error e =>
        refine ⟨⟨slots.zip queue, rfl⟩, fun h => ?_⟩
        cases h
      | ok next =>
        obtain ⟨hpre, heq⟩ := ih next queue
        refine ⟨List.cons_prefix_cons.2 ⟨rfl, hpre⟩, fun h => ?_⟩
        exact congrArg (List.cons (slot, action)) (heq h)

/-- What a run takes from the queue are its first actions, one for each slot to fill, and all of
these when it returns a state. -/
theorem runToDecisionBoundary_spec {state : σ} {action0 action1 queue : List ExecAction}
    {config : κ}
    {res : Option σ} {taken : List (Nat × ExecAction)}
    (h : runToDecisionBoundary D state action0 action1 config queue = .ok (res, taken)) :
    taken <+: (replacementSlots D state action0 action1 config).zip queue ∧
      (res.isSome = true →
        taken = (replacementSlots D state action0 action1 config).zip queue) := by
  unfold runToDecisionBoundary at h
  unfold replacementSlots
  dsimp only at h ⊢
  split at h
  · cases h
  · rename_i e hout _
    cases h
    refine ⟨?_, fun h => nomatch h⟩
    split
    · exact List.nil_prefix
    · split
      · exact List.nil_prefix
      · exact (applyReplacements_spec _ _ _).1
  · rename_i current hout
    cases h
    split at hout
    · rename_i hpf
      rw [if_pos hpf, if_pos hpf, List.zip_nil_left]
      exact ⟨List.prefix_rfl, fun _ => rfl⟩
    · rename_i hpf
      rw [if_neg hpf, if_neg hpf]
      cases hrun : D.runOneTurn state action0 action1 config with
      | error e =>
        rw [hrun] at hout
        cases hout
      | ok postTurn =>
        rw [hrun] at hout
        have hspec := applyReplacements_spec (D := D) postTurn
          (oppReplacementSlots (D.parties postTurn)) queue
        exact ⟨hspec.1, fun _ => hspec.2 (by rw [hout]; rfl)⟩

end Driver

def isFoeFaint (msg : MatchResult) : Bool := msg.stringId ∈ faintMsgIds ∧ msgIsFoe msg

/-- The positions of the opponent's switch-ins, counted from `i`. -/
def foeSwitchIns (i : Nat) (messages : List MatchResult) : List Nat :=
  ((messages.zipIdx i).filter fun m => isFoeSwitchIn m.1).map Prod.snd

def foeFaintsBefore (messages : List MatchResult) (m : Nat) : Nat :=
  ((messages.take m).filter isFoeFaint).length

def answeringSwitchIns : Nat → Nat → List MatchResult → List Nat
  | _, _, [] => []
  | i, openFaints, msg :: messages =>
    if isFoeFaint msg then answeringSwitchIns (i + 1) (openFaints + 1) messages
    else if isFoeSwitchIn msg ∧ 0 < openFaints then
      i :: answeringSwitchIns (i + 1) (openFaints - 1) messages
    else answeringSwitchIns (i + 1) openFaints messages

theorem foeSwitchIns_cons (i : Nat) (msg : MatchResult) (messages : List MatchResult) :
    foeSwitchIns i (msg :: messages) =
      if isFoeSwitchIn msg then i :: foeSwitchIns (i + 1) messages
      else foeSwitchIns (i + 1) messages := by
  rw [foeSwitchIns, List.zipIdx_cons, List.filter_cons]
  split <;> rfl

theorem le_of_mem_foeSwitchIns {i m : Nat} {messages : List MatchResult}
    (h : m ∈ foeSwitchIns i messages) : i ≤ m := by
  obtain ⟨p, hp, rfl⟩ := List.mem_map.1 h
  exact (List.mem_zipIdx (List.mem_filter.1 hp).1).1

theorem mem_foeSwitchIns_of_answering {i openFaints m : Nat} {messages : List MatchResult}
    (h : m ∈ answeringSwitchIns i openFaints messages) : m ∈ foeSwitchIns i messages := by
  induction messages generalizing i openFaints with
  | nil => cases h
  | cons msg messages ih =>
    rw [answeringSwitchIns] at h
    rw [foeSwitchIns_cons]
    split at h
    · have := ih h
      split
      · exact List.mem_cons_of_mem _ this
      · exact this
    · split at h
      · rename_i hs
        rw [if_pos hs.1]
        rcases List.mem_cons.1 h with rfl | h
        · exact List.mem_cons_self
        · exact List.mem_cons_of_mem _ (ih h)
      · have := ih h
        split
        · exact List.mem_cons_of_mem _ this
        · exact this

theorem foeFaintsBefore_cons {msg : MatchResult} {messages : List MatchResult} {i m : Nat}
    (h : i + 1 ≤ m) :
    foeFaintsBefore (msg :: messages) (m - i) =
      (if isFoeFaint msg then 1 else 0) + foeFaintsBefore messages (m - (i + 1)) := by
  obtain ⟨k, rfl⟩ := Nat.exists_eq_add_of_le h
  have h₁ : i + 1 + k - i = k + 1 := by omega
  have h₂ : i + 1 + k - (i + 1) = k := by omega
  rw [h₁, h₂, foeFaintsBefore, List.take_succ_cons, List.filter_cons, foeFaintsBefore]
  split
  · rw [List.length_cons, Nat.add_comm]
  · rw [Nat.zero_add]

theorem isFoeSwitchIn_of_isFoeFaint {msg : MatchResult} (h : isFoeFaint msg = true) :
    isFoeSwitchIn msg = false := by
  have hdisj : ∀ s ∈ faintMsgIds, s ∉ switchIds := by decide
  simp only [isFoeFaint, decide_eq_true_eq] at h
  simp only [isFoeSwitchIn, decide_eq_false_iff_not]
  exact fun hs => hdisj _ h.1 hs.1

/-- The first `n` switch-ins of the opponent answer its first faints, each its own, exactly when
each comes after more faints than switch-ins; by induction on the messages, the open faints
counted in. -/
theorem answering_iff {messages : List MatchResult} {i openFaints n : Nat} :
    (∀ k < n, ∀ m, (foeSwitchIns i messages)[k]? = some m →
        (answeringSwitchIns i openFaints messages)[k]? = some m) ↔
      ∀ k < n, ∀ m, (foeSwitchIns i messages)[k]? = some m →
        k < openFaints + foeFaintsBefore messages (m - i) := by
  induction messages generalizing i openFaints n with
  | nil => simp [foeSwitchIns]
  | cons msg messages ih =>
    rw [foeSwitchIns_cons, answeringSwitchIns]
    have hlater : ∀ {k m}, (foeSwitchIns (i + 1) messages)[k]? = some m → i + 1 ≤ m :=
      fun hk => le_of_mem_foeSwitchIns (List.mem_of_getElem? hk)
    by_cases hf : isFoeFaint msg = true
    · simp only [hf, if_true, isFoeSwitchIn_of_isFoeFaint hf, Bool.false_eq_true, if_false]
      rw [ih]
      refine forall₂_congr fun k _ => forall₂_congr fun m hm => ?_
      rw [foeFaintsBefore_cons (hlater hm), if_pos hf]
      omega
    · rw [if_neg hf]
      by_cases hs : isFoeSwitchIn msg = true
      · simp only [hs, if_true, true_and]
        cases n with
        | zero => simp
        | succ n =>
          by_cases hopen : 0 < openFaints
          · rw [if_pos hopen]
            -- the head answers a faint; the rest is one switch-in and one open faint shorter
            have hhead : ∀ (P : Nat → Nat → Prop), P 0 i →
                ((∀ k < n + 1, ∀ m, (i :: foeSwitchIns (i + 1) messages)[k]? = some m → P k m) ↔
                  ∀ k < n, ∀ m, (foeSwitchIns (i + 1) messages)[k]? = some m → P (k + 1) m) := by
              intro P h0
              constructor
              · intro h k hk m hm
                exact h (k + 1) (by omega) m (by simpa using hm)
              · intro h k hk m hm
                cases k with
                | zero =>
                  obtain rfl : i = m := by simpa using hm
                  exact h0
                | succ k => exact h k (by omega) m (by simpa using hm)
            rw [hhead _ (by simp), hhead _ (by omega)]
            simp only [List.getElem?_cons_succ]
            rw [ih]
            refine forall₂_congr fun k _ => forall₂_congr fun m hm => ?_
            rw [foeFaintsBefore_cons (hlater hm), if_neg hf]
            omega
          · rw [if_neg hopen]
            -- the head is a switch-in that answers nothing
            refine iff_of_false (fun h => ?_) (fun h => ?_)
            · have hmem := List.mem_of_getElem? (h 0 (by omega) i (by simp))
              have := le_of_mem_foeSwitchIns (mem_foeSwitchIns_of_answering hmem)
              omega
            · have := h 0 (by omega) i (by simp)
              simp only [Nat.sub_self, foeFaintsBefore, List.take_zero, List.filter_nil,
                List.length_nil] at this
              omega
      · rw [if_neg hs, if_neg (fun h => hs h.1), ih]
        refine forall₂_congr fun k _ => forall₂_congr fun m hm => ?_
        rw [foeFaintsBefore_cons (hlater hm), if_neg hf, Nat.zero_add]

section Scan

variable {L : SweepLookup} {state : SweepState} {slotMap : Option SlotMap} {i : Nat}
  {msg : MatchResult} {S S' : KnownScan}

theorem stepUsedMove_frame (h : L.stepUsedMove state slotMap i msg S = .ok S') :
    S'.pendingFaint = S.pendingFaint ∧ S'.replacements = S.replacements ∧
      S'.voluntary = S.voluntary := by
  unfold SweepLookup.stepUsedMove at h
  split at h
  · cases h
    exact ⟨rfl, rfl, rfl⟩
  · obtain ⟨r, _, h⟩ := bind_eq_ok.1 h
    cases r with
    | none =>
      cases h
      exact ⟨rfl, rfl, rfl⟩
    | some r =>
      obtain ⟨side, sourceSlot, cursor⟩ := r
      dsimp only at h
      split at h
      · cases h
        exact ⟨rfl, rfl, rfl⟩
      · split at h
        · cases h
        · split at h
          · cases h
          · obtain ⟨action, _, h⟩ := bind_eq_ok.1 h
            cases h
            exact ⟨rfl, rfl, rfl⟩

theorem sideFromConstantName_cases (name : String) :
    sideFromConstantName name = 0 ∨ sideFromConstantName name = 1 := by
  unfold sideFromConstantName
  split
  · exact Or.inr rfl
  · exact Or.inl rfl

structure ScanInv (i : Nat) (S : KnownScan) : Prop where
  replacements_lt : ∀ m ∈ S.replacements, m < i
  voluntary_lt : ∀ m, S.voluntary = some m → m < i
  voluntary_notMem : ∀ m, S.voluntary = some m → m ∉ S.replacements

theorem ScanInv.of_chosen (hinv : ScanInv i S) (hr : S'.replacements = S.replacements)
    (hv : S'.voluntary = S.voluntary ∨ S'.voluntary = some i) : ScanInv (i + 1) S' := by
  refine ⟨fun m hm => ?_, fun m hm => ?_, fun m hm hmem => ?_⟩
  · rw [hr] at hm
    exact (hinv.replacements_lt m hm).trans (Nat.lt_succ_self i)
  · rcases hv with hv | hv
    · rw [hv] at hm
      exact (hinv.voluntary_lt m hm).trans (Nat.lt_succ_self i)
    · obtain rfl : i = m := Option.some.inj (hv.symm.trans hm)
      exact Nat.lt_succ_self i
  · rw [hr] at hmem
    rcases hv with hv | hv
    · rw [hv] at hm
      exact hinv.voluntary_notMem m hm hmem
    · obtain rfl : i = m := Option.some.inj (hv.symm.trans hm)
      exact lt_irrefl _ (hinv.replacements_lt i hmem)

theorem ScanInv.of_frame (hinv : ScanInv i S) (hr : S'.replacements = S.replacements)
    (hv : S'.voluntary = S.voluntary) : ScanInv (i + 1) S' :=
  hinv.of_chosen hr (Or.inl hv)

theorem ScanInv.of_answer (hinv : ScanInv i S) (hr : S'.replacements = S.replacements ++ [i])
    (hv : S'.voluntary = S.voluntary) : ScanInv (i + 1) S' := by
  refine ⟨fun m hm => ?_, fun m hm => ?_, fun m hm hmem => ?_⟩
  · rw [hr] at hm
    rcases List.mem_append.1 hm with hm | hm
    · exact (hinv.replacements_lt m hm).trans (Nat.lt_succ_self i)
    · rw [List.mem_singleton.1 hm]
      exact Nat.lt_succ_self i
  · rw [hv] at hm
    exact (hinv.voluntary_lt m hm).trans (Nat.lt_succ_self i)
  · rw [hv] at hm
    rw [hr] at hmem
    rcases List.mem_append.1 hmem with hmem | hmem
    · exact hinv.voluntary_notMem m hm hmem
    · have hlt := hinv.voluntary_lt m hm
      rw [List.mem_singleton.1 hmem] at hlt
      exact lt_irrefl _ hlt

theorem stepSwitchIn_cases (h : L.stepSwitchIn state false i msg S = .ok S') :
    (0 < S.pendingFaint.get (sideFromConstantName msg.constantName) ∧
      S'.pendingFaint = S.pendingFaint.set (sideFromConstantName msg.constantName)
        (S.pendingFaint.get (sideFromConstantName msg.constantName) - 1) ∧
      S'.replacements = (if sideFromConstantName msg.constantName = 1 then
        S.replacements ++ [i] else S.replacements) ∧
      S'.voluntary = S.voluntary) ∨
    (¬ 0 < S.pendingFaint.get (sideFromConstantName msg.constantName) ∧
      S'.pendingFaint = S.pendingFaint ∧ S'.replacements = S.replacements ∧
      (S'.voluntary = S.voluntary ∨ S'.voluntary = some i)) := by
  unfold SweepLookup.stepSwitchIn at h
  dsimp only at h
  rw [if_neg Bool.false_ne_true] at h
  split at h
  · rename_i hopen
    cases h
    exact Or.inl ⟨hopen, rfl, rfl, rfl⟩
  · rename_i hclosed
    refine Or.inr ⟨hclosed, ?_⟩
    split at h
    · cases h
      exact ⟨rfl, rfl, Or.inl rfl⟩
    · obtain ⟨slot, _, h⟩ := bind_eq_ok.1 h
      cases slot with
      | none => cases h
      | some teamSlot =>
        cases h
        refine ⟨rfl, rfl, ?_⟩
        dsimp only
        split
        · exact Or.inr rfl
        · exact Or.inl rfl

theorem stepSwitchIn_spec (h : L.stepSwitchIn state false i msg S = .ok S')
    (hswitch : msg.stringId ∈ switchIds) (hinv : ScanInv i S) (rest : List MatchResult) :
    ScanInv (i + 1) S' ∧
      S'.replacements ++ answeringSwitchIns (i + 1) S'.pendingFaint.opp rest =
        S.replacements ++
          (if isFoeSwitchIn msg = true ∧ 0 < S.pendingFaint.opp then
            i :: answeringSwitchIns (i + 1) (S.pendingFaint.opp - 1) rest
          else answeringSwitchIns (i + 1) S.pendingFaint.opp rest) := by
  have hfoe : isFoeSwitchIn msg = true ↔ sideFromConstantName msg.constantName = 1 := by
    simp [isFoeSwitchIn, hswitch]
  have hcases := stepSwitchIn_cases h
  have hside := sideFromConstantName_cases msg.constantName
  generalize sideFromConstantName msg.constantName = side at hcases hside hfoe
  rcases hside with rfl | rfl
  · have hs : ¬ isFoeSwitchIn msg = true := fun h => absurd (hfoe.1 h) Nat.zero_ne_one
    rw [if_neg (fun h => hs h.1)]
    rcases hcases with ⟨_, hp, hr, hv⟩ | ⟨_, hp, hr, hv⟩
    · rw [if_neg Nat.zero_ne_one] at hr
      rw [hp, hr]
      exact ⟨hinv.of_frame hr hv, rfl⟩
    · rw [hp, hr]
      exact ⟨hinv.of_chosen hr hv, rfl⟩
  · have hs : isFoeSwitchIn msg = true := hfoe.2 rfl
    rcases hcases with ⟨hopen, hp, hr, hv⟩ | ⟨hclosed, hp, hr, hv⟩
    · have hopen : 0 < S.pendingFaint.opp := hopen
      rw [if_pos rfl] at hr
      rw [if_pos ⟨hs, hopen⟩, hp, hr, List.append_assoc]
      exact ⟨hinv.of_answer hr hv, rfl⟩
    · have hno : ¬ (isFoeSwitchIn msg = true ∧ 0 < S.pendingFaint.opp) := fun h => hclosed h.2
      rw [if_neg hno, hp, hr]
      exact ⟨hinv.of_chosen hr hv, rfl⟩

theorem stepMessage_spec (h : L.stepMessage state slotMap false i msg S = .ok S')
    (hinv : ScanInv i S) (rest : List MatchResult) :
    ScanInv (i + 1) S' ∧
      S'.replacements ++ answeringSwitchIns (i + 1) S'.pendingFaint.opp rest =
        S.replacements ++ answeringSwitchIns i S.pendingFaint.opp (msg :: rest) := by
  unfold SweepLookup.stepMessage at h
  rw [answeringSwitchIns]
  split at h
  · rename_i hfaint
    cases h
    refine ⟨hinv.of_frame rfl rfl, ?_⟩
    by_cases hfoe : msgIsFoe msg = true
    · have hf : isFoeFaint msg = true := by simp [isFoeFaint, hfaint, hfoe]
      rw [if_pos hf, if_pos hfoe]
      rfl
    · have hf : ¬ isFoeFaint msg = true := by simp [isFoeFaint, hfoe]
      have hdisj : ∀ s ∈ faintMsgIds, s ∉ switchIds := by decide
      have hs : ¬ isFoeSwitchIn msg = true := by simp [isFoeSwitchIn, hdisj _ hfaint]
      rw [if_neg hf, if_neg hfoe, if_neg (fun h => hs h.1)]
      rfl
  rename_i hfaint
  have hf : ¬ isFoeFaint msg = true := by simp [isFoeFaint, hfaint]
  rw [if_neg hf]
  split at h
  · rename_i hused
    obtain ⟨hp, hr, hv⟩ := stepUsedMove_frame h
    have hmove : usedMoveId ∉ switchIds := by decide
    have hs : ¬ isFoeSwitchIn msg = true := by simp [isFoeSwitchIn, hused, hmove]
    rw [if_neg (fun h => hs h.1), hp, hr]
    exact ⟨hinv.of_frame hr hv, rfl⟩
  split at h
  · rename_i hswitch
    exact stepSwitchIn_spec h hswitch hinv rest
  · rename_i hswitch
    cases h
    have hs : ¬ isFoeSwitchIn msg = true := by simp [isFoeSwitchIn, hswitch]
    rw [if_neg (fun h => hs h.1)]
    exact ⟨hinv.of_frame rfl rfl, rfl⟩

/-- The whole pass, by induction on the messages. -/
theorem scanMessages_spec {messages : List MatchResult}
    (h : L.scanMessages state slotMap false i messages S = .ok S') (hinv : ScanInv i S) :
    ScanInv (i + messages.length) S' ∧
      S'.replacements = S.replacements ++ answeringSwitchIns i S.pendingFaint.opp messages := by
  induction messages generalizing i S with
  | nil =>
    cases h
    exact ⟨hinv, (List.append_nil _).symm⟩
  | cons msg messages ih =>
    obtain ⟨S₁, hstep, h⟩ := bind_eq_ok.1 h
    obtain ⟨hinv₁, heq⟩ := stepMessage_spec hstep hinv messages
    obtain ⟨hinv', hrepl⟩ := ih h hinv₁
    rw [List.length_cons, Nat.add_comm messages.length, ← Nat.add_assoc]
    exact ⟨hinv', hrepl.trans heq⟩

theorem extractKnownActions_spec {messages : List MatchResult}
    (hintro : ∀ msg ∈ messages, msg.stringId ≠ introMsgId)
    (h : L.extractKnownActions state messages slotMap = .ok S) :
    S.replacements = answeringSwitchIns 0 0 messages ∧
      ∀ m, S.voluntary = some m → m ∉ S.replacements := by
  have hstart : (messages.any fun msg => msg.stringId = introMsgId) = false := by
    rw [List.any_eq_false]
    intro msg hmsg
    simpa using hintro msg hmsg
  unfold SweepLookup.extractKnownActions at h
  dsimp only at h
  rw [hstart] at h
  have hinit : ∀ result, ScanInv 0 ({ result := result } : KnownScan) :=
    fun _ => ⟨by simp, by simp, by simp⟩
  obtain ⟨hinv, hrepl⟩ := scanMessages_spec h (hinit _)
  exact ⟨hrepl, hinv.voluntary_notMem⟩

end Scan

theorem forall₂_of_mem_product {α : Type} {ls : List (List α)} {l : List α} (h : l ∈ product ls) :
    List.Forall₂ (· ∈ ·) l ls := by
  induction ls generalizing l with
  | nil =>
    obtain rfl := List.mem_singleton.1 h
    exact .nil
  | cons xs ls ih =>
    obtain ⟨a, ha, h⟩ := List.mem_flatMap.1 h
    obtain ⟨l, hl, rfl⟩ := List.mem_map.1 h
    exact .cons ha (ih hl)

def ComesFrom (L : SweepLookup) (state : SweepState) (messages : List MatchResult) (m : Nat)
    (action : ExecAction) : Prop :=
  ∃ msg slot, messages[m]? = some msg ∧ isFoeSwitchIn msg = true ∧
    slot ∈ L.fuzzyFindTeamSlots state (msg.varValues.getLast?.getD "") 1 ∧
      action = { kind := 1, switchToSlot := slot }

section Queue

variable {L : SweepLookup} {state : SweepState} {messages : List MatchResult}
  {branch : List ExecAction} {branches : List (List ExecAction)}

theorem switchInSlots_eq {msg : MatchResult} {slots : List Nat}
    (h : L.switchInSlots state msg = .ok slots) :
    slots = L.fuzzyFindTeamSlots state (msg.varValues.getLast?.getD "") 1 := by
  unfold SweepLookup.switchInSlots at h
  dsimp only at h
  split at h
  · cases h
  · cases h
    rfl

theorem forall₂_trans {α β γ : Type} {R : α → β → Prop} {R' : β → γ → Prop} {T : α → γ → Prop}
    (hT : ∀ a b c, R a b → R' b c → T a c) {as : List α} {bs : List β} {cs : List γ}
    (h₁ : List.Forall₂ R as bs) (h₂ : List.Forall₂ R' bs cs) : List.Forall₂ T as cs := by
  induction h₁ generalizing cs with
  | nil =>
    cases h₂
    exact .nil
  | cons hab _ ih =>
    cases h₂ with
    | cons hbc h₂ => exact .cons (hT _ _ _ hab hbc) (ih h₂)

theorem getElem?_of_forall₂ {α β : Type} {R : α → β → Prop} {as : List α} {bs : List β}
    (h : List.Forall₂ R as bs) {k : Nat} {b : β} (hb : bs[k]? = some b) :
    ∃ a, as[k]? = some a ∧ R a b := by
  induction h generalizing k with
  | nil => simp at hb
  | cons hab _ ih =>
    cases k with
    | zero =>
      obtain rfl := Option.some.inj hb
      exact ⟨_, rfl, hab⟩
    | succ k => exact ih hb

/-- The queue has one action for each switch-in of the opponent, in the order of the messages. -/
theorem opponentSwitchInActions_spec (h : L.opponentSwitchInActions state messages = .ok branches)
    (hb : branch ∈ branches) :
    List.Forall₂ (ComesFrom L state messages) (foeSwitchIns 0 messages) branch := by
  obtain ⟨slots, hslots, h⟩ := bind_eq_ok.1 h
  cases h
  obtain ⟨combo, hcombo, rfl⟩ := List.mem_map.1 hb
  -- both passes read the same messages, here each with its position
  have hfilter : messages.filter isFoeSwitchIn =
      ((messages.zipIdx 0).filter fun m => isFoeSwitchIn m.1).map Prod.fst := by
    conv_lhs => rw [← List.zipIdx_map_fst 0 messages, List.filter_map]
    rfl
  rw [hfilter] at hslots
  have hspec := mapM_except_spec hslots
  rw [List.forall₂_map_left_iff] at hspec
  rw [foeSwitchIns, List.forall₂_map_left_iff, List.forall₂_map_right_iff]
  have hread := (List.forall₂_and_left _ _).2 ⟨fun _ hm => List.mem_filter.1 hm, hspec⟩
  refine forall₂_trans ?_ hread (forall₂_of_mem_product hcombo).flip
  rintro ⟨msg, m⟩ slots slot ⟨⟨hm, hfoe⟩, hslots⟩ hslot
  rw [switchInSlots_eq hslots] at hslot
  exact ⟨msg, slot, List.mem_zipIdx_iff_getElem?.1 hm, hfoe, hslot, rfl⟩

/-- Each message is used once: the chosen switch is not taken from the queue, and the actions taken
come from the switch-ins that answer the faints, in order. -/
structure UsedOnce (L : SweepLookup) (state : SweepState) (messages : List MatchResult)
    (S : KnownScan) (taken : List (Nat × ExecAction)) : Prop where
  chosen : ∀ m, S.voluntary = some m → m ∉ (foeSwitchIns 0 messages).take taken.length
  paired : ∀ (k : Nat) (a : Nat × ExecAction), taken[k]? = some a →
    ∃ m, (foeSwitchIns 0 messages)[k]? = some m ∧
    S.replacements[k]? = some m ∧ ComesFrom L state messages m a.2

/-- The first `n` switch-ins of the opponent each come after more faints than switch-ins of its
side. -/
def AnswerFaints (messages : List MatchResult) (n : Nat) : Prop :=
  ∀ k < n, ∀ m, (foeSwitchIns 0 messages)[k]? = some m → k < foeFaintsBefore messages m

theorem answerFaints_iff {n : Nat} :
    AnswerFaints messages n ↔ ∀ k < n, ∀ m, (foeSwitchIns 0 messages)[k]? = some m →
      (answeringSwitchIns 0 0 messages)[k]? = some m := by
  rw [answering_iff]
  simp only [Nat.zero_add, Nat.sub_zero]
  rfl

/-- The messages of a turn are used once when its first switch-ins answer its faints, as many as the
driver has slots to fill; and only then, when the candidate survives. -/
theorem usedOnce_iff_answerFaints {σ κ : Type} {D : TurnDriver σ κ} {L : SweepLookup}
    {state : SweepState} {messages : List MatchResult} {slotMap : Option SlotMap} {S : KnownScan}
    {branches : List (List ExecAction)} {branch action0 action1 : List ExecAction}
    {current : σ} {config : κ} {res : Option σ} {taken : List (Nat × ExecAction)}
    (hintro : ∀ msg ∈ messages, msg.stringId ≠ introMsgId)
    (hknown : L.extractKnownActions state messages slotMap = .ok S)
    (hqueue : L.opponentSwitchInActions state messages = .ok branches) (hbranch : branch ∈ branches)
    (hrun : runToDecisionBoundary D current action0 action1 config branch = .ok (res, taken)) :
    (AnswerFaints messages (replacementSlots D current action0 action1 config).length →
        UsedOnce L state messages S taken) ∧
      (res.isSome = true → UsedOnce L state messages S taken →
        AnswerFaints messages (replacementSlots D current action0 action1 config).length) := by
  obtain ⟨hrepl, hvol⟩ := extractKnownActions_spec hintro hknown
  obtain ⟨hpre, hall⟩ := runToDecisionBoundary_spec hrun
  have hfrom := opponentSwitchInActions_spec hqueue hbranch
  have hlen := hfrom.length_eq
  have htaken : taken.length ≤ (replacementSlots D current action0 action1 config).length := by
    refine hpre.length_le.trans ?_
    rw [List.length_zip]
    exact Nat.min_le_left _ _
  rw [answerFaints_iff, ← hrepl]
  constructor
  · intro hanswer
    constructor
    · intro m hm hmem
      obtain ⟨k, hk⟩ := List.mem_iff_getElem?.1 hmem
      rw [List.getElem?_take] at hk
      split at hk
      · rename_i hlt
        have hrep := hanswer k (hlt.trans_le htaken) m hk
        exact hvol m hm (List.mem_of_getElem? hrep)
      · cases hk
    · intro k a hk
      have hlt : k < taken.length := (List.getElem?_eq_some_iff.1 hk).1
      have hzip :
          ((replacementSlots D current action0 action1 config).zip branch)[k]? = some a := by
        obtain ⟨rest, hrest⟩ := hpre
        rw [← hrest, List.getElem?_append_left hlt, hk]
      obtain ⟨m, hm, hcomes⟩ := getElem?_of_forall₂ hfrom (List.getElem?_zip_eq_some.1 hzip).2
      exact ⟨m, hm, hanswer k (hlt.trans_le htaken) m hm, hcomes⟩
  · intro hres hused k hk m hm
    have hb : k < branch.length := by
      rw [← hlen]
      exact (List.getElem?_eq_some_iff.1 hm).1
    have hk' : taken[k]? =
        some ((replacementSlots D current action0 action1 config)[k], branch[k]) := by
      rw [hall hres]
      exact List.getElem?_zip_eq_some.2
        ⟨List.getElem?_eq_getElem hk, List.getElem?_eq_getElem hb⟩
    obtain ⟨m', hm', hrep, _⟩ := hused.paired k _ hk'
    obtain rfl : m = m' := Option.some.inj (hm.symm.trans hm')
    exact hrep

end Queue

section Sample

def sampleMember (name : String) : SweepMember := { speciesName := name, emulatorName := name }

def sampleTeams (oppFainted : Option Nat) : SweepState where
  side0 := { team := [sampleMember "EEVEE"], activeIndices := [0] }
  side1 :=
    { team := ["ABRA", "PIDGEY", "ZUBAT"].zipIdx.map fun m =>
        { sampleMember m.1 with fainted := oppFainted = some m.2 }
      activeIndices := [oppFainted.getD 0] }

def sampleLookup : SweepLookup where
  distance := fun a b => if a = b then 0 else 5
  legalActions := fun _ _ _ => []

def sampleDriver : TurnDriver (Option Nat) Nat where
  parties := sampleTeams
  runOneTurn := fun _ _ _ target => .ok (some target)
  applySwitch := fun _ _ _ _ => .ok none

def sentOut (name : String) : MatchResult :=
  { stringId := "STRINGID_SWITCHINMON", constantName := "sText_Trainer1SentOutPkmn"
    varValues := ["TRAINER", name] }

def foeFainted : MatchResult :=
  { stringId := "STRINGID_TARGETFAINTED", matchedText := "Foe PIDGEY fainted!" }

theorem replacement_used_once :
    UsedOnce sampleLookup (sampleTeams none) [foeFainted, sentOut "ZUBAT"]
      { result := ⟨[none], [none]⟩, replacements := [1] }
      [(0, { kind := 1, switchToSlot := 2 })] := by
  have hintro : ∀ msg ∈ [foeFainted, sentOut "ZUBAT"], msg.stringId ≠ introMsgId := by decide
  have hknown : sampleLookup.extractKnownActions (sampleTeams none) [foeFainted, sentOut "ZUBAT"]
      none = .ok { result := ⟨[none], [none]⟩, replacements := [1] } := by decide +kernel
  have hqueue : sampleLookup.opponentSwitchInActions (sampleTeams none)
      [foeFainted, sentOut "ZUBAT"] = .ok [[{ kind := 1, switchToSlot := 2 }]] := by
    decide +kernel
  have hrun : runToDecisionBoundary sampleDriver none [] [] 0
      [{ kind := 1, switchToSlot := 2 }] =
        .ok (some none, [(0, { kind := 1, switchToSlot := 2 })]) := by decide +kernel
  apply (usedOnce_iff_answerFaints hintro hknown hqueue (List.mem_singleton.2 rfl) hrun).1
  intro k hk m hm
  have hins : foeSwitchIns 0 [foeFainted, sentOut "ZUBAT"] = [1] := by decide +kernel
  rw [hins] at hm
  cases k with
  | zero =>
    obtain rfl : 1 = m := Option.some.inj hm
    decide +kernel
  | succ k => cases hm

/-- The opponent switches, the incoming mon faints and a third one is sent out: the driver sends the
fainted one out again, by the message of the chosen switch. -/
theorem chosen_switch_used_twice :
    ∃ S branches branch res taken,
      (∀ msg ∈ [sentOut "PIDGEY", foeFainted, sentOut "ZUBAT"], msg.stringId ≠ introMsgId) ∧
        sampleLookup.extractKnownActions (sampleTeams none)
          [sentOut "PIDGEY", foeFainted, sentOut "ZUBAT"] none = .ok S ∧
        sampleLookup.opponentSwitchInActions (sampleTeams none)
          [sentOut "PIDGEY", foeFainted, sentOut "ZUBAT"] = .ok branches ∧
        branch ∈ branches ∧
        runToDecisionBoundary sampleDriver none [] (S.result.opp.filterMap id) 1 branch =
          .ok (res, taken) ∧
        ¬ UsedOnce sampleLookup (sampleTeams none)
          [sentOut "PIDGEY", foeFainted, sentOut "ZUBAT"] S taken := by
  refine ⟨{ result := ⟨[none], [some { kind := 1, switchToSlot := 1 }]⟩, replacements := [2]
            voluntary := some 0 },
    [[{ kind := 1, switchToSlot := 1 }, { kind := 1, switchToSlot := 2 }]],
    [{ kind := 1, switchToSlot := 1 }, { kind := 1, switchToSlot := 2 }], some none,
    [(0, { kind := 1, switchToSlot := 1 })], by decide, by decide +kernel, by decide +kernel,
    List.mem_singleton.2 rfl, by decide +kernel, ?_⟩
  intro h
  exact h.chosen 0 rfl (by decide +kernel)

end Sample

end NuzlockeSolver
