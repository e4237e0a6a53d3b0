import Mathlib.Data.Rat.Defs
import NuzlockeSolver.Basic
import NuzlockeSolver.Oracle.Rng
import NuzlockeSolver.Trace.Numbering

/-!
# The recorder of random outcomes

The recorder keys each outcome by its turn, its event and the number of earlier outcomes of that
event in the turn. A snapshot of it is taken before an attempt that may be undone, and undoing the
attempt gives the key of an undone outcome to the next one. A session is a run of such calls in
which attempts nest. What it records is the numbering of a journal that drops undone attempts.
-/

namespace NuzlockeSolver.Trace

inductive Outcome
  | bool (b : Bool)
  | int (n : Int)
  | float (x : ℚ)
  | member (value : Int)
deriving DecidableEq

structure TraceRecord where
  turn : Int
  seq : Nat
  event : RngEvent
  occurrence : Nat
  outcome : Outcome
  phase : Option String
  side : Option Int
  slot : Option Int
deriving DecidableEq

structure Checkpoint where
  length : Nat
  counters : RngEvent → Nat
  seq : Nat
  turn : Option Int

structure TraceRecorder where
  turn : Option Int := none
  seq : Nat := 0
  counters : RngEvent → Nat := fun _ => 0
  contextPhase : Option String := none
  contextSide : Option Int := none
  contextSlot : Option Int := none
  records : List TraceRecord := []

def showOption : Option Int → String
  | none => "None"
  | some n => toString n

namespace TraceRecorder

def setTurn (r : TraceRecorder) (n : Int) : Except String TraceRecorder :=
  match r.turn with
  | none => .ok { r with turn := some n, counters := fun _ => 0 }
  | some t =>
    if n < t then
      .error s!"set_turn: cannot go backwards (current={t}, requested={n})"
    else if n = t then .ok r
    else .ok { r with turn := some n, counters := fun _ => 0 }

def setContext (r : TraceRecorder) (phase : Option String) (side slot : Option Int) :
    TraceRecorder :=
  { r with contextPhase := phase, contextSide := side, contextSlot := slot }

def record (r : TraceRecorder) (event : RngEvent) (outcome : Outcome) :
    Except String TraceRecorder :=
  match r.turn with
  | none => .error "record: set_turn must be called before record"
  | some t =>
    .ok { r with
      counters := Function.update r.counters event (r.counters event + 1)
      records := r.records ++ [⟨t, r.seq, event, r.counters event, outcome, r.contextPhase,
        r.contextSide, r.contextSlot⟩]
      seq := r.seq + 1 }

def mark (r : TraceRecorder) : Checkpoint := ⟨r.records.length, r.counters, r.seq, r.turn⟩

def rollback (r : TraceRecorder) (mark : Checkpoint) : Except String TraceRecorder :=
  if mark.turn ≠ r.turn then
    .error ("rollback: turn changed since mark (mark turn=" ++ showOption mark.turn ++
      ", current=" ++ showOption r.turn ++ ")")
  else
    .ok { r with
      records := r.records.take mark.length
      counters := mark.counters
      seq := mark.seq }

end TraceRecorder

/-- The calls on a recorder. An attempt is marked before and rolled back after. -/
inductive Session
  | skip
  | setTurn (n : Int)
  | setContext (phase : Option String) (side slot : Option Int)
  | record (event : RngEvent) (outcome : Outcome)
  | seq (first rest : Session)
  | attempt (calls : Session)

def Session.run : Session → TraceRecorder → Except String TraceRecorder
  | .skip, r => .ok r
  | .setTurn n, r => r.setTurn n
  | .setContext phase side slot, r => .ok (r.setContext phase side slot)
  | .record event outcome, r => r.record event outcome
  | .seq first rest, r => first.run r >>= rest.run
  | .attempt calls, r => calls.run r >>= fun r' => r'.rollback r.mark

structure JournalEntry where
  turn : Int
  event : RngEvent
  outcome : Outcome
  phase : Option String
  side : Option Int
  slot : Option Int

def JournalEntry.key (e : JournalEntry) : Int × RngEvent := (e.turn, e.event)

/-- The outcomes that were drawn and not undone. -/
structure Journal where
  turn : Option Int := none
  contextPhase : Option String := none
  contextSide : Option Int := none
  contextSlot : Option Int := none
  entries : List JournalEntry := []

def Session.keep : Session → Journal → Except String Journal
  | .skip, j => .ok j
  | .setTurn n, j =>
    match j.turn with
    | none => .ok { j with turn := some n }
    | some t =>
      if n < t then .error s!"set_turn: cannot go backwards (current={t}, requested={n})"
      else .ok { j with turn := some n }
  | .setContext phase side slot, j =>
    .ok { j with contextPhase := phase, contextSide := side, contextSlot := slot }
  | .record event outcome, j =>
    match j.turn with
    | none => .error "record: set_turn must be called before record"
    | some t =>
      .ok { j with entries :=
        j.entries ++ [⟨t, event, outcome, j.contextPhase, j.contextSide, j.contextSlot⟩] }
  | .seq first rest, j => first.keep j >>= rest.keep
  | .attempt calls, j => calls.keep j >>= fun j' =>
      if j.turn ≠ j'.turn then
        .error ("rollback: turn changed since mark (mark turn=" ++
          showOption j.turn ++ ", current=" ++ showOption j'.turn ++ ")")
      else .ok { j' with entries := j.entries }

def JournalEntry.stamp (before : List JournalEntry) (e : JournalEntry) : TraceRecord :=
  ⟨e.turn, before.length, e.event, (under JournalEntry.key e.key before).length, e.outcome,
    e.phase, e.side, e.slot⟩

def stampFrom (before : List JournalEntry) : List JournalEntry → List TraceRecord
  | [] => []
  | e :: rest => e.stamp before :: stampFrom (before ++ [e]) rest

/-- The recorder that has written down a journal. -/
def Journal.recorder (j : Journal) : TraceRecorder where
  turn := j.turn
  seq := j.entries.length
  counters event := j.turn.elim 0 fun t => (under JournalEntry.key (t, event) j.entries).length
  contextPhase := j.contextPhase
  contextSide := j.contextSide
  contextSlot := j.contextSlot
  records := stampFrom [] j.entries

theorem stampFrom_append (before l m : List JournalEntry) :
    stampFrom before (l ++ m) = stampFrom before l ++ stampFrom (before ++ l) m := by
  induction l generalizing before with
  | nil => simp [stampFrom]
  | cons e l ih => simp [stampFrom, ih]

theorem length_stampFrom (before l : List JournalEntry) :
    (stampFrom before l).length = l.length := by
  induction l generalizing before with
  | nil => rfl
  | cons e l ih => simp [stampFrom, ih]

structure Journal.Timed (j : Journal) : Prop where
  upTo : ∀ e ∈ j.entries, ∃ t, j.turn = some t ∧ e.turn ≤ t
  sorted : j.entries.Pairwise fun e e' => e.turn ≤ e'.turn

theorem Journal.timed_empty : ({} : Journal).Timed :=
  ⟨fun _ he => absurd he List.not_mem_nil, List.Pairwise.nil⟩

theorem Journal.Timed.later {j : Journal} (h : j.Timed) {n : Int}
    (hn : ∀ t, j.turn = some t → t ≤ n) : { j with turn := some n }.Timed := by
  refine ⟨fun e he => ?_, h.sorted⟩
  obtain ⟨t, ht, hle⟩ := h.upTo e he
  exact ⟨n, rfl, hle.trans (hn t ht)⟩

theorem Journal.Timed.push {j : Journal} (h : j.Timed) {e : JournalEntry}
    (he : j.turn = some e.turn) : { j with entries := j.entries ++ [e] }.Timed := by
  constructor
  · intro e' he'
    rcases List.mem_append.1 he' with he' | he'
    · exact h.upTo e' he'
    · obtain rfl := List.mem_singleton.1 he'
      exact ⟨_, he, le_rfl⟩
  · refine List.pairwise_append.2 ⟨h.sorted, List.pairwise_singleton _ _, fun a ha b hb => ?_⟩
    obtain rfl := List.mem_singleton.1 hb
    obtain ⟨t, ht, hle⟩ := h.upTo a ha
    obtain rfl := Option.some.inj (he.symm.trans ht)
    exact hle

theorem under_of_later {j : Journal} (h : j.Timed) {n : Int}
    (hn : ∀ t, j.turn = some t → t < n) (event : RngEvent) :
    under JournalEntry.key (n, event) j.entries = [] := by
  refine List.filter_eq_nil_iff.2 fun e he hkey => ?_
  obtain ⟨t, ht, hle⟩ := h.upTo e he
  have hkey : e.key = (n, event) := by simpa using hkey
  have hturn : e.turn = n := congrArg Prod.fst hkey
  have := hn t ht
  omega

theorem setTurn_recorder {j : Journal} (h : j.Timed) (n : Int) :
    j.recorder.setTurn n = ((Session.setTurn n).keep j).map Journal.recorder := by
  unfold TraceRecorder.setTurn Session.keep
  cases ht : j.turn with
  | none =>
    have hnone : j.entries = [] :=
      List.eq_nil_iff_forall_not_mem.2 fun e he => by
        obtain ⟨t, hsome, -⟩ := h.upTo e he
        rw [ht] at hsome
        cases hsome
    simp [Journal.recorder, Except.map, ht, hnone, under]
  | some t =>
    by_cases hback : n < t
    · simp [Journal.recorder, Except.map, ht, hback]
    · by_cases hsame : n = t
      · subst hsame
        simp [Journal.recorder, Except.map, ht]
      · have hcounters (event : RngEvent) : under JournalEntry.key (n, event) j.entries = [] :=
          under_of_later h (fun t' ht' => by
            obtain rfl := Option.some.inj (ht.symm.trans ht')
            omega) event
        simp [Journal.recorder, Except.map, ht, hback, hsame, hcounters]

theorem record_recorder (j : Journal) (event : RngEvent) (outcome : Outcome) :
    j.recorder.record event outcome =
      ((Session.record event outcome).keep j).map Journal.recorder := by
  unfold TraceRecorder.record Session.keep
  cases ht : j.turn with
  | none => simp [Journal.recorder, Except.map, ht]
  | some t =>
    let e : JournalEntry := ⟨t, event, outcome, j.contextPhase, j.contextSide, j.contextSlot⟩
    have hcounters : Function.update (fun event =>
          (under JournalEntry.key (t, event) j.entries).length) event
          ((under JournalEntry.key (t, event) j.entries).length + 1) =
        fun event => (under JournalEntry.key (t, event) (j.entries ++ [e])).length := by
      funext event'
      by_cases he : event' = event
      · subst he
        have hself : under JournalEntry.key (t, event') (j.entries ++ [e]) =
            under JournalEntry.key (t, event') j.entries ++ [e] :=
          under_concat_self JournalEntry.key j.entries e
        rw [Function.update_self, hself, List.length_append, List.length_singleton]
      · rw [Function.update_of_ne he, under_concat_ne]
        intro hkey
        exact he (congrArg Prod.snd hkey).symm
    simp only [Journal.recorder, Except.map, ht, Option.elim_some, hcounters, e,
      stampFrom_append, stampFrom, List.nil_append, List.length_append, List.length_singleton,
      JournalEntry.stamp, JournalEntry.key]

theorem take_stampFrom {l m : List JournalEntry} (h : l <+: m) :
    (stampFrom [] m).take l.length = stampFrom [] l := by
  obtain ⟨rest, rfl⟩ := h
  rw [stampFrom_append, List.take_append_of_le_length (by rw [length_stampFrom]),
    List.take_of_length_le (by rw [length_stampFrom])]

theorem keep_timed (p : Session) {j j' : Journal} (h : j.Timed) (hkeep : p.keep j = .ok j') :
    j'.Timed ∧ j.entries <+: j'.entries ∧
      ∀ t, j.turn = some t → ∃ t', j'.turn = some t' ∧ t ≤ t' := by
  induction p generalizing j j' with
  | skip =>
    cases hkeep
    exact ⟨h, List.prefix_rfl, fun t ht => ⟨t, ht, le_rfl⟩⟩
  | setTurn n =>
    rw [Session.keep] at hkeep
    split at hkeep
    · rename_i ht
      cases hkeep
      refine ⟨h.later fun t h' => ?_, List.prefix_rfl, fun t h' => ?_⟩
      · cases ht.symm.trans h'
      · cases ht.symm.trans h'
    · rename_i t ht
      split at hkeep
      · cases hkeep
      · rename_i hback
        cases hkeep
        refine ⟨h.later fun t' h' => ?_, List.prefix_rfl, fun t' h' => ⟨n, rfl, ?_⟩⟩
        · obtain rfl := Option.some.inj (ht.symm.trans h')
          omega
        · obtain rfl := Option.some.inj (ht.symm.trans h')
          omega
  | setContext phase side slot =>
    cases hkeep
    exact ⟨⟨h.upTo, h.sorted⟩, List.prefix_rfl, fun t ht => ⟨t, ht, le_rfl⟩⟩
  | record event outcome =>
    rw [Session.keep] at hkeep
    split at hkeep
    · cases hkeep
    · rename_i t ht
      cases hkeep
      exact ⟨h.push ht, List.prefix_append _ _, fun t' h' => ⟨t', h', le_rfl⟩⟩
  | seq first rest ihf ihr =>
    obtain ⟨j₁, h₁, h₂⟩ := bind_eq_ok.1 hkeep
    obtain ⟨ht₁, hpre₁, hup₁⟩ := ihf h h₁
    obtain ⟨ht₂, hpre₂, hup₂⟩ := ihr ht₁ h₂
    refine ⟨ht₂, hpre₁.trans hpre₂, fun t ht => ?_⟩
    obtain ⟨t₁, hj₁, hle₁⟩ := hup₁ t ht
    obtain ⟨t₂, hj₂, hle₂⟩ := hup₂ t₁ hj₁
    exact ⟨t₂, hj₂, hle₁.trans hle₂⟩
  | attempt calls ih =>
    obtain ⟨j₁, h₁, h₂⟩ := bind_eq_ok.1 hkeep
    split at h₂
    · cases h₂
    · rename_i hturn
      cases h₂
      have hturn : j.turn = j₁.turn := not_not.1 hturn
      refine ⟨⟨fun e he => ?_, h.sorted⟩, List.prefix_rfl, fun t ht => ⟨t, hturn ▸ ht, le_rfl⟩⟩
      obtain ⟨t, ht, hle⟩ := h.upTo e he
      exact ⟨t, hturn ▸ ht, hle⟩

theorem run_recorder (p : Session) {j : Journal} (h : j.Timed) :
    p.run j.recorder = (p.keep j).map Journal.recorder := by
  induction p generalizing j with
  | skip => rfl
  | setTurn n => exact setTurn_recorder h n
  | setContext phase side slot => rfl
  | record event outcome => exact record_recorder j event outcome
  | seq first rest ihf ihr =>
    rw [Session.run, Session.keep, ihf h]
    cases hk : first.keep j with
    | error e => rfl
    | ok j₁ => exact ihr (keep_timed first h hk).1
  | attempt calls ih =>
    rw [Session.run, Session.keep, ih h]
    cases hk : calls.keep j with
    | error e => rfl
    | ok j₁ =>
      obtain ⟨-, hpre, -⟩ := keep_timed calls h hk
      simp only [Except.map, ok_bind]
      unfold TraceRecorder.rollback TraceRecorder.mark
      by_cases hturn : j.turn = j₁.turn
      · simp only [Journal.recorder, hturn, ne_eq, not_true_eq_false, if_false,
          length_stampFrom, take_stampFrom hpre]
      · simp only [Journal.recorder, hturn, ne_eq, not_false_eq_true, if_true]

end NuzlockeSolver.Trace
