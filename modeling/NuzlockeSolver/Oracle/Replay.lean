import NuzlockeSolver.Oracle.Align

/-!
# Runs of a replay

What a run does to the three counts that have to agree: the occurrence counters of the resolvers,
the entries of the log, and the occurrence numbers the oracle recomputes from the log.
-/

namespace NuzlockeSolver

def RngEntry.branching (e : RngEntry) : Bool := e.event.isCatB && !e.saturated

def RngEntry.key (e : RngEntry) : RngEvent × Int := (e.event, e.chosen)

def bumpedCount (log : List RngEntry) (event : RngEvent) : Nat :=
  (log.filter fun e => e.event = event ∧ e.event.isCatB ∧ e.bumped).length

def forcedCount (vs : Forced) (event : RngEvent) : Nat :=
  (vs.filter fun f => f.1 = event).length

/-- Every probability of an unsaturated draw stays clear of one by more than the tolerance. -/
def Draw.Separated (d : Draw) (aggregate : Bool) : Prop :=
  d.saturated = none → ∀ v, d.Taken aggregate v → tolerance < |d.prob v - 1|

structure ResolverCall.Sound (aggregate : Bool) (call : ResolverCall) : Prop where
  regular : call.Regular
  separated : call.draw.Separated aggregate

theorem ResolverCall.Sound.proper {aggregate : Bool} {call : ResolverCall}
    (h : call.Sound aggregate) (hsat : call.draw.saturated = none) :
    call.draw.Proper aggregate :=
  call.proper_of_regular h.regular hsat aggregate

section Entries

variable {d : Draw} {aggregate : Bool} {v : Int}

@[simp] theorem Draw.entry_event (p : Rat) : (d.entry v p).event = d.event := rfl

@[simp] theorem Draw.entryOf_event : (d.entryOf v).event = d.event := rfl

@[simp] theorem Draw.entryOf_chosen : (d.entryOf v).chosen = v := rfl

@[simp] theorem Draw.entry_chosen (p : Rat) : (d.entry v p).chosen = v := rfl

@[simp] theorem Draw.entry_pChosen (p : Rat) : (d.entry v p).pChosen = p := rfl

theorem Draw.branching_entry_one : (d.entry v 1).branching = false := by
  simp [RngEntry.branching, RngEntry.saturated, tolerance]

theorem Draw.bumped_entry_one : (d.entry v 1).bumped = false := by
  simp [RngEntry.bumped, tolerance]

theorem Draw.branching_entryOf (hp : d.Proper aggregate) (hs : tolerance < |d.prob v - 1|) :
    (d.entryOf v).branching = true := by
  have : ¬ |d.prob v - 1| < tolerance := not_lt.2 hs.le
  simp [RngEntry.branching, RngEntry.saturated, Draw.entryOf, hp.isCatB, this]

theorem Draw.bumped_entryOf (hs : tolerance < |d.prob v - 1|) : (d.entryOf v).bumped = true := by
  simp [RngEntry.bumped, Draw.entryOf, hs]

end Entries

/-- The channels after a stretch of a run in which exactly the given outcomes were taken by
unsaturated draws, in this order. -/
structure Channels.Ext (c c' : Channels) (vs : Forced) : Prop where
  log : ∃ L, c'.log = c.log ++ L ∧ (L.filter (·.branching)).map (·.key) = vs ∧
    ∀ e, bumpedCount L e = forcedCount vs e
  occ : ∀ e, c'.occ e = c.occ e + forcedCount vs e

theorem forcedCount_append (vs ws : Forced) (e : RngEvent) :
    forcedCount (vs ++ ws) e = forcedCount vs e + forcedCount ws e := by
  simp [forcedCount]

theorem bumpedCount_append (l m : List RngEntry) (e : RngEvent) :
    bumpedCount (l ++ m) e = bumpedCount l e + bumpedCount m e := by
  simp [bumpedCount]

namespace Channels.Ext

variable {c c' c'' : Channels} {vs ws : Forced}

theorem refl (c : Channels) : c.Ext c [] where
  log := ⟨[], by simp, by simp, by simp [bumpedCount, forcedCount]⟩
  occ := by simp [forcedCount]

theorem trans (h : c.Ext c' vs) (h' : c'.Ext c'' ws) : c.Ext c'' (vs ++ ws) where
  log := by
    obtain ⟨L, hL, hkey, hcount⟩ := h.log
    obtain ⟨M, hM, hkey', hcount'⟩ := h'.log
    refine ⟨L ++ M, by rw [hM, hL, List.append_assoc], by simp [hkey, hkey'], fun e => ?_⟩
    rw [bumpedCount_append, forcedCount_append, hcount, hcount']
  occ e := by
    rw [h'.occ, h.occ, forcedCount_append, Nat.add_assoc]

end Channels.Ext

theorem consume_of_consumed {done R : CategoryBInjection} (h : done.all (·.consumed))
    (event : RngEvent) (occ : Nat) :
    CategoryBInjection.consume event occ (done ++ R) =
      (CategoryBInjection.consume event occ R).map fun (o, rest) => (o, done ++ rest) := by
  induction done with
  | nil => simp
  | cons o done ih =>
    simp only [List.all_cons, Bool.and_eq_true] at h
    simp only [List.cons_append, CategoryBInjection.consume, h.1, Bool.true_eq_false, and_false,
      if_false, ih h.2, Option.map_map]
    rfl

theorem consume_none {done : CategoryBInjection} (h : done.all (·.consumed)) (event : RngEvent)
    (occ : Nat) : CategoryBInjection.consume event occ done = none := by
  have := consume_of_consumed h event occ (R := [])
  simpa [CategoryBInjection.consume] using this

def inject (event : RngEvent) (occ : Nat) (v : Int) : Injected :=
  if event.isBool then CategoryBInjection.pushBool event occ (v ≠ 0)
  else CategoryBInjection.pushInt event occ v

def injectionOf : (RngEvent → Nat) → Forced → CategoryBInjection
  | _, [] => []
  | occ, (e, v) :: vs => inject e (occ e) v :: injectionOf (Function.update occ e (occ e + 1)) vs

theorem injectionOf_append (occ : RngEvent → Nat) (vs : Forced) (e : RngEvent) (v : Int) :
    injectionOf occ (vs ++ [(e, v)]) =
      injectionOf occ vs ++ [inject e (occ e + forcedCount vs e) v] := by
  induction vs generalizing occ with
  | nil => simp [injectionOf, forcedCount]
  | cons f vs ih =>
    obtain ⟨e', v'⟩ := f
    simp only [List.cons_append, injectionOf, ih]
    by_cases he : e' = e
    · subst he
      simp [forcedCount, Nat.add_assoc, Nat.add_comm 1]
    · simp [forcedCount, he, Function.update_of_ne (Ne.symm he)]

theorem inject_spec {d : Draw} {aggregate : Bool} (hp : d.Proper aggregate) {v : Int}
    (hv : v ∈ d.offered aggregate) (occ : Nat) :
    (inject d.event occ v).event = d.event ∧ (inject d.event occ v).occurrence = occ ∧
      (inject d.event occ v).consumed = false ∧ (inject d.event occ v).boolean = d.boolean ∧
      (inject d.event occ v).value = v := by
  cases hb : d.event.isBool with
  | true =>
    have hv : v = 0 ∨ v = 1 := hp.bool hb v hv
    rcases hv with rfl | rfl <;>
      simp [inject, hb, CategoryBInjection.pushBool, hp.kind, outcomeOf]
  | false => simp [inject, hb, CategoryBInjection.pushInt, hp.kind]

namespace Draw

variable {d : Draw} {aggregate : Bool} {c : Channels} {v : Int}

theorem resolve_saturated {w : Int} (hsat : d.saturated = some w) :
    ∃ c', d.resolve c = .ok (w, c') ∧ c'.injection = c.injection ∧ c'.answers = c.answers ∧
      c.Ext c' [] := by
  refine ⟨if d.logged then c.push (d.entry w 1) else c, by simp [resolve, hsat], ?_, ?_, ?_⟩
  · split <;> rfl
  · split <;> rfl
  · split
    · refine ⟨⟨[d.entry w 1], rfl, by simp [branching_entry_one], fun e => ?_⟩, fun e => ?_⟩
      · simp [bumpedCount, forcedCount, bumped_entry_one]
      · simp [Channels.push, forcedCount]
    · exact .refl c

theorem ext_taken (hp : d.Proper aggregate) (hs : tolerance < |d.prob v - 1|) {c' : Channels}
    (hlog : c'.log = c.log ++ [d.entryOf v])
    (hocc : c'.occ = Function.update c.occ d.event (c.occ d.event + 1)) :
    c.Ext c' [(d.event, v)] := by
  refine ⟨⟨[d.entryOf v], hlog, ?_, fun e => ?_⟩, fun e => ?_⟩
  · simp [branching_entryOf hp hs, RngEntry.key]
  · by_cases he : d.event = e
    · subst he
      simp [bumpedCount, forcedCount, bumped_entryOf hs, hp.isCatB]
    · simp [bumpedCount, forcedCount, he]
  · by_cases he : d.event = e
    · subst he
      simp [hocc, forcedCount]
    · simp [hocc, forcedCount, he, Function.update_of_ne (Ne.symm he)]

theorem resolve_forced (hp : d.Proper aggregate) (hsat : d.saturated = none)
    (hv : v ∈ d.offered aggregate) (hs : tolerance < |d.prob v - 1|)
    {done rest : CategoryBInjection} (hdone : done.all (·.consumed))
    (hinj : c.injection = done ++ inject d.event (c.occ d.event) v :: rest) :
    ∃ c' done', d.resolve c = .ok (v, c') ∧ done'.all (·.consumed) ∧
      c'.injection = done' ++ rest ∧ c'.answers = c.answers ∧
      c'.occ = Function.update c.occ d.event (c.occ d.event + 1) ∧
      c.Ext c' [(d.event, v)] := by
  obtain ⟨hev, hocc, hcons, hbool, hval⟩ := inject_spec hp hv (c.occ d.event)
  refine ⟨{ c.bumpOccurrence d.event with
      injection := done ++ { inject d.event (c.occ d.event) v with consumed := true } :: rest
      }.push (d.entryOf v), done ++ [{ inject d.event (c.occ d.event) v with consumed := true }],
    ?_, ?_, ?_, rfl, rfl, ext_taken hp hs rfl rfl⟩
  · simp [resolve, hsat, hinj, consume_of_consumed hdone, CategoryBInjection.consume, hev, hocc,
      hcons, hbool, hval]
  · simpa using hdone
  · simp [Channels.push]

theorem resolve_free (hp : d.Proper aggregate) (hsat : d.saturated = none)
    (hs : tolerance < |d.prob d.default - 1|) (hdone : c.injection.all (·.consumed)) :
    ∃ c', d.resolve c = .ok (d.default, c') ∧ c'.injection = c.injection ∧
      c'.answers = c.answers ∧ c'.log = c.log ++ [d.entryOf d.default] ∧
      c.Ext c' [(d.event, d.default)] := by
  refine ⟨(c.bumpOccurrence d.event).push (d.entryOf d.default), ?_, rfl, rfl, rfl,
    ext_taken hp hs rfl rfl⟩
  simp [resolve, hsat, consume_none hdone]

end Draw

def CatA (event : RngEvent) (_ : List Int) : Prop := event.isCatB = false

theorem Channels.ext_answer {c : Channels} {event : RngEvent} {a : OracleAnswer}
    {rest : List OracleAnswer} {options : List Int} (h : event.isCatB = false) :
    c.Ext (c.answer event a rest options) [] := by
  have hev : (analyticalRngLogDraw event (-1) a.chosen options (-1)).event = event := rfl
  refine ⟨⟨[analyticalRngLogDraw event (-1) a.chosen options (-1)], rfl, ?_, fun e => ?_⟩,
    fun e => by simp [Channels.answer, forcedCount]⟩
  · simp [RngEntry.branching, hev, h]
  · simp [bumpedCount, forcedCount, hev, h]

namespace Turn

variable {aggregate : Bool} {c : Channels}

theorem run_after {t t' : Turn σ} (ht : t.Over (·.Sound aggregate) CatA) {vs : Forced}
    {A' : Answers} (ha : t.after aggregate vs c.answers = some (t', A'))
    {D : CategoryBInjection} (hdone : D.all (·.consumed))
    (hinj : c.injection = D ++ injectionOf c.occ vs) :
    ∃ c', t.run c = t'.run c' ∧ c'.injection.all (·.consumed) ∧ c'.answers = A' ∧
      c.Ext c' vs := by
  induction t generalizing vs c D with
  | done s =>
    cases vs with
    | nil =>
      simp only [after_nil, Option.some.injEq, Prod.mk.injEq] at ha
      refine ⟨c, by rw [ha.1], ?_, ha.2, .refl c⟩
      rw [hinj]
      simpa [injectionOf] using hdone
    | cons f vs => simp [after] at ha
  | draw call next ih =>
    cases vs with
    | nil =>
      simp only [after_nil, Option.some.injEq, Prod.mk.injEq] at ha
      refine ⟨c, by rw [ha.1], ?_, ha.2, .refl c⟩
      rw [hinj]
      simpa [injectionOf] using hdone
    | cons f vs =>
      obtain ⟨e, v⟩ := f
      simp only [after] at ha
      split at ha
      · rename_i w hsat
        obtain ⟨c₁, hres, hinj₁, hans₁, hext₁⟩ := Draw.resolve_saturated (c := c) hsat
        have hocc₁ : c₁.occ = c.occ := funext fun e => by simpa [forcedCount] using hext₁.occ e
        rw [← hans₁] at ha
        obtain ⟨c', hrun, hall, hA, hext⟩ :=
          ih _ (ht.2 _) ha hdone (by rw [hinj₁, hinj, hocc₁])
        refine ⟨c', ?_, hall, hA, by simpa using hext₁.trans hext⟩
        rw [run, hres]
        exact hrun
      · rename_i hsat
        split at ha
        · rename_i hmem
          obtain ⟨rfl, hv⟩ := hmem
          obtain ⟨c₁, done₁, hres, hdone₁, hinj₁, hans₁, hocc₁, hext₁⟩ :=
            Draw.resolve_forced (ht.1.proper hsat) hsat hv (ht.1.separated hsat v (.inr hv)) hdone
              (by rw [hinj]; rfl)
          rw [← hans₁] at ha
          obtain ⟨c', hrun, hall, hA, hext⟩ :=
            ih _ (ht.2 _) ha hdone₁ (by rw [hinj₁, hocc₁])
          refine ⟨c', ?_, hall, hA, by simpa using hext₁.trans hext⟩
          rw [run, hres]
          exact hrun
        · simp at ha
  | ask event options next ih =>
    cases vs with
    | nil =>
      simp only [after_nil, Option.some.injEq, Prod.mk.injEq] at ha
      refine ⟨c, by rw [ha.1], ?_, ha.2, .refl c⟩
      rw [hinj]
      simpa [injectionOf] using hdone
    | cons f vs =>
      simp only [after] at ha
      split at ha
      · simp at ha
      · rename_i a left hA
        obtain ⟨c', hrun, hall, hA', hext⟩ :=
          ih _ (ht.2 _) (c := c.answer event a left options) ha hdone hinj
        refine ⟨c', ?_, hall, hA', by simpa using (Channels.ext_answer ht.1).trans hext⟩
        rw [run, hA]
        exact hrun

/-- With the injection used up a run gets to the settled configuration without branching. -/
theorem run_settle {t : Turn σ} (ht : t.Over (·.Sound aggregate) CatA)
    (hdone : c.injection.all (·.consumed)) :
    ∃ c', t.run c = (t.settle c.answers).1.run c' ∧ c'.injection.all (·.consumed) ∧
      c'.answers = (t.settle c.answers).2 ∧ c.Ext c' [] := by
  induction t generalizing c with
  | done s => exact ⟨c, rfl, hdone, rfl, .refl c⟩
  | draw call next ih =>
    simp only [settle]
    split
    · rename_i w hsat
      obtain ⟨c₁, hres, hinj₁, hans₁, hext₁⟩ := Draw.resolve_saturated (c := c) hsat
      obtain ⟨c', hrun, hall, hA, hext⟩ :=
        ih (call.draw.outcome w) (ht.2 _) (c := c₁) (by rw [hinj₁]; exact hdone)
      rw [hans₁] at hrun hA
      refine ⟨c', ?_, hall, hA, by simpa using hext₁.trans hext⟩
      rw [run, hres]
      exact hrun
    · exact ⟨c, rfl, hdone, rfl, .refl c⟩
  | ask event options next ih =>
    simp only [settle]
    split
    · exact ⟨c, rfl, hdone, rfl, .refl c⟩
    · rename_i a left hA
      obtain ⟨c', hrun, hall, hA', hext⟩ :=
        ih a (ht.2 _) (c := c.answer event a left options) hdone
      refine ⟨c', ?_, hall, hA', by simpa using (Channels.ext_answer ht.1).trans hext⟩
      rw [run, hA]
      exact hrun

theorem run_free {t : Turn σ} (ht : t.Over (·.Sound aggregate) CatA)
    (hdone : c.injection.all (·.consumed)) :
    ∃ r c' vs, t.run c = .ok (r, c') ∧ c'.injection.all (·.consumed) ∧ c.Ext c' vs := by
  induction t generalizing c with
  | done s => exact ⟨_, c, [], rfl, hdone, .refl c⟩
  | draw call next ih =>
    have hres : ∃ v c₁ vs, call.draw.resolve c = .ok (v, c₁) ∧ c₁.injection = c.injection ∧
        c.Ext c₁ vs := by
      cases hsat : call.draw.saturated with
      | some w =>
        obtain ⟨c₁, hres, hinj₁, _, hext₁⟩ := Draw.resolve_saturated (c := c) hsat
        exact ⟨w, c₁, [], hres, hinj₁, hext₁⟩
      | none =>
        obtain ⟨c₁, hres, hinj₁, _, _, hext₁⟩ := Draw.resolve_free (ht.1.proper hsat) hsat
          (ht.1.separated hsat _ (.inl rfl)) hdone
        exact ⟨_, c₁, _, hres, hinj₁, hext₁⟩
    obtain ⟨v, c₁, vs, hres, hinj₁, hext₁⟩ := hres
    obtain ⟨r, c', ws, hrun, hall, hext⟩ :=
      ih (call.draw.outcome v) (ht.2 _) (c := c₁) (by rw [hinj₁]; exact hdone)
    refine ⟨r, c', vs ++ ws, ?_, hall, hext₁.trans hext⟩
    rw [run, hres]
    exact hrun
  | ask event options next ih =>
    cases hA : c.answers event with
    | nil => exact ⟨.paused event options, c, [], by rw [run, hA], hdone, .refl c⟩
    | cons a left =>
      obtain ⟨r, c', vs, hrun, hall, hext⟩ :=
        ih a (ht.2 _) (c := c.answer event a left options) hdone
      refine ⟨r, c', vs, ?_, hall, by simpa using (Channels.ext_answer ht.1).trans hext⟩
      rw [run, hA]
      exact hrun

end Turn

end NuzlockeSolver
