import NuzlockeSolver.Sweep.HpFilter

/-!
# Pruning by the changes that are seen

The bar has one entry for each change that moves its reading. The pruning pairs the entries with
the hits by position and adds up the damage from the last heal that was seen, so the true damages
survive as long as no change goes unseen before a hit that is seen. On the player's exact readings
this is also necessary.
-/

namespace NuzlockeSolver

theorem exists_of_mem_damageCombos {allowed : List Int → Int → Bool} {sets : List (List Int)}
    {partials : List (List Int)} {x : List Int} (h : x ∈ damageCombos allowed partials sets) :
    ∃ done ∈ partials, ∃ ds, x = done ++ ds ∧ List.Forall₂ (fun d s => d ∈ s) ds sets ∧
      ∀ l d r, ds = l ++ d :: r → allowed (done ++ l) d = true := by
  induction sets generalizing partials with
  | nil => exact ⟨x, h, [], (List.append_nil x).symm, .nil, by simp⟩
  | cons dmgs sets ih =>
    rw [damageCombos] at h
    obtain ⟨done, hdone, ds, rfl, hmem, hall⟩ := ih h
    obtain ⟨p, hp, hdone⟩ := List.mem_flatMap.1 hdone
    obtain ⟨d, hd, rfl⟩ := List.mem_map.1 hdone
    obtain ⟨hd, hallowed⟩ := List.mem_filter.1 hd
    refine ⟨p, hp, d :: ds, by simp, .cons hd hmem, fun l d' r hsplit => ?_⟩
    cases l with
    | nil =>
      obtain ⟨rfl, -⟩ := List.cons.inj hsplit
      simpa using hallowed
    | cons e l =>
      obtain ⟨rfl, htail⟩ := List.cons.inj hsplit
      simpa using hall l d' r htail

namespace HpChange

def amount : HpChange → Int
  | .hit d => d
  | .heal a => a

end HpChange

section VisibleChanges

variable (side : Nat) (maxHp : Int)

def hpAfter (h : Int) : HpChange → Int
  | .hit d => max 0 (h - d)
  | .heal a => if h ≤ 0 then h else min maxHp (h + a)

def hpsFrom : Int → List HpChange → List Int
  | _, [] => []
  | h, c :: changes => hpAfter maxHp h c :: hpsFrom (hpAfter maxHp h c) changes

def visibleDeltas (h : Int) (changes : List HpChange) : List (Int × Int) :=
  (deltasFrom (reading side maxHp) h (hpsFrom maxHp h changes)).filter fun delta =>
    delta.1 ≠ delta.2

/-- The product that the readings prune still contains the true damages. -/
def KeepsTruth (h : Int) (changes : List HpChange) (sets : List (List Int)) : Prop :=
  hitDamages changes ∈ damageCombos
    (hitAllowed (segmentHpDeltasIntoHits (visibleDeltas side maxHp h changes)) (side != 0) maxHp)
    [[]] sets

/-- No hit moves the reading. -/
def HitsUnseen : Int → List HpChange → Prop
  | _, [] => True
  | h, .hit d :: changes =>
    reading side maxHp (hpAfter maxHp h (.hit d)) = reading side maxHp h ∧
      HitsUnseen (hpAfter maxHp h (.hit d)) changes
  | h, .heal a :: changes => HitsUnseen (hpAfter maxHp h (.heal a)) changes

def ReadExactly (h : Int) : Prop := side = 0 ∨ ReadsBack h maxHp

/-- The HP that the damages are counted from: those at the last heal that was seen, or at the start.
They are lost when a heal goes unseen after a hit was counted. -/
inductive Anchor
  | fresh (hp : Int)
  | counted (hp : Int)
  | lost

namespace Anchor

def hp? : Anchor → Option Int
  | fresh hp => some hp
  | counted hp => some hp
  | lost => none

def count : Anchor → Anchor
  | fresh hp => counted hp
  | anchor => anchor

def healedUnseen (h : Int) : Anchor → Anchor
  | fresh _ => fresh h
  | _ => lost

end Anchor

/-- Every hit that is seen comes after hits that are seen, and is counted from an anchor that was not
lost; the HP at the anchor and after the hit are read back. After an unseen hit no other is seen,
of the `later` ones neither. -/
def Tracked (later : List HpChange) : Anchor → Int → List HpChange → Prop
  | _, _, [] => True
  | anchor, h, .hit d :: changes =>
    if reading side maxHp (hpAfter maxHp h (.hit d)) = reading side maxHp h then
      HitsUnseen side maxHp (hpAfter maxHp h (.hit d)) (changes ++ later)
    else
      (∃ H, anchor.hp? = some H ∧ ReadExactly side maxHp H) ∧
        ReadExactly side maxHp (hpAfter maxHp h (.hit d)) ∧
          Tracked later anchor.count (hpAfter maxHp h (.hit d)) changes
  | anchor, h, .heal a :: changes =>
    if reading side maxHp (hpAfter maxHp h (.heal a)) = reading side maxHp h then
      Tracked later
        (if hpAfter maxHp h (.heal a) = h then anchor
          else anchor.healedUnseen (hpAfter maxHp h (.heal a)))
        (hpAfter maxHp h (.heal a)) changes
    else
      Tracked later (.fresh (hpAfter maxHp h (.heal a))) (hpAfter maxHp h (.heal a)) changes

variable {side maxHp}

/-- The HP stay in range and the amounts are not negative. -/
def InRange (maxHp h : Int) (changes : List HpChange) : Prop :=
  (0 ≤ h ∧ h ≤ maxHp) ∧ ∀ c ∈ changes, 0 ≤ c.amount

section Steps

variable {h : Int} {changes : List HpChange}

theorem visibleDeltas_cons (c : HpChange) :
    visibleDeltas side maxHp h (c :: changes) =
      if reading side maxHp (hpAfter maxHp h c) = reading side maxHp h then
        visibleDeltas side maxHp (hpAfter maxHp h c) changes
      else
        (reading side maxHp h, reading side maxHp (hpAfter maxHp h c)) ::
          visibleDeltas side maxHp (hpAfter maxHp h c) changes := by
  rw [visibleDeltas, hpsFrom, deltasFrom]
  by_cases hsame : reading side maxHp (hpAfter maxHp h c) = reading side maxHp h
  · rw [if_pos hsame, List.filter_cons_of_neg (by simpa using hsame.symm)]
    rfl
  · rw [if_neg hsame, List.filter_cons_of_pos (by simpa using Ne.symm hsame)]
    rfl

theorem hpAfter_hit_le {d : Int} (h0 : 0 ≤ h) (hd : 0 ≤ d) : hpAfter maxHp h (.hit d) ≤ h :=
  max_le h0 (by omega)

theorem le_hpAfter_heal {a : Int} (hle : h ≤ maxHp) (ha : 0 ≤ a) :
    h ≤ hpAfter maxHp h (.heal a) := by
  rw [hpAfter]
  split
  · exact le_rfl
  · exact le_min hle (by omega)

theorem InRange.tail {c : HpChange} (hr : InRange maxHp h (c :: changes)) :
    InRange maxHp (hpAfter maxHp h c) changes := by
  obtain ⟨⟨h0, hle⟩, hamount⟩ := hr
  have hc := hamount c List.mem_cons_self
  refine ⟨?_, fun c' hc' => hamount c' (List.mem_cons_of_mem _ hc')⟩
  cases c with
  | hit d => exact ⟨le_max_left _ _, (hpAfter_hit_le h0 hc).trans hle⟩
  | heal a =>
    refine ⟨h0.trans (le_hpAfter_heal hle hc), ?_⟩
    rw [hpAfter]
    split
    · exact hle
    · exact min_le_left _ _

theorem not_reading_lt_hit (hM : 1 ≤ maxHp) {d : Int} (h0 : 0 ≤ h) (hd : 0 ≤ d) :
    ¬ reading side maxHp h < reading side maxHp (hpAfter maxHp h (.hit d)) :=
  not_lt.2 (reading_mono hM (hpAfter_hit_le h0 hd))

theorem reading_lt_heal (hM : 1 ≤ maxHp) {a : Int} (hle : h ≤ maxHp) (ha : 0 ≤ a)
    (hseen : reading side maxHp (hpAfter maxHp h (.heal a)) ≠ reading side maxHp h) :
    reading side maxHp h < reading side maxHp (hpAfter maxHp h (.heal a)) :=
  lt_of_le_of_ne (reading_mono hM (le_hpAfter_heal hle ha)) (Ne.symm hseen)

theorem ReadExactly.seenRight (hM : 1 ≤ maxHp) (h0 : 0 ≤ h) (hle : h ≤ maxHp)
    (hread : ReadExactly side maxHp h) : SeenRight side maxHp h :=
  hread.imp_right (inHpRange_hpToK hM h0 hle).2

theorem segmentFrom_of_hitsUnseen (hM : 1 ≤ maxHp) {A : Int} {start n : ℕ}
    (hr : InRange maxHp h changes) (hunseen : HitsUnseen side maxHp h changes) :
    segmentFrom A start n (visibleDeltas side maxHp h changes) = [] := by
  induction changes generalizing h A start with
  | nil => rfl
  | cons c changes ih =>
    rw [visibleDeltas_cons]
    cases c with
    | hit d =>
      obtain ⟨hsame, hrest⟩ := hunseen
      rw [if_pos hsame]
      exact ih hr.tail hrest
    | heal a =>
      have ha : 0 ≤ a := hr.2 (.heal a) List.mem_cons_self
      split
      · exact ih hr.tail hunseen
      · rename_i hseen
        rw [segmentFrom, if_pos (reading_lt_heal hM hr.1.2 ha hseen)]
        exact ih hr.tail hunseen

end Steps

section Truth

variable {h A : Int} {changes later : List HpChange} {start : ℕ} {done : List Int}
  {pre : List HitConstraint}

theorem hitAllowed_of_length_le {constraints : List HitConstraint} {l : List Int}
    (hlen : constraints.length ≤ l.length) (useHpRange : Bool) (d : Int) :
    hitAllowed constraints useHpRange maxHp l d = true := by
  rw [hitAllowed, List.getElem?_eq_none hlen]

/-- Between two changes: an anchor that is kept is the HP at the segment's start, less the damages
counted since. -/
structure Anchored (side : ℕ) (maxHp A : Int) (start : ℕ) (done : List Int) (anchor : Anchor)
    (h : Int) : Prop where
  kept : ∀ H, anchor.hp? = some H → A = reading side maxHp H ∧ (0 ≤ H ∧ H ≤ maxHp) ∧
    h = max 0 (H - (done.drop start).sum)
  fresh : ∀ H, anchor = .fresh H → H = h ∧ done.length ≤ start

theorem anchored_fresh (h0 : 0 ≤ h) (hle : h ≤ maxHp) :
    Anchored side maxHp (reading side maxHp h) done.length done (.fresh h) h where
  kept H hH := by
    obtain rfl := Option.some.inj hH
    exact ⟨rfl, ⟨h0, hle⟩, by rw [List.drop_length, List.sum_nil, sub_zero, max_eq_right h0]⟩
  fresh H hH := by
    obtain rfl := Anchor.fresh.inj hH
    exact ⟨rfl, le_rfl⟩

theorem hp?_count (anchor : Anchor) : anchor.count.hp? = anchor.hp? := by
  cases anchor <;> rfl

theorem Anchored.hit {anchor : Anchor} (hA : Anchored side maxHp A start done anchor h)
    (hstart : start ≤ done.length) {d : Int} (hd : 0 ≤ d) :
    Anchored side maxHp A start (done ++ [d]) anchor.count (hpAfter maxHp h (.hit d)) where
  kept H hH := by
    obtain ⟨hread, hrange, heq⟩ := hA.kept H ((hp?_count anchor).symm.trans hH)
    refine ⟨hread, hrange, ?_⟩
    rw [List.drop_append_of_le_length hstart, List.sum_append, hpAfter, heq, List.sum_cons,
      List.sum_nil]
    omega
  fresh H hH := by
    cases anchor <;> cases hH

theorem Anchored.healedUnseen {anchor : Anchor} {h' : Int}
    (hA : Anchored side maxHp A start done anchor h) (h0 : 0 ≤ h') (hle : h' ≤ maxHp)
    (hsame : reading side maxHp h' = reading side maxHp h) :
    Anchored side maxHp A start done (anchor.healedUnseen h') h' := by
  cases anchor with
  | fresh H =>
    obtain ⟨rfl, hstart⟩ := hA.fresh H rfl
    refine ⟨fun H' hH' => ?_, fun H' hH' => ?_⟩
    · obtain rfl := Option.some.inj hH'
      refine ⟨(hA.kept H rfl).1.trans hsame.symm, ⟨h0, hle⟩, ?_⟩
      rw [List.drop_eq_nil_of_le hstart, List.sum_nil, sub_zero, max_eq_right h0]
    · obtain rfl := Anchor.fresh.inj hH'
      exact ⟨rfl, hstart⟩
  | counted H => exact ⟨fun _ hH => (by cases hH), fun _ hH => (by cases hH)⟩
  | lost => exact ⟨fun _ hH => (by cases hH), fun _ hH => (by cases hH)⟩

variable (done pre) in
/-- Every hit of a tracked turn passes, by induction on its changes: `done` are the damages so far
and `pre` the constraints so far. -/
theorem hitAllowed_tracked (hM : 1 ≤ maxHp) {anchor : Anchor} (hstart : start ≤ done.length)
    (hlen : pre.length = done.length) (hr : InRange maxHp h (changes ++ later))
    (hA : Anchored side maxHp A start done anchor h)
    (htracked : Tracked side maxHp later anchor h changes) (l : List Int) (d : Int) (r : List Int)
    (hsplit : hitDamages changes = l ++ d :: r) :
    hitAllowed
      (pre ++ segmentFrom A start done.length (visibleDeltas side maxHp h (changes ++ later)))
      (side != 0) maxHp (done ++ l) d = true := by
  induction changes generalizing h A start done pre anchor l with
  | nil =>
    rw [hitDamages, List.filterMap_nil] at hsplit
    exact absurd hsplit.symm (List.append_ne_nil_of_right_ne_nil _ (List.cons_ne_nil _ _))
  | cons c changes ih =>
    cases c with
    | hit d₀ =>
      rw [List.cons_append] at hr
      have hd₀ : 0 ≤ d₀ := hr.2 (.hit d₀) List.mem_cons_self
      rw [Tracked] at htracked
      rw [List.cons_append, visibleDeltas_cons]
      by_cases hsame : reading side maxHp (hpAfter maxHp h (.hit d₀)) = reading side maxHp h
      · rw [if_pos hsame] at htracked
        rw [if_pos hsame, segmentFrom_of_hitsUnseen hM hr.tail htracked, List.append_nil]
        exact hitAllowed_of_length_le (by simp [hlen]) _ d
      · rw [if_neg hsame] at htracked
        obtain ⟨⟨H, hsome, hH⟩, hnew, htracked⟩ := htracked
        obtain ⟨rfl, hHr, heq⟩ := hA.kept H hsome
        have hsum : hpAfter maxHp h (.hit d₀) = max 0 (H - ((done.drop start).sum + d₀)) := by
          rw [hpAfter, heq]
          omega
        rw [if_neg hsame, segmentFrom, if_neg (not_reading_lt_hit hM hr.1.1 hd₀)]
        cases l with
        | nil =>
          obtain rfl : d₀ = d := (List.cons.inj hsplit).1
          rw [hitAllowed, List.append_nil, List.getElem?_append_right (le_of_eq hlen), hlen,
            Nat.sub_self, List.getElem?_cons_zero]
          exact hitPassesConstraint_true (hH.seenRight hM hHr.1 hHr.2)
            (hnew.seenRight hM hr.tail.1.1 hr.tail.1.2) hsum
        | cons d₁ l =>
          obtain ⟨rfl, htail⟩ := List.cons.inj hsplit
          have hstart' : start ≤ (done ++ [d₀]).length := by
            rw [List.length_append]
            omega
          have hrest := ih (done ++ [d₀])
            (pre ++ [⟨reading side maxHp H,
              reading side maxHp (hpAfter maxHp h (.hit d₀)), start⟩])
            hstart' (by simp [hlen]) hr.tail (hA.hit hstart hd₀) htracked l htail
          simpa using hrest
    | heal a =>
      rw [List.cons_append] at hr
      have ha : 0 ≤ a := hr.2 (.heal a) List.mem_cons_self
      rw [Tracked] at htracked
      rw [List.cons_append, visibleDeltas_cons]
      by_cases hsame : reading side maxHp (hpAfter maxHp h (.heal a)) = reading side maxHp h
      · rw [if_pos hsame] at htracked ⊢
        refine ih done pre hstart hlen hr.tail ?_ htracked l hsplit
        split
        · rename_i hunmoved
          rw [hunmoved]
          exact hA
        · exact hA.healedUnseen hr.tail.1.1 hr.tail.1.2 hsame
      · rw [if_neg hsame] at htracked ⊢
        rw [segmentFrom, if_pos (reading_lt_heal hM hr.1.2 ha hsame)]
        exact ih done pre le_rfl hlen hr.tail (anchored_fresh hr.tail.1.1 hr.tail.1.2) htracked l
          hsplit

theorem segmentFrom_head (deltas : List (Int × Int)) (hhead : ∀ d ∈ deltas.head?, d.1 = A) :
    segmentHpDeltasIntoHits deltas = segmentFrom A 0 0 deltas := by
  cases deltas with
  | nil => rfl
  | cons d deltas =>
    obtain ⟨frm, into⟩ := d
    rw [segmentHpDeltasIntoHits, show frm = A from hhead (frm, into) rfl]

theorem head?_visibleDeltas (h : Int) (changes : List HpChange) :
    ∀ d ∈ (visibleDeltas side maxHp h changes).head?, d.1 = reading side maxHp h := by
  induction changes generalizing h with
  | nil => simp [visibleDeltas, hpsFrom, deltasFrom]
  | cons c changes ih =>
    intro d hd
    rw [visibleDeltas_cons] at hd
    split at hd
    · rename_i hsame
      rw [← hsame]
      exact ih _ d hd
    · obtain rfl := Option.some.inj hd
      rfl

theorem keepsTruth_of_tracked (hM : 1 ≤ maxHp) (hr : InRange maxHp h changes)
    {sets : List (List Int)} (hsets : List.Forall₂ (fun d s => d ∈ s) (hitDamages changes) sets)
    (htracked : Tracked side maxHp [] (.fresh h) h changes) :
    KeepsTruth side maxHp h changes sets := by
  rw [KeepsTruth, segmentFrom_head _ (head?_visibleDeltas h changes)]
  apply @mem_damageCombos _ _ [] _ _ (by simp) hsets
  intro l d r hsplit
  have hallowed := hitAllowed_tracked [] [] hM le_rfl rfl ((List.append_nil changes).symm ▸ hr)
    (anchored_fresh hr.1.1 hr.1.2) htracked l d r hsplit
  rwa [List.append_nil] at hallowed

end Truth

section Player

variable {h A : Int} {changes : List HpChange} {start : ℕ} {done : List Int}
  {pre : List HitConstraint}

theorem reading_player (hp : Int) : reading 0 maxHp hp = hp := if_pos rfl

theorem hitsUnseen_of_fainted (hamount : ∀ c ∈ changes, 0 ≤ c.amount) :
    HitsUnseen 0 maxHp 0 changes := by
  induction changes with
  | nil => trivial
  | cons c changes ih =>
    have hrest := ih fun c' hc' => hamount c' (List.mem_cons_of_mem _ hc')
    cases c with
    | hit d =>
      have hd : 0 ≤ d := hamount (.hit d) List.mem_cons_self
      have hsame : hpAfter maxHp 0 (.hit d) = 0 := max_eq_left (by omega)
      rw [HitsUnseen, hsame]
      exact ⟨rfl, hrest⟩
    | heal a =>
      rw [HitsUnseen, hpAfter, if_pos le_rfl]
      exact hrest

/-- While hits go unseen on the exact readings, the next constraint is one that a hit without
damage does not meet. -/
theorem constraint_after_unseen (hr : InRange maxHp h changes) (hpos : 0 < h)
    (hsum : A - (done.drop start).sum = h) (hseen : ¬ HitsUnseen 0 maxHp h changes) :
    ∃ c, (segmentFrom A start done.length (visibleDeltas 0 maxHp h changes))[0]? = some c ∧
      hitPassesConstraint ((done.drop c.segStart).sum + 0) c.anchor c.newVal false maxHp =
        false := by
  induction changes generalizing h A start with
  | nil => exact absurd trivial hseen
  | cons change changes ih =>
    rw [visibleDeltas_cons]
    simp only [reading_player]
    cases change with
    | hit d =>
      have hd : 0 ≤ d := hr.2 (.hit d) List.mem_cons_self
      by_cases hsame : hpAfter maxHp h (.hit d) = h
      · rw [if_pos hsame]
        have hr' := hr.tail
        rw [hsame] at hr' ⊢
        refine ih hr' hpos hsum fun hunseen => hseen ?_
        rw [HitsUnseen, hsame]
        exact ⟨rfl, hunseen⟩
      · have hle : hpAfter maxHp h (.hit d) ≤ h := hpAfter_hit_le hr.1.1 hd
        rw [if_neg hsame, segmentFrom, if_neg (not_lt.2 hle)]
        refine ⟨_, rfl, ?_⟩
        simp only [hitPassesConstraint, Bool.false_eq_true, if_false]
        split
        · simp only [decide_eq_false_iff_not]
          omega
        · simp only [decide_eq_false_iff_not]
          omega
    | heal a =>
      have ha : 0 ≤ a := hr.2 (.heal a) List.mem_cons_self
      have hle : h ≤ hpAfter maxHp h (.heal a) := le_hpAfter_heal hr.1.2 ha
      by_cases hsame : hpAfter maxHp h (.heal a) = h
      · rw [if_pos hsame]
        have hr' := hr.tail
        rw [hsame] at hr' ⊢
        refine ih hr' hpos hsum fun hunseen => hseen ?_
        rw [HitsUnseen, hsame]
        exact hunseen
      · rw [if_neg hsame, segmentFrom, if_pos (by omega)]
        refine ih hr.tail (by omega) ?_ hseen
        rw [List.drop_length, List.sum_nil, sub_zero]

variable (done pre) in
theorem tracked_of_hitAllowed {anchor : Anchor} (hanchor : anchor.hp? = some A)
    (hstart : start ≤ done.length) (hlen : pre.length = done.length) (hr : InRange maxHp h changes)
    (heq : h = max 0 (A - (done.drop start).sum))
    (hall : ∀ l d r, hitDamages changes = l ++ d :: r →
      hitAllowed (pre ++ segmentFrom A start done.length (visibleDeltas 0 maxHp h changes)) false
        maxHp (done ++ l) d = true) :
    Tracked 0 maxHp [] anchor h changes := by
  induction changes generalizing h A anchor start done pre with
  | nil => trivial
  | cons change changes ih =>
    cases change with
    | hit d₀ =>
      have hd₀ : 0 ≤ d₀ := hr.2 (.hit d₀) List.mem_cons_self
      rw [Tracked]
      simp only [reading_player]
      by_cases hsame : hpAfter maxHp h (.hit d₀) = h
      · rw [if_pos hsame, hsame, List.append_nil]
        by_contra hseen
        have hpos : 0 < h := by
          rcases hr.1.1.eq_or_lt with rfl | hpos
          · exact absurd (hitsUnseen_of_fainted fun c hc =>
              hr.2 c (List.mem_cons_of_mem _ hc)) hseen
          · exact hpos
        -- the hit without damage meets the constraint of a hit that is seen
        have hzero : d₀ = 0 := by
          rw [hpAfter] at hsame
          omega
        have hr' := hr.tail
        rw [hsame] at hr'
        have hsum : A - (done.drop start).sum = h := by omega
        obtain ⟨c, hc, hfail⟩ := constraint_after_unseen hr' hpos hsum hseen
        have hpass := hall [] d₀ (hitDamages changes) rfl
        rw [visibleDeltas_cons, if_pos (by rw [hsame]), hsame, List.append_nil, hitAllowed,
          List.getElem?_append_right (le_of_eq hlen), hlen, Nat.sub_self, hc, hzero] at hpass
        dsimp only at hpass
        rw [hfail] at hpass
        cases hpass
      · rw [if_neg hsame]
        have hle : hpAfter maxHp h (.hit d₀) ≤ h := hpAfter_hit_le hr.1.1 hd₀
        refine ⟨⟨A, hanchor, .inl rfl⟩, .inl rfl, ?_⟩
        have hstart' : start ≤ (done ++ [d₀]).length := by
          rw [List.length_append]
          omega
        refine ih (done ++ [d₀])
          (pre ++ [⟨A, hpAfter maxHp h (.hit d₀), start⟩]) ((hp?_count anchor).trans hanchor)
          hstart' (by simp [hlen]) hr.tail ?_ fun l d r hsplit => ?_
        · rw [List.drop_append_of_le_length hstart, List.sum_append, hpAfter, heq]
          simp only [List.sum_cons, List.sum_nil]
          omega
        · have hpass := hall (d₀ :: l) d r (by rw [List.cons_append, ← hsplit]; rfl)
          rw [visibleDeltas_cons, if_neg (by simpa only [reading_player] using hsame), segmentFrom,
            if_neg (by simpa only [reading_player] using not_lt.2 hle)] at hpass
          simpa [reading_player] using hpass
    | heal a =>
      have ha : 0 ≤ a := hr.2 (.heal a) List.mem_cons_self
      have hle : h ≤ hpAfter maxHp h (.heal a) := le_hpAfter_heal hr.1.2 ha
      rw [Tracked]
      simp only [reading_player]
      by_cases hsame : hpAfter maxHp h (.heal a) = h
      · rw [if_pos hsame, if_pos hsame]
        refine ih done pre hanchor hstart hlen hr.tail (by rw [hsame]; exact heq) fun l d r hsplit => ?_
        have hpass := hall l d r hsplit
        rw [visibleDeltas_cons, if_pos (by rw [hsame])] at hpass
        exact hpass
      · rw [if_neg hsame]
        refine ih done pre rfl le_rfl hlen hr.tail ?_ fun l d r hsplit => ?_
        · rw [List.drop_length, List.sum_nil, sub_zero, max_eq_right hr.tail.1.1]
        · have hpass := hall l d r hsplit
          rw [visibleDeltas_cons, if_neg (by simpa only [reading_player] using hsame), segmentFrom,
            if_pos (by simp only [reading_player]; omega)] at hpass
          simpa only [reading_player] using hpass

end Player

end VisibleChanges

section Trace

variable {side : ℕ} {maxHp : Int}

def hpEnd (maxHp : Int) (h : Int) (changes : List HpChange) : Int :=
  changes.foldl (hpAfter maxHp) h

theorem reading_hpEnd (h : Int) (changes : List HpChange) :
    reading side maxHp (hpEnd maxHp h changes) =
      ((visibleDeltas side maxHp h changes).getLast?.map Prod.snd).getD (reading side maxHp h) := by
  induction changes generalizing h with
  | nil => rfl
  | cons c changes ih =>
    have hend : hpEnd maxHp h (c :: changes) = hpEnd maxHp (hpAfter maxHp h c) changes := rfl
    rw [hend, ih, visibleDeltas_cons]
    split
    · rename_i hsame
      rw [hsame]
    · rw [List.getLast?_cons]
      cases (visibleDeltas side maxHp (hpAfter maxHp h c) changes).getLast? with
      | none => rfl
      | some d => rfl

theorem segmentFrom_append_of_hitsUnseen (hM : 1 ≤ maxHp) {h : Int}
    {before changes : List HpChange} (hr : InRange maxHp h (before ++ changes))
    (hunseen : HitsUnseen side maxHp h before) :
    segmentFrom (reading side maxHp h) 0 0 (visibleDeltas side maxHp h (before ++ changes)) =
      segmentFrom (reading side maxHp (hpEnd maxHp h before)) 0 0
        (visibleDeltas side maxHp (hpEnd maxHp h before) changes) := by
  induction before generalizing h with
  | nil => rfl
  | cons c before ih =>
    rw [List.cons_append] at hr
    rw [List.cons_append, visibleDeltas_cons]
    have hend : hpEnd maxHp h (c :: before) = hpEnd maxHp (hpAfter maxHp h c) before := rfl
    rw [hend]
    cases c with
    | hit d =>
      obtain ⟨hsame, hrest⟩ := hunseen
      rw [if_pos hsame, ← hsame]
      exact ih hr.tail hrest
    | heal a =>
      have ha : 0 ≤ a := hr.2 (.heal a) List.mem_cons_self
      split
      · rename_i hsame
        rw [← hsame]
        exact ih hr.tail hunseen
      · rename_i hseen
        rw [segmentFrom, if_pos (reading_lt_heal hM hr.1.2 ha hseen)]
        exact ih hr.tail hunseen

theorem InRange.drop {h : Int} {before changes : List HpChange}
    (hr : InRange maxHp h (before ++ changes)) : InRange maxHp (hpEnd maxHp h before) changes := by
  induction before generalizing h with
  | nil => exact hr
  | cons c before ih => exact ih hr.tail

/-- The HP of one mon over the turn. -/
structure HpTrace where
  maxHp : Int
  start : Int
  changes : List HpChange
  maxHp_pos : 1 ≤ maxHp
  inRange : InRange maxHp start changes

namespace HpTrace

def final (τ : HpTrace) : Int := hpEnd τ.maxHp τ.start τ.changes

/-- The record that the camera makes of the trace. -/
structure Recorded (speciesName : Int → String) (st : SweepResult) (record : HpDeltaSeq)
    (τ : HpTrace) : Prop where
  maxHp_eq : record.maxHp = τ.maxHp
  deltas_eq : record.deltas = visibleDeltas record.side τ.maxHp τ.start τ.changes
  seen : record.deltas ≠ []
  /-- the record is resolved to the mon of the trace -/
  resolved : ∃ teamIdx, st.resolveRecordTeamIdx speciesName record
    (reading record.side τ.maxHp τ.final) = .ok teamIdx ∧
      ((st.side record.side).team[teamIdx]?).map SweepMon.hp = some τ.final

variable {speciesName : Int → String} {st : SweepResult}

theorem final_inRange (τ : HpTrace) : 0 ≤ τ.final ∧ τ.final ≤ τ.maxHp := by
  have hfinal : InRange τ.maxHp τ.final [] :=
    InRange.drop (by rw [List.append_nil]; exact τ.inRange)
  exact hfinal.1

theorem Recorded.getLast? {record : HpDeltaSeq} {τ : HpTrace}
    (hr : Recorded speciesName st record τ) :
    ∃ k, record.deltas.getLast? = some (k, reading record.side τ.maxHp τ.final) := by
  have hread : reading record.side τ.maxHp (hpEnd τ.maxHp τ.start τ.changes) = _ :=
    reading_hpEnd τ.start τ.changes
  rw [← hr.deltas_eq] at hread
  obtain ⟨d, hd⟩ := Option.ne_none_iff_exists'.1
    (fun hnone => hr.seen (List.getLast?_eq_none_iff.1 hnone))
  rw [hd] at hread
  exact ⟨d.1, by rw [hd, final, hread]; rfl⟩

/-- The records of a turn match the state it ends in when every opponent's final HP are read
back, and only then. -/
theorem hpMatchDetail_recorded {truth : List (HpDeltaSeq × HpTrace)}
    (hrec : ∀ rt ∈ truth, Recorded speciesName st rt.1 rt.2) : ∃ matched reason,
    st.hpMatchDetail speciesName (truth.map Prod.fst) = .ok (matched, reason) ∧
      (matched = true ↔ ∀ rt ∈ truth, rt.1.side ≠ 0 → ReadsBack rt.2.final rt.2.maxHp) := by
  induction truth with
  | nil => exact ⟨true, none, rfl, by simp⟩
  | cons rt truth ih =>
    obtain ⟨record, τ⟩ := rt
    have hr : Recorded speciesName st record τ := hrec (record, τ) List.mem_cons_self
    obtain ⟨matched, reason, hrest, hiff⟩ := ih fun rt h => hrec rt (List.mem_cons_of_mem _ h)
    obtain ⟨k, hlast⟩ := hr.getLast?
    obtain ⟨teamIdx, hidx, hhp⟩ := hr.resolved
    rw [List.map_cons, SweepResult.hpMatchDetail, hlast]
    change ∃ matched reason, (st.resolveRecordTeamIdx speciesName record
      (reading record.side τ.maxHp τ.final) >>= _) = _ ∧ _
    rw [hidx, ok_bind, hhp, Option.getD_some]
    by_cases hside : record.side = 0
    · rw [if_pos hside, if_neg (by rw [hside]; simp [reading])]
      refine ⟨matched, reason, hrest, hiff.trans ⟨fun h rt hrt => ?_, fun h rt hrt =>
        h rt (List.mem_cons_of_mem _ hrt)⟩⟩
      rcases List.mem_cons.1 hrt with rfl | hrt
      · exact fun hne => absurd hside hne
      · exact h rt hrt
    · have hback := inHpRange_hpToK τ.maxHp_pos τ.final_inRange.1 τ.final_inRange.2
      have hreading : reading record.side τ.maxHp τ.final = hpToK τ.final τ.maxHp := if_neg hside
      rw [if_neg hside, hreading, hr.maxHp_eq]
      by_cases hin : (hpRange (hpToK τ.final τ.maxHp) τ.maxHp).1 ≤ τ.final ∧
          τ.final ≤ (hpRange (hpToK τ.final τ.maxHp) τ.maxHp).2
      · rw [if_neg (not_not.2 hin)]
        refine ⟨matched, reason, hrest, hiff.trans ⟨fun h rt hrt => ?_, fun h rt hrt =>
          h rt (List.mem_cons_of_mem _ hrt)⟩⟩
        rcases List.mem_cons.1 hrt with rfl | hrt
        · exact fun _ => hback.1 hin
        · exact h rt hrt
      · rw [if_pos hin]
        exact ⟨false, _, rfl, fun h => absurd h Bool.false_ne_true, fun h =>
          absurd (hback.2 (h (record, τ) List.mem_cons_self hside)) hin⟩

theorem mem_hpFilter_iff {hpDeltas : List HpDeltaSeq} {matched : Bool} {reason : Option String}
    (hmatch : st.hpMatchDetail speciesName hpDeltas = .ok (matched, reason)) :
    (∀ survivors kept, st ∈ survivors →
      SweepResult.hpFilter speciesName hpDeltas survivors = .ok kept → st ∈ kept) ↔
      matched = true := by
  constructor
  · intro h
    by_contra hdrop
    have hkept : SweepResult.hpFilter speciesName hpDeltas [st] = .ok [] := by
      rw [SweepResult.hpFilter, hmatch, ok_bind, SweepResult.hpFilter, ok_bind, if_neg hdrop]
    exact absurd (h [st] [] List.mem_cons_self hkept) List.not_mem_nil
  · rintro rfl survivors
    induction survivors with
    | nil => exact fun _ hmem => absurd hmem List.not_mem_nil
    | cons s survivors ih =>
      intro kept hmem h
      obtain ⟨verdict, hv, h⟩ := bind_eq_ok.1 h
      obtain ⟨rest, hrest, h⟩ := bind_eq_ok.1 h
      cases h
      rcases List.mem_cons.1 hmem with rfl | hmem
      · obtain rfl := Except.ok.inj (hmatch.symm.trans hv)
        simp
      · split
        · exact List.mem_cons_of_mem _ (ih rest hmem hrest)
        · exact ih rest hmem hrest

/-- The damages of a mover survive the pruning when nothing before its hits was counted as one and
they are tracked. -/
theorem Recorded.hitDamages_survive {record : HpDeltaSeq} {τ : HpTrace}
    (hr : Recorded speciesName st record τ) {before own later : List HpChange}
    (hsplit : τ.changes = before ++ (own ++ later)) {sets : List (List Int)}
    (hsets : List.Forall₂ (fun d s => d ∈ s) (hitDamages own) sets)
    (hunseen : HitsUnseen record.side τ.maxHp τ.start before)
    (htracked : Tracked record.side τ.maxHp later (.fresh (hpEnd τ.maxHp τ.start before))
      (hpEnd τ.maxHp τ.start before) own) :
    hitDamages own ∈ damageCombos
      (hitAllowed (segmentHpDeltasIntoHits record.deltas) (record.side != 0) record.maxHp)
      [[]] sets := by
  have hrange := τ.inRange
  rw [hsplit] at hrange
  rw [hr.maxHp_eq, hr.deltas_eq, segmentFrom_head _ (head?_visibleDeltas τ.start τ.changes),
    hsplit, segmentFrom_append_of_hitsUnseen τ.maxHp_pos hrange hunseen]
  apply @mem_damageCombos _ _ [] _ _ (by simp) hsets
  intro l d r hd
  exact hitAllowed_tracked [] [] τ.maxHp_pos le_rfl rfl hrange.drop
    (anchored_fresh hrange.drop.1.1 hrange.drop.1.2) htracked l d r hd

end HpTrace

def foeTrace (damage : Int) (h0 : 0 ≤ damage) : HpTrace where
  maxHp := 100
  start := 80
  changes := [.hit damage]
  maxHp_pos := by norm_num
  inRange := ⟨⟨by norm_num, by norm_num⟩, fun c hc => (List.mem_singleton.1 hc).symm ▸ h0⟩

def foeAt (hp : Int) : SweepResult := ⟨⟨[⟨25, 60⟩], [0]⟩, ⟨[⟨7, hp⟩], [0]⟩⟩

def foeRecord (k : Int) : HpDeltaSeq := ⟨1, 7, 0, [(38, k)], 100⟩

end Trace

end NuzlockeSolver
