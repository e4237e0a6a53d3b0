import NuzlockeSolver.Emulator.Lockstep

/-!
# What a call returns

A call takes the first message that is complete in its stream, whatever else happens. A command gets
its own response exactly when no key was pressed before the script had received it; otherwise it
takes the event for its response, and a command without a result takes it for a success.
-/

namespace NuzlockeSolver.Emulator

section First

variable {M : Type} {H : Handler M} {s s' t : Session M} {c : Call} {raw : List UInt8}

/-- The call waits, and `raw` is the first message in its stream. -/
def Awaits (c : Call) (raw : List UInt8) (log : List (Call × Reply)) (s : Session M) : Prop :=
  s.log = log ∧ ∃ buf rest, s.calling = some (c, buf) ∧ DELIMITER.Clean buf ∧
    buf ++ s.toClient = raw ++ (DELIMITER.word ++ rest)

theorem toClient_serveFrame (n : Nat) : s.toClient <+: (s.serveFrame H n).toClient :=
  List.prefix_append _ _

theorem Awaits.of_prefix {log : List (Call × Reply)} (h : Awaits c raw log s)
    (hlog : s'.log = s.log) (hcalling : s'.calling = s.calling)
    (hmore : s.toClient <+: s'.toClient) :
    Awaits c raw log s' := by
  obtain ⟨hlog', buf, rest, hwait, hclean, hstream⟩ := h
  obtain ⟨more, hmore⟩ := hmore
  refine ⟨hlog.trans hlog', buf, rest ++ more, hcalling.trans hwait, hclean, ?_⟩
  rw [← hmore, ← List.append_assoc, hstream, List.append_assoc, List.append_assoc]

theorem Awaits.step {log : List (Call × Reply)} {l : Label} (h : Awaits c raw log s)
    (hraw : DELIMITER.Clean raw) (hl : l ≠ .timeout) (hstep : step H l s = some s') :
    Awaits c raw log s' ∨
      ∃ r, s'.log = log ++ [(c, r)] ∧ (r = .message raw ∨ r = .closed) := by
  obtain ⟨rfl, buf, rest, hwait, hclean, hstream⟩ := id h
  cases l with
  | call c' =>
    simp only [Emulator.step, hwait, reduceCtorEq, if_false] at hstep
  | recv n =>
    simp only [Emulator.step, hwait, Option.bind_some] at hstep
    split at hstep
    · cases hstep
      obtain ⟨heq, hpiece⟩ | ⟨heq, -⟩ := receive_cases (n := n) (c := c) hraw hstream
      · rw [heq]
        refine .inl ⟨rfl, _, rest, rfl, hpiece, ?_⟩
        rw [List.append_assoc, List.take_append_drop, hstream]
      · rw [heq]
        exact .inr ⟨_, rfl, .inl rfl⟩
    · cases hstep
  | timeout => exact absurd rfl hl
  | eof =>
    simp only [Emulator.step, hwait, Option.map_some] at hstep
    split at hstep
    · cases hstep
      exact .inr ⟨_, rfl, .inr rfl⟩
    · cases hstep
  | frame n =>
    simp only [Emulator.step] at hstep
    split at hstep
    · split at hstep
      · cases hstep
        exact .inl (h.of_prefix rfl rfl (List.prefix_refl _))
      · cases hstep
    · split at hstep
      · cases hstep
        exact .inl (h.of_prefix rfl rfl (toClient_serveFrame n))
      · cases hstep
    · cases hstep
  | key k =>
    cases hstep
    split
    · exact .inl (h.of_prefix rfl rfl (List.prefix_append _ _))
    · exact .inl h

theorem log_step {l : Label} (h : step H l s = some s') : s.log <+: s'.log := by
  cases l with
  | call c =>
    simp only [Emulator.step] at h
    split at h
    · cases h
      exact List.prefix_refl _
    · cases h
  | recv n =>
    obtain ⟨wait, hcalling, h⟩ := Option.bind_eq_some_iff.1 h
    split at h
    · cases h
      unfold Session.receive
      dsimp only
      split
      · exact List.prefix_refl _
      · exact List.prefix_append _ _
    · cases h
  | timeout =>
    obtain ⟨wait, hcalling, rfl⟩ := Option.map_eq_some_iff.1 h
    exact List.prefix_append _ _
  | eof =>
    simp only [Emulator.step] at h
    split at h
    · obtain ⟨wait, hcalling, rfl⟩ := Option.map_eq_some_iff.1 h
      exact List.prefix_append _ _
    · cases h
  | frame n =>
    simp only [Emulator.step] at h
    split at h
    · split at h
      · cases h
        exact List.prefix_refl _
      · cases h
    · split at h
      · cases h
        exact List.prefix_refl _
      · cases h
    · cases h
  | key k =>
    cases h
    split <;> exact List.prefix_refl _

theorem log_run {ls : List Label} (h : run H ls s = some t) : s.log <+: t.log := by
  induction ls generalizing s with
  | nil =>
    cases h
    exact List.prefix_refl _
  | cons l ls ih =>
    obtain ⟨s₁, hstep, h⟩ := Option.bind_eq_some_iff.1 h
    exact (log_step hstep).trans (ih h)

/-- What holds of a waiting session until its call returns decides what the call returns. -/
theorem returns_of_waiting {P : Session M → Prop} {Q : Reply → Prop} {log : List (Call × Reply)}
    (hlog : ∀ {s}, P s → s.log = log)
    (hstep : ∀ {s l s'}, P s → l ≠ .timeout → step H l s = some s' →
      P s' ∨ ∃ r, s'.log = log ++ [(c, r)] ∧ Q r)
    (h : P s) {ls : List Label} (hls : .timeout ∉ ls) (hrun : run H ls s = some t) {r : Reply}
    (hreturn : log ++ [(c, r)] <+: t.log) : Q r := by
  induction ls generalizing s with
  | nil =>
    cases hrun
    rw [hlog h] at hreturn
    have hlength := hreturn.length_le
    rw [List.length_append] at hlength
    exact absurd hlength (Nat.not_succ_le_self _)
  | cons l ls ih =>
    obtain ⟨s₁, hfirst, hrun⟩ := Option.bind_eq_some_iff.1 hrun
    have hl : l ≠ .timeout := fun heq => hls (heq ▸ List.mem_cons_self)
    obtain h₁ | ⟨r', hlog', hr'⟩ := hstep h hl hfirst
    · exact ih h₁ (fun hmem => hls (List.mem_cons_of_mem l hmem)) hrun
    · have hprefix : log ++ [(c, r')] <+: t.log := hlog' ▸ log_run hrun
      have heq : log ++ [(c, r')] = log ++ [(c, r)] :=
        (List.prefix_of_prefix_length_le hprefix hreturn (by simp)).eq_of_length (by simp)
      obtain rfl : r' = r := by simpa using heq
      exact hr'

/-- A call that returns takes the first message of its stream, unless the connection is reset. -/
theorem Awaits.run {log : List (Call × Reply)} {ls : List Label} (h : Awaits c raw log s)
    (hraw : DELIMITER.Clean raw) (hls : .timeout ∉ ls) (hrun : run H ls s = some t)
    {r : Reply} (hreturn : log ++ [(c, r)] <+: t.log) (hr : r ≠ .closed) : r = .message raw :=
  (returns_of_waiting (fun (h : Awaits c raw log _) => h.1)
    (fun (h : Awaits c raw log _) hl hstep => h.step hraw hl hstep) h hls hrun
    hreturn).resolve_right hr

structure Lost (c : Call) (log : List (Call × Reply)) (s : Session M) : Prop where
  calling : ∃ buf, s.calling = some (c, buf)
  log : s.log = log
  toClient : s.toClient = []
  link : s.link = .closed

theorem Lost.step {log : List (Call × Reply)} {l : Label} (h : Lost c log s) (hl : l ≠ .timeout)
    (hstep : step H l s = some s') :
    Lost c log s' ∨ ∃ r, s'.log = log ++ [(c, r)] ∧ r = .closed := by
  obtain ⟨buf, hcalling⟩ := h.calling
  cases l with
  | call c' => simp only [Emulator.step, hcalling, reduceCtorEq, if_false] at hstep
  | recv n =>
    simp only [Emulator.step, hcalling, h.toClient, Option.bind_some, List.length_nil] at hstep
    split at hstep
    · omega
    · cases hstep
  | timeout => exact absurd rfl hl
  | eof =>
    simp only [Emulator.step, hcalling, h.link, if_true, Option.map_some] at hstep
    cases hstep
    exact .inr ⟨_, congrArg (· ++ _) h.log, rfl⟩
  | frame n => simp only [Emulator.step, h.link, reduceCtorEq] at hstep
  | key k =>
    simp only [Emulator.step, h.link, reduceCtorEq, if_false] at hstep
    cases hstep
    exact .inl h

/-- A key is pressed before the script has received the `left` bytes of a command that it lacks. -/
def keyFirst : Nat → List Label → Bool
  | _, [] => false
  | _, .key _ :: _ => true
  | left, .frame n :: ls => if n < left then keyFirst (left - n) ls else false
  | left, _ :: ls => keyFirst left ls

structure Sent (text : List UInt8) (log : List (Call × Reply)) (s : Session M) : Prop where
  calling : s.calling = some (.command text, [])
  log : s.log = log
  toClient : s.toClient = []
  clean : DELIMITER.Clean text
  stream : s.buffer ++ s.toServer = text ++ DELIMITER.word
  link : s.link = .accepted

theorem Sent.press {text : List UInt8} {log : List (Call × Reply)} (h : Sent text log s)
    (k : HostKey) : Awaits (.command text) k.raw log (s.pushEvent k) := by
  refine ⟨h.log, [], [], h.calling, Delimiter.clean_nil, ?_⟩
  change [] ++ (s.toClient ++ (k.raw ++ DELIMITER.word)) = k.raw ++ (DELIMITER.word ++ [])
  rw [h.toClient, List.append_nil, List.nil_append, List.nil_append]

theorem Sent.answered {text raw : List UInt8} {log : List (Call × Reply)} (h : Sent text log s)
    {emu : M} : Awaits (.command text) raw log { s with
      emu := emu
      toServer := []
      toClient := s.toClient ++ (raw ++ DELIMITER.word)
      buffer := []
      link := .accepted } := by
  refine ⟨h.log, [], [], h.calling, Delimiter.clean_nil, ?_⟩
  rw [h.toClient, List.append_nil, List.nil_append, List.nil_append]

theorem Sent.run {text : List UInt8} {log : List (Call × Reply)} {ls : List Label}
    (h : Sent text log s) (hls : .timeout ∉ ls) (hrun : run H ls s = some t) {r : Reply}
    (hreturn : log ++ [(.command text, r)] <+: t.log) (hr : r ≠ .closed) :
    (keyFirst s.toServer.length ls = true ∧ ∃ k : HostKey, r = .message k.raw) ∨
      (keyFirst s.toServer.length ls = false ∧
        ∃ q, H.run s.emu text = some q ∧ r = .message (unframe q.2)) := by
  induction ls generalizing s with
  | nil =>
    cases hrun
    rw [h.log] at hreturn
    have hlength := hreturn.length_le
    rw [List.length_append] at hlength
    exact absurd hlength (Nat.not_succ_le_self _)
  | cons l ls ih =>
    obtain ⟨s₁, hstep, hrun⟩ := Option.bind_eq_some_iff.1 hrun
    have hl : l ≠ .timeout := fun heq => hls (heq ▸ List.mem_cons_self)
    have hlater : .timeout ∉ ls := fun hmem => hls (List.mem_cons_of_mem l hmem)
    cases l with
    | call c => simp only [Emulator.step, h.calling, reduceCtorEq, if_false] at hstep
    | recv n =>
      simp only [Emulator.step, h.calling, h.toClient, Option.bind_some, List.length_nil] at hstep
      split at hstep
      · omega
      · cases hstep
    | timeout => exact absurd rfl hl
    | eof => simp only [Emulator.step, h.link, reduceCtorEq, if_false] at hstep
    | key k =>
      simp only [Emulator.step, h.link, if_true] at hstep
      cases hstep
      exact .inl ⟨rfl, k, (h.press k).run (clean_raw k) hlater hrun hreturn hr⟩
    | frame n =>
      simp only [Emulator.step, h.link] at hstep
      split at hstep
      · cases hstep
        obtain ⟨hlt, heq⟩ | ⟨hle, q, hq, heq⟩ | ⟨-, -, heq⟩ :=
          serveFrame_cases (H := H) (n := n) h.clean h.stream
        · rw [heq] at hrun
          have hsent : Sent text log { s with
              toServer := s.toServer.drop n
              buffer := s.buffer ++ s.toServer.take n
              link := .accepted } :=
            ⟨h.calling, h.log, h.toClient, h.clean,
              by rw [List.append_assoc, List.take_append_drop, h.stream], rfl⟩
          have hrest := ih hsent hlater hrun
          simp only [List.length_drop] at hrest
          simpa only [keyFirst, if_pos hlt] using hrest
        · obtain ⟨raw, hraw, -, hresponse⟩ := H.framed h.clean hq
          rw [heq, hresponse] at hrun
          have hreply := h.answered.run hraw hlater hrun hreturn hr
          refine .inr ⟨by simp only [keyFirst, if_neg (not_lt.2 hle)], q, hq, ?_⟩
          rw [hreply, hresponse, unframe_append]
        · rw [heq] at hrun
          have hlost : Lost (.command text) log { s with
              toServer := []
              buffer := []
              link := .closed } := ⟨⟨[], h.calling⟩, h.log, h.toClient, rfl⟩
          exact absurd (returns_of_waiting (fun (h : Lost _ log _) => h.log)
            (fun (h : Lost _ log _) hl hstep => h.step hl hstep) hlost hlater hrun hreturn) hr
      · cases hstep

theorem raw_ne_unframe {response : List UInt8} (h : Framed response) (k : HostKey) :
    k.raw ≠ unframe response := by
  have hevent : EVENT_PFX = 60 :: [124, 69, 86, 69, 78, 84, 124, 62] := by decide +kernel
  obtain ⟨raw, -, hprefix, rfl⟩ := h
  rw [unframe_append]
  rintro rfl
  rw [HostKey.raw, hevent, encode_success, encode_error] at hprefix
  simp at hprefix

/-- A session at rest on an open connection. -/
structure Rested (s : Session M) : Prop where
  calling : s.calling = none
  toClient : s.toClient = []
  toServer : s.toServer = []
  buffer : s.buffer = []
  link : s.link = .accepted

/-- A command sent from rest returns its own response exactly when no key is pressed before the
script has received the command, and otherwise the event of a key. -/
theorem response_iff {text : List UInt8} {ls : List Label} (h : Rested s)
    (hclean : DELIMITER.Clean text) (hls : .timeout ∉ ls)
    (hrun : run H (.call (.command text) :: ls) s = some t) {r : Reply}
    (hreturn : s.log ++ [(.command text, r)] <+: t.log) (hr : r ≠ .closed)
    {q : M × List UInt8} (hq : H.run s.emu text = some q) :
    (r = .message (unframe q.2) ↔ keyFirst (text ++ DELIMITER.word).length ls = false) ∧
      (keyFirst (text ++ DELIMITER.word).length ls = true →
        ∃ k : HostKey, r = .message k.raw) := by
  obtain ⟨s₁, hstep, hrun⟩ := Option.bind_eq_some_iff.1 hrun
  simp only [Emulator.step, h.calling, if_true] at hstep
  cases hstep
  have hstream : s.toServer ++ (Call.command text).wire = text ++ DELIMITER.word := by
    rw [h.toServer]
    rfl
  have hsent : Sent text s.log { s with
      calling := some (.command text, [])
      toServer := s.toServer ++ (Call.command text).wire } :=
    ⟨rfl, rfl, h.toClient, hclean, by
      change s.buffer ++ (s.toServer ++ _) = _
      rw [h.buffer, List.nil_append, hstream], h.link⟩
  have hcases := hsent.run hls hrun hreturn hr
  dsimp only at hcases
  rw [hstream] at hcases
  obtain ⟨hkey, k, rfl⟩ | ⟨hkey, q', hq', rfl⟩ := hcases
  · rw [hkey]
    refine ⟨⟨fun heq => ?_, fun h => by cases h⟩, fun _ => ⟨k, rfl⟩⟩
    exact absurd (Reply.message.inj heq) (raw_ne_unframe (H.framed hclean hq) k)
  · rw [hkey]
    obtain rfl := Option.some.inj (hq.symm.trans hq')
    exact ⟨⟨fun _ => rfl, fun _ => rfl⟩, fun h => by cases h⟩

theorem addkey_overtaken :
    Reply.message HostKey.l.raw ≠ .message (unframe (success [])) := by
  have hrun : (run (commandHandler keyCounter)
      [.call (.command (encode "addkey a")), .key .l, .frame 15, .recv 30]
      { emu := 0, link := .accepted }).map (·.log) =
        some [(.command (encode "addkey a"), .message HostKey.l.raw)] := by
    decide +kernel
  have hhandle : handleCommand keyCounter 0 (encode "addkey a") = some (1, success []) := by
    decide +kernel
  obtain ⟨t, ht, hlog⟩ := Option.map_eq_some_iff.1 hrun
  intro h
  have hkey := (response_iff (H := commandHandler keyCounter) ⟨rfl, rfl, rfl, rfl, rfl⟩
    (by decide +kernel) (by decide) ht (hlog ▸ List.prefix_refl _) (by decide) hhandle).1.1 h
  revert hkey
  decide

end First

end NuzlockeSolver.Emulator
