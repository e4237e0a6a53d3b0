import NuzlockeSolver.Emulator.Session

/-!
# Lockstep

Events and responses share one stream, and the client takes the first message that comes for the
answer to its call. A session stays in step as long as no key is pressed while a command is under
way or an event has not been received, no command is sent over an event, and no wait for a response
times out: then every command gets the response to itself, and every event is received once.
-/

namespace NuzlockeSolver.Emulator

/-- A response without its delimiter. -/
def unframe (response : List UInt8) : List UInt8 :=
  response.take (response.length - DELIMITER.word.length)

@[simp] theorem unframe_append (raw : List UInt8) : unframe (raw ++ DELIMITER.word) = raw := by
  rw [unframe, List.length_append, Nat.add_sub_cancel, List.take_left]

theorem clean_raw (k : HostKey) : DELIMITER.Clean k.raw := by
  have hprefix : EVENT_PFX = 60 :: [124, 69, 86, 69, 78, 84, 124, 62] := by decide +kernel
  have htext : '<' ∉ k.event.toList := by cases k <;> decide
  rw [HostKey.raw, hprefix, List.cons_append]
  refine (clean_append (by decide) (clean_encode htext)).cons fun hword => ?_
  simp [Delimiter.word, DELIMITER] at hword

section Lockstep

variable {M : Type} (H : Handler M)

def Session.received (s : Session M) : List UInt8 :=
  match s.calling with
  | none => []
  | some (_, buf) => buf

def Session.Free (s : Session M) : Prop := s.calling = none ∨ ∃ buf, s.calling = some (.event, buf)

structure Session.Read (s : Session M) (m : M) : Prop where
  toServer : s.toServer = []
  buffer : s.buffer = []
  emu : s.emu = m
  link : s.link ≠ .closed

def pendingBytes : Option HostKey → List UInt8
  | none => []
  | some k => k.raw ++ DELIMITER.word

/-- Where a session in step can be: `m` is the emulator after the commands that have returned. -/
inductive Phase (m : M) (pending : Option HostKey) (s : Session M) : Prop where
  | free (hfree : s.Free) (hread : s.Read m) (hclean : DELIMITER.Clean s.received)
      (hstream : s.received ++ s.toClient = pendingBytes pending)
  | unserved (c : List UInt8) (hcalling : s.calling = some (.command c, []))
      (hpending : pending = none) (htoClient : s.toClient = []) (hemu : s.emu = m)
      (hclean : DELIMITER.Clean c) (hstream : s.buffer ++ s.toServer = c ++ DELIMITER.word)
      (hlink : s.link ≠ .closed) (hbacklog : s.link = .backlog → s.buffer = [])
  | answered (c buf response : List UInt8) (hcalling : s.calling = some (.command c, buf))
      (hpending : pending = none) (hrun : H.run m c = some (s.emu, response))
      (hframed : Framed response) (hread : s.Read s.emu) (hclean : DELIMITER.Clean buf)
      (hstream : buf ++ s.toClient = response)
  | closed (hlink : s.link = .closed) (hpending : pending = none) (htoClient : s.toClient = [])
      (hreceived : s.received = [])

def commandReply : Call × Reply → Option (List UInt8 × Reply)
  | (.command c, r) => some (c, r)
  | (.event, _) => none

def eventReply : Call × Reply → Option (List UInt8)
  | (.event, .message raw) => some raw
  | _ => none

@[simp] theorem eventReply_command (c : List UInt8) (r : Reply) :
    eventReply (.command c, r) = none := rfl

@[simp] theorem eventReply_timeout : eventReply (.event, .timeout) = none := rfl

/-- Every command with its own response. -/
def logOf (cmds rs : List (List UInt8)) : List (List UInt8 × Reply) :=
  (cmds.zip rs).map fun p => (p.1, .message (unframe p.2))

/-- What the calls have returned: the commands their own responses, then nothing but the error of a
connection that the script has reset; and the events in the order of the keys. -/
def Logged (emu₀ m : M) (pending : Option HostKey) (keys : List HostKey) (s : Session M) : Prop :=
  ∃ cmds rs lost, answers H emu₀ cmds = some (m, rs) ∧
    s.log.filterMap commandReply = logOf cmds rs ++ lost ∧ (∀ e ∈ lost, e.2 = .closed) ∧
    (s.link ≠ .closed → lost = []) ∧
    s.log.filterMap eventReply ++ pending.toList.map HostKey.raw = keys.map HostKey.raw

def InStep (emu₀ : M) (keys : List HostKey) (s : Session M) : Prop :=
  ∃ m pending, Logged H emu₀ m pending keys s ∧ Phase H m pending s

def Polite (s : Session M) : Label → Prop
  | .call (.command _) => s.toClient = []
  | .key _ => s.link = .accepted ∧ s.toClient = [] ∧
      (s.calling = none ∨ s.calling = some (.event, []))
  | .timeout => s.calling = some (.event, [])
  | _ => True

instance decidablePolite (s : Session M) : (l : Label) → Decidable (Polite s l)
  | .call (.command _) => inferInstanceAs (Decidable (s.toClient = []))
  | .key _ => inferInstanceAs (Decidable (s.link = .accepted ∧ s.toClient = [] ∧
      (s.calling = none ∨ s.calling = some (.event, []))))
  | .timeout => inferInstanceAs (Decidable (s.calling = some (.event, [])))
  | .call .event => inferInstanceAs (Decidable True)
  | .recv _ => inferInstanceAs (Decidable True)
  | .eof => inferInstanceAs (Decidable True)
  | .frame _ => inferInstanceAs (Decidable True)

def PoliteRun : List Label → Session M → Prop
  | [], _ => True
  | l :: ls, s => Polite s l ∧ ((step H l s).elim True fun s' => PoliteRun ls s')

instance decidablePoliteRun : (ls : List Label) → (s : Session M) → Decidable (PoliteRun H ls s)
  | [], _ => inferInstanceAs (Decidable True)
  | l :: ls, s =>
    haveI : Decidable ((step H l s).elim True fun s' => PoliteRun H ls s') :=
      match step H l s with
      | none => inferInstanceAs (Decidable True)
      | some s' => decidablePoliteRun ls s'
    inferInstanceAs (Decidable (_ ∧ _))

def keyOfLabel : Label → Option HostKey
  | .key k => some k
  | _ => none

def keysOf (ls : List Label) : List HostKey := ls.filterMap keyOfLabel

variable {H} {emu₀ m : M} {pending : Option HostKey} {keys : List HostKey} {s s' : Session M}

theorem accepted_ne_closed : Link.accepted ≠ .closed := by
  decide

theorem pendingBytes_eq_nil (h : pendingBytes pending = []) : pending = none := by
  cases pending with
  | none => rfl
  | some k =>
    have hlength := congrArg List.length h
    simp [pendingBytes, Delimiter.word] at hlength

theorem Session.Read.congr (h : s.Read m) (hserver : s'.server = s.server) : s'.Read m := by
  obtain ⟨hemu, hlink, hbuffer, htoServer⟩ :
      s'.emu = s.emu ∧ s'.link = s.link ∧ s'.buffer = s.buffer ∧ s'.toServer = s.toServer := by
    simpa [Session.server] using hserver
  exact ⟨htoServer ▸ h.toServer, hbuffer ▸ h.buffer, hemu ▸ h.emu, hlink ▸ h.link⟩

theorem Logged.congr (h : Logged H emu₀ m pending keys s) (hlog : s'.log = s.log)
    (hlink : s'.link ≠ .closed → s.link ≠ .closed) : Logged H emu₀ m pending keys s' := by
  obtain ⟨cmds, rs, lost, hanswers, hcommands, hlost, hnone, hevents⟩ := h
  exact ⟨cmds, rs, lost, hanswers, hlog ▸ hcommands, hlost, fun h => hnone (hlink h),
    hlog ▸ hevents⟩

theorem length_answers {cmds rs : List (List UInt8)} {emu emu' : M}
    (h : answers H emu cmds = some (emu', rs)) : cmds.length = rs.length := by
  induction cmds generalizing emu rs with
  | nil =>
    cases h
    rfl
  | cons cmd cmds ih =>
    obtain ⟨r, -, h⟩ := Option.bind_eq_some_iff.1 h
    obtain ⟨q, hq, hrs⟩ := Option.map_eq_some_iff.1 h
    cases hrs
    rw [List.length_cons, List.length_cons, ih hq]

theorem Logged.answered (h : Logged H emu₀ m none keys s) (hlink : s.link ≠ .closed)
    {c raw : List UInt8} {emu' : M} (hrun : H.run m c = some (emu', raw ++ DELIMITER.word)) :
    Logged H emu₀ emu' none keys (s.finish (.command c) (.message raw)) := by
  obtain ⟨cmds, rs, lost, hanswers, hcommands, -, hnone, hevents⟩ := h
  obtain rfl := hnone hlink
  refine ⟨cmds ++ [c], rs ++ [raw ++ DELIMITER.word], [],
    answers_append hanswers (answers_one hrun), ?_, fun _ h => absurd h List.not_mem_nil,
    fun _ => rfl, ?_⟩
  · rw [logOf, List.zip_append (length_answers hanswers), List.map_append, Session.finish,
      List.filterMap_append, hcommands]
    simp [logOf, commandReply]
  · rw [Session.finish, List.filterMap_append]
    simpa [List.filterMap_cons] using hevents

theorem Logged.heard {k : HostKey} (h : Logged H emu₀ m (some k) keys s) :
    Logged H emu₀ m none keys (s.finish .event (.message k.raw)) := by
  obtain ⟨cmds, rs, lost, hanswers, hcommands, hlost, hnone, hevents⟩ := h
  refine ⟨cmds, rs, lost, hanswers, ?_, hlost, hnone, ?_⟩
  · rw [Session.finish, List.filterMap_append, hcommands]
    simp [commandReply]
  · rw [Session.finish, List.filterMap_append]
    simpa [eventReply] using hevents

theorem Logged.silent (h : Logged H emu₀ m pending keys s) :
    Logged H emu₀ m pending keys (s.finish .event .timeout) := by
  obtain ⟨cmds, rs, lost, hanswers, hcommands, hlost, hnone, hevents⟩ := h
  refine ⟨cmds, rs, lost, hanswers, ?_, hlost, hnone, ?_⟩
  · rw [Session.finish, List.filterMap_append, hcommands]
    simp [commandReply]
  · rw [Session.finish, List.filterMap_append]
    simpa [List.filterMap_cons] using hevents

theorem Logged.failed (h : Logged H emu₀ m pending keys s) (hlink : s.link = .closed) (c : Call) :
    Logged H emu₀ m pending keys (s.finish c .closed) := by
  obtain ⟨cmds, rs, lost, hanswers, hcommands, hlost, -, hevents⟩ := h
  have hquiet : [(c, Reply.closed)].filterMap eventReply = [] := by cases c <;> rfl
  refine ⟨cmds, rs, lost ++ [(c, Reply.closed)].filterMap commandReply, hanswers, ?_, ?_,
    fun hopen => absurd hlink hopen, ?_⟩
  · rw [Session.finish, List.filterMap_append, hcommands, List.append_assoc]
  · intro e he
    obtain he | he := List.mem_append.1 he
    · exact hlost e he
    · cases c with
      | command text =>
        obtain rfl := List.mem_singleton.1 he
        rfl
      | event => exact absurd he List.not_mem_nil
  · rw [Session.finish, List.filterMap_append, hquiet, List.append_nil]
    exact hevents

theorem Logged.press (h : Logged H emu₀ m none keys s) (k : HostKey) :
    Logged H emu₀ m (some k) (keys ++ [k]) (s.pushEvent k) := by
  obtain ⟨cmds, rs, lost, hanswers, hcommands, hlost, hnone, hevents⟩ := h
  refine ⟨cmds, rs, lost, hanswers, hcommands, hlost, hnone, ?_⟩
  rw [List.map_append, ← hevents]
  simp [Session.pushEvent]

/-- A piece of the message that the client waits for either ends it or leaves it under way. -/
theorem receive_cases {c : Call} {buf raw rest : List UInt8} {n : Nat}
    (hclean : DELIMITER.Clean raw)
    (hstream : buf ++ s.toClient = raw ++ (DELIMITER.word ++ rest)) :
    (s.receive c buf n = { s with
        toClient := s.toClient.drop n
        calling := some (c, buf ++ s.toClient.take n) } ∧
      DELIMITER.Clean (buf ++ s.toClient.take n)) ∨
    (s.receive c buf n = { s with
        toClient := s.toClient.drop n
        calling := none
        log := s.log ++ [(c, .message raw)] } ∧ s.toClient.drop n <:+ rest) := by
  have hpiece : (buf ++ s.toClient.take n) ++ s.toClient.drop n =
      raw ++ (DELIMITER.word ++ rest) := by
    rw [List.append_assoc, List.take_append_drop, hstream]
  cases hcut : DELIMITER.cut (buf ++ s.toClient.take n) with
  | none =>
    refine .inl ⟨?_, Delimiter.clean_of_cut hcut⟩
    simp only [Session.receive, hcut]
  | some r =>
    obtain ⟨hraw, hrest⟩ := Delimiter.cut_piece hclean hpiece hcut
    refine .inr ⟨?_, r.2, hrest⟩
    simp only [Session.receive, hcut, Session.finish, hraw]

theorem Session.Read.serveFrame (h : s.Read m) (n : Nat) :
    s.serveFrame H n = { s with link := .accepted } := by
  have hserving : s.serving H n = ⟨s.emu, [], some []⟩ := by
    rw [Session.serving, h.buffer, h.toServer, List.take_nil, List.append_nil]
    rfl
  have htoServer := h.toServer
  have hbuffer := h.buffer
  cases s
  cases htoServer
  cases hbuffer
  simp [Session.serveFrame, hserving]

theorem serve_nil (fuel : Nat) (emu : M) : serve H fuel emu [] = ⟨emu, [], some []⟩ := by
  cases fuel <;> rfl

/-- The frames that bring a command in: it is run in the one in which its last byte arrives. -/
theorem serveFrame_cases {c : List UInt8} {n : Nat} (hclean : DELIMITER.Clean c)
    (hstream : s.buffer ++ s.toServer = c ++ DELIMITER.word) :
    (n < s.toServer.length ∧ s.serveFrame H n = { s with
        toServer := s.toServer.drop n
        buffer := s.buffer ++ s.toServer.take n
        link := .accepted }) ∨
    (s.toServer.length ≤ n ∧ ∃ r, H.run s.emu c = some r ∧ s.serveFrame H n = { s with
        emu := r.1
        toServer := []
        toClient := s.toClient ++ r.2
        buffer := []
        link := .accepted }) ∨
    (s.toServer.length ≤ n ∧ H.run s.emu c = none ∧ s.serveFrame H n = { s with
        toServer := []
        buffer := []
        link := .closed }) := by
  have hpiece : (s.buffer ++ s.toServer.take n) ++ s.toServer.drop n =
      c ++ (DELIMITER.word ++ []) := by
    rw [List.append_assoc, List.take_append_drop, hstream, List.append_nil]
  cases hcut : DELIMITER.cut (s.buffer ++ s.toServer.take n) with
  | none =>
    have hserving : s.serving H n = ⟨s.emu, [], some (s.buffer ++ s.toServer.take n)⟩ := by
      rw [Session.serving, serve, hcut]
    refine .inl ⟨not_le.1 fun hle => ?_, by simp [Session.serveFrame, hserving]⟩
    rw [List.drop_eq_nil_of_le hle, List.append_nil] at hpiece
    rw [hpiece, Delimiter.cut_append hclean] at hcut
    cases hcut
  | some r =>
    obtain ⟨hraw, hrest⟩ := Delimiter.cut_piece hclean hpiece hcut
    obtain ⟨hnil, hdrop⟩ := List.append_eq_nil_iff.1 hrest
    obtain rfl : r = (c, []) := Prod.ext hraw hnil
    refine .inr ?_
    cases hrun : H.run s.emu c with
    | none =>
      have hserving : s.serving H n = ⟨s.emu, [], none⟩ := by
        simp only [Session.serving, serve, hcut, hrun]
      exact .inr ⟨List.drop_eq_nil_iff.1 hdrop, rfl, by simp [Session.serveFrame, hserving, hdrop]⟩
    | some q =>
      have hserving : s.serving H n = ⟨q.1, q.2, some []⟩ := by
        simp only [Session.serving, serve, hcut, hrun, serve_nil, List.append_nil]
      exact .inl ⟨List.drop_eq_nil_iff.1 hdrop, q, rfl,
        by simp [Session.serveFrame, hserving, hdrop]⟩

theorem Phase.call (h : Phase H m pending s) (hcalling : s.calling = none) (c : Call)
    (hclean : ∀ text, c = .command text → DELIMITER.Clean text)
    (hpolite : ∀ text, c = .command text → s.toClient = []) :
    Phase H m pending { s with calling := some (c, []), toServer := s.toServer ++ c.wire } := by
  cases h with
  | free hfree hread hclean' hstream =>
    have hreceived : s.received = [] := by rw [Session.received, hcalling]
    rw [hreceived, List.nil_append] at hstream
    cases c with
    | event =>
      refine .free (.inr ⟨[], rfl⟩) ?_ Delimiter.clean_nil hstream
      exact ⟨by rw [Call.wire, List.append_nil]; exact hread.toServer, hread.buffer, hread.emu,
        hread.link⟩
    | command text =>
      have htoClient := hpolite text rfl
      have hpending : pending = none := pendingBytes_eq_nil (hstream.symm.trans htoClient)
      refine .unserved text rfl hpending htoClient hread.emu (hclean text rfl) ?_ hread.link
        fun _ => hread.buffer
      change s.buffer ++ (s.toServer ++ (text ++ DELIMITER.word)) = text ++ DELIMITER.word
      rw [hread.buffer, hread.toServer, List.nil_append, List.nil_append]
  | unserved c' hcalling' => cases hcalling.symm.trans hcalling'
  | answered c' buf response hcalling' => cases hcalling.symm.trans hcalling'
  | closed hlink hpending htoClient => exact .closed hlink hpending htoClient rfl

theorem InStep.receive (h : InStep H emu₀ keys s) {c : Call} {buf : List UInt8} {n : Nat}
    (hcalling : s.calling = some (c, buf)) (hn : 0 < n) (hlength : n ≤ s.toClient.length) :
    InStep H emu₀ keys (s.receive c buf n) := by
  obtain ⟨m, pending, hlogged, hphase⟩ := h
  have hbytes : s.toClient ≠ [] := by
    rw [← List.length_pos_iff]
    omega
  cases hphase with
  | free hfree hread hclean hstream =>
    obtain rfl : c = .event := by
      obtain hfree | ⟨buf', hfree⟩ := hfree
      · cases hcalling.symm.trans hfree
      · cases hcalling.symm.trans hfree
        rfl
    have hreceived : s.received = buf := by rw [Session.received, hcalling]
    rw [hreceived] at hstream
    cases pending with
    | none => exact absurd (List.append_eq_nil_iff.1 hstream).2 hbytes
    | some k =>
      have hframe : buf ++ s.toClient = k.raw ++ (DELIMITER.word ++ []) := by
        rw [List.append_nil]
        exact hstream
      obtain ⟨heq, hrest⟩ | ⟨heq, hdrop⟩ :=
        receive_cases (n := n) (c := .event) (clean_raw k) hframe
      · rw [heq]
        refine ⟨m, some k, hlogged.congr rfl id, .free (.inr ⟨_, rfl⟩) (hread.congr rfl) hrest ?_⟩
        change buf ++ s.toClient.take n ++ s.toClient.drop n = pendingBytes (some k)
        rw [List.append_assoc, List.take_append_drop, hstream]
      · rw [heq]
        exact ⟨m, none, hlogged.heard.congr rfl id,
          .free (.inl rfl) (hread.congr rfl) Delimiter.clean_nil (List.suffix_nil.1 hdrop)⟩
  | unserved c' hcalling' hpending htoClient => exact absurd htoClient hbytes
  | answered c' buf' response hcalling' hpending hrun hframed hread hclean hstream =>
    obtain ⟨rfl, rfl⟩ := Prod.mk.inj (Option.some.inj (hcalling.symm.trans hcalling'))
    obtain ⟨raw, hraw, hprefix, rfl⟩ := hframed
    obtain rfl := hpending
    have hframe : buf ++ s.toClient = raw ++ (DELIMITER.word ++ []) := by
      rw [List.append_nil]
      exact hstream
    obtain ⟨heq, hrest⟩ | ⟨heq, hdrop⟩ := receive_cases (n := n) (c := .command c') hraw hframe
    · rw [heq]
      refine ⟨m, none, hlogged.congr rfl id,
        .answered c' _ _ rfl rfl hrun ⟨raw, hraw, hprefix, rfl⟩ (hread.congr rfl) hrest ?_⟩
      change buf ++ s.toClient.take n ++ s.toClient.drop n = raw ++ DELIMITER.word
      rw [List.append_assoc, List.take_append_drop, hstream]
    · rw [heq]
      exact ⟨s.emu, none, (hlogged.answered hread.link hrun).congr rfl id,
        .free (.inl rfl) (hread.congr rfl) Delimiter.clean_nil (List.suffix_nil.1 hdrop)⟩
  | closed hlink hpending htoClient => exact absurd htoClient hbytes

theorem InStep.serveFrame (h : InStep H emu₀ keys s) (hlink : s.link = .accepted) (n : Nat) :
    InStep H emu₀ keys (s.serveFrame H n) := by
  obtain ⟨m, pending, hlogged, hphase⟩ := h
  have hopen : s.link ≠ .closed := by rw [hlink]; decide
  cases hphase with
  | free hfree hread hclean hstream =>
    rw [hread.serveFrame n]
    exact ⟨m, pending, hlogged.congr rfl fun _ => hopen, .free hfree
      ⟨hread.toServer, hread.buffer, hread.emu, accepted_ne_closed⟩ hclean hstream⟩
  | unserved c hcalling hpending htoClient hemu hclean hstream =>
    obtain rfl := hpending
    obtain ⟨-, heq⟩ | ⟨-, r, hrun, heq⟩ | ⟨-, -, heq⟩ :=
      serveFrame_cases (H := H) (n := n) hclean hstream
    · rw [heq]
      refine ⟨m, none, hlogged.congr rfl fun _ => hopen,
        .unserved c hcalling rfl htoClient hemu hclean ?_ accepted_ne_closed (by simp)⟩
      change s.buffer ++ s.toServer.take n ++ s.toServer.drop n = c ++ DELIMITER.word
      rw [List.append_assoc, List.take_append_drop, hstream]
    · rw [heq]
      rw [hemu] at hrun
      refine ⟨m, none, hlogged.congr rfl fun _ => hopen,
        .answered c [] r.2 hcalling rfl hrun (H.framed hclean hrun)
          ⟨rfl, rfl, rfl, accepted_ne_closed⟩
          Delimiter.clean_nil ?_⟩
      change [] ++ (s.toClient ++ r.2) = r.2
      rw [htoClient, List.nil_append, List.nil_append]
    · rw [heq]
      refine ⟨m, none, hlogged.congr rfl fun _ => hopen, .closed rfl rfl htoClient ?_⟩
      simp [Session.received, hcalling]
  | answered c buf response hcalling hpending hrun hframed hread hclean hstream =>
    rw [hread.serveFrame n]
    exact ⟨m, pending, hlogged.congr rfl fun _ => hopen,
      .answered c buf response hcalling hpending hrun hframed
        ⟨hread.toServer, hread.buffer, rfl, accepted_ne_closed⟩ hclean hstream⟩
  | closed hclosed => exact absurd hclosed hopen

theorem InStep.accept (h : InStep H emu₀ keys s) (hlink : s.link = .backlog) :
    InStep H emu₀ keys { s with link := .accepted, buffer := [] } := by
  obtain ⟨m, pending, hlogged, hphase⟩ := h
  have hopen : s.link ≠ .closed := by rw [hlink]; decide
  refine ⟨m, pending, hlogged.congr rfl fun _ => hopen, ?_⟩
  cases hphase with
  | free hfree hread hclean hstream =>
    exact .free hfree ⟨hread.toServer, rfl, hread.emu, accepted_ne_closed⟩ hclean hstream
  | unserved c hcalling hpending htoClient hemu hclean hstream hlink' hbacklog =>
    rw [hbacklog hlink] at hstream
    exact .unserved c hcalling hpending htoClient hemu hclean hstream accepted_ne_closed
      fun _ => rfl
  | answered c buf response hcalling hpending hrun hframed hread hclean hstream =>
    exact .answered c buf response hcalling hpending hrun hframed
      ⟨hread.toServer, rfl, rfl, accepted_ne_closed⟩ hclean hstream
  | closed hclosed => exact absurd hclosed hopen

theorem InStep.timeout (h : InStep H emu₀ keys s) (hcalling : s.calling = some (.event, [])) :
    InStep H emu₀ keys (s.finish .event .timeout) := by
  obtain ⟨m, pending, hlogged, hphase⟩ := h
  have hreceived : s.received = [] := by rw [Session.received, hcalling]
  refine ⟨m, pending, hlogged.silent, ?_⟩
  cases hphase with
  | free hfree hread hclean hstream =>
    rw [hreceived] at hstream
    exact .free (.inl rfl) (hread.congr rfl) Delimiter.clean_nil hstream
  | unserved c hcalling' => cases hcalling.symm.trans hcalling'
  | answered c buf response hcalling' => cases hcalling.symm.trans hcalling'
  | closed hlink hpending htoClient => exact .closed hlink hpending htoClient rfl

theorem InStep.eof (h : InStep H emu₀ keys s) (hlink : s.link = .closed) (c : Call) :
    InStep H emu₀ keys (s.finish c .closed) := by
  obtain ⟨m, pending, hlogged, hphase⟩ := h
  refine ⟨m, pending, hlogged.failed hlink c, ?_⟩
  cases hphase with
  | free hfree hread => exact absurd hlink hread.link
  | unserved c' hcalling hpending htoClient hemu hclean hstream hopen => exact absurd hlink hopen
  | answered c' buf response hcalling hpending hrun hframed hread => exact absurd hlink hread.link
  | closed hlink hpending htoClient => exact .closed hlink hpending htoClient rfl

theorem InStep.press (h : InStep H emu₀ keys s) (hlink : s.link = .accepted)
    (htoClient : s.toClient = []) (hcalling : s.calling = none ∨ s.calling = some (.event, []))
    (k : HostKey) : InStep H emu₀ (keys ++ [k]) (s.pushEvent k) := by
  obtain ⟨m, pending, hlogged, hphase⟩ := h
  have hreceived : s.received = [] := by
    obtain hcalling | hcalling := hcalling <;> rw [Session.received, hcalling]
  cases hphase with
  | free hfree hread hclean hstream =>
    rw [hreceived, htoClient] at hstream
    obtain rfl := pendingBytes_eq_nil hstream.symm
    refine ⟨m, some k, hlogged.press k, .free hfree (hread.congr rfl) ?_ ?_⟩
    · change DELIMITER.Clean s.received
      rw [hreceived]
      exact Delimiter.clean_nil
    · change s.received ++ (s.toClient ++ (k.raw ++ DELIMITER.word)) = pendingBytes (some k)
      rw [hreceived, htoClient]
      rfl
  | unserved c hcalling' =>
    obtain hcalling | hcalling := hcalling <;> cases hcalling.symm.trans hcalling'
  | answered c buf response hcalling' =>
    obtain hcalling | hcalling := hcalling <;> cases hcalling.symm.trans hcalling'
  | closed hclosed => cases hlink.symm.trans hclosed

theorem InStep.step {l : Label} (h : InStep H emu₀ keys s) (hpolite : Polite s l)
    (hclean : ∀ c ∈ commandsOf [l], DELIMITER.Clean c) (hstep : step H l s = some s') :
    InStep H emu₀ (keys ++ keysOf [l]) s' := by
  cases l with
  | call c =>
    simp only [Emulator.step] at hstep
    split at hstep
    · rename_i hcalling
      cases hstep
      refine (List.append_nil keys).symm ▸ ?_
      obtain ⟨m, pending, hlogged, hphase⟩ := h
      refine ⟨m, pending, hlogged.congr rfl id, hphase.call hcalling c ?_ ?_⟩
      · rintro text rfl
        exact hclean text List.mem_cons_self
      · rintro text rfl
        exact hpolite
    · cases hstep
  | recv n =>
    obtain ⟨wait, hcalling, hstep⟩ := Option.bind_eq_some_iff.1 hstep
    split at hstep
    · rename_i hn
      cases hstep
      exact (List.append_nil keys).symm ▸ h.receive hcalling hn.1 hn.2.2
    · cases hstep
  | timeout =>
    obtain ⟨wait, hcalling, rfl⟩ := Option.map_eq_some_iff.1 hstep
    obtain rfl := Option.some.inj (hcalling.symm.trans hpolite)
    exact (List.append_nil keys).symm ▸ h.timeout hpolite
  | eof =>
    simp only [Emulator.step] at hstep
    split at hstep
    · rename_i hlink
      obtain ⟨wait, -, rfl⟩ := Option.map_eq_some_iff.1 hstep
      exact (List.append_nil keys).symm ▸ h.eof hlink wait.1
    · cases hstep
  | frame n =>
    simp only [Emulator.step] at hstep
    split at hstep
    · rename_i hlink
      split at hstep
      · cases hstep
        exact (List.append_nil keys).symm ▸ h.accept hlink
      · cases hstep
    · rename_i hlink
      split at hstep
      · cases hstep
        exact (List.append_nil keys).symm ▸ h.serveFrame hlink n
      · cases hstep
    · cases hstep
  | key k =>
    obtain ⟨hlink, htoClient, hcalling⟩ := hpolite
    simp only [Emulator.step, if_pos hlink] at hstep
    cases hstep
    exact h.press hlink htoClient hcalling k

theorem commandsOf_cons (l : Label) (ls : List Label) :
    commandsOf (l :: ls) = commandsOf [l] ++ commandsOf ls := by
  rw [commandsOf, commandsOf, commandsOf, ← List.filterMap_append]
  rfl

theorem keysOf_cons (l : Label) (ls : List Label) : keysOf (l :: ls) = keysOf [l] ++ keysOf ls := by
  rw [keysOf, keysOf, keysOf, ← List.filterMap_append]
  rfl

theorem inStep_start (emu₀ : M) : InStep H emu₀ [] (start emu₀) :=
  ⟨emu₀, none, ⟨[], [], [], rfl, rfl, fun _ h => absurd h List.not_mem_nil, fun _ => rfl, rfl⟩,
    .free (.inl rfl) ⟨rfl, rfl, rfl, fun h => by cases h⟩ Delimiter.clean_nil rfl⟩

theorem InStep.run {ls : List Label} (h : InStep H emu₀ keys s)
    (hclean : ∀ c ∈ commandsOf ls, DELIMITER.Clean c) (hpolite : PoliteRun H ls s)
    (hrun : run H ls s = some s') : InStep H emu₀ (keys ++ keysOf ls) s' := by
  induction ls generalizing s keys with
  | nil =>
    cases hrun
    exact (List.append_nil keys).symm ▸ h
  | cons l ls ih =>
    obtain ⟨s₁, hstep, hrun⟩ := Option.bind_eq_some_iff.1 hrun
    rw [commandsOf_cons] at hclean
    obtain ⟨hfirst, hlater⟩ := hpolite
    rw [hstep] at hlater
    have h₁ := h.step hfirst (fun c hc => hclean c (List.mem_append_left _ hc)) hstep
    rw [keysOf_cons, ← List.append_assoc]
    exact ih h₁ (fun c hc => hclean c (List.mem_append_right _ hc)) hlater hrun

def callOf : Label → Option Call
  | .call c => some c
  | _ => none

/-- The calls that have returned and the one under way. -/
def Session.calls (s : Session M) : List Call :=
  s.log.map Prod.fst ++ (s.calling.map Prod.fst).toList

theorem calls_receive {c : Call} {buf : List UInt8} (n : Nat) (h : s.calling = some (c, buf)) :
    (s.receive c buf n).calls = s.calls := by
  unfold Session.receive
  dsimp only
  split <;> simp [Session.calls, Session.finish, h]

theorem calls_finish {wait : Call × List UInt8} (r : Reply) (h : s.calling = some wait) :
    (s.finish wait.1 r).calls = s.calls := by
  simp [Session.calls, Session.finish, h]

theorem calls_step {l : Label} (h : step H l s = some s') :
    s'.calls = s.calls ++ (callOf l).toList := by
  cases l with
  | call c =>
    simp only [Emulator.step] at h
    split at h
    · rename_i hcalling
      cases h
      simp [Session.calls, hcalling, callOf]
    · cases h
  | recv n =>
    obtain ⟨wait, hcalling, h⟩ := Option.bind_eq_some_iff.1 h
    split at h
    · cases h
      exact (calls_receive n hcalling).trans (List.append_nil _).symm
    · cases h
  | timeout =>
    obtain ⟨wait, hcalling, rfl⟩ := Option.map_eq_some_iff.1 h
    exact (calls_finish _ hcalling).trans (List.append_nil _).symm
  | eof =>
    simp only [Emulator.step] at h
    split at h
    · obtain ⟨wait, hcalling, rfl⟩ := Option.map_eq_some_iff.1 h
      exact (calls_finish _ hcalling).trans (List.append_nil _).symm
    · cases h
  | frame n =>
    simp only [Emulator.step] at h
    split at h
    · split at h
      · cases h
        exact (List.append_nil _).symm
      · cases h
    · split at h
      · cases h
        exact (List.append_nil _).symm
      · cases h
    · cases h
  | key k =>
    cases h
    split <;> exact (List.append_nil _).symm

theorem calls_run {ls : List Label} (h : run H ls s = some s') :
    s'.calls = s.calls ++ ls.filterMap callOf := by
  induction ls generalizing s with
  | nil =>
    cases h
    exact (List.append_nil _).symm
  | cons l ls ih =>
    obtain ⟨s₁, hstep, h⟩ := Option.bind_eq_some_iff.1 h
    rw [ih h, calls_step hstep, List.append_assoc]
    cases l <;> rfl

def commandText : Call → Option (List UInt8)
  | .command text => some text
  | .event => none

theorem filterMap_commandText (ls : List Label) :
    (ls.filterMap callOf).filterMap commandText = commandsOf ls := by
  rw [List.filterMap_filterMap, commandsOf]
  refine List.filterMap_congr fun l _ => ?_
  cases l with
  | call c => cases c <;> rfl
  | _ => rfl

theorem map_fst_commandReply (log : List (Call × Reply)) :
    (log.filterMap commandReply).map Prod.fst = (log.map Prod.fst).filterMap commandText := by
  rw [List.map_filterMap, List.filterMap_map]
  refine List.filterMap_congr fun e _ => ?_
  obtain ⟨c, r⟩ := e
  cases c <;> rfl

theorem map_fst_logOf {cmds rs : List (List UInt8)} (h : cmds.length = rs.length) :
    (logOf cmds rs).map Prod.fst = cmds := by
  rw [logOf, List.map_map]
  exact List.map_fst_zip h.le

/-- A polite run that has come to rest on an open connection. -/
structure AtRest (H : Handler M) (emu₀ : M) (ls : List Label) (s : Session M) : Prop where
  clean : ∀ c ∈ commandsOf ls, DELIMITER.Clean c
  polite : PoliteRun H ls (start emu₀)
  run : run H ls (start emu₀) = some s
  calling : s.calling = none
  link : s.link ≠ .closed

/-- When a polite run has come to rest, every command has been run once, in order, and has returned
its own response; and the events received are those of the keys. -/
theorem AtRest.lockstep {ls : List Label} (h : AtRest H emu₀ ls s) :
    ∃ rs, answers H emu₀ (commandsOf ls) = some (s.emu, rs) ∧
      s.log.filterMap commandReply = logOf (commandsOf ls) rs ∧
      s.log.filterMap eventReply <+: (keysOf ls).map HostKey.raw ∧
      (s.toClient = [] → s.log.filterMap eventReply = (keysOf ls).map HostKey.raw) := by
  obtain ⟨m, pending, hlogged, hphase⟩ := (inStep_start emu₀).run h.clean h.polite h.run
  obtain ⟨cmds, rs, lost, hanswers, hcommands, -, hnone, hevents⟩ := hlogged
  obtain rfl := hnone h.link
  rw [List.append_nil] at hcommands
  rw [List.nil_append] at hevents
  have hcmds : cmds = commandsOf ls := by
    have hcalls := calls_run h.run
    have hlog : s.log.map Prod.fst = ls.filterMap callOf := by
      rw [Session.calls, h.calling] at hcalls
      exact (List.append_nil _).symm.trans hcalls
    rw [← filterMap_commandText, ← hlog, ← map_fst_commandReply, hcommands,
      map_fst_logOf (length_answers hanswers)]
  obtain rfl := hcmds
  cases hphase with
  | free hfree hread hclean' hstream =>
    refine ⟨rs, hread.emu ▸ hanswers, hcommands, hevents ▸ List.prefix_append _ _, fun hempty => ?_⟩
    have hreceived : s.received = [] := by rw [Session.received, h.calling]
    rw [hreceived, hempty] at hstream
    rw [pendingBytes_eq_nil hstream.symm] at hevents
    exact (List.append_nil _).symm.trans hevents
  | unserved c hcalling => cases h.calling.symm.trans hcalling
  | answered c buf response hcalling => cases h.calling.symm.trans hcalling
  | closed hlink => exact absurd hlink h.link

/-- A key goes down, a wait for an event that runs out and one that does not, and a read of the party. -/
def attentive : List Label :=
  [.call (.command (encode "addkey a")), .frame 0, .frame 15, .recv 3, .recv 15, .call .event,
    .timeout, .key .o, .call .event, .recv 27, .call (.command (encode "readparty")), .frame 16,
    .recv 125]

theorem attentive_atRest : ∃ s, AtRest (commandHandler keyCounter) 0 attentive s ∧
    s.toClient = [] := by
  have hrun : (run (commandHandler keyCounter) attentive (start 0)).map
      (fun s => (s.calling, s.link, s.toClient)) = some (none, .accepted, []) := by
    decide +kernel
  obtain ⟨s, hs, hend⟩ := Option.map_eq_some_iff.1 hrun
  obtain ⟨hcalling, hend⟩ := Prod.mk.inj hend
  obtain ⟨hlink, htoClient⟩ := Prod.mk.inj hend
  exact ⟨s, ⟨by decide +kernel, by decide +kernel, hs, hcalling, hlink ▸ accepted_ne_closed⟩,
    htoClient⟩

theorem attentive_lockstep : ∃ (s : Session Nat) (rs : List (List UInt8)),
    answers (commandHandler keyCounter) 0 (commandsOf attentive) = some (s.emu, rs) ∧
    s.log.filterMap commandReply = logOf (commandsOf attentive) rs ∧
    s.log.filterMap eventReply = [HostKey.o.raw] := by
  obtain ⟨s, hs, htoClient⟩ := attentive_atRest
  obtain ⟨rs, hanswers, hlog, -, hevents⟩ := hs.lockstep
  exact ⟨s, rs, hanswers, hlog, hevents htoClient⟩

end Lockstep

end NuzlockeSolver.Emulator
