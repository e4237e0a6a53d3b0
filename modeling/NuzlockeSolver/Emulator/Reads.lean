import Mathlib.Data.List.TakeWhile
import NuzlockeSolver.Emulator.Client

/-!
# Reading the party and the boxes

The client's commands with what they make of a response. In a session in step a read returns the
Pokémon that were in the game's memory when the script ran it; an event that is taken for a response
makes a read fail, but passes for the success of a command.
-/

namespace NuzlockeSolver.Emulator

inductive ClientError where
  | connection (message : String)
  | unexpected (response : String)
  | value (e : ValueError)
  | decode
  | timeout
  deriving DecidableEq

def Reply.text : Reply → Except ClientError String
  | .message raw =>
    match decode raw with
    | some text => .ok text
    | none => .error .decode
  | .timeout => .error .timeout
  | .closed => .error (.connection "connection closed")

def stripPrefix (pre text : String) : Option String :=
  if pre.toList <+: text.toList then some (String.ofList (text.toList.drop pre.toList.length))
  else none

def checkResponse (response : String) : Except ClientError Unit :=
  match stripPrefix "<|ERROR|>" response with
  | some message => .error (.connection message)
  | none => .ok ()

def send (r : Reply) : Except ClientError Unit := r.text >>= checkResponse

def sendData (r : Reply) : Except ClientError String :=
  r.text >>= fun response =>
    match stripPrefix "<|ERROR|>" response with
    | some message => .error (.connection message)
    | none =>
      match stripPrefix "<|SUCCESS|>" response with
      | some payload => .ok payload
      | none => .error (.unexpected response)

def recvEvent (r : Reply) : Except ClientError (Option String) :=
  if r = .timeout then .ok none
  else r.text >>= fun raw =>
    match stripPrefix "<|EVENT|>" raw with
    | some event => .ok (some event)
    | none => .error (.unexpected raw)

def readMons (r : Reply) : Except ClientError (List PokemonSnapshot) :=
  sendData r >>= fun data => (parseMons data).mapError .value

def readBoxMon (r : Reply) : Except ClientError (Option PokemonSnapshot) :=
  sendData r >>= fun data =>
    if data = "" then .ok none
    else ((PokemonSnapshot.fromWire data).mapError .value).map some

theorem stripPrefix_append (pre text : String) : stripPrefix pre (pre ++ text) = some text := by
  rw [stripPrefix, String.toList_append, if_pos (List.prefix_append _ _), List.drop_left,
    String.ofList_toList]

theorem stripPrefix_success_error (text : String) :
    stripPrefix "<|ERROR|>" ("<|SUCCESS|>" ++ text) = none := by
  rw [stripPrefix, String.toList_append, if_neg]
  intro h
  simp at h

theorem text_message (text : String) : (Reply.message (encode text)).text = .ok text := by
  rw [Reply.text, decode_encode]

theorem unframe_success (payload : String) :
    unframe (success (encode payload)) = encode ("<|SUCCESS|>" ++ payload) := by
  rw [success, unframe_append, encode_append]
  rfl

theorem sendData_success (payload : String) :
    sendData (.message (unframe (success (encode payload)))) = .ok payload := by
  rw [unframe_success, sendData, text_message, ok_bind]
  simp only [stripPrefix_success_error, stripPrefix_append]

/-- The Pokémon in the party. -/
def party (mem : Memory) : List PokemonSnapshot :=
  (List.range (mem.read8 PARTY_COUNT_ADDR).toNat).map fun i => monAt mem (-1) i (partyAddr i) true

def boxes (mem : Memory) : List PokemonSnapshot :=
  (boxSlots mem).map fun p => monAt mem p.1 p.2 (boxAddr p.1 p.2) false

theorem readMons_party (mem : Memory) :
    readMons (.message (unframe (success (encode (joinLines (partyLines mem)))))) =
      .ok (party mem) := by
  rw [readMons, sendData_success, ok_bind, partyLines,
    parseMons_serialized (fun _ => -1) (fun i => i) partyAddr true]
  rfl

theorem readMons_boxes (mem : Memory) :
    readMons (.message (unframe (success (encode (joinLines (boxLines mem)))))) =
      .ok (boxes mem) := by
  rw [readMons, sendData_success, ok_bind, boxLines,
    parseMons_serialized (fun p : Nat × Nat => (p.1 : Int)) (fun p => p.2)
      (fun p => boxAddr p.1 p.2) false]
  rfl

theorem encode_injective {s t : String} (h : encode s = encode t) : s = t := by
  have hdecode := congrArg decode h
  rw [decode_encode, decode_encode] at hdecode
  exact Option.some.inj hdecode

theorem encode_ne {s t : String} (h : s ≠ t) : encode s ≠ encode t :=
  fun heq => h (encode_injective heq)

section Dispatch

variable {M : Type} (E : Emu M) (emu : M) (args : List UInt8)

theorem dispatch_readparty : dispatch E emu (encode "readparty") args =
    some (emu, success (encode (joinLines (partyLines (E.memory emu))))) := by
  rw [dispatch, if_neg (encode_ne (by decide)), if_neg (encode_ne (by decide)),
    if_neg (encode_ne (by decide)), if_neg (encode_ne (by decide)),
    if_neg (encode_ne (by decide)), if_pos rfl]

theorem dispatch_readbox : dispatch E emu (encode "readbox") args =
    some (emu, readBox (E.memory emu) args) := by
  rw [dispatch, if_neg (encode_ne (by decide)), if_neg (encode_ne (by decide)),
    if_neg (encode_ne (by decide)), if_neg (encode_ne (by decide)),
    if_neg (encode_ne (by decide)), if_neg (encode_ne (by decide)), if_pos rfl]

theorem dispatch_readallboxes : dispatch E emu (encode "readallboxes") args =
    some (emu, success (encode (joinLines (boxLines (E.memory emu))))) := by
  rw [dispatch, if_neg (encode_ne (by decide)), if_neg (encode_ne (by decide)),
    if_neg (encode_ne (by decide)), if_neg (encode_ne (by decide)),
    if_neg (encode_ne (by decide)), if_neg (encode_ne (by decide)),
    if_neg (encode_ne (by decide)), if_pos rfl]

theorem handleCommand_word (word : List UInt8) (hne : word ≠ [])
    (hword : ∀ b ∈ word, isSpace b = false) (rest : List UInt8)
    (hrest : ∀ b ∈ rest.head?, isSpace b = true) :
    handleCommand E emu (word ++ rest) =
      dispatch E emu (lower word) (rest.dropWhile isSpace) := by
  have hnot : ∀ b ∈ word, (!isSpace b) = true := fun b hb => by rw [hword b hb]; rfl
  have htake : (word ++ rest).takeWhile (fun b => !isSpace b) = word := by
    rw [List.takeWhile_append_of_pos hnot]
    cases rest with
    | nil => rw [List.takeWhile_nil, List.append_nil]
    | cons b rest =>
      rw [List.takeWhile_cons_of_neg, List.append_nil]
      simp [hrest b rfl]
  have hdrop : (word ++ rest).dropWhile (fun b => !isSpace b) = rest := by
    rw [List.dropWhile_append_of_pos hnot]
    cases rest with
    | nil => rfl
    | cons b rest =>
      rw [List.dropWhile_cons_of_neg]
      simp [hrest b rfl]
  rw [handleCommand]
  simp only [htake, hdrop, if_neg hne]

theorem handleCommand_readparty : handleCommand E emu (encode "readparty") =
    some (emu, success (encode (joinLines (partyLines (E.memory emu))))) := by
  have hlower : lower (encode "readparty") = encode "readparty" := by decide +kernel
  have hword := handleCommand_word E emu (encode "readparty") (by decide +kernel)
    (by decide +kernel) [] (fun b hb => by cases hb)
  rw [List.append_nil, hlower, dispatch_readparty] at hword
  exact hword

theorem handleCommand_readallboxes : handleCommand E emu (encode "readallboxes") =
    some (emu, success (encode (joinLines (boxLines (E.memory emu))))) := by
  have hlower : lower (encode "readallboxes") = encode "readallboxes" := by decide +kernel
  have hword := handleCommand_word E emu (encode "readallboxes") (by decide +kernel)
    (by decide +kernel) [] (fun b hb => by cases hb)
  rw [List.append_nil, hlower, dispatch_readallboxes] at hword
  exact hword

end Dispatch

theorem toNat_lt_of_isDigit {c : Char} (h : c.isDigit) : 48 ≤ c.val.toNat ∧ c.val.toNat ≤ 57 := by
  rw [Char.isDigit, Bool.and_eq_true, decide_eq_true_eq, decide_eq_true_eq] at h
  exact ⟨UInt32.le_iff_toNat_le.1 h.1, UInt32.le_iff_toNat_le.1 h.2⟩

def digitByte (c : Char) : UInt8 := UInt8.ofNat c.val.toNat

theorem toNat_digitByte {c : Char} (h : c.isDigit) : (digitByte c).toNat = c.val.toNat := by
  have hrange := toNat_lt_of_isDigit h
  rw [digitByte, UInt8.toNat_ofNat', Nat.mod_eq_of_lt (by omega)]

theorem isDigit_digitByte {c : Char} (h : c.isDigit) : isDigit (digitByte c) = true := by
  have hrange := toNat_lt_of_isDigit h
  have hbyte := toNat_digitByte h
  rw [isDigit, Bool.and_eq_true, decide_eq_true_eq, decide_eq_true_eq, UInt8.le_iff_toNat_le,
    UInt8.le_iff_toNat_le, hbyte]
  exact hrange

theorem encode_toString (n : Nat) :
    encode (toString n) = (Nat.toDigits 10 n).map digitByte := by
  have hdigit {c : Char} (hc : c ∈ Nat.toDigits 10 n) :
      String.utf8EncodeChar c = [digitByte c] := by
    have hrange := toNat_lt_of_isDigit (isDigit_of_mem_toDigits hc)
    have hascii : c.val.toNat ≤ 0x7f := by omega
    simp only [String.utf8EncodeChar, if_pos hascii, digitByte]
  rw [Nat.toString_eq_ofList_toDigits, encode_ofList]
  generalize Nat.toDigits 10 n = cs at hdigit
  induction cs with
  | nil => rfl
  | cons c cs ih =>
    rw [List.flatMap_cons, hdigit List.mem_cons_self,
      ih fun hc => hdigit (List.mem_cons_of_mem c hc)]
    rfl

theorem decimal_encode (n : Nat) : decimal (encode (toString n)) = n := by
  have hfold (cs : List Char) (h : ∀ c ∈ cs, c.isDigit) (init : Nat) :
      (cs.map digitByte).foldl (fun n b => 10 * n + (b.toNat - 48)) init =
        Nat.ofDigitChars 10 cs init := by
    induction cs generalizing init with
    | nil => rfl
    | cons c cs ih =>
      rw [List.map_cons, List.foldl_cons, toNat_digitByte (h c List.mem_cons_self),
        ih fun d hd => h d (List.mem_cons_of_mem c hd)]
      rfl
  rw [encode_toString, decimal, hfold _ (fun c hc => isDigit_of_mem_toDigits hc),
    Nat.ofDigitChars_ten_toDigits]

theorem isDigit_of_mem_encode {n : Nat} {b : UInt8} (h : b ∈ encode (toString n)) :
    isDigit b = true := by
  rw [encode_toString] at h
  obtain ⟨c, hc, rfl⟩ := List.mem_map.1 h
  exact isDigit_digitByte (isDigit_of_mem_toDigits hc)

theorem encode_toString_ne_nil (n : Nat) : encode (toString n) ≠ [] := by
  rw [encode_toString]
  exact mt List.map_eq_nil_iff.1 Nat.toDigits_ne_nil

theorem isSpace_eq_false {b : UInt8} (h : isDigit b = true) : isSpace b = false := by
  rw [isDigit, Bool.and_eq_true, decide_eq_true_eq, decide_eq_true_eq, UInt8.le_iff_toNat_le,
    UInt8.le_iff_toNat_le] at h
  have hlow : 48 ≤ b.toNat := h.1
  have hne : b ≠ 32 := by
    rintro rfl
    exact absurd hlow (by decide)
  have hhigh : ¬ b ≤ 13 := by
    rw [UInt8.le_iff_toNat_le]
    change ¬ b.toNat ≤ 13
    omega
  simp [isSpace, hne, hhigh]

theorem twoNumbers_encode (b s : Nat) :
    twoNumbers (encode (toString b) ++ 32 :: encode (toString s)) = some (b, s) := by
  have hb : ∀ x ∈ encode (toString b), isDigit x = true := fun x hx => isDigit_of_mem_encode hx
  have hs : ∀ x ∈ encode (toString s), isDigit x = true := fun x hx => isDigit_of_mem_encode hx
  have hfirst : (encode (toString b) ++ 32 :: encode (toString s)).takeWhile isDigit =
      encode (toString b) := by
    rw [List.takeWhile_append_of_pos hb, List.takeWhile_cons_of_neg (by decide), List.append_nil]
  have hrest : (encode (toString b) ++ 32 :: encode (toString s)).dropWhile isDigit =
      32 :: encode (toString s) := by
    rw [List.dropWhile_append_of_pos hb, List.dropWhile_cons_of_neg (by decide)]
  have hsecond : ((32 :: encode (toString s)).dropWhile isSpace).takeWhile isDigit =
      encode (toString s) := by
    obtain ⟨x, xs, hcons⟩ := List.exists_cons_of_ne_nil (encode_toString_ne_nil s)
    have hx : ¬ isSpace x = true := by
      rw [isSpace_eq_false (hs x (hcons ▸ List.mem_cons_self))]
      exact Bool.false_ne_true
    rw [List.dropWhile_cons_of_pos (by decide)]
    have hdrop : (encode (toString s)).dropWhile isSpace = encode (toString s) := by
      rw [hcons, List.dropWhile_cons_of_neg hx]
    rw [hdrop, List.takeWhile_eq_self_iff]
    exact hs
  have hspace : (32 :: encode (toString s)).takeWhile isSpace ≠ [] := by
    rw [List.takeWhile_cons_of_pos (by decide)]
    exact List.cons_ne_nil _ _
  simp only [twoNumbers, hfirst, hrest, hsecond]
  rw [if_neg (by simp only [encode_toString_ne_nil, hspace, or_self, not_false_eq_true]),
    decimal_encode, decimal_encode]

/-- The text of `readbox` for a slot. -/
def readboxText (b s : Nat) : String := "readbox " ++ toString b ++ " " ++ toString s

theorem handleCommand_readbox {M : Type} (E : Emu M) (emu : M) (b s : Nat) :
    handleCommand E emu (encode (readboxText b s)) = some (emu,
      if BOXES ≤ b ∨ BOX_SLOTS ≤ s then error (encode "readbox out of range")
      else if hasSpeciesAt (E.memory emu) (boxAddr b s) then
        success (encode (serializeMon (E.memory emu) b s (boxAddr b s) false))
      else success []) := by
  have htext : encode (readboxText b s) =
      encode "readbox" ++ 32 :: (encode (toString b) ++ 32 :: encode (toString s)) := by
    have hname : encode "readbox " = encode "readbox" ++ [32] := by decide +kernel
    have hspace : encode " " = [32] := by decide +kernel
    rw [readboxText, encode_append, encode_append, encode_append, hname, hspace]
    simp
  have hlower : lower (encode "readbox") = encode "readbox" := by decide +kernel
  have hargs : (32 :: (encode (toString b) ++ 32 :: encode (toString s))).dropWhile isSpace =
      encode (toString b) ++ 32 :: encode (toString s) := by
    obtain ⟨x, xs, hcons⟩ := List.exists_cons_of_ne_nil (encode_toString_ne_nil b)
    have hx : ¬ isSpace x = true := by
      rw [isSpace_eq_false (isDigit_of_mem_encode (hcons ▸ List.mem_cons_self))]
      exact Bool.false_ne_true
    rw [List.dropWhile_cons_of_pos (by decide), hcons, List.cons_append,
      List.dropWhile_cons_of_neg hx]
  rw [htext, handleCommand_word E emu _ (by decide +kernel) (by decide +kernel) _
    (fun x hx => by obtain rfl := Option.some.inj hx; decide), hlower, hargs, dispatch_readbox,
    readBox, twoNumbers_encode]

section Sessions

variable {M : Type} {E : Emu M} {emu₀ : M} {s : Session M}

theorem answers_split {H : Handler M} {before after rs : List (List UInt8)} {cmd : List UInt8}
    {emu : M} (h : answers H emu₀ (before ++ cmd :: after) = some (emu, rs)) :
    ∃ m rs₀ q, answers H emu₀ before = some (m, rs₀) ∧ H.run m cmd = some q ∧
      (logOf (before ++ cmd :: after) rs)[before.length]? = some (cmd, .message (unframe q.2)) := by
  induction before generalizing emu₀ rs with
  | nil =>
    obtain ⟨q, hq, h⟩ := Option.bind_eq_some_iff.1 h
    obtain ⟨p, -, hrs⟩ := Option.map_eq_some_iff.1 h
    cases hrs
    exact ⟨emu₀, [], q, rfl, hq, rfl⟩
  | cons c before ih =>
    obtain ⟨r, hr, h⟩ := Option.bind_eq_some_iff.1 h
    obtain ⟨p, hp, hrs⟩ := Option.map_eq_some_iff.1 h
    cases hrs
    obtain ⟨m, rs₀, q, hbefore, hq, hget⟩ := ih hp
    refine ⟨m, r.2 :: rs₀, q, ?_, hq, hget⟩
    rw [answers, hr, Option.bind_some, hbefore]
    rfl

theorem AtRest.replies {ls : List Label} (h : AtRest (commandHandler E) emu₀ ls s)
    {before after : List (List UInt8)} {cmd : List UInt8}
    (hsplit : commandsOf ls = before ++ cmd :: after) :
    ∃ m rs q, answers (commandHandler E) emu₀ before = some (m, rs) ∧
      handleCommand E m cmd = some q ∧
      (s.log.filterMap commandReply)[before.length]? = some (cmd, .message (unframe q.2)) := by
  obtain ⟨rs, hanswers, hlog, -⟩ := h.lockstep
  rw [hsplit] at hanswers hlog
  rw [hlog]
  exact answers_split hanswers

theorem run_readAllBoxes {ls : List Label} (h : AtRest (commandHandler E) emu₀ ls s)
    {before after : List (List UInt8)}
    (hsplit : commandsOf ls = before ++ encode "readallboxes" :: after) :
    ∃ m rs r, answers (commandHandler E) emu₀ before = some (m, rs) ∧
      (s.log.filterMap commandReply)[before.length]? = some (encode "readallboxes", r) ∧
      readMons r = .ok (boxes (E.memory m)) := by
  obtain ⟨m, rs, q, hbefore, hq, hget⟩ := h.replies hsplit
  rw [handleCommand_readallboxes] at hq
  cases hq
  exact ⟨m, rs, _, hbefore, hget, readMons_boxes (E.memory m)⟩

theorem run_readBox {ls : List Label} (h : AtRest (commandHandler E) emu₀ ls s) {b i : Nat}
    (hb : b < BOXES) (hi : i < BOX_SLOTS) {before after : List (List UInt8)}
    (hsplit : commandsOf ls = before ++ encode (readboxText b i) :: after) :
    ∃ m rs r, answers (commandHandler E) emu₀ before = some (m, rs) ∧
      (s.log.filterMap commandReply)[before.length]? = some (encode (readboxText b i), r) ∧
      readBoxMon r = .ok (if hasSpeciesAt (E.memory m) (boxAddr b i) then
        some (monAt (E.memory m) b i (boxAddr b i) false) else none) := by
  obtain ⟨m, rs, q, hbefore, hq, hget⟩ := h.replies hsplit
  rw [handleCommand_readbox, if_neg (by omega)] at hq
  cases hq
  refine ⟨m, rs, _, hbefore, hget, ?_⟩
  split
  · rw [readBoxMon, sendData_success, ok_bind, if_neg (serializeMon_ne_empty _ _ _ _ _),
      fromWire_serializeMon]
    rfl
  · have hempty : success [] = success (encode "") := rfl
    rw [hempty, readBoxMon, sendData_success, ok_bind, if_pos rfl]

end Sessions

theorem text_raw (k : HostKey) : (Reply.message k.raw).text = .ok ("<|EVENT|>" ++ k.event) := by
  have hraw : k.raw = encode ("<|EVENT|>" ++ k.event) := (encode_append _ _).symm
  rw [hraw, text_message]

theorem stripPrefix_event {pre : String} (k : HostKey)
    (h : ¬ pre.toList <+: "<|EVENT|>".toList ++ k.event.toList) :
    stripPrefix pre ("<|EVENT|>" ++ k.event) = none := by
  rw [stripPrefix, String.toList_append, if_neg h]

theorem recvEvent_raw (k : HostKey) : recvEvent (.message k.raw) = .ok (some k.event) := by
  rw [recvEvent, if_neg (by simp), text_raw, ok_bind, stripPrefix_append]

/-- A wait reads the event of a key. A command without a result takes the event for its success,
and one with a result fails. -/
theorem overtaken (k : HostKey) : recvEvent (.message k.raw) = .ok (some k.event) ∧
    send (.message k.raw) = .ok () ∧
      sendData (.message k.raw) = .error (.unexpected ("<|EVENT|>" ++ k.event)) := by
  have herror : stripPrefix "<|ERROR|>" ("<|EVENT|>" ++ k.event) = none :=
    stripPrefix_event k (by cases k <;> decide)
  have hsuccess : stripPrefix "<|SUCCESS|>" ("<|EVENT|>" ++ k.event) = none :=
    stripPrefix_event k (by cases k <;> decide)
  refine ⟨recvEvent_raw k, ?_, ?_⟩
  · rw [send, text_raw, ok_bind, checkResponse, herror]
  · simp only [sendData, text_raw, ok_bind, herror, hsuccess]

end NuzlockeSolver.Emulator
