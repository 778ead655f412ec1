import RoomRtc.Foundations.Framing
import RoomRtc.Protocol.Messages

/-! The two receiving loops of the signalling protocol, `run_receiver_loop` with
`handle_server_bytes` (`controller/control.rs`) and `handle_client` (`server/user_handler.rs`),
over a TLS stream that keeps no message boundaries: both take what one read brings for one
message. When they process the messages that were written. -/
namespace RoomRtc
open Text Session Framing
set_option autoImplicit false

/-! ## What readers insist on -/

section Fields
variable {μ : Type} {m' : μ} {fields : List Str}

theorem readBare_some {m : μ} (h : readBare m fields = some m') : fields.length = 0 ∧ m = m' := by
  match fields, h with
  | [], h => exact ⟨rfl, Option.some.inj h⟩

theorem readOne_some {m : Str → Option μ} (h : readOne m fields = some m') :
    fields.length = 1 ∧ ∃ a, m a = some m' := by
  match fields, h with
  | [a], h => exact ⟨rfl, a, h⟩

theorem readTwo_some {m : Str → Str → Option μ} (h : readTwo m fields = some m') :
    fields.length = 2 ∧ ∃ a b, m a b = some m' := by
  match fields, h with
  | [a, b], h => exact ⟨rfl, a, b, h⟩

theorem readThree_some {m : Str → Str → Str → Option μ} (h : readThree m fields = some m') :
    fields.length = 3 ∧ ∃ a b c, m a b c = some m' := by
  match fields, h with
  | [a, b, c], h => exact ⟨rfl, a, b, c, h⟩

theorem writes_one {sep : Char} {keyword text a : Str} (h : text = keyword ++ sep :: a) :
    Opens sep keyword text ∧ 1 ≤ text.count sep := by
  refine ⟨.inr ⟨a, h⟩, ?_⟩
  rw [h, count_append_sep]
  omega

theorem writes_two {sep : Char} {keyword text a b : Str} (h : text = keyword ++ sep :: (a ++ sep :: b)) :
    Opens sep keyword text ∧ 2 ≤ text.count sep := by
  refine ⟨.inr ⟨_, h⟩, ?_⟩
  rw [h, count_append_sep, count_append_sep]
  omega

theorem writes_three {sep : Char} {keyword text a b c : Str}
    (h : text = keyword ++ sep :: (a ++ sep :: (b ++ sep :: c))) : Opens sep keyword text ∧ 3 ≤ text.count sep := by
  refine ⟨.inr ⟨_, h⟩, ?_⟩
  rw [h, count_append_sep, count_append_sep, count_append_sep]
  omega

end Fields

namespace ServerMessage

def keyword : Message → Str
  | usernameRequest => "USERNAMEREQUEST".toList
  | callIncoming _ _ => "CALLINCOMING".toList
  | callAccepted _ _ => "CALLACCEPTED".toList
  | callRejected => "CALLREJECTED".toList
  | userStatusUpdate _ _ => "USERSTATE".toList
  | error _ => "ERROR".toList

def arity : Message → ℕ
  | usernameRequest | callRejected => 0
  | error _ => 1
  | callIncoming _ _ | callAccepted _ _ | userStatusUpdate _ _ => 2

theorem readParts_some {kind : Str} {fields : List Str} {m : Message} (h : readParts kind fields = some m) :
    kind = keyword m ∧ fields.length = arity m := by
  unfold readParts at h
  split at h
  · next hkind =>
    obtain ⟨hlen, rfl⟩ := readBare_some h
    exact ⟨hkind, hlen⟩
  split at h
  · next hkind =>
    obtain ⟨hlen, a, b, h⟩ := readTwo_some h
    obtain ⟨sdp, _, h⟩ := Option.bind_eq_some_iff.mp h
    cases h
    exact ⟨hkind, hlen⟩
  split at h
  · next hkind =>
    obtain ⟨hlen, a, b, h⟩ := readTwo_some h
    obtain ⟨sdp, _, h⟩ := Option.bind_eq_some_iff.mp h
    cases h
    exact ⟨hkind, hlen⟩
  split at h
  · next hkind =>
    obtain ⟨hlen, rfl⟩ := readBare_some h
    exact ⟨hkind, hlen⟩
  split at h
  · next hkind =>
    obtain ⟨hlen, a, b, h⟩ := readTwo_some h
    obtain ⟨status, _, h⟩ := Option.bind_eq_some_iff.mp h
    cases h
    exact ⟨hkind, hlen⟩
  split at h
  · next hkind =>
    obtain ⟨hlen, a, h⟩ := readOne_some h
    cases h
    exact ⟨hkind, hlen⟩
  · cases h

theorem isWord_keyword (m : Message) : IsWord '|' (keyword m) := by
  cases m <;> exact isWord_of_all rfl

def reader : Reader Message where
  sep := '|'
  keyword := keyword
  arity := arity
  read := fromText
  sep_plain := by decide
  keyword_word := isWord_keyword
  read_some s m h := by
    unfold fromText at h
    split at h
    · cases h
    · next kind fields hsplit => exact opens_of_parts readParts_some hsplit h

/-- The text is the keyword and at least as many pipes as there are fields. -/
theorem writes_text (orders : Orders) (m : Message) : reader.Writes m (m.text orders) := by
  cases m with
  | usernameRequest => exact ⟨.inl rfl, Nat.zero_le _⟩
  | callRejected => exact ⟨.inl rfl, Nat.zero_le _⟩
  | callIncoming fromUsr sdp => exact writes_two rfl
  | callAccepted fromUsr sdp => exact writes_two rfl
  | userStatusUpdate user status => exact writes_two rfl
  | error msg => exact writes_one rfl

end ServerMessage

namespace ClientMessage

def keyword : Message → Str
  | hello => "HELLO".toList
  | logIn _ _ => "LOGIN".toList
  | signUp _ _ => "SIGNUP".toList
  | logOut _ => "LOGOUT".toList
  | callRequest _ _ _ => "CALLREQUEST".toList
  | callAccept _ _ _ => "CALLACCEPT".toList
  | callReject _ _ => "CALLREJECT".toList
  | callHangup _ => "CALLHANG".toList

def arity : Message → ℕ
  | hello => 0
  | logOut _ | callHangup _ => 1
  | logIn _ _ | signUp _ _ | callReject _ _ => 2
  | callRequest _ _ _ | callAccept _ _ _ => 3

theorem readParts_some {kind : Str} {fields : List Str} {m : Message} (h : readParts kind fields = some m) :
    kind = keyword m ∧ fields.length = arity m := by
  unfold readParts at h
  split at h
  · next hkind =>
    obtain ⟨hlen, rfl⟩ := readBare_some h
    exact ⟨hkind, hlen⟩
  split at h
  · next hkind =>
    obtain ⟨hlen, a, b, h⟩ := readTwo_some h
    cases h
    exact ⟨hkind, hlen⟩
  split at h
  · next hkind =>
    obtain ⟨hlen, a, b, h⟩ := readTwo_some h
    cases h
    exact ⟨hkind, hlen⟩
  split at h
  · next hkind =>
    obtain ⟨hlen, a, h⟩ := readOne_some h
    cases h
    exact ⟨hkind, hlen⟩
  split at h
  · next hkind =>
    obtain ⟨hlen, a, b, c, h⟩ := readThree_some h
    obtain ⟨sdp, _, h⟩ := Option.bind_eq_some_iff.mp h
    cases h
    exact ⟨hkind, hlen⟩
  split at h
  · next hkind =>
    obtain ⟨hlen, a, b, c, h⟩ := readThree_some h
    obtain ⟨sdp, _, h⟩ := Option.bind_eq_some_iff.mp h
    cases h
    exact ⟨hkind, hlen⟩
  split at h
  · next hkind =>
    obtain ⟨hlen, a, b, h⟩ := readTwo_some h
    cases h
    exact ⟨hkind, hlen⟩
  split at h
  · next hkind =>
    obtain ⟨hlen, a, h⟩ := readOne_some h
    cases h
    exact ⟨hkind, hlen⟩
  · cases h

theorem isWord_keyword (m : Message) : IsWord '|' (keyword m) := by
  cases m <;> exact isWord_of_all rfl

def reader : Reader Message where
  sep := '|'
  keyword := keyword
  arity := arity
  read := fromText
  sep_plain := by decide
  keyword_word := isWord_keyword
  read_some s m h := by
    unfold fromText at h
    split at h
    · cases h
    · next kind fields hsplit => exact opens_of_parts readParts_some hsplit h

theorem writes_text (orders : Orders) (m : Message) : reader.Writes m (m.text orders) := by
  cases m with
  | hello => exact ⟨.inl rfl, Nat.zero_le _⟩
  | logIn username password => exact writes_two rfl
  | signUp username password => exact writes_two rfl
  | logOut token => exact writes_one rfl
  | callRequest token sdp toUsr =>
    apply writes_three
    show "CALLREQUEST|".toList ++ token ++ '|' :: sdp.display orders ++ '|' :: toUsr = _
    rw [List.append_assoc, List.append_assoc]
    rfl
  | callAccept fromUsr toUsr sdp =>
    apply writes_three
    show "CALLACCEPT|".toList ++ fromUsr ++ '|' :: toUsr ++ '|' :: sdp.display orders = _
    rw [List.append_assoc, List.append_assoc]
    rfl
  | callReject fromUsr toUsr => exact writes_two rfl
  | callHangup token => exact writes_one rfl

end ClientMessage

/-! ## The loops -/

/-- `handle_server_bytes`, as far as the message it processes; without one it is an error. -/
def handleServerBytes (buff : Bytes) : Option ServerMessage.Message := ServerMessage.fromBytes buff

/-- `run_receiver_loop` over successive reads: the messages it processes, and whether it is still
in its loop behind the last read. An error ends the loop. -/
def runReceiverLoop : List Bytes → List ServerMessage.Message × Bool
  | [] => ([], true)
  | buff :: reads =>
    if buff = [] then ([], false)
    else
      match handleServerBytes buff with
      | none => ([], false)
      | some message =>
        let (messages, running) := runReceiverLoop reads
        (message :: messages, running)

/-- `handle_client` over successive reads: for each the message it handles, or none where it
answers `BadMessage`. -/
def handleClient : List Bytes → List (Option ClientMessage.Message)
  | [] => []
  | buff :: reads => if buff = [] then [] else ClientMessage.fromBytes buff :: handleClient reads

/-- How a stream may reach a reader with a buffer of `limit` bytes: in order and complete, cut
into non-empty reads anyhow. -/
structure Cut (limit : ℕ) (stream : Bytes) (reads : List Bytes) : Prop where
  flatten : reads.flatten = stream
  nonempty : ∀ buff ∈ reads, buff ≠ []
  bounded : ∀ buff ∈ reads, buff.length ≤ limit

theorem runReceiverLoop_iff {reads : List Bytes} (hne : ∀ buff ∈ reads, buff ≠ [])
    (messages : List ServerMessage.Message) :
    runReceiverLoop reads = (messages, true) ↔ reads.map ServerMessage.fromBytes = messages.map some := by
  induction reads generalizing messages with
  | nil =>
    rw [runReceiverLoop, List.map_nil, eq_comm (a := [])]
    simp
  | cons buff reads ih =>
    rw [List.forall_mem_cons] at hne
    rw [runReceiverLoop, if_neg hne.1, handleServerBytes, List.map_cons]
    cases ServerMessage.fromBytes buff with
    | none =>
      cases messages <;> simp
    | some message =>
      cases messages with
      | nil => simp
      | cons m messages =>
        have := ih hne.2 messages
        rw [List.map_cons, List.cons.injEq, ← this, Option.some.injEq]
        dsimp only
        rw [Prod.ext_iff, Prod.ext_iff]
        simp [and_assoc]

theorem handleClient_eq {reads : List Bytes} (hne : ∀ buff ∈ reads, buff ≠ []) :
    handleClient reads = reads.map ClientMessage.fromBytes := by
  induction reads with
  | nil => rfl
  | cons buff reads ih =>
    rw [List.forall_mem_cons] at hne
    rw [handleClient, if_neg hne.1, ih hne.2, List.map_cons]

/-! ## When the framing survives -/

section Survival
variable {μ : Type} (text : Orders → μ → Str) (fromBytes : Bytes → Option μ)

/-- As many reads as messages, each with the text of its message and nothing but whitespace around
it, and every message such that `from_bytes` reads it back from its own bytes. -/
def OneMessagePerRead (sent : List (μ × Orders)) (reads : List Bytes) : Prop :=
  List.Forall₂ (fun e buff => Reader.Holds (text e.2 e.1) buff) sent reads ∧
    ∀ e ∈ sent, fromBytes (encode (text e.2 e.1) ++ [10]) = some e.1

variable {text} in
theorem readBytes_iff_oneMessagePerRead {R : Reader μ} (hwrites : ∀ orders m, R.Writes m (text orders m))
    {sent : List (μ × Orders)} {reads : List Bytes}
    (hflat : reads.flatten = sent.flatMap fun e => encode (text e.2 e.1) ++ [10]) :
    reads.map R.readBytes = (sent.map fun e => some e.1) ↔ OneMessagePerRead text R.readBytes sent reads := by
  have h := R.readBytes_iff (sent.map fun e => (e.1, text e.2 e.1)) reads
    (List.forall_mem_map.mpr fun e _ => hwrites e.2 e.1) (by rw [hflat, List.map_map]; rfl)
  rw [List.map_map, List.forall_mem_map] at h
  rw [OneMessagePerRead]
  refine Iff.trans h (and_congr_left' ?_)
  exact List.forall₂_map_left_iff

end Survival

/-- **When message framing survives the byte stream.** Over every way to cut the bytes of the
messages into reads, the receiver loop of a client and the handler loop of a connection process
just the messages that were written if and only if there is one message per read. -/
theorem framing_survives_iff {pushed : List (ServerMessage.Message × Orders)} {reads : List Bytes}
    (hpushed : Cut 65535 (pushed.flatMap fun e => e.1.toBytes e.2) reads)
    {requested : List (ClientMessage.Message × Orders)} {reads' : List Bytes}
    (hrequested : Cut 1024 (requested.flatMap fun e => e.1.toBytes e.2) reads') :
    (runReceiverLoop reads = (pushed.map Prod.fst, true) ↔
      OneMessagePerRead ServerMessage.text ServerMessage.fromBytes pushed reads) ∧
    (handleClient reads' = (requested.map fun e => some e.1) ↔
      OneMessagePerRead ClientMessage.text ClientMessage.fromBytes requested reads') := by
  refine ⟨?_, ?_⟩
  · rw [runReceiverLoop_iff hpushed.nonempty, List.map_map]
    exact readBytes_iff_oneMessagePerRead ServerMessage.writes_text hpushed.flatten
  · rw [handleClient_eq hrequested.nonempty]
    exact readBytes_iff_oneMessagePerRead ClientMessage.writes_text hrequested.flatten

/-! ## Two messages, together and apart -/

/-- What a granted call makes the server push to everyone. -/
def statusPair : List (ServerMessage.Message × Orders) :=
  [(.userStatusUpdate "alice".toList (.occupied "bob".toList), fun _ => []),
    (.userStatusUpdate "bob".toList (.occupied "alice".toList), fun _ => [])]

def logInAlice : List (ClientMessage.Message × Orders) :=
  [(.logIn "alice".toList "secret".toList, fun _ => [])]

theorem holds_newline (text : Str) : Reader.Holds text (encode text ++ [10]) :=
  ⟨text ++ ['\n'], by
    have h : encode text ++ [10] = encode (text ++ ['\n']) := (encode_append text ['\n']).symm
    rw [h, decode_encode], trim_append_whitespace text Reader.newline_whitespace⟩

/-- Read one by one, the messages of both directions are processed. -/
theorem one_by_one_processed :
    runReceiverLoop (statusPair.map fun e => e.1.toBytes e.2) = (statusPair.map Prod.fst, true) ∧
    handleClient (logInAlice.map fun e => e.1.toBytes e.2) = (logInAlice.map fun e => some e.1) := by
  have hpushed : Cut 65535 (statusPair.flatMap fun e => e.1.toBytes e.2)
      (statusPair.map fun e => e.1.toBytes e.2) := ⟨by simp [statusPair], by decide +kernel, by decide +kernel⟩
  have hrequested : Cut 1024 (logInAlice.flatMap fun e => e.1.toBytes e.2)
      (logInAlice.map fun e => e.1.toBytes e.2) := ⟨by simp [logInAlice], by decide +kernel, by decide +kernel⟩
  have hiff := framing_survives_iff hpushed hrequested
  refine ⟨hiff.1.mpr ⟨.cons (holds_newline _) (.cons (holds_newline _) .nil), ?_⟩,
    hiff.2.mpr ⟨.cons (holds_newline _) .nil, ?_⟩⟩
  · intro e he
    have hread : ∀ e ∈ statusPair, ServerMessage.fromText (trim (e.1.text e.2)) = some e.1 := by decide +kernel
    exact (ServerMessage.reader.readBytes_newline _).trans (hread e he)
  · intro e he
    have hread : ∀ e ∈ logInAlice, ClientMessage.fromText (trim (e.1.text e.2)) = some e.1 := by decide +kernel
    exact (ClientMessage.reader.readBytes_newline _).trans (hread e he)

/-- Both pushes as one read may bring them. -/
def joinedPushes : Str := "USERSTATE|alice|Occupied:bob\nUSERSTATE|bob|Occupied:alice\n".toList

theorem joined_not_read : handleServerBytes (encode joinedPushes) = none := by
  have h : ServerMessage.fromText (trim joinedPushes) = none := by decide +kernel
  rw [handleServerBytes, ServerMessage.fromBytes, decode_encode]
  exact h

/-- The two halves of a request. -/
def splitRequest : List Str := ["LOGIN|ali".toList, "ce|secret\n".toList]

theorem split_not_read : ∀ half ∈ splitRequest, ClientMessage.fromBytes (encode half) = none := by
  have h : ∀ half ∈ splitRequest, ClientMessage.fromText (trim half) = none := by decide +kernel
  intro half hmem
  rw [ClientMessage.fromBytes, decode_encode]
  exact h half hmem

/-- Two pushes that one read brings together are lost and end the loop, and a request that comes
in two reads is answered twice with `BadMessage`. -/
theorem joined_and_split_lost :
    (∃ reads, Cut 65535 (statusPair.flatMap fun e => e.1.toBytes e.2) reads ∧
      runReceiverLoop reads = ([], false) ∧ runReceiverLoop reads ≠ (statusPair.map Prod.fst, true)) ∧
    ∃ reads, Cut 1024 (logInAlice.flatMap fun e => e.1.toBytes e.2) reads ∧
      handleClient reads = [none, none] ∧ handleClient reads ≠ (logInAlice.map fun e => some e.1) := by
  refine ⟨⟨[encode joinedPushes], ?_, ?_⟩, ⟨splitRequest.map encode, ?_, ?_⟩⟩
  · exact ⟨by decide +kernel, by decide +kernel, by decide +kernel⟩
  · have hne : encode joinedPushes ≠ [] := by decide +kernel
    have hrun : runReceiverLoop [encode joinedPushes] = ([], false) := by
      rw [runReceiverLoop, if_neg hne, joined_not_read]
    rw [hrun]
    exact ⟨rfl, by simp⟩
  · exact ⟨by decide +kernel, by decide +kernel, by decide +kernel⟩
  · have hrun : handleClient (splitRequest.map encode) = [none, none] := by
      rw [handleClient_eq (by decide +kernel), List.map_map]
      exact List.map_congr_left (g := fun _ => none) split_not_read
    rw [hrun]
    exact ⟨rfl, by simp [logInAlice]⟩

end RoomRtc
