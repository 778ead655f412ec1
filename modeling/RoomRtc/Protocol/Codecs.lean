import RoomRtc.Protocol.Framing
import RoomRtc.Server.Announcement
import RoomRtc.Session.RoundTrip

/-! The signalling messages written and read back. One lemma reads the keyword and the fields of
any message; what is left of each variant is its arity and the text of its last field, from which
the outer `trim` may cut whitespace. -/
namespace RoomRtc
open Text Session Framing
set_option autoImplicit false

/-! ## Descriptions inside messages -/

/-- The last line goes on, the others are as before. -/
theorem splitOn_concat {α : Type} [BEq α] [LawfulBEq α] {sep c : α} (hc : c ≠ sep) (s : List α) :
    ∃ init last, s.splitOn sep = init ++ [last] ∧ (s ++ [c]).splitOn sep = init ++ [last ++ [c]] := by
  have hne : ¬(c == sep) = true := by simpa using hc
  induction s with
  | nil => exact ⟨[], [], by simp, by simp [List.splitOn_cons_eq_if_modifyHead, hne]⟩
  | cons x s ih =>
    obtain ⟨init, last, hs, hsc⟩ := ih
    rw [List.cons_append, List.splitOn_cons_eq_if_modifyHead, List.splitOn_cons_eq_if_modifyHead, hs, hsc]
    by_cases hx : (x == sep) = true
    · rw [if_pos hx, if_pos hx]
      exact ⟨[] :: init, last, rfl, rfl⟩
    · rw [if_neg hx, if_neg hx]
      cases init with
      | nil => exact ⟨[], x :: last, rfl, rfl⟩
      | cons first init => exact ⟨(x :: first) :: init, last, rfl, rfl⟩

theorem fromStr_append_whitespace (s : Str) {w : Str} (hw : ∀ c ∈ w, isWhitespace c = true) :
    SessionDescriptionProtocol.fromStr (s ++ w) = SessionDescriptionProtocol.fromStr s := by
  induction w using List.reverseRecOn with
  | nil => rw [List.append_nil]
  | append_singleton w c ih =>
    rw [← ih fun d hd => hw d (by simp [hd]), ← List.append_assoc]
    generalize s ++ w = t
    have hspace : ∀ d ∈ [c], isWhitespace d = true := by simp [hw c]
    unfold SessionDescriptionProtocol.fromStr
    congr 1
    by_cases hc : c = '\n'
    · -- one more line, and it is empty
      rw [hc, List.splitOn_append_cons_self, List.splitOn_nil, List.foldlM_append]
      cases (t.splitOn '\n').foldlM handleLine [] <;> rfl
    · obtain ⟨init, last, ht, htc⟩ := splitOn_concat hc t
      have hline : ∀ mds, handleLine mds (last ++ [c]) = handleLine mds last := by
        intro mds
        rw [handleLine, trim_append_whitespace last hspace]
        rfl
      rw [ht, htc, List.foldlM_append, List.foldlM_append]
      simp [hline]

/-- What a message asks of the description in it. -/
structure SdpField (orders : Orders) (sdp : SessionDescriptionProtocol) : Prop where
  wellFormed : sdp.WellFormed
  iterates : sdp.Iterates orders
  pipe : '|' ∉ sdp.display orders

theorem readSdp_display {orders : Orders} {sdp : SessionDescriptionProtocol} (h : SdpField orders sdp) :
    readSdp (sdp.display orders) = some (.new sdp.mediaDescriptions .default) := by
  rw [readSdp, SessionDescriptionProtocol.sections_read_back h.wellFormed h.iterates]
  rfl

theorem readSdp_last {orders : Orders} {sdp : SessionDescriptionProtocol} (h : SdpField orders sdp) :
    readSdp ((sdp.display orders).rdropWhile isWhitespace) = some (.new sdp.mediaDescriptions .default) := by
  have hcut := fromStr_append_whitespace ((sdp.display orders).rdropWhile isWhitespace)
    (fun _ hc => List.mem_rtakeWhile_imp hc : ∀ c ∈ (sdp.display orders).rtakeWhile isWhitespace,
      isWhitespace c = true)
  rw [List.rdropWhile_append_rtakeWhile] at hcut
  rw [readSdp, ← hcut]
  exact readSdp_display h

/-! ## Keyword and fields -/

/-- A user name, a password or a token. How it begins does not matter. -/
structure NameField (s : Str) : Prop where
  pipe : '|' ∉ s
  comma : ',' ∉ s
  semicolon : ';' ∉ s
  colon : ':' ∉ s
  ends : EndsPlain s

structure ErrorField (s : Str) : Prop where
  pipe : '|' ∉ s
  ends : EndsPlain s

/-- What all four readers do before they look at the keyword. -/
def readMessage {μ : Type} (readParts : Str → List Str → Option μ) (bytes : Bytes) : Option μ := do
  let s ← decode bytes
  match (trim s).splitOn '|' with
  | [] => none
  | kind :: fields => readParts kind fields

theorem readMessage_fields {μ : Type} (readParts : Str → List Str → Option μ) {text keyword : Str}
    {fields : List Str}
    (htext : text = fieldsText '|' keyword fields) (hkeyword : IsToken keyword ∧ '|' ∉ keyword)
    (hfields : ∀ f ∈ fields, '|' ∉ f) :
    readMessage readParts (encode text ++ [10]) = readParts keyword (trimLast fields) := by
  have hbytes : encode text ++ [10] = encode (text ++ ['\n']) := (encode_append text ['\n']).symm
  rw [readMessage, hbytes, decode_encode]
  show (match (trim (text ++ ['\n'])).splitOn '|' with
    | [] => none
    | kind :: fields => readParts kind fields) = _
  rw [htext, splitOn_trim_fields (by decide) hkeyword hfields]

theorem text_one {keyword text a : Str} (h : text = keyword ++ '|' :: a) : text = fieldsText '|' keyword [a] := by
  simp [h, fieldsText]

theorem text_two {keyword text a b : Str} (h : text = keyword ++ '|' :: (a ++ '|' :: b)) :
    text = fieldsText '|' keyword [a, b] := by
  simp [h, fieldsText]

theorem text_three {keyword text a b c : Str} (h : text = keyword ++ '|' :: (a ++ '|' :: (b ++ '|' :: c))) :
    text = fieldsText '|' keyword [a, b, c] := by
  simp [h, fieldsText]

theorem token_of_isWord {word : Str} (h : IsWord '|' word) : IsToken word ∧ '|' ∉ word :=
  ⟨⟨h.1, h.2.1⟩, h.2.2⟩

theorem trimLast_one {a : Str} (h : EndsPlain a) : trimLast [a] = [a] := by
  rw [trimLast, rdropWhile_of_endsPlain h]

theorem trimLast_two {a b : Str} (h : EndsPlain b) : trimLast [a, b] = [a, b] := by
  rw [trimLast, trimLast_one h]

theorem trimLast_three {a b c : Str} (h : EndsPlain c) : trimLast [a, b, c] = [a, b, c] := by
  rw [trimLast, trimLast_two h]

/-! ## What clients send -/

namespace ClientMessage

/-- The strings of the message are plain and its description can be read. -/
def WellFormed (orders : Orders) : Message → Prop
  | hello => True
  | logIn username password => NameField username ∧ NameField password
  | signUp username password => NameField username ∧ NameField password
  | logOut token => NameField token
  | callRequest token offerSdp toUsr => NameField token ∧ SdpField orders offerSdp ∧ NameField toUsr
  | callAccept fromUsr toUsr sdpAnswer => NameField fromUsr ∧ NameField toUsr ∧ SdpField orders sdpAnswer
  | callReject fromUsr toUsr => NameField fromUsr ∧ NameField toUsr
  | callHangup token => NameField token

/-- The same variant with the same fields; of descriptions the media sections count. -/
def Same : Message → Message → Prop
  | callRequest token offerSdp toUsr, callRequest token' offerSdp' toUsr' =>
    token = token' ∧ offerSdp.mediaDescriptions = offerSdp'.mediaDescriptions ∧ toUsr = toUsr'
  | callAccept fromUsr toUsr sdpAnswer, callAccept fromUsr' toUsr' sdpAnswer' =>
    fromUsr = fromUsr' ∧ toUsr = toUsr' ∧ sdpAnswer.mediaDescriptions = sdpAnswer'.mediaDescriptions
  | m, m' => m = m'

def fields (orders : Orders) : Message → List Str
  | hello => []
  | logIn username password => [username, password]
  | signUp username password => [username, password]
  | logOut token => [token]
  | callRequest token offerSdp toUsr => [token, offerSdp.display orders, toUsr]
  | callAccept fromUsr toUsr sdpAnswer => [fromUsr, toUsr, sdpAnswer.display orders]
  | callReject fromUsr toUsr => [fromUsr, toUsr]
  | callHangup token => [token]

theorem text_eq_fields (orders : Orders) (m : Message) :
    m.text orders = fieldsText '|' m.keyword (m.fields orders) := by
  cases m with
  | hello => exact (List.append_nil _).symm
  | logIn username password => exact text_two rfl
  | signUp username password => exact text_two rfl
  | logOut token => exact text_one rfl
  | callRequest token offerSdp toUsr =>
    apply text_three
    show "CALLREQUEST|".toList ++ token ++ '|' :: offerSdp.display orders ++ '|' :: toUsr = _
    rw [List.append_assoc, List.append_assoc]
    rfl
  | callAccept fromUsr toUsr sdpAnswer =>
    apply text_three
    show "CALLACCEPT|".toList ++ fromUsr ++ '|' :: toUsr ++ '|' :: sdpAnswer.display orders = _
    rw [List.append_assoc, List.append_assoc]
    rfl
  | callReject fromUsr toUsr => exact text_two rfl
  | callHangup token => exact text_one rfl

theorem pipe_not_mem_fields {orders : Orders} {m : Message} (h : m.WellFormed orders) :
    ∀ f ∈ m.fields orders, '|' ∉ f := by
  cases m with
  | hello => simp [fields]
  | logIn username password => simp [fields, h.1.pipe, h.2.pipe]
  | signUp username password => simp [fields, h.1.pipe, h.2.pipe]
  | logOut token => simp [fields, NameField.pipe h]
  | callRequest token offerSdp toUsr => simp [fields, h.1.pipe, h.2.1.pipe, h.2.2.pipe]
  | callAccept fromUsr toUsr sdpAnswer => simp [fields, h.1.pipe, h.2.1.pipe, h.2.2.pipe]
  | callReject fromUsr toUsr => simp [fields, h.1.pipe, h.2.pipe]
  | callHangup token => simp [fields, NameField.pipe h]

theorem readParts_callRequest (fields : List Str) : readParts "CALLREQUEST".toList fields =
    readThree (fun token offerSdp toUsr => do some (callRequest token (← readSdp offerSdp) toUsr)) fields := by
  rw [readParts, if_neg (by decide), if_neg (by decide), if_neg (by decide), if_neg (by decide), if_pos rfl]

theorem readParts_callAccept (fields : List Str) : readParts "CALLACCEPT".toList fields =
    readThree (fun fromUsr toUsr sdpAnswer => do some (callAccept fromUsr toUsr (← readSdp sdpAnswer))) fields := by
  rw [readParts, if_neg (by decide), if_neg (by decide), if_neg (by decide), if_neg (by decide), if_neg (by decide),
    if_pos rfl]

theorem read_back {orders : Orders} {m : Message} (h : m.WellFormed orders) :
    ∃ m', fromBytes (m.toBytes orders) = some m' ∧ m.Same m' := by
  have hread : fromBytes (m.toBytes orders) = readParts m.keyword (trimLast (m.fields orders)) :=
    readMessage_fields readParts (text_eq_fields orders m) (token_of_isWord (isWord_keyword m)) (pipe_not_mem_fields h)
  rw [hread]
  cases m with
  | hello => exact ⟨hello, rfl, rfl⟩
  | logIn username password =>
    rw [fields, trimLast_two h.2.ends]
    exact ⟨logIn username password, rfl, rfl⟩
  | signUp username password =>
    rw [fields, trimLast_two h.2.ends]
    exact ⟨signUp username password, rfl, rfl⟩
  | logOut token =>
    rw [fields, trimLast_one (NameField.ends h)]
    exact ⟨logOut token, rfl, rfl⟩
  | callRequest token offerSdp toUsr =>
    refine ⟨callRequest token (.new offerSdp.mediaDescriptions .default) toUsr, ?_, rfl, rfl, rfl⟩
    rw [fields, trimLast_three h.2.2.ends]
    apply (readParts_callRequest _).trans
    rw [readThree, readSdp_display h.2.1]
    rfl
  | callAccept fromUsr toUsr sdpAnswer =>
    refine ⟨callAccept fromUsr toUsr (.new sdpAnswer.mediaDescriptions .default), ?_, rfl, rfl, rfl⟩
    rw [fields, trimLast, trimLast, trimLast]
    apply (readParts_callAccept _).trans
    rw [readThree, readSdp_last h.2.2]
    rfl
  | callReject fromUsr toUsr =>
    rw [fields, trimLast_two h.2.ends]
    exact ⟨callReject fromUsr toUsr, rfl, rfl⟩
  | callHangup token =>
    rw [fields, trimLast_one (NameField.ends h)]
    exact ⟨callHangup token, rfl, rfl⟩

end ClientMessage

theorem ClientResponse.read_back {r : ClientResponse} (h : ∀ name, r = .username name → NameField name) :
    fromBytes r.toBytes = some r := by
  obtain ⟨name⟩ := r
  have hname := h name rfl
  have hread : fromBytes (username name).toBytes = readParts "USERNAME".toList (trimLast [name]) :=
    readMessage_fields readParts (text_one rfl) ⟨by decide, by decide⟩ (by simp [hname.pipe])
  rw [hread, trimLast_one hname.ends]
  rfl

/-! ## What the server pushes -/

/-- The peer of an occupied user is a name. -/
def StatusField (status : UserStatus) : Prop := ∀ peer, status = .occupied peer → NameField peer

theorem plainEntry_of_fields {username : Str} {status : UserStatus} (hname : NameField username)
    (hstatus : StatusField status) : PlainEntry username status :=
  ⟨hname.comma, hname.semicolon,
    fun peer hp => ⟨(hstatus peer hp).comma, (hstatus peer hp).semicolon, (hstatus peer hp).ends⟩⟩

theorem pipe_not_mem_status {status : UserStatus} (h : StatusField status) : '|' ∉ status.display :=
  not_mem_display (by decide) fun peer hp => (h peer hp).pipe

namespace ServerMessage

def WellFormed (orders : Orders) : Message → Prop
  | usernameRequest => True
  | callIncoming fromUsr offerSdp => NameField fromUsr ∧ SdpField orders offerSdp
  | callAccepted fromUsr sdpAnswer => NameField fromUsr ∧ SdpField orders sdpAnswer
  | callRejected => True
  | userStatusUpdate user status => NameField user ∧ StatusField status
  | error msg => ErrorField msg

/-- The same variant with the same fields; of descriptions the media sections count. -/
def Same : Message → Message → Prop
  | callIncoming fromUsr offerSdp, callIncoming fromUsr' offerSdp' =>
    fromUsr = fromUsr' ∧ offerSdp.mediaDescriptions = offerSdp'.mediaDescriptions
  | callAccepted fromUsr sdpAnswer, callAccepted fromUsr' sdpAnswer' =>
    fromUsr = fromUsr' ∧ sdpAnswer.mediaDescriptions = sdpAnswer'.mediaDescriptions
  | m, m' => m = m'

def fields (orders : Orders) : Message → List Str
  | usernameRequest => []
  | callIncoming fromUsr offerSdp => [fromUsr, offerSdp.display orders]
  | callAccepted fromUsr sdpAnswer => [fromUsr, sdpAnswer.display orders]
  | callRejected => []
  | userStatusUpdate user status => [user, status.display]
  | error msg => [msg]

theorem text_eq_fields (orders : Orders) (m : Message) :
    m.text orders = fieldsText '|' m.keyword (m.fields orders) := by
  cases m with
  | usernameRequest => exact (List.append_nil _).symm
  | callIncoming fromUsr offerSdp => exact text_two rfl
  | callAccepted fromUsr sdpAnswer => exact text_two rfl
  | callRejected => exact (List.append_nil _).symm
  | userStatusUpdate user status => exact text_two rfl
  | error msg => exact text_one rfl

theorem pipe_not_mem_fields {orders : Orders} {m : Message} (h : m.WellFormed orders) :
    ∀ f ∈ m.fields orders, '|' ∉ f := by
  cases m with
  | usernameRequest => simp [fields]
  | callIncoming fromUsr offerSdp => simp [fields, h.1.pipe, h.2.pipe]
  | callAccepted fromUsr sdpAnswer => simp [fields, h.1.pipe, h.2.pipe]
  | callRejected => simp [fields]
  | userStatusUpdate user status => simp [fields, h.1.pipe, pipe_not_mem_status h.2]
  | error msg => simp [fields, ErrorField.pipe h]

theorem readParts_callIncoming (fields : List Str) : readParts "CALLINCOMING".toList fields =
    readTwo (fun fromUsr offerSdp => do some (callIncoming fromUsr (← readSdp offerSdp))) fields := by
  rw [readParts, if_neg (by decide), if_pos rfl]

theorem readParts_callAccepted (fields : List Str) : readParts "CALLACCEPTED".toList fields =
    readTwo (fun fromUsr sdpAnswer => do some (callAccepted fromUsr (← readSdp sdpAnswer))) fields := by
  rw [readParts, if_neg (by decide), if_neg (by decide), if_pos rfl]

theorem readParts_userState (fields : List Str) : readParts "USERSTATE".toList fields =
    readTwo (fun user status => do some (userStatusUpdate user (← UserStatus.fromBytes (encode status)))) fields := by
  rw [readParts, if_neg (by decide), if_neg (by decide), if_neg (by decide), if_neg (by decide), if_pos rfl]

theorem read_back {orders : Orders} {m : Message} (h : m.WellFormed orders) :
    ∃ m', fromBytes (m.toBytes orders) = some m' ∧ m.Same m' := by
  have hread : fromBytes (m.toBytes orders) = readParts m.keyword (trimLast (m.fields orders)) :=
    readMessage_fields readParts (text_eq_fields orders m) (token_of_isWord (isWord_keyword m)) (pipe_not_mem_fields h)
  rw [hread]
  cases m with
  | usernameRequest => exact ⟨usernameRequest, rfl, rfl⟩
  | callIncoming fromUsr offerSdp =>
    refine ⟨callIncoming fromUsr (.new offerSdp.mediaDescriptions .default), ?_, rfl, rfl⟩
    rw [fields, trimLast, trimLast]
    apply (readParts_callIncoming _).trans
    rw [readTwo, readSdp_last h.2]
    rfl
  | callAccepted fromUsr sdpAnswer =>
    refine ⟨callAccepted fromUsr (.new sdpAnswer.mediaDescriptions .default), ?_, rfl, rfl⟩
    rw [fields, trimLast, trimLast]
    apply (readParts_callAccepted _).trans
    rw [readTwo, readSdp_last h.2]
    rfl
  | callRejected => exact ⟨callRejected, rfl, rfl⟩
  | userStatusUpdate user status =>
    have hplain := plainEntry_of_fields h.1 h.2
    refine ⟨userStatusUpdate user status, ?_, rfl⟩
    rw [fields, trimLast_two (endsPlain_display hplain).2]
    apply (readParts_userState _).trans
    rw [readTwo, UserStatus.fromBytes_display hplain fun peer hp => (h.2 peer hp).colon]
    rfl
  | error msg =>
    rw [fields, trimLast_one (ErrorField.ends h)]
    exact ⟨error msg, rfl, rfl⟩

end ServerMessage

/-! ## What the server answers -/

namespace ServerResponse

/-- The text of an error, if it is one. -/
def message : ServerResponse → Option Str
  | loginError msg | signupError msg | logoutError msg | callHangUpError msg | callRequestError msg
  | callAcceptError msg | callRejectError msg | error msg => some msg
  | _ => none

def WellFormed : ServerResponse → Prop
  | loginOk token _ usersStatus => NameField token ∧
    ∀ username status, usersStatus.lookup username = some status → NameField username ∧ StatusField status
  | r => ∀ msg, r.message = some msg → ErrorField msg

/-- The same variant with the same fields; maps are the same if they give every user the same. -/
def Same : ServerResponse → ServerResponse → Prop
  | loginOk token address usersStatus, loginOk token' address' usersStatus' =>
    token = token' ∧ address = address' ∧ ∀ username, usersStatus.lookup username = usersStatus'.lookup username
  | r, r' => r = r'

theorem fromBytes_eq (bytes : Bytes) : fromBytes bytes = readMessage readParts bytes := rfl

theorem read_bare {r : ServerResponse} (hword : IsWord '|' r.text) (hparts : readParts r.text [] = some r) :
    fromBytes r.toBytes = some r := by
  have htext : r.text = fieldsText '|' r.text [] := (List.append_nil r.text).symm
  rw [fromBytes_eq, toBytes, readMessage_fields readParts htext (token_of_isWord hword) (by simp)]
  exact hparts

theorem read_msg {r : ServerResponse} {head msg : Str} (keyword : Str) (hhead : head = keyword ++ ['|'])
    (htext : r.text = head ++ msg) (hword : IsWord '|' keyword) (hparts : readParts keyword [msg] = some r)
    (h : ErrorField msg) : fromBytes r.toBytes = some r := by
  rw [hhead, List.append_assoc, List.singleton_append] at htext
  rw [fromBytes_eq, toBytes, readMessage_fields readParts (text_one htext) (token_of_isWord hword) (by simp [h.pipe]),
    trimLast_one h.ends]
  exact hparts

theorem read_back {r : ServerResponse} (h : r.WellFormed) : ∃ r', fromBytes r.toBytes = some r' ∧ r.Same r' := by
  cases r with
  | welcome => exact ⟨_, read_bare (isWord_of_all rfl) rfl, rfl⟩
  | serverFull => exact ⟨_, read_bare (isWord_of_all rfl) rfl, rfl⟩
  | loginOk token address usersStatus =>
    obtain ⟨htoken, husers⟩ := h
    have hentries : ∀ e ∈ usersStatus.entries, NameField e.1 ∧ StatusField e.2 :=
      fun e he => husers e.1 e.2 (AList.mem_lookup_iff.mpr he)
    have hpipe : '|' ∉ usersText usersStatus.entries := by
      apply not_mem_usersText (by decide)
      intro e he
      simp [entryText, (hentries e he).1.pipe, pipe_not_mem_status (hentries e he).2]
    obtain ⟨usersStatus', hread, hsame⟩ := fromBytes_toBytes_loginOk address htoken.pipe
      (fun username status hlook => plainEntry_of_fields (husers username status hlook).1
        (husers username status hlook).2)
      hpipe fun e he peer hp => ((hentries e he).2 peer hp).colon
    exact ⟨_, hread, rfl, rfl, fun username => (hsame username).symm⟩
  | loginError msg =>
    exact ⟨_, read_msg "LOGINERROR".toList (by decide) rfl (isWord_of_all rfl) rfl (h msg rfl), rfl⟩
  | signupOk => exact ⟨_, read_bare (isWord_of_all rfl) rfl, rfl⟩
  | signupError msg =>
    exact ⟨_, read_msg "SIGNUPERROR".toList (by decide) rfl (isWord_of_all rfl) rfl (h msg rfl), rfl⟩
  | logoutOk => exact ⟨_, read_bare (isWord_of_all rfl) rfl, rfl⟩
  | logoutError msg =>
    exact ⟨_, read_msg "LOGOUTERROR".toList (by decide) rfl (isWord_of_all rfl) rfl (h msg rfl), rfl⟩
  | callHangUpOk => exact ⟨_, read_bare (isWord_of_all rfl) rfl, rfl⟩
  | callHangUpError msg =>
    exact ⟨_, read_msg "CALLHANGUPERROR".toList (by decide) rfl (isWord_of_all rfl) rfl (h msg rfl), rfl⟩
  | callRequestOk => exact ⟨_, read_bare (isWord_of_all rfl) rfl, rfl⟩
  | callRequestError msg =>
    exact ⟨_, read_msg "CALLREQUESTERROR".toList (by decide) rfl (isWord_of_all rfl) rfl (h msg rfl), rfl⟩
  | callAcceptOk => exact ⟨_, read_bare (isWord_of_all rfl) rfl, rfl⟩
  | callAcceptError msg =>
    exact ⟨_, read_msg "CALLACCEPTERROR".toList (by decide) rfl (isWord_of_all rfl) rfl (h msg rfl), rfl⟩
  | callRejectOk => exact ⟨_, read_bare (isWord_of_all rfl) rfl, rfl⟩
  | callRejectError msg =>
    exact ⟨_, read_msg "CALLREJECTERROR".toList (by decide) rfl (isWord_of_all rfl) rfl (h msg rfl), rfl⟩
  | badMessage => exact ⟨_, read_bare (isWord_of_all rfl) rfl, rfl⟩
  | error msg => exact ⟨_, read_msg "ERROR".toList (by decide) rfl (isWord_of_all rfl) rfl (h msg rfl), rfl⟩

end ServerResponse

/-! ## All four codecs -/

/-- **The signalling codecs round-trip.** Every well-formed message and response of either side is
read back from its bytes as the same variant with the same fields. -/
theorem signalling_round_trip :
    (∀ (m : ClientMessage.Message) (orders : Orders), m.WellFormed orders →
      ∃ m', ClientMessage.fromBytes (m.toBytes orders) = some m' ∧ m.Same m') ∧
    (∀ r : ClientResponse, (∀ name, r = .username name → NameField name) →
      ClientResponse.fromBytes r.toBytes = some r) ∧
    (∀ (m : ServerMessage.Message) (orders : Orders), m.WellFormed orders →
      ∃ m', ServerMessage.fromBytes (m.toBytes orders) = some m' ∧ m.Same m') ∧
    ∀ r : ServerResponse, r.WellFormed → ∃ r', ServerResponse.fromBytes r.toBytes = some r' ∧ r.Same r' :=
  ⟨fun _ _ h => ClientMessage.read_back h, fun _ h => ClientResponse.read_back h,
    fun _ _ h => ServerMessage.read_back h, fun _ h => ServerResponse.read_back h⟩

theorem nameField_alice : NameField "alice".toList := ⟨by decide, by decide, by decide, by decide, by decide⟩

theorem nameField_bob : NameField "bob".toList := ⟨by decide, by decide, by decide, by decide, by decide⟩

/-- An answer with one section, of every kind of attribute. -/
def microphoneAnswer : SessionDescriptionProtocol := .new [SessionDescriptionProtocol.microphone] .default

theorem sdpField_microphoneAnswer : SdpField (fun _ => [8, 96]) microphoneAnswer where
  wellFormed := by
    refine ⟨by decide, by decide, by decide, fun md hmd => ?_⟩
    rw [List.mem_singleton.mp hmd]
    exact SessionDescriptionProtocol.microphone_wellFormed
  iterates := SessionDescriptionProtocol.iterates_single rfl (by decide) (by decide)
  pipe := by decide +kernel

/-- A call is accepted, announced, and its end shows in the statuses of the next login. -/
theorem accepted_call_round_trip :
    (∃ m', ClientMessage.fromBytes ((ClientMessage.callAccept "bob".toList "alice".toList microphoneAnswer).toBytes
      fun _ => [8, 96]) = some m' ∧ (ClientMessage.callAccept "bob".toList "alice".toList
        microphoneAnswer).Same m') ∧
    ClientResponse.fromBytes (ClientResponse.username "bob".toList).toBytes = some (.username "bob".toList) ∧
    (∃ m', ServerMessage.fromBytes ((ServerMessage.userStatusUpdate "alice".toList (.occupied "bob".toList)).toBytes
      fun _ => []) = some m' ∧ (ServerMessage.userStatusUpdate "alice".toList (.occupied "bob".toList)).Same m') ∧
    ∃ r', ServerResponse.fromBytes (ServerResponse.loginOk "alice".toList ⟨10, 0, 0, 1, 8081⟩
      (AList.singleton "bob".toList .available)).toBytes = some r' ∧
      (ServerResponse.loginOk "alice".toList ⟨10, 0, 0, 1, 8081⟩
        (AList.singleton "bob".toList .available)).Same r' := by
  obtain ⟨hclient, hresponse, hpush, hanswer⟩ := signalling_round_trip
  refine ⟨?_, ?_, ?_, ?_⟩
  · exact hclient _ _ ⟨nameField_bob, nameField_alice, sdpField_microphoneAnswer⟩
  · refine hresponse _ ?_
    rintro name ⟨⟩
    exact nameField_bob
  · refine hpush _ _ ⟨nameField_alice, ?_⟩
    rintro peer ⟨⟩
    exact nameField_bob
  · refine hanswer _ ⟨nameField_alice, ?_⟩
    intro username status hlook
    have hmem := AList.mem_lookup_iff.mp hlook
    cases List.mem_singleton.mp hmem
    exact ⟨nameField_bob, fun peer hp => by cases hp⟩

end RoomRtc
