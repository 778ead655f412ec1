import RoomRtc.Foundations.Tokens
import RoomRtc.Session.Answer
import RoomRtc.Session.SdpText

/-! The text of a session description read back. Attribute by attribute, then section by section
with the attributes attached to the section begun last, then the whole text line by line. -/
namespace RoomRtc.Session
open Text
set_option autoImplicit false

/-! ## What the text can carry -/

/-- An attribute of a section with these payload types that its line can carry. -/
def Attribute.WellFormed (fmts : Finset UInt8) : Attribute → Prop
  | .candidate c => IsToken c.foundation ∧ IsToken c.transport ∧ IsToken c.address
  | .rtpMap fmt encodingName _ encodingParams =>
    fmt ∈ fmts ∧ (IsToken encodingName ∧ '/' ∉ encodingName) ∧ ∀ params ∈ encodingParams,
      Plain params ∧ '/' ∉ params
  | .fingerprint f => IsToken f.algorithm ∧ f.bytes ≠ []
  | .setup _ => True

/-- The strings of an attribute are what its line can carry, whatever else it holds. -/
def Attribute.Tokens : Attribute → Prop
  | .candidate c => IsToken c.foundation ∧ IsToken c.transport ∧ IsToken c.address
  | .rtpMap _ encodingName _ encodingParams =>
    (IsToken encodingName ∧ '/' ∉ encodingName) ∧ ∀ params ∈ encodingParams, Plain params ∧ '/' ∉ params
  | .fingerprint f => IsToken f.algorithm
  | .setup _ => True

/-- A fingerprint has a hash. -/
def Attribute.HasBytes : Attribute → Prop
  | .fingerprint f => f.bytes ≠ []
  | _ => True

structure MediaDescription.WellFormed (md : MediaDescription) : Prop where
  mediaType : IsToken md.mediaType
  protocol : IsToken md.protocol
  fmts : md.fmts.Nonempty
  attributes : ∀ attr ∈ md.attributes, attr.WellFormed md.fmts

structure MediaDescription.Tokens (md : MediaDescription) : Prop where
  mediaType : IsToken md.mediaType
  protocol : IsToken md.protocol
  attributes : ∀ attr ∈ md.attributes, attr.Tokens

structure SessionDescriptionProtocol.WellFormed (sdp : SessionDescriptionProtocol) : Prop where
  sessionName : '\n' ∉ sdp.sessionName
  timing : '\n' ∉ sdp.timing
  connectionData : '\n' ∉ sdp.connectionData
  sections : ∀ md ∈ sdp.mediaDescriptions, md.WellFormed

theorem Attribute.wellFormed_iff {fmts : Finset UInt8} {attr : Attribute} :
    attr.WellFormed fmts ↔ attr.Fits fmts ∧ attr.Tokens ∧ attr.HasBytes := by
  cases attr with
  | candidate c => exact ⟨fun h => ⟨trivial, h, trivial⟩, fun h => h.2.1⟩
  | rtpMap fmt name rate params => exact ⟨fun h => ⟨h.1, h.2, trivial⟩, fun h => ⟨h.1, h.2.1⟩⟩
  | fingerprint f => exact ⟨fun h => ⟨trivial, h⟩, fun h => h.2⟩
  | setup role => exact ⟨fun _ => ⟨trivial, trivial, trivial⟩, fun _ => trivial⟩

theorem MediaDescription.WellFormed.tokens {md : MediaDescription} (h : md.WellFormed) : md.Tokens where
  mediaType := h.mediaType
  protocol := h.protocol
  attributes := fun attr hattr => (Attribute.wellFormed_iff.mp (h.attributes attr hattr)).2.1

/-! ## Numbers -/

theorem isToken_decimal (n : ℕ) : IsToken (decimal n) := isToken_toDigits n

theorem lineFeed_not_mem_decimal (n : ℕ) : '\n' ∉ decimal n := (isToken_decimal n).plain.lineFeed_not_mem

theorem parseNumber_decimal {bound n : ℕ} (error : SdpError) (h : n < bound) :
    parseNumber bound error (decimal n) = .ok n := by
  rw [parseNumber, decimal, parseUnsigned_toDigits h]

theorem not_mem_decimal {c : Char} (hc : c.isDigit = false) (n : ℕ) : c ∉ decimal n := by
  intro hmem
  rw [isDigit_toDigits hmem] at hc
  cases hc

theorem exists_hexByte (b : UInt8) : ∃ hi < 16, ∃ lo < 16, b.toNat = hi * 16 + lo ∧
    hexByte b = [(Nat.digitChar hi).toUpper, (Nat.digitChar lo).toUpper] := by
  have hb := b.toNat_lt
  exact ⟨b.toNat / 16, by omega, b.toNat % 16, by omega, by omega, rfl⟩

theorem hexDigit_plain : ∀ d < 16, isWhitespace (Nat.digitChar d).toUpper = false ∧
    (Nat.digitChar d).toUpper ≠ ':' ∧ (Nat.digitChar d).toUpper ≠ '+' := by decide

theorem isToken_hexByte (b : UInt8) : IsToken (hexByte b) := by
  obtain ⟨hi, hhi, lo, hlo, _, heq⟩ := exists_hexByte b
  rw [heq]
  refine ⟨List.cons_ne_nil _ _, ?_⟩
  intro c hc
  simp only [List.mem_cons, List.not_mem_nil, or_false] at hc
  obtain rfl | rfl := hc
  · exact (hexDigit_plain hi hhi).1
  · exact (hexDigit_plain lo hlo).1

theorem colon_not_mem_hexByte (b : UInt8) : ':' ∉ hexByte b := by
  obtain ⟨hi, hhi, lo, hlo, _, heq⟩ := exists_hexByte b
  rw [heq]
  simp [(hexDigit_plain hi hhi).2.1.symm, (hexDigit_plain lo hlo).2.1.symm]

theorem parseUnsigned_hexByte (b : UInt8) : parseUnsigned 16 256 (hexByte b) = some b.toNat := by
  obtain ⟨hi, hhi, lo, hlo, hb, heq⟩ := exists_hexByte b
  have hlt := b.toNat_lt
  unfold parseUnsigned
  rw [heq]
  split
  · next digits hdigits => exact absurd (List.cons.inj hdigits).1 (hexDigit_plain hi hhi).2.2
  · rw [if_neg (List.cons_ne_nil _ _)]
    simp [toDigit_toUpper hi hhi, toDigit_toUpper lo hlo, ← hb]
    omega

/-! ## Attributes -/

theorem readByte_hexByte (b : UInt8) : Fingerprint.readByte (hexByte b) = .ok b := by
  have htoken := isToken_hexByte b
  rw [Fingerprint.readByte, trim_plain htoken.plain, if_neg htoken.nonempty, parseUnsigned_hexByte]
  simp

theorem plain_hexValue (f : Fingerprint) : Plain f.hexValue := by
  have key : ∀ bytes : Bytes, Plain ([':'].intercalate (bytes.map hexByte)) := by
    intro bytes
    induction bytes with
    | nil => exact fun c hc => by cases hc
    | cons b bytes ih =>
      cases bytes with
      | nil => simpa using (isToken_hexByte b).plain
      | cons b' bytes =>
        rw [List.map_cons, List.map_cons, List.intercalate_cons_cons, plain_append, plain_append]
        exact ⟨⟨(isToken_hexByte b).plain, by decide⟩, ih⟩
  exact key f.bytes

theorem hexValue_ne_nil {f : Fingerprint} (h : f.bytes ≠ []) : f.hexValue ≠ [] := by
  obtain ⟨b, bytes, hbytes⟩ := List.exists_cons_of_ne_nil h
  rw [Fingerprint.hexValue, hbytes, List.map_cons]
  cases bytes with
  | nil => simpa using (isToken_hexByte b).nonempty
  | cons b' bytes => simp [List.intercalate_cons_cons]

theorem fromHashString_hexValue {f : Fingerprint} (h : f.bytes ≠ []) :
    Fingerprint.fromHashString f.algorithm f.hexValue = .ok f := by
  have hsplit : f.hexValue.splitOn ':' = f.bytes.map hexByte := by
    rw [Fingerprint.hexValue, List.splitOn_intercalate ':' _ (by simpa using h)]
    intro l hl
    obtain ⟨b, _, rfl⟩ := List.mem_map.mp hl
    exact colon_not_mem_hexByte b
  have hread : ∀ bytes : Bytes, (bytes.map hexByte).mapM Fingerprint.readByte = .ok bytes := by
    intro bytes
    induction bytes with
    | nil => rfl
    | cons b bytes ih =>
      rw [List.map_cons, List.mapM_cons, readByte_hexByte, ih]
      rfl
  rw [Fingerprint.fromHashString, trim_plain (plain_hexValue f), hsplit, hread, if_neg (hexValue_ne_nil h)]
  show (if f.bytes = [] then _ else _) = Except.ok f
  rw [if_neg h]
  rfl

def Attribute.key : Attribute → Str
  | .candidate _ => "candidate".toList
  | .rtpMap _ _ _ _ => "rtpmap".toList
  | .fingerprint _ => "fingerprint".toList
  | .setup _ => "setup".toList

/-- An `rtpmap` behind its payload type. -/
def mapping (encName : Str) (clockRate : UInt32) (encodingParams : Option Str) : Str :=
  encName ++ '/' :: (decimal clockRate.toNat ++ (encodingParams.map fun params => '/' :: params).getD [])

def Attribute.value : Attribute → Str
  | .candidate c =>
    c.foundation ++ ' ' :: (decimal c.componentId.toNat ++ ' ' :: (c.transport ++ ' ' ::
      (decimal c.priority.toNat ++ ' ' :: (c.address ++ ' ' :: (decimal c.port.toNat ++ ' ' ::
        ("typ".toList ++ ' ' :: c.candidateType.display))))))
  | .rtpMap fmt encName clockRate encodingParams => decimal fmt.toNat ++ ' ' :: mapping encName clockRate encodingParams
  | .fingerprint f => f.algorithm ++ ' ' :: f.hexValue
  | .setup role => role.display

theorem display_eq (attr : Attribute) : attr.display = "a=".toList ++ (attr.key ++ ':' :: attr.value) := by
  cases attr with
  | candidate c =>
    show "a=candidate:".toList ++ c.foundation ++ ' ' :: decimal c.componentId.toNat ++ ' ' :: c.transport ++
      ' ' :: decimal c.priority.toNat ++ ' ' :: c.address ++ ' ' :: decimal c.port.toNat ++
      " typ ".toList ++ c.candidateType.display = "a=".toList ++ ("candidate".toList ++ ':' :: _)
    simp [Attribute.value]
  | rtpMap fmt encName clockRate encodingParams =>
    cases encodingParams with
    | none =>
      show "a=rtpmap:".toList ++ decimal fmt.toNat ++ ' ' :: encName ++ '/' :: decimal clockRate.toNat =
        "a=".toList ++ ("rtpmap".toList ++ ':' :: (decimal fmt.toNat ++ ' ' :: mapping encName clockRate none))
      simp [mapping]
    | some params =>
      show "a=rtpmap:".toList ++ decimal fmt.toNat ++ ' ' :: encName ++ '/' :: decimal clockRate.toNat ++
        '/' :: params =
        "a=".toList ++ ("rtpmap".toList ++ ':' :: (decimal fmt.toNat ++ ' ' :: mapping encName clockRate (some params)))
      simp [mapping]
  | fingerprint f =>
    show "a=fingerprint:".toList ++ f.algorithm ++ ' ' :: f.hexValue =
      "a=".toList ++ ("fingerprint".toList ++ ':' :: (f.algorithm ++ ' ' :: f.hexValue))
    simp
  | setup role =>
    show "a=setup:".toList ++ role.display = "a=".toList ++ ("setup".toList ++ ':' :: role.display)
    simp

theorem isToken_candidateType (t : CandidateType) : IsToken t.display := by
  cases t <;> exact by decide

theorem candidateType_fromStr (t : CandidateType) : CandidateType.fromStr t.display = some t := by
  cases t <;> decide

theorem isToken_role (role : DtlsSetupRole) : IsToken role.display := by
  cases role <;> exact by decide

theorem plain_mapping {encName : Str} {clockRate : UInt32} {encodingParams : Option Str} (hname : Plain encName)
    (hparams : ∀ params ∈ encodingParams, Plain params ∧ '/' ∉ params) :
    Plain (mapping encName clockRate encodingParams) := by
  unfold mapping
  rw [plain_append, plain_cons, plain_append]
  refine ⟨hname, by decide, (isToken_decimal _).plain, ?_⟩
  cases encodingParams with
  | none => exact fun c hc => by cases hc
  | some params => exact plain_cons.mpr ⟨by decide, (hparams params rfl).1⟩

theorem parseCandidate_value {c : Candidate} (hfoundation : IsToken c.foundation) (htransport : IsToken c.transport)
    (haddress : IsToken c.address) : parseCandidateAttrValues (Attribute.candidate c).value = .ok (.candidate c) := by
  have hsplit : splitWhitespace (Attribute.candidate c).value =
      [c.foundation, decimal c.componentId.toNat, c.transport, decimal c.priority.toNat, c.address,
        decimal c.port.toNat, "typ".toList, c.candidateType.display] := by
    have htyp : IsToken "typ".toList := by decide
    rw [Attribute.value, splitWhitespace_append hfoundation space_whitespace,
      splitWhitespace_append (isToken_decimal _) space_whitespace, splitWhitespace_append htransport space_whitespace,
      splitWhitespace_append (isToken_decimal _) space_whitespace, splitWhitespace_append haddress space_whitespace,
      splitWhitespace_append (isToken_decimal _) space_whitespace, splitWhitespace_append htyp space_whitespace,
      splitWhitespace_token (isToken_candidateType _)]
  rw [parseCandidateAttrValues, hsplit]
  dsimp only
  rw [if_neg (not_not_intro rfl), candidateType_fromStr, parseNumber_decimal _ c.priority.toNat_lt,
    parseNumber_decimal _ c.port.toNat_lt, parseNumber_decimal _ c.componentId.toNat_lt]
  show Except.ok (Attribute.candidate _) = _
  rw [UInt32.ofNat_toNat, UInt16.ofNat_toNat, UInt8.ofNat_toNat]

theorem parseRtpmap_value {fmt : UInt8} {encName : Str} {clockRate : UInt32} {encodingParams : Option Str}
    (hname : IsToken encName) (hslash : '/' ∉ encName)
    (hparams : ∀ params ∈ encodingParams, Plain params ∧ '/' ∉ params) :
    parseRtpmapAttrValues (Attribute.rtpMap fmt encName clockRate encodingParams).value =
      .ok (.rtpMap fmt encName clockRate encodingParams) := by
  have hmapping : IsToken (mapping encName clockRate encodingParams) :=
    ⟨by simp [mapping], plain_mapping hname.plain hparams⟩
  have hsplit : splitWhitespace (Attribute.rtpMap fmt encName clockRate encodingParams).value =
      [decimal fmt.toNat, mapping encName clockRate encodingParams] := by
    rw [Attribute.value, splitWhitespace_append (isToken_decimal _) space_whitespace, splitWhitespace_token hmapping]
  have hrate : '/' ∉ decimal clockRate.toNat := not_mem_decimal rfl _
  have hparts : (mapping encName clockRate encodingParams).splitOn '/' =
      encName :: decimal clockRate.toNat :: encodingParams.toList := by
    unfold mapping
    rw [splitOn_first hslash]
    cases encodingParams with
    | none => rw [Option.map_none, Option.getD_none, List.append_nil, splitOn_single hrate, Option.toList_none]
    | some params =>
      rw [Option.map_some, Option.getD_some, splitOn_first hrate, splitOn_single (hparams params rfl).2,
        Option.toList_some]
  rw [parseRtpmapAttrValues, hsplit]
  dsimp only
  rw [parseNumber_decimal _ fmt.toNat_lt, hparts]
  show (if encName = [] then _ else _) = _
  rw [if_neg hname.nonempty, parseNumber_decimal _ clockRate.toNat_lt]
  show (if 2 ≤ encodingParams.toList.length then _ else _) = _
  rw [if_neg (by cases encodingParams <;> simp)]
  show Except.ok (Attribute.rtpMap _ _ _ _) = _
  rw [UInt32.ofNat_toNat, UInt8.ofNat_toNat]
  cases encodingParams <;> rfl

theorem parseFingerprint_value {f : Fingerprint} (halgorithm : IsToken f.algorithm) (hbytes : f.bytes ≠ []) :
    parseFingerprintAttrValues (Attribute.fingerprint f).value = .ok (.fingerprint f) := by
  have hhex : IsToken f.hexValue := ⟨hexValue_ne_nil hbytes, plain_hexValue f⟩
  have hsplit : splitWhitespace (Attribute.fingerprint f).value = [f.algorithm, f.hexValue] := by
    rw [Attribute.value, splitWhitespace_append halgorithm space_whitespace, splitWhitespace_token hhex]
  rw [parseFingerprintAttrValues, hsplit]
  dsimp only
  rw [trim_plain halgorithm.plain, trim_plain hhex.plain, fromHashString_hexValue hbytes]
  rfl

theorem parseSetup_value (role : DtlsSetupRole) :
    parseSetupAttrValues (Attribute.setup role).value = .ok (.setup role) := by
  have hrole : DtlsSetupRole.fromStr role.display = .ok role := by
    cases role <;> decide +kernel
  rw [parseSetupAttrValues, Attribute.value, trim_plain (isToken_role role).plain, hrole]
  rfl

theorem isToken_key (attr : Attribute) : IsToken attr.key ∧ ':' ∉ attr.key := by
  cases attr with
  | candidate c => exact (by decide : IsToken "candidate".toList ∧ ':' ∉ "candidate".toList)
  | rtpMap fmt encName clockRate encodingParams =>
    exact (by decide : IsToken "rtpmap".toList ∧ ':' ∉ "rtpmap".toList)
  | fingerprint f => exact (by decide : IsToken "fingerprint".toList ∧ ':' ∉ "fingerprint".toList)
  | setup role => exact (by decide : IsToken "setup".toList ∧ ':' ∉ "setup".toList)

/-- **An attribute is read back from its line.** -/
theorem attribute_fromStr {fmts : Finset UInt8} {attr : Attribute} (h : attr.WellFormed fmts) :
    Attribute.fromStr (attr.key ++ ':' :: attr.value) = .ok attr := by
  rw [Attribute.fromStr, splitOnce_append _ (isToken_key attr).2]
  cases attr with
  | candidate c => exact parseCandidate_value h.1 h.2.1 h.2.2
  | rtpMap fmt encName clockRate encodingParams => exact parseRtpmap_value h.2.1.1 h.2.1.2 h.2.2
  | fingerprint f => exact parseFingerprint_value h.1 h.2
  | setup role => exact parseSetup_value role

/-! ## Lines -/

theorem value_ends {fmts : Finset UInt8} {attr : Attribute} (h : attr.WellFormed fmts) :
    ∃ front last, attr.value = front ++ last ∧ IsToken last := by
  cases attr with
  | candidate c =>
    refine ⟨c.foundation ++ ' ' :: (decimal c.componentId.toNat ++ ' ' :: (c.transport ++ ' ' ::
      (decimal c.priority.toNat ++ ' ' :: (c.address ++ ' ' :: (decimal c.port.toNat ++ ' ' ::
        ("typ".toList ++ [' '])))))), c.candidateType.display, ?_, isToken_candidateType _⟩
    simp [Attribute.value]
  | rtpMap fmt encName clockRate encodingParams =>
    refine ⟨decimal fmt.toNat ++ [' '], mapping encName clockRate encodingParams, ?_, ?_⟩
    · simp [Attribute.value]
    · exact ⟨by simp [mapping], plain_mapping h.2.1.1.plain h.2.2⟩
  | fingerprint f =>
    refine ⟨f.algorithm ++ [' '], f.hexValue, ?_, ⟨hexValue_ne_nil h.2, plain_hexValue f⟩⟩
    simp [Attribute.value]
  | setup role => exact ⟨[], role.display, rfl, isToken_role role⟩

theorem trim_attribute {fmts : Finset UInt8} {attr : Attribute} (h : attr.WellFormed fmts) :
    trim (' ' :: attr.display) = "a=".toList ++ (attr.key ++ ':' :: attr.value) := by
  obtain ⟨front, last, hvalue, hlast⟩ := value_ends h
  rw [trim_cons_whitespace space_whitespace, display_eq]
  apply trim_token_endsPlain (by decide)
  have hend : attr.key ++ ':' :: attr.value = (attr.key ++ ':' :: front) ++ last := by
    rw [hvalue, List.append_assoc, List.cons_append]
  rw [hend, endsPlain_append hlast.nonempty]
  exact hlast.plain.endsPlain

theorem newline_not_mem_attribute {attr : Attribute} (h : attr.Tokens) :
    '\n' ∉ ' ' :: attr.display := by
  have hkey : '\n' ∉ attr.key := (isToken_key attr).1.plain.lineFeed_not_mem
  have hvalue : '\n' ∉ attr.value := by
    cases attr with
    | candidate c =>
      simp [Attribute.value, lineFeed_not_mem_decimal, h.1.plain.lineFeed_not_mem, h.2.1.plain.lineFeed_not_mem,
        h.2.2.plain.lineFeed_not_mem, (isToken_candidateType c.candidateType).plain.lineFeed_not_mem]
    | rtpMap fmt encName clockRate encodingParams =>
      simp [Attribute.value, lineFeed_not_mem_decimal, (plain_mapping h.1.1.plain h.2).lineFeed_not_mem]
    | fingerprint f => simp [Attribute.value, (IsToken.plain h).lineFeed_not_mem, (plain_hexValue f).lineFeed_not_mem]
    | setup role => exact (isToken_role role).plain.lineFeed_not_mem
  rw [display_eq]
  simp [hkey, hvalue]

/-- What a line is taken for, by its key. -/
theorem handleLine_keyed {key : Char} (hkey : key ≠ '=') {line text : Str} (htrim : trim line = key :: '=' :: text)
    (mds : List MediaDescription) : handleLine mds line =
      if key = 'm' then handleMediaDescriptionLine text mds
      else if key = 'a' then handleAttributeLine text mds else .ok mds := by
  have hsplit : splitOnce '=' (key :: '=' :: text) = some ([key], text) :=
    @splitOnce_append '=' [key] text (by simpa using hkey.symm)
  have hm : [key] = "m".toList ↔ key = 'm' := List.singleton_inj
  have ha : [key] = "a".toList ↔ key = 'a' := List.singleton_inj
  rw [handleLine, htrim, if_neg (List.cons_ne_nil _ _), hsplit]
  dsimp only
  rw [if_congr hm rfl (if_congr ha rfl rfl)]

theorem handleLine_attribute {md : MediaDescription} {attr : Attribute} (h : attr.WellFormed md.fmts)
    (mds : List MediaDescription) :
    handleLine (mds ++ [md]) (' ' :: attr.display) =
      .ok (mds ++ [{ md with attributes := md.attributes ++ [attr] }]) := by
  have htrim : trim (' ' :: attr.display) = 'a' :: '=' :: (attr.key ++ ':' :: attr.value) := trim_attribute h
  rw [handleLine_keyed (by decide) htrim, if_neg (by decide), if_pos rfl, handleAttributeLine, attribute_fromStr h]
  rw [List.getLast?_concat, List.dropLast_concat]
  show (md.addAttribute attr >>= fun md => Except.ok (mds ++ [md])) = _
  rw [addAttribute_fits (Attribute.wellFormed_iff.mp h).1]
  rfl

/-- The first line of a section behind its key. -/
def MediaDescription.value (order : List UInt8) (md : MediaDescription) : Str :=
  md.mediaType ++ ' ' :: (decimal md.port.toNat ++ ' ' ::
    (md.protocol ++ (order.map fun fmt => decimal fmt.toNat).flatMap fun word => ' ' :: word))

/-- The lines of a section. -/
def MediaDescription.lines (order : List UInt8) (md : MediaDescription) : List Str :=
  ("m=".toList ++ md.value order) :: md.attributes.map fun attr => ' ' :: attr.display

theorem isToken_fmt {order : List UInt8} : ∀ word ∈ order.map fun fmt => decimal fmt.toNat, IsToken word := by
  intro word hword
  obtain ⟨fmt, _, rfl⟩ := List.mem_map.mp hword
  exact isToken_decimal _

theorem splitWhitespace_section {md : MediaDescription} (h : md.Tokens) (order : List UInt8) :
    splitWhitespace (md.value order) =
      md.mediaType :: decimal md.port.toNat :: md.protocol :: order.map fun fmt => decimal fmt.toNat := by
  rw [MediaDescription.value, splitWhitespace_append h.mediaType space_whitespace,
    splitWhitespace_append (isToken_decimal _) space_whitespace, splitWhitespace_spaced h.protocol isToken_fmt]

theorem endsPlain_section {order : List UInt8} (hne : order ≠ []) (md : MediaDescription) :
    EndsPlain (md.value order) := by
  obtain ⟨init, last, hlast⟩ := (List.eq_nil_or_concat order).resolve_left hne
  have hcut : md.value order =
      (md.mediaType ++ ' ' :: (decimal md.port.toNat ++ ' ' ::
        (md.protocol ++ ((init.map fun fmt => decimal fmt.toNat).flatMap (fun word => ' ' :: word) ++ [' '])))) ++
        decimal last.toNat := by
    rw [hlast]
    simp [MediaDescription.value]
  rw [hcut, endsPlain_append (isToken_decimal _).nonempty]
  exact (isToken_decimal _).plain.endsPlain

theorem foldlM_fmts (order : List UInt8) (acc : Finset UInt8) :
    (order.map fun fmt => decimal fmt.toNat).foldlM (fun (acc : Finset UInt8) f => do
      let fmt ← parseNumber 256 .invalidFmtError f
      return insert (UInt8.ofNat fmt) acc) acc = .ok (order.toFinset ∪ acc) := by
  induction order generalizing acc with
  | nil => simp [pure, Except.pure]
  | cons fmt order ih =>
    have hone : ∀ acc : Finset UInt8, (do
        let fmt ← parseNumber 256 .invalidFmtError (decimal fmt.toNat)
        return insert (UInt8.ofNat fmt) acc : Except SdpError (Finset UInt8)) = .ok (insert fmt acc) := by
      intro acc
      rw [parseNumber_decimal _ fmt.toNat_lt]
      show Except.ok _ = _
      rw [UInt8.ofNat_toNat]
    rw [List.map_cons, List.foldlM_cons, hone]
    show List.foldlM _ _ _ = _
    rw [ih, List.toFinset_cons, Finset.insert_union, Finset.union_insert]

theorem handleLine_media {value : Str} (hends : EndsPlain value) (mds : List MediaDescription) :
    handleLine mds ("m=".toList ++ value) = handleMediaDescriptionLine value mds := by
  have htrim : trim ("m=".toList ++ value) = 'm' :: '=' :: value := trim_token_endsPlain (by decide) hends
  rw [handleLine_keyed (by decide) htrim, if_pos rfl]

theorem handleLine_section {md : MediaDescription} (h : md.Tokens) (hfmts : md.fmts.Nonempty) {order : List UInt8}
    (horder : order.toFinset = md.fmts) (mds : List MediaDescription) :
    handleLine mds ("m=".toList ++ md.value order) = .ok (mds ++ [{ md with attributes := [] }]) := by
  have hne : order ≠ [] := by
    rintro rfl
    exact hfmts.ne_empty horder.symm
  obtain ⟨fmt, fmts, hcons⟩ := List.exists_cons_of_ne_nil hne
  have hread := foldlM_fmts order ∅
  rw [Finset.union_empty, horder, hcons, List.map_cons] at hread
  rw [handleLine_media (endsPlain_section hne md), handleMediaDescriptionLine, MediaDescription.fromStr,
    splitWhitespace_section h, hcons, List.map_cons]
  dsimp only
  rw [parseNumber_decimal _ md.port.toNat_lt]
  show (List.foldlM _ _ _ >>= _ >>= _) = _
  rw [hread]
  show Except.ok (mds ++ [MediaDescription.new _ (UInt16.ofNat md.port.toNat) _ _]) = _
  rw [UInt16.ofNat_toNat]
  rfl

/-- A session-level line is passed over, whatever it says. -/
theorem handleLine_session {key : Char}
    (hkey : key ≠ 'm' ∧ key ≠ 'a' ∧ key ≠ '=' ∧ isWhitespace key = false)
    (text : Str) (mds : List MediaDescription) : handleLine mds (key :: '=' :: text) = .ok mds := by
  obtain ⟨hm, ha, heq, hplain⟩ := hkey
  have htoken : IsToken [key, '='] := ⟨List.cons_ne_nil _ _, by
    rw [plain_cons]
    exact ⟨hplain, by decide⟩⟩
  have htrim := trim_token_append htoken text
  rw [List.cons_append, List.singleton_append] at htrim
  rw [handleLine_keyed heq htrim, if_neg hm, if_neg ha]

/-! ## Sections -/

theorem foldlM_attributes {attrs : List Attribute} {md : MediaDescription}
    (h : ∀ attr ∈ attrs, attr.WellFormed md.fmts) (mds : List MediaDescription) :
    (attrs.map fun attr => ' ' :: attr.display).foldlM handleLine (mds ++ [md]) =
      .ok (mds ++ [{ md with attributes := md.attributes ++ attrs }]) := by
  induction attrs generalizing md with
  | nil =>
    rw [List.append_nil]
    rfl
  | cons attr attrs ih =>
    rw [List.forall_mem_cons] at h
    have hrest := @ih { md with attributes := md.attributes ++ [attr] } h.2
    rw [List.append_assoc, List.singleton_append] at hrest
    rw [List.map_cons, List.foldlM_cons, handleLine_attribute h.1]
    exact hrest

theorem foldlM_section {md : MediaDescription} (h : md.WellFormed) {order : List UInt8}
    (horder : order.toFinset = md.fmts) (mds : List MediaDescription) :
    (md.lines order).foldlM handleLine mds = .ok (mds ++ [md]) := by
  rw [MediaDescription.lines, List.foldlM_cons, handleLine_section h.tokens h.fmts horder]
  exact @foldlM_attributes md.attributes { md with attributes := [] } h.attributes mds

/-- The lines of all sections. -/
def sectionLines (orders : Orders) : ℕ → List MediaDescription → List Str
  | _, [] => []
  | i, md :: mds => md.lines (orders i) ++ sectionLines orders (i + 1) mds

theorem display_section (order : List UInt8) (md : MediaDescription) :
    '\n' :: md.display order = (md.lines order).flatMap fun line => '\n' :: line := by
  show '\n' :: ("m=".toList ++ md.mediaType ++ ' ' :: decimal md.port.toNat ++ ' ' :: md.protocol ++
    order.flatMap (fun fmt => ' ' :: decimal fmt.toNat) ++
    md.attributes.flatMap (fun attr => '\n' :: ' ' :: attr.display)) = _
  rw [MediaDescription.lines, MediaDescription.value, List.flatMap_cons, List.flatMap_map, List.flatMap_map]
  simp only [List.append_assoc, List.cons_append]

theorem displayMds_eq (orders : Orders) (i : ℕ) (mds : List MediaDescription) :
    displayMds orders i mds = (sectionLines orders i mds).flatMap fun line => '\n' :: line := by
  induction mds generalizing i with
  | nil => rfl
  | cons md mds ih => rw [displayMds, sectionLines, List.flatMap_append, display_section, ih]

/-- From section `i` of the orders on they are orders of the payload types of the sections. -/
def Ordered (orders : Orders) (i : ℕ) (mds : List MediaDescription) : Prop :=
  ∀ j md, mds[j]? = some md → (orders (i + j)).toFinset = md.fmts

theorem ordered_cons {orders : Orders} {i : ℕ} {md : MediaDescription} {mds : List MediaDescription}
    (h : Ordered orders i (md :: mds)) : (orders i).toFinset = md.fmts ∧ Ordered orders (i + 1) mds := by
  refine ⟨h 0 md rfl, ?_⟩
  intro j md' hj
  have hnext := h (j + 1) md' hj
  rwa [← Nat.add_assoc, Nat.add_right_comm] at hnext

theorem ordered_of_iterates {sdp : SessionDescriptionProtocol} {orders : Orders} (h : sdp.Iterates orders) :
    Ordered orders 0 sdp.mediaDescriptions := by
  intro j md hj
  rw [Nat.zero_add]
  exact (h j md hj).2

theorem foldlM_sections {mds : List MediaDescription} {orders : Orders} {i : ℕ} (h : ∀ md ∈ mds, md.WellFormed)
    (horders : Ordered orders i mds) (acc : List MediaDescription) :
    (sectionLines orders i mds).foldlM handleLine acc = .ok (acc ++ mds) := by
  induction mds generalizing i acc with
  | nil =>
    rw [List.append_nil]
    rfl
  | cons md mds ih =>
    rw [List.forall_mem_cons] at h
    obtain ⟨hfirst, hrest⟩ := ordered_cons horders
    rw [sectionLines, List.foldlM_append, foldlM_section h.1 hfirst]
    show List.foldlM handleLine _ _ = _
    rw [ih h.2 hrest, List.append_assoc, List.singleton_append]

theorem newline_not_mem_section {md : MediaDescription} (h : md.Tokens) (order : List UInt8) :
    ∀ line ∈ md.lines order, '\n' ∉ line := by
  rw [MediaDescription.lines, List.forall_mem_cons]
  constructor
  · simp [MediaDescription.value, h.mediaType.plain.lineFeed_not_mem, h.protocol.plain.lineFeed_not_mem,
      lineFeed_not_mem_decimal]
  · intro line hline
    obtain ⟨attr, hattr, rfl⟩ := List.mem_map.mp hline
    exact newline_not_mem_attribute (h.attributes attr hattr)

theorem newline_not_mem_sections {mds : List MediaDescription} (h : ∀ md ∈ mds, md.Tokens) (orders : Orders)
    (i : ℕ) : ∀ line ∈ sectionLines orders i mds, '\n' ∉ line := by
  induction mds generalizing i with
  | nil => simp [sectionLines]
  | cons md mds ih =>
    rw [List.forall_mem_cons] at h
    intro line hline
    cases List.mem_append.mp hline with
    | inl hfirst => exact newline_not_mem_section h.1 (orders i) line hfirst
    | inr hrest => exact ih h.2 (i + 1) line hrest

/-! ## Whole descriptions -/

namespace SessionDescriptionProtocol

theorem display_lines (sdp : SessionDescriptionProtocol) (orders : Orders) :
    sdp.display orders = ('v' :: '=' :: decimal sdp.version.toNat) ++
      (['o' :: '=' :: decimal sdp.originId.toNat, 's' :: '=' :: sdp.sessionName, 't' :: '=' :: sdp.timing,
        'c' :: '=' :: sdp.connectionData] ++ sectionLines orders 0 sdp.mediaDescriptions).flatMap
          fun line => '\n' :: line := by
  show "v=".toList ++ decimal sdp.version.toNat ++ "\no=".toList ++ decimal sdp.originId.toNat ++
    "\ns=".toList ++ sdp.sessionName ++ "\nt=".toList ++ sdp.timing ++ "\nc=".toList ++ sdp.connectionData ++
    displayMds orders 0 sdp.mediaDescriptions = _
  rw [displayMds_eq]
  simp

/-- Reading a text of well-formed lines: the session-level lines are passed over and the others
give the sections. -/
theorem fromStr_display {sdp : SessionDescriptionProtocol} (hname : '\n' ∉ sdp.sessionName)
    (htiming : '\n' ∉ sdp.timing) (hdata : '\n' ∉ sdp.connectionData) {orders : Orders}
    (hlines : ∀ line ∈ sectionLines orders 0 sdp.mediaDescriptions, '\n' ∉ line) :
    fromStr (sdp.display orders) = (do
      let mediaDescriptions ← (sectionLines orders 0 sdp.mediaDescriptions).foldlM handleLine []
      return .new mediaDescriptions .default) := by
  rw [fromStr, display_lines, splitOn_led (by simp [lineFeed_not_mem_decimal])]
  · have hsession : ∀ key ∈ ['v', 'o', 's', 't', 'c'], ∀ text mds,
      handleLine mds (key :: '=' :: text) = .ok mds := by
      intro key hkey
      apply handleLine_session
      simp only [List.mem_cons, List.not_mem_nil, or_false] at hkey
      obtain rfl | rfl | rfl | rfl | rfl := hkey <;> decide
    simp only [List.cons_append, List.nil_append, List.foldlM_cons]
    rw [hsession 'v' (by simp)]
    show ((handleLine [] _ >>= _) >>= _) = _
    rw [hsession 'o' (by simp)]
    show ((handleLine [] _ >>= _) >>= _) = _
    rw [hsession 's' (by simp)]
    show ((handleLine [] _ >>= _) >>= _) = _
    rw [hsession 't' (by simp)]
    show ((handleLine [] _ >>= _) >>= _) = _
    rw [hsession 'c' (by simp)]
    rfl
  · intro line hline
    simp only [List.mem_append, List.mem_cons, List.not_mem_nil, or_false] at hline
    obtain (rfl | rfl | rfl | rfl) | hline := hline
    · simp [lineFeed_not_mem_decimal]
    · simp [hname]
    · simp [htiming]
    · simp [hdata]
    · exact hlines line hline

/-- **The text of a session description is read back.** In whatever order the payload types were
written, the sections that are read are those that were written. -/
theorem sections_read_back {sdp : SessionDescriptionProtocol} (h : sdp.WellFormed) {orders : Orders}
    (horders : sdp.Iterates orders) :
    fromStr (sdp.display orders) = .ok (.new sdp.mediaDescriptions .default) := by
  rw [fromStr_display h.sessionName h.timing h.connectionData
    (newline_not_mem_sections (fun md hmd => (h.sections md hmd).tokens) orders 0),
    foldlM_sections h.sections (ordered_of_iterates horders)]
  rfl

/-- **Session descriptions round-trip.** Every well-formed description is read back from its text
with the same sections, whatever the order in which its payload types iterate. -/
theorem sdp_round_trip (sdp : SessionDescriptionProtocol) (h : sdp.WellFormed) (orders : Orders)
    (horders : sdp.Iterates orders) :
    ∃ read, fromStr (sdp.display orders) = .ok read ∧ read.mediaDescriptions = sdp.mediaDescriptions :=
  ⟨_, sections_read_back h horders, rfl⟩

/-! ### A call's description -/

theorem iterates_single {sdp : SessionDescriptionProtocol} {md : MediaDescription} (h : sdp.mediaDescriptions = [md])
    {order : List UInt8} (hnodup : order.Nodup) (horder : order.toFinset = md.fmts) : sdp.Iterates fun _ => order := by
  intro i md' hmd'
  rw [h] at hmd'
  rw [List.mem_singleton.mp (List.mem_of_getElem? hmd')]
  exact ⟨hnodup, horder⟩

/-- A section with an attribute of every kind. -/
def microphone : MediaDescription where
  mediaType := "microphone".toList
  port := 5004
  protocol := "RTP/AVP".toList
  fmts := {96, 8}
  attributes :=
    [.rtpMap 96 "opus".toList 48000 (some "2".toList),
      .candidate ⟨.host, 42, "10.0.0.1".toList, 5004, 1, "1".toList, "UDP".toList⟩,
      .fingerprint ⟨"sha-256".toList, [0x0A, 0xFF]⟩, .setup .actPass]

theorem microphone_attributes : ∀ attr ∈ microphone.attributes, attr.WellFormed microphone.fmts := by
  unfold microphone
  rw [List.forall_mem_cons, List.forall_mem_cons, List.forall_mem_cons, List.forall_mem_singleton]
  refine ⟨⟨?_, ⟨?_, ?_⟩, ?_⟩, ⟨?_, ?_, ?_⟩, ⟨?_, ?_⟩, trivial⟩
  · decide
  · decide
  · decide
  · rintro params ⟨⟩
    exact ⟨by decide, by decide⟩
  · decide
  · decide
  · decide
  · decide
  · decide

theorem microphone_wellFormed : microphone.WellFormed where
  mediaType := by decide
  protocol := by decide
  fmts := ⟨96, by decide⟩
  attributes := microphone_attributes

theorem microphone_round_trip :
    ∃ read, fromStr (display (fun _ => [8, 96]) (.new [microphone] .default)) = .ok read ∧
      read.mediaDescriptions = [microphone] := by
  refine sdp_round_trip (.new [microphone] .default) ⟨by decide, by decide, by decide, ?_⟩ (fun _ => [8, 96]) ?_
  · intro md hmd
    rw [List.mem_singleton.mp hmd]
    exact microphone_wellFormed
  · exact iterates_single rfl (by decide) (by decide)

end SessionDescriptionProtocol
end RoomRtc.Session
