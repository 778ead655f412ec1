import RoomRtc.Foundations.ByteAccess
import RoomRtc.Session.Checks

/-! The answer of a STUN server (`parse_stun_response` of `session/ice/stun_client.rs`): a header of
20 bytes and attributes of type, length and value, padded to multiples of four bytes. The parser
walks over the attributes up to the declared length or the end of the datagram, whichever is first,
and takes the first mapped IPv4 address. -/
namespace RoomRtc.Session
open Access BigEndian
set_option autoImplicit false

def magicCookie : Bytes := [0x21, 0x12, 0xA4, 0x42]

/-! ## The parser -/

/-- The address in the value of a mapped-address attribute, if it is an IPv4 address. -/
def mappedAddress (val : Bytes) : Except Fault (Option Str) :=
  if 8 ≤ val.length then do
    let family ← byteAt val 1
    if family = 0x01 then
      let port := beNat [(← byteAt val 2) ^^^ 0x21, (← byteAt val 3) ^^^ 0x12]
      let ip := dotted (octet ((← byteAt val 4) ^^^ 0x21)) (octet ((← byteAt val 5) ^^^ 0x12))
        (octet ((← byteAt val 6) ^^^ 0xA4)) (octet ((← byteAt val 7) ^^^ 0x42))
      return some (ip ++ ':' :: Nat.toDigits 10 port)
    else return none
  else return none

/-- What is found in the attribute whose value starts at `pos`. -/
def attributeAddress (data : Bytes) (attrType pos attrLen : ℕ) : Except Fault (Option Str) :=
  if attrType = 0x0020 ∧ pos + attrLen ≤ data.length then do
    let val ← slice data pos (pos + attrLen)
    mappedAddress val
  else return none

def paddingLength (attrLen : ℕ) : ℕ := (4 - attrLen % 4) % 4

/-- The loop over the attributes from `pos` on, in at most `fuel` turns. -/
def searchAttributes (data : Bytes) (msgLen : ℕ) : ℕ → ℕ → Except Fault (Option Str)
  | 0, _ => .error .endlessLoop
  | fuel + 1, pos =>
    if pos < 20 + msgLen ∧ pos + 4 ≤ data.length then do
      let attrType ← u16At data pos
      let attrLen ← u16At data (pos + 2)
      match ← attributeAddress data attrType (pos + 4) attrLen with
      | some address => return some address
      | none => searchAttributes data msgLen fuel (pos + 4 + (attrLen + paddingLength attrLen))
    else return none

def addressNotFound : Str := "XOR-MAPPED-ADDRESS (public IP) attribute not found in response".toList

def parseStunResponse (data : Bytes) : Except Fault (Except Str Str) :=
  if data.length < 20 then return .error "Invalid STUN response (too short)".toList
  else do
    let cookie ← slice data 4 8
    if cookie ≠ magicCookie then return .error "Invalid STUN response: Magic Cookie mismatch".toList
    else
      let msgLen ← u16At data 2
      match ← searchAttributes data msgLen data.length 20 with
      | some address => return .ok address
      | none => return .error addressNotFound

/-! ## The format -/

/-- An attribute, with whatever bytes it is padded with. -/
structure StunAttribute where
  kind : UInt16
  value : Bytes
  padding : Bytes
  length_padding : padding.length = paddingLength value.length

namespace StunAttribute

def encode (a : StunAttribute) : Bytes :=
  beBytes 2 a.kind.toNat ++ (beBytes 2 a.value.length ++ (a.value ++ a.padding))

/-- A mapped address of the IPv4 family. -/
def IsMappedIpv4 (a : StunAttribute) : Prop := a.kind = 0x0020 ∧ 8 ≤ a.value.length ∧ a.value[1]? = some 0x01

instance (a : StunAttribute) : Decidable a.IsMappedIpv4 :=
  inferInstanceAs (Decidable (_ ∧ _ ∧ _))

/-- Port and address are the bytes 2 and 3 and the bytes 4 to 7, masked with the cookie. -/
def address (a : StunAttribute) : Str :=
  let port := beNat (xorBytes ((a.value.drop 2).take 2) magicCookie)
  let ip := xorBytes ((a.value.drop 4).take 4) magicCookie
  List.intercalate ['.'] (ip.map octet) ++ ':' :: Nat.toDigits 10 port

end StunAttribute

def encodeAttributes (attributes : List StunAttribute) : Bytes := attributes.flatMap StunAttribute.encode

structure StunHeader where
  kind : UInt16
  transaction : Bytes
  length_transaction : transaction.length = 12

/-- A message with the right length and the cookie. -/
def StunHeader.message (header : StunHeader) (body : Bytes) : Bytes :=
  beBytes 2 header.kind.toNat ++ (beBytes 2 body.length ++ (magicCookie ++ (header.transaction ++ body)))

/-! ## The address in a value -/

theorem address_eq (a : StunAttribute) (h : 8 ≤ a.value.length) : a.address =
    dotted (octet (a.value[4] ^^^ 0x21)) (octet (a.value[5] ^^^ 0x12)) (octet (a.value[6] ^^^ 0xA4))
      (octet (a.value[7] ^^^ 0x42)) ++ ':' :: Nat.toDigits 10 (beNat [a.value[2] ^^^ 0x21, a.value[3] ^^^ 0x12]) := by
  have hport : a.value.drop 2 = a.value[2] :: a.value[3] :: a.value.drop 4 := by
    rw [List.drop_eq_getElem_cons (by omega : 2 < a.value.length),
      List.drop_eq_getElem_cons (by omega : 3 < a.value.length)]
  have hip : a.value.drop 4 = a.value[4] :: a.value[5] :: a.value[6] :: a.value[7] :: a.value.drop 8 := by
    rw [List.drop_eq_getElem_cons (by omega : 4 < a.value.length),
      List.drop_eq_getElem_cons (by omega : 5 < a.value.length),
      List.drop_eq_getElem_cons (by omega : 6 < a.value.length),
      List.drop_eq_getElem_cons (by omega : 7 < a.value.length)]
  show List.intercalate ['.'] ((xorBytes ((a.value.drop 4).take 4) magicCookie).map octet) ++
    ':' :: Nat.toDigits 10 (beNat (xorBytes ((a.value.drop 2).take 2) magicCookie)) = _
  rw [hport, hip]
  simp only [List.take_succ_cons, List.take_zero, xorBytes, magicCookie, List.zipWith_cons_cons, List.zipWith_nil_left]
  simp [dotted, List.intercalate]

/-- The value alone decides whether there is an address in it. -/
theorem mappedAddress_eq (a : StunAttribute) : mappedAddress a.value =
    .ok (if 8 ≤ a.value.length ∧ a.value[1]? = some 0x01 then some a.address else none) := by
  unfold mappedAddress
  by_cases h : 8 ≤ a.value.length
  · rw [if_pos h, byteAt_ok (by omega : 1 < a.value.length), byteAt_ok (by omega : 2 < a.value.length),
      byteAt_ok (by omega : 3 < a.value.length), byteAt_ok (by omega : 4 < a.value.length),
      byteAt_ok (by omega : 5 < a.value.length), byteAt_ok (by omega : 6 < a.value.length),
      byteAt_ok (by omega : 7 < a.value.length), List.getElem?_eq_getElem (by omega : 1 < a.value.length)]
    simp only [bind, Except.bind, h, true_and, Option.some.injEq, address_eq a h]
    split
    · rfl
    · rfl
  · rw [if_neg h, if_neg fun hc => h hc.1]
    rfl

/-! ## No read past the end -/

theorem mappedAddress_ok (val : Bytes) : ∃ r, mappedAddress val = .ok r :=
  ⟨_, mappedAddress_eq ⟨0x0020, val, List.replicate (paddingLength val.length) 0, List.length_replicate⟩⟩

theorem attributeAddress_ok (data : Bytes) (attrType pos attrLen : ℕ) :
    ∃ r, attributeAddress data attrType pos attrLen = .ok r := by
  unfold attributeAddress
  split
  · next h =>
    rw [slice_ok (Nat.le_add_right ..) h.2]
    exact mappedAddress_ok _
  · exact ⟨none, rfl⟩

/-- Every turn goes on by at least the four bytes that it has found in the buffer. -/
theorem searchAttributes_ok (data : Bytes) (msgLen : ℕ) {fuel pos : ℕ} (hfuel : 0 < fuel)
    (hend : data.length < pos + 4 * fuel) : ∃ r, searchAttributes data msgLen fuel pos = .ok r := by
  induction fuel generalizing pos with
  | zero => exact absurd hfuel (Nat.lt_irrefl 0)
  | succ fuel ih =>
    unfold searchAttributes
    split
    · next h =>
      obtain ⟨attrType, htype⟩ := u16At_ok (i := pos) (by omega : pos + 1 < data.length)
      obtain ⟨attrLen, hlen⟩ := u16At_ok (i := pos + 2) (by omega : pos + 2 + 1 < data.length)
      obtain ⟨found, hfound⟩ := attributeAddress_ok data attrType (pos + 4) attrLen
      simp only [htype, hlen, hfound, bind, Except.bind]
      cases found with
      | some address => exact ⟨_, rfl⟩
      | none => exact ih (by omega) (by omega)
    · exact ⟨none, rfl⟩

theorem parseStunResponse_ok (data : Bytes) : ∃ r, parseStunResponse data = .ok r := by
  unfold parseStunResponse
  split
  · exact ⟨_, rfl⟩
  · next h =>
    obtain ⟨msgLen, hlen⟩ := u16At_ok (i := 2) (by omega : 2 + 1 < data.length)
    obtain ⟨found, hfound⟩ := searchAttributes_ok data msgLen (by omega : 0 < data.length)
      (by omega : data.length < 20 + 4 * data.length)
    rw [slice_ok (by omega) (by omega : 8 ≤ data.length)]
    simp only [hlen, hfound, bind, Except.bind]
    split
    · exact ⟨_, rfl⟩
    · cases found with
      | some address => exact ⟨_, rfl⟩
      | none => exact ⟨_, rfl⟩

/-! ## Reading what was encoded -/

theorem encode_length (a : StunAttribute) :
    a.encode.length = 4 + (a.value.length + paddingLength a.value.length) := by
  simp only [StunAttribute.encode, List.length_append, beBytes_length, a.length_padding]
  omega

/-- An attribute in the middle of a message: type and length are read as they were written, and the
address is found if it is one. -/
theorem attribute_read (front : Bytes) (a : StunAttribute) (rest : Bytes) (ha : a.value.length < 65536) :
    u16At (front ++ (a.encode ++ rest)) front.length = .ok a.kind.toNat ∧
      u16At (front ++ (a.encode ++ rest)) (front.length + 2) = .ok a.value.length ∧
      attributeAddress (front ++ (a.encode ++ rest)) a.kind.toNat (front.length + 4) a.value.length =
        .ok (if a.IsMappedIpv4 then some a.address else none) := by
  have hkind : (beBytes 2 a.kind.toNat).length = 2 := beBytes_length ..
  have hlen : (beBytes 2 a.value.length).length = 2 := beBytes_length ..
  refine ⟨?kind, ?len, ?address⟩
  case kind =>
    rw [StunAttribute.encode, List.append_assoc]
    exact u16At_beBytes front a.kind.toNat_lt _
  case len =>
    have := u16At_beBytes (front ++ beBytes 2 a.kind.toNat) ha (a.value ++ a.padding ++ rest)
    rw [List.length_append, hkind] at this
    simpa [StunAttribute.encode] using this
  case address =>
    have hfront : (front ++ (beBytes 2 a.kind.toNat ++ beBytes 2 a.value.length)).length = front.length + 4 := by
      rw [List.length_append, List.length_append, hkind, hlen]
    have hdata : front ++ (a.encode ++ rest) =
        (front ++ (beBytes 2 a.kind.toNat ++ beBytes 2 a.value.length)) ++ (a.value ++ (a.padding ++ rest)) := by
      simp [StunAttribute.encode]
    have hval : slice (front ++ (a.encode ++ rest)) (front.length + 4) (front.length + 4 + a.value.length) =
        .ok a.value := by
      rw [hdata]
      exact slice_field _ _ _ hfront rfl
    have hend : front.length + 4 + a.value.length ≤ (front ++ (a.encode ++ rest)).length := by
      rw [List.length_append, List.length_append, encode_length]
      omega
    have hkindIff : a.kind.toNat = 0x0020 ↔ a.kind = 0x0020 := by
      rw [← UInt16.toNat_inj]
      rfl
    unfold attributeAddress
    by_cases h : a.kind = 0x0020
    · rw [if_pos ⟨hkindIff.mpr h, hend⟩, hval]
      simp only [bind, Except.bind, mappedAddress_eq, StunAttribute.IsMappedIpv4, h, true_and]
    · rw [if_neg fun hc => h (hkindIff.mp hc.1), if_neg fun hc => h hc.1]
      rfl

theorem length_encode_le {a : StunAttribute} {attributes : List StunAttribute} (ha : a ∈ attributes) :
    a.encode.length ≤ (encodeAttributes attributes).length := by
  obtain ⟨before, after, rfl⟩ := List.append_of_mem ha
  simp only [encodeAttributes, List.flatMap_append, List.flatMap_cons, List.length_append]
  omega

/-- The walk over the attributes, by induction on them: what is behind `front` is the rest of them. -/
theorem searchAttributes_encode (front : Bytes) (attributes : List StunAttribute) (msgLen fuel : ℕ)
    (hdeclared : 20 + msgLen = (front ++ encodeAttributes attributes).length)
    (hlen : ∀ a ∈ attributes, a.value.length < 65536) (hfuel : attributes.length < fuel) :
    searchAttributes (front ++ encodeAttributes attributes) msgLen fuel front.length =
      .ok ((attributes.find? fun a => a.IsMappedIpv4).map StunAttribute.address) := by
  induction attributes generalizing front fuel with
  | nil =>
    obtain ⟨fuel, rfl⟩ : ∃ n, fuel = n + 1 := ⟨fuel - 1, by omega⟩
    rw [searchAttributes, if_neg]
    · rfl
    · rw [hdeclared]
      simp [encodeAttributes]
  | cons a attributes ih =>
    obtain ⟨fuel, rfl⟩ : ∃ n, fuel = n + 1 := ⟨fuel - 1, by omega⟩
    rw [List.forall_mem_cons] at hlen
    have hcons : encodeAttributes (a :: attributes) = a.encode ++ encodeAttributes attributes := List.flatMap_cons
    obtain ⟨htype, hlength, haddress⟩ := attribute_read front a (encodeAttributes attributes) hlen.1
    have hsize : (front ++ (a.encode ++ encodeAttributes attributes)).length =
        front.length + 4 + (a.value.length + paddingLength a.value.length) + (encodeAttributes attributes).length := by
      rw [List.length_append, List.length_append, encode_length]
      omega
    rw [hcons] at hdeclared ⊢
    rw [searchAttributes, if_pos (by omega), htype, hlength]
    simp only [bind, Except.bind, haddress]
    by_cases h : a.IsMappedIpv4
    · rw [List.find?_cons_of_pos (by simpa using h), if_pos h]
      rfl
    · rw [List.find?_cons_of_neg (by simpa using h), if_neg h]
      have hnext : front.length + 4 + (a.value.length + paddingLength a.value.length) = (front ++ a.encode).length := by
        rw [List.length_append, encode_length]
        omega
      have hrest := ih (front ++ a.encode) fuel (by rw [hdeclared, List.append_assoc]) hlen.2
        (Nat.lt_of_succ_lt_succ hfuel)
      rw [List.append_assoc] at hrest
      rw [hnext]
      exact hrest

theorem length_le_encodeAttributes (attributes : List StunAttribute) :
    attributes.length ≤ (encodeAttributes attributes).length := by
  induction attributes with
  | nil => exact Nat.le_refl 0
  | cons a attributes ih =>
    have hcons : encodeAttributes (a :: attributes) = a.encode ++ encodeAttributes attributes := List.flatMap_cons
    rw [hcons, List.length_append, encode_length, List.length_cons]
    omega

/-- The header: the cookie and the length are where the parser looks for them. -/
theorem message_read (header : StunHeader) {body : Bytes} (hbody : body.length ≤ 65535) :
    (header.message body).length = 20 + body.length ∧ slice (header.message body) 4 8 = .ok magicCookie ∧
      u16At (header.message body) 2 = .ok body.length := by
  have hkind : (beBytes 2 header.kind.toNat).length = 2 := beBytes_length ..
  have hlen : (beBytes 2 body.length).length = 2 := beBytes_length ..
  refine ⟨?size, ?cookie, ?length⟩
  case size =>
    simp only [StunHeader.message, List.length_append, beBytes_length, header.length_transaction]
    show 2 + (2 + (4 + (12 + body.length))) = _
    omega
  case cookie =>
    have hfront : (beBytes 2 header.kind.toNat ++ beBytes 2 body.length).length = 4 := by
      rw [List.length_append, hkind, hlen]
    have hread := slice_field (beBytes 2 header.kind.toNat ++ beBytes 2 body.length) magicCookie
      (header.transaction ++ body) hfront rfl
    rwa [List.append_assoc] at hread
  case length =>
    have hread := u16At_beBytes (beBytes 2 header.kind.toNat) (by omega : body.length < 65536)
      (magicCookie ++ (header.transaction ++ body))
    rwa [hkind] at hread

/-- **The parser agrees with the format.** On no bytes does it read past their end or loop on, and
in a message of attributes it finds the first mapped IPv4 address. -/
theorem parseStunResponse_agrees :
    (∀ data, ∃ r, parseStunResponse data = .ok r) ∧
      ∀ (header : StunHeader) (attributes : List StunAttribute), (encodeAttributes attributes).length ≤ 65535 →
        parseStunResponse (header.message (encodeAttributes attributes)) =
          .ok (match attributes.find? fun a => a.IsMappedIpv4 with
            | some a => .ok a.address
            | none => .error addressNotFound) := by
  refine ⟨parseStunResponse_ok, fun header attributes hbody => ?_⟩
  obtain ⟨hsize, hcookie, hlength⟩ := message_read header hbody
  have hvalues : ∀ a ∈ attributes, a.value.length < 65536 := by
    intro a ha
    have hle := length_encode_le ha
    rw [encode_length] at hle
    omega
  have hturns := length_le_encodeAttributes attributes
  obtain ⟨front, hfront, hmessage⟩ : ∃ front, front.length = 20 ∧
      header.message (encodeAttributes attributes) = front ++ encodeAttributes attributes := by
    refine ⟨beBytes 2 header.kind.toNat ++ (beBytes 2 (encodeAttributes attributes).length ++
      (magicCookie ++ header.transaction)), ?_, by simp [StunHeader.message]⟩
    simp only [List.length_append, beBytes_length, header.length_transaction]
    rfl
  have hsearch := searchAttributes_encode front attributes (encodeAttributes attributes).length
    (header.message (encodeAttributes attributes)).length (by rw [← hmessage, hsize]) hvalues (by omega)
  rw [← hmessage, hfront] at hsearch
  rw [parseStunResponse, if_neg (by omega), hcookie]
  simp only [bind, Except.bind, hlength, hsearch]
  rw [if_neg (fun h => h rfl)]
  cases attributes.find? fun a => a.IsMappedIpv4 with
  | none => rfl
  | some a => rfl

/-- A text attribute of five bytes and an IPv6 address stand before the IPv4 address. -/
theorem parseStunResponse_agrees_third :
    parseStunResponse (StunHeader.message ⟨0x0101, List.replicate 12 0xAA, rfl⟩ (encodeAttributes
      [⟨0x8022, [0x53, 0x54, 0x55, 0x4E, 0x21], [0, 0, 0], rfl⟩,
        ⟨0x0020, 0 :: 2 :: List.replicate 18 0xFF, [], rfl⟩,
        ⟨0x0020, [0, 1, 0x3E, 0x82, 0x2B, 0x12, 0xA4, 0x43], [], rfl⟩])) = .ok (.ok "10.0.0.1:8080".toList) :=
  (parseStunResponse_agrees.2 _ _ (by decide)).trans (by decide +kernel)

end RoomRtc.Session
