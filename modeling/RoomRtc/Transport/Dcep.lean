import RoomRtc.Foundations.ByteAccess

/-! The handshake messages of a data channel (`sctp_transport/data_channel/dcep.rs`): a fixed part
of twelve bytes with the lengths of two strings, then the strings. Every index and every range
that the decoder reads is checked. -/
namespace RoomRtc.Transport
open Access BigEndian Text
set_option autoImplicit false

inductive DataChannelType where
  | reliable
deriving DecidableEq, Repr

namespace DataChannelType

def toU8 : DataChannelType → UInt8
  | reliable => 0x00

def tryFrom (v : UInt8) : Option DataChannelType := if v = 0x00 then some reliable else none

theorem tryFrom_toU8 (t : DataChannelType) : tryFrom t.toU8 = some t := by
  cases t
  rfl

end DataChannelType

inductive DcepMessage where
  | dataChannelOpen (channelType : DataChannelType) (priority : UInt16) (reliabilityParameter : UInt32)
      (label protocol : Str)
  | dataChannelAck
deriving DecidableEq, Repr

namespace DcepMessage

/-- The lengths are written as `u16`, their low two bytes. -/
def toBytes : DcepMessage → Bytes
  | dataChannelOpen channelType priority reliabilityParameter label protocol =>
    0x03 :: channelType.toU8 :: (beBytes 2 priority.toNat ++ (beBytes 4 reliabilityParameter.toNat ++
      (beBytes 2 (encode label).length ++ (beBytes 2 (encode protocol).length ++ (encode label ++ encode protocol)))))
  | dataChannelAck => [0x02]

/-- The source gives up at the first field that is malformed; here all ranges are read first. -/
def fromBytes (bytes : Bytes) : Except Fault (Option DcepMessage) :=
  match bytes.head? with
  | none => return none
  | some tag =>
    if tag = 0x03 then
      if bytes.length < 12 then return none
      else do
        let labelLen := beNat (← slice bytes 8 10)
        let protocolLen := beNat (← slice bytes 10 12)
        let labelStart := 12
        let labelEnd := labelStart + labelLen
        let protocolEnd := labelEnd + protocolLen
        if bytes.length < protocolEnd then return none
        else
          let channelType ← byteAt bytes 1
          let priority ← slice bytes 2 4
          let reliabilityParameter ← slice bytes 4 8
          let label ← slice bytes labelStart labelEnd
          let protocol ← slice bytes labelEnd protocolEnd
          return (DataChannelType.tryFrom channelType).bind fun channelType =>
            (decode label).bind fun label =>
              (decode protocol).map fun protocol =>
                dataChannelOpen channelType (UInt16.ofNat (beNat priority)) (UInt32.ofNat (beNat reliabilityParameter))
                  label protocol
    else if tag = 0x02 then return some dataChannelAck
    else return none

/-- What the lengths have room for. -/
def Fits : DcepMessage → Prop
  | dataChannelOpen _ _ _ label protocol => (encode label).length ≤ 65535 ∧ (encode protocol).length ≤ 65535
  | dataChannelAck => True

instance : (m : DcepMessage) → Decidable m.Fits
  | dataChannelOpen _ _ _ label protocol =>
    inferInstanceAs (Decidable ((encode label).length ≤ 65535 ∧ (encode protocol).length ≤ 65535))
  | dataChannelAck => inferInstanceAs (Decidable True)

/-- No read past the end: every range ends before a length that was checked. -/
theorem fromBytes_ok (bytes : Bytes) : ∃ r, fromBytes bytes = .ok r := by
  unfold fromBytes
  split
  · exact ⟨none, rfl⟩
  · split
    · split
      · exact ⟨none, rfl⟩
      · next hsize =>
        rw [slice_ok (by omega) (by omega : 10 ≤ bytes.length), slice_ok (by omega) (by omega : 12 ≤ bytes.length)]
        simp only [bind, Except.bind]
        split
        · exact ⟨none, rfl⟩
        · next hend =>
          rw [byteAt_ok (by omega : 1 < bytes.length), slice_ok (by omega) (by omega : 4 ≤ bytes.length),
            slice_ok (by omega) (by omega : 8 ≤ bytes.length), slice_ok (by omega) (by omega),
              slice_ok (by omega) (by omega)]
          exact ⟨_, rfl⟩
    · split
      · exact ⟨_, rfl⟩
      · exact ⟨_, rfl⟩

/-- The fields of an `Open` message are read where they were written. -/
theorem open_fields (channelType : DataChannelType) (priority : UInt16) (reliabilityParameter : UInt32)
    (label protocol : Str) (t : Bytes) {bytes : Bytes}
    (hbytes : (dataChannelOpen channelType priority reliabilityParameter label protocol).toBytes ++ t = bytes) :
    bytes.length = 12 + (encode label).length + (encode protocol).length + t.length ∧
      bytes.head? = some 0x03 ∧ byteAt bytes 1 = .ok channelType.toU8 ∧
      slice bytes 2 4 = .ok (beBytes 2 priority.toNat) ∧
      slice bytes 4 8 = .ok (beBytes 4 reliabilityParameter.toNat) ∧
      slice bytes 8 10 = .ok (beBytes 2 (encode label).length) ∧
      slice bytes 10 12 = .ok (beBytes 2 (encode protocol).length) ∧
      slice bytes 12 (12 + (encode label).length) = .ok (encode label) ∧
      slice bytes (12 + (encode label).length) (12 + (encode label).length + (encode protocol).length) =
        .ok (encode protocol) := by
  have hdata : bytes = [0x03, channelType.toU8] ++ (beBytes 2 priority.toNat ++ (beBytes 4 reliabilityParameter.toNat ++
      (beBytes 2 (encode label).length ++ (beBytes 2 (encode protocol).length ++
        (encode label ++ (encode protocol ++ t)))))) := by
    rw [← hbytes]
    simp [toBytes]
  refine ⟨?size, ?tag, ?channelType, ?priority, ?reliability, ?labelLen, ?protocolLen, ?label, ?protocol⟩
  case size =>
    simp only [hdata, List.length_append, beBytes_length, List.length_cons, List.length_nil]
    omega
  case tag =>
    rw [hdata]
    rfl
  case channelType =>
    rw [hdata]
    rfl
  -- For each field, what stands before it is gathered into one front of known length.
  case priority =>
    rw [hdata]
    exact slice_field _ _ _ rfl (by simp)
  case reliability =>
    rw [hdata, ← List.append_assoc]
    exact slice_field _ _ _ (by simp) (by simp)
  case labelLen =>
    rw [hdata, ← List.append_assoc, ← List.append_assoc]
    exact slice_field _ _ _ (by simp) (by simp)
  case protocolLen =>
    rw [hdata, ← List.append_assoc, ← List.append_assoc, ← List.append_assoc]
    exact slice_field _ _ _ (by simp) (by simp)
  case label =>
    rw [hdata, ← List.append_assoc, ← List.append_assoc, ← List.append_assoc, ← List.append_assoc]
    exact slice_field _ _ _ (by simp) rfl
  case protocol =>
    rw [hdata, ← List.append_assoc, ← List.append_assoc, ← List.append_assoc, ← List.append_assoc,
      ← List.append_assoc]
    exact slice_field _ _ _ (by simp; omega) rfl

theorem fromBytes_toBytes {m : DcepMessage} (h : m.Fits) (t : Bytes) : fromBytes (m.toBytes ++ t) = .ok (some m) := by
  cases m with
  | dataChannelAck => rfl
  | dataChannelOpen channelType priority reliabilityParameter label protocol =>
    obtain ⟨hlabel, hprotocol⟩ := h
    generalize hbytes : (dataChannelOpen channelType priority reliabilityParameter label protocol).toBytes ++ t = bytes
    obtain ⟨hsize, htag, htype, hpriority, hreliability, hlabelLen, hprotocolLen, hlabelText, hprotocolText⟩ :=
      open_fields channelType priority reliabilityParameter label protocol t hbytes
    have hl : beNat (beBytes 2 (encode label).length) = (encode label).length :=
      beNat_beBytes_of_lt (by norm_num; omega)
    have hp : beNat (beBytes 2 (encode protocol).length) = (encode protocol).length :=
      beNat_beBytes_of_lt (by norm_num; omega)
    unfold fromBytes
    rw [htag]
    simp only [if_true, if_neg (by omega : ¬bytes.length < 12), hlabelLen, hprotocolLen, bind, Except.bind, hl, hp,
      if_neg (by omega : ¬bytes.length < 12 + (encode label).length + (encode protocol).length), htype, hpriority,
      hreliability, hlabelText, hprotocolText, DataChannelType.tryFrom_toU8, decode_encode, Option.bind_some,
      Option.map_some]
    rw [beNat_beBytes_of_lt priority.toNat_lt, beNat_beBytes_of_lt reliabilityParameter.toNat_lt, UInt16.ofNat_toNat,
      UInt32.ofNat_toNat]
    rfl

end DcepMessage
end RoomRtc.Transport
