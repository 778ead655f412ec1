import RoomRtc.File.FtpMessage
import RoomRtc.Foundations.ByteAccess
import RoomRtc.Transport.Dcep

/-! The decoders of the data channel on arbitrary bytes. `FtpMessage.fromBytes` and
`FileMetadata.fromBytes` are read once more with every index and every range checked, and the two
agree; then every message of the file transfer and of the channel handshake comes back from its
bytes, whatever stands behind them in the buffer. -/
namespace RoomRtc.File
open Access BigEndian Text Transport
set_option autoImplicit false

namespace FileMetadata

/-- `fromBytes` with checked reads. -/
def fromBytesChecked (bytes : Bytes) : Except Fault (Option FileMetadata) :=
  if 9 ≤ bytes.length then do
    let fileNameLen := (← byteAt bytes 8).toNat
    let start := 9
    let endName := start + fileNameLen
    if bytes.length < endName then return none
    else
      let size ← slice bytes 0 8
      let name ← slice bytes start endName
      return (decode name).map fun name => ⟨UInt64.ofNat (beNat size), name⟩
  else return none

theorem fromBytesChecked_eq (bytes : Bytes) : fromBytesChecked bytes = .ok (fromBytes bytes) := by
  unfold fromBytesChecked fromBytes
  by_cases hsize : 9 ≤ bytes.length
  · have hget : bytes.getD 8 0 = bytes[8] := by
      rw [List.getD_eq_getElem?_getD, List.getElem?_eq_getElem]
      rfl
    rw [if_pos hsize, if_pos hsize, byteAt_ok (by omega : 8 < bytes.length), hget]
    simp only [bind, Except.bind]
    by_cases hend : bytes.length < 9 + bytes[8].toNat
    · rw [if_pos hend, if_pos hend]
      rfl
    · rw [if_neg hend, if_neg hend, slice_ok (Nat.zero_le 8) (by omega), slice_ok (Nat.le_add_right ..) (by omega)]
      simp only [List.drop_zero, Nat.sub_zero, List.drop_take]
      cases decode ((bytes.drop 9).take (9 + bytes[8].toNat - 9)) with
      | none => rfl
      | some name => rfl
  · rw [if_neg hsize, if_neg hsize]
    rfl

theorem fromBytes_toBytes (m : FileMetadata) (hname : (encode m.name).length ≤ 255) (t : Bytes) :
    fromBytes (m.toBytes ++ t) = some m := by
  have hdata : m.toBytes ++ t = beBytes 8 m.size.toNat ++
      ([UInt8.ofNat (encode m.name).length] ++ (encode m.name ++ t)) := by
    simp [toBytes]
  generalize hbytes : m.toBytes ++ t = bytes at hdata ⊢
  have hlength : bytes.length = 9 + (encode m.name).length + t.length := by
    simp only [hdata, List.length_append, beBytes_length, List.length_cons, List.length_nil]
    omega
  have hsize : slice bytes 0 8 = .ok (beBytes 8 m.size.toNat) := by
    rw [hdata]
    exact slice_field [] (beBytes 8 m.size.toNat) _ rfl (by simp)
  have hname' : slice bytes 9 (9 + (encode m.name).length) = .ok (encode m.name) := by
    rw [hdata, ← List.append_assoc]
    exact slice_field _ _ _ (by simp) rfl
  have hlen : byteAt bytes 8 = .ok (UInt8.ofNat (encode m.name).length) := by
    rw [hdata]
    exact byteAt_field _ _ _ (beBytes_length ..)
  have hcount : (UInt8.ofNat (encode m.name).length).toNat = (encode m.name).length := by
    rw [UInt8.toNat_ofNat']
    exact Nat.mod_eq_of_lt (by omega)
  have hchecked : fromBytesChecked bytes = .ok (some m) := by
    unfold fromBytesChecked
    simp only [if_pos (by omega : 9 ≤ bytes.length), hlen, bind, Except.bind, hcount,
      if_neg (by omega : ¬bytes.length < 9 + (encode m.name).length), hsize, hname', decode_encode, Option.map_some]
    rw [beNat_beBytes_of_lt m.size.toNat_lt, UInt64.ofNat_toNat]
    rfl
  rw [fromBytesChecked_eq] at hchecked
  exact Except.ok.inj hchecked

end FileMetadata

namespace FtpMessage

/-- `fromBytes` with checked reads. -/
def fromBytesChecked (bytes : Bytes) : Except Fault (Option FtpMessage) :=
  match bytes.head? with
  | none => return none
  | some tag =>
    if tag = 1 ∧ 14 ≤ bytes.length then do
      let offerId ← slice bytes 1 5
      let metadataBytes ← slice bytes 5 bytes.length
      let fileMetadata ← FileMetadata.fromBytesChecked metadataBytes
      return fileMetadata.map (fileOffer (UInt32.ofNat (beNat offerId)))
    else if tag = 2 then return some acceptFile
    else if tag = 3 then return some rejectFile
    else if tag = 4 ∧ 5 ≤ bytes.length then do
      let payloadLen := beNat (← slice bytes 1 5)
      if bytes.length < 5 + payloadLen then return none
      else
        let payload ← slice bytes 5 (5 + payloadLen)
        return some (fileChunk payload)
    else if tag = 5 then return some endOfFile
    else return none

theorem fromBytesChecked_eq (bytes : Bytes) : fromBytesChecked bytes = .ok (fromBytes bytes) := by
  unfold fromBytesChecked fromBytes
  cases hhead : bytes.head? with
  | none => rfl
  | some tag =>
    simp only [bind, Option.bind]
    by_cases hoffer : tag = 1 ∧ 14 ≤ bytes.length
    · have hall : (bytes.drop 5).take (bytes.length - 5) = bytes.drop 5 :=
        List.take_of_length_le (Nat.le_of_eq List.length_drop)
      rw [if_pos hoffer, if_pos hoffer, slice_ok (by omega) (by omega : 5 ≤ bytes.length),
        slice_ok (by omega) (Nat.le_refl _), hall]
      simp only [Except.bind, FileMetadata.fromBytesChecked_eq, List.drop_take]
      cases FileMetadata.fromBytes (bytes.drop 5) with
      | none => rfl
      | some m => rfl
    · rw [if_neg hoffer, if_neg hoffer]
      by_cases haccept : tag = 2
      · rw [if_pos haccept, if_pos haccept]
        rfl
      rw [if_neg haccept, if_neg haccept]
      by_cases hreject : tag = 3
      · rw [if_pos hreject, if_pos hreject]
        rfl
      rw [if_neg hreject, if_neg hreject]
      by_cases hchunk : tag = 4 ∧ 5 ≤ bytes.length
      · rw [if_pos hchunk, if_pos hchunk, slice_ok (by omega) hchunk.2]
        simp only [Except.bind, List.drop_take]
        by_cases hend : bytes.length < 5 + beNat ((bytes.drop 1).take (5 - 1))
        · rw [if_pos hend, if_pos hend]
          rfl
        · rw [if_neg hend, if_neg hend, slice_ok (Nat.le_add_right ..) (by omega)]
          rfl
      · rw [if_neg hchunk, if_neg hchunk]
        split
        · rfl
        · rfl

/-- What the lengths have room for. -/
def Fits : FtpMessage → Prop
  | fileOffer _ fileMetadata => (encode fileMetadata.name).length ≤ 255
  | fileChunk payload => payload.length < 2 ^ 32
  | _ => True

instance : (m : FtpMessage) → Decidable m.Fits
  | fileOffer _ fileMetadata => inferInstanceAs (Decidable ((encode fileMetadata.name).length ≤ 255))
  | fileChunk payload => inferInstanceAs (Decidable (payload.length < 2 ^ 32))
  | acceptFile => inferInstanceAs (Decidable True)
  | rejectFile => inferInstanceAs (Decidable True)
  | endOfFile => inferInstanceAs (Decidable True)

theorem fromBytes_toBytes {m : FtpMessage} (h : m.Fits) (t : Bytes) : fromBytes (m.toBytes ++ t) = some m := by
  cases m with
  | acceptFile => rfl
  | rejectFile => rfl
  | endOfFile => rfl
  | fileChunk payload => exact fromBytes_fileChunk h t
  | fileOffer offerId fileMetadata =>
    have hlength : ((fileOffer offerId fileMetadata).toBytes ++ t).length =
        14 + (encode fileMetadata.name).length + t.length := by
      simp [toBytes, FileMetadata.toBytes]
      omega
    have hid : (((fileOffer offerId fileMetadata).toBytes ++ t).take 5).drop 1 = beBytes 4 offerId.toNat := by
      rw [List.drop_take]
      exact List.take_left' (beBytes_length ..)
    have hmetadata : ((fileOffer offerId fileMetadata).toBytes ++ t).drop 5 = fileMetadata.toBytes ++ t := by
      have hsplit : (fileOffer offerId fileMetadata).toBytes ++ t =
          (1 :: beBytes 4 offerId.toNat) ++ (fileMetadata.toBytes ++ t) := by
        simp [toBytes]
      rw [hsplit]
      exact List.drop_left' (by simp)
    have hhead : ((fileOffer offerId fileMetadata).toBytes ++ t).head? = some 1 := rfl
    unfold fromBytes
    simp only [hhead, bind, Option.bind_some, true_and]
    rw [if_pos (by omega), hid, hmetadata, FileMetadata.fromBytes_toBytes fileMetadata h,
      beNat_beBytes_of_lt offerId.toNat_lt, UInt32.ofNat_toNat]
    rfl

end FtpMessage

/-- **The codecs of the data channel.** Every message with room for its lengths comes back from its
bytes, whatever follows them, and on no bytes does a decoder read past their end. -/
theorem codecs_roundtrip :
    (∀ m : FtpMessage, m.Fits → ∀ t, FtpMessage.fromBytesChecked (m.toBytes ++ t) = .ok (some m)) ∧
      (∀ m : DcepMessage, m.Fits → ∀ t, DcepMessage.fromBytes (m.toBytes ++ t) = .ok (some m)) ∧
      ∀ bytes, (∃ r, FtpMessage.fromBytesChecked bytes = .ok r) ∧ ∃ r, DcepMessage.fromBytes bytes = .ok r := by
  refine ⟨fun m h t => ?_, fun m h t => DcepMessage.fromBytes_toBytes h t, fun bytes => ⟨?_, ?_⟩⟩
  · rw [FtpMessage.fromBytesChecked_eq, FtpMessage.fromBytes_toBytes h t]
  · exact ⟨_, FtpMessage.fromBytesChecked_eq bytes⟩
  · exact DcepMessage.fromBytes_ok bytes

/-- An offer in front of the rest of a buffer, and the opening of a channel in a buffer of zeros. -/
theorem codecs_roundtrip_buffered :
    FtpMessage.fromBytesChecked ((FtpMessage.fileOffer 7 ⟨5, "a.txt".toList⟩).toBytes ++ [1, 2, 3]) =
        .ok (some (.fileOffer 7 ⟨5, "a.txt".toList⟩)) ∧
      DcepMessage.fromBytes ((DcepMessage.dataChannelOpen .reliable 0 0 "a.txt".toList "Binary".toList).toBytes ++
        List.replicate 1001 0) = .ok (some (.dataChannelOpen .reliable 0 0 "a.txt".toList "Binary".toList)) :=
  ⟨codecs_roundtrip.1 _ (by decide) _, codecs_roundtrip.2.1 _ (by decide) _⟩

end RoomRtc.File
