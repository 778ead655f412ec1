import RoomRtc.Foundations.BigEndian
import RoomRtc.Foundations.Text

/-! The messages of a file transfer (`file/file_transferer/ftp_message.rs`) and the file
metadata inside an offer (`file/file_metadata/metadata.rs`), with their byte layout. -/
namespace RoomRtc.File
open BigEndian Text
set_option autoImplicit false

structure FileMetadata where
  size : UInt64
  name : Str
  deriving DecidableEq, Repr

namespace FileMetadata

def toBytes (m : FileMetadata) : Bytes :=
  beBytes 8 m.size.toNat ++ UInt8.ofNat (encode m.name).length :: encode m.name

def fromBytes (bytes : Bytes) : Option FileMetadata :=
  if 9 ≤ bytes.length then
    let fileNameLen := (bytes.getD 8 0).toNat
    let start := 9
    let endName := start + fileNameLen
    if bytes.length < endName then none
    else do
      let name ← decode ((bytes.take endName).drop start)
      some ⟨UInt64.ofNat (beNat (bytes.take 8)), name⟩
  else none

end FileMetadata

inductive FtpMessage where
  | fileOffer (offerId : UInt32) (fileMetadata : FileMetadata)
  | acceptFile
  | rejectFile
  | fileChunk (payload : Bytes)
  | endOfFile
deriving DecidableEq, Repr

namespace FtpMessage

def toBytes : FtpMessage → Bytes
  | fileOffer offerId fileMetadata => 1 :: (beBytes 4 offerId.toNat ++ fileMetadata.toBytes)
  | acceptFile => [2]
  | rejectFile => [3]
  -- the length is written as a `u32`, its low four bytes
  | fileChunk payload => 4 :: (beBytes 4 payload.length ++ payload)
  | endOfFile => [5]

def fromBytes (bytes : Bytes) : Option FtpMessage := do
  let tag ← bytes.head?
  if tag = 1 ∧ 14 ≤ bytes.length then
    some (fileOffer (UInt32.ofNat (beNat ((bytes.take 5).drop 1))) (← FileMetadata.fromBytes (bytes.drop 5)))
  else if tag = 2 then some acceptFile
  else if tag = 3 then some rejectFile
  else if tag = 4 ∧ 5 ≤ bytes.length then
    let payloadLen := beNat ((bytes.take 5).drop 1)
    if bytes.length < 5 + payloadLen then none
    else some (fileChunk ((bytes.take (5 + payloadLen)).drop 5))
  else if tag = 5 then some endOfFile
  else none

theorem fromBytes_fileChunk {payload : Bytes} (h : payload.length < 2 ^ 32) (rest : Bytes) :
    fromBytes ((fileChunk payload).toBytes ++ rest) = some (fileChunk payload) := by
  have hlen : beNat (beBytes 4 payload.length) = payload.length := by
    rw [beNat_beBytes, Nat.mod_eq_of_lt (by norm_num; omega)]
  have hhead : (((fileChunk payload).toBytes ++ rest).take 5).drop 1 = beBytes 4 payload.length := by
    have h4 : (beBytes 4 payload.length).length = 4 := beBytes_length 4 _
    simp only [toBytes, List.cons_append, List.take_succ_cons, List.drop_succ_cons, List.drop_zero, List.append_assoc]
    exact List.take_left' h4
  have htotal : ((fileChunk payload).toBytes ++ rest).length = 5 + payload.length + rest.length := by
    simp [toBytes]
    omega
  have hbody : (((fileChunk payload).toBytes ++ rest).take (5 + payload.length)).drop 5 = payload := by
    have h5 : (4 :: beBytes 4 payload.length).length = 5 := by simp
    have hsplit : (fileChunk payload).toBytes ++ rest = (4 :: beBytes 4 payload.length) ++ (payload ++ rest) := by
      simp [toBytes]
    rw [hsplit, ← h5, List.take_length_add_append, List.drop_left, List.take_left]
  have hfirst : ((fileChunk payload).toBytes ++ rest).head? = some 4 := rfl
  have hroom : 5 ≤ 5 + payload.length + rest.length := by omega
  have hfits : ¬5 + payload.length + rest.length < 5 + payload.length := by omega
  simp [fromBytes, hfirst, hhead, hlen, htotal, hbody, hroom, hfits]

theorem fromBytes_endOfFile : fromBytes endOfFile.toBytes = some endOfFile := by decide

end FtpMessage
end RoomRtc.File
