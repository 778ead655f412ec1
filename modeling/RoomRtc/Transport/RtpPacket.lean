import RoomRtc.Foundations.BigEndian

/-! The packet of the media transport and its byte layout (`transport/rtp/rtp_packet.rs`):
a 33-byte header followed by the payload, every integer big-endian. -/
namespace RoomRtc.Transport
open BigEndian
set_option autoImplicit false

structure RtpPacket where
  version : UInt8
  /-- 1 on the last packet of a frame. -/
  marker : UInt8
  totalChunks : UInt8
  isIFrame : Bool
  payloadType : UInt8
  sequenceNumber : UInt64
  timestamp : BitVec 128
  ssrc : UInt32
  payload : List UInt8
  deriving DecidableEq, Repr

namespace RtpPacket

/-- The sequence number as a number. -/
def seq (p : RtpPacket) : ℕ := p.sequenceNumber.toNat

/-- The timestamp as a number of milliseconds. -/
def ts (p : RtpPacket) : ℕ := p.timestamp.toNat

theorem seq_lt (p : RtpPacket) : p.seq < 2 ^ 64 := p.sequenceNumber.toNat_lt

def toBytes (p : RtpPacket) : List UInt8 :=
  [p.version <<< 6, p.marker, p.totalChunks, if p.isIFrame then 1 else 0, p.payloadType] ++
    beBytes 8 p.sequenceNumber.toNat ++ beBytes 16 p.timestamp.toNat ++ beBytes 4 p.ssrc.toNat ++
    p.payload

def fromBytes (data : List UInt8) : Option RtpPacket :=
  if data.length < 33 then none
  else some
    { version := data.getD 0 0 >>> 6
      marker := data.getD 1 0
      totalChunks := data.getD 2 0
      isIFrame := data.getD 3 0 != 0
      payloadType := data.getD 4 0
      sequenceNumber := UInt64.ofNat (beNat ((data.drop 5).take 8))
      timestamp := BitVec.ofNat 128 (beNat ((data.drop 13).take 16))
      ssrc := UInt32.ofNat (beNat ((data.drop 29).take 4))
      payload := data.drop 33 }

@[simp] theorem toBytes_length (p : RtpPacket) : p.toBytes.length = 33 + p.payload.length := by
  simp [toBytes]
  omega

theorem toBytes_drop (p : RtpPacket) : p.toBytes.drop 33 = p.payload := by
  unfold toBytes
  rw [List.drop_append_of_le_length (by simp)]
  simp

end RtpPacket
end RoomRtc.Transport
