import RoomRtc.Foundations.BigEndian

/-! The packets of session control (`transport/rtcp/rtcp_packet.rs`) with the statistics they carry
(`transport/rtcp/metrics.rs`), their bytes, and the errors of a session (`transport/rtcp/error.rs`). -/
namespace RoomRtc.Transport
open BigEndian
set_option autoImplicit false

/-- The errors that a session can come to once its socket works. -/
inductive RtcpError where
  | goodbyeReceived
  | timedOut
  | unexpectedMessage
deriving DecidableEq, Repr

structure SenderStats where
  packetsSent : UInt32
  bytesSent : UInt64
deriving DecidableEq, Repr

structure ReceiverStats where
  packetsReceived : UInt32
  packetsLost : UInt32
  jitter : UInt32
deriving DecidableEq, Repr

structure CallStats where
  localSender : SenderStats := ⟨0, 0⟩
  localReceiver : ReceiverStats := ⟨0, 0, 0⟩
  remoteSender : SenderStats := ⟨0, 0⟩
  remoteReceiver : ReceiverStats := ⟨0, 0, 0⟩
deriving DecidableEq, Repr

inductive RtcpPacket where
  | senderReport (stats : SenderStats)
  | receiverReport (stats : ReceiverStats)
  | goodbye
  | hello
  | ready
deriving DecidableEq, Repr

namespace RtcpPacket

/-- `b"SR"`, `b"RR"`, `b"BYE"`, `b"HELLO"`, `b"READY"` -/
def srKey : List UInt8 := [83, 82]
def rrKey : List UInt8 := [82, 82]
def byeKey : List UInt8 := [66, 89, 69]
def helloKey : List UInt8 := [72, 69, 76, 76, 79]
def readyKey : List UInt8 := [82, 69, 65, 68, 89]

def toBytes : RtcpPacket → List UInt8
  | senderReport stats => srKey ++ beBytes 4 stats.packetsSent.toNat ++ beBytes 8 stats.bytesSent.toNat
  | receiverReport stats =>
    rrKey ++ beBytes 4 stats.packetsReceived.toNat ++ beBytes 4 stats.packetsLost.toNat ++
      beBytes 4 stats.jitter.toNat
  | goodbye => byeKey
  | hello => helloKey
  | ready => readyKey

/-- `data[lo..lo + n]` as a number. -/
def readNumber (data : List UInt8) (lo n : ℕ) : ℕ := beNat ((data.drop lo).take n)

def fromBytes (data : List UInt8) : Option RtcpPacket :=
  if srKey.isPrefixOf data ∧ 14 ≤ data.length then
    some (.senderReport ⟨UInt32.ofNat (readNumber data 2 4), UInt64.ofNat (readNumber data 6 8)⟩)
  else if rrKey.isPrefixOf data ∧ 14 ≤ data.length then
    some (.receiverReport ⟨UInt32.ofNat (readNumber data 2 4), UInt32.ofNat (readNumber data 6 4),
      UInt32.ofNat (readNumber data 10 4)⟩)
  else if data = byeKey then some .goodbye
  else if data = helloKey then some .hello
  else if data = readyKey then some .ready
  else none

theorem readNumber_append {front rest : List UInt8} {lo n : ℕ} (x : ℕ) (hfront : front.length = lo) :
    readNumber (front ++ (beBytes n x ++ rest)) lo n = x % 256 ^ n := by
  rw [readNumber, List.drop_left' hfront, List.take_left' (beBytes_length n x), beNat_beBytes]

theorem fromBytes_toBytes (p : RtcpPacket) : fromBytes p.toBytes = some p := by
  cases p with
  | senderReport stats =>
    have hsent : stats.packetsSent.toNat < 256 ^ 4 := stats.packetsSent.toNat_lt
    have hbytes : stats.bytesSent.toNat < 256 ^ 8 := stats.bytesSent.toNat_lt
    have h1 : readNumber (senderReport stats).toBytes 2 4 = stats.packetsSent.toNat % 256 ^ 4 := by
      rw [toBytes, List.append_assoc]
      exact readNumber_append _ rfl
    have h2 : readNumber (senderReport stats).toBytes 6 8 = stats.bytesSent.toNat % 256 ^ 8 := by
      have h := @readNumber_append (srKey ++ beBytes 4 stats.packetsSent.toNat) [] 6 8 stats.bytesSent.toNat (by
        rw [List.length_append, beBytes_length]
        rfl)
      rwa [List.append_nil] at h
    rw [fromBytes, if_pos ⟨rfl, by simp [toBytes, srKey]⟩, h1, h2, Nat.mod_eq_of_lt hsent, Nat.mod_eq_of_lt hbytes,
      UInt32.ofNat_toNat, UInt64.ofNat_toNat]
  | receiverReport stats =>
    have hreceived : stats.packetsReceived.toNat < 256 ^ 4 := stats.packetsReceived.toNat_lt
    have hlost : stats.packetsLost.toNat < 256 ^ 4 := stats.packetsLost.toNat_lt
    have hjitter : stats.jitter.toNat < 256 ^ 4 := stats.jitter.toNat_lt
    have h1 : readNumber (receiverReport stats).toBytes 2 4 = stats.packetsReceived.toNat % 256 ^ 4 := by
      rw [toBytes, List.append_assoc, List.append_assoc]
      exact readNumber_append _ rfl
    have h2 : readNumber (receiverReport stats).toBytes 6 4 = stats.packetsLost.toNat % 256 ^ 4 := by
      rw [toBytes, List.append_assoc (rrKey ++ _)]
      exact readNumber_append _ (by rw [List.length_append, beBytes_length]; rfl)
    have h3 : readNumber (receiverReport stats).toBytes 10 4 = stats.jitter.toNat % 256 ^ 4 := by
      have h := @readNumber_append (rrKey ++ beBytes 4 stats.packetsReceived.toNat ++ beBytes 4 stats.packetsLost.toNat)
        [] 10 4 stats.jitter.toNat (by
          rw [List.length_append, List.length_append, beBytes_length, beBytes_length]
          rfl)
      rwa [List.append_nil] at h
    rw [fromBytes, if_neg (fun h => absurd h.1 (by simp [toBytes, srKey, rrKey])),
      if_pos ⟨rfl, by simp [toBytes, rrKey]⟩, h1, h2, h3,
      Nat.mod_eq_of_lt hreceived, Nat.mod_eq_of_lt hlost, Nat.mod_eq_of_lt hjitter, UInt32.ofNat_toNat,
      UInt32.ofNat_toNat, UInt32.ofNat_toNat]
  | goodbye => rfl
  | hello => rfl
  | ready => rfl

end RtcpPacket
end RoomRtc.Transport
