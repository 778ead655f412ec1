import Mathlib.Data.List.Infix
import RoomRtc.Foundations.Tokens

/-! The connectivity check of a candidate pair (`IceAgent::verify_candidate_pair`). Whose datagram
it is that comes in is decided by a search for the printed source address in the printed target, so
that a target is also spoken for by the addresses whose text is part of its own. -/
namespace RoomRtc.Session
open Text
set_option autoImplicit false

/-! ## Addresses -/

structure Ipv4Addr where
  a : UInt8
  b : UInt8
  c : UInt8
  d : UInt8
deriving DecidableEq, Repr

structure Ipv6Addr where
  segments : List UInt16
  length_eq : segments.length = 8
deriving DecidableEq, Repr

inductive IpAddr where
  | v4 (ip : Ipv4Addr)
  | v6 (ip : Ipv6Addr)
deriving DecidableEq, Repr

/-- Four fields with dots between them. -/
def dotted (a b c d : Str) : Str := a ++ '.' :: (b ++ '.' :: (c ++ '.' :: d))

def octet (n : UInt8) : Str := Nat.toDigits 10 n.toNat

def Ipv4Addr.display (ip : Ipv4Addr) : Str := dotted (octet ip.a) (octet ip.b) (octet ip.c) (octet ip.d)

namespace Ipv6Addr

/-- An IPv4 address in its IPv6 form `::ffff:a.b.c.d`. -/
def toIpv4Mapped : List UInt16 → Option Ipv4Addr
  | [0, 0, 0, 0, 0, 65535, ab, cd] =>
    some ⟨(ab >>> 8).toUInt8, ab.toUInt8, (cd >>> 8).toUInt8, cd.toUInt8⟩
  | _ => none

/-- The first of the longest runs of zeros behind the first `i` segments, as start and length;
`current` is the run that ends there. -/
def zeroes (i : ℕ) (current longest : ℕ × ℕ) : List UInt16 → ℕ × ℕ
  | [] => longest
  | segment :: segments =>
    if segment = 0 then
      let current := (if current.2 = 0 then i else current.1, current.2 + 1)
      zeroes (i + 1) current (if current.2 > longest.2 then current else longest) segments
    else zeroes (i + 1) (0, 0) longest segments

def fmtSubslice : List UInt16 → Str
  | [] => []
  | first :: tail => Nat.toDigits 16 first.toNat ++ tail.flatMap fun segment => ':' :: Nat.toDigits 16 segment.toNat

def display (ip : Ipv6Addr) : Str :=
  match toIpv4Mapped ip.segments with
  | some ipv4 => "::ffff:".toList ++ ipv4.display
  | none =>
    let (start, len) := zeroes 0 (0, 0) (0, 0) ip.segments
    if len > 1 then
      fmtSubslice (ip.segments.take start) ++ "::".toList ++ fmtSubslice (ip.segments.drop (start + len))
    else fmtSubslice ip.segments

end Ipv6Addr

def IpAddr.display : IpAddr → Str
  | v4 ip => ip.display
  | v6 ip => ip.display

/-! ## The check -/

/-- One turn of the loop: the ping can not be sent, or nothing comes back in time, or a datagram. -/
inductive Attempt where
  | sendFailed
  | timedOut
  | received (src : IpAddr) (datagram : Bytes)
deriving DecidableEq, Repr

def ping : Bytes := encode "PING".toList

def pong : Bytes := encode "PONG".toList

/-- The datagram as far as it fits the buffer. -/
def message (datagram : Bytes) : Bytes := datagram.take 1024

/-- `target.contains(&src.ip().to_string())` -/
def speaksFor (target : Str) (src : IpAddr) : Bool := decide (src.display <:+: target)

/-- Whether the pair is valid, and the messages sent to the target meanwhile. The two seconds are over
at the end of the list. -/
def verifyCandidatePair (target : Str) : List Attempt → Bool × List Bytes
  | [] => (false, [])
  | .sendFailed :: attempts => verifyCandidatePair target attempts
  | .timedOut :: attempts =>
    let (valid, sent) := verifyCandidatePair target attempts
    (valid, ping :: sent)
  | .received src datagram :: attempts =>
    let (valid, sent) := verifyCandidatePair target attempts
    if !speaksFor target src then (valid, ping :: sent)
    else if message datagram = pong then (true, [ping])
    else if message datagram = ping then (valid, ping :: pong :: sent)
    else (valid, ping :: sent)

/-- A remote candidate's address and port as `start_connectivity_checks` prints them. -/
def targetOf (ip : Ipv4Addr) (port : UInt16) : Str := ip.display ++ ':' :: Nat.toDigits 10 port.toNat

/-- The turn ends the check. -/
def accepts (target : Str) : Attempt → Bool
  | .received src datagram => speaksFor target src && decide (message datagram = pong)
  | _ => false

/-- The turns that are taken. -/
def taken (target : Str) : List Attempt → List Attempt
  | [] => []
  | attempt :: attempts => attempt :: if accepts target attempt then [] else taken target attempts

/-! ## Which addresses speak for a target -/

theorem not_mem_octet {c : Char} (hc : c.isDigit = false) (n : UInt8) : c ∉ octet n := by
  intro h
  rw [isDigit_toDigits h] at hc
  cases hc

theorem octet_injective {m n : UInt8} (h : octet m = octet n) : m = n := by
  have hm := parseUnsigned_toDigits m.toNat_lt
  have hn := parseUnsigned_toDigits n.toNat_lt
  rw [show Nat.toDigits 10 m.toNat = Nat.toDigits 10 n.toNat from h, hn, Option.some.injEq] at hm
  exact UInt8.toNat_inj.mp hm.symm

theorem append_sep_inj {c : Char} {a b s t : Str} (ha : c ∉ a) (hb : c ∉ b) (h : a ++ c :: s = b ++ c :: t) :
    a = b ∧ s = t := by
  have hsplit := splitOnce_append s ha
  rw [h, splitOnce_append t hb, Option.some.injEq, Prod.mk.injEq] at hsplit
  exact ⟨hsplit.1.symm, hsplit.2.symm⟩

/-- One dotted text is part of another: as both have three dots, the inner fields are the same, the
first ends the other's first and the last begins the other's last. -/
theorem dotted_infix_iff {a b c d a' b' c' d' : Str} (h : '.' ∉ a ∧ '.' ∉ b ∧ '.' ∉ c ∧ '.' ∉ d)
    (h' : '.' ∉ a' ∧ '.' ∉ b' ∧ '.' ∉ c' ∧ '.' ∉ d') :
    dotted a b c d <:+: dotted a' b' c' d' ↔ a <:+ a' ∧ b = b' ∧ c = c' ∧ d <+: d' := by
  obtain ⟨ha, hb, hc, hd⟩ := h
  obtain ⟨ha', hb', hc', hd'⟩ := h'
  constructor
  · rintro ⟨pre, post, heq⟩
    have hcount := congrArg (List.count '.') heq
    simp only [dotted, List.count_append, List.count_cons_self, List.count_eq_zero.mpr ha,
      List.count_eq_zero.mpr hb, List.count_eq_zero.mpr hc, List.count_eq_zero.mpr hd,
      List.count_eq_zero.mpr ha', List.count_eq_zero.mpr hb', List.count_eq_zero.mpr hc',
      List.count_eq_zero.mpr hd'] at hcount
    have hpre : '.' ∉ pre := List.count_eq_zero.mp (by omega)
    have hshape : (pre ++ a) ++ '.' :: (b ++ '.' :: (c ++ '.' :: (d ++ post))) =
        a' ++ '.' :: (b' ++ '.' :: (c' ++ '.' :: d')) := by
      simpa [dotted] using heq
    obtain ⟨h1, hrest⟩ := append_sep_inj (by simp [hpre, ha]) ha' hshape
    obtain ⟨h2, hrest⟩ := append_sep_inj hb hb' hrest
    obtain ⟨h3, h4⟩ := append_sep_inj hc hc' hrest
    exact ⟨⟨pre, h1⟩, h2, h3, ⟨post, h4⟩⟩
  · rintro ⟨⟨pre, rfl⟩, rfl, rfl, ⟨post, rfl⟩⟩
    exact ⟨pre, post, by simp [dotted]⟩

theorem prefix_append_sep_iff {c : Char} {d s t : Str} (hd : c ∉ d) : d <+: s ++ c :: t ↔ d <+: s := by
  constructor
  · intro h
    obtain ⟨rest, heq⟩ := h
    rcases List.append_eq_append_iff.mp heq with ⟨more, rfl, _⟩ | ⟨more, rfl, htail⟩
    · exact List.prefix_append _ _
    · cases more with
      | nil => simp
      | cons x more =>
        obtain ⟨rfl, _⟩ := List.cons_eq_cons.mp htail
        simp at hd
  · exact fun h => h.trans (List.prefix_append _ _)

/-- The two addresses differ in the first and last octet at most, and there the text of `src` is the
end or the beginning of the other's. -/
structure LookAlike (src ip : Ipv4Addr) : Prop where
  first : octet src.a <:+ octet ip.a
  second : src.b = ip.b
  third : src.c = ip.c
  last : octet src.d <+: octet ip.d

theorem speaksFor_v4_iff (ip : Ipv4Addr) (port : UInt16) (src : Ipv4Addr) :
    speaksFor (targetOf ip port) (.v4 src) = true ↔ LookAlike src ip := by
  have hoctet := fun n => @not_mem_octet '.' rfl n
  have hlast : '.' ∉ octet ip.d ++ ':' :: Nat.toDigits 10 port.toNat := by
    simp only [List.mem_append, List.mem_cons, not_or]
    refine ⟨hoctet ip.d, by decide, fun h => ?_⟩
    have := isDigit_toDigits h
    revert this
    decide
  have htarget : targetOf ip port =
      dotted (octet ip.a) (octet ip.b) (octet ip.c) (octet ip.d ++ ':' :: Nat.toDigits 10 port.toNat) := by
    simp [targetOf, Ipv4Addr.display, dotted]
  rw [speaksFor, decide_eq_true_iff, IpAddr.display, Ipv4Addr.display, htarget,
    dotted_infix_iff ⟨hoctet _, hoctet _, hoctet _, hoctet _⟩ ⟨hoctet _, hoctet _, hoctet _, hlast⟩,
    prefix_append_sep_iff (not_mem_octet rfl src.d)]
  constructor
  · rintro ⟨h1, h2, h3, h4⟩
    exact ⟨h1, octet_injective h2, octet_injective h3, h4⟩
  · rintro ⟨h1, h2, h3, h4⟩
    exact ⟨h1, by rw [h2], by rw [h3], h4⟩

theorem lookAlike_self (ip : Ipv4Addr) : LookAlike ip ip := ⟨List.suffix_rfl, rfl, rfl, List.prefix_rfl⟩

/-- Every IPv6 address is printed with two colons or more. -/
theorem two_le_count_display (ip : Ipv6Addr) : 2 ≤ ip.display.count ':' := by
  unfold Ipv6Addr.display
  split
  · have hfront : ("::ffff:".toList).count ':' = 3 := by decide
    rw [List.count_append, hfront]
    omega
  · dsimp only
    split
    · have hgap : ("::".toList).count ':' = 2 := by decide
      rw [List.count_append, List.count_append, hgap]
      omega
    · obtain ⟨first, tail, hsegments⟩ := List.exists_cons_of_length_eq_add_one ip.length_eq
      have hlen : tail.length = 7 := by
        have := ip.length_eq
        rw [hsegments, List.length_cons] at this
        omega
      -- One colon before each segment but the first.
      have hcolons : ∀ l : List UInt16,
          l.length ≤ (l.flatMap fun segment => ':' :: Nat.toDigits 16 segment.toNat).count ':' := by
        intro l
        induction l with
        | nil => exact le_rfl
        | cons segment l ih =>
          rw [List.flatMap_cons, List.count_append, List.count_cons_self, List.length_cons]
          omega
      rw [hsegments, Ipv6Addr.fmtSubslice, List.count_append]
      have := hcolons tail
      omega

theorem speaksFor_v6 (ip : Ipv4Addr) (port : UInt16) (src : Ipv6Addr) :
    ¬speaksFor (targetOf ip port) (.v6 src) = true := by
  intro h
  have hcolon := fun n => List.count_eq_zero.mpr (@not_mem_octet ':' rfl n)
  have hport : (Nat.toDigits 10 port.toNat).count ':' = 0 := by
    refine List.count_eq_zero.mpr fun hmem => ?_
    have := isDigit_toDigits hmem
    revert this
    decide
  have hone : (targetOf ip port).count ':' = 1 := by
    simp [targetOf, Ipv4Addr.display, dotted, hcolon, hport]
  have htwo := two_le_count_display src
  have hle := (of_decide_eq_true h).sublist.count_le ':'
  rw [IpAddr.display, hone] at hle
  omega

/-! ## Who validates a pair -/

theorem message_eq_pong {datagram : Bytes} (h : message datagram = pong) : datagram = pong := by
  have hlen := congrArg List.length h
  rw [message, List.length_take, show pong.length = 4 from rfl] at hlen
  rw [← h, message, List.take_of_length_le (by omega)]

theorem verify_iff_accepts (target : Str) (attempts : List Attempt) :
    (verifyCandidatePair target attempts).1 = true ↔ ∃ attempt ∈ attempts, accepts target attempt = true := by
  induction attempts with
  | nil => simp [verifyCandidatePair]
  | cons attempt attempts ih =>
    have hcons : (∃ a ∈ attempt :: attempts, accepts target a = true) ↔
        accepts target attempt = true ∨ ∃ a ∈ attempts, accepts target a = true := by simp
    rw [hcons, ← ih]
    cases attempt with
    | sendFailed => simp [verifyCandidatePair, accepts]
    | timedOut => simp [verifyCandidatePair, accepts]
    | received src datagram =>
      rw [verifyCandidatePair, accepts]
      cases hs : speaksFor target src with
      | false => simp
      | true =>
        by_cases hpong : message datagram = pong
        · simp [hpong]
        · by_cases hping : message datagram = ping
          · simp [hping, show ping ≠ pong by decide]
          · simp [hpong, hping]

/-- The check ends at the first datagram it accepts. -/
theorem taken_first {target : Str} {before rest : List Attempt} {attempt : Attempt}
    (h : ∀ a ∈ before, ¬accepts target a = true) (ha : accepts target attempt = true) :
    taken target (before ++ attempt :: rest) = before ++ [attempt] := by
  induction before with
  | nil => simp [taken, ha]
  | cons a before ih =>
    rw [List.forall_mem_cons] at h
    rw [List.cons_append, taken, if_neg h.1, ih h.2]
    rfl

theorem exists_first {target : Str} {attempts : List Attempt} (h : ∃ a ∈ attempts, accepts target a = true) :
    ∃ before attempt rest, attempts = before ++ attempt :: rest ∧ (∀ a ∈ before, ¬accepts target a = true) ∧
      accepts target attempt = true := by
  induction attempts with
  | nil => simp at h
  | cons a attempts ih =>
    by_cases ha : accepts target a = true
    · exact ⟨[], a, attempts, rfl, by simp, ha⟩
    · obtain ⟨before, attempt, rest, rfl, hnone, hattempt⟩ := ih (by simpa [ha] using h)
      exact ⟨a :: before, attempt, rest, rfl, by simpa [ha] using hnone, hattempt⟩

/-- A datagram that is accepted is a pong of a look-alike. -/
theorem accepts_iff (ip : Ipv4Addr) (port : UInt16) (attempt : Attempt) :
    accepts (targetOf ip port) attempt = true ↔ ∃ src, attempt = .received (.v4 src) pong ∧ LookAlike src ip := by
  constructor
  · intro h
    cases attempt with
    | sendFailed => cases h
    | timedOut => cases h
    | received src datagram =>
      obtain ⟨hs, hm⟩ := Bool.and_eq_true_iff.mp h
      rw [message_eq_pong (of_decide_eq_true hm)]
      cases src with
      | v4 src => exact ⟨src, rfl, (speaksFor_v4_iff ip port src).mp hs⟩
      | v6 src => exact absurd hs (speaksFor_v6 ip port src)
  · rintro ⟨src, rfl, hlike⟩
    exact Bool.and_eq_true_iff.mpr ⟨(speaksFor_v4_iff ip port src).mpr hlike, by decide⟩

/-- **Only its own peer validates a pair** exactly when no other address that looks like the target
sends a pong before the target does. -/
theorem validated_by_peer_iff (ip : Ipv4Addr) (port : UInt16) (attempts : List Attempt) :
    ((verifyCandidatePair (targetOf ip port) attempts).1 = true →
        .received (.v4 ip) pong ∈ taken (targetOf ip port) attempts) ↔
      ∀ before src rest, attempts = before ++ .received (.v4 src) pong :: rest → LookAlike src ip →
        src = ip ∨ .received (.v4 ip) pong ∈ before := by
  have hself : accepts (targetOf ip port) (.received (.v4 ip) pong) = true :=
    (accepts_iff ip port _).mpr ⟨ip, rfl, lookAlike_self ip⟩
  rw [verify_iff_accepts]
  constructor
  · rintro h before src rest rfl hlike
    by_cases hearlier : .received (.v4 ip) pong ∈ before
    · exact Or.inr hearlier
    · left
      have haccepts := (accepts_iff ip port (.received (.v4 src) pong)).mpr ⟨src, rfl, hlike⟩
      have htaken := h ⟨_, by simp, haccepts⟩
      -- Whatever is accepted first is in `before` or is this pong.
      by_cases hsome : ∃ a ∈ before, accepts (targetOf ip port) a = true
      · obtain ⟨front, attempt, back, rfl, hnone, hattempt⟩ := exists_first hsome
        rw [List.append_assoc, List.cons_append, taken_first hnone hattempt] at htaken
        refine absurd ?_ hearlier
        rcases List.mem_append.mp htaken with hmem | hmem
        · exact List.mem_append_left _ hmem
        · rw [List.mem_singleton.mp hmem]
          simp
      · push Not at hsome
        rw [taken_first (fun a ha => by simpa using hsome a ha) haccepts] at htaken
        rcases List.mem_append.mp htaken with hmem | hmem
        · exact absurd hmem hearlier
        · have heq := List.mem_singleton.mp hmem
          simp only [Attempt.received.injEq, IpAddr.v4.injEq, and_true] at heq
          exact heq.symm
  · rintro h hsome
    obtain ⟨before, attempt, rest, rfl, hnone, hattempt⟩ := exists_first hsome
    obtain ⟨src, rfl, hlike⟩ := (accepts_iff ip port attempt).mp hattempt
    rw [taken_first hnone hattempt]
    rcases h before src rest rfl hlike with rfl | hmem
    · simp
    · exact absurd hself (hnone _ hmem)

/-- The host 192.168.1.2 answers the check of the host 192.168.1.23, which is down. -/
theorem neighbour_validates :
    let target := targetOf ⟨192, 168, 1, 23⟩ 5000
    let attempts := [Attempt.timedOut, .received (.v4 ⟨192, 168, 1, 2⟩) pong]
    (verifyCandidatePair target attempts).1 = true ∧
      ∀ datagram, .received (.v4 ⟨192, 168, 1, 23⟩) datagram ∉ taken target attempts := by
  intro target attempts
  have hlike : LookAlike ⟨192, 168, 1, 2⟩ ⟨192, 168, 1, 23⟩ := ⟨by decide, rfl, rfl, by decide⟩
  have haccepts := (accepts_iff ⟨192, 168, 1, 23⟩ 5000 _).mpr ⟨_, rfl, hlike⟩
  have htaken : taken target attempts = attempts :=
    @taken_first target [.timedOut] [] _ (by simp [accepts]) haccepts
  refine ⟨(verify_iff_accepts _ _).mpr ⟨_, by simp [attempts], haccepts⟩, fun datagram hmem => ?_⟩
  rw [htaken] at hmem
  simp [attempts] at hmem

end RoomRtc.Session
