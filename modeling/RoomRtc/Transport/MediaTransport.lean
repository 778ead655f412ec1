import RoomRtc.Srtp.Context

/-! The receiving side of the media transport (`transport/media_transport.rs`): the thread
that takes protected datagrams from the socket thread, unprotects them and hands the packets
to the application. When its output is exactly the packets of the good datagrams. -/
namespace RoomRtc.Transport
open Srtp
set_option autoImplicit false

def isRtpPacket (firstByte : UInt8) : Bool := decide (128 ≤ firstByte ∧ firstByte ≤ 191)

section Layer
variable (ssl : OpenSsl) (ctx : SrtpContext) (isClient : Bool)

/-- The thread of `start_unprotection_layer`, with what it sends to the application in order.
`listening n` says whether the application still holds the receiver when packet number `n` is
sent: `Sender::send` fails just when it does not. Neither `protect` nor `unprotect` panics, so
the lock around the context is never poisoned. -/
def startUnprotectionLayer (listening : ℕ → Bool) : ℕ → List (List UInt8) → List RtpPacket
  | _, [] => []
  | sent, [] :: protectedRx => startUnprotectionLayer listening sent protectedRx
  | sent, (firstByte :: data) :: protectedRx =>
    if !isRtpPacket firstByte then startUnprotectionLayer listening sent protectedRx
    else
      match ctx.unprotect ssl (firstByte :: data) isClient with
      | .ok packet =>
        if listening sent then packet :: startUnprotectionLayer listening (sent + 1) protectedRx else []
      | .error _ => []

/-! ## Good and refused datagrams -/

/-- The datagram is taken for RTP: it is not empty and its first byte is in `128..=191`. -/
def looksRtp : List UInt8 → Bool
  | [] => false
  | firstByte :: _ => isRtpPacket firstByte

/-- The packet of a good datagram. -/
def accepted (datagram : List UInt8) : Option RtpPacket :=
  if looksRtp datagram then (ctx.unprotect ssl datagram isClient).toOption else none

/-- Taken for RTP, but `unprotect` refuses it: too short, forged, or not to be decrypted. -/
def Refused (datagram : List UInt8) : Prop :=
  looksRtp datagram = true ∧ accepted ssl ctx isClient datagram = none

/-- The packets of the good datagrams and no others come out, in order, and a datagram that
gives no packet could as well not have arrived. -/
def Unhindered (listening : ℕ → Bool) (datagrams : List (List UInt8)) : Prop :=
  startUnprotectionLayer ssl ctx isClient listening 0 datagrams =
    datagrams.filterMap (accepted ssl ctx isClient) ∧
  ∀ before bad after, datagrams = before ++ bad :: after → accepted ssl ctx isClient bad = none →
    startUnprotectionLayer ssl ctx isClient listening 0 (before ++ bad :: after) =
      startUnprotectionLayer ssl ctx isClient listening 0 (before ++ after)

/-- Every good datagram comes before the first refused one, and the application still listens
when its packet is due; `sent` packets went out before. -/
def GoodFirst (listening : ℕ → Bool) (sent : ℕ) (datagrams : List (List UInt8)) : Prop :=
  ∀ before good after, datagrams = before ++ good :: after → accepted ssl ctx isClient good ≠ none →
    (∀ d ∈ before, ¬Refused ssl ctx isClient d) ∧
      listening (sent + (before.filterMap (accepted ssl ctx isClient)).length) = true

variable {ssl ctx isClient} {listening : ℕ → Bool} {sent : ℕ} {d : List UInt8} {ds : List (List UInt8)}

/-! ## One datagram -/

/-- A datagram that gives no packet is skipped or refused. -/
theorem refused_or_foreign (h : accepted ssl ctx isClient d = none) :
    Refused ssl ctx isClient d ∨ looksRtp d = false := by
  cases hd : looksRtp d with
  | true => exact .inl ⟨hd, h⟩
  | false => exact .inr rfl

theorem not_refused_of_foreign (h : looksRtp d = false) : ¬Refused ssl ctx isClient d := by
  intro hr
  rw [hr.1] at h
  cases h

theorem accepted_of_foreign (h : looksRtp d = false) : accepted ssl ctx isClient d = none := by
  simp [accepted, h]

theorem layer_foreign (h : looksRtp d = false) :
    startUnprotectionLayer ssl ctx isClient listening sent (d :: ds) =
      startUnprotectionLayer ssl ctx isClient listening sent ds := by
  cases d with
  | nil => rfl
  | cons b data =>
    simp only [looksRtp] at h
    simp [startUnprotectionLayer, h]

theorem layer_accepted {p : RtpPacket} (h : accepted ssl ctx isClient d = some p) :
    startUnprotectionLayer ssl ctx isClient listening sent (d :: ds) =
      if listening sent then p :: startUnprotectionLayer ssl ctx isClient listening (sent + 1) ds else [] := by
  cases d with
  | nil => simp [accepted, looksRtp] at h
  | cons b data =>
    cases hb : isRtpPacket b with
    | false => simp [accepted, looksRtp, hb] at h
    | true =>
      simp only [accepted, looksRtp, hb, if_true] at h
      rw [startUnprotectionLayer, hb]
      cases hu : ctx.unprotect ssl (b :: data) isClient with
      | error e =>
        rw [hu] at h
        cases h
      | ok packet =>
        rw [hu] at h
        cases h
        rfl

theorem layer_refused (h : Refused ssl ctx isClient d) :
    startUnprotectionLayer ssl ctx isClient listening sent (d :: ds) = [] := by
  obtain ⟨hlooks, hnone⟩ := h
  cases d with
  | nil => cases hlooks
  | cons b data =>
    have hb : isRtpPacket b = true := hlooks
    simp only [accepted, hlooks, if_true] at hnone
    rw [startUnprotectionLayer, hb]
    cases hu : ctx.unprotect ssl (b :: data) isClient with
    | error e => rfl
    | ok packet =>
      rw [hu] at hnone
      cases hnone

/-! ## The condition, datagram by datagram -/

/-- A datagram that gives no packet and is not refused does not matter for the rest. -/
theorem goodFirst_foreign (h : looksRtp d = false) :
    GoodFirst ssl ctx isClient listening sent (d :: ds) ↔ GoodFirst ssl ctx isClient listening sent ds := by
  have hnone : accepted ssl ctx isClient d = none := accepted_of_foreign h
  constructor
  · intro hg before good after hds hgood
    have := hg (d :: before) good after (by rw [hds]; rfl) hgood
    rw [List.filterMap_cons_none hnone] at this
    exact ⟨fun e he => this.1 e (List.mem_cons_of_mem d he), this.2⟩
  · intro hg before good after hds hgood
    cases before with
    | nil =>
      cases hds
      exact absurd hnone hgood
    | cons e before =>
      cases hds
      have := hg before good after rfl hgood
      rw [List.filterMap_cons_none hnone]
      exact ⟨List.forall_mem_cons.mpr ⟨not_refused_of_foreign h, this.1⟩, this.2⟩

theorem goodFirst_accepted {p : RtpPacket} (h : accepted ssl ctx isClient d = some p) :
    GoodFirst ssl ctx isClient listening sent (d :: ds) ↔
      listening sent = true ∧ GoodFirst ssl ctx isClient listening (sent + 1) ds := by
  have hd : ¬Refused ssl ctx isClient d := by
    intro hr
    rw [hr.2] at h
    cases h
  constructor
  · intro hg
    refine ⟨?_, ?_⟩
    · exact (hg [] d ds rfl (by simp [h])).2
    · intro before good after hds hgood
      have := hg (d :: before) good after (by rw [hds]; rfl) hgood
      rw [List.filterMap_cons_some h, List.length_cons] at this
      refine ⟨fun e he => this.1 e (List.mem_cons_of_mem d he), ?_⟩
      rw [Nat.add_assoc, Nat.add_comm 1]
      exact this.2
  · intro hg before good after hds hgood
    cases before with
    | nil => exact ⟨fun e he => (List.not_mem_nil he).elim, hg.1⟩
    | cons e before =>
      cases hds
      have := hg.2 before good after rfl hgood
      rw [List.filterMap_cons_some h, List.length_cons, Nat.add_comm _ 1, ← Nat.add_assoc]
      exact ⟨List.forall_mem_cons.mpr ⟨hd, this.1⟩, this.2⟩

theorem goodFirst_refused (h : Refused ssl ctx isClient d) :
    GoodFirst ssl ctx isClient listening sent (d :: ds) ↔ ds.filterMap (accepted ssl ctx isClient) = [] := by
  rw [List.filterMap_eq_nil_iff]
  constructor
  · intro hg good hmem
    by_contra hgood
    obtain ⟨before, after, rfl⟩ := List.append_of_mem hmem
    exact (hg (d :: before) good after rfl hgood).1 d (List.mem_cons_self ..) h
  · intro hnone before good after hds hgood
    cases before with
    | nil =>
      cases hds
      exact absurd h.2 hgood
    | cons e before =>
      cases hds
      exact absurd (hnone good (by simp)) hgood

/-! ## All datagrams -/

/-- Exactly the packets of the good datagrams come out just when the good ones come first. -/
theorem layer_eq_iff (listening : ℕ → Bool) (sent : ℕ) (ds : List (List UInt8)) :
    startUnprotectionLayer ssl ctx isClient listening sent ds = ds.filterMap (accepted ssl ctx isClient) ↔
      GoodFirst ssl ctx isClient listening sent ds := by
  induction ds generalizing sent with
  | nil => exact ⟨fun _ before good after hds => by simp at hds, fun _ => rfl⟩
  | cons d ds ih =>
    cases hd : accepted ssl ctx isClient d with
    | some p =>
      rw [layer_accepted hd, goodFirst_accepted hd, List.filterMap_cons_some hd]
      cases listening sent with
      | false => simp
      | true => simp [ih]
    | none =>
      obtain hr | hf := refused_or_foreign hd
      · rw [layer_refused hr, goodFirst_refused hr, List.filterMap_cons_none hd]
        exact eq_comm
      · rw [layer_foreign hf, goodFirst_foreign hf, List.filterMap_cons_none hd]
        exact ih sent

/-- The condition is kept when a datagram that gives no packet is left out. -/
theorem goodFirst_leave_out {before after : List (List UInt8)} {bad : List UInt8}
    (hbad : accepted ssl ctx isClient bad = none)
    (h : GoodFirst ssl ctx isClient listening sent (before ++ bad :: after)) :
    GoodFirst ssl ctx isClient listening sent (before ++ after) := by
  induction before generalizing sent with
  | nil =>
    obtain hr | hf := refused_or_foreign hbad
    · have hnone := List.filterMap_eq_nil_iff.mp ((goodFirst_refused hr).mp h)
      intro before good rest hds hgood
      have hmem : good ∈ after := by
        have : after = before ++ good :: rest := hds
        simp [this]
      exact absurd (hnone good hmem) hgood
    · exact (goodFirst_foreign hf).mp h
  | cons d before ih =>
    rw [List.cons_append] at h ⊢
    cases hd : accepted ssl ctx isClient d with
    | some p =>
      obtain ⟨hl, h⟩ := (goodFirst_accepted hd).mp h
      exact (goodFirst_accepted hd).mpr ⟨hl, ih h⟩
    | none =>
      obtain hr | hf := refused_or_foreign hd
      · have hnone := (goodFirst_refused hr).mp h
        rw [List.filterMap_append, List.filterMap_cons_none hbad, ← List.filterMap_append] at hnone
        exact (goodFirst_refused hr).mpr hnone
      · exact (goodFirst_foreign hf).mpr (ih ((goodFirst_foreign hf).mp h))

/-- **When bad datagrams do no harm.** The layer forwards the packets of the good datagrams, and
a bad one has no effect on the others, just when every good datagram arrives before the first
refused one and finds the application listening. -/
theorem unhindered_iff (ssl : OpenSsl) (ctx : SrtpContext) (isClient : Bool) (listening : ℕ → Bool)
    (datagrams : List (List UInt8)) :
    Unhindered ssl ctx isClient listening datagrams ↔ GoodFirst ssl ctx isClient listening 0 datagrams := by
  constructor
  · intro h
    exact (layer_eq_iff listening 0 datagrams).mp h.1
  · intro h
    refine ⟨(layer_eq_iff listening 0 datagrams).mpr h, ?_⟩
    intro before bad after hds hbad
    subst hds
    rw [(layer_eq_iff listening 0 _).mpr h, (layer_eq_iff listening 0 _).mpr (goodFirst_leave_out hbad h),
      List.filterMap_append, List.filterMap_append, List.filterMap_cons_none hbad]

end Layer

/-! ## A single short datagram -/

/-- A packet without payload, protected under sixteen zero bytes: the header and the first ten
bytes of its HMAC-SHA1. -/
def goodDatagram : List UInt8 :=
  (128 :: List.replicate 32 0) ++ [146, 180, 141, 78, 140, 152, 183, 234, 53, 250]

/-- The OpenSSL calls as they come out for `goodDatagram`. -/
def zeroKeySsl : OpenSsl where
  encrypt _ _ data := .ok data
  decrypt _ _ data := .ok data
  hmacSha1 _ _ := .ok [146, 180, 141, 78, 140, 152, 183, 234, 53, 250, 240, 42, 88, 207, 236, 58, 164, 55, 4, 204]

def zeroKeys : SrtpContext where
  clientWriteKey := List.replicate 16 0
  serverWriteKey := List.replicate 16 0
  clientWriteSalt := List.replicate 14 0
  serverWriteSalt := List.replicate 14 0

/-- One byte from anywhere, and the good datagram behind it is lost. -/
theorem short_datagram_stops_layer :
    startUnprotectionLayer zeroKeySsl zeroKeys false (fun _ => true) 0 [goodDatagram] ≠ [] ∧
    startUnprotectionLayer zeroKeySsl zeroKeys false (fun _ => true) 0 [[128], goodDatagram] = [] ∧
    ¬Unhindered zeroKeySsl zeroKeys false (fun _ => true) [[128], goodDatagram] := by
  have hone : startUnprotectionLayer zeroKeySsl zeroKeys false (fun _ => true) 0 [goodDatagram] ≠ [] := by
    decide +kernel
  have htwo : startUnprotectionLayer zeroKeySsl zeroKeys false (fun _ => true) 0 [[128], goodDatagram] = [] := by
    decide +kernel
  refine ⟨hone, htwo, ?_⟩
  intro h
  have := h.2 [] [128] [goodDatagram] rfl (by decide +kernel)
  exact hone (this.symm.trans htwo)

end RoomRtc.Transport
