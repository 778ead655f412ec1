import RoomRtc.File.FtpMessage
import Mathlib.Logic.Function.Basic

/-! The answer to a file offer (`accept_file_offer` and `reject_file_offer` of
`file/file_transferer/transferer.rs`). Both take the channel out of the pending ones before anything
that can fail, and `accept_file_offer` tells the sender before it creates the file: nothing of this
is taken back when a later step fails. -/
namespace RoomRtc.File
open Text
set_option autoImplicit false

structure DataChannel where
  streamId : UInt16
  deriving DecidableEq, Repr

inductive FileTransfererError where
  | mapError (details : Str)
  | fileCreateError (details : Str)
  | lockError (details : Str)
  | unknownOfferId (offerId : UInt32)
deriving DecidableEq, Repr

/-- The part of a `FileTransferer` that answers offers. -/
structure Answering where
  pendingDataChannels : UInt32 → Option DataChannel
  /-- What the channels have taken, oldest first. -/
  sent : List (DataChannel × FtpMessage)
  /-- The downloads that were started. -/
  downloads : List (UInt32 × DataChannel)

/-- How the steps go that can fail, each with the text of its error. -/
structure AnswerSteps where
  lock : Except Str Unit
  send : Except Str Unit
  create : Except Str Unit

namespace Answering

/-- `pending_data_channels.lock()?.remove(&offer_id).ok_or(UnknownOfferId)` -/
def takeOffer (s : Answering) (offerId : UInt32) (lock : Except Str Unit) :
    Answering × Except FileTransfererError DataChannel :=
  match lock with
  | .error e => (s, .error (.lockError e))
  | .ok () =>
    match s.pendingDataChannels offerId with
    | none => (s, .error (.unknownOfferId offerId))
    | some dc => ({ s with pendingDataChannels := Function.update s.pendingDataChannels offerId none }, .ok dc)

def rejectFileOffer (s : Answering) (offerId : UInt32) (steps : AnswerSteps) :
    Answering × Except FileTransfererError Unit :=
  match s.takeOffer offerId steps.lock with
  | (s, .error e) => (s, .error e)
  | (s, .ok dc) =>
    match steps.send with
    | .error e => (s, .error (.mapError e))
    | .ok () => ({ s with sent := s.sent ++ [(dc, .rejectFile)] }, .ok ())

def acceptFileOffer (s : Answering) (offerId : UInt32) (steps : AnswerSteps) :
    Answering × Except FileTransfererError Unit :=
  match s.takeOffer offerId steps.lock with
  | (s, .error e) => (s, .error e)
  | (s, .ok dc) =>
    match steps.send with
    | .error e => (s, .error (.mapError e))
    | .ok () =>
      let s := { s with sent := s.sent ++ [(dc, .acceptFile)] }
      match steps.create with
      | .error e => (s, .error (.fileCreateError e))
      | .ok () => ({ s with downloads := s.downloads ++ [(offerId, dc)] }, .ok ())

/-! ## What a failure leaves behind -/

variable {s : Answering} {offerId : UInt32} {steps : AnswerSteps}

/-- If it fails, the pending offers are those of before and no channel has taken a message. -/
def KeepsOffer (s : Answering) (offerId : UInt32) (steps : AnswerSteps) : Prop :=
  ∀ s' e, s.acceptFileOffer offerId steps = (s', .error e) →
    s'.pendingDataChannels = s.pendingDataChannels ∧ s'.sent = s.sent

theorem takeOffer_cases (s : Answering) (offerId : UInt32) (lock : Except Str Unit) :
    (((∃ e, lock = .error e) ∨ s.pendingDataChannels offerId = none) ∧ ∃ e,
      s.takeOffer offerId lock = (s, .error e)) ∨
      ∃ dc, lock = .ok () ∧ s.pendingDataChannels offerId = some dc ∧ s.takeOffer offerId lock =
        ({ s with pendingDataChannels := Function.update s.pendingDataChannels offerId none }, .ok dc) := by
  cases lock with
  | error e => exact .inl ⟨.inl ⟨e, rfl⟩, _, rfl⟩
  | ok =>
    cases hpending : s.pendingDataChannels offerId with
    | none => exact .inl ⟨.inr rfl, .unknownOfferId offerId, by simp [takeOffer, hpending]⟩
    | some dc => exact .inr ⟨dc, rfl, rfl, by simp [takeOffer, hpending]⟩

/-- A pending offer is gone after an accept, however its later steps go. -/
theorem acceptFileOffer_pending {dc : DataChannel} (hlock : steps.lock = .ok ())
    (hpending : s.pendingDataChannels offerId = some dc) :
    (s.acceptFileOffer offerId steps).1.pendingDataChannels = Function.update s.pendingDataChannels offerId none := by
  obtain ⟨h, _⟩ | ⟨dc', _, _, htake⟩ := takeOffer_cases s offerId steps.lock
  · simp [hlock, hpending] at h
  · rw [acceptFileOffer, htake]
    cases steps.send with
    | error e => rfl
    | ok => cases steps.create <;> rfl

theorem acceptFileOffer_ok_iff (s : Answering) (offerId : UInt32) (steps : AnswerSteps) :
    (s.acceptFileOffer offerId steps).2 = .ok () ↔
      (∃ dc, steps.lock = .ok () ∧ s.pendingDataChannels offerId = some dc) ∧ steps.send = .ok () ∧
        steps.create = .ok () := by
  obtain ⟨h, e, htake⟩ | ⟨dc, hlock, hpending, htake⟩ := takeOffer_cases s offerId steps.lock
  · rw [acceptFileOffer, htake]
    constructor
    · exact fun hok => nomatch hok
    · rintro ⟨⟨dc, hlock, hpending⟩, _⟩
      simp [hlock, hpending] at h
  · rw [acceptFileOffer, htake]
    cases steps.send with
    | error e => simp
    | ok =>
      cases steps.create with
      | error e => simp
      | ok => simp [hlock, hpending]

/-- **When a failed accept keeps the offer**: there is no such offer to be accepted, or nothing fails. -/
theorem acceptFileOffer_keeps_iff (s : Answering) (offerId : UInt32) (steps : AnswerSteps) :
    s.KeepsOffer offerId steps ↔ (∃ e, steps.lock = .error e) ∨ s.pendingDataChannels offerId = none ∨
      (steps.send = .ok () ∧ steps.create = .ok ()) := by
  obtain ⟨h, e, htake⟩ | ⟨dc, hlock, hpending, htake⟩ := takeOffer_cases s offerId steps.lock
  · refine iff_of_true ?_ (h.imp_right .inl)
    intro s' e' haccept
    rw [acceptFileOffer, htake] at haccept
    cases haccept
    exact ⟨rfl, rfl⟩
  · constructor
    · intro hkeeps
      by_contra hfails
      rw [not_or, not_or] at hfails
      cases haccept : s.acceptFileOffer offerId steps with
      | mk s' result =>
        have hgone := acceptFileOffer_pending hlock hpending
        have hok := acceptFileOffer_ok_iff s offerId steps
        rw [haccept] at hgone hok
        cases result with
        | ok => exact hfails.2.2 (hok.mp rfl).2
        | error e =>
          -- The channel is still there before and not after.
          have hsame := congrFun ((hkeeps s' e haccept).1.symm.trans hgone) offerId
          rw [hpending, Function.update_self] at hsame
          cases hsame
    · rintro (⟨e, hpoisoned⟩ | hnone | ⟨hsend, hcreate⟩) s' e haccept
      · rw [hlock] at hpoisoned
        cases hpoisoned
      · rw [hpending] at hnone
        cases hnone
      · have hok := (acceptFileOffer_ok_iff s offerId steps).mpr ⟨⟨dc, hlock, hpending⟩, hsend, hcreate⟩
        rw [haccept] at hok
        cases hok

/-- The file can not be created: the offer is gone and its sender has been told to go on. -/
theorem acceptFileOffer_create_fails :
    ¬KeepsOffer ⟨Function.update (fun _ => none) 7 (some ⟨1⟩), [], []⟩ 7
        ⟨.ok (), .ok (), .error "Permission denied (os error 13)".toList⟩ ∧
      (acceptFileOffer ⟨Function.update (fun _ => none) 7 (some ⟨1⟩), [], []⟩ 7
        ⟨.ok (), .ok (), .error "Permission denied (os error 13)".toList⟩).1.sent = [(⟨1⟩, .acceptFile)] := by
  refine ⟨fun h => ?_, rfl⟩
  have hsent := (h _ _ rfl).2
  cases hsent

end Answering
end RoomRtc.File
