import RoomRtc.File.Delivery
import RoomRtc.File.ExchangeMoves

/-! The transfers inside the file offers of a call. Whatever happens on the other channels, on one channel it is
a run of the two workers, so a download that is reported is the whole file just when its sender did not leave
its loop early, and a file that was accepted arrives when nothing fails on its own channel. -/
namespace RoomRtc.File
open Text Transport
set_option autoImplicit false

namespace Exchange
variable {first : ℕ} {s : Exchange} {dc dc' : DataChannel} {c c' : Channel}

/-! ## One channel among the others -/

/-- The turn of the two workers of the channel that a move is, once the sender is behind `Ok(true)`. -/
def turnOn (dc : DataChannel) (s : Exchange) : ExchangeMove → Option Turn
  | .work dc' env => if dc' = dc then some (.sender env.sender) else none
  | .download dc' env => if dc' = dc ∧ dc ∈ s.answering.downloads.map Prod.snd then some (.receiver env) else none
  | _ => none

/-- The moves that are not a turn of the channel's own workers leave a channel alone that the peer's user knows. -/
theorem aside_step (h : s.Inv first) (hc : s.channels dc = some c) (hw : c.worker ≠ .opening)
    (hbusy : ¬(s.standing dc).Quiet) {move : ExchangeMove} (hopen : s.OpensNew move)
    (hwork : ∀ env, move ≠ .work dc env)
    (hdownload : ∀ env, move ≠ .download dc env) : ∃ c', (s.step move).channels dc = some c' ∧
      c'.content = c.content ∧ c'.worker = c.worker ∧ c'.transfer = c.transfer := by
  have hself : ∃ c', some c = some c' ∧ c'.content = c.content ∧ c'.worker = c.worker ∧
    c'.transfer = c.transfer :=
    ⟨c, rfl, rfl, rfl, rfl⟩
  rw [← hc] at hself
  cases move with
  | sendFile m content openStream =>
    obtain hsame | ⟨hnone, _⟩ := sendFile_channels m content hopen dc
    · rwa [← hsame] at hself
    · simp [hc] at hnone
  | opened =>
    obtain hsame | ⟨c', hc', hw', _⟩ := opened_channels s dc
    · rwa [← hsame] at hself
    · cases hc.symm.trans hc'
      exact absurd hw' hw
  | openFailed =>
    obtain hsame | ⟨c', hc', hw', _⟩ := openFailed_channels s dc
    · rwa [← hsame] at hself
    · cases hc.symm.trans hc'
      exact absurd hw' hw
  | work dc' env =>
    refine ⟨c, ?_, rfl, rfl, rfl⟩
    rw [step, work_channels s dc' env hc, if_neg fun he => hwork env (by rw [he])]
  | acceptDataChannel dc' opened =>
    obtain hsame | ⟨c', stream, hc', hnext⟩ := acceptDataChannel_channels s dc' opened dc
    · rwa [← hsame] at hself
    · cases hc.symm.trans hc'
      exact ⟨_, hnext, rfl, rfl, rfl⟩
  | disconnected => exact ⟨c, (congrFun (disconnected_channels s) dc).trans hc, rfl, rfl, rfl⟩
  | handleIncoming env =>
    obtain hsame | ⟨hl, _⟩ := handleIncoming_channels s env dc
    · rwa [← hsame] at hself
    · exact absurd (h.reading dc hl) hbusy
  | acceptFileOffer offerId steps => exact hself
  | rejectFileOffer offerId steps => exact hself
  | download dc' env =>
    refine ⟨c, ?_, rfl, rfl, rfl⟩
    rw [step, download_channels s dc' env hc, if_neg fun he => hdownload env (by rw [he.1])]

theorem turnOn_eq_none {move : ExchangeMove} (hwork : ∀ env, move ≠ .work dc env)
    (hdownload : ∀ env, move ≠ .download dc env) : turnOn dc s move = none := by
  cases move with
  | work dc' env => exact if_neg fun he => hwork env (by rw [he])
  | download dc' env => exact if_neg fun he => hdownload env (by rw [he.1])
  | _ => rfl

/-- Behind `Ok(true)` a channel is left to its two workers. -/
theorem sending_step (h : s.Inv first) (hc : s.channels dc = some c) (hw : c.worker = .sending)
    {move : ExchangeMove} (hopen : s.OpensNew move) :
    ∃ c', (s.step move).channels dc = some c' ∧ c'.content = c.content ∧
      c'.worker = .sending ∧ c'.transfer = (turnOn dc s move).elim c.transfer c.transfer.step := by
  have hbusy : ¬(s.standing dc).Quiet := by
    intro hq
    have hanswers := (h.phase dc c hc).answers_of_sending hw
    rw [hq.answers] at hanswers
    cases hanswers
  by_cases hwork : ∃ env, move = .work dc env
  · obtain ⟨env, rfl⟩ := hwork
    refine ⟨_, work_channels s dc env hc, ?_⟩
    have hturn : c.workerTurn (s.answersOn dc) env = { c with transfer := c.transfer.sendTurn env.sender } := by
      simp only [Channel.workerTurn, hw]
    rw [if_pos rfl, hturn, turnOn, if_pos rfl]
    exact ⟨rfl, hw, rfl⟩
  · by_cases hdownload : ∃ env, move = .download dc env
    · obtain ⟨env, rfl⟩ := hdownload
      refine ⟨_, download_channels s dc env hc, ?_⟩
      by_cases hd : dc = dc ∧ dc ∈ s.answering.downloads.map Prod.snd
      · rw [if_pos hd, turnOn, if_pos hd]
        exact ⟨rfl, hw, rfl⟩
      · rw [if_neg hd, turnOn, if_neg hd]
        exact ⟨rfl, hw, rfl⟩
    · rw [not_exists] at hwork hdownload
      obtain ⟨c', hc', hcontent, hw', htransfer⟩ := aside_step h hc (by simp [hw]) hbusy hopen hwork hdownload
      rw [turnOn_eq_none hwork hdownload]
      exact ⟨c', hc', hcontent, hw'.trans hw, htransfer⟩

/-- A channel that a move brings behind `Ok(true)` has a transfer of which nothing is done. -/
theorem starts_step (h : s.Inv first) (hw : ∀ c, s.channels dc = some c → c.worker ≠ .sending)
    {move : ExchangeMove}
    (hopen : s.OpensNew move) (hc' : (s.step move).channels dc = some c') (hw' : c'.worker = .sending) :
    ∃ receiving, c'.transfer = { Transfer.start c'.content with receiving := receiving } := by
  have hsame : (s.step move).channels dc ≠ s.channels dc := by
    intro he
    rw [hc'] at he
    exact hw c' he.symm hw'
  cases move with
  | sendFile m content openStream =>
    obtain he | ⟨_, he⟩ := sendFile_channels m content hopen dc
    · exact absurd he hsame
    · cases he.symm.trans hc'
      cases hw'
  | opened =>
    obtain he | ⟨_, _, _, he⟩ := opened_channels s dc
    · exact absurd he hsame
    · cases he.symm.trans hc'
      cases hw'
  | openFailed =>
    obtain he | ⟨_, _, _, he⟩ := openFailed_channels s dc
    · exact absurd he hsame
    · cases he.symm.trans hc'
      cases hw'
  | acceptDataChannel dc' opened =>
    obtain he | ⟨c, _, hc, he⟩ := acceptDataChannel_channels s dc' opened dc
    · exact absurd he hsame
    · cases he.symm.trans hc'
      exact absurd hw' (hw c hc)
  | disconnected => exact absurd (congrFun (disconnected_channels s) dc) hsame
  | handleIncoming env =>
    obtain he | ⟨_, c, _, hc, he⟩ := handleIncoming_channels s env dc
    · exact absurd he hsame
    · cases he.symm.trans hc'
      exact absurd hw' (hw c hc)
  | acceptFileOffer offerId steps => exact absurd rfl hsame
  | rejectFileOffer offerId steps => exact absurd rfl hsame
  | download dc' env =>
    cases hc : s.channels dc with
    | none =>
      cases (download_absent s dc' env hc).symm.trans hc'
    | some c =>
      have he := download_channels s dc' env hc
      cases he.symm.trans hc'
      split at hw'
      · exact absurd hw' (hw c hc)
      · exact absurd hw' (hw c hc)
  | work dc' env =>
    cases hc : s.channels dc with
    | none =>
      cases (work_absent s dc' env hc).symm.trans hc'
    | some c =>
      have he := work_channels s dc' env hc
      cases he.symm.trans hc'
      split at hw'
      · next hdc =>
        rw [if_pos hdc]
        have hphase := h.phase dc c hc
        obtain heq | ⟨_, heq⟩ | ⟨_, _, _, heq⟩ | ⟨answer, hwait, ha, hreject, haccept⟩
          | ⟨hsending, _⟩ :=
          workerTurn_cases c (s.answersOn dc) env
        · rw [heq] at hw'
          exact absurd hw' (hw c hc)
        · rw [heq] at hw'
          cases hw'
        · rw [heq] at hw'
          cases hw'
        · obtain ⟨hanswer, _⟩ | ⟨hanswer, _⟩ := hphase.takes hwait ha
          · rw [hreject hanswer] at hw'
            cases hw'
          · rw [haccept hanswer]
            exact hphase.fresh_of_answer hwait ha
        · exact absurd hsending (hw c hc)
      · exact absurd hw' (hw c hc)

/-! ## When a finished download is the whole file -/

/-- The sender of the channel leaves its chunk loop with a part of the file unsent. -/
def LeavesLoop (dc : DataChannel) (s : Exchange) (move : ExchangeMove) : Prop :=
  ∃ c turn, s.channels dc = some c ∧ c.worker = .sending ∧ turnOn dc s move = some turn ∧
    LeavesEarly c.transfer turn

/-- In no move of the run does it do so. -/
def SendsAllOn (isClient : Bool) (dc : DataChannel) (moves : List ExchangeMove) : Prop :=
  exchangeMachine.Guarded (fun s move => ¬LeavesLoop dc s move) (new isClient) moves

/-- The transfer is one of the two workers alone, in which the sender does not leave early just when `kept`. -/
def Refined (kept : Prop) (c : Channel) : Prop :=
  ∃ turns os, transferMachine.run (.start c.content) turns = some (c.transfer, os) ∧
    (SendsAll c.content turns ↔ kept)

/-- A transfer of which nothing is done, whether or not its receiver still waits. -/
theorem refined_start {receiving : Bool} (h : c.transfer = { Transfer.start c.content with receiving := receiving })
    {kept : Prop} (hkept : kept) : Refined kept c := by
  unfold Refined
  rw [h]
  cases receiving with
  | true => exact ⟨[], [], rfl, iff_of_true trivial hkept⟩
  | false =>
    refine ⟨[.receiver ⟨true, .failed, .done, true⟩], [()], rfl, iff_of_true ?_ hkept⟩
    exact ⟨fun h => h, fun _ _ _ => trivial⟩

theorem refined_step {kept : Prop} (h : Refined kept c) (hcontent : c'.content = c.content) {turn : Option Turn}
    (hturn : c'.transfer = turn.elim c.transfer c.transfer.step) :
    Refined (kept ∧ ¬∃ t, turn = some t ∧ LeavesEarly c.transfer t) c' := by
  obtain ⟨turns, os, hrun, hkept⟩ := h
  unfold Refined
  rw [hcontent, hturn]
  cases turn with
  | none =>
    refine ⟨turns, os, hrun, hkept.trans ?_⟩
    simp
  | some turn =>
    have hturn : transferMachine.step c.transfer turn = some (c.transfer.step turn, ()) := rfl
    have hrun' := transferMachine.run_append hrun (transferMachine.run_cons hturn (transferMachine.run_nil _))
    refine ⟨turns ++ [turn], os ++ [()], hrun', ?_⟩
    rw [sendsAll_concat hrun, hkept]
    simp

/-- What holds along a run for one channel. -/
structure Followed (isClient : Bool) (dc : DataChannel) (moves : List ExchangeMove) (s : Exchange) : Prop where
  inv : s.Inv (if isClient then 1 else 0)
  sending : ∀ c, s.channels dc = some c → c.worker = .sending → Refined (SendsAllOn isClient dc moves) c
  before : (∀ c, s.channels dc = some c → c.worker ≠ .sending) → SendsAllOn isClient dc moves

theorem followed_step {isClient : Bool} {moves : List ExchangeMove} {os : List Unit}
    (hrun : exchangeMachine.run (new isClient) moves = some (s, os)) (h : Followed isClient dc moves s)
    {move : ExchangeMove} (hopen : s.OpensNew move) : Followed isClient dc (moves ++ [move]) (s.step move) := by
  have hkept : SendsAllOn isClient dc (moves ++ [move]) ↔ SendsAllOn isClient dc moves ∧ ¬LeavesLoop dc s move :=
    exchangeMachine.guarded_concat hrun
  by_cases hsending : ∃ c, s.channels dc = some c ∧ c.worker = .sending
  · obtain ⟨c, hc, hw⟩ := hsending
    obtain ⟨c', hc', hcontent, hw', hturn⟩ := sending_step h.inv hc hw hopen
    refine ⟨inv_step (by cases isClient <;> decide) h.inv hopen, fun c₁ hc₁ _ => ?_, fun hnone => ?_⟩
    · cases hc'.symm.trans hc₁
      rw [hkept]
      have hleaves : LeavesLoop dc s move ↔ ∃ t, turnOn dc s move = some t ∧ LeavesEarly c.transfer t := by
        unfold LeavesLoop
        simp [hc, hw]
      rw [hleaves]
      exact refined_step (h.sending c hc hw) hcontent hturn
    · exact absurd hw' (hnone c' hc')
  · have hbefore : ∀ c, s.channels dc = some c → c.worker ≠ .sending := fun c hc hw => hsending ⟨c, hc, hw⟩
    have hall : SendsAllOn isClient dc (moves ++ [move]) := by
      refine hkept.mpr ⟨h.before hbefore, ?_⟩
      rintro ⟨c, _, hc, hw, _⟩
      exact hbefore c hc hw
    refine ⟨inv_step (by cases isClient <;> decide) h.inv hopen, fun c' hc' hw' => ?_, fun _ => hall⟩
    obtain ⟨receiving, hfresh⟩ := starts_step h.inv hbefore hopen hc' hw'
    exact refined_start hfresh hall

/-- **The two workers among the others.** Whatever happens on the other channels and to the offers, a transfer in
the exchange is a run of the sender's and the receiver's worker alone. -/
theorem transfer_refined {isClient : Bool} {moves : List ExchangeMove} {os : List Unit} {t : Exchange}
    (hopen : exchangeMachine.Guarded OpensNew (new isClient) moves)
    (hrun : exchangeMachine.run (new isClient) moves = some (t, os)) (dc : DataChannel) :
    Followed isClient dc moves t := by
  have h := exchangeMachine.run_induction
    (fun moves os s => exchangeMachine.run (new isClient) moves = some (s, os) ∧ Followed isClient dc moves s)
    (fun moves os s move s' o h hnew hstep => by
      refine ⟨exchangeMachine.run_append h.1 (exchangeMachine.run_cons hstep (exchangeMachine.run_nil s')), ?_⟩
      cases hstep
      exact followed_step h.1 h.2 hnew)
    ⟨rfl, inv_new isClient, fun c hc => (by cases hc), fun _ => trivial⟩ hopen hrun
  exact h.2

/-- Only behind `Ok(true)` can a download be completed. -/
theorem sending_of_completed {st : Standing} {told : List FileMetadata} (h : Phase st told c)
    (hdone : c.transfer.completed = true) : c.worker = .sending := by
  cases h with
  | silent _ _ fresh =>
    rw [fresh] at hdone
    cases hdone
  | offered _ _ _ _ _ onWay =>
    rw [onWay] at hdone
    cases hdone
  | heard _ _ _ _ _ _ fresh =>
    rw [fresh] at hdone
    cases hdone
  | answered _ _ _ _ _ _ fresh =>
    obtain ⟨receiving, fresh⟩ := fresh
    rw [fresh] at hdone
    cases hdone
  | sending _ _ _ _ _ worker => exact worker

/-- The transfer is where a run of the two workers alone gets it; at most the offer itself is on the channel
in front of what they have sent. -/
def TwoWorkers (c : Channel) : Prop :=
  ∃ turns os alone offer, transferMachine.run (.start c.content) turns = some (alone, os) ∧
    c.transfer = { alone with channel := offer ++ alone.channel } ∧
    ∀ message ∈ offer, ∃ offerId, c.offerId = some offerId ∧
      message = (FtpMessage.fileOffer offerId c.fileMetadata).toBytes

theorem twoWorkers_start (receiving : Bool)
    (h : c.transfer = { Transfer.start c.content with receiving := receiving }) :
    TwoWorkers c := by
  obtain ⟨turns, os, hturns, _⟩ := refined_start h trivial
  exact ⟨turns, os, c.transfer, [], hturns, rfl, fun _ hm => absurd hm List.not_mem_nil⟩

theorem twoWorkers_of_followed {isClient : Bool} {moves : List ExchangeMove} (h : Followed isClient dc moves s)
    (hc : s.channels dc = some c) : TwoWorkers c := by
  cases h.inv.phase dc c hc with
  | silent _ _ fresh => exact twoWorkers_start true fresh
  | @offered offerId _ _ id _ _ onWay =>
    refine ⟨[], [], .start c.content, [_], rfl, onWay, fun message hm => ⟨offerId, id, ?_⟩⟩
    exact List.mem_singleton.mp hm
  | heard _ _ _ _ _ _ fresh => exact twoWorkers_start true fresh
  | answered _ _ _ _ _ _ fresh =>
    obtain ⟨receiving, fresh⟩ := fresh
    exact twoWorkers_start receiving fresh
  | sending _ _ _ _ _ worker =>
    obtain ⟨turns, os, hturns, _⟩ := h.sending c hc worker
    exact ⟨turns, os, c.transfer, [], hturns, rfl, fun _ hm => absurd hm List.not_mem_nil⟩

/-- **When a finished download is the whole file, in a call.** Over all runs of all offers: every transfer is one
of its own two workers alone, and a download that is reported as completed is the content of the file just
when its sender did not leave its chunk loop early. -/
theorem exchanged_file_whole_iff {isClient : Bool} {moves : List ExchangeMove} {os : List Unit} {t : Exchange}
    (hopen : exchangeMachine.Guarded OpensNew (new isClient) moves)
    (hrun : exchangeMachine.run (new isClient) moves = some (t, os)) {dc : DataChannel} {c : Channel}
    (hc : t.channels dc = some c) :
    TwoWorkers c ∧ (c.transfer.completed = true →
      (c.transfer.written = c.content ↔ SendsAllOn isClient dc moves)) := by
  have hfollowed := transfer_refined hopen hrun dc
  refine ⟨twoWorkers_of_followed hfollowed hc, fun hdone => ?_⟩
  have hw := sending_of_completed (hfollowed.inv.phase dc c hc) hdone
  obtain ⟨turns, os', hturns, hkept⟩ := hfollowed.sending c hc hw
  obtain ⟨chunks, ended, rest, hl, hrest⟩ := accounted_run hturns
  have hfinal := hl.final hdone
  have hsender : c.transfer.sender ≠ .sending := by
    intro hs
    have := (hl.open_end (by simp [hs])).2
    rw [hdone] at this
    cases this
  rw [← hkept, ← hrest, ← hfinal]
  simp [hsender]

/-- Of two files the second is accepted, sent and received to its end, after the first was rejected. -/
def secondDelivered : List ExchangeMove :=
  let smooth : WorkerTurn := ⟨.message, ⟨true, .bytes 512, true⟩⟩
  secondAccepted ++ [.work ⟨3⟩ smooth, .work ⟨3⟩ smooth, .download ⟨3⟩ ⟨true, .message, .done, true⟩]

/-- So its sender did not leave early. -/
theorem second_file_whole : SendsAllOn true ⟨3⟩ secondDelivered := by
  obtain ⟨t, os, hrun⟩ : ∃ t os, exchangeMachine.run (new true) secondDelivered = some (t, os) := ⟨_, _, rfl⟩
  have hend : ∃ c, t.channels ⟨3⟩ = some c ∧ c.transfer.completed = true ∧
    c.transfer.written = c.content := by
    cases hrun
    exact ⟨_, rfl, rfl, rfl⟩
  obtain ⟨c, hc, hdone, hwhole⟩ := hend
  exact ((exchanged_file_whole_iff (by decide +kernel) hrun hc).2 hdone).mp hwhole

/-! ## An accepted file arrives -/

/-- The offer of the channel was accepted, its download runs, and nothing of the file is lost so far. -/
structure OnItsWay (s : Exchange) (dc : DataChannel) (c : Channel) : Prop where
  channel : s.channels dc = some c
  downloading : dc ∈ s.answering.downloads.map Prod.snd
  stage : c.worker = .waiting ∧ c.transfer = .start c.content ∨
    c.worker = .sending ∧ Delivering c.content c.transfer

/-- A move in which nothing fails on the channel; on others anything may. -/
def SmoothOn (dc : DataChannel) : ExchangeMove → Prop
  | .work dc' env => dc' = dc → env.recv = .message ∧ ∃ n, env.sender = ⟨true, .bytes n, true⟩
  | .download dc' env => dc' = dc → env = ⟨true, .message, .done, true⟩
  | _ => True

end Exchange

/-- How many turns the thread of `send_file` may still need. -/
def Channel.toGo (c : Channel) : ℕ := if c.worker = .waiting then c.content.length + 3 else pending c.transfer

def ExchangeMove.isWork (dc : DataChannel) : ExchangeMove → Bool
  | .work dc' _ => dc' = dc
  | _ => false

def ExchangeMove.isDownload (dc : DataChannel) : ExchangeMove → Bool
  | .download dc' _ => dc' = dc
  | _ => false

namespace Exchange
variable {first : ℕ} {s : Exchange} {dc : DataChannel} {c : Channel}

theorem downloads_mono {move : ExchangeMove} (h : dc ∈ s.answering.downloads.map Prod.snd) :
    dc ∈ (s.step move).answering.downloads.map Prod.snd := by
  have hgrows : ∀ {a : Answering} {offerId : UInt32} {dc' : DataChannel}, Answered s.answering a offerId dc' →
      dc ∈ a.downloads.map Prod.snd := by
    intro a offerId dc' ha
    obtain ⟨_, heq⟩ | ⟨_, heq⟩ | ⟨_, heq | heq⟩ := ha.rest
    · rwa [heq]
    · rwa [heq]
    · rwa [heq]
    · rw [heq, List.map_append]
      exact List.mem_append_left _ h
  cases move with
  | sendFile m content openStream =>
    obtain ⟨_, heq⟩ := sendFile_rest s m content openStream
    rwa [step, heq]
  | opened =>
    obtain ⟨_, _, _, heq, _⟩ := opened_rest s
    rwa [step, heq]
  | openFailed =>
    obtain ⟨_, heq⟩ := openFailed_rest s
    rwa [step, heq]
  | work dc' env =>
    obtain ⟨_, heq⟩ := work_rest s dc' env
    rwa [step, heq]
  | acceptDataChannel dc' opened =>
    obtain ⟨_, _, heq, _⟩ := acceptDataChannel_rest s dc' opened
    rwa [step, heq]
  | disconnected =>
    obtain ⟨_, heq, _⟩ := disconnected_rest s
    rwa [step, heq]
  | handleIncoming env =>
    obtain ⟨_, _, _, _, heq⟩ := handleIncoming_rest s env
    rwa [step, heq]
  | download dc' env =>
    obtain ⟨_, heq⟩ := download_rest s dc' env
    rwa [step, heq]
  | acceptFileOffer offerId steps =>
    obtain heq | ⟨dc', _, ha⟩ := acceptFileOffer_answered s.answering offerId steps
    · rwa [step, heq]
    · exact hgrows ha
  | rejectFileOffer offerId steps =>
    obtain heq | ⟨dc', _, ha⟩ := rejectFileOffer_answered s.answering offerId steps
    · rwa [step, heq]
    · exact hgrows ha

/-- A transfer that a smooth turn takes is still on its way, the sender nearer to its end by a turn of its own and,
once it is there, the receiver by one of its. -/
theorem smooth_turn {content : Bytes} {transfer : Transfer} (h : Delivering content transfer) {move : ExchangeMove}
    (hsmooth : SmoothOn dc move) (hd : dc ∈ s.answering.downloads.map Prod.snd) :
    let next := (turnOn dc s move).elim transfer transfer.step
    Delivering content next ∧ pending next ≤ pending transfer - (if move.isWork dc then 1 else 0) ∧
      (pending transfer = 0 → waiting next ≤ waiting transfer - if move.isDownload dc then 1 else 0) := by
  have hself : ∀ {w d : Bool}, w = false → d = false → Delivering content transfer ∧
      pending transfer ≤ pending transfer - (if w then 1 else 0) ∧
      (pending transfer = 0 → waiting transfer ≤ waiting transfer - if d then 1 else 0) := by
    rintro _ _ rfl rfl
    exact ⟨h, Nat.le_refl _, fun _ => Nat.le_refl _⟩
  cases move with
  | work dc' env =>
    by_cases hdc : dc' = dc
    · obtain ⟨_, n, hn⟩ := hsmooth hdc
      have hwork : (ExchangeMove.work dc' env).isWork dc = true := decide_eq_true hdc
      obtain ⟨hdelivering, hpending⟩ := delivering_sender h n
      rw [hwork, turnOn, if_pos hdc, hn]
      refine ⟨hdelivering, hpending, fun hzero => ?_⟩
      have hfinished : transfer.sender = .finished := by
        cases hs : transfer.sender <;> simp [pending, hs] at hzero ⊢
      have hstill : transfer.step (.sender ⟨true, .bytes n, true⟩) = transfer := by
        simp [Transfer.step, Transfer.sendTurn, hfinished]
      exact Nat.le_of_eq (congrArg waiting hstill)
    · have hwork : (ExchangeMove.work dc' env).isWork dc = false := decide_eq_false hdc
      rw [turnOn, if_neg hdc]
      exact hself hwork rfl
  | download dc' env =>
    by_cases hdc : dc' = dc
    · obtain ⟨_, htold⟩ := exists_told transfer
      have hdownload : (ExchangeMove.download dc' env).isDownload dc = true := decide_eq_true hdc
      obtain ⟨hdelivering, _, _, hpending, hwaiting⟩ := delivering_receiver h htold
      rw [hdownload, turnOn, if_pos ⟨hdc, hd⟩, hsmooth hdc]
      exact ⟨hdelivering, Nat.le_of_eq hpending, fun _ => hwaiting⟩
    · have hdownload : (ExchangeMove.download dc' env).isDownload dc = false := decide_eq_false hdc
      rw [turnOn, if_neg fun he => hdc he.1]
      exact hself rfl hdownload
  | _ => exact hself rfl rfl

/-- One move, on the channel or beside it. -/
theorem onItsWay_step (h : s.Inv first) (hway : s.OnItsWay dc c) {move : ExchangeMove} (hopen : s.OpensNew move)
    (hsmooth : SmoothOn dc move) :
    ∃ c', (s.step move).OnItsWay dc c' ∧ c'.content = c.content ∧
      c'.toGo ≤ c.toGo - (if move.isWork dc then 1 else 0) ∧
      (c.toGo = 0 → waiting c'.transfer ≤ waiting c.transfer - if move.isDownload dc then 1 else 0) := by
  have hd : dc ∈ (s.step move).answering.downloads.map Prod.snd := downloads_mono hway.downloading
  obtain ⟨hwait, hfresh⟩ | ⟨hw, hdelivering⟩ := hway.stage
  · have hphase := h.phase dc c hway.channel
    obtain ⟨haccept, htaken⟩ := hphase.accepted_of_download hwait (mem_downloads.mp hway.downloading)
    have hgo : c.toGo = c.content.length + 3 := if_pos hwait
    have hbusy : ¬(s.standing dc).Quiet := by
      intro hq
      rw [hq.answers] at haccept
      cases haccept
    by_cases hwork : ∃ env, move = .work dc env
    · obtain ⟨env, rfl⟩ := hwork
      have hturn : c.workerTurn (s.answersOn dc) env = { c with taken := c.taken + 1, worker := .sending } := by
        change s.answersOn dc = [.acceptFile] at haccept
        simp only [Channel.workerTurn, hwait, (hsmooth rfl).1, haccept, htaken]
        rfl
      have hnext := work_channels s dc env hway.channel
      rw [if_pos rfl, hturn] at hnext
      refine ⟨_, ⟨hnext, hd, .inr ⟨rfl, ?_⟩⟩, rfl, ?_, fun hzero => absurd hzero (by rw [hgo]; omega)⟩
      · rw [hfresh]
        exact delivering_start c.content
      · rw [hgo]
        change (if Worker.sending = .waiting then _ else pending c.transfer) ≤ _
        rw [hfresh]
        simp [pending, Transfer.start, ExchangeMove.isWork]
    · have hnotWork : move.isWork dc = false := by
        cases move with
        | work dc' env => exact decide_eq_false fun he => hwork ⟨env, by rw [he]⟩
        | _ => rfl
      have hkeeps : ∀ c', (s.step move).channels dc = some c' → c'.content = c.content → c'.worker = c.worker →
          c'.transfer = c.transfer → ∃ c', (s.step move).OnItsWay dc c' ∧ c'.content = c.content ∧
            c'.toGo ≤ c.toGo - (if move.isWork dc then 1 else 0) ∧
            (c.toGo = 0 → waiting c'.transfer ≤ waiting c.transfer - if move.isDownload dc then 1 else 0) := by
        intro c' hc' hcontent hw' htransfer
        refine ⟨c', ⟨hc', hd, .inl ⟨hw'.trans hwait, ?_⟩⟩, hcontent, ?_,
          fun hzero => absurd hzero (by rw [hgo]; omega)⟩
        · rw [htransfer, hfresh, hcontent]
        · rw [hnotWork, hgo, Channel.toGo, hw', if_pos hwait, hcontent]
          simp
      by_cases hdownload : ∃ env, move = .download dc env
      · obtain ⟨env, rfl⟩ := hdownload
        obtain rfl := hsmooth rfl
        have hnext := download_channels s dc ⟨true, .message, .done, true⟩ hway.channel
        rw [if_pos ⟨rfl, hway.downloading⟩] at hnext
        have hidle : c.transfer.recvTurn ⟨true, .message, .done, true⟩ = c.transfer := by
          rw [hfresh]
          exact (recvTurn_idle (s := .start c.content) (.inr rfl)).1
        rw [hidle] at hnext
        exact hkeeps c hnext rfl rfl rfl
      · rw [not_exists] at hwork hdownload
        obtain ⟨c', hc', hcontent, hw', htransfer⟩ :=
          aside_step h hway.channel (by simp [hwait]) hbusy hopen hwork hdownload
        exact hkeeps c' hc' hcontent hw' htransfer
  · obtain ⟨c', hc', hcontent, hw', htransfer⟩ := sending_step h hway.channel hw hopen
    obtain ⟨hnext, hpending, hwaiting⟩ := smooth_turn hdelivering hsmooth hway.downloading
    rw [← htransfer] at hnext hpending hwaiting
    have hgo : c.toGo = pending c.transfer := if_neg (by simp [hw])
    have hgo' : c'.toGo = pending c'.transfer := if_neg (by simp [hw'])
    refine ⟨c', ⟨hc', hd, .inr ⟨hw', ?_⟩⟩, hcontent, ?_, ?_⟩
    · rw [hcontent]
      exact hnext
    · rw [hgo, hgo']
      exact hpending
    · rw [hgo]
      exact hwaiting

/-- How much is to be done on the channel: by the sender, and by the receiver once the sender is at its end. -/
def workLeft (dc : DataChannel) (s : Exchange) : ℕ := ((s.channels dc).map Channel.toGo).getD 0

def downloadLeft (dc : DataChannel) (s : Exchange) : ℕ := ((s.channels dc).map fun c => waiting c.transfer).getD 0

theorem workLeft_eq (hc : s.channels dc = some c) : workLeft dc s = c.toGo := by
  rw [workLeft, hc]
  rfl

theorem downloadLeft_eq (hc : s.channels dc = some c) : downloadLeft dc s = waiting c.transfer := by
  rw [downloadLeft, hc]
  rfl

/-- With nothing left to do the download is reported, and whole. -/
theorem arrived (hway : s.OnItsWay dc c) (hwork : c.toGo = 0) (hdownload : waiting c.transfer = 0) :
    c.transfer.completed = true ∧ c.transfer.written = c.content := by
  obtain ⟨hwait, _⟩ | ⟨hw, hdelivering⟩ := hway.stage
  · rw [Channel.toGo, if_pos hwait] at hwork
    omega
  · rw [Channel.toGo, if_neg (by simp [hw])] at hwork
    have hfinished : c.transfer.sender = .finished := by
      cases hs : c.transfer.sender <;> simp [pending, hs] at hwork ⊢
    have hdone := completed_of_waiting hdelivering hfinished hdownload
    exact ⟨hdone, hdelivering.written.2 hdone⟩

theorem waiting_le_of_onItsWay (hway : s.OnItsWay dc c) : waiting c.transfer ≤ c.content.length + 1 := by
  obtain ⟨_, hfresh⟩ | ⟨_, hdelivering⟩ := hway.stage
  · rw [hfresh]
    exact Nat.zero_le _
  · exact waiting_le hdelivering

section arrival
variable {isClient : Bool} {before sends receives : List ExchangeMove} {os ps : List Unit} {t : Exchange}

/-- **An accepted file arrives.** From any state in which an offer is accepted and its download runs, and whatever
else happens on the other channels: when nothing fails on its own and both of its threads have enough turns,
the download is reported as completed and is the whole file. -/
theorem accepted_file_arrives
    (hopen : exchangeMachine.Guarded OpensNew (new isClient) (before ++ (sends ++ receives)))
    (hbefore : exchangeMachine.run (new isClient) before = some (s, os))
    (hc : s.channels dc = some c) (hd : dc ∈ s.answering.downloads.map Prod.snd) (hw : c.worker = .waiting)
    (hreceiving : c.transfer.receiving = true) (hsmooth : ∀ move ∈ sends ++ receives, SmoothOn dc move)
    (hsends : c.content.length + 3 ≤ sends.countP (ExchangeMove.isWork dc))
    (hreceives : c.content.length + 1 ≤ receives.countP (ExchangeMove.isDownload dc))
    (hrun : exchangeMachine.run s (sends ++ receives) = some (t, ps)) :
    ∃ c', t.channels dc = some c' ∧ c'.content = c.content ∧ c'.transfer.completed = true ∧
      c'.transfer.written = c.content := by
  have hfirst : (if isClient then 1 else 0) ≤ 1 := by cases isClient <;> decide
  have hnew := exchangeMachine.guarded_append hopen hbefore
  have hinv := inv_run (exchangeMachine.guarded_left hopen) hbefore
  have hway : s.OnItsWay dc c :=
    ⟨hc, hd, .inl ⟨hw, (hinv.phase dc c hc).fresh_of_download hw (mem_downloads.mp hd) hreceiving⟩⟩
  obtain ⟨u, _, _, hsent, hreceived, _⟩ := exchangeMachine.run_append_some hrun
  -- first the sender comes to its end
  obtain ⟨⟨hinv', c₁, hway₁, hcontent₁⟩, hwork⟩ := exchangeMachine.run_measure
    (G := fun s move => s.OpensNew move ∧ SmoothOn dc move)
    (fun s => s.Inv (if isClient then 1 else 0) ∧ ∃ c', s.OnItsWay dc c' ∧ c'.content = c.content) (workLeft dc)
    (ExchangeMove.isWork dc) (fun s move s' o h hturn hstep => by
      cases hstep
      obtain ⟨hinv, c', hway, hcontent⟩ := h
      obtain ⟨c₂, hway₂, hcontent₂, hle, _⟩ := onItsWay_step hinv hway hturn.1 hturn.2
      rw [workLeft_eq hway.channel, workLeft_eq hway₂.channel]
      exact ⟨⟨inv_step hfirst hinv hturn.1, c₂, hway₂, hcontent₂.trans hcontent⟩, hle⟩)
    ⟨hinv, c, hway, rfl⟩
    (exchangeMachine.guarded_and (exchangeMachine.guarded_left hnew)
      (exchangeMachine.guarded_of_forall fun move hmove _ => hsmooth move (List.mem_append_left _ hmove))) hsent
  have hgo : c₁.toGo = 0 := by
    have hstart : c.toGo = c.content.length + 3 := if_pos hw
    rw [workLeft_eq hway₁.channel, workLeft_eq hc, hstart] at hwork
    omega
  -- then the receiver takes what is on its way
  obtain ⟨⟨_, c₂, hway₂, hcontent₂, hgo₂⟩, hdownload⟩ := exchangeMachine.run_measure
    (G := fun s move => s.OpensNew move ∧ SmoothOn dc move)
    (fun s => s.Inv (if isClient then 1 else 0) ∧ ∃ c', s.OnItsWay dc c' ∧ c'.content = c.content ∧ c'.toGo = 0)
    (downloadLeft dc) (ExchangeMove.isDownload dc) (fun s move s' o h hturn hstep => by
      cases hstep
      obtain ⟨hinv, c', hway, hcontent, hgo⟩ := h
      obtain ⟨c₂, hway₂, hcontent₂, hle, hwaiting⟩ := onItsWay_step hinv hway hturn.1 hturn.2
      rw [downloadLeft_eq hway.channel, downloadLeft_eq hway₂.channel]
      exact ⟨⟨inv_step hfirst hinv hturn.1, c₂, hway₂, hcontent₂.trans hcontent, by omega⟩, hwaiting hgo⟩)
    ⟨hinv', c₁, hway₁, hcontent₁, hgo⟩
    (exchangeMachine.guarded_and (exchangeMachine.guarded_append hnew hsent)
      (exchangeMachine.guarded_of_forall fun move hmove _ => hsmooth move (List.mem_append_right _ hmove))) hreceived
  have hleft := waiting_le_of_onItsWay hway₁
  rw [downloadLeft_eq hway₁.channel, downloadLeft_eq hway₂.channel] at hdownload
  rw [hcontent₁] at hleft
  obtain ⟨hdone, hwhole⟩ := arrived hway₂ hgo₂ (by omega)
  exact ⟨c₂, hway₂.channel, hcontent₂, hdone, hwhole.trans hcontent₂⟩

/-- A file is offered and accepted. -/
def oneAccepted : List ExchangeMove :=
  [.sendFile ⟨2, "a".toList⟩ [1, 2] true, .acceptDataChannel ⟨1⟩ true, .opened,
    .work ⟨1⟩ ⟨.message, ⟨true, .bytes 512, true⟩⟩, .handleIncoming ⟨.message, true, true⟩,
    .acceptFileOffer 0 ⟨.ok (), .ok (), .ok ()⟩]

/-- Another file is offered and its sender fails, while the first one is read a byte at a time. -/
def bytewise : List ExchangeMove :=
  .sendFile ⟨3, "b".toList⟩ [3, 4, 5] true :: .openFailed ::
    List.replicate 5 (.work ⟨1⟩ ⟨.message, ⟨true, .bytes 1, true⟩⟩)

def threeMessages : List ExchangeMove := List.replicate 3 (.download ⟨1⟩ ⟨true, .message, .done, true⟩)

/-- The first file arrives all the same. -/
theorem file_arrives_bytewise : ∃ s os t ps, exchangeMachine.run (new true) oneAccepted = some (s, os) ∧
    exchangeMachine.run s (bytewise ++ threeMessages) = some (t, ps) ∧
    ∃ c, t.channels ⟨1⟩ = some c ∧ c.transfer.completed = true ∧ c.transfer.written = [1, 2] := by
  obtain ⟨s, os, hbefore⟩ : ∃ s os, exchangeMachine.run (new true) oneAccepted = some (s, os) := ⟨_, _, rfl⟩
  have hstart : ∃ c, s.channels ⟨1⟩ = some c ∧ c.content = [1, 2] ∧
      ⟨1⟩ ∈ s.answering.downloads.map Prod.snd ∧ c.worker = .waiting ∧ c.transfer.receiving = true := by
    cases hbefore
    exact ⟨_, rfl, rfl, .head _, rfl, rfl⟩
  obtain ⟨c, hc, hcontent, hd, hw, hreceiving⟩ := hstart
  obtain ⟨t, ps, hrun⟩ := exchangeMachine.exists_run (fun s move => ⟨s.step move, (), rfl⟩) s
    (bytewise ++ threeMessages)
  have hopen : exchangeMachine.Guarded OpensNew (new true) (oneAccepted ++ (bytewise ++ threeMessages)) := by
    decide +kernel
  have hsmooth : ∀ move ∈ bytewise ++ threeMessages, SmoothOn ⟨1⟩ move := by
    intro move hmove
    simp only [bytewise, threeMessages, List.mem_append, List.mem_cons, List.mem_replicate] at hmove
    obtain (rfl | rfl | ⟨_, rfl⟩) | ⟨_, rfl⟩ := hmove
    · trivial
    · trivial
    · exact fun _ => ⟨rfl, 1, rfl⟩
    · exact fun _ => rfl
  obtain ⟨c', hc', _, hdone, hwritten⟩ := accepted_file_arrives hopen hbefore hc hd hw hreceiving hsmooth
    (by rw [hcontent]; decide) (by rw [hcontent]; decide) hrun
  exact ⟨s, os, t, ps, hbefore, hrun, c', hc', hdone, hwritten.trans hcontent⟩

end arrival

end Exchange
end RoomRtc.File
