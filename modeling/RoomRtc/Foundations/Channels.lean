import Mathlib.Data.List.Basic
import Mathlib.Data.List.Induction
import Mathlib.Data.Nat.Basic

/-! First-in-first-out channels between threads. A channel keeps everything that was ever sent
into it and how much of that its receiver has taken; sending fails once the receiver is gone.
A thread that does nothing but take from one channel and send to the next (`Pipe.relay`) hands on
the answers to a prefix of what it was sent (`Pipe.Carries`), whatever happens around it. -/
namespace RoomRtc
set_option autoImplicit false

/-- An unbounded channel with one receiver. -/
structure Pipe (α : Type) where
  sent : List α := []
  taken : ℕ := 0
  /-- The receiver still exists. -/
  opened : Bool := true
deriving DecidableEq, Repr

/-- What a relaying thread does with one item. -/
inductive Answer (β : Type) where
  | skip
  | pass (y : β)
  | stop
deriving DecidableEq, Repr

def Answer.passed {β : Type} : Answer β → Option β
  | .skip => none
  | .pass y => some y
  | .stop => none

variable {α β γ : Type}

/-! ## Lists -/

/-- A prefix of what passes a filter is what passes of a prefix. -/
theorem take_filterMap (f : α → Option β) (l : List α) (n : ℕ) :
    ∃ m ≤ l.length, (l.filterMap f).take n = (l.take m).filterMap f ∧
      ((l.filterMap f).length ≤ n → m = l.length) := by
  induction l generalizing n with
  | nil => exact ⟨0, le_rfl, by simp, fun _ => rfl⟩
  | cons x l ih =>
    cases hx : f x with
    | none =>
      obtain ⟨m, hm, h, hall⟩ := ih n
      refine ⟨m + 1, Nat.succ_le_succ hm, ?_, ?_⟩
      · rw [List.filterMap_cons_none hx, List.take_succ_cons, List.filterMap_cons_none hx, h]
      · intro hle
        rw [List.filterMap_cons_none hx] at hle
        rw [hall hle, List.length_cons]
    | some y =>
      cases n with
      | zero =>
        refine ⟨0, Nat.zero_le _, by simp, ?_⟩
        intro hle
        rw [List.filterMap_cons_some hx, List.length_cons] at hle
        omega
      | succ n =>
        obtain ⟨m, hm, h, hall⟩ := ih n
        refine ⟨m + 1, Nat.succ_le_succ hm, ?_, ?_⟩
        · rw [List.filterMap_cons_some hx, List.take_succ_cons, List.take_succ_cons, List.filterMap_cons_some hx, h]
        · intro hle
          rw [List.filterMap_cons_some hx, List.length_cons] at hle
          rw [hall (by omega), List.length_cons]

/-- Looking up all positions gives the list back. -/
theorem filterMap_range_getElem? (l : List α) : (List.range l.length).filterMap (fun i => l[i]?) = l := by
  induction l using List.reverseRecOn with
  | nil => rfl
  | append_singleton l x ih =>
    have hinit : (List.range l.length).filterMap (fun i => (l ++ [x])[i]?) = l := by
      refine Eq.trans (List.filterMap_congr fun i hi => ?_) ih
      exact List.getElem?_append_left (List.mem_range.mp hi)
    rw [List.length_append, List.length_singleton, List.range_succ, List.filterMap_append, hinit]
    simp

namespace Pipe

/-- `Sender::send`; nothing when the receiver is gone. -/
def send (a : Pipe α) (x : α) : Option (Pipe α) :=
  if a.opened then some { a with sent := a.sent ++ [x] } else none

/-- The item `recv` gives next, if one is there. -/
def next (a : Pipe α) : Option α := a.sent[a.taken]?

def take (a : Pipe α) : Pipe α := { a with taken := a.taken + 1 }

/-- The receiver is dropped. -/
def close (a : Pipe α) : Pipe α := { a with opened := false }

/-- The receiver lives and has taken all there is. -/
def Drained (a : Pipe α) : Prop := a.opened = true ∧ a.sent.length ≤ a.taken

instance (a : Pipe α) : Decidable a.Drained := inferInstanceAs (Decidable (_ ∧ _))

@[simp] theorem take_sent (a : Pipe α) : a.take.sent = a.sent := rfl
@[simp] theorem close_sent (a : Pipe α) : a.close.sent = a.sent := rfl

theorem send_eq_some {a a' : Pipe α} {x : α} :
    a.send x = some a' ↔ a.opened = true ∧ a' = { a with sent := a.sent ++ [x] } := by
  unfold send
  split
  · next h => simp [h, eq_comm]
  · next h => simp [h]

theorem send_opened {a a' : Pipe α} {x : α} (h : a.send x = some a') : a'.opened = a.opened := by
  obtain ⟨_, rfl⟩ := send_eq_some.mp h
  rfl

theorem send_sent {a a' : Pipe α} {x : α} (h : a.send x = some a') : a'.sent = a.sent ++ [x] := by
  obtain ⟨_, rfl⟩ := send_eq_some.mp h
  rfl

/-! ## Relaying -/

/-- One turn of a thread that takes from `a` and sends to `b`: it waits while `a` is empty and
somebody can still send into it, and it ends when nobody can, when it stops at an item, or when
the receiver of `b` is gone. -/
def relay (f : α → Answer β) (senders : Bool) (a : Pipe α) (b : Pipe β) : Pipe α × Pipe β :=
  if a.opened then
    match a.next with
    | none => if senders then (a, b) else (a.close, b)
    | some x =>
      match f x with
      | .skip => (a.take, b)
      | .stop => (a.take.close, b)
      | .pass y =>
        match b.send y with
        | none => (a.take.close, b)
        | some b' => (a.take, b')
  else (a, b)

/-- All that a turn of a relaying thread can do. -/
theorem relay_cases (f : α → Answer β) (senders : Bool) (a : Pipe α) (b : Pipe β) :
    relay f senders a b = (a, b) ∨ relay f senders a b = (a.close, b) ∨
      ∃ x, a.opened = true ∧ a.next = some x ∧
        ((f x = .skip ∧ relay f senders a b = (a.take, b)) ∨ relay f senders a b = (a.take.close, b) ∨
          ∃ y b', f x = .pass y ∧ b.send y = some b' ∧ relay f senders a b = (a.take, b')) := by
  unfold relay
  split
  · next ho =>
    split
    · split
      · exact .inl rfl
      · exact .inr (.inl rfl)
    · next x hx =>
      refine .inr (.inr ⟨x, ho, hx, ?_⟩)
      split
      · next hf => exact .inl ⟨hf, rfl⟩
      · exact .inr (.inl rfl)
      · next y hf =>
        split
        · exact .inr (.inl rfl)
        · next b' hb => exact .inr (.inr ⟨y, b', hf, hb, rfl⟩)
  · exact .inl rfl

@[simp] theorem relay_sent (f : α → Answer β) (senders : Bool) (a : Pipe α) (b : Pipe β) :
    (relay f senders a b).1.sent = a.sent := by
  obtain hr | hr | ⟨x, _, _, ⟨_, hr⟩ | hr | ⟨y, b', _, _, hr⟩⟩ :=
    relay_cases f senders a b <;> rw [hr] <;> rfl

/-- The receiver behind the next channel lives on. -/
@[simp] theorem relay_opened (f : α → Answer β) (senders : Bool) (a : Pipe α) (b : Pipe β) :
    (relay f senders a b).2.opened = b.opened := by
  obtain hr | hr | ⟨x, _, _, ⟨_, hr⟩ | hr | ⟨y, b', _, hb, hr⟩⟩ := relay_cases f senders a b
  · rw [hr]
  · rw [hr]
  · rw [hr]
  · rw [hr]
  · rw [hr]
    exact send_opened hb

/-- The outcome `out` of a thread that answers the items of `a` with `f`: it is what passes of
some first items, none of which stops the thread, and of all items taken while it lives. -/
def Carries (f : α → Answer β) (a : Pipe α) (out : List β) : Prop :=
  ∃ n ≤ a.taken, a.taken ≤ a.sent.length ∧ (a.opened = true → n = a.taken) ∧
    (∀ x ∈ a.sent.take n, f x ≠ .stop) ∧ out = (a.sent.take n).filterMap fun x => (f x).passed

namespace Carries
variable {f : α → Answer β} {a a' : Pipe α} {out : List β}

theorem new : Carries f ({} : Pipe α) [] := ⟨0, le_rfl, le_rfl, fun _ => rfl, by simp, rfl⟩

theorem send {x : α} (h : Carries f a out) (hs : a.send x = some a') : Carries f a' out := by
  obtain ⟨n, hn, ht, ho, hstop, hout⟩ := h
  obtain ⟨_, rfl⟩ := send_eq_some.mp hs
  have hfront : (a.sent ++ [x]).take n = a.sent.take n := List.take_append_of_le_length (by omega)
  refine ⟨n, hn, ?_, ho, ?_, ?_⟩
  · rw [List.length_append]
    exact Nat.le_trans ht (Nat.le_add_right _ _)
  · rw [hfront]
    exact hstop
  · rw [hfront]
    exact hout

theorem close (h : Carries f a out) : Carries f a.close out := by
  obtain ⟨n, hn, ht, _, hstop, hout⟩ := h
  exact ⟨n, hn, ht, fun ho => (Bool.false_ne_true ho).elim, hstop, hout⟩

/-- The thread takes an item and ends without an answer to it. -/
theorem drop {x : α} (h : Carries f a out) (hx : a.next = some x) : Carries f a.take.close out := by
  obtain ⟨n, hn, _, _, hstop, hout⟩ := h
  obtain ⟨hlt, _⟩ := List.getElem?_eq_some_iff.mp hx
  exact ⟨n, Nat.le_trans hn (Nat.le_succ _), hlt, fun ho => (Bool.false_ne_true ho).elim, hstop, hout⟩

/-- The thread takes an item and answers it. -/
theorem answer {x : α} (h : Carries f a out) (ho : a.opened = true) (hx : a.next = some x) (hf : f x ≠ .stop) :
    Carries f a.take (out ++ (f x).passed.toList) := by
  obtain ⟨n, hn, _, hall, hstop, rfl⟩ := h
  have hna := hall ho
  subst hna
  obtain ⟨hlt, hget⟩ := List.getElem?_eq_some_iff.mp hx
  have hsucc : a.sent.take (a.taken + 1) = a.sent.take a.taken ++ [x] := by
    rw [List.take_succ_eq_append_getElem hlt, hget]
  refine ⟨a.taken + 1, le_rfl, hlt, fun _ => rfl, ?_, ?_⟩
  · rw [take_sent, hsucc]
    intro y hy
    rcases List.mem_append.mp hy with hy | hy
    · exact hstop y hy
    · rw [List.mem_singleton.mp hy]
      exact hf
  · rw [take_sent, hsucc, List.filterMap_append]
    cases (f x).passed.eq_none_or_eq_some with
    | inl hnone => simp [hnone]
    | inr hsome =>
      obtain ⟨y, hy⟩ := hsome
      simp [hy]

theorem skip {x : α} (h : Carries f a out) (ho : a.opened = true) (hx : a.next = some x) (hf : f x = .skip) :
    Carries f a.take out := by
  have := h.answer ho hx (by simp [hf])
  rwa [hf, Answer.passed, Option.toList_none, List.append_nil] at this

theorem pass {x : α} {y : β} (h : Carries f a out) (ho : a.opened = true) (hx : a.next = some x)
    (hf : f x = .pass y) : Carries f a.take (out ++ [y]) := by
  have := h.answer ho hx (by simp [hf])
  rwa [hf] at this

/-- **One turn** of a relaying thread. -/
theorem relay {b : Pipe β} (h : Carries f a b.sent) (senders : Bool) :
    Carries f (Pipe.relay f senders a b).1 (Pipe.relay f senders a b).2.sent := by
  obtain hr | hr | ⟨x, ho, hx, ⟨hf, hr⟩ | hr | ⟨y, b', hf, hb, hr⟩⟩ := relay_cases f senders a b
  · rw [hr]
    exact h
  · rw [hr]
    exact h.close
  · rw [hr]
    exact h.skip ho hx hf
  · rw [hr]
    exact h.drop hx
  · rw [hr, send_sent hb]
    exact h.pass ho hx hf

/-- The thread behind the next channel is not disturbed. -/
theorem relay_next {g : β → Answer γ} {b : Pipe β} {out : List γ} (h : Carries g b out) (f : α → Answer β)
    (senders : Bool) (a : Pipe α) : Carries g (Pipe.relay f senders a b).2 out := by
  obtain hr | hr | ⟨x, _, _, ⟨_, hr⟩ | hr | ⟨y, b', _, hb, hr⟩⟩ := relay_cases f senders a b
  · rw [hr]
    exact h
  · rw [hr]
    exact h
  · rw [hr]
    exact h
  · rw [hr]
    exact h
  · rw [hr]
    exact h.send hb

/-- A thread that skips nothing has one answer for each item. -/
theorem map_of_no_skip (h : Carries f a out) (hf : ∀ x, f x ≠ .skip) :
    out.length ≤ a.sent.length ∧ out.map .pass = (a.sent.take out.length).map f ∧
      (a.Drained → out.length = a.sent.length) := by
  obtain ⟨n, hn, ht, hall, hstop, rfl⟩ := h
  have key : ∀ l : List α, (∀ x ∈ l, f x ≠ .stop) →
      (l.filterMap fun x => (f x).passed).map Answer.pass = l.map f := by
    intro l hl
    induction l with
    | nil => rfl
    | cons x l ih =>
      have hrec := ih fun z hz => hl z (List.mem_cons_of_mem x hz)
      cases hfx : f x with
      | skip => exact absurd hfx (hf x)
      | stop => exact absurd hfx (hl x (List.mem_cons_self ..))
      | pass y =>
        have hp : (f x).passed = some y := by rw [hfx, Answer.passed]
        rw [List.filterMap_cons_some (f := fun x => (f x).passed) hp, List.map_cons, List.map_cons, hfx, hrec]
  have hmap := key (a.sent.take n) hstop
  have hlen : ((a.sent.take n).filterMap fun x => (f x).passed).length = n := by
    have := congrArg List.length hmap
    rw [List.length_map, List.length_map, List.length_take] at this
    omega
  rw [hlen]
  refine ⟨by omega, hmap, ?_⟩
  rintro ⟨ho, hd⟩
  have := hall ho
  omega

/-- A thread that passes everything on has passed it on once it is through. -/
theorem of_drained {out : List α} (h : Carries Answer.pass a out) (hd : a.Drained) : out = a.sent := by
  obtain ⟨n, _, _, hall, _, rfl⟩ := h
  have hn := hall hd.1
  have hle := hd.2
  simp only [Answer.passed, List.filterMap_some]
  exact List.take_of_length_le (by omega)

/-- **Two threads in a row**: what comes out of the second is what passes both of a prefix of what
went into the first, and of everything when both are through. -/
theorem comp {g : β → Answer γ} {b : Pipe β} {out : List γ} (h : Carries f a b.sent) (h' : Carries g b out) :
    ∃ n ≤ a.sent.length, out = (a.sent.take n).filterMap (fun x => (f x).passed.bind fun y => (g y).passed) ∧
      (a.Drained → b.Drained → n = a.sent.length) := by
  obtain ⟨n, hn, ht, hall, _, hmid⟩ := h
  obtain ⟨m, hm, ht', hall', _, rfl⟩ := h'
  obtain ⟨k, hk, htake, hfull⟩ := take_filterMap (fun x => (f x).passed) (a.sent.take n) m
  rw [List.length_take] at hk hfull
  refine ⟨k, by omega, ?_, ?_⟩
  · rw [hmid, htake, List.take_take, Nat.min_eq_left (by omega), List.filterMap_filterMap]
  · rintro ⟨ho, hd⟩ ⟨ho', hd'⟩
    have hna := hall ho
    have hmb := hall' ho'
    have := hfull (by rw [← hmid]; omega)
    omega

end Carries
end Pipe

/-! ## Two senders -/

/-- `zs` is what two senders have put into one channel, `xs` by the first and `ys` by the second. -/
inductive Merge : List α → List α → List α → Prop where
  | nil : Merge [] [] []
  | left {xs ys zs : List α} (x : α) : Merge xs ys zs → Merge (xs ++ [x]) ys (zs ++ [x])
  | right {xs ys zs : List α} (y : α) : Merge xs ys zs → Merge xs (ys ++ [y]) (zs ++ [y])

namespace Merge
variable {xs ys zs : List α}

theorem length (h : Merge xs ys zs) : zs.length = xs.length + ys.length := by
  induction h with
  | nil => rfl
  | left x _ ih =>
    rw [List.length_append, List.length_append, ih, Nat.add_right_comm]
  | right y _ ih =>
    rw [List.length_append, List.length_append, ih, Nat.add_assoc]

theorem mem (h : Merge xs ys zs) {z : α} : z ∈ zs ↔ z ∈ xs ∨ z ∈ ys := by
  induction h with
  | nil => simp
  | left x _ ih =>
    simp only [List.mem_append, ih]
    exact or_right_comm
  | right y _ ih =>
    simp only [List.mem_append, ih]
    exact or_assoc

/-- What tells the senders apart gives their shares back. -/
theorem filter (h : Merge xs ys zs) {p : α → Bool} (hx : ∀ x ∈ xs, p x = true) (hy : ∀ y ∈ ys, p y = false) :
    zs.filter p = xs ∧ zs.filter (fun z => !p z) = ys := by
  induction h with
  | nil => exact ⟨rfl, rfl⟩
  | left x _ ih =>
    obtain ⟨hl, hr⟩ := ih (fun z hz => hx z (List.mem_append_left _ hz)) hy
    have := hx x (by simp)
    simp [hl, hr, this]
  | right y _ ih =>
    obtain ⟨hl, hr⟩ := ih hx fun z hz => hy z (List.mem_append_left _ hz)
    have := hy y (by simp)
    simp [hl, hr, this]

/-- A relation between any two items: within the shares and across. -/
theorem pairwise_iff (h : Merge xs ys zs) {R : α → α → Prop} (hsymm : ∀ x y, R x y → R y x) :
    zs.Pairwise R ↔ xs.Pairwise R ∧ ys.Pairwise R ∧ ∀ x ∈ xs, ∀ y ∈ ys, R x y := by
  induction h with
  | nil => simp
  | left x h ih =>
    simp only [List.pairwise_append, ih, List.pairwise_singleton, h.mem, List.mem_append, List.mem_singleton,
      forall_eq, true_and]
    constructor
    · rintro ⟨⟨hxs, hys, hcross⟩, hx⟩
      refine ⟨⟨hxs, fun z hz => hx z (.inl hz)⟩, hys, ?_⟩
      rintro z (hz | rfl) y hy
      · exact hcross z hz y hy
      · exact hsymm _ _ (hx y (.inr hy))
    · rintro ⟨⟨hxs, hx⟩, hys, hcross⟩
      refine ⟨⟨hxs, hys, fun z hz => hcross z (.inl hz)⟩, ?_⟩
      rintro z (hz | hz)
      · exact hx z hz
      · exact hsymm _ _ (hcross x (.inr rfl) z hz)
  | right y h ih =>
    simp only [List.pairwise_append, ih, List.pairwise_singleton, h.mem, List.mem_append, List.mem_singleton,
      forall_eq, true_and]
    constructor
    · rintro ⟨⟨hxs, hys, hcross⟩, hy⟩
      refine ⟨hxs, ⟨hys, fun z hz => hy z (.inr hz)⟩, ?_⟩
      rintro x hx z (hz | rfl)
      · exact hcross x hx z hz
      · exact hy x (.inl hx)
    · rintro ⟨hxs, ⟨hys, hy⟩, hcross⟩
      refine ⟨⟨hxs, hys, fun x hx z hz => hcross x hx z (.inl hz)⟩, ?_⟩
      rintro z (hz | hz)
      · exact hcross z hz y (.inr rfl)
      · exact hy z hz

end Merge
end RoomRtc
