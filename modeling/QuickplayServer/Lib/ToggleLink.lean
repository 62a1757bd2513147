import Mathlib

/-!
# QuickplayServer.Lib.ToggleLink

Reliable slots over a lossy link, with one toggle bit for each slot.

A sender fills free slots and puts them into numbered frames.  A receiver
takes a frame only if its number is higher than all it has seen; if it keeps
the slot it toggles its bit.  Its acknowledgements carry its bits and the
highest number it has seen, and are numbered themselves; the sender only looks
at an acknowledgement with a new highest number.  The network may lose, delay,
reorder and duplicate frames and acknowledgements, so both are only ever
added.

The bit of the sender toggles with every filling, so the bits agree when the
receiver has kept the filling.  `ToggleLink.Inv` says why one bit is enough
and holds after any steps (`Steps.inv`); `Inv.freed` and `Inv.resent` are what
a sender learns from an acknowledgement.
-/

variable {ι : Type} [DecidableEq ι]

/-- A slot of the sender. -/
inductive Slot where
  | free
  /-- It waits to be sent. -/
  | ready
  /-- It was last sent when the next number was `seq`. -/
  | sent (seq : Nat)
  deriving DecidableEq, Repr

/-- A numbered frame, with the slot in it and the number of its filling. -/
structure Frame (ι : Type) where
  seq : Nat
  body : Option (ι × Nat)

/-- A numbered acknowledgement. -/
structure Ack (ι : Type) where
  seq : Nat
  seen : Nat
  bit : ι → Bool

@[ext] structure ToggleLink (ι : Type) where
  /-- The next number of the sender. -/
  next : Nat
  bit : ι → Bool
  slot : ι → Slot
  /-- How often each slot was filled. -/
  filling : ι → Nat
  /-- The highest acknowledgement that the sender has looked at. -/
  ackSeen : Nat
  /-- The highest number that the receiver has seen. -/
  seen : Nat
  /-- The bits of the receiver. -/
  rbit : ι → Bool
  /-- The fillings that the receiver has kept. -/
  kept : List (ι × Nat)
  frames : List (Frame ι)
  acks : List (Ack ι)

namespace ToggleLink

/-! ## Operations -/

/-- A link that nothing was sent over. -/
def new (ι : Type) : ToggleLink ι where
  next := 1
  bit _ := false
  slot _ := .free
  filling _ := 0
  ackSeen := 0
  seen := 0
  rbit _ := false
  kept := []
  frames := []
  acks := []

/-- The sender fills slot `i`. -/
def fill (l : ToggleLink ι) (i : ι) : ToggleLink ι :=
  { l with
    bit := Function.update l.bit i (!l.bit i)
    slot := Function.update l.slot i .ready
    filling := Function.update l.filling i (l.filling i + 1) }

/-- The sender marks slot `i` as sent, without a frame that carries it. -/
def mark (l : ToggleLink ι) (i : ι) : ToggleLink ι :=
  { l with slot := Function.update l.slot i (.sent l.next) }

omit [DecidableEq ι] in
/-- The sender emits a frame. -/
def emit (l : ToggleLink ι) (body : Option (ι × Nat)) : ToggleLink ι :=
  { l with frames := l.frames ++ [⟨l.next, body⟩], next := l.next + 1 }

/-- The receiver sees a frame and passes over what is in it. -/
def skip (l : ToggleLink ι) (seq : Nat) : ToggleLink ι := { l with seen := seq }

/-- The receiver sees a frame and keeps slot `i`. -/
def keep (l : ToggleLink ι) (seq : Nat) (i : ι) (n : Nat) : ToggleLink ι :=
  { l with seen := seq, rbit := Function.update l.rbit i (!l.rbit i), kept := l.kept ++ [(i, n)] }

/-- The receiver emits an acknowledgement. -/
def acknowledge (l : ToggleLink ι) (seq : Nat) : ToggleLink ι :=
  { l with acks := l.acks ++ [⟨seq, l.seen, l.rbit⟩] }

/-- What an acknowledgement makes of a slot. -/
def settled (l : ToggleLink ι) (a : Ack ι) (i : ι) : Slot :=
  match l.slot i with
  | .sent s => if a.bit i = l.bit i then .free else if s ≤ a.seen then .ready else .sent s
  | slot => slot

/-- The sender looks at an acknowledgement. -/
def settle (l : ToggleLink ι) (a : Ack ι) : ToggleLink ι :=
  { l with slot := l.settled a, ackSeen := a.seq }

/-! ## The invariant -/

/-- The receiver has kept the current filling of slot `i`. -/
def Kept (l : ToggleLink ι) (i : ι) : Prop := l.rbit i = l.bit i

instance (l : ToggleLink ι) (i : ι) : Decidable (l.Kept i) :=
  inferInstanceAs (Decidable (_ = _))

/-- The sender has not looked at the acknowledgement. -/
def Fresh (l : ToggleLink ι) (a : Ack ι) : Prop := a ∈ l.acks ∧ l.ackSeen < a.seq

/-- What holds of one slot. -/
structure SlotInv (l : ToggleLink ι) (i : ι) : Prop where
  fillings : ∀ f ∈ l.frames, ∀ n, f.body = some (i, n) → n ≤ l.filling i
  /-- A frame that the receiver may still see carries the current filling, was
  the last to carry it, and the receiver does not have it. -/
  frames : ∀ f ∈ l.frames, l.seen < f.seq → ∀ n, f.body = some (i, n) →
    l.slot i = .sent f.seq ∧ n = l.filling i ∧ ¬ l.Kept i
  free : l.slot i = .free → l.Kept i ∧ ∀ a, l.Fresh a → a.bit i = l.bit i
  ready : l.slot i = .ready → ¬ l.Kept i
  sent : ∀ s, l.slot i = .sent s → s ≤ l.next ∧ (l.Kept i → s ≤ l.seen)
  filled : l.slot i ≠ .free → 0 < l.filling i
  /-- Acknowledgements of the current filling say so from then on. -/
  agree : l.slot i ≠ .free → ∀ a, l.Fresh a → a.bit i = l.bit i →
    l.Kept i ∧ ∀ b, l.Fresh b → a.seq ≤ b.seq → b.bit i = l.bit i
  agree_sent : ∀ s, l.slot i = .sent s → ∀ a, l.Fresh a → a.bit i = l.bit i → s ≤ a.seen
  /-- One that is late enough and does not acknowledge it never will. -/
  differ : ∀ s, l.slot i = .sent s → ∀ a, l.Fresh a → a.bit i ≠ l.bit i → s ≤ a.seen → ¬ l.Kept i
  kept : ∀ n, l.kept.count (i, n) =
    if 0 < n ∧ (n < l.filling i ∨ (n = l.filling i ∧ l.Kept i)) then 1 else 0

structure Inv (l : ToggleLink ι) : Prop where
  seen_lt : l.seen < l.next
  frames_lt : ∀ f ∈ l.frames, f.seq < l.next
  acks_seen : ∀ a ∈ l.acks, a.seen ≤ l.seen
  slots : ∀ i, l.SlotInv i

/-- In a new link no slot was filled and nothing was sent. -/
theorem Inv.new : Inv (ToggleLink.new ι) where
  seen_lt := Nat.zero_lt_one
  frames_lt := by simp [ToggleLink.new]
  acks_seen := by simp [ToggleLink.new]
  slots i := by
    constructor <;> simp [ToggleLink.new, Kept, Fresh]
    omega

variable {l : ToggleLink ι} {i j : ι}

/-- Filling a free slot toggles its bit, so the bits of the two sides differ until
the receiver keeps the new filling. -/
theorem SlotInv.fill_self (h : l.SlotInv i) (hfree : l.slot i = .free) : (l.fill i).SlotInv i where
  fillings f hf n hn := by
    have := h.fillings f hf n hn
    simp [fill]
    omega
  frames f hf hseen n hn := by
    have := (h.frames f hf hseen n hn).1
    simp [hfree] at this
  free := by simp [fill]
  ready _ := by
    have := (h.free hfree).1
    simpa [fill, Kept] using this
  sent := by simp [fill]
  filled := by simp [fill]
  agree _ a ha hbit := by
    have := (h.free hfree).2 a ha
    simp [fill, this] at hbit
  agree_sent := by simp [fill]
  differ := by simp [fill]
  kept n := by
    have hkept := h.kept n
    have := (h.free hfree).1
    simp only [Kept] at this hkept
    simp only [fill, Kept, Function.update_self, this] at hkept ⊢
    simp only [Bool.eq_not_self, and_false, or_false, hkept]
    congr 1
    simp
    omega

/-- A slot that nothing happens to. -/
theorem SlotInv.congr {l' : ToggleLink ι} (h : l.SlotInv i) (hbit : l'.bit i = l.bit i)
    (hslot : l'.slot i = l.slot i) (hfilling : l'.filling i = l.filling i)
    (hrbit : l'.rbit i = l.rbit i) (hkept : ∀ n, l'.kept.count (i, n) = l.kept.count (i, n))
    (hseen : l.seen ≤ l'.seen) (hnext : l.next ≤ l'.next)
    (hframes : ∀ f ∈ l'.frames, ∀ n, f.body = some (i, n) → f ∈ l.frames)
    (hfresh : ∀ a, l'.Fresh a → l.Fresh a) : l'.SlotInv i := by
  have hkeeps : l'.Kept i ↔ l.Kept i := by rw [Kept, Kept, hbit, hrbit]
  constructor <;> simp only [hkeeps, hbit, hslot, hfilling, hkept]
  case fillings => exact fun f hf n hn => h.fillings f (hframes f hf n hn) n hn
  case frames => exact fun f hf hlt n hn => h.frames f (hframes f hf n hn) (by omega) n hn
  case free => exact fun hfree => ⟨(h.free hfree).1, fun a ha => (h.free hfree).2 a (hfresh a ha)⟩
  case ready => exact h.ready
  case sent =>
    intro s hs
    obtain ⟨hle, hk⟩ := h.sent s hs
    exact ⟨by omega, fun hkept => by have := hk hkept; omega⟩
  case filled => exact h.filled
  case agree =>
    intro hbusy a ha hagree
    obtain ⟨hk, hlater⟩ := h.agree hbusy a (hfresh a ha) hagree
    exact ⟨hk, fun b hb => hlater b (hfresh b hb)⟩
  case agree_sent => exact fun s hs a ha => h.agree_sent s hs a (hfresh a ha)
  case differ => exact fun s hs a ha => h.differ s hs a (hfresh a ha)
  case kept => exact h.kept

/-- Filling a free slot. -/
theorem Inv.fill (h : l.Inv) (hfree : l.slot i = .free) : (l.fill i).Inv where
  seen_lt := h.seen_lt
  frames_lt := h.frames_lt
  acks_seen := h.acks_seen
  slots j := by
    by_cases hj : j = i
    · subst hj
      exact (h.slots j).fill_self hfree
    · exact (h.slots j).congr (by simp [ToggleLink.fill, hj]) (by simp [ToggleLink.fill, hj])
        (by simp [ToggleLink.fill, hj]) rfl (fun _ => rfl) (Nat.le_refl _) (Nat.le_refl _)
        (fun _ hf _ _ => hf) fun _ ha => ha

/-- A slot that is marked is sent with the next number, above all that the receiver
has seen. -/
theorem SlotInv.mark_self (h : l.SlotInv i) (hready : l.slot i = .ready) :
    (l.mark i).SlotInv i := by
  have hkept := h.ready hready
  have hstale : ∀ f ∈ l.frames, ∀ n, f.body = some (i, n) → ¬ l.seen < f.seq := by
    intro f hf n hn hlt
    have := (h.frames f hf hlt n hn).1
    simp [hready] at this
  have hdiffer : ∀ a, l.Fresh a → a.bit i ≠ l.bit i := fun a ha hbit =>
    hkept (h.agree (by simp [hready]) a ha hbit).1
  constructor
  case fillings => exact h.fillings
  case frames => exact fun f hf hlt n hn => absurd hlt (hstale f hf n hn)
  case free => simp [mark]
  case ready => simp [mark]
  case sent =>
    intro s hs
    obtain rfl : l.next = s := by simpa [mark] using hs
    exact ⟨Nat.le_refl _, fun hk => absurd hk hkept⟩
  case filled => exact fun _ => h.filled (by simp [hready])
  case agree => exact fun _ a ha hbit => absurd hbit (hdiffer a ha)
  case agree_sent => exact fun _ _ a ha hbit => absurd hbit (hdiffer a ha)
  case differ => exact fun _ _ _ _ _ _ => hkept
  case kept => exact h.kept

/-- Marking a slot that waits to be sent. -/
theorem Inv.mark (h : l.Inv) (hready : l.slot i = .ready) : (l.mark i).Inv where
  seen_lt := h.seen_lt
  frames_lt := h.frames_lt
  acks_seen := h.acks_seen
  slots j := by
    by_cases hj : j = i
    · subst hj
      exact (h.slots j).mark_self hready
    · exact (h.slots j).congr rfl (by simp [ToggleLink.mark, hj]) rfl rfl (fun _ => rfl)
        (Nat.le_refl _) (Nat.le_refl _) (fun _ hf _ _ => hf) fun _ ha => ha

/-- Emitting a frame without a slot, or with a slot that was just marked. -/
theorem Inv.emit (h : l.Inv) {body : Option (ι × Nat)}
    (hbody : ∀ i n, body = some (i, n) → l.slot i = .sent l.next ∧ n = l.filling i) :
    (l.emit body).Inv where
  seen_lt := Nat.lt_succ_of_lt h.seen_lt
  frames_lt f hf := by
    obtain hf | rfl := by simpa [ToggleLink.emit] using hf
    · exact Nat.lt_succ_of_lt (h.frames_lt f hf)
    · exact Nat.lt_succ_self _
  acks_seen := h.acks_seen
  slots j := by
    have hj := h.slots j
    constructor
    case fillings =>
      intro f hf n hn
      obtain hf | rfl := by simpa [ToggleLink.emit] using hf
      · exact hj.fillings f hf n hn
      · exact (hbody j n hn).2.le
    case frames =>
      intro f hf hlt n hn
      obtain hf | rfl := by simpa [ToggleLink.emit] using hf
      · exact hj.frames f hf hlt n hn
      · obtain ⟨hslot, hfilling⟩ := hbody j n hn
        refine ⟨hslot, hfilling, fun hkept => ?_⟩
        have := (hj.sent l.next hslot).2 hkept
        have := h.seen_lt
        omega
    case sent =>
      intro s hs
      obtain ⟨hle, hk⟩ := hj.sent s hs
      exact ⟨Nat.le_succ_of_le hle, hk⟩
    exacts [hj.free, hj.ready, hj.filled, hj.agree, hj.agree_sent, hj.differ, hj.kept]

/-- Passing over a frame. -/
theorem Inv.skip (h : l.Inv) {f : Frame ι} (hf : f ∈ l.frames) (hlt : l.seen < f.seq) :
    (l.skip f.seq).Inv where
  seen_lt := h.frames_lt f hf
  frames_lt := h.frames_lt
  acks_seen a ha := (h.acks_seen a ha).trans hlt.le
  slots j := (h.slots j).congr rfl rfl rfl rfl (fun _ => rfl) hlt.le (Nat.le_refl _)
    (fun _ hf _ _ => hf) fun _ ha => ha

/-- Keeping the current filling of a slot makes the bits agree, and happens only
once for a filling. -/
theorem SlotInv.keep_self (h : l.SlotInv i) (hacks : ∀ a ∈ l.acks, a.seen ≤ l.seen) {f : Frame ι}
    (hf : f ∈ l.frames) (hlt : l.seen < f.seq) {n : Nat} (hn : f.body = some (i, n)) :
    (l.keep f.seq i n).SlotInv i := by
  obtain ⟨hslot, rfl, hkept⟩ := h.frames f hf hlt n hn
  have hnow : (l.keep f.seq i (l.filling i)).Kept i := by
    have hne : l.rbit i ≠ l.bit i := hkept
    simpa [Kept, keep, Bool.eq_not] using hne
  have hdiffer : ∀ a, l.Fresh a → a.bit i ≠ l.bit i := fun a ha hbit =>
    hkept (h.agree (by simp [hslot]) a ha hbit).1
  constructor
  case fillings => exact h.fillings
  case frames =>
    intro g hg hg' m hm
    have hlater : f.seq < g.seq := hg'
    obtain ⟨hslot', -⟩ := h.frames g hg (by omega) m hm
    obtain heq : f.seq = g.seq := by simpa [hslot] using hslot'
    omega
  case free => exact fun hfree => absurd (hslot.symm.trans hfree) (by simp)
  case ready => exact fun hready => absurd (hslot.symm.trans hready) (by simp)
  case sent =>
    intro s hs
    obtain rfl : f.seq = s := by simpa using hslot.symm.trans hs
    exact ⟨(h.sent f.seq hslot).1, fun _ => Nat.le_refl _⟩
  case filled => exact h.filled
  case agree => exact fun _ a ha hbit => absurd hbit (hdiffer a ha)
  case agree_sent => exact fun _ _ a ha hbit => absurd hbit (hdiffer a ha)
  case differ =>
    intro s hs a ha _ hle
    obtain rfl : f.seq = s := by simpa using hslot.symm.trans hs
    have := hacks a ha.1
    omega
  case kept =>
    intro m
    have hcount := h.kept m
    have hpos := h.filled (by simp [hslot])
    have hlast : (l.keep f.seq i (l.filling i)).kept.count (i, m) =
        l.kept.count (i, m) + if l.filling i = m then 1 else 0 := by
      simp [keep, List.count_append, List.count_singleton]
    have hfilling : (l.keep f.seq i (l.filling i)).filling i = l.filling i := rfl
    rw [hlast, hcount, hfilling]
    rcases Nat.lt_trichotomy m (l.filling i) with hm | rfl | hm
    · simp [hm, hm.ne']
    · simp [hpos, hkept, hnow]
    · have hne : ¬ (m < l.filling i ∨ m = l.filling i ∧ l.Kept i) := by omega
      have hne' :
          ¬ (m < l.filling i ∨ m = l.filling i ∧ (l.keep f.seq i (l.filling i)).Kept i) := by
        omega
      simp [hne, hne', hm.ne]

/-- Keeping the slot of a frame. -/
theorem Inv.keep (h : l.Inv) {f : Frame ι} (hf : f ∈ l.frames) (hlt : l.seen < f.seq) {n : Nat}
    (hn : f.body = some (i, n)) : (l.keep f.seq i n).Inv where
  seen_lt := h.frames_lt f hf
  frames_lt := h.frames_lt
  acks_seen a ha := (h.acks_seen a ha).trans hlt.le
  slots j := by
    by_cases hj : j = i
    · subst hj
      exact (h.slots j).keep_self h.acks_seen hf hlt hn
    · refine (h.slots j).congr rfl rfl rfl (by simp [ToggleLink.keep, hj]) (fun m => ?_) hlt.le
        (Nat.le_refl _) (fun _ hf _ _ => hf) fun _ ha => ha
      simp [ToggleLink.keep, List.count_append, Ne.symm hj]

omit [DecidableEq ι] in
/-- The acknowledgements in flight that count are those from before and the new one. -/
theorem fresh_acknowledge {seq : Nat} {a : Ack ι} :
    (l.acknowledge seq).Fresh a ↔
      l.Fresh a ∨ (a = ⟨seq, l.seen, l.rbit⟩ ∧ l.ackSeen < a.seq) := by
  simp only [Fresh, acknowledge, List.mem_append, List.mem_singleton]
  tauto

/-- Emitting an acknowledgement. -/
theorem Inv.acknowledge (h : l.Inv) {seq : Nat} (hseq : ∀ a ∈ l.acks, a.seq < seq) :
    (l.acknowledge seq).Inv where
  seen_lt := h.seen_lt
  frames_lt := h.frames_lt
  acks_seen a ha := by
    obtain ha | rfl := by simpa [ToggleLink.acknowledge] using ha
    · exact h.acks_seen a ha
    · exact Nat.le_refl _
  slots i := by
    have hi := h.slots i
    constructor
    case free =>
      intro hfree
      obtain ⟨hkept, hall⟩ := hi.free hfree
      refine ⟨hkept, fun a ha => ?_⟩
      obtain ha | ⟨rfl, -⟩ := fresh_acknowledge.mp ha
      · exact hall a ha
      · exact hkept
    case agree =>
      intro hbusy a ha hbit
      obtain ha | ⟨rfl, -⟩ := fresh_acknowledge.mp ha
      · obtain ⟨hkept, hlater⟩ := hi.agree hbusy a ha hbit
        refine ⟨hkept, fun b hb hle => ?_⟩
        obtain hb | ⟨rfl, -⟩ := fresh_acknowledge.mp hb
        · exact hlater b hb hle
        · exact hkept
      · refine ⟨hbit, fun b hb hle => ?_⟩
        obtain hb | ⟨rfl, -⟩ := fresh_acknowledge.mp hb
        · exact absurd (hseq b hb.1) (Nat.not_lt.mpr hle)
        · exact hbit
    case agree_sent =>
      intro s hs a ha hbit
      obtain ha | ⟨rfl, -⟩ := fresh_acknowledge.mp ha
      · exact hi.agree_sent s hs a ha hbit
      · exact (hi.sent s hs).2 hbit
    case differ =>
      intro s hs a ha hbit hle
      obtain ha | ⟨rfl, -⟩ := fresh_acknowledge.mp ha
      · exact hi.differ s hs a ha hbit hle
      · exact hbit
    exacts [hi.fillings, hi.frames, hi.ready, hi.sent, hi.filled, hi.kept]

omit [DecidableEq ι] in
/-- An acknowledgement that counts after another one was settled counted before. -/
theorem Fresh.of_settle {a b : Ack ι} (ha : l.Fresh a) (hb : (l.settle a).Fresh b) : l.Fresh b :=
  ⟨hb.1, ha.2.trans hb.2⟩

/-- A slot that is freed was kept by the receiver, whose bit agrees. -/
theorem SlotInv.settle_freed (h : l.SlotInv i) {a : Ack ι} (ha : l.Fresh a) {s : Nat}
    (hs : l.slot i = .sent s) (hbit : a.bit i = l.bit i) : (l.settle a).SlotInv i := by
  have hslot : (l.settle a).slot i = .free := by simp [settle, settled, hs, hbit]
  obtain ⟨hkept, hlater⟩ := h.agree (by simp [hs]) a ha hbit
  constructor
  case fillings => exact h.fillings
  case frames => exact fun f hf hlt n hn => absurd hkept (h.frames f hf hlt n hn).2.2
  case free => exact fun _ => ⟨hkept, fun b hb => hlater b (ha.of_settle hb) hb.2.le⟩
  case ready => simp [hslot]
  case sent => simp [hslot]
  case filled => simp [hslot]
  case agree => simp [hslot]
  case agree_sent => simp [hslot]
  case differ => simp [hslot]
  case kept => exact h.kept

/-- A slot that is to be sent again was not kept: the receiver has seen the last
frame with its filling, and its bit still differs. -/
theorem SlotInv.settle_resent (h : l.SlotInv i) (hacks : ∀ a ∈ l.acks, a.seen ≤ l.seen) {a : Ack ι}
    (ha : l.Fresh a) {s : Nat} (hs : l.slot i = .sent s) (hbit : a.bit i ≠ l.bit i)
    (hle : s ≤ a.seen) : (l.settle a).SlotInv i := by
  have hslot : (l.settle a).slot i = .ready := by simp [settle, settled, hs, hbit, hle]
  have hkept := h.differ s hs a ha hbit hle
  constructor
  case fillings => exact h.fillings
  case frames =>
    intro f hf hlt n hn
    have hseq := (h.frames f hf hlt n hn).1
    obtain rfl : s = f.seq := by simpa [hs] using hseq
    have hlt' : l.seen < f.seq := hlt
    have := hacks a ha.1
    omega
  case free => simp [hslot]
  case ready => exact fun _ => hkept
  case sent => simp [hslot]
  case filled => exact fun _ => h.filled (by simp [hs])
  case agree =>
    exact fun _ b hb hagree => absurd (h.agree (by simp [hs]) b (ha.of_settle hb) hagree).1 hkept
  case agree_sent => simp [hslot]
  case differ => simp [hslot]
  case kept => exact h.kept

/-- Looking at a fresh acknowledgement. -/
theorem Inv.settle (h : l.Inv) {a : Ack ι} (ha : l.Fresh a) : (l.settle a).Inv where
  seen_lt := h.seen_lt
  frames_lt := h.frames_lt
  acks_seen := h.acks_seen
  slots i := by
    have hi := h.slots i
    have hsame : (l.settle a).slot i = l.slot i → (l.settle a).SlotInv i := fun hslot =>
      hi.congr rfl hslot rfl rfl (fun _ => rfl) (Nat.le_refl _) (Nat.le_refl _)
        (fun _ hf _ _ => hf) fun _ => ha.of_settle
    cases hs : l.slot i with
    | free => exact hsame (by simp [ToggleLink.settle, settled, hs])
    | ready => exact hsame (by simp [ToggleLink.settle, settled, hs])
    | sent s =>
        by_cases hbit : a.bit i = l.bit i
        · exact hi.settle_freed ha hs hbit
        · by_cases hle : s ≤ a.seen
          · exact hi.settle_resent h.acks_seen ha hs hbit hle
          · exact hsame (by simp [ToggleLink.settle, settled, hs, hbit, hle])

/-! ## Steps -/

/-- What can happen on a link. -/
inductive Step : ToggleLink ι → ToggleLink ι → Prop
  | fill (l : ToggleLink ι) {i : ι} : l.slot i = .free → Step l (l.fill i)
  | mark (l : ToggleLink ι) {i : ι} : l.slot i = .ready → Step l (l.mark i)
  | emit (l : ToggleLink ι) {body : Option (ι × Nat)} :
      (∀ i n, body = some (i, n) → l.slot i = .sent l.next ∧ n = l.filling i) → Step l (l.emit body)
  | skip (l : ToggleLink ι) {f : Frame ι} : f ∈ l.frames → l.seen < f.seq → Step l (l.skip f.seq)
  | keep (l : ToggleLink ι) {f : Frame ι} {i : ι} {n : Nat} :
      f ∈ l.frames → l.seen < f.seq → f.body = some (i, n) → Step l (l.keep f.seq i n)
  | acknowledge (l : ToggleLink ι) {seq : Nat} :
      (∀ a ∈ l.acks, a.seq < seq) → Step l (l.acknowledge seq)
  | settle (l : ToggleLink ι) {a : Ack ι} : l.Fresh a → Step l (l.settle a)

abbrev Steps : ToggleLink ι → ToggleLink ι → Prop := Relation.ReflTransGen Step

variable {l' : ToggleLink ι}

/-- Each step of the link keeps the invariant of every slot. -/
theorem Step.inv (hstep : Step l l') (h : l.Inv) : l'.Inv := by
  cases hstep with
  | fill hfree => exact h.fill hfree
  | mark hready => exact h.mark hready
  | emit hbody => exact h.emit hbody
  | skip hf hlt => exact h.skip hf hlt
  | keep hf hlt hn => exact h.keep hf hlt hn
  | acknowledge hseq => exact h.acknowledge hseq
  | settle ha => exact h.settle ha

/-- By induction on the steps. -/
theorem Steps.inv (hsteps : Steps l l') (h : l.Inv) : l'.Inv := by
  induction hsteps with
  | refl => exact h
  | tail _ hstep ih => exact hstep.inv ih

/-- The number that the receiver has seen never falls. -/
theorem Step.seen_le (hstep : Step l l') : l.seen ≤ l'.seen := by
  cases hstep with
  | skip _ hlt => exact hlt.le
  | keep _ hlt _ => exact hlt.le
  | _ => exact Nat.le_refl _

/-- By induction on the steps. -/
theorem Steps.seen_le (hsteps : Steps l l') : l.seen ≤ l'.seen := by
  induction hsteps with
  | refl => exact Nat.le_refl _
  | tail _ hstep ih => exact ih.trans hstep.seen_le

/-! ## What the sender learns -/

/-- No fresh acknowledgement agrees with a slot that waits to be sent. -/
theorem Inv.ready_differs (h : l.Inv) {a : Ack ι} (ha : l.Fresh a) (hready : l.slot i = .ready) :
    a.bit i ≠ l.bit i := fun hbit =>
  (h.slots i).ready hready ((h.slots i).agree (by simp [hready]) a ha hbit).1

/-- A frame that carries a slot that waits to be sent comes too late. -/
theorem Inv.ready_stale (h : l.Inv) (hready : l.slot i = .ready) {f : Frame ι} (hf : f ∈ l.frames)
    {n : Nat} (hn : f.body = some (i, n)) : f.seq ≤ l.seen := by
  by_contra hlt
  have hslot := ((h.slots i).frames f hf (by omega) n hn).1
  rw [hready] at hslot
  cases hslot

/-- A slot that a fresh acknowledgement frees was kept, exactly once. -/
theorem Inv.freed (h : l.Inv) {a : Ack ι} (ha : l.Fresh a) (hbusy : l.slot i ≠ .free)
    (hfreed : (l.settle a).slot i = .free) : l.kept.count (i, l.filling i) = 1 := by
  have hkept := ((h.settle ha).slots i).free hfreed
  have hcount := (h.slots i).kept (l.filling i)
  rwa [if_pos ⟨(h.slots i).filled hbusy, .inr ⟨rfl, hkept.1⟩⟩] at hcount

/-- A slot that a fresh acknowledgement has resent was not kept. -/
theorem Inv.resent (h : l.Inv) {a : Ack ι} (ha : l.Fresh a)
    (hresent : (l.settle a).slot i = .ready) : l.kept.count (i, l.filling i) = 0 := by
  have hkept := ((h.settle ha).slots i).ready hresent
  have hcount := (h.slots i).kept (l.filling i)
  rwa [if_neg (fun hpos => hkept (hpos.2.resolve_left (Nat.lt_irrefl _)).2)] at hcount

end ToggleLink
