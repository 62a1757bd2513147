import QuickplayServer.Net.PeerLink
import QuickplayServer.Net.Reassembly

/-!
# QuickplayServer.Net.Delivery

What one party queues, the other returns: in order, once, and as it was.

The transfer at the front of the sender's queue is put together at the receiver
from the fragments that have landed there (`Peer.progress`), those that were
sent and are in no subchannel whose filling the receiver has not kept.  All
transfers in front of it were returned, and it was itself when all of it has
landed (`Transfers`).
-/

namespace QuickplayServer

open SubChannelState

/-- The bytes are read back as the messages. -/
def DecodesTo [BitstreamIo] (messages : List Message) (data : List UInt8) : Prop :=
  NetChannel.readMessages { data := data, pos := 0 } data.length [] = .ok messages

/-- The section has the fragments that its subchannel holds. -/
structure NetChannel.Holds (channel : NetChannel) (s : Section) : Prop where
  data : ∃ stream queue, channel.outgoingReliableData 0 = stream :: queue ∧
    stream.data = s.fragment.data
  start : s.fragment.start = (channel.outgoingSubchannels s.subchannel).startFragment 0
  num : s.fragment.num = (channel.outgoingSubchannels s.subchannel).numFragments 0

/-- The fragments of the section are those of its subchannel. -/
theorem NetChannel.Holds.range {channel : NetChannel} {s : Section} (h : channel.Holds s) :
    s.fragment.range = (channel.outgoingSubchannels s.subchannel).range := by
  rw [Fragment.range, SubChannel.range, h.start, h.num]

namespace Peer

/-- The first `n` fragments of the sender, except for those that are in a
subchannel whose filling the receiver has not kept. -/
def landed (sender receiver : Peer) (n : Nat) : Finset Nat :=
  InFlight.landed (fun k => (sender.channel.outgoingSubchannels k).range)
    (sender.linkTo receiver).Kept n

/-- The transfer at the front of the sender, and its fragments that have landed. -/
def progress (sender receiver : Peer) : Option (List UInt8 × Finset Nat) :=
  (sender.channel.outgoingReliableData 0).head?.map fun stream =>
    (stream.data, sender.landed receiver stream.sentFragments)

/-- The number of transfers that were returned: those that were popped, and the
one at the front when all of it has landed. -/
def delivered (sender receiver : Peer) : Nat :=
  match sender.progress receiver with
  | none => sender.popped
  | some (data, got) =>
      if got = Finset.range (fragments data.length) then sender.popped + 1 else sender.popped

/-- The slot of the receiver for the transfer in progress. -/
def Arrives (slot : Option IncomingReliableData) : Option (List UInt8 × Finset Nat) → Prop
  | none => slot = none
  | some (data, got) => Assembles data got slot

/-- What a sender has queued and written. -/
structure Supplies (bare : Prop) (c : BitVec 32) [BitstreamIo] [Crc] (sender : Peer) : Prop where
  /-- A packet with the current filling of a subchannel has the fragments in it. -/
  carried :
    ∀ d ∈ sender.written, ∃ p, d.Writes c p ∧ (bare → p.messages = []) ∧ ∀ s, p.reliable = some s →
    d.carried = some (s.subchannel, sender.fillings s.subchannel) →
    (sender.channel.outgoingSubchannels s.subchannel).state ≠ free → sender.channel.Holds s
  popped : sender.popped ≤ sender.queued.length
  queued : List.Forall₂ DecodesTo (sender.queued.drop sender.popped)
    ((sender.channel.outgoingReliableData 0).map (·.data))

/-- What a receiver has put together and returned. -/
structure Transfers (bare : Prop) (sender receiver : Peer) : Prop where
  incoming : Arrives (receiver.channel.incomingReliableData 0) (sender.progress receiver)
  file : receiver.channel.incomingReliableData 1 = none
  returned :
    bare → receiver.returned.flatten = (sender.queued.take (sender.delivered receiver)).flatten

/-- The section has fragments of the sender that have not landed. -/
structure Brings (sender receiver : Peer) (s : Section) : Prop where
  holds : sender.channel.Holds s
  busy : (sender.channel.outgoingSubchannels s.subchannel).state ≠ free
  kept : ¬ (sender.linkTo receiver).Kept s.subchannel

/-- After a step the receiver still returns what was queued, and nothing is taken back. -/
structure Proceeds (bare : Prop) (sender receiver sender' receiver' : Peer) : Prop where
  transfers : Transfers bare sender' receiver'
  queued : sender.queued <+: sender'.queued
  popped : sender.popped ≤ sender'.popped
  delivered : sender.delivered receiver ≤ sender'.delivered receiver'

variable {bare bare' : Prop} {sender sender' receiver receiver' : Peer} {c : BitVec 32}

/-! ## Progress -/

/-- What the sender has popped was delivered. -/
theorem popped_le_delivered (sender receiver : Peer) :
    sender.popped ≤ sender.delivered receiver := by
  unfold delivered
  split
  · exact Nat.le_refl _
  · split <;> omega

/-- The progress of a transfer depends on the fragments that were handed out and on
those that have landed. -/
theorem progress_congr
    (hfront :
      (sender'.channel.outgoingReliableData 0).head?.map (fun s => (s.data, s.sentFragments)) =
      (sender.channel.outgoingReliableData 0).head?.map fun s => (s.data, s.sentFragments))
    (hlanded : ∀ n, sender'.landed receiver' n = sender.landed receiver n) :
    sender'.progress receiver' = sender.progress receiver := by
  have hmap : ∀ (a b : Peer), a.progress b = ((a.channel.outgoingReliableData 0).head?.map
      fun s => (s.data, s.sentFragments)).map fun x => (x.1, a.landed b x.2) := by
    intro a b
    rw [progress, Option.map_map]
    rfl
  simp only [hmap, hfront, hlanded]

/-- A step that neither side of a transfer notices. -/
theorem Transfers.congr (h : Transfers bare sender receiver)
    (hprogress : sender'.progress receiver' = sender.progress receiver)
    (hqueued : sender'.queued = sender.queued) (hpopped : sender'.popped = sender.popped)
    (hincoming : receiver'.channel.incomingReliableData = receiver.channel.incomingReliableData)
    (hreturned : bare → receiver'.returned.flatten = receiver.returned.flatten) :
    Proceeds bare sender receiver sender' receiver' := by
  have hdelivered : sender'.delivered receiver' = sender.delivered receiver := by
    rw [delivered, delivered, hprogress, hpopped]
  refine ⟨⟨?incoming, ?file, ?returned⟩, hqueued ▸ List.prefix_refl _, hpopped.ge, hdelivered.ge⟩
  case incoming =>
    rw [hprogress, hincoming]
    exact h.incoming
  case file =>
    rw [hincoming]
    exact h.file
  case returned =>
    intro hbare
    rw [hreturned hbare, hqueued, hdelivered]
    exact h.returned hbare

/-- Which fragments have landed depends on what the subchannels hold and on which of
them the receiver has kept. -/
theorem landed_congr_of_range
    (hrange : ∀ k, (sender'.channel.outgoingSubchannels k).range =
      (sender.channel.outgoingSubchannels k).range)
    (hkept : ∀ k, (sender'.linkTo receiver').Kept k ↔ (sender.linkTo receiver).Kept k) (n : Nat) :
    sender'.landed receiver' n = sender.landed receiver n := by
  refine InFlight.landed_congr fun k a => ?_
  rw [hrange, hkept]

/-- A step that changes nothing of what the receiver has. -/
theorem Transfers.same_receiver (h : Transfers bare sender receiver)
    (hstate : receiver'.channel.inReliableState = receiver.channel.inReliableState)
    (hincoming : receiver'.channel.incomingReliableData = receiver.channel.incomingReliableData)
    (hreturned : bare → receiver'.returned.flatten = receiver.returned.flatten) :
    Proceeds bare sender receiver sender receiver' := by
  refine h.congr (progress_congr rfl fun n => landed_congr_of_range (fun _ => rfl) (fun k => ?_) n)
    rfl rfl hincoming hreturned
  simp only [ToggleLink.Kept, linkTo, hstate]

section

variable [BitstreamIo]

/-- The list that was queued for the transfer at the front. -/
theorem Supplies.front [Crc] (h : sender.Supplies bare c) {stream : OutgoingReliableData}
    {queue : List OutgoingReliableData}
    (hqueue : sender.channel.outgoingReliableData 0 = stream :: queue) :
    ∃ messages, DecodesTo messages stream.data ∧
      sender.queued.take (sender.popped + 1) = sender.queued.take sender.popped ++ [messages] := by
  have hqueued := h.queued
  rw [hqueue, List.map_cons] at hqueued
  obtain ⟨messages, rest, hdecodes, -, hdrop⟩ := List.forall₂_cons_right_iff.mp hqueued
  exact ⟨messages, hdecodes, by rw [List.take_add, hdrop]; rfl⟩

/-- No more transfers are delivered than were queued. -/
theorem Supplies.delivered_le [Crc] (h : sender.Supplies bare c) (receiver : Peer) :
    sender.delivered receiver ≤ sender.queued.length := by
  have hpopped := h.popped
  have hlength := h.queued.length_eq
  unfold delivered progress
  cases hqueue : sender.channel.outgoingReliableData 0 with
  | nil => exact hpopped
  | cons stream queue =>
      rw [hqueue, List.map_cons, List.length_cons, List.length_drop] at hlength
      rw [List.head?_cons, Option.map_some]
      dsimp only
      split <;> omega

/-- An empty transfer is an empty list. -/
theorem DecodesTo.nil {messages : List Message} (h : DecodesTo messages []) : messages = [] := by
  have hnone :
      NetChannel.readMessages { data := [], pos := 0 } ([] : List UInt8).length [] = .ok [] :=
    NetChannel.readMessages_of_short (BitReader.inBounds_start []) (by decide)
  exact (Outcome.ok.inj (hnone.symm.trans h)).symm

/-- Nothing of the transfer at the front was sent yet, and those before it were returned. -/
theorem Supplies.transfers [Crc] (h : sender.Supplies bare' c)
    (hsent : ∀ stream ∈ (sender.channel.outgoingReliableData 0).head?, stream.sentFragments = 0)
    (hincoming : receiver.channel.incomingReliableData 0 = none)
    (hfile : receiver.channel.incomingReliableData 1 = none)
    (hreturned : bare → receiver.returned.flatten = (sender.queued.take sender.popped).flatten) :
    Transfers bare sender receiver := by
  cases hqueue : sender.channel.outgoingReliableData 0 with
  | nil =>
      have hprogress : sender.progress receiver = none := by
        rw [progress, hqueue]
        rfl
      refine ⟨?_, hfile, ?_⟩
      · rw [hprogress]
        exact hincoming
      · rw [delivered, hprogress]
        exact hreturned
  | cons stream queue =>
      have hprogress : sender.progress receiver = some (stream.data, ∅) := by
        have hnone : sender.landed receiver 0 = ∅ := Finset.subset_empty.mp InFlight.landed_subset
        rw [progress, hqueue, List.head?_cons, Option.map_some, hsent stream (by simp [hqueue]),
          hnone]
      refine ⟨?_, hfile, ?_⟩
      · rw [hprogress, hincoming]
        exact .inl rfl
      · rw [delivered, hprogress]
        dsimp only
        split
        case isFalse => exact hreturned
        case isTrue hempty =>
          -- a transfer without fragments is complete from the start
          have hdata : stream.data = [] := by
            have hzero := congrArg Finset.card hempty
            rw [Finset.card_empty, Finset.card_range, fragments_eq] at hzero
            exact List.length_eq_zero_iff.mp (by omega)
          obtain ⟨messages, hdecodes, htake⟩ := h.front hqueue
          obtain rfl := DecodesTo.nil (hdata ▸ hdecodes)
          intro hbare
          rw [htake, List.flatten_append, ← hreturned hbare]
          simp

/-! ## Queueing -/

/-- What the action queues is read back from its transfer. -/
theorem Supplies.queue [Crc] (h : sender.Supplies bare c) {messages : List Message}
    (hdecodes : ∀ data, NetChannel.encodeMessages messages = .ok data → DecodesTo messages data)
    (hqueue : sender.queue messages = some sender') : sender'.Supplies bare c := by
  obtain ⟨stream, hencode, -, -, rfl⟩ | rfl := queue_cases hqueue
  · refine ⟨fun d hd => ?_, ?_, ?_⟩
    · obtain ⟨p, hp, hbare, hcarried⟩ := h.carried d hd
      refine ⟨p, hp, hbare, fun s hs hfilling hbusy => ?_⟩
      have hholds := hcarried s hs hfilling hbusy
      obtain ⟨front, queue, hfront, hdata⟩ := hholds.data
      exact ⟨⟨front, queue ++ [stream], by simp [hfront], hdata⟩, hholds.start, hholds.num⟩
    · show sender.popped ≤ (sender.queued ++ [messages]).length
      rw [List.length_append]
      exact h.popped.trans (Nat.le_add_right _ _)
    · show List.Forall₂ DecodesTo ((sender.queued ++ [messages]).drop sender.popped) _
      rw [List.drop_append_of_le_length h.popped]
      simp only [NetChannel.setOutgoing_outgoingReliableData, Function.update_self, List.map_append]
      exact List.rel_append h.queued (.cons (hdecodes _ hencode) .nil)
  · exact h

/-- A list behind those that are queued already changes nothing for them. -/
theorem Transfers.queue_sender [Crc] (h : Transfers bare sender receiver)
    (hsupplies : sender.Supplies bare' c)
    (hsupplies' : sender'.Supplies bare' c) {messages : List Message}
    (hqueue : sender.queue messages = some sender') :
    Proceeds bare sender receiver sender' receiver := by
  obtain ⟨stream, hencode, hacked, hpending, rfl⟩ | rfl := queue_cases hqueue
  · by_cases hempty : sender.channel.outgoingReliableData 0 = []
    · -- the list is the next to be transferred
      have hprogress : sender.progress receiver = none := by
        rw [progress, hempty]
        rfl
      have hall : sender.queued.length = sender.popped := by
        have hlength := hsupplies.queued.length_eq
        rw [hempty, List.map_nil, List.length_nil, List.length_drop] at hlength
        have := hsupplies.popped
        omega
      have hdelivered : sender.delivered receiver = sender.popped := by rw [delivered, hprogress]
      have hincoming := h.incoming
      have hreturned := h.returned
      rw [hprogress] at hincoming
      rw [hdelivered] at hreturned
      have hpopped : ∀ later : Peer, later.popped = sender.popped →
          sender.popped ≤ later.delivered receiver :=
        fun later hsame => hsame ▸ popped_le_delivered later receiver
      refine ⟨hsupplies'.transfers ?_ hincoming h.file ?_, List.prefix_append _ _, Nat.le_refl _,
        hdelivered.trans_le (hpopped _ rfl)⟩
      · intro front hfront
        obtain rfl : stream = front := by simpa [hempty] using hfront
        rw [OutgoingReliableData.sentFragments, hacked, hpending]
      · intro hbare
        rw [hreturned hbare]
        simp [← hall]
    · obtain ⟨front, queue, hfront⟩ := List.exists_cons_of_ne_nil hempty
      have hprogress : progress { sender with
          channel :=
            sender.channel.setOutgoing 0 (sender.channel.outgoingReliableData 0 ++ [stream])
          queued := sender.queued ++ [messages] } receiver = sender.progress receiver :=
        progress_congr (by simp [hfront]) fun _ => rfl
      refine ⟨⟨hprogress ▸ h.incoming, h.file, ?_⟩, List.prefix_append _ _, Nat.le_refl _, ?_⟩
      · rw [delivered, hprogress]
        show bare → _ = ((sender.queued ++ [messages]).take (sender.delivered receiver)).flatten
        rw [List.take_append_of_le_length (hsupplies.delivered_le receiver)]
        exact h.returned
      · rw [delivered, delivered, hprogress]
  · exact h.congr rfl rfl rfl rfl fun _ => rfl

/-- What the receiver queues is no matter of the transfers to it. -/
theorem Transfers.queue_receiver (h : Transfers bare sender receiver) {messages : List Message}
    (hqueue : receiver.queue messages = some receiver') :
    Proceeds bare sender receiver sender receiver' := by
  obtain ⟨stream, -, -, -, rfl⟩ | rfl := queue_cases hqueue
  · exact h.same_receiver rfl rfl fun _ => rfl
  · exact h.same_receiver rfl rfl fun _ => rfl

end

/-! ## Writing -/

/-- Filling a subchannel adds fragments that have not landed. -/
theorem progress_refill [Crc] (hs : sender.Sound c) (hlink : (sender.linkTo receiver).Inv) :
    sender.refill.progress receiver = sender.progress receiver := by
  cases hfillable : sender.channel.fillable with
  | none =>
      have hfilled := NetChannel.filled_of_none hfillable
      have hkept : sender.refill.linkTo receiver = _ := linkTo_refill
      rw [hfillable] at hkept
      refine progress_congr (by rw [refill, hfilled])
        fun n => landed_congr_of_range (fun k => ?_) (fun k => ?_) n
      · rw [refill, hfilled]
      · rw [hkept]
  | some k =>
      obtain ⟨stream, queue, hqueue, hfind, -, hfilled⟩ := NetChannel.filled_of_some hfillable
      generalize min sender.channel.maxFragments
        (fragments stream.data.length - stream.sentFragments) =
        num at hfilled
      have hfree := NetChannel.findSubchannel_eq_some hfind
      have hlinked : sender.refill.linkTo receiver = _ := linkTo_refill
      rw [hfillable] at hlinked
      have hsub : sender.refill.channel.outgoingSubchannels = _ :=
        (congrArg NetChannel.outgoingSubchannels hfilled).trans
          (NetChannel.fill_outgoingSubchannels sender.channel k stream queue num)
      have hlanded : sender.refill.landed receiver (stream.sentFragments + num) =
          sender.landed receiver stream.sentFragments := by
        refine InFlight.landed_fill (k := k) ?_ ?_ ?_ fun l hl => ⟨?_, ?_⟩
        · simp [hsub, SubChannel.range]
        · have hkept := ((hlink.slots k).free (SubChannel.slot_eq_free.mpr hfree)).1
          unfold ToggleLink.Kept at hkept
          simp [hlinked, ToggleLink.fill, ToggleLink.Kept, hkept]
        · simp [SubChannel.range, hs.books.free_empty k hfree]
        · simp [hsub, hl]
        · simp [hlinked, ToggleLink.fill, ToggleLink.Kept, hl]
      rw [progress, progress, hqueue, refill, hfilled, NetChannel.fill_outgoingReliableData,
        Function.update_self, List.head?_cons, List.head?_cons, Option.map_some,
        Option.map_some, ← hlanded,
        refill, hfilled]
      simp only [OutgoingReliableData.sentFragments, Nat.add_assoc]

/-- Writing a section delivers nothing. -/
theorem progress_mark (reliable : Option Section) :
    (sender.mark reliable).progress receiver = sender.progress receiver := by
  cases reliable with
  | none => rfl
  | some s =>
      refine progress_congr rfl fun n => landed_congr_of_range (fun k => ?_) (fun k => ?_) n
      · by_cases hk : k = s.subchannel
        · subst hk
          simp [mark, NetChannel.sent, NetChannel.marked, SubChannel.range]
        · simp [mark, NetChannel.sent, NetChannel.marked, hk]
      · rw [linkTo_mark]
        exact Iff.rfl

section

variable [BitstreamIo] [Crc]

/-- Writing a packet delivers nothing and queues nothing. -/
theorem progress_write (hs : sender.Sound c) (hlink : (sender.linkTo receiver).Inv)
    {messages : List Message} (hwrite : sender.write messages = some sender') :
    sender'.progress receiver = sender.progress receiver ∧ sender'.queued = sender.queued ∧
      sender'.popped = sender.popped := by
  have hprogress :
      ∀ reliable, (sender.refill.mark reliable).progress receiver = sender.progress receiver :=
    fun reliable => (progress_mark reliable).trans (progress_refill hs hlink)
  obtain ⟨reliable, -, rfl | ⟨-, rfl⟩⟩ := write_cases hs hwrite
  · exact ⟨hprogress reliable, rfl, rfl⟩
  · exact ⟨(progress_congr rfl fun _ => rfl).trans (hprogress reliable), rfl, rfl⟩

omit [BitstreamIo] [Crc] in
/-- Filling a subchannel changes no transfer. -/
theorem filled_data (channel : NetChannel) : (channel.filled.outgoingReliableData 0).map (·.data) =
    (channel.outgoingReliableData 0).map (·.data) := by
  cases hfillable : channel.fillable with
  | none => rw [NetChannel.filled_of_none hfillable]
  | some k =>
      obtain ⟨stream, queue, hqueue, -, -, hfilled⟩ := NetChannel.filled_of_some hfillable
      rw [hfilled, NetChannel.fill_outgoingReliableData, Function.update_self, hqueue]
      rfl

/-- A filling that is not the first to be sent is not in the packets before it. -/
theorem Supplies.refill (h : sender.Supplies bare c) (hlink : (sender.linkTo receiver).Inv) :
    sender.refill.Supplies bare c := by
  refine ⟨fun d hd => ?_, h.popped, ?_⟩
  · obtain ⟨p, hp, hbare, hcarried⟩ := h.carried d hd
    refine ⟨p, hp, hbare, fun s hs hfilling hbusy => ?_⟩
    have hsub := sender.channel.filled_subchannel s.subchannel
    by_cases hfill : sender.channel.fillable = some s.subchannel
    · -- its number is higher than that of any filling that was sent
      have hold := (hlink.slots s.subchannel).fillings d.frame (List.mem_map_of_mem hd) _ hfilling
      rw [if_pos hfill] at hsub
      have hnew : sender.refill.fillings s.subchannel = sender.fillings s.subchannel + 1 := by
        simp [Peer.refill, refilled, hsub.1, hsub.2.1]
      have hold : sender.refill.fillings s.subchannel ≤ sender.fillings s.subchannel := hold
      omega
    · rw [if_neg hfill] at hsub
      have hsame : sender.refill.channel.outgoingSubchannels s.subchannel =
          sender.channel.outgoingSubchannels s.subchannel := hsub.1
      have hnumber : sender.refill.fillings s.subchannel = sender.fillings s.subchannel := by
        simp only [Peer.refill, refilled, hsub.1]
        rw [if_neg fun h => h.2 h.1]
      rw [hnumber] at hfilling
      rw [hsame] at hbusy
      have hholds := hcarried s hs hfilling hbusy
      refine ⟨?_, hsame ▸ hholds.start, hsame ▸ hholds.num⟩
      obtain ⟨stream, queue, hqueue, hdata⟩ := hholds.data
      have hfilled := filled_data sender.channel
      rw [hqueue, List.map_cons, List.map_eq_cons_iff] at hfilled
      obtain ⟨stream', queue', hqueue', hdata', -⟩ := hfilled
      exact ⟨stream', queue', hqueue', hdata'.trans hdata⟩
  · show List.Forall₂ DecodesTo _ ((sender.channel.filled.outgoingReliableData 0).map (·.data))
    rw [filled_data]
    exact h.queued

omit [BitstreamIo] [Crc] in
/-- A section that is written stays in its subchannel. -/
theorem holds_mark {reliable : Option Section} {s : Section} (h : sender.channel.Holds s) :
    (sender.mark reliable).channel.Holds s := by
  cases reliable with
  | none => exact h
  | some marked =>
      by_cases hs : s.subchannel = marked.subchannel
      · exact ⟨h.data, by simp [mark, NetChannel.sent, NetChannel.marked, h.start, hs],
          by simp [mark, NetChannel.sent, NetChannel.marked, h.num, hs]⟩
      · exact ⟨h.data, by simp [mark, NetChannel.sent, NetChannel.marked, h.start, hs],
          by simp [mark, NetChannel.sent, NetChannel.marked, h.num, hs]⟩

/-- The queue still has what it had when a section is written. -/
theorem Supplies.mark (h : sender.Supplies bare c) {reliable : Option Section}
    (hcarries : sender.channel.Carries reliable) : (sender.mark reliable).Supplies bare c := by
  cases hreliable : reliable with
  | none => exact h
  | some marked =>
      rw [hreliable] at hcarries
      refine ⟨fun d hd => ?_, h.popped, h.queued⟩
      obtain ⟨p, hp, hbare, hcarried⟩ := h.carried d hd
      refine ⟨p, hp, hbare, fun s hs hfilling hbusy => holds_mark (hcarried s hs hfilling ?_)⟩
      by_cases hsub : s.subchannel = marked.subchannel
      · rw [hsub, NetChannel.findSubchannel_eq_some hcarries.1]
        simp
      · simpa [Peer.mark, NetChannel.sent, NetChannel.marked, hsub] using hbusy

/-- Each packet that is recorded has a section that its subchannel holds. -/
theorem Supplies.emit (h : sender.Supplies bare c) (hs : sender.Sound c) {reliable : Option Section}
    (hholds : ∀ s, reliable = some s → sender.channel.Holds s) {messages : List Message}
    (hbare : bare → messages = []) : (sender.emit reliable messages).Supplies bare c := by
  refine ⟨fun d hd => ?_, h.popped, h.queued⟩
  have hemit : ∀ s, sender.channel.Holds s → (sender.emit reliable messages).channel.Holds s :=
    fun s hs => ⟨hs.data, hs.start, hs.num⟩
  obtain hd | rfl := by simpa [Peer.emit] using hd
  · obtain ⟨p, hp, hbare, hcarried⟩ := h.carried d hd
    exact ⟨p, hp, hbare, fun s hs hfilling hbusy => hemit s (hcarried s hs hfilling hbusy)⟩
  · exact ⟨_, hs.datagram_writes reliable messages, hbare, fun s hs _ _ => hemit s (hholds s hs)⟩

/-- Writing a packet keeps what the sender supplies. -/
theorem Supplies.write (h : sender.Supplies bare c) (hs : sender.Sound c)
    (hlink : (sender.linkTo receiver).Inv) {messages : List Message} (hbare : bare → messages = [])
    (hwrite : sender.write messages = some sender') : sender'.Supplies bare c := by
  obtain ⟨reliable, hcarries, hsender⟩ := write_cases hs hwrite
  have hmark : (sender.refill.mark reliable).Supplies bare c := (h.refill hlink).mark hcarries
  obtain rfl | ⟨-, rfl⟩ := hsender
  · exact hmark
  · refine hmark.emit (hs.mark_refill hcarries) (fun s hs => holds_mark ?_) hbare
    subst hs
    obtain ⟨-, hdata, hstart, hnum⟩ := hcarries
    exact ⟨hdata, hstart, hnum⟩

/-- Writing a packet keeps the transfers as they are, delivered up to the same point. -/
theorem Transfers.write_sender (h : Transfers bare sender receiver) (hs : sender.Sound c)
    (hlink : (sender.linkTo receiver).Inv) {messages : List Message}
    (hwrite : sender.write messages = some sender') :
    Proceeds bare sender receiver sender' receiver := by
  obtain ⟨hprogress, hqueued, hpopped⟩ := progress_write hs hlink hwrite
  exact h.congr hprogress hqueued hpopped rfl fun _ => rfl

/-- A packet of the receiver has nothing to do with what it receives. -/
theorem Transfers.write_receiver (h : Transfers bare sender receiver) (hr : receiver.Sound c)
    {messages : List Message} (hwrite : receiver.write messages = some receiver') :
    Proceeds bare sender receiver sender receiver' := by
  obtain ⟨reliable, -, hreceiver⟩ := write_cases hr hwrite
  have hothers := NetChannel.sent_filled_others receiver.channel reliable
  have hstate : (receiver.channel.filled.sent reliable).inReliableState =
      receiver.channel.inReliableState := by rw [hothers]
  have hincoming : (receiver.channel.filled.sent reliable).incomingReliableData =
      receiver.channel.incomingReliableData := by rw [hothers]
  obtain rfl | ⟨-, rfl⟩ := hreceiver
  · exact h.same_receiver hstate hincoming fun _ => rfl
  · exact h.same_receiver hstate hincoming fun _ => rfl

end

/-! ## Reading acknowledgements -/

/-- The bytes of a transfer and how many of its fragments were sent. -/
def outline (stream : OutgoingReliableData) : List UInt8 × Nat :=
  (stream.data, stream.sentFragments)

/-- A reader keeps its queue, or pops a transfer of which nothing is on its way. -/
theorem acknowledged_queue {sequence sequenceAck : Nat} {acked : BitVec 8}
    {channel later : NetChannel}
    (h : NetChannel.Acknowledged sequence sequenceAck acked channel later) :
    (later.outgoingReliableData 0).map outline = (channel.outgoingReliableData 0).map outline ∨
      ∃ stream, channel.outgoingReliableData 0 = stream :: later.outgoingReliableData 0 ∧
        stream.sentFragments = fragments stream.data.length ∧
        ∀ k, (later.outgoingSubchannels k).state = free := by
  cases hqueue : channel.outgoingReliableData 0 with
  | nil => exact .inl (by rw [h.empty hqueue])
  | cons stream rest =>
      have hlater := h.queue stream rest hqueue
      split at hlater
      case isTrue hcomplete => exact .inr ⟨stream, by rw [hlater], hcomplete⟩
      case isFalse =>
        obtain ⟨stream', hlater, hdata, hsent⟩ := hlater
        refine .inl ?_
        rw [hlater, List.map_cons, List.map_cons, outline, outline, hdata, hsent]

/-- The subchannel is free, or holds what it held before. -/
inductive Released (before after : SubChannel) : Prop where
  | free (hstate : after.state = free) (hrange : after.range = ∅)
  | held (hstart : after.startFragment = before.startFragment)
      (hnum : after.numFragments = before.numFragments)
      (hstate : after.state ≠ free → before.state ≠ free)

/-- Settling a subchannel frees it or marks it for resending, with the same
fragments. -/
theorem released_settle (subchannel : SubChannel) (agrees : Bool) (sequenceAck : Nat) :
    Released subchannel (subchannel.settle agrees sequenceAck) := by
  unfold SubChannel.settle
  split
  case isTrue hbusy =>
    split
    · exact .free rfl (by simp [SubChannel.range, SubChannel.newFree])
    · split
      · exact .held rfl rfl fun _ => by simp [hbusy]
      · exact .held rfl rfl id
  case isFalse => exact .held rfl rfl id

/-- What reading a packet does to the sending side. -/
structure Settles (peer later : Peer) : Prop where
  written : later.written = peer.written
  fillings : later.fillings = peer.fillings
  queued : later.queued = peer.queued
  configuration : later.channel.configuration = peer.channel.configuration
  outReliableState : later.channel.outReliableState = peer.channel.outReliableState
  subchannels : ∀ k,
    Released (peer.channel.outgoingSubchannels k) (later.channel.outgoingSubchannels k)
  queue : (later.channel.outgoingReliableData 0).map outline =
        (peer.channel.outgoingReliableData 0).map outline ∧ later.popped = peer.popped ∨
      ∃ stream, peer.channel.outgoingReliableData 0 =
        stream :: later.channel.outgoingReliableData 0 ∧
        stream.sentFragments = fragments stream.data.length ∧
        (∀ k, (later.channel.outgoingSubchannels k).state = free) ∧ later.popped = peer.popped + 1

section

variable [BitstreamIo] [Crc]

/-- Reading a packet of the receiver settles the subchannels of the sender, and may
pop the front transfer. -/
theorem read_settles (hs : sender.Sound c) (ho : receiver.Sound c)
    (hlink : (sender.linkTo receiver).Inv)
    {d : Datagram} (hd : d ∈ receiver.written) (hread : sender.read d = some sender') :
    Settles sender sender' := by
  obtain ⟨outcome, -, -, hpeer⟩ := read_eq_some hread
  have hqueued : sender'.queued = sender.queued := by rw [hpeer]
  have hpopped : sender'.popped = sender.popped + ((sender.channel.outgoingReliableData 0).length -
    (sender'.channel.outgoingReliableData 0).length) := congrArg Peer.popped hpeer
  obtain ⟨-, rfl⟩ | htook := read_cases hs ho hlink hd hread
  · exact ⟨rfl, rfl, rfl, rfl, rfl, fun k => .held rfl rfl id, .inl ⟨rfl, rfl⟩⟩
  · obtain ⟨p, mid, _, -, hacknowledged, -, -, hbody⟩ := htook.channel
    have hothers := took_others hacknowledged hbody
    have hsub : sender'.channel.outgoingSubchannels = mid.outgoingSubchannels := by rw [hothers]
    have hqueue : sender'.channel.outgoingReliableData = mid.outgoingReliableData := by rw [hothers]
    refine ⟨htook.written, htook.fillings, hqueued,
      by rw [hothers], by rw [hothers], fun k => ?_, ?_⟩
    · rw [hsub, hacknowledged.subchannels]
      exact released_settle _ _ _
    · rw [hsub, hqueue, hpopped, hqueue]
      obtain hsame | ⟨stream, hstream, hsent, hfree⟩ := acknowledged_queue hacknowledged
      · have hlength := congrArg List.length hsame
        rw [List.length_map, List.length_map] at hlength
        refine .inl ⟨hsame, ?_⟩
        have :
            (sender.channel.outgoingReliableData 0).length = (mid.outgoingReliableData 0).length :=
          hlength.symm
        omega
      · have hstream :
            sender.channel.outgoingReliableData 0 = stream :: mid.outgoingReliableData 0 := hstream
        refine .inr ⟨stream, hstream, hsent, hfree, ?_⟩
        rw [hstream, List.length_cons]
        omega

/-- Settling the subchannels keeps what the sender supplies. -/
theorem Supplies.read (h : sender.Supplies bare c) (hsettles : Settles sender sender') :
    sender'.Supplies bare c := by
  have hqueued := h.queued
  refine ⟨fun d hd => ?_, ?_, ?_⟩
  · rw [hsettles.written] at hd
    obtain ⟨p, hp, hbare, hcarried⟩ := h.carried d hd
    refine ⟨p, hp, hbare, fun s hs hfilling hbusy => ?_⟩
    rw [hsettles.fillings] at hfilling
    obtain ⟨hfree, -⟩ | ⟨hstart, hnum, hbefore⟩ := hsettles.subchannels s.subchannel
    · exact absurd hfree hbusy
    · have hholds := hcarried s hs hfilling (hbefore hbusy)
      refine ⟨?_, by rw [hstart, hholds.start], by rw [hnum, hholds.num]⟩
      obtain ⟨stream, queue, hqueue, hdata⟩ := hholds.data
      obtain ⟨hsame, -⟩ | ⟨_, -, -, hfree, -⟩ := hsettles.queue
      · rw [hqueue, List.map_cons, List.map_eq_cons_iff] at hsame
        obtain ⟨stream', queue', hqueue', houtline, -⟩ := hsame
        exact ⟨stream', queue', hqueue', (Prod.mk.inj houtline).1.trans hdata⟩
      · exact absurd (hfree _) hbusy
  · rw [hsettles.queued]
    have hpopped := h.popped
    obtain ⟨-, hsame⟩ | ⟨stream, hqueue, -, -, hmore⟩ := hsettles.queue
    · omega
    · have hlength := hqueued.length_eq
      rw [hqueue, List.map_cons, List.length_cons, List.length_drop] at hlength
      omega
  · rw [hsettles.queued]
    obtain ⟨hsame, hpopped⟩ | ⟨stream, hqueue, -, -, hpopped⟩ := hsettles.queue
    · have hdata := congrArg (List.map Prod.fst) hsame
      rw [List.map_map, List.map_map] at hdata
      rw [hpopped]
      exact hdata ▸ hqueued
    · rw [hqueue, List.map_cons] at hqueued
      obtain ⟨messages, rest, -, hrest, hdrop⟩ := List.forall₂_cons_right_iff.mp hqueued
      rw [hpopped, ← List.drop_drop, hdrop]
      exact hrest

/-- Acknowledgements that the sender reads free subchannels whose fragments have
landed, so the transfers go on from where they were. -/
theorem Transfers.read_sender (h : Transfers bare sender receiver)
    (hsupplies' : sender'.Supplies bare' c)
    (hbooks : Bookkeeping sender.channel)
    (hlink : (sender'.linkTo receiver).Inv) (hsettles : Settles sender sender') :
    Proceeds bare sender receiver sender' receiver := by
  have hkept : ∀ k, (sender'.linkTo receiver).Kept k ↔ (sender.linkTo receiver).Kept k := by
    intro k
    simp only [ToggleLink.Kept, linkTo, hsettles.outReliableState]
  have hfreed : ∀ k, (sender'.channel.outgoingSubchannels k).state = free →
      (sender.linkTo receiver).Kept k := fun k hfree =>
    (hkept k).mp ((hlink.slots k).free (SubChannel.slot_eq_free.mpr hfree)).1
  obtain ⟨hsame, hpopped⟩ | ⟨stream, hqueue, hsent, hfree, hpopped⟩ := hsettles.queue
  · have hlanded : ∀ n, sender'.landed receiver n = sender.landed receiver n := by
      refine fun n => InFlight.landed_congr fun k a => ?_
      rw [hkept]
      obtain ⟨hfree, hrange⟩ | ⟨hstart, hnum, -⟩ := hsettles.subchannels k
      · exact iff_of_false (fun h => h.2 (hfreed k hfree)) fun h => h.2 (hfreed k hfree)
      · simp only [SubChannel.range, hstart, hnum]
    have hfront := congrArg List.head? hsame
    rw [List.head?_map, List.head?_map] at hfront
    exact h.congr (progress_congr hfront hlanded) hsettles.queued hpopped rfl fun _ => rfl
  · -- all of the transfer that is popped has landed
    have hall : sender.landed receiver stream.sentFragments =
        Finset.range (fragments stream.data.length) := by
      rw [← hsent]
      exact InFlight.landed_of_kept fun k => hfreed k (hfree k)
    have hprogress : sender.progress receiver =
        some (stream.data, Finset.range (fragments stream.data.length)) := by
      rw [progress, hqueue, List.head?_cons, Option.map_some, hall]
    have hdelivered : sender.delivered receiver = sender.popped + 1 := by
      rw [delivered, hprogress]
      exact if_pos rfl
    have hincoming := h.incoming
    have hreturned := h.returned
    rw [hprogress] at hincoming
    rw [hdelivered, ← hpopped] at hreturned
    refine ⟨hsupplies'.transfers (fun front hfront => ?_) hincoming.none_of_all h.file ?_,
      hsettles.queued ▸ List.prefix_refl _, hpopped ▸ Nat.le_succ _, ?_⟩
    · have hwaiting := hbooks.waiting front (by
        rw [hqueue, List.tail_cons]
        exact List.mem_of_mem_head? hfront)
      rw [OutgoingReliableData.sentFragments, hwaiting.1, hwaiting.2]
    · rw [hsettles.queued]
      exact hreturned
    · rw [hdelivered, ← hpopped]
      exact popped_le_delivered sender' receiver

/-! ## Reading fragments -/

omit [BitstreamIo] in
/-- The fragments in a packet that the receiver has not seen have not landed. -/
theorem Brings.of_fresh (hlink : (sender.linkTo receiver).Inv) {d : Datagram}
    (hd : d ∈ sender.written)
    (hseen : receiver.channel.inSequenceNr < d.sequence) {p : Packet} (hp : d.Writes c p)
    {s : Section}
    (hreliable : p.reliable = some s)
    (hcarried : d.carried = some (s.subchannel, sender.fillings s.subchannel) →
      (sender.channel.outgoingSubchannels s.subchannel).state ≠ free → sender.channel.Holds s) :
    Brings sender receiver s := by
  have hbody := hp.carried
  rw [hreliable, Option.map_some, Option.map_eq_some_iff] at hbody
  obtain ⟨⟨k, n⟩, hbody, rfl⟩ := hbody
  obtain ⟨hslot, rfl, hkept⟩ :=
    (hlink.slots s.subchannel).frames d.frame (List.mem_map_of_mem hd) hseen n hbody
  have hbusy : (sender.channel.outgoingSubchannels s.subchannel).state ≠ free := by
    intro hfree
    have hslot' : (sender.linkTo receiver).slot s.subchannel = .free :=
      SubChannel.slot_eq_free.mpr hfree
    rw [hslot'] at hslot
    cases hslot
  exact ⟨hcarried hbody hbusy, hbusy, hkept⟩

omit [BitstreamIo] [Crc] in
/-- A subchannel that was not kept is kept when its bit is toggled. -/
theorem kept_toggle {k : Fin MAX_SUBCHANNELS} (hkept : ¬ (sender.linkTo receiver).Kept k)
    (hstate : receiver'.channel.inReliableState =
      receiver.channel.inReliableState ^^^ (1#8 <<< k.val)) (l : Fin MAX_SUBCHANNELS) :
    (sender.linkTo receiver').Kept l ↔ l = k ∨ (sender.linkTo receiver).Kept l := by
  have hbit := getLsbD_xor_mask receiver.channel.inReliableState k l
  simp only [ToggleLink.Kept, linkTo, hstate] at hkept ⊢
  rw [hbit]
  by_cases hl : l = k
  · subst hl
    simpa using Bool.eq_not_of_ne hkept
  · simp [hl]

omit [BitstreamIo] in
/-- The fragments of a subchannel land when its bit is toggled. -/
theorem landed_toggle (hs : sender.Sound c) {stream : OutgoingReliableData}
    {queue : List OutgoingReliableData}
    (hqueue : sender.channel.outgoingReliableData 0 = stream :: queue)
    {k : Fin MAX_SUBCHANNELS} (hbusy : (sender.channel.outgoingSubchannels k).state ≠ free)
    (hkept : ¬ (sender.linkTo receiver).Kept k)
    (hstate : receiver'.channel.inReliableState =
      receiver.channel.inReliableState ^^^ (1#8 <<< k.val)) :
    sender.landed receiver' stream.sentFragments = sender.landed receiver stream.sentFragments ∪
      (sender.channel.outgoingSubchannels k).range := by
  refine InFlight.landed_keep (hs.books.inside stream (Bookkeeping.mem_head? hqueue) k hbusy)
    (fun l hl => ?_) (kept_toggle hkept hstate)
  by_cases hfree : (sender.channel.outgoingSubchannels l).state = free
  · simp [SubChannel.range, hs.books.free_empty l hfree]
  · exact hs.books.disjoint k l (Ne.symm hl) hbusy hfree

omit [BitstreamIo] in
omit [Crc] in
/-- The fragments that a section brings have not landed before. -/
theorem Brings.disjoint {s : Section} (h : Brings sender receiver s) (n : Nat) :
    Disjoint (sender.landed receiver n) s.fragment.range := by
  rw [h.holds.range]
  exact InFlight.disjoint_landed h.kept

omit [BitstreamIo] in
/-- A section brings at least one fragment. -/
theorem Brings.num_pos {s : Section} (h : Brings sender receiver s) (hs : sender.Sound c) :
    0 < s.fragment.num := h.holds.num ▸ hs.books.busy s.subchannel h.busy

omit [BitstreamIo] in
/-- Only fragments of the transfer at the front can have landed. -/
theorem landed_subset (hs : sender.Sound c) {stream : OutgoingReliableData}
    {queue : List OutgoingReliableData}
    (hqueue : sender.channel.outgoingReliableData 0 = stream :: queue) :
    sender.landed receiver stream.sentFragments ⊆ Finset.range (fragments stream.data.length) :=
  InFlight.landed_subset.trans (Finset.range_subset_range.mpr (hs.books.front_total hqueue))

/-- New fragments are refused because nothing has landed, or they land. -/
theorem Transfers.takes (h : Transfers bare sender receiver) (hs : sender.Sound c) {s : Section}
    (hbrings : Brings sender receiver s) {p : Packet} {mid : NetChannel}
    (hheader : NetChannel.readHeader { data := p.bytes, pos := 0 } p.bytes receiver.channel =
      (.ok (p.flags, { data := p.bytes, pos := 128 }), mid))
    (hincoming : mid.incomingReliableData = receiver.channel.incomingReliableData)
    (hreliable : p.reliable = some s) {stream : OutgoingReliableData}
    {queue : List OutgoingReliableData}
    (hqueue : sender.channel.outgoingReliableData 0 = stream :: queue)
    (hdata : stream.data = s.fragment.data) {messages : List Message}
    (hdecodes : DecodesTo messages stream.data) :
    (NetChannel.readPacket p.bytes receiver.channel = (.err .noActiveSubchannelData, mid) ∧
        sender.landed receiver stream.sentFragments = ∅ ∧ s.fragment.start ≠ 0) ∨
      ∃ later, NetChannel.readPacket p.bytes receiver.channel =
          (NetChannel.readMessages (NetChannel.behindSection p) p.bytes.length
            (if sender.landed receiver stream.sentFragments ∪ s.fragment.range =
              Finset.range (fragments s.fragment.data.length) then messages else []), later) ∧
        later.inReliableState = mid.inReliableState ^^^ (1#8 <<< s.subchannel.val) ∧
        Assembles s.fragment.data (sender.landed receiver stream.sentFragments ∪ s.fragment.range)
          (later.incomingReliableData 0) ∧
        later.incomingReliableData 1 = none := by
  have hslot := h.incoming
  rw [progress, hqueue, List.head?_cons, Option.map_some, hdata, ← hincoming] at hslot
  exact NetChannel.readPacket_assembles hheader hreliable hslot (hincoming ▸ h.file)
    (hdata ▸ landed_subset hs hqueue) (hbrings.disjoint _) (hbrings.num_pos hs) (hdata ▸ hdecodes)

omit [BitstreamIo] in
/-- The receiver takes new fragments of the transfer at the front into its slot,
and returns the messages of the transfer with the last of them. -/
theorem Transfers.store (h : Transfers bare sender receiver) (hs : sender.Sound c) {s : Section}
    (hbrings : Brings sender receiver s) {stream : OutgoingReliableData}
    {queue : List OutgoingReliableData}
    (hqueue : sender.channel.outgoingReliableData 0 = stream :: queue)
    (hdata : stream.data = s.fragment.data) {messages : List Message}
    (htake :
      sender.queued.take (sender.popped + 1) = sender.queued.take sender.popped ++ [messages])
    (htoggled : receiver'.channel.inReliableState =
      receiver.channel.inReliableState ^^^ (1#8 <<< s.subchannel.val))
    (hslot :
      Assembles s.fragment.data (sender.landed receiver stream.sentFragments ∪ s.fragment.range)
        (receiver'.channel.incomingReliableData 0))
    (hfile : receiver'.channel.incomingReliableData 1 = none)
    (hreturned : bare → receiver'.returned.flatten = receiver.returned.flatten ++
      if sender.landed receiver stream.sentFragments ∪ s.fragment.range =
        Finset.range (fragments s.fragment.data.length) then messages else []) :
    Proceeds bare sender receiver sender receiver' := by
  have hprogress : sender.progress receiver =
      some (s.fragment.data, sender.landed receiver stream.sentFragments) := by
    rw [progress, hqueue, List.head?_cons, Option.map_some, hdata]
  have hprogress' : sender.progress receiver' = some (s.fragment.data,
      sender.landed receiver stream.sentFragments ∪ s.fragment.range) := by
    rw [progress, hqueue, List.head?_cons, Option.map_some, hdata,
      landed_toggle hs hqueue hbrings.busy hbrings.kept htoggled, hbrings.holds.range]
  -- the transfer was not complete without these fragments
  have hmissing : sender.landed receiver stream.sentFragments ≠
      Finset.range (fragments s.fragment.data.length) := by
    intro hfull
    have hpos := hbrings.num_pos hs
    have hstart : s.fragment.start ∈ s.fragment.range := by
      simp only [Fragment.range, Finset.mem_Ico]
      omega
    exact Finset.disjoint_left.mp (hbrings.disjoint _) (hfull ▸ s.fragment.range_subset hstart)
      hstart
  have hdelivered : sender.delivered receiver = sender.popped := by
    rw [delivered, hprogress]
    exact if_neg hmissing
  have hbefore := h.returned
  rw [hdelivered] at hbefore
  refine ⟨⟨?incoming, hfile, ?returned⟩, List.prefix_refl _, Nat.le_refl _,
    hdelivered.trans_le (popped_le_delivered sender receiver')⟩
  case incoming =>
    rw [hprogress']
    exact hslot
  case returned =>
    intro hnone
    rw [hreturned hnone, delivered, hprogress', hbefore hnone]
    dsimp only
    split
    · rw [htake, List.flatten_append, List.flatten_singleton]
    · rw [List.append_nil]

/-- A section that brings fragments is refused, or its fragments land next to those
that were there, and the transfer is handed over once it has all of them. -/
theorem Transfers.read_section (h : Transfers bare sender receiver)
    (hsupplies : sender.Supplies bare c)
    (hs : sender.Sound c) {s : Section} (hbrings : Brings sender receiver s) {p : Packet}
    {mid : NetChannel}
    (hheader : NetChannel.readHeader { data := p.bytes, pos := 0 } p.bytes receiver.channel =
      (.ok (p.flags, { data := p.bytes, pos := 128 }), mid))
    (hincoming : mid.incomingReliableData = receiver.channel.incomingReliableData)
    (hstate : mid.inReliableState = receiver.channel.inReliableState)
    (hreliable : p.reliable = some s) (hbare : bare → p.messages = [])
    {outcome : Result (List Message)}
    (hreturned : receiver'.returned =
      match outcome with
      | .ok messages => receiver.returned ++ [messages]
      | _ => receiver.returned)
    (hpacket : NetChannel.readPacket p.bytes receiver.channel = (outcome, receiver'.channel)) :
    Proceeds bare sender receiver sender receiver' := by
  obtain ⟨stream, queue, hqueue, hdata⟩ := hbrings.holds.data
  obtain ⟨messages, hdecodes, htake⟩ := hsupplies.front hqueue
  obtain ⟨hrefused, -⟩ | ⟨later, hread, htoggled, hlater, hfile⟩ :=
    h.takes hs hbrings hheader hincoming hreliable hqueue hdata hdecodes
  · -- nothing has opened the transfer yet
    obtain ⟨rfl, hchannel⟩ := Prod.mk.inj (hrefused.symm.trans hpacket)
    exact h.same_receiver (hchannel ▸ hstate) (hchannel ▸ hincoming) fun _ => by rw [hreturned]
  · obtain ⟨rfl, rfl⟩ := Prod.mk.inj (hread.symm.trans hpacket)
    rw [hstate] at htoggled
    refine h.store hs hbrings hqueue hdata htake htoggled hlater hfile fun hnone => ?_
    rw [hreturned, NetChannel.readMessages_behind_bare (hbare hnone)]
    simp

/-- Whatever packet of the sender the receiver reads, the transfers go on, in order
and without repetition. -/
theorem Transfers.read_receiver (h : Transfers bare sender receiver)
    (hsupplies : sender.Supplies bare c)
    (hs : sender.Sound c) (hr : receiver.Sound c) (hlink : (sender.linkTo receiver).Inv)
    (hback : (receiver.linkTo sender).Inv) {d : Datagram} (hd : d ∈ sender.written)
    (hread : receiver.read d = some receiver') :
    Proceeds bare sender receiver sender receiver' := by
  obtain ⟨outcome, hpacket, -, hpeer⟩ := read_eq_some hread
  have hreturned : receiver'.returned = _ := congrArg Peer.returned hpeer
  obtain ⟨p, hp, hbare, hcarried⟩ := hsupplies.carried d hd
  obtain ⟨-, e, -, -, herr⟩ | ⟨hdue, mid, hheader, hacknowledged⟩ :=
    readPacket_cases_of_writes hr hs hback hd hp
  · obtain ⟨rfl, hchannel⟩ := Prod.mk.inj (herr.symm.trans hpacket)
    exact h.same_receiver (by rw [← hchannel]) (by rw [← hchannel]) fun _ => by rw [hreturned]
  · have hincoming : mid.incomingReliableData = receiver.channel.incomingReliableData := by
      rw [hacknowledged.others]
    have hstate : mid.inReliableState = receiver.channel.inReliableState := by
      rw [hacknowledged.others]
    rw [hp.bytes] at hpacket
    cases hreliable : p.reliable with
    | none =>
        obtain ⟨rfl, rfl⟩ := Prod.mk.inj
          ((NetChannel.readPacket_of_none hheader hreliable).symm.trans hpacket)
        refine h.same_receiver hstate hincoming fun hnone => ?_
        rw [hreturned, NetChannel.readMessages_behind_bare (hbare hnone)]
        simp
    | some s =>
        have hbrings := Brings.of_fresh hlink hd hdue.lt hp hreliable (hcarried s hreliable)
        exact h.read_section hsupplies hs hbrings hheader hincoming hstate hreliable hbare hreturned
          hpacket

end

end Peer

/-! ## The network -/

namespace Action

variable [BitstreamIo]

/-- What the action queues is small and is read back from its transfer. -/
def Recoverable : Action → Prop
  | .queue _ messages => ∀ data, NetChannel.encodeMessages messages = .ok data →
      data.length < 2 ^ 26 ∧ DecodesTo messages data
  | _ => True

omit [BitstreamIo] in
/-- What the action writes has no messages of its own. -/
def Bare : Action → Prop
  | .write _ messages => messages = []
  | _ => True

/-- A list of messages that can be recovered is small enough to be sent. -/
theorem Recoverable.small {action : Action} (h : action.Recoverable) : action.Small := by
  cases action with
  | queue p messages => exact fun data hdata => (h data hdata).1
  | write p messages => trivial
  | deliver p index => trivial

end Action

namespace Peers

variable [BitstreamIo] [Crc] {bare : Prop} {c : BitVec 32} {net net' : Peers}

/-- Both parties follow the protocol, and both directions transfer what is queued. -/
structure Reliable (bare : Prop) (c : BitVec 32) (net : Peers) : Prop where
  honest : net.Honest c
  supplies : ∀ p, (net p).Supplies bare c
  transfers : ∀ p, (net p).Transfers bare (net p.other)

/-- Two new channels have delivered all that was queued, which is nothing. -/
theorem Reliable.new {configuration : Party → Configuration}
    (hmax : ∀ p, 256 ≤ (configuration p).server.maxReliablePacketSize ∧
      (configuration p).server.maxReliablePacketSize ≤ 2047) :
    (Peers.new c configuration).Reliable bare c := by
  have hsupplies : ∀ p, (Peers.new c configuration p).Supplies bare c := by
    intro p
    refine ⟨by simp [Peers.new, Peer.new], Nat.le_refl 0, ?_⟩
    simp [Peers.new, Peer.new, NetChannel.new]
  refine ⟨Honest.new hmax, hsupplies, fun p => (hsupplies p).transfers ?_ rfl rfl ?_⟩
  · simp [Peers.new, Peer.new, NetChannel.new]
  · simp [Peers.new, Peer.new]

omit [BitstreamIo] [Crc] in
/-- A step of one party that both transfers go on in is one that the transfers of
each party go on in. -/
theorem proceeds_update {p : Party} {peer : Peer}
    (hself : (net p).Proceeds bare (net p.other) peer (net p.other))
    (hother : (net p.other).Proceeds bare (net p) (net p.other) peer) (q : Party) :
    (net q).Proceeds bare (net q.other) (Function.update net p peer q)
    (Function.update net p peer q.other) := by
  obtain rfl | rfl := p.eq_or_eq_other q
  · rwa [Function.update_self, update_other]
  · rwa [update_other, Party.other_other, Function.update_self]

/-- Each action of the network keeps the transfers of both parties reliable, and
they go on by it. -/
theorem Reliable.step (h : net.Reliable bare c) {action : Action}
    (hrecoverable : action.Recoverable)
    (hbare : bare → action.Bare) (hstep : net.step action = some net') :
    net'.Reliable bare c ∧ ∀ q, (net q).Proceeds bare (net q.other) (net' q) (net' q.other) := by
  have hhonest := h.honest.step hrecoverable.small hstep
  have hback : ∀ p, (net p.other).Transfers bare (net p) := fun p => by
    have := h.transfers p.other
    rwa [Party.other_other] at this
  suffices hnext : (∀ q, (net' q).Supplies bare c) ∧
      ∀ q, (net q).Proceeds bare (net q.other) (net' q) (net' q.other) from
    ⟨⟨hhonest, hnext.1, fun q => (hnext.2 q).transfers⟩, hnext.2⟩
  cases action with
  | queue p messages =>
      obtain ⟨peer, hqueue, rfl⟩ := Option.map_eq_some_iff.mp hstep
      have hpeer := (h.supplies p).queue (fun data hdata => (hrecoverable data hdata).2) hqueue
      refine
        ⟨forall_update (P := fun _ peer => peer.Supplies bare c) hpeer (h.supplies p.other), ?_⟩
      exact proceeds_update ((h.transfers p).queue_sender (h.supplies p) hpeer hqueue)
        ((hback p).queue_receiver hqueue)
  | write p messages =>
      obtain ⟨peer, hwrite, rfl⟩ := Option.map_eq_some_iff.mp hstep
      have hpeer := (h.supplies p).write (h.honest.sound p) (h.honest.inv p) hbare hwrite
      refine
        ⟨forall_update (P := fun _ peer => peer.Supplies bare c) hpeer (h.supplies p.other), ?_⟩
      exact proceeds_update
        ((h.transfers p).write_sender (h.honest.sound p) (h.honest.inv p) hwrite)
        ((hback p).write_receiver (h.honest.sound p) hwrite)
  | deliver p index =>
      obtain ⟨d, hd, peer, hread, rfl⟩ := step_deliver hstep
      have hlink := h.honest.inv_other p
      have hlink' := hhonest.inv_other p
      rw [Function.update_self, Function.update_of_ne p.ne_other] at hlink'
      have hsettles := Peer.read_settles (h.honest.sound p.other) (h.honest.sound p) hlink hd hread
      have hpeer := (h.supplies p.other).read hsettles
      refine
        ⟨forall_update (P := fun _ peer => peer.Supplies bare c) hpeer (h.supplies p.other.other),
        proceeds_update ?_ ?_⟩
      · rw [Party.other_other]
        exact (hback p).read_sender hpeer (h.honest.sound p.other).books hlink' hsettles
      · rw [Party.other_other]
        exact (h.transfers p).read_receiver (h.supplies p) (h.honest.sound p)
          (h.honest.sound p.other)
          (h.honest.inv p) hlink hd hread

/-- The direction from `p`, as its users see it. -/
def Reliable.fifo (h : net.Reliable bare c) (p : Party) : Fifo (List Message) where
  sent := (net p).queued
  received := (net p).delivered (net p.other)
  retired := (net p).popped
  retired_le := Peer.popped_le_delivered _ _
  received_le := (h.supplies p).delivered_le _

/-- A step of the parties is some steps of two reliable channels. -/
theorem Reliable.steps (h : net.Reliable bare c) {action : Action}
    (hrecoverable : action.Recoverable)
    (hbare : bare → action.Bare) (hstep : net.step action = some net') :
    ∃ h' : net'.Reliable bare c, ∀ q, Fifo.Steps (h.fifo q) (h'.fifo q) := by
  obtain ⟨h', hproceeds⟩ := h.step hrecoverable hbare hstep
  exact ⟨h', fun q => .of_le (hproceeds q).queued (hproceeds q).delivered (hproceeds q).popped⟩

/-- By induction on the actions: every run is a run of two queues that deliver first
what was queued first. -/
theorem Reliable.run (h : net.Reliable bare c) {actions : List Action}
    (hrecoverable : ∀ action ∈ actions, action.Recoverable)
    (hbare : bare → ∀ action ∈ actions, action.Bare) (hrun : net.run actions = some net') :
    ∃ h' : net'.Reliable bare c, ∀ q, Fifo.Steps (h.fifo q) (h'.fifo q) := by
  have hok : ∀ action ∈ actions, action.Recoverable ∧ (bare → action.Bare) := fun action haction =>
    ⟨hrecoverable action haction, fun hb => hbare hb action haction⟩
  refine Run.induction_of
    (I := fun now => ∃ h' : now.Reliable bare c, ∀ q, Fifo.Steps (h.fifo q) (h'.fifo q))
    (fun now action next hnow hok hstep => ?_) ⟨h, fun _ => .refl⟩ hok hrun
  obtain ⟨hnow, hsteps⟩ := hnow
  obtain ⟨hnext, hmore⟩ := hnow.steps hok.1 hok.2 hstep
  exact ⟨hnext, fun q => (hsteps q).trans (hmore q)⟩

/-- What the other party returned is what was received. -/
theorem Reliable.returned (h : net.Reliable bare c) (hbare : bare) (p : Party) :
    (net p.other).returned.flatten = (h.fifo p).output.flatten := (h.transfers p).returned hbare

/-- The lists that are queued are returned by the other party, in order, once and
as they were, and a transfer is only popped after it was returned. -/
theorem run_delivers {configuration : Party → Configuration} {actions : List Action}
    (hmax : ∀ p, 256 ≤ (configuration p).server.maxReliablePacketSize ∧
      (configuration p).server.maxReliablePacketSize ≤ 2047)
    (hrecoverable : ∀ action ∈ actions, action.Recoverable)
    (hbare : ∀ action ∈ actions, action.Bare)
    (hrun : (new c configuration).run actions = some net) (p : Party) :
    ∃ d, (net p).popped ≤ d ∧ d ≤ (net p).queued.length ∧
      (net p.other).returned.flatten = ((net p).queued.take d).flatten := by
  have hnew : (new c configuration).Reliable True c := Reliable.new hmax
  obtain ⟨h, -⟩ := hnew.run hrecoverable (fun _ => hbare) hrun
  exact ⟨(h.fifo p).received, (h.fifo p).retired_le, (h.fifo p).received_le, h.returned trivial p⟩

end Peers

/-- A list that is queued, carried over and acknowledged. -/
theorem Peers.run_delivers_print : ∃ net,
    (Peers.new 5#32 fun _ => Configuration.loadDefault).run
      [.queue .a [.print ⟨"x"⟩], .write .a [], .deliver .a 0, .write .b [], .deliver .b 0] =
        some net ∧
      ∃ d, (net .a).popped ≤ d ∧ d ≤ (net .a).queued.length ∧
        (net .b).returned.flatten = ((net .a).queued.take d).flatten := by
  have hrun : ((Peers.new 5#32 fun _ => Configuration.loadDefault).run
      [.queue .a [.print ⟨"x"⟩], .write .a [], .deliver .a 0, .write .b [],
        .deliver .b 0]).isSome := by
    decide +kernel
  have hencode : NetChannel.encodeMessages [.print ⟨"x"⟩] = .ok [7, 30, 0] := by decide +kernel
  have hdecodes : DecodesTo [.print ⟨"x"⟩] [7, 30, 0] := by
    show NetChannel.readMessages _ _ _ = _
    decide +kernel
  refine ⟨_, (Option.some_get hrun).symm,
    run_delivers (fun _ => ⟨by decide, by decide⟩) ?_ ?_ (Option.some_get hrun).symm .a⟩
  · simp [Action.Recoverable, hencode, hdecodes]
  · simp [Action.Bare]

end QuickplayServer
