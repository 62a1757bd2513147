import QuickplayServer.Lib.Run
import QuickplayServer.Net.Bookkeeping
import QuickplayServer.Net.ReadFrame
import QuickplayServer.Net.ReadMessages

/-!
# QuickplayServer.Net.Calls

Runs of one channel: any calls in any order, with any packets to read.

A call that fails leaves the channel behind as it is and the run goes on; a
call that panics ends the run.
-/

namespace QuickplayServer

namespace NetChannel

open Method (Triple)
open Outcome (FailsIn)

/-! ## The books through every call -/

/-- The method leaves the books in order, and does not fail with `bad`. -/
abbrev KeepsOrder {α : Type} (bad : Error) (m : Method NetChannel Error α) : Prop :=
  Triple Bookkeeping m (fun _ => Bookkeeping) fun e self => Bookkeeping self ∧ e ≠ bad

/-- An error that is not one of the sender's is none of them. -/
theorem ne_of_ofSender {bad e : Error} (hbad : bad.ofSender = true) (he : e.ofSender = false) :
    e ≠ bad := by
  rintro rfl
  simp [hbad] at he

/-- Pure code that has no error of the sender keeps the books in order. -/
theorem lift_keepsOrder {α : Type} {bad : Error} (hbad : bad.ofSender = true) {x : Result α}
    (h : NotOfSender x) : KeepsOrder bad (liftM x) :=
  Triple.lift (fun _ _ _ hs => hs) fun e _ he hs => ⟨hs, ne_of_ofSender hbad (h e he)⟩

/-- What only touches the incoming transfers leaves the books alone. -/
theorem OnlyIncoming.keepsOrder {α : Type} {bad : Error} (hbad : bad.ofSender = true)
    {m : Method NetChannel Error α} (h : ∀ self, OnlyIncoming self m) : KeepsOrder bad m := by
  have hframe : ∀ {self self' : NetChannel}, Bookkeeping self → UpToIncoming self self' →
    Bookkeeping self' := by
    intro self self' hs hself'
    rw [hself']
    exact hs.congr rfl rfl rfl
  intro self hs
  have hm := h self self rfl
  revert hm
  obtain ⟨o, self'⟩ := m self
  cases o with
  | ok a => exact fun hm => hframe hs hm
  | err e => exact fun hm => ⟨hframe hs hm.1, ne_of_ofSender hbad hm.2⟩
  | panic => exact id

/-- An acknowledgement, whatever it says, fails only by being rejected. -/
theorem updateOutgoingSubchannels_keepsOrder (sequenceAck : Nat) (acked : BitVec 8) :
    KeepsOrder .noStreamForAck (updateOutgoingSubchannels sequenceAck acked) := by
  refine Triple.forM (fun k => ?_) _
  intro self h
  by_cases hk : (self.outgoingSubchannels k).Rejects (self.Agrees acked k) sequenceAck
  · obtain ⟨e, he, heq⟩ := updateOutgoingSubchannel_of_rejects hk
    rw [heq]
    obtain rfl | ⟨_, _, _, rfl⟩ := he <;> exact ⟨h, by simp⟩
  · obtain ⟨self', heq, hsettled, hbooks⟩ := updateOutgoingSubchannel_of_accepts h hk
    rw [heq]
    exact hbooks

/-- Popping keeps the books in order and returns no error. -/
theorem popCompletedOutgoingTransfers_keepsOrder (bad : Error) :
    KeepsOrder bad popCompletedOutgoingTransfers := by
  intro self h
  rw [popCompletedOutgoingTransfers_eq h]
  exact popped_keeps h

/-- A header, forged or not, keeps the books. -/
theorem acceptSequence_keepsOrder (sequence sequenceAck reliableState nChoked : Nat) :
    KeepsOrder .noStreamForAck (acceptSequence sequence sequenceAck reliableState nChoked) := by
  refine Triple.bind (Triple.get fun _ h => h) fun self => ?_
  split
  · exact Triple.fail fun _ h => ⟨h, by simp⟩
  · refine Triple.bind (lift_keepsOrder rfl (FailsIn.add32 _ _)) fun _ => ?_
    refine Triple.bind (lift_keepsOrder rfl (FailsIn.add32 _ _)) fun _ => ?_
    refine Triple.bind (lift_keepsOrder rfl (FailsIn.checkedSub _ _)) fun _ => ?_
    split
    · exact Triple.fail fun _ h => ⟨h, by simp⟩
    · refine Triple.bind (updateOutgoingSubchannels_keepsOrder _ _) fun _ => ?_
      refine Triple.bind (Triple.modify fun s h => ?_) fun _ =>
        popCompletedOutgoingTransfers_keepsOrder _
      exact h.congr rfl rfl rfl

section Calls

variable [BitstreamIo]

/-- Queueing a transfer whose size fits its field keeps the books in order. -/
theorem queueReliableMessages_books {self : NetChannel} {messages : List Message}
    (h : Bookkeeping self)
    (hsmall : ∀ data, encodeMessages messages = .ok data → data.length < 2 ^ 26) :
    Bookkeeping (NetChannel.queueReliableMessages messages self).2 := by
  obtain ⟨stream, hencode, hacked, hpending, hok⟩ | ⟨e, herr⟩ :=
    queueReliableMessages_cases messages self
  · rw [hok]
    exact h.enqueue (hsmall _ hencode) hacked hpending
  · rw [herr]
    exact h

/-- Writing the reliable part keeps the books in order, and finds the bytes of its
fragments. -/
theorem writeOutgoingReliableData_keepsOrder (w : BitWriter) :
    KeepsOrder .noSliceForOutgoing (writeOutgoingReliableData w) := by
  intro self h
  have hbooks := filled_keeps h
  cases hfind : self.filled.findSubchannel .waitingToSend with
  | none =>
      rw [writeOutgoingReliableData_of_none h hfind]
      exact hbooks
  | some k =>
      have hbusy : (self.filled.outgoingSubchannels k).state ≠ .free := by
        simp [findSubchannel_eq_some hfind]
      obtain ⟨stream, queue, hqueue⟩ := hbooks.front hbusy
      have hslice : writeFragment self.configuration
          ((self.filled.outgoingSubchannels k).startFragment 0)
          ((self.filled.outgoingSubchannels k).numFragments 0) stream
          ⟨w.bits ++ BitList.ofNat 3 k⟩ ≠ .err .noSliceForOutgoing :=
        writeFragment_ne_noSlice (hbooks.front_small hqueue) (hbooks.busy k hbusy)
          ((hbooks.end_le hqueue hbusy).trans (hbooks.front_total hqueue)) _
      rw [writeOutgoingReliableData_of_some h hfind hqueue]
      revert hslice
      cases writeFragment self.configuration ((self.filled.outgoingSubchannels k).startFragment 0)
        ((self.filled.outgoingSubchannels k).numFragments 0) stream
        ⟨w.bits ++ BitList.ofNat 3 k⟩ with
      | ok w' => exact fun _ => marked_keeps hbooks hbusy
      | err e => exact fun hslice => ⟨hbooks, fun heq => hslice (by rw [heq])⟩
      | panic => exact fun _ => trivial

variable [Crc]

/-- Reading a header keeps the books in order, and finds the transfer for each
acknowledged subchannel. -/
theorem readHeader_keepsOrder (r : BitReader) (packet : List UInt8) :
    KeepsOrder .noStreamForAck (readHeader r packet) := by
  have hfields : KeepsOrder .noStreamForAck (readHeaderFields r packet) := by
    have hframe : ∀ {self self' : NetChannel}, Bookkeeping self → UpToChallenge self self' →
        Bookkeeping self' := by
      intro self self' hs hself'
      rw [hself']
      exact hs.congr rfl rfl rfl
    intro self hs
    have hm := readHeaderFields_upToChallenge self r packet self rfl
    revert hm
    obtain ⟨o, self'⟩ := readHeaderFields r packet self
    cases o with
    | ok a => exact fun hm => hframe hs hm
    | err e => exact fun hm => ⟨hframe hs hm.1, ne_of_ofSender rfl hm.2⟩
    | panic => exact id
  refine Triple.bind hfields fun _ => ?_
  exact Triple.bind (acceptSequence_keepsOrder _ _ _ _) fun _ => Triple.pure fun _ h => h

omit [Crc] in
/-- Reading the reliable part leaves the books alone. -/
theorem readReliableSection_keepsOrder (r : BitReader) :
    KeepsOrder .noStreamForAck (readReliableSection r) := by
  refine Triple.bind (lift_keepsOrder rfl (readIn_notOfSender 3 r)) fun _ => ?_
  refine Triple.bind (OnlyIncoming.keepsOrder rfl fun self => readStreams_onlyIncoming self _ _)
    fun _ => ?_
  refine Triple.bind (Q := fun _ => Bookkeeping) ?_ fun _ => ?_
  · exact Triple.modify fun s h => h.congr rfl rfl rfl
  refine Triple.bind
    (OnlyIncoming.keepsOrder rfl fun self => readAllReliableMessages_onlyIncoming self _ _)
    fun _ => ?_
  exact Triple.pure fun _ h => h

/-- Reading a packet, whatever is in it, keeps the books. -/
theorem readPacket_keepsOrder (packet : List UInt8) :
    KeepsOrder .noStreamForAck (NetChannel.readPacket packet) := by
  refine Triple.bind (readHeader_keepsOrder _ packet) fun x => ?_
  obtain ⟨flags, reader⟩ := x
  dsimp only
  split
  · exact Triple.bind (readReliableSection_keepsOrder _) fun _ =>
      lift_keepsOrder rfl (readMessages_notOfSender _ _ _)
  · exact lift_keepsOrder rfl (readMessages_notOfSender _ _ _)

/-- Writing a packet keeps the books, whether it works out or not. -/
theorem writePacket_keepsOrder (messages : List Message) :
    KeepsOrder .noSliceForOutgoing (NetChannel.writePacket messages) := by
  have hwriteOut : ∀ (n v : Nat) (w : BitWriter), NotOfSender (w.writeOut n v) := fun _ _ _ =>
    FailsIn.ofOption (by rfl) _
  have hheader : ∀ (self : NetChannel) (w : BitWriter), NotOfSender (writeHeader self w) := by
    intro self w
    refine FailsIn.bind (hwriteOut _ _ _) fun _ => FailsIn.bind (hwriteOut _ _ _) fun _ => ?_
    refine FailsIn.bind (hwriteOut _ _ _) fun _ => FailsIn.bind (hwriteOut _ _ _) fun _ => ?_
    exact FailsIn.bind (hwriteOut _ _ _) fun _ => hwriteOut _ _ _
  have hmessages : ∀ w : BitWriter, NotOfSender (Message.writeAll messages w) := by
    intro w
    by_cases hms : ∀ m ∈ messages, m.Writable
    · rw [Message.writeAll_eq hms]
      exact FailsIn.ok _
    · rw [Message.writeAll_of_not_writable hms]
      exact FailsIn.err rfl
  refine Triple.bind (Triple.get fun _ h => h) fun c => ?_
  refine Triple.bind (lift_keepsOrder rfl (hheader c _)) fun _ => ?_
  refine Triple.bind (writeOutgoingReliableData_keepsOrder _) fun _ => ?_
  refine Triple.bind (lift_keepsOrder rfl (hmessages _)) fun _ => ?_
  refine Triple.bind (lift_keepsOrder rfl (FailsIn.ofOption (by rfl) _)) fun _ => ?_
  refine Triple.bind (Triple.get fun _ h => h) fun _ => ?_
  refine Triple.bind (lift_keepsOrder rfl (FailsIn.add32 _ _)) fun _ => ?_
  refine Triple.bind (Triple.modify fun s h => ?_) fun _ => Triple.pure fun _ h => h
  exact h.congr rfl rfl rfl

/-! ## Runs -/

/-- A call of one of the three public methods of a channel. -/
inductive Call where
  | queueReliableMessages (messages : List Message)
  | writePacket (messages : List Message)
  | readPacket (packet : List UInt8)

/-- The channel that a call left behind; `none` if it panicked. -/
def returned {α : Type} : Outcome Error α × NetChannel → Option NetChannel
  | (.panic, _) => none
  | (_, self) => some self

/-- The channel after the call, if it did not panic. -/
def Call.apply (self : NetChannel) : Call → Option NetChannel
  | .queueReliableMessages messages => returned (NetChannel.queueReliableMessages messages self)
  | .writePacket messages => returned (NetChannel.writePacket messages self)
  | .readPacket packet => returned (NetChannel.readPacket packet self)

omit [BitstreamIo] [Crc] in
/-- A call goes on in the state that it leaves, unless it panics. -/
theorem returned_eq_some {α : Type} {x : Outcome Error α × NetChannel} {self : NetChannel} :
    returned x = some self ↔ x.1 ≠ .panic ∧ x.2 = self := by
  obtain ⟨o, s⟩ := x
  cases o <;> simp [returned]

/-- The channel after the calls, if none of them panicked. -/
def run (self : NetChannel) (calls : List Call) : Option NetChannel := Run.run Call.apply self calls

/-- What the call queues is `ok`. -/
def Call.Queues (ok : List UInt8 → Prop) : Call → Prop
  | .queueReliableMessages messages => ∀ data, encodeMessages messages = .ok data → ok data
  | _ => True

omit [Crc] in
/-- What a call queues is in every larger kind. -/
theorem Call.Queues.mono {ok ok' : List UInt8 → Prop} {call : Call} (h : call.Queues ok)
    (hok : ∀ data, ok data → ok' data) : call.Queues ok' := by
  cases call with
  | queueReliableMessages messages => exact fun data hdata => hok data (h data hdata)
  | writePacket messages => trivial
  | readPacket packet => trivial

/-- A queued transfer has fewer than 2^26 bytes. -/
abbrev Call.Small : Call → Prop := Call.Queues (·.length < 2 ^ 26)

/-- The books stay in order through every call that does not panic. -/
theorem Call.apply_books {self self' : NetChannel} {call : Call} (h : Bookkeeping self)
    (hsmall : call.Small) (happly : call.apply self = some self') : Bookkeeping self' := by
  have hkeeps : ∀ {α : Type} {bad : Error} {m : Method NetChannel Error α}, KeepsOrder bad m →
      returned (m self) = some self' → Bookkeeping self' := by
    intro α bad m hm hreturned
    obtain ⟨hpanic, rfl⟩ := returned_eq_some.mp hreturned
    exact Method.Keeps.run (Triple.consequence hm (fun _ => id) (fun _ _ => id) fun _ _ h => h.1) h
      hpanic
  cases call with
  | queueReliableMessages messages =>
      obtain ⟨-, rfl⟩ := returned_eq_some.mp happly
      exact queueReliableMessages_books h hsmall
  | writePacket messages => exact hkeeps (writePacket_keepsOrder messages) happly
  | readPacket packet => exact hkeeps (readPacket_keepsOrder packet) happly

/-- In every run that queues transfers whose size fits its field, the books are in
order. -/
theorem run_books {challenge : BitVec 32} {configuration : Configuration} {calls : List Call}
    {self : NetChannel} (hmax : 256 ≤ configuration.server.maxReliablePacketSize)
    (hsmall : ∀ call ∈ calls, call.Small)
    (hrun : run (new challenge configuration) calls = some self) :
    Bookkeeping self :=
  Run.induction_of (fun _ _ _ h hok happly => Call.apply_books h hok happly)
    (Bookkeeping.new challenge hmax) hsmall hrun

/-- The books of a channel with room for a fragment are in order after every
run of calls with small transfers, whatever packets it reads.  So the pending
fragments never underflow, an acknowledged subchannel always finds its stream,
and the bytes of a subchannel that is sent are always found. -/
theorem run_bookkeeping {challenge : BitVec 32} {configuration : Configuration} {calls : List Call}
    {self : NetChannel} (hmax : 256 ≤ configuration.server.maxReliablePacketSize)
    (hsmall : ∀ call ∈ calls, call.Small)
    (hrun : run (new challenge configuration) calls = some self) :
    Bookkeeping self ∧
      (∀ sequenceAck acked, (updateOutgoingSubchannels sequenceAck acked self).1 ≠ .panic) ∧
      (∀ packet, (NetChannel.readPacket packet self).1 ≠ .err .noStreamForAck) ∧
      ∀ messages, (NetChannel.writePacket messages self).1 ≠ .err .noSliceForOutgoing := by
  have h : Bookkeeping self := run_books hmax hsmall hrun
  refine ⟨h, fun _ _ => updateOutgoingSubchannels_ne_panic h, ?_, ?_⟩
  · intro packet herr
    exact ((readPacket_keepsOrder packet).of_err h (Prod.ext herr rfl)).2 rfl
  · intro messages herr
    exact ((writePacket_keepsOrder messages).of_err h (Prod.ext herr rfl)).2 rfl

end Calls

/-- The invariant, after a message was queued and sent. -/
theorem run_bookkeeping_print : ∃ self,
    run fresh [.queueReliableMessages [.print ⟨"x"⟩], .writePacket [], .readPacket [0]] =
        some self ∧
      Bookkeeping self ∧
      (∀ sequenceAck acked, (updateOutgoingSubchannels sequenceAck acked self).1 ≠ .panic) ∧
      (∀ packet, (readPacket packet self).1 ≠ .err .noStreamForAck) ∧
      ∀ messages, (writePacket messages self).1 ≠ .err .noSliceForOutgoing := by
  have hrun : (run fresh
      [.queueReliableMessages [.print ⟨"x"⟩], .writePacket [], .readPacket [0]]).isSome := by
    decide +kernel
  refine ⟨_, (Option.some_get hrun).symm,
    run_bookkeeping (by decide) ?_ (Option.some_get hrun).symm⟩
  have hsmall : (Call.queueReliableMessages [.print ⟨"x"⟩]).Small := by
    intro data hencode
    obtain rfl : [7, 30, 0] = data := Outcome.ok.inj
      ((show encodeMessages [.print ⟨"x"⟩] = .ok [7, 30, 0] by decide +kernel).symm.trans hencode)
    decide
  simpa [Call.Queues] using hsmall

end NetChannel

end QuickplayServer
