import QuickplayServer.Net.Grammar
import QuickplayServer.Net.ReadSection

/-!
# QuickplayServer.Net.Handover

What `read_reliable_messages` returns, slot by slot.

The streams hand their messages over one after the other, into one list and
with one result (`readAllReliableMessages_eq_handover`).  What a slot hands
over can be told from its transfer (`handover_eq_ok_iff`).
-/

namespace QuickplayServer

open Message (AreMessages)

namespace NetChannel

section

variable [BitstreamIo]

/-! ## Accumulated messages -/

/-- Messages that were read before do not change what is read. -/
theorem readMessages_acc (r : BitReader) (dataLen : Nat) (messages : List Message) :
    readMessages r dataLen messages = (do
      let more ← readMessages r dataLen []
      pure (messages ++ more)) := by
  unfold readMessages
  generalize dataLen * 8 + 1 = fuel
  have hloop : ∀ (fuel : Nat) (r : BitReader) (acc messages : List Message),
      readMessagesLoop dataLen fuel r (messages ++ acc) = (do
        let more ← readMessagesLoop dataLen fuel r acc
        pure (messages ++ more)) := by
    intro fuel
    induction fuel with
    | zero => exact fun _ _ _ => rfl
    | succ fuel ih =>
        intro r acc messages
        simp only [readMessagesLoop]
        cases (Outcome.checkedSub (dataLen * 8) r.positionInBits : Result Nat) with
        | err e => rfl
        | panic => rfl
        | ok left =>
            simp only [Outcome.ok_bind]
            split
            · rfl
            · cases (r.readIn NETMSG_TYPE_BITS : Result _) with
              | err e => rfl
              | panic => rfl
              | ok x =>
                  simp only [Outcome.ok_bind]
                  cases Message.read x.2 x.1 with
                  | err e => rfl
                  | panic => rfl
                  | ok y =>
                      simp only [Outcome.ok_bind]
                      rw [List.append_assoc]
                      exact ih _ _ _
  simpa using hloop fuel r [] messages

/-! ## What a slot hands over -/

/-- The messages that a slot hands over: none unless its transfer is complete. -/
def handover : Option IncomingReliableData → Result (List Message)
  | none => .ok []
  | some receivedData => do
      let totalFragments ← receivedData.totalFragments
      if receivedData.ackedFragments < totalFragments then
        .ok []
      else if receivedData.ackedFragments > totalFragments then
        .err (.fragmentsOverflow receivedData.ackedFragments totalFragments)
      else if receivedData.filename.isNone then
        readMessages { data := receivedData.data, pos := 0 } receivedData.data.length []
      else
        .err .fileUpload

/-- A stream appends what its slot hands over, and touches no other slot. -/
theorem readReliableMessages_eq_handover (self : NetChannel) (i : Fin MAX_STREAMS)
    (messages : List Message) :
    ∃ self', readReliableMessages i messages self =
        ((do
          let more ← handover (self.incomingReliableData i)
          pure (messages ++ more) : Result _), self') ∧
      (∀ j, j ≠ i → self'.incomingReliableData j = self.incomingReliableData j) ∧
      self'.inReliableState = self.inReliableState := by
  unfold readReliableMessages handover
  simp only [Method.get_bind]
  cases hslot : self.incomingReliableData i with
  | none => exact ⟨self, by simp, fun _ _ => rfl, rfl⟩
  | some receivedData =>
      cases htotal : receivedData.totalFragments with
      | err e =>
          simp only [htotal, Method.lift_bind_err, Outcome.err_bind]
          exact ⟨self, rfl, fun _ _ => rfl, rfl⟩
      | panic =>
          simp only [htotal, Method.lift_bind_panic, Outcome.panic_bind]
          exact ⟨self, rfl, fun _ _ => rfl, rfl⟩
      | ok totalFragments =>
          simp only [htotal, Method.lift_bind_ok, Outcome.ok_bind]
          split
          · exact ⟨self, by simp, fun _ _ => rfl, rfl⟩
          · split
            · exact ⟨self, rfl, fun _ _ => rfl, rfl⟩
            · split
              · rw [readMessages_acc]
                cases readMessages { data := receivedData.data, pos := 0 }
                  receivedData.data.length [] with
                | ok more =>
                    exact ⟨self.setIncoming i none, rfl, fun j hj => by simp [hj], rfl⟩
                | err e => exact ⟨self, rfl, fun _ _ => rfl, rfl⟩
                | panic => exact ⟨self, rfl, fun _ _ => rfl, rfl⟩
              · exact ⟨self, rfl, fun _ _ => rfl, rfl⟩

/-- The streams hand over one after the other. -/
theorem readAllReliableMessages_eq_handover (self : NetChannel) :
    ∃ self', readAllReliableMessages (List.finRange MAX_STREAMS) [] self =
        ((do
          let first ← handover (self.incomingReliableData 0)
          let second ← handover (self.incomingReliableData 1)
          pure (first ++ second) : Result _), self') ∧
      self'.inReliableState = self.inReliableState := by
  obtain ⟨mid, hzero, hother, hmid⟩ := readReliableMessages_eq_handover self 0 []
  simp only [finRange_MAX_STREAMS, readAllReliableMessages]
  cases hfirst : handover (self.incomingReliableData 0) with
  | err e => rw [hfirst] at hzero; exact ⟨mid, Method.bind_err hzero, hmid⟩
  | panic => rw [hfirst] at hzero; exact ⟨mid, Method.bind_panic hzero, hmid⟩
  | ok first =>
      obtain ⟨last, hone, -, hlast⟩ := readReliableMessages_eq_handover mid 1 first
      rw [hother 1 (by decide)] at hone
      rw [hfirst, Outcome.ok_bind, Outcome.pure_eq, List.nil_append] at hzero
      refine ⟨last, ?_, hlast.trans hmid⟩
      rw [Method.bind_ok hzero]
      cases hsecond : handover (self.incomingReliableData 1) with
      | err e => rw [hsecond] at hone; exact Method.bind_err hone
      | panic => rw [hsecond] at hone; exact Method.bind_panic hone
      | ok second => rw [hsecond] at hone; exact Method.bind_ok hone

/-- What a slot hands over.  A transfer whose fragments can be counted waits
until all of them are there, and then has to be a list of messages. -/
inductive Yields : Option IncomingReliableData → List Message → Prop
  | empty : Yields none []
  | waits {receivedData : IncomingReliableData} (hsize : receivedData.bytes + 256 < 2 ^ 32)
      (hacked : receivedData.ackedFragments < fragments receivedData.bytes) :
      Yields (some receivedData) []
  | decodes {receivedData : IncomingReliableData} {messages : List Message}
      (hsize : receivedData.bytes + 256 < 2 ^ 32)
      (hacked : receivedData.ackedFragments = fragments receivedData.bytes)
      (hname : receivedData.filename = none)
      (hdata : AreMessages (BitList.ofBytes receivedData.data) messages) :
      Yields (some receivedData) messages

/-- The messages handed over are those that the slot yields, and a slot that
yields none fails. -/
theorem handover_eq_ok_iff {slot : Option IncomingReliableData} {messages : List Message} :
    handover slot = .ok messages ↔ Yields slot messages := by
  have hread : ∀ data messages, readMessages { data, pos := 0 } data.length [] = .ok messages ↔
      AreMessages (BitList.ofBytes data) messages := by
    intro data messages
    exact readMessages_eq_ok_iff (BitReader.inBounds_start data)
  constructor
  · intro h
    cases slot with
    | none =>
        cases h
        exact .empty
    | some receivedData =>
        obtain ⟨total, htotal, h⟩ := Outcome.bind_eq_ok.mp h
        obtain ⟨hsize, rfl⟩ := bytesToFragments_eq_ok htotal
        split at h
        · cases h
          exact .waits hsize ‹_›
        · split at h
          · cases h
          · split at h
            case isTrue hname =>
              exact .decodes hsize (by omega) (Option.isNone_iff_eq_none.mp hname)
                ((hread _ _).mp h)
            case isFalse => cases h
  · intro h
    have htotal : ∀ {receivedData : IncomingReliableData}, receivedData.bytes + 256 < 2 ^ 32 →
        receivedData.totalFragments = .ok (fragments receivedData.bytes) := bytesToFragments_of_lt
    cases h with
    | empty => rfl
    | waits hsize hacked => simp [handover, htotal hsize, hacked]
    | decodes hsize hacked hname hdata =>
        simp only [handover, htotal hsize, hacked, hname, Outcome.ok_bind, Nat.lt_irrefl, gt_iff_lt,
          if_false, Option.isNone_none, if_true]
        exact (hread _ _).mpr hdata

end

/-- A packet with the transfer `[Print "x"]` and the message `Print "y"` behind it. -/
def printPacket : List UInt8 :=
  [1, 0, 0, 0, 0, 0, 0, 0, 33, 52, 126, 0, 5, 0, 0, 0, 200, 192, 129, 7, 128, 35, 15, 0]

end NetChannel

end QuickplayServer
