import QuickplayServer.Net.NetChannel
import QuickplayServer.Net.TextMessage

/-!
# QuickplayServer.Net.WellFormed

What a packet can say.

A channel hands over nothing but well-formed messages, whatever bytes it is
given and whatever state it is in: every text is within the limit of its
reader and free of NUL bytes, and a `SetConVars` has at most 255 pairs.
-/

namespace QuickplayServer

/-- The text has no NUL byte and at most `limit` bytes. -/
structure Within (limit : Nat) (s : String) : Prop where
  noNul : (0 : UInt8) ∉ asBytes s
  le : (asBytes s).length ≤ limit

section

variable [BitstreamIo]

theorem readString_within {limit : Nat} {s : String} {r r' : BitReader} (hpos : 0 < limit)
    (h : readString limit r = .ok (s, r')) : Within limit s := by
  obtain ⟨hnul, ⟨hlt, -, -⟩ | ⟨heq, -, -⟩⟩ := readString_sound hpos h
  · exact ⟨hnul, hlt.le⟩
  · exact ⟨hnul, heq.le⟩

namespace Message

omit [BitstreamIo] in
/-- A message that a client can send. -/
def WellFormed : Message → Prop
  | .disconnect message => Within 1024 message.reason
  | .print message => Within 2048 message.text
  | .setConVars message => message.convars.length < 256 ∧
      ∀ convar ∈ message.convars, Within 260 convar.1 ∧ Within 260 convar.2
  | .signonState message => message.signonState < 256 ∧
      -2 ^ 31 ≤ message.spawnCount ∧ message.spawnCount < 2 ^ 31
  | .stringCmd _ => False

theorem readConVars_within {numVars : Nat} {r r' : BitReader} {convars : List (String × String)}
    (h : readConVars numVars r = .ok (convars, r')) :
    convars.length = numVars ∧ ∀ convar ∈ convars, Within 260 convar.1 ∧ Within 260 convar.2 := by
  induction numVars generalizing r convars with
  | zero =>
      cases h
      simp
  | succ numVars ih =>
      obtain ⟨⟨name, r₁⟩, hname, h⟩ := Outcome.bind_eq_ok.mp h
      obtain ⟨⟨value, r₂⟩, hvalue, h⟩ := Outcome.bind_eq_ok.mp h
      obtain ⟨⟨others, r₃⟩, hothers, h⟩ := Outcome.bind_eq_ok.mp h
      cases h
      obtain ⟨hlength, hall⟩ := ih hothers
      refine ⟨by rw [List.length_cons, hlength], List.forall_mem_cons.mpr ⟨⟨?_, ?_⟩, hall⟩⟩
      · exact readString_within (by decide) hname
      · exact readString_within (by decide) hvalue

theorem read_wellFormed {messageType : Nat} {r r' : BitReader} {message : Message}
    (h : read r messageType = .ok (message, r')) : message.WellFormed := by
  unfold read at h
  split at h
  · obtain ⟨⟨reason, r₁⟩, hreason, h⟩ := Outcome.bind_eq_ok.mp h
    cases h
    exact readString_within (by decide) hreason
  · obtain ⟨⟨numVars, r₁⟩, hnum, h⟩ := Outcome.bind_eq_ok.mp h
    obtain ⟨⟨convars, r₂⟩, hconvars, h⟩ := Outcome.bind_eq_ok.mp h
    cases h
    obtain ⟨hlength, hall⟩ := readConVars_within hconvars
    exact ⟨hlength ▸ (BitReader.readIn_eq_ok.mp hnum).1, hall⟩
  · obtain ⟨⟨state, r₁⟩, hstate, h⟩ := Outcome.bind_eq_ok.mp h
    obtain ⟨⟨count, r₂⟩, -, h⟩ := Outcome.bind_eq_ok.mp h
    cases h
    refine ⟨(BitReader.readIn_eq_ok.mp hstate).1, ?_, ?_⟩
    · exact BitVec.le_toInt _
    · exact BitVec.toInt_lt
  · obtain ⟨⟨text, r₁⟩, htext, h⟩ := Outcome.bind_eq_ok.mp h
    cases h
    exact readString_within (by decide) htext
  · cases h

end Message

namespace NetChannel

open Message (WellFormed)
open Method (Triple)

theorem readMessages_wellFormed {r : BitReader} {dataLen : Nat} {messages messages' : List Message}
    (hmessages : ∀ m ∈ messages, m.WellFormed)
    (h : readMessages r dataLen messages = .ok messages') : ∀ m ∈ messages', m.WellFormed := by
  have hloop : ∀ fuel r (messages : List Message), (∀ m ∈ messages, m.WellFormed) →
      readMessagesLoop dataLen fuel r messages = .ok messages' →
      ∀ m ∈ messages', m.WellFormed := by
    intro fuel
    induction fuel with
    | zero =>
        intro r messages _ h
        cases h
    | succ fuel ih =>
        intro r messages hmessages h
        obtain ⟨left, -, h⟩ := Outcome.bind_eq_ok.mp h
        split at h
        · cases h
          exact hmessages
        · obtain ⟨⟨messageType, r₁⟩, -, h⟩ := Outcome.bind_eq_ok.mp h
          obtain ⟨⟨message, r₂⟩, hread, h⟩ := Outcome.bind_eq_ok.mp h
          refine ih r₂ (messages ++ [message]) (fun m hm => ?_) h
          obtain hm | hm := List.mem_append.mp hm
          · exact hmessages m hm
          · exact List.mem_singleton.mp hm ▸ Message.read_wellFormed hread
  exact hloop _ _ _ hmessages h

theorem readReliableMessages_wellFormed (i : Fin MAX_STREAMS) {messages : List Message}
    (hmessages : ∀ m ∈ messages, m.WellFormed) :
    Triple (fun _ => True) (readReliableMessages i messages)
      (fun messages' _ => ∀ m ∈ messages', m.WellFormed) fun _ _ => True := by
  refine Triple.get_bind fun self _ => ?_
  cases self.incomingReliableData i with
  | none => exact Triple.pure fun _ _ => hmessages
  | some receivedData =>
      refine Triple.bind (Triple.any _)
        fun total => Triple.ite ?_ (Triple.ite ?_ (Triple.ite ?_ ?_))
      · exact Triple.pure fun _ _ => hmessages
      · exact Triple.fail fun _ _ => trivial
      · refine Triple.bind (Q := fun messages' _ => ∀ m ∈ messages', m.WellFormed)
          (Triple.lift (fun messages' _ h _ => readMessages_wellFormed hmessages h)
            fun _ _ _ _ => trivial) fun messages' => ?_
        exact Triple.bind (Q := fun _ _ => ∀ m ∈ messages', m.WellFormed)
          (Triple.modify fun _ h => h) fun _ => Triple.pure fun _ h => h
      · exact Triple.fail fun _ _ => trivial

theorem readAllReliableMessages_wellFormed (streams : List (Fin MAX_STREAMS))
    {messages : List Message} (hmessages : ∀ m ∈ messages, m.WellFormed) :
    Triple (fun _ => True) (readAllReliableMessages streams messages)
      (fun messages' _ => ∀ m ∈ messages', m.WellFormed) fun _ _ => True := by
  induction streams generalizing messages with
  | nil => exact Triple.pure fun _ _ => hmessages
  | cons i streams ih =>
      refine Triple.bind (readReliableMessages_wellFormed i hmessages) fun messages' => ?_
      exact fun self hmessages' => ih hmessages' self trivial

/-- Every message that is handed over is well-formed, whatever the packet is
and whatever transfers it completes. -/
theorem readPacket_wellFormed [Crc] {packet : List UInt8} {self self' : NetChannel}
    {messages : List Message} (h : readPacket packet self = (.ok messages, self')) :
    ∀ m ∈ messages, m.WellFormed := by
  unfold readPacket at h
  obtain ⟨⟨flags, reader⟩, self₁, -, h⟩ := Method.bind_eq_ok.mp h
  dsimp only at h
  split at h
  · obtain ⟨⟨messages₁, reader₁⟩, self₂, hsection, h⟩ := Method.bind_eq_ok.mp h
    unfold readReliableSection at hsection
    obtain ⟨⟨subchannel, reader₂⟩, -, hsection⟩ := Method.lift_bind_eq_ok.mp hsection
    obtain ⟨reader₃, self₃, -, hsection⟩ := Method.bind_eq_ok.mp hsection
    obtain ⟨_, self₄, -, hsection⟩ := Method.bind_eq_ok.mp hsection
    obtain ⟨messages₂, self₅, hreliable, hsection⟩ := Method.bind_eq_ok.mp hsection
    obtain ⟨heq, rfl⟩ := Prod.mk.inj hsection
    obtain ⟨rfl, rfl⟩ := Prod.mk.inj (Outcome.ok.inj heq)
    have hmessages := (readAllReliableMessages_wellFormed _ (by simp)).of_ok trivial hreliable
    exact readMessages_wellFormed hmessages (Prod.mk.inj h).1
  · exact readMessages_wellFormed (by simp) (Prod.mk.inj h).1

end NetChannel

end

end QuickplayServer
