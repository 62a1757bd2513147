import QuickplayServer.Net.Delivery

/-!
# QuickplayServer.Net.Returned

What a receiver returns of the queued lists when packets carry messages of
their own.

The messages of a completed transfer stand in front of those of the packet that
completes it, in one result.  So the results of the receiver start with parts
that are the queued lists, put together (`Peer.HandedOver`), as long as no
packet that completes a transfer ends in bits that are not messages
(`Peers.Legible`): such a packet is acknowledged and returns nothing.
-/

namespace QuickplayServer

open Message (AreMessages)
open SubChannelState

/-- With the section of the packet all fragments of its transfer have come. -/
def NetChannel.Finishes (self : NetChannel) (p : Packet) : Prop :=
  ∃ s receivedData, p.reliable = some s ∧ self.opened s.fragment = some receivedData ∧
    receivedData.ackedFragments + s.fragment.num = fragments s.fragment.data.length

/-- The fragments that were missing finish the transfer. -/
theorem NetChannel.finishes_of_assembles {self : NetChannel} {p : Packet} {s : Section}
    {got : Finset Nat} (hreliable : p.reliable = some s)
    (hslot : Assembles s.fragment.data got (self.incomingReliableData 0))
    (hgot : got ⊆ Finset.range (fragments s.fragment.data.length))
    (hnew : Disjoint got s.fragment.range) (hpos : 0 < s.fragment.num)
    (hall : got ∪ s.fragment.range = Finset.range (fragments s.fragment.data.length)) :
    self.Finishes p := by
  obtain ⟨-, rfl, hstart⟩ | ⟨receivedData, hopened, hholds, hzero⟩ := hslot.opened hnew hpos
  · -- the first fragment is still missing
    have hle := s.fragment.le
    have hfirst : 0 ∈ ∅ ∪ s.fragment.range := by
      rw [hall, Finset.mem_range]
      omega
    rw [Finset.empty_union, Fragment.range, Finset.mem_Ico] at hfirst
    omega
  · obtain ⟨-, hcomplete⟩ := continued_assembles self hholds hgot hnew hzero
    exact ⟨s, receivedData, hreliable, hopened, hcomplete.mpr hall⟩

namespace Peer

variable {bare : Prop} {peer sender sender' receiver receiver' : Peer} {c : BitVec 32}

/-- The results of the receiver start with parts that are, put together, the
lists that were delivered to it. -/
def HandedOver (sender receiver : Peer) : Prop :=
  ∃ parts, List.Forall₂ (· <+: ·) parts receiver.returned ∧
    parts.flatten = (sender.queued.take (sender.delivered receiver)).flatten

/-- A transfer does not depend on what the receiver has returned. -/
theorem Transfers.with_returned (h : Transfers bare sender receiver) {parts : List (List Message)}
    (hparts : parts.flatten = (sender.queued.take (sender.delivered receiver)).flatten) :
    Transfers True sender { receiver with returned := parts } :=
  ⟨h.incoming, h.file, fun _ => hparts⟩

/-- What a step does to a transfer it also does if only the parts were returned. -/
theorem HandedOver.of_proceeds {parts parts' : List (List Message)}
    (hstarts : List.Forall₂ (· <+: ·) parts' receiver'.returned)
    (h : Proceeds True sender { receiver with returned := parts } sender'
      { receiver' with returned := parts' }) : sender'.HandedOver receiver' :=
  ⟨parts', hstarts, h.transfers.returned trivial⟩

/-- A step of the receiver that has nothing to do with what it receives. -/
theorem HandedOver.same_receiver (h : sender.HandedOver receiver)
    (htransfers : Transfers bare sender receiver)
    (hstate : receiver'.channel.inReliableState = receiver.channel.inReliableState)
    (hincoming : receiver'.channel.incomingReliableData = receiver.channel.incomingReliableData)
    (hreturned : receiver'.returned = receiver.returned) : sender.HandedOver receiver' := by
  obtain ⟨parts, hstarts, hparts⟩ := h
  have hnext : Proceeds True sender { receiver with returned := parts } sender
      { receiver' with returned := parts } :=
    (htransfers.with_returned hparts).same_receiver hstate hincoming fun _ => rfl
  exact .of_proceeds (by rwa [hreturned]) hnext

/-- A result that starts with the messages `front` has them as its part. -/
theorem exists_parts {parts returned returned' : List (List Message)}
    {outcome : Result (List Message)} (front : List Message)
    (hstarts : List.Forall₂ (· <+: ·) parts returned)
    (hreturned : returned' =
      match outcome with
      | .ok messages => returned ++ [messages]
      | _ => returned)
    (hok : ∀ messages, outcome = .ok messages → front <+: messages)
    (hfront : front ≠ [] → ∃ messages, outcome = .ok messages) :
    ∃ parts', List.Forall₂ (· <+: ·) parts' returned' ∧
      parts'.flatten = parts.flatten ++ front := by
  have hempty : (∀ messages, outcome ≠ .ok messages) → front = [] := by
    intro hnone
    by_contra hne
    obtain ⟨messages, h⟩ := hfront hne
    exact hnone messages h
  cases outcome with
  | ok messages =>
      refine ⟨parts ++ [front], ?_, by simp⟩
      rw [hreturned]
      exact List.rel_append hstarts (.cons (hok messages rfl) .nil)
  | err e =>
      obtain rfl := hempty nofun
      exact ⟨parts, hreturned ▸ hstarts, by simp⟩
  | panic =>
      obtain rfl := hempty nofun
      exact ⟨parts, hreturned ▸ hstarts, by simp⟩

section

variable [BitstreamIo] [Crc]

/-- A packet that the receiver reads hands over the transfer that it finishes,
if what is behind its section are messages. -/
theorem HandedOver.read (h : sender.HandedOver receiver)
    (htransfers : Transfers bare sender receiver)
    (hsupplies : sender.Supplies bare c) (hs : sender.Sound c) (hr : receiver.Sound c)
    (hlink : (sender.linkTo receiver).Inv) (hback : (receiver.linkTo sender).Inv) {d : Datagram}
    (hd : d ∈ sender.written) {p : Packet} (hp : d.Writes c p)
    (hcarried : ∀ s, p.reliable = some s →
      d.carried = some (s.subchannel, sender.fillings s.subchannel) →
      (sender.channel.outgoingSubchannels s.subchannel).state ≠ free → sender.channel.Holds s)
    (hlegible : NetChannel.Due receiver.channel d.sequence → receiver.channel.Finishes p →
      ∃ tail, AreMessages (NetChannel.behindSection p).rest tail)
    (hread : receiver.read d = some receiver') : sender.HandedOver receiver' := by
  have hhanded := h
  obtain ⟨parts, hstarts, hparts⟩ := h
  have hghost := htransfers.with_returned hparts
  obtain ⟨outcome, hpacket, -, hpeer⟩ := read_eq_some hread
  have hreturned : receiver'.returned = _ := congrArg Peer.returned hpeer
  obtain ⟨-, e, -, -, herr⟩ | ⟨hdue, mid, hheader, hacknowledged⟩ :=
    readPacket_cases_of_writes hr hs hback hd hp
  · obtain ⟨rfl, hchannel⟩ := Prod.mk.inj (herr.symm.trans hpacket)
    exact hhanded.same_receiver htransfers (by rw [← hchannel]) (by rw [← hchannel]) hreturned
  · have hincoming : mid.incomingReliableData = receiver.channel.incomingReliableData := by
      rw [hacknowledged.others]
    have hstate : mid.inReliableState = receiver.channel.inReliableState := by
      rw [hacknowledged.others]
    rw [hp.bytes] at hpacket
    cases hreliable : p.reliable with
    | none =>
        obtain ⟨rfl, rfl⟩ := Prod.mk.inj
          ((NetChannel.readPacket_of_none hheader hreliable).symm.trans hpacket)
        obtain ⟨parts', hstarts', hflatten⟩ := exists_parts [] hstarts hreturned
          (fun _ _ => List.nil_prefix) (fun hne => absurd rfl hne)
        rw [List.append_nil] at hflatten
        exact .of_proceeds hstarts' (hghost.same_receiver hstate hincoming fun _ => hflatten)
    | some s =>
        have hbrings := Brings.of_fresh hlink hd hdue.lt hp hreliable (hcarried s hreliable)
        obtain ⟨stream, queue, hqueue, hdata⟩ := hbrings.holds.data
        obtain ⟨messages, hdecodes, htake⟩ := hsupplies.front hqueue
        obtain ⟨hrefused, -⟩ | ⟨later, hread, htoggled, hlater, hfile⟩ :=
          htransfers.takes hs hbrings hheader hincoming hreliable hqueue hdata hdecodes
        · -- nothing has opened the transfer yet
          obtain ⟨rfl, hchannel⟩ := Prod.mk.inj (hrefused.symm.trans hpacket)
          exact hhanded.same_receiver htransfers (hchannel ▸ hstate) (hchannel ▸ hincoming)
            hreturned
        · obtain ⟨rfl, rfl⟩ := Prod.mk.inj (hread.symm.trans hpacket)
          rw [hstate] at htoggled
          -- the part is empty unless the packet finishes the transfer
          have hmore : ∀ front all, NetChannel.readMessages (NetChannel.behindSection p)
              p.bytes.length front = .ok all → front <+: all := by
            intro front all hok
            rw [NetChannel.readMessages_acc] at hok
            obtain ⟨more, -, hok⟩ := Outcome.bind_eq_ok.mp hok
            exact Outcome.ok.inj hok ▸ List.prefix_append _ _
          obtain ⟨parts', hstarts', hflatten⟩ := exists_parts _ hstarts hreturned (hmore _) (by
            intro hne
            have hall := (ite_ne_right_iff.mp hne).1
            have hslot := htransfers.incoming
            rw [progress, hqueue, List.head?_cons, Option.map_some, hdata] at hslot
            obtain ⟨tail, htail⟩ := hlegible hdue (NetChannel.finishes_of_assembles hreliable hslot
              (hdata ▸ landed_subset hs hqueue) (hbrings.disjoint _) (hbrings.num_pos hs) hall)
            rw [NetChannel.readMessages_acc, NetChannel.readMessages_behind_eq_ok_iff.mpr htail]
            exact ⟨_, rfl⟩)
          exact .of_proceeds hstarts' (hghost.store hs
            ⟨hbrings.holds, hbrings.busy, hbrings.kept⟩ hqueue hdata htake htoggled hlater hfile
            fun _ => hflatten)

omit [BitstreamIo] in
/-- The section of a packet that was just written has what its subchannel holds. -/
theorem holds_emitted {reliable : Option Section} {s : Section} {messages : List Message}
    (hcarries : peer.channel.filled.Carries reliable) (hreliable : reliable = some s) :
    ((peer.refill.mark reliable).emit reliable messages).channel.Holds s := by
  subst hreliable
  obtain ⟨-, hdata, hstart, hnum⟩ := hcarries
  have hmarked : (peer.refill.mark (some s)).channel.Holds s := holds_mark ⟨hdata, hstart, hnum⟩
  exact ⟨hmarked.data, hmarked.start, hmarked.num⟩

/-- A packet without messages of its own ends in messages: in none. -/
theorem legible_of_bare {p : Packet} (hbare : p.messages = []) :
    ∃ tail, AreMessages (NetChannel.behindSection p).rest tail :=
  ⟨[], NetChannel.readMessages_behind_eq_ok_iff.mp (NetChannel.readMessages_behind_bare hbare [])⟩

/-- The packet without messages that was just written hands over what it finishes. -/
theorem HandedOver.read_emitted (hs : peer.Sound c) {reliable : Option Section}
    (hcarries : peer.channel.filled.Carries reliable)
    (hsender : (peer.refill.mark reliable).emit reliable [] = sender)
    (h : sender.HandedOver receiver) (htransfers : Transfers bare sender receiver)
    (hsupplies : sender.Supplies bare c) (hs' : sender.Sound c) (hr : receiver.Sound c)
    (hlink : (sender.linkTo receiver).Inv) (hback : (receiver.linkTo sender).Inv)
    (hread : receiver.read ((peer.refill.mark reliable).datagram reliable []) = some receiver') :
    sender.HandedOver receiver' := by
  have hwritten : (peer.refill.mark reliable).datagram reliable [] ∈ sender.written := by
    simp [← hsender, emit]
  exact h.read htransfers hsupplies hs' hr hlink hback hwritten
    ((hs.mark_refill hcarries).datagram_writes reliable [])
    (fun s hreliable _ _ => hsender ▸ holds_emitted hcarries hreliable)
    (fun _ _ => legible_of_bare rfl) hread

/-- When all of the sender's transfers were popped, the parts are all that it queued. -/
theorem HandedOver.all (h : sender.HandedOver receiver) (hsupplies : sender.Supplies bare c)
    (hempty : sender.channel.outgoingReliableData 0 = []) :
    ∃ parts, List.Forall₂ (· <+: ·) parts receiver.returned ∧
      parts.flatten = sender.queued.flatten := by
  obtain ⟨parts, hstarts, hparts⟩ := h
  have hlength := hsupplies.queued.length_eq
  have hle := (popped_le_delivered sender receiver)
  rw [hempty, List.map_nil, List.length_nil, List.length_drop] at hlength
  rw [List.take_of_length_le (by omega)] at hparts
  exact ⟨parts, hstarts, hparts⟩

end

end Peer

/-! ## The network -/

namespace Peers

variable [BitstreamIo] [Crc] {bare : Prop} {c : BitVec 32} {net net' : Peers} {p : Party}

/-- If the packet of `p` that is delivered finishes a transfer at the other
party, which it is due at, the bits behind its section are messages. -/
def Legible (c : BitVec 32) (p : Party) (net : Peers) : Action → Prop
  | .deliver q index => q = p → ∀ d packet, (net p).written[index]? = some d → d.Writes c packet →
      NetChannel.Due (net p.other).channel d.sequence → (net p.other).channel.Finishes packet →
      ∃ tail, AreMessages (NetChannel.behindSection packet).rest tail
  | _ => True

/-- What the other party returned for `p`. -/
def HandedOver (p : Party) (net : Peers) : Prop := (net p).HandedOver (net p.other)

/-- A step keeps what was returned, and adds what a legible packet finishes. -/
theorem HandedOver.step (h : net.HandedOver p) (hreliable : net.Reliable bare c)
    (hreliable' : net'.Reliable bare c) {action : Action} (hlegible : net.Legible c p action)
    (hstep : net.step action = some net') : net'.HandedOver p := by
  have hhanded : (net p).HandedOver (net p.other) := h
  obtain ⟨parts, hstarts, hparts⟩ := h
  have htransfers := hreliable.transfers p
  have hghost := htransfers.with_returned hparts
  have hsupplies' := hreliable'.supplies p
  have hlink' := hreliable'.honest.inv p
  unfold HandedOver
  cases action with
  | queue q messages =>
      obtain ⟨peer, hqueue, rfl⟩ := Option.map_eq_some_iff.mp hstep
      obtain rfl | rfl := p.eq_or_eq_other q
      · rw [Function.update_self] at hsupplies' ⊢
        rw [update_other]
        exact .of_proceeds hstarts (hghost.queue_sender (hreliable.supplies q) hsupplies' hqueue)
      · rw [Function.update_self, Function.update_of_ne p.ne_other]
        obtain ⟨stream, -, -, -, rfl⟩ | rfl := Peer.queue_cases hqueue
        · exact hhanded.same_receiver htransfers rfl rfl rfl
        · exact hhanded
  | write q messages =>
      obtain ⟨peer, hwrite, rfl⟩ := Option.map_eq_some_iff.mp hstep
      obtain rfl | rfl := p.eq_or_eq_other q
      · rw [Function.update_self, update_other]
        exact .of_proceeds hstarts
          (hghost.write_sender (hreliable.honest.sound q) (hreliable.honest.inv q) hwrite)
      · rw [Function.update_self, Function.update_of_ne p.ne_other]
        have hothers := NetChannel.sent_filled_others (net p.other).channel
        obtain ⟨reliable, -, rfl | ⟨-, rfl⟩⟩ :=
          Peer.write_cases (hreliable.honest.sound p.other) hwrite
        · exact hhanded.same_receiver htransfers (congrArg (·.inReliableState) (hothers reliable))
            (congrArg (·.incomingReliableData) (hothers reliable)) rfl
        · exact hhanded.same_receiver htransfers (congrArg (·.inReliableState) (hothers reliable))
            (congrArg (·.incomingReliableData) (hothers reliable)) rfl
  | deliver q index =>
      simp only [Peers.step] at hstep
      split at hstep
      case h_2 => cases hstep
      case h_1 d hindex =>
      have hd := List.mem_of_getElem? hindex
      obtain ⟨peer, hread, rfl⟩ := Option.map_eq_some_iff.mp hstep
      obtain rfl | rfl := p.eq_or_eq_other q
      · rw [Function.update_self, Function.update_of_ne q.ne_other]
        obtain ⟨packet, hp, -, hcarried⟩ := (hreliable.supplies q).carried d hd
        exact hhanded.read htransfers (hreliable.supplies q) (hreliable.honest.sound q)
          (hreliable.honest.sound q.other) (hreliable.honest.inv q) (hreliable.honest.inv_other q)
          hd hp hcarried (hlegible rfl d packet hindex hp) hread
      · simp only [Party.other_other, link] at hread hsupplies' hlink' ⊢
        rw [Function.update_self] at hsupplies' hlink' ⊢
        rw [update_other] at hlink' ⊢
        have hsettles := Peer.read_settles (hreliable.honest.sound p)
          (hreliable.honest.sound p.other) (hreliable.honest.inv p) hd hread
        exact .of_proceeds hstarts
          (hghost.read_sender hsupplies' (hreliable.honest.sound p).books hlink' hsettles)

/-- In a run of legible packets the results of a party start with what was
delivered to it. -/
theorem run_handedOver {configuration : Party → Configuration} {actions : List Action}
    (hmax : ∀ p, 256 ≤ (configuration p).server.maxReliablePacketSize ∧
      (configuration p).server.maxReliablePacketSize ≤ 2047)
    (hrecoverable : ∀ action ∈ actions, action.Recoverable)
    (hlegible : Run.EachStep step (new c configuration) actions (Legible c p))
    (hrun : (new c configuration).run actions = some net) : net.HandedOver p := by
  have hnew : (new c configuration).HandedOver p := ⟨[], .nil, by simp [new, Peer.new]⟩
  have hboth : net.Reliable False c ∧ net.HandedOver p := by
    refine Run.induction_eachStep (I := fun net => net.Reliable False c ∧ net.HandedOver p)
      (fun now action next hnow hok hlegible hstep => ?_) ⟨Reliable.new hmax, hnew⟩ hrecoverable
      hlegible hrun
    obtain ⟨hnext, -⟩ := hnow.1.step hok False.elim hstep
    exact ⟨hnext, hnow.2.step hnow.1 hnext hlegible hstep⟩
  exact hboth.2

end Peers

end QuickplayServer
