import QuickplayServer.Lib.Cover
import QuickplayServer.Net.Completion

/-!
# QuickplayServer.Net.Coverage

Which fragments of a transfer are there when it is decoded.

The channel counts fragments and does not mark them off.  A run is watched here
with the sections that each stream has received since the header that opened
its transfer (`watch`).  Their fragments add up to the count, so they cover a
transfer that is taken for complete exactly when none of its fragments has come
twice (`run_covered_iff`).
-/

namespace QuickplayServer

/-! ## The sections of a transfer -/

/-- The fragments of the section. -/
def SectionHeader.range (header : SectionHeader) : Finset Nat :=
  Finset.Ico header.startFragment header.endFragment

theorem SectionHeader.card_range (header : SectionHeader) :
    header.range.card = header.numFragments := by
  rw [range, Nat.card_Ico, endFragment]
  omega

namespace IncomingReliableData

/-- Every fragment of the transfer is in one of the sections, and so is every
byte of its buffer. -/
structure Covered (receivedData : IncomingReliableData) (received : List SectionHeader) : Prop where
  fragments :
    ∀ fragment < fragments receivedData.bytes, ∃ header ∈ received, fragment ∈ header.range
  bytes : ∀ n < receivedData.data.length, ∃ header ∈ received, header.startFragment * 256 ≤ n ∧
    n < header.startFragment * 256 + header.length receivedData

/-- The sections lie in the transfer, and their fragments are those that it counts. -/
structure Counts (receivedData : IncomingReliableData) (received : List SectionHeader) : Prop where
  ackedFragments : receivedData.ackedFragments = (received.map SectionHeader.numFragments).sum
  inside : ∀ header ∈ received, header.endFragment ≤ QuickplayServer.fragments receivedData.bytes

/-- A complete transfer is covered exactly when no two of its sections overlap. -/
theorem Counts.covered_iff {receivedData : IncomingReliableData} {received : List SectionHeader}
    (h : receivedData.Counts received) (hdata : receivedData.data.length = receivedData.bytes)
    (hcomplete : receivedData.ackedFragments = QuickplayServer.fragments receivedData.bytes) :
    receivedData.Covered received ↔ received.Pairwise fun a b => Disjoint a.range b.range := by
  have hparts : ∀ part ∈ received.map SectionHeader.range,
      part ⊆ Finset.range (QuickplayServer.fragments receivedData.bytes) := by
    intro part hpart a ha
    obtain ⟨header, hmem, rfl⟩ := List.mem_map.mp hpart
    exact Finset.mem_range.mpr ((Finset.mem_Ico.mp ha).2.trans_le (h.inside header hmem))
  have hcount : ((received.map SectionHeader.range).map Finset.card).sum =
      (Finset.range (QuickplayServer.fragments receivedData.bytes)).card := by
    rw [Finset.card_range, ← hcomplete, h.ackedFragments, List.map_map]
    exact congrArg List.sum (List.map_congr_left fun header _ => header.card_range)
  have hcovers := Cover.covers_iff_disjoint hparts hcount
  rw [List.pairwise_map] at hcovers
  rw [← hcovers]
  simp only [Finset.mem_range, List.mem_map, exists_exists_and_eq_and]
  constructor
  · exact Covered.fragments
  · intro hfragments
    refine ⟨hfragments, fun n hn => ?_⟩
    -- a byte is in the section that has its fragment
    obtain ⟨header, hmem, hrange⟩ := hfragments (n / 256) (by rw [fragments_eq]; omega)
    obtain ⟨hstart, hend⟩ := Finset.mem_Ico.mp hrange
    refine ⟨header, hmem, by omega, ?_⟩
    have hinside := h.inside header hmem
    unfold SectionHeader.length
    unfold SectionHeader.endFragment at hend hinside ⊢
    split
    case isTrue hlast =>
      rw [fragments_eq] at hlast ⊢
      omega
    case isFalse => omega

end IncomingReliableData

/-! ## Watching a channel -/

/-- The sections of the transfer behind this one: those before count only if it
does not open a transfer itself, and it counts if its fragments are taken. -/
def Arrival.history (arrival : Arrival) (before : List SectionHeader) : List SectionHeader :=
  let since := if arrival.header.opens.isSome then [] else before
  match arrival.behind with
  | some _ => arrival.header :: since
  | none => since

/-- The count behind a section is that of the sections of its transfer. -/
theorem Arrival.left_counts [BitstreamIo] {arrival : Arrival} {before : List SectionHeader}
    (hslot : ∀ receivedData, arrival.slot = some receivedData → receivedData.Counts before)
    {receivedData : IncomingReliableData} (h : arrival.left = some receivedData) :
    receivedData.Counts (arrival.history before) := by
  obtain ⟨target, htarget, hleft⟩ := Option.map_eq_some_iff.mp h
  have hsince : target.Counts (if arrival.header.opens.isSome then [] else before) := by
    cases hopens : arrival.header.opens with
    | none =>
        rw [Arrival.target, hopens, Option.none_or] at htarget
        exact hslot target htarget
    | some opened =>
        rw [Arrival.target, hopens, Option.some_or] at htarget
        obtain rfl := Option.some.inj htarget
        refine ⟨?_, List.forall_mem_nil _⟩
        cases hheader : arrival.header with
        | singleBlock bytes =>
            rw [hheader] at hopens
            obtain rfl := Option.some.inj hopens
            rfl
        | opening numFragments bytes =>
            rw [hheader] at hopens
            obtain rfl := Option.some.inj hopens
            rfl
        | continuing startFragment numFragments =>
            rw [hheader] at hopens
            cases hopens
  unfold Arrival.history Arrival.behind
  rw [htarget, Option.bind_some]
  by_cases hfits : arrival.header.Fits target arrival.reader
  · rw [if_pos hfits] at hleft ⊢
    subst hleft
    refine ⟨?_, List.forall_mem_cons.mpr ⟨hfits.1.1, hsince.inside⟩⟩
    rw [List.map_cons, List.sum_cons, ← hsince.ackedFragments]
    exact Nat.add_comm _ _
  · rw [if_neg hfits] at hleft ⊢
    subst hleft
    unfold SectionHeader.torn
    split
    · exact ⟨hsince.ackedFragments, hsince.inside⟩
    · exact hsince

namespace NetChannel

/-- A channel with the sections that each stream has received of its transfer. -/
structure Watched where
  channel : NetChannel
  received : Fin MAX_STREAMS → List SectionHeader

/-- A new channel, that has received nothing. -/
def Watched.new (challenge : BitVec 32) (configuration : Configuration) : Watched :=
  ⟨NetChannel.new challenge configuration, fun _ => []⟩

section

variable [BitstreamIo] [Crc]

/-- The sections that each stream has received behind those of the packet. -/
def Watched.record (watched : Watched) (packet : List UInt8) (i : Fin MAX_STREAMS) :
    List SectionHeader :=
  match (watched.channel.sectionsOf packet).1.find? fun arrival => arrival.stream = i with
  | some arrival => arrival.history (watched.received i)
  | none => watched.received i

/-- The step of a run that only reads packets, watched. -/
def watch (watched : Watched) (packet : List UInt8) : Option Watched :=
  (receive watched.channel packet).map fun later => ⟨later, watched.record packet⟩

/-- Watching does not change the run. -/
theorem run_watch (watched : Watched) (packets : List (List UInt8)) :
    (Run.run watch watched packets).map Watched.channel =
      Run.run receive watched.channel packets := by
  refine Run.run_map (fun later packet => ?_) watched packets
  rw [watch, Option.map_map]
  exact Option.map_id'

/-- Every transfer counts the sections that its stream has received. -/
structure Watched.Tracked (watched : Watched) : Prop where
  sound : watched.channel.Sound
  counts : ∀ i receivedData, watched.channel.incomingReliableData i = some receivedData →
    receivedData.Counts (watched.received i)

/-- So do the transfers behind the sections of a packet. -/
theorem Watched.Tracked.slotLeft {watched : Watched} (h : watched.Tracked) {packet : List UInt8}
    {i : Fin MAX_STREAMS} {receivedData : IncomingReliableData}
    (hslot : watched.channel.slotLeft packet i = some receivedData) :
    receivedData.Counts (watched.record packet i) := by
  unfold NetChannel.slotLeft leftBy at hslot
  unfold Watched.record
  cases hfind : (watched.channel.sectionsOf packet).1.find? fun arrival => arrival.stream = i with
  | none =>
      rw [hfind] at hslot
      exact h.counts i receivedData hslot
  | some arrival =>
      rw [hfind] at hslot
      obtain rfl : arrival.stream = i := by simpa using List.find?_some hfind
      have hmem := mem_sectionsOf (List.mem_of_find?_eq_some hfind)
      exact Arrival.left_counts (fun stored hstored => h.counts _ stored (hmem ▸ hstored)) hslot

theorem watch_tracked {watched later : Watched} {packet : List UInt8} (h : watched.Tracked)
    (hwatch : watch watched packet = some later) : later.Tracked := by
  obtain ⟨channel, hreceive, rfl⟩ := Option.map_eq_some_iff.mp hwatch
  have hsound := Call.apply_sound h.sound hreceive
  obtain ⟨hpanic, rfl⟩ := returned_eq_some.mp hreceive
  refine ⟨hsound, fun i receivedData hslot => ?_⟩
  obtain ⟨-, hnone⟩ | ⟨-, hleft⟩ := readPacket_slot h.sound packet hpanic i
  · rw [hnone] at hslot
    cases hslot
  · exact h.slotLeft (hleft ▸ hslot)

/-! ## Decoded transfers -/

/-- Every transfer that the packet comes to decode is covered by the sections
received since the header that opened it. -/
def DecodesCovered (watched : Watched) (packet : List UInt8) : Prop :=
  ∀ i receivedData, watched.channel.Decoding packet i receivedData →
    receivedData.Covered (watched.record packet i)

/-- No fragment of a transfer that the packet comes to decode is in two of them. -/
def DecodesUnrepeated (watched : Watched) (packet : List UInt8) : Prop :=
  ∀ i receivedData, watched.channel.Decoding packet i receivedData →
    (watched.record packet i).Pairwise fun a b => Disjoint a.range b.range

theorem decodesCovered_iff {watched : Watched} (h : watched.Tracked) (packet : List UInt8) :
    DecodesCovered watched packet ↔ DecodesUnrepeated watched packet := by
  refine forall₃_congr fun i receivedData hdecoding => ?_
  obtain ⟨later, hreaches, hslot, hcomplete⟩ := hdecoding
  obtain ⟨hsound, hleft, -⟩ := reaches_spec h.sound hreaches
  have hstored := hsound i receivedData hslot
  have htotal : receivedData.totalFragments = .ok (fragments receivedData.bytes) :=
    bytesToFragments_of_lt hstored.bytes
  rw [htotal] at hcomplete
  exact (h.slotLeft (hleft ▸ hslot)).covered_iff hstored.data (Outcome.ok.inj hcomplete).symm

/-- In every run the transfers that are decoded are covered exactly when none of
their fragments has been received twice. -/
theorem run_covered_iff (challenge : BitVec 32) (configuration : Configuration)
    (packets : List (List UInt8)) :
    Run.EachStep watch (Watched.new challenge configuration) packets DecodesCovered ↔
      Run.EachStep watch (Watched.new challenge configuration) packets DecodesUnrepeated :=
  Run.eachStep_congr (fun _ _ _ => watch_tracked) (fun _ packet h => decodesCovered_iff h packet)
    ⟨Sound.new challenge configuration, fun _ _ => nofun⟩

end

/-- Opens a transfer of 257 bytes with no fragments of it. -/
def twoFragmentsPacket : List UInt8 :=
  [1, 0, 0, 0, 0, 0, 0, 0, 33, 231, 94, 0, 5, 0, 0, 0, 24, 0, 0, 16, 16, 0, 0]

/-- The last fragment of the two, of one byte. -/
def lastFragmentPacket : List UInt8 :=
  [2, 0, 0, 0, 0, 0, 0, 0, 33, 87, 8, 0, 5, 0, 0, 0, 57, 0, 128, 0, 0]

/-- The last fragment once more, on another subchannel. -/
def lastFragmentAgainPacket : List UInt8 :=
  [3, 0, 0, 0, 0, 0, 0, 0, 33, 39, 53, 0, 5, 0, 0, 0, 58, 0, 128, 0, 0]

/-- The transfer is taken for complete when its last fragment has come twice,
and the 256 bytes in front of it have never been received. -/
theorem repeated_fragment_completes :
    ∃ watched receivedData,
      Run.run watch (Watched.new 5#32 Configuration.loadDefault)
      [twoFragmentsPacket, lastFragmentPacket] =
        some watched ∧
      watched.channel.Decoding lastFragmentAgainPacket 0 receivedData ∧
      watched.record lastFragmentAgainPacket 0 =
        [.continuing 1 1, .continuing 1 1, .opening 0 257] ∧
      ¬ receivedData.Covered (watched.record lastFragmentAgainPacket 0) := by
  have hrun : (Run.run watch (Watched.new 5#32 Configuration.loadDefault)
      [twoFragmentsPacket, lastFragmentPacket]).map (fun watched =>
        (watched.record lastFragmentAgainPacket 0,
          (watched.channel.reaches lastFragmentAgainPacket 0).map fun later =>
            (later.incomingReliableData 0).map fun receivedData =>
              (receivedData.ackedFragments, receivedData.bytes))) =
      some ([.continuing 1 1, .continuing 1 1, .opening 0 257], some (some (2, 257))) := by
    decide +kernel
  obtain ⟨watched, hwatched, hvalues⟩ := Option.map_eq_some_iff.mp hrun
  obtain ⟨hrecord, hreaches⟩ := Prod.mk.inj hvalues
  obtain ⟨later, hreaches, hslot⟩ := Option.map_eq_some_iff.mp hreaches
  obtain ⟨receivedData, hslot, hcount⟩ := Option.map_eq_some_iff.mp hslot
  obtain ⟨hacked, hbytes⟩ := Prod.mk.inj hcount
  have htotal : receivedData.totalFragments = .ok receivedData.ackedFragments := by
    rw [IncomingReliableData.totalFragments, hacked, hbytes]
    rfl
  refine ⟨watched, receivedData, hwatched, ⟨later, hreaches, hslot, htotal⟩, hrecord, fun h => ?_⟩
  obtain ⟨header, hmem, hzero⟩ := h.fragments 0 (by rw [hbytes]; decide)
  rw [hrecord] at hmem
  revert header
  decide

end NetChannel

end QuickplayServer
