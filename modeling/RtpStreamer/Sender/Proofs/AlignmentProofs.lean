import RtpStreamer.Jitter.Exact
import RtpStreamer.Jitter.Proofs.ConservationProofs
import RtpStreamer.Jitter.Proofs.EndOfStreamProofs
import RtpStreamer.Receiver.CheckedReceiver
import RtpStreamer.Sender.Proofs.SenderProofs

/-!
# End-to-end alignment

The packets of one sender are numbered from its first sequence number, so a receiver that hears packet
0 first gives packet `i` the frame index `i`. The map of the reference then has packet `i` exactly when
a copy of it was delivered while frame `i` was in the window, and the playout is the sender's signal
with the other frames concealed.
-/

namespace RtpStreamer

/-- What the network and the playout clock do: a copy of datagram `i` arrives, or a pull is made. -/
inductive Delivery (n : Nat) where
  | copy (i : Fin n) (arrivalSamples : U32)
  | pull (nowSamples : U32)

namespace Delivery

variable {n : Nat}

/-- The datagrams that arrive, in order of arrival. -/
def copies (deliveries : List (Delivery n)) : List (Fin n) :=
  deliveries.filterMap fun
    | .copy i _ => some i
    | .pull _ => none

/-- The call a delivery makes when datagram `i` carries the packet `packets i`. -/
def call (packets : Fin n → Packet) : Delivery n → Call
  | .copy i arrivalSamples => .push (packets i) arrivalSamples
  | .pull nowSamples => .pull nowSamples

theorem copies_snoc_copy (deliveries : List (Delivery n)) (i : Fin n) (arrival : U32) :
    copies (deliveries ++ [.copy i arrival]) = copies deliveries ++ [i] := by
  simp [copies]

theorem copies_snoc_pull (deliveries : List (Delivery n)) (now : U32) :
    copies (deliveries ++ [.pull now]) = copies deliveries := by
  simp [copies]

end Delivery

variable {P : Platform}

/-! ## A numbered stream -/

/-- A copy of packet `i` was delivered while frame `i` was in the window of the cursor. -/
def Reached (P : Platform) (options : Options) {n : Nat} (packets : Fin n → Packet)
    (deliveries : List (Delivery n)) (i : Fin n) : Prop :=
  ∃ before after arrival, deliveries = before ++ .copy i arrival :: after ∧
    (refRun P options (before.map (Delivery.call packets))).cursor ≤ i.val ∧
    i.val < (refRun P options (before.map (Delivery.call packets))).cursor + 32

theorem Reached.snoc {options : Options} {n : Nat} {packets : Fin n → Packet}
    {deliveries : List (Delivery n)} {i : Fin n} (h : Reached P options packets deliveries i)
    (delivery : Delivery n) : Reached P options packets (deliveries ++ [delivery]) i := by
  obtain ⟨before, after, arrival, rfl, hlo, hhi⟩ := h
  exact ⟨before, after ++ [delivery], arrival, by simp, hlo, hhi⟩

/-- A delivery reaches frame `i` only by being a copy of packet `i` in its window. -/
theorem reached_snoc_iff (options : Options) {n : Nat} (packets : Fin n → Packet)
    (deliveries : List (Delivery n)) (delivery : Delivery n) (i : Fin n) :
    Reached P options packets (deliveries ++ [delivery]) i ↔
      Reached P options packets deliveries i ∨
        ∃ arrival, delivery = .copy i arrival ∧
          (refRun P options (deliveries.map (Delivery.call packets))).cursor ≤ i.val ∧
          i.val < (refRun P options (deliveries.map (Delivery.call packets))).cursor + 32 := by
  constructor
  · rintro ⟨before, after, arrival, heq, hlo, hhi⟩
    rcases List.eq_nil_or_concat after with rfl | ⟨after, last, rfl⟩
    · obtain ⟨rfl, hlast⟩ := List.append_inj' heq rfl
      exact Or.inr ⟨arrival, List.head_eq_of_cons_eq hlast, hlo, hhi⟩
    · rw [List.concat_eq_append, ← List.cons_append, ← List.append_assoc] at heq
      obtain ⟨rfl, _⟩ := List.append_inj' heq rfl
      exact Or.inl ⟨before, after, arrival, rfl, hlo, hhi⟩
  · rintro (h | ⟨arrival, rfl, hlo, hhi⟩)
    · exact h.snoc delivery
    · exact ⟨deliveries, [], arrival, rfl, hlo, hhi⟩

/-- The packets carry consecutive sequence numbers. -/
def Numbered {n : Nat} (first : U16) (packets : Fin n → Packet) : Prop :=
  n ≤ 32768 ∧ ∀ i : Fin n, (packets i).sequenceNumber = first + BitVec.ofNat 16 i.val

/-- What the reference knows after the deliveries of a numbered stream whose packet 0 came first. -/
structure Follows (options : Options) {n : Nat} (first : U16) (packets : Fin n → Packet)
    (deliveries : List (Delivery n)) (r : Reference P) : Prop where
  started : r.started = true ↔ Delivery.copies deliveries ≠ []
  base : r.started = true → r.baseSequence = first
  highest_lt : r.highest < n
  highest_ge : ∀ i ∈ Delivery.copies deliveries, (i.val : Int) ≤ r.highest
  accepted_only : ∀ index packet, r.accepted index = some packet →
    ∃ i : Fin n, index = i.val ∧ packet = packets i ∧ Reached P options packets deliveries i
  accepted_of : ∀ i, Reached P options packets deliveries i → (r.accepted i.val).isSome = true

/-- Packet `i` has frame index `i`, provided that packet 0 comes first. -/
theorem indexOf_numbered {r : Reference P} {n : Nat} {first : U16} {packets : Fin n → Packet}
    (hnum : Numbered first packets) (hbase : r.started = true → r.baseSequence = first)
    {i : Fin n} (hfirst : r.started = false → i.val = 0) :
    r.indexOf (packets i).sequenceNumber = i.val := by
  have hi := i.isLt
  have hn := hnum.1
  unfold Reference.indexOf
  cases hs : r.started with
  | true =>
    have hsub : first + BitVec.ofNat 16 i.val - first = BitVec.ofNat 16 i.val := by
      rw [BitVec.add_comm, BitVec.add_sub_cancel]
    rw [if_pos rfl, hbase hs, hnum.2 i, hsub, BitVec.toInt_eq_toNat_cond, BitVec.toNat_ofNat]
    split_ifs <;> omega
  | false =>
    rw [if_neg (by decide), BitVec.sub_self, hfirst hs]
    rfl

theorem Follows.copy {options : Options} {n : Nat} {first : U16} {packets : Fin n → Packet}
    (hnum : Numbered first packets) {deliveries : List (Delivery n)}
    (h : Follows options first packets deliveries
      (refRun P options (deliveries.map (Delivery.call packets)))) (i : Fin n) (arrival : U32)
    (hfirst : Delivery.copies deliveries = [] → i.val = 0) :
    Follows options first packets (deliveries ++ [.copy i arrival])
      ((refRun P options (deliveries.map (Delivery.call packets))).push (packets i) arrival) := by
  have hsnoc := reached_snoc_iff (P := P) options packets deliveries (.copy i arrival)
  generalize refRun P options (deliveries.map (Delivery.call packets)) = r at h hsnoc ⊢
  have hunstarted : r.started = false → Delivery.copies deliveries = [] := by
    intro hs
    by_contra hne
    rw [h.started.mpr hne] at hs
    exact absurd hs (by decide)
  have hindex := indexOf_numbered hnum h.base (i := i) fun hs => hfirst (hunstarted hs)
  have hhighest : (r.push (packets i) arrival).highest = max r.highest i.val := by
    rw [← hindex]
    rfl
  refine ⟨?_, ?_, ?_, ?_, ?_, ?_⟩
  · rw [Delivery.copies_snoc_copy]
    simp [Reference.push]
  · intro _
    show (if r.started then r.baseSequence else (packets i).sequenceNumber) = first
    cases hs : r.started with
    | true => exact h.base hs
    | false =>
      rw [if_neg (by decide), hnum.2 i, hfirst (hunstarted hs)]
      exact BitVec.add_zero first
  · have := i.isLt
    have := h.highest_lt
    rw [hhighest]
    omega
  · intro j hj
    rw [Delivery.copies_snoc_copy, List.mem_append, List.mem_singleton] at hj
    rw [hhighest]
    rcases hj with hj | rfl
    · exact le_trans (h.highest_ge j hj) (le_max_left _ _)
    · exact le_max_right _ _
  · intro index packet hsome
    rcases Reference.of_push_accepted hsome with hold | ⟨rfl, hi, hlo, hhi⟩
    · obtain ⟨j, hj, hpacket, hreached⟩ := h.accepted_only index packet hold
      exact ⟨j, hj, hpacket, hreached.snoc _⟩
    · -- the packet just accepted
      rw [hindex] at hi
      subst hi
      exact ⟨i, rfl, rfl, (hsnoc i).mpr (Or.inr ⟨arrival, rfl, by omega, by omega⟩)⟩
  · intro j hreached
    rcases (hsnoc j).mp hreached with hold | ⟨arrival', heq, hlo, hhi⟩
    · obtain ⟨packet, hpacket⟩ := Option.isSome_iff_exists.mp (h.accepted_of j hold)
      rw [r.push_accepted_of_some (packets i) arrival hpacket]
      rfl
    · obtain ⟨rfl, _⟩ := Delivery.copy.inj heq
      have hnow := r.push_accepted_isSome (packets i) arrival
      rw [hindex] at hnow
      exact hnow (by omega) (by omega)

/-- The map has exactly the packets that a copy reached, each under its number. -/
theorem Follows.accepted_eq {options : Options} {n : Nat} {first : U16} {packets : Fin n → Packet}
    {deliveries : List (Delivery n)} {r : Reference P}
    (h : Follows options first packets deliveries r) {i : Fin n}
    (hreached : Reached P options packets deliveries i) : r.accepted i.val = some (packets i) := by
  obtain ⟨packet, hpacket⟩ := Option.isSome_iff_exists.mp (h.accepted_of i hreached)
  obtain ⟨j, hj, rfl, _⟩ := h.accepted_only i.val packet hpacket
  obtain rfl : i = j := Fin.ext (by omega)
  exact hpacket

theorem Follows.accepted_none {options : Options} {n : Nat} {first : U16} {packets : Fin n → Packet}
    {deliveries : List (Delivery n)} {r : Reference P}
    (h : Follows options first packets deliveries r) {i : Fin n}
    (hnot : ¬ Reached P options packets deliveries i) : r.accepted i.val = none := by
  by_contra hne
  obtain ⟨packet, hpacket⟩ := Option.ne_none_iff_exists'.mp hne
  obtain ⟨j, hj, _, hreached⟩ := h.accepted_only i.val packet hpacket
  obtain rfl : i = j := Fin.ext (by omega)
  exact hnot hreached

/-- Calls other than pushes leave the map, the origin and the frontier alone. -/
theorem Follows.of_eq {options : Options} {n : Nat} {first : U16} {packets : Fin n → Packet}
    {deliveries deliveries' : List (Delivery n)} {r r' : Reference P}
    (h : Follows options first packets deliveries r)
    (hcopies : Delivery.copies deliveries' = Delivery.copies deliveries)
    (hreached : ∀ i, Reached P options packets deliveries' i ↔
      Reached P options packets deliveries i)
    (hstarted : r'.started = r.started) (hbase : r'.baseSequence = r.baseSequence)
    (hhighest : r'.highest = r.highest) (haccepted : r'.accepted = r.accepted) :
    Follows options first packets deliveries' r' := by
  refine ⟨?_, ?_, ?_, ?_, ?_, ?_⟩
  · rw [hstarted, hcopies]
    exact h.started
  · rw [hstarted, hbase]
    exact h.base
  · rw [hhighest]
    exact h.highest_lt
  · rw [hhighest, hcopies]
    exact h.highest_ge
  · intro index packet hsome
    rw [haccepted] at hsome
    obtain ⟨i, hi, hpacket, hr⟩ := h.accepted_only index packet hsome
    exact ⟨i, hi, hpacket, (hreached i).mpr hr⟩
  · intro i hr
    rw [haccepted]
    exact h.accepted_of i ((hreached i).mp hr)

theorem follows_run (options : Options) {n : Nat} {first : U16} {packets : Fin n → Packet}
    (hpos : 0 < n) (hnum : Numbered first packets) (deliveries : List (Delivery n))
    (hfirst : ∀ i, (Delivery.copies deliveries).head? = some i → i.val = 0) :
    Follows options first packets deliveries
      (refRun P options (deliveries.map (Delivery.call packets))) := by
  induction deliveries using List.reverseRecOn with
  | nil =>
    refine ⟨by simp [refRun, referenceSystem, Delivery.copies], ?_, ?_, ?_, ?_, ?_⟩
    · intro h
      exact absurd h (by simp [refRun, referenceSystem])
    · show (-1 : Int) < n
      omega
    · intro i hi
      exact absurd hi (by simp [Delivery.copies])
    · intro index packet h
      exact absurd h (by simp [refRun, referenceSystem])
    · rintro i ⟨before, after, arrival, heq, _⟩
      exact absurd heq (by simp)
  | append_singleton deliveries delivery ih =>
    rw [List.map_append, List.map_singleton, refRun_snoc]
    cases delivery with
    | copy i arrival =>
      rw [Delivery.copies_snoc_copy] at hfirst
      have hprefix := ih fun j hj => hfirst j (by rw [List.head?_append, hj]; rfl)
      exact hprefix.copy hnum i arrival fun hnil => hfirst i (by rw [hnil]; rfl)
    | pull now =>
      rw [Delivery.copies_snoc_pull] at hfirst
      obtain ⟨hs, hb, hh, ha⟩ := next_of_not_push
        (refRun P options (deliveries.map (Delivery.call packets))) (.pull now)
        fun _ _ => by simp
      refine (ih hfirst).of_eq (Delivery.copies_snoc_pull _ _) (fun i => ?_) hs hb hh ha
      rw [reached_snoc_iff]
      exact ⟨fun h => h.resolve_right (by rintro ⟨_, heq, _⟩; simp at heq), Or.inl⟩

/-! ## The end of the stream -/

/-- Pulling once for every packet is enough to drain a numbered stream. -/
theorem numbered_drained (options : Options)
    (junk : Vector (Vector U8 kSlotPayloadBytes) kCapacity) {n : Nat} {first : U16}
    {packets : Fin n → Packet} (hnum : Numbered first packets) (deliveries : List (Delivery n))
    (hfirst : ∀ i, (Delivery.copies deliveries).head? = some i → i.val = 0)
    (hsome : Delivery.copies deliveries ≠ []) {nows : List U32} (hlen : n ≤ nows.length)
    (now : U32) :
    JitterBuffer.returned ((jitterSystem P options junk).run
      (deliveries.map (Delivery.call packets) ++ drain nows)) (.pull now) = none := by
  obtain ⟨i, _⟩ := List.exists_mem_of_ne_nil _ hsome
  have hfollows := follows_run (P := P) options (by have := i.isLt; omega) hnum deliveries hfirst
  have hstarted := hfollows.started.mpr hsome
  have hlt := hfollows.highest_lt
  obtain ⟨_, hh, _, _⟩ := refRun_end (P := P) options (deliveries.map (Delivery.call packets)) nows
  have hprogress := drain_progress (P := P) options nows hstarted
  have hreturned := (JitterBuffer.matches_run (P := P) options junk
    (deliveries.map (Delivery.call packets) ++ drain nows)).returned (.pull now)
  refine hreturned.trans ?_
  change ((refRun P options (deliveries.map (Delivery.call packets) ++ drain nows)).pull now).1 =
    none
  generalize refRun P options (deliveries.map (Delivery.call packets) ++ drain nows) = r
    at hh hprogress ⊢
  unfold Reference.pull Reference.isDue
  rw [decide_eq_false (show ¬ (r.cursor : Int) ≤ r.highest by omega), Bool.and_false,
    Bool.false_and, if_neg (by decide)]

/-- What is played of a numbered stream whose packet 0 came first and whose last packet came. -/
theorem numbered_playout (options : Options)
    (junk : Vector (Vector U8 kSlotPayloadBytes) kCapacity) {n : Nat} {first : U16}
    {packets : Fin n → Packet} (hnum : Numbered first packets) (deliveries : List (Delivery n))
    (hfirst : ∀ i, (Delivery.copies deliveries).head? = some i → i.val = 0)
    (hlast : ∃ i ∈ Delivery.copies deliveries, i.val + 1 = n) (nows : List U32) (now : U32)
    (hdone : JitterBuffer.returned ((jitterSystem P options junk).run
      (deliveries.map (Delivery.call packets) ++ drain nows))
      (.pull now) = none) :
    ∃ real : Nat → Option Frame,
      (∀ i : Fin n, Reached P options packets deliveries i →
        real i = some (decodePayload P.byteOrder (packets i).payloadType (packets i).payload)) ∧
      (∀ i : Fin n, ¬ Reached P options packets deliveries i → real i = none) ∧
      ((jitterSystem P options junk).trace
        (deliveries.map (Delivery.call packets) ++ drain nows)).filterMap id =
          (playout P options real n).frames ∧
      (JitterBuffer.counts ((jitterSystem P options junk).run
        (deliveries.map (Delivery.call packets) ++ drain nows))).lost =
          JitterBuffer.missing real n := by
  obtain ⟨last, hmem, hlastn⟩ := hlast
  have hfollows := follows_run (P := P) options (by omega) hnum deliveries hfirst
  obtain ⟨hs, hh, ha, he⟩ := refRun_end (P := P) options
    (deliveries.map (Delivery.call packets)) nows
  generalize hcalls : deliveries.map (Delivery.call packets) ++ drain nows = calls
    at hdone hs hh ha he ⊢
  have hcursor : ((refRun P options calls).cursor : Int) = (refRun P options calls).highest + 1 :=
    cursor_of_drained (JitterBuffer.matches_run (P := P) options junk calls)
      (hs.trans (hfollows.started.mpr (List.ne_nil_of_mem hmem))) he hdone
  have hn : (refRun P options calls).cursor = n := by
    have hlt := hfollows.highest_lt
    have hge := hfollows.highest_ge last hmem
    rw [hh] at hcursor
    omega
  have hplayed := trace_frames (P := P) options junk calls
  have hlost : _ = JitterBuffer.missing (refRun P options calls).realFrames
      (refRun P options calls).cursor := JitterBuffer.lost_run (P := P) options junk calls
  rw [hn] at hplayed hlost
  refine ⟨(refRun P options calls).realFrames, ?_, ?_, ?_, hlost⟩
  · intro i hreached
    unfold Reference.realFrames
    rw [ha, hfollows.accepted_eq hreached]
    rfl
  · intro i hnot
    unfold Reference.realFrames
    rw [ha, hfollows.accepted_none hnot]
    rfl
  · exact hplayed

/-! ## From the samples of the sender to the frames of the receiver -/

/-- What a delivery brings to the receiver. -/
def Delivery.event (datagrams : List (List U8)) : Delivery datagrams.length → ReceiverEvent
  | .copy i arrivalSamples => .datagram datagrams[i] arrivalSamples
  | .pull nowSamples => .pull nowSamples

/-- The calls that the deliveries make on the jitter buffer. -/
def feed (order : ByteOrder) (datagrams : List (List U8))
    (deliveries : List (Delivery datagrams.length)) : List Call :=
  deliveries.filterMap fun delivery => (delivery.event datagrams).call order

/-- Some copy of datagram `i` was fed while `frames_played <= i < frames_played + 32`. -/
def Delivered (P : Platform) (options : Options)
    (junk : Vector (Vector U8 kSlotPayloadBytes) kCapacity) (datagrams : List (List U8))
    (deliveries : List (Delivery datagrams.length)) (i : Fin datagrams.length) : Prop :=
  ∃ before after arrival, deliveries = before ++ .copy i arrival :: after ∧
    let jb : JitterBuffer P := (jitterSystem P options junk).run (feed P.byteOrder datagrams before)
    jb.framesPlayed.toNat ≤ i.val ∧ i.val < jb.framesPlayed.toNat + 32

/-- The arguments `push` is given for a parsed packet. -/
def pushed (parsed : ParsedPacket) : Packet where
  sequenceNumber := parsed.header.sequenceNumber
  rtpTimestamp := parsed.header.timestamp
  payloadType := parsed.header.payloadType
  payload := parsed.payload

theorem feed_cons (order : ByteOrder) (datagrams : List (List U8))
    (delivery : Delivery datagrams.length) (deliveries : List (Delivery datagrams.length)) :
    feed order datagrams (delivery :: deliveries) =
      ((delivery.event datagrams).call order).toList ++ feed order datagrams deliveries := by
  unfold feed
  rw [List.filterMap_cons]
  cases (delivery.event datagrams).call order <;> rfl

/-- Datagrams that all parse are fed as the packets they carry. -/
theorem feed_eq (order : ByteOrder) (datagrams : List (List U8))
    (parsed : Fin datagrams.length → ParsedPacket)
    (hparse : ∀ i : Fin datagrams.length, parse order datagrams[i] = some (parsed i))
    (deliveries : List (Delivery datagrams.length)) :
    feed order datagrams deliveries =
      deliveries.map (Delivery.call fun i => pushed (parsed i)) := by
  induction deliveries with
  | nil => rfl
  | cons delivery deliveries ih =>
    cases delivery with
    | copy i arrival =>
      have hcall : (Delivery.event datagrams (.copy i arrival)).call order =
          some (.push (pushed (parsed i)) arrival) := by
        show (parse order datagrams[i]).map _ = _
        rw [hparse i]
        rfl
      rw [feed_cons, hcall, ih]
      rfl
    | pull now =>
      rw [feed_cons, ih]
      rfl

/-- Feeding the datagrams reaches the same frames as pushing the packets they carry. -/
theorem delivered_iff (options : Options) (junk : Vector (Vector U8 kSlotPayloadBytes) kCapacity)
    {datagrams : List (List U8)} {parsed : Fin datagrams.length → ParsedPacket}
    (hparse : ∀ i : Fin datagrams.length, parse P.byteOrder datagrams[i] = some (parsed i))
    (deliveries : List (Delivery datagrams.length)) (i : Fin datagrams.length) :
    Delivered P options junk datagrams deliveries i ↔
      Reached P options (fun i => pushed (parsed i)) deliveries i := by
  have hcursor (before : List (Delivery datagrams.length)) :
      (refRun P options (before.map (Delivery.call fun i => pushed (parsed i)))).cursor =
        (JitterBuffer.framesPlayed ((jitterSystem P options junk).run
          (feed P.byteOrder datagrams before))).toNat := by
    rw [feed_eq P.byteOrder datagrams parsed hparse]
    exact (JitterBuffer.matches_run (P := P) options junk _).cursor
  constructor
  · rintro ⟨before, after, arrival, heq, hlo, hhi⟩
    exact ⟨before, after, arrival, heq, by rw [hcursor]; exact hlo, by rw [hcursor]; exact hhi⟩
  · rintro ⟨before, after, arrival, heq, hlo, hhi⟩
    rw [hcursor] at hlo hhi
    exact ⟨before, after, arrival, heq, hlo, hhi⟩

/-- The concealed frame that is due at position `i` of a playout. -/
def concealedAt (P : Platform) (options : Options) (real : Nat → Option Frame) (i : Nat) : Frame :=
  Reference.concealment P options (playout P options real i).lastReal
    ((playout P options real i).sinceReal + 1)

/-- **End-to-end alignment.** Whatever the network loses, reorders or duplicates, if datagram 0 comes
first and the last one comes at all, then draining the buffer, which takes no more pulls than there are
frames, produces one frame for each frame of the sender: at position `i` what the codec reconstructs of
the sender's frame `i`, if a copy of its datagram came while its frame was in the window, and a
concealed frame otherwise. The concealed frames are the frames counted as lost. -/
theorem end_to_end_alignment (P : Platform) (options : Options)
    (junk : Vector (Vector U8 kSlotPayloadBytes) kCapacity) (codec : CodecName)
    (sequenceNumber : U16) (timestamp ssrc : U32) (outBuffer : Vector U8 kMaxDatagramBytes)
    (samples : List I16) (hcount : frameCount samples ≤ 32768)
    (heven : codec = .adpcm → samples.length % 2 = 0) :
    let sent := (Sender.start codec sequenceNumber timestamp ssrc outBuffer).sendLoop P.byteOrder
      codec samples
    sent.error = none ∧ sent.datagrams.length = frameCount samples ∧
    ∀ (deliveries : List (Delivery sent.datagrams.length)) (nows : List U32) (now : U32),
      let M := jitterSystem P options junk
      let calls := feed P.byteOrder sent.datagrams deliveries ++ drain nows
      let jb : JitterBuffer P := M.run calls
      let frames := (M.trace calls).filterMap id
      (∀ i, (Delivery.copies deliveries).head? = some i → i.val = 0) →
      (∃ i ∈ Delivery.copies deliveries, i.val + 1 = sent.datagrams.length) →
      (frameCount samples ≤ nows.length → jb.returned (.pull now) = none) ∧
      (jb.returned (.pull now) = none →
        frames.length = frameCount samples ∧
        ∃ real : Nat → Option Frame,
          (∀ i, Delivered P options junk sent.datagrams deliveries i →
            real i = some (padFrame (reconstruct codec
              (stateBefore P.byteOrder codec {} samples i) (frameAt samples i))) ∧
            frames[i.val]? = real i) ∧
          (∀ i, ¬ Delivered P options junk sent.datagrams deliveries i →
            real i = none ∧ frames[i.val]? = some (concealedAt P options real i)) ∧
          jb.counts.lost = JitterBuffer.missing real (frameCount samples) ∧
          jb.counts.concealed = jb.counts.lost) := by
  intro sent
  obtain ⟨herror, hlength⟩ := sendLoop_start P.byteOrder codec sequenceNumber timestamp ssrc
    outBuffer samples
  refine ⟨herror, hlength, ?_⟩
  change sent.datagrams.length = frameCount samples at hlength
  have hparse := parse_datagram P.byteOrder codec sequenceNumber timestamp ssrc outBuffer samples
  have hdecode := decode_sentPacket P.byteOrder codec sequenceNumber timestamp ssrc outBuffer heven
  have hnum : Numbered sequenceNumber fun i : Fin sent.datagrams.length => pushed (sentPacket
      P.byteOrder codec (Sender.start codec sequenceNumber timestamp ssrc outBuffer) samples i) :=
    ⟨by omega, fun i => rfl⟩
  intro deliveries nows now M calls jb frames hfirst hlast
  have hcalls : calls = deliveries.map (Delivery.call fun i => pushed (sentPacket P.byteOrder codec
      (Sender.start codec sequenceNumber timestamp ssrc outBuffer) samples i)) ++ drain nows :=
    congrArg (· ++ drain nows) (feed_eq P.byteOrder sent.datagrams _ hparse deliveries)
  constructor
  · intro hpulls
    obtain ⟨last, hmem, _⟩ := hlast
    show JitterBuffer.returned (M.run calls) _ = none
    rw [hcalls]
    exact numbered_drained options junk hnum deliveries hfirst (List.ne_nil_of_mem hmem)
      (hlength.le.trans hpulls) now
  · intro hdone
    change JitterBuffer.returned (M.run calls) _ = none at hdone
    rw [hcalls] at hdone
    obtain ⟨real, hreal, hnone, hframes, hlost⟩ :=
      numbered_playout options junk hnum deliveries hfirst hlast nows now hdone
    rw [← hcalls, hlength] at hframes hlost
    have hget (i : Fin sent.datagrams.length) : frames[i.val]? =
        some ((real i).getD (concealedAt P options real i)) := by
      show ((M.trace calls).filterMap id)[i.val]? = _
      rw [hframes]
      exact playout_getElem? options real (hlength ▸ i.isLt)
    refine ⟨?_, real, ?_, ?_, hlost, ?_⟩
    · show ((M.trace calls).filterMap id).length = _
      rw [hframes, playout_length]
    · intro i hi
      have hreal := hreal i ((delivered_iff options junk hparse deliveries i).mp hi)
      refine ⟨hreal.trans (congrArg some (hdecode i)), ?_⟩
      rw [hget i, hreal]
      rfl
    · intro i hi
      have hnone := hnone i fun h => hi ((delivered_iff options junk hparse deliveries i).mpr h)
      refine ⟨hnone, ?_⟩
      rw [hget i, hnone]
      rfl
    · exact (JitterBuffer.balanced_run options junk calls).plc.symm

/-- 200 samples are two frames. When both datagrams arrive, the second one twice, two pulls after
the end play them. -/
theorem end_to_end_alignment_two :
    let samples : List I16 := List.replicate 200 1000
    let P := exactPlatform .little fun _ sample => sample
    let junk := Vector.replicate kCapacity (Vector.replicate kSlotPayloadBytes 0)
    let sent := (Sender.start .adpcm 65535 0 7 (Vector.replicate kMaxDatagramBytes 0)).sendLoop
      P.byteOrder .adpcm samples
    ∃ deliveries : List (Delivery sent.datagrams.length),
      (Delivery.copies deliveries).map Fin.val = [0, 1, 1] ∧
      (((jitterSystem P {} junk).trace (feed P.byteOrder sent.datagrams deliveries ++
        drain [0, 0])).filterMap id).length = 2 := by
  intro samples P junk sent
  have hcount : frameCount samples = 2 := by decide +kernel
  obtain ⟨_, hlength, h⟩ := end_to_end_alignment P {} junk .adpcm 65535 0 7
    (Vector.replicate kMaxDatagramBytes 0) samples (by rw [hcount]; decide)
    (fun _ => by decide +kernel)
  change sent.datagrams.length = frameCount samples at hlength
  rw [hcount] at hlength
  have h0 : 0 < sent.datagrams.length := by rw [hlength]; decide
  have h1 : 1 < sent.datagrams.length := by rw [hlength]; decide
  refine ⟨[.copy ⟨0, h0⟩ 0, .copy ⟨1, h1⟩ 160, .copy ⟨1, h1⟩ 170], rfl, ?_⟩
  obtain ⟨hends, hplays⟩ := h [.copy ⟨0, h0⟩ 0, .copy ⟨1, h1⟩ 160, .copy ⟨1, h1⟩ 170] [0, 0] 0
    (by intro i hi; exact congrArg Fin.val (Option.some.inj hi).symm)
    ⟨⟨1, h1⟩, List.mem_cons_of_mem _ List.mem_cons_self, hlength.symm⟩
  obtain ⟨hframes, _⟩ := hplays (hends hcount.le)
  exact hframes.trans hcount

end RtpStreamer
