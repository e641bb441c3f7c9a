import IdolGateway.Library.Interleaving
import IdolGateway.ZbClient.ReceiverSoundness

namespace IdolGateway.ZbClient

inductive Sender
  | mainLoop | receiver | daemon
  deriving DecidableEq

instance : Fintype Sender := ⟨{.mainLoop, .receiver, .daemon}, fun s => by cases s <;> simp⟩

def FrameLen (n : ℕ) : Prop := 2 ≤ n ∧ n ≤ 198

instance : DecidablePred FrameLen := fun _ => inferInstanceAs (Decidable (_ ∧ _))

theorem Receiver.lost_of_not_lenByteIn (t : Receiver) (ch : UInt8)
    (hch : ¬ LenByteIn 2 198 (some t) ch) :
    ((t.step ch).2.map (RxEvent.cost FrameLen)).sum + creditOf FrameLen (t.step ch).1 ≤
      t.credit FrameLen := by
  simp only [LenByteIn, not_forall] at hch
  obtain ⟨t', heq, hs, hout⟩ := hch
  obtain rfl : t = t' := Option.some.inj heq
  rw [cost_events, t.step_len ch hs]
  simp [creditOf, credit, FrameLen, hout]

/-- If the delivered calls take up every byte, every length byte is one of a frame. -/
theorem lenBytes_of_spent {xs : List UInt8}
    (hspent : ((threadCalls Receiver.initial xs).map fun c =>
      Receiver.frameCost FrameLen c.len.toNat).sum = xs.length) :
    thread.Along (LenByteIn 2 198) (some Receiver.initial) xs := by
  apply Transducer.along_of_spent (RxEvent.cost FrameLen) (Receiver.creditOf FrameLen)
    (fun s ch _ => countedState_step s ch) paid_run
  · intro s ch _ hch
    cases s with
    | none =>
      have hnone : LenByteIn 2 198 none ch := by simp [LenByteIn]
      exact absurd hnone hch
    | some t => exact t.lost_of_not_lenByteIn ch hch
  · intro t ht
    obtain rfl : Receiver.initial = t := Option.some.inj ht
    exact Receiver.sound_initial.counted
  · rw [cost_events, ← threadCalls, hspent]
    exact (Nat.zero_add _).le

theorem Frame.payload_injective : Function.Injective Frame.payload := by
  intro f g h
  cases f
  cases g
  simp only [payload, List.cons.injEq] at h
  simp [h.1, h.2.2]

theorem Frame.frameCost_payload (f : Frame) :
    Receiver.frameCost FrameLen f.payload.length = f.bytes.length := by
  have hlen : FrameLen (f.data.length + 2 - 1) := by
    have := f.data_pos
    have := f.data_le
    unfold FrameLen
    omega
  rw [f.payload_length, f.bytes_length, Receiver.frameCost, if_pos hlen]

theorem length_pieces (ps : List (List UInt8 × Frame)) :
    (pieces ps).length =
      (ps.map fun p => p.1.length).sum + (ps.map fun p => p.2.bytes.length).sum := by
  induction ps with
  | nil => rfl
  | cons p ps ih =>
    rw [pieces, List.flatMap_cons, List.length_append, ← pieces, ih, List.length_append]
    simp only [List.map_cons, List.sum_cons]
    omega

theorem pieces_of_no_gaps {ps : List (List UInt8 × Frame)} (h : ∀ p ∈ ps, p.1 = []) :
    pieces ps = (ps.map Prod.snd).flatMap Frame.bytes := by
  rw [pieces, List.flatMap_map]
  apply List.flatMap_congr
  intro p hp
  rw [h p hp, List.nil_append]

/-- A stream as long as some frames, of which exactly these are delivered, is these
frames in some order. -/
theorem frames_of_all_delivered {xs : List UInt8} {fs : Multiset Frame}
    (hlen : xs.length = (fs.map fun f => f.bytes.length).sum)
    (hall : ((threadCalls Receiver.initial xs).map RxCall.args : Multiset (List UInt8 × ℕ)) =
      fs.map fun f => delivered f.payload) :
    ∃ order : List Frame, (order : Multiset Frame) = fs ∧ xs = order.flatMap Frame.bytes := by
  have hspent : ((threadCalls Receiver.initial xs).map fun c =>
      Receiver.frameCost FrameLen c.len.toNat).sum = xs.length := by
    have h := congrArg (fun m => (Multiset.map (fun a : List UInt8 × ℕ =>
      Receiver.frameCost FrameLen a.2) m).sum) hall
    simp only [Multiset.map_map, Multiset.map_coe, Multiset.sum_coe, List.map_map] at h
    rw [hlen]
    refine h.trans ?_
    congr 1
    exact Multiset.map_congr rfl fun f _ => f.frameCost_payload
  obtain ⟨t, ps, gap, pend, -, -, -, rfl, hargs⟩ := parsed xs (lenBytes_of_spent hspent)
  -- the frames in the stream are the frames sent
  have hframes : ((ps.map Prod.snd : List Frame) : Multiset Frame) = fs := by
    have hinj : Function.Injective fun f : Frame => delivered f.payload :=
      fun f g h => Frame.payload_injective (Prod.mk.inj h).1
    apply Multiset.map_injective hinj
    rw [← hall, hargs, Multiset.map_coe, List.map_map]
    rfl
  -- so they take up all bytes of it
  have hsum : (fs.map fun f => f.bytes.length).sum = (ps.map fun p => p.2.bytes.length).sum := by
    rw [← hframes, Multiset.map_coe, Multiset.sum_coe, List.map_map]
    rfl
  rw [hsum, List.length_append, List.length_append, length_pieces] at hlen
  have hgaps : ∀ p ∈ ps, p.1 = [] := by
    intro p hp
    have hzero : (ps.map fun p => p.1.length).sum = 0 := by omega
    rw [List.sum_eq_zero_iff_forall_eq_nat] at hzero
    exact List.eq_nil_of_length_eq_zero (hzero _ (List.mem_map_of_mem hp))
  refine ⟨ps.map Prod.snd, hframes, ?_⟩
  have hgap : gap = [] := List.eq_nil_of_length_eq_zero (by omega)
  have hpend : pend = [] := List.eq_nil_of_length_eq_zero (by omega)
  rw [pieces_of_no_gaps hgaps, hgap, hpend, List.append_nil, List.append_nil]

def sentFrames (msgs : Sender → List Message) : Multiset Frame :=
  ∑ i, ((msgs i).map Message.frame : Multiset Frame)

/-- The line as the turns put the bytes of the threads on it. -/
def lineBytes (msgs : Sender → List Message) (turns : List Sender) : List UInt8 :=
  (interleaving Sender UInt8).outputs (startAll fun i => sentBytes (msgs i)) turns

def AllWritten (msgs : Sender → List Message) (turns : List Sender) : Prop :=
  ∀ i, ((interleaving Sender UInt8).after (startAll fun i => sentBytes (msgs i)) turns i).todo = []

instance (msgs : Sender → List Message) (turns : List Sender) : Decidable (AllWritten msgs turns) :=
  inferInstanceAs (Decidable (∀ _, _ = []))

def sentPayloads (msgs : Sender → List Message) : Multiset (List UInt8 × ℕ) :=
  ∑ i, ((sentCalls (msgs i)).map fun c => delivered c.payload : Multiset (List UInt8 × ℕ))

theorem sentPayloads_eq (msgs : Sender → List Message) :
    sentPayloads msgs = (sentFrames msgs).map fun f => delivered f.payload := by
  unfold sentPayloads sentFrames
  rw [← Multiset.coe_mapAddMonoidHom, map_sum]
  apply Finset.sum_congr rfl
  intro i _
  have h := congrArg (List.map delivered) (sentCalls_payload (msgs i))
  rw [List.map_map, List.map_map] at h
  rw [Multiset.coe_mapAddMonoidHom, Multiset.map_coe, List.map_map]
  exact congrArg _ h

theorem length_lineBytes {msgs : Sender → List Message} {turns : List Sender}
    (hdone : AllWritten msgs turns) :
    (lineBytes msgs turns).length = ((sentFrames msgs).map fun f => f.bytes.length).sum := by
  have h := congrArg Multiset.card (interleaving_complete hdone)
  rw [Multiset.coe_card, Multiset.card_sum] at h
  rw [lineBytes, h, sentFrames, ← Multiset.coe_mapAddMonoidHom, map_sum, Multiset.sum_sum]
  apply Finset.sum_congr rfl
  intro i _
  rw [Multiset.coe_mapAddMonoidHom, Multiset.map_coe, Multiset.sum_coe, Multiset.coe_card,
    sentBytes_eq, List.length_flatMap]

/-- In every interleaving of the bytes of three threads, exactly the payloads sent are
delivered if and only if the line carries the frames one after another. -/
theorem senders_delivered_iff (msgs : Sender → List Message) (turns : List Sender)
    (hdone : AllWritten msgs turns) :
    ((threadCalls Receiver.initial (lineBytes msgs turns)).map RxCall.args :
        Multiset (List UInt8 × ℕ)) = sentPayloads msgs ↔
      ∃ order : List Frame, (order : Multiset Frame) = sentFrames msgs ∧
        lineBytes msgs turns = order.flatMap Frame.bytes := by
  rw [sentPayloads_eq]
  constructor
  · exact frames_of_all_delivered (length_lineBytes hdone)
  · rintro ⟨order, horder, hline⟩
    obtain ⟨t, -, -, hargs⟩ := after_frames Receiver.initial rfl order
    rw [hline, hargs, ← horder, Multiset.map_coe]

/-- The main loop switches the kitchen off while the daemon switches the living room on. -/
def twoMessages : Sender → List Message
  | .mainLoop => [.ctrl chufangId ⟨3, by decide⟩ 0 0 0]
  | .receiver => []
  | .daemon => [.ctrl ketingId ⟨3, by decide⟩ 1 1 1]

/-- One thread writes its frame after the other, and both arrive. -/
theorem senders_delivered_in_turn :
    let turns := List.replicate 10 Sender.mainLoop ++ List.replicate 10 Sender.daemon
    ((threadCalls Receiver.initial (lineBytes twoMessages turns)).map RxCall.args :
        Multiset (List UInt8 × ℕ)) = sentPayloads twoMessages :=
  (senders_delivered_iff twoMessages _ (by decide +kernel)).mpr
    ⟨[(Message.ctrl chufangId ⟨3, by decide⟩ 0 0 0).frame,
      (Message.ctrl ketingId ⟨3, by decide⟩ 1 1 1).frame], by rfl, by decide +kernel⟩

/-- The daemon writes its frame behind the first byte of the main loop's: neither arrives. -/
theorem split_frame_lost :
    let turns := .mainLoop :: (List.replicate 10 Sender.daemon ++ List.replicate 9 .mainLoop)
    AllWritten twoMessages turns ∧
      (threadCalls Receiver.initial (lineBytes twoMessages turns)).map RxCall.args = [] ∧
      ((threadCalls Receiver.initial (lineBytes twoMessages turns)).map RxCall.args :
        Multiset (List UInt8 × ℕ)) ≠ sentPayloads twoMessages := by
  decide +kernel

end IdolGateway.ZbClient
