import IdolGateway.ZbClient.ReceiverFrames
import Mathlib.Algebra.BigOperators.Group.List.Basic
import Mathlib.Algebra.Group.Nat.Even

namespace IdolGateway.ZbClient

def RxCall.args (c : RxCall) : List UInt8 × ℕ := (c.contents, c.len.toNat)

def delivered (payload : List UInt8) : List UInt8 × ℕ := (payload, payload.length)

def Receiver.ready (t : Receiver) : Receiver := { t with state := .wwState }

theorem Receiver.ready_state (t : Receiver) : t.ready.state = .wwState := rfl

theorem firstCells_frameBuf (buf : ℕ → UInt8) (payload : List UInt8) :
    firstCells (frameBuf buf payload) payload.length = payload := by
  rw [frameBuf, writeAt_append, Nat.zero_add, writeAt_cons, writeAt_nil,
    firstCells_update_of_le _ le_rfl, firstCells_writeAt]

namespace Frame

theorem data_ne_nil (f : Frame) : f.data ≠ [] :=
  List.ne_nil_of_length_pos f.data_pos

theorem callLen_toNat (f : Frame) : (f.lenByte + 1).toNat = f.payload.length := by
  have := f.data_le
  rw [UInt8.toNat_add, f.lenByte_toNat, f.payload_length]
  exact Nat.mod_eq_of_lt (by simp only [UInt8.reduceToNat]; omega)

theorem args_frameBuf (f : Frame) (buf : ℕ → UInt8) :
    RxCall.args ⟨frameBuf buf f.payload, f.lenByte + 1⟩ = delivered f.payload := by
  simp only [RxCall.args, RxCall.contents, f.callLen_toNat, firstCells_frameBuf, delivered]

end Frame

/-- A valid frame is delivered once and leaves the receiver ready. -/
theorem after_frame (t : Receiver) (hs : t.state = .wwState) (f : Frame) :
    ∃ t', thread.after (some t) f.bytes = some t' ∧ t'.state = .wwState ∧
      threadCalls t f.bytes = [⟨frameBuf t.rxbuf f.payload, f.lenByte + 1⟩] := by
  have hlt : f.lenByte.toNat < 255 := by have := f.data_le; rw [f.lenByte_toNat]; omega
  obtain ⟨t', hafter, hww, -, hcalls⟩ := after_piece t hs f.cmd f.lenByte f.data f.payload.sum
    f.data_ne_nil f.lenByte_toNat hlt
  exact ⟨t', hafter, hww, hcalls.trans (if_pos rfl)⟩

theorem after_frames (t : Receiver) (hs : t.state = .wwState) (fs : List Frame) :
    ∃ t', thread.after (some t) (fs.flatMap Frame.bytes) = some t' ∧ t'.state = .wwState ∧
      (threadCalls t (fs.flatMap Frame.bytes)).map RxCall.args =
        fs.map fun f => delivered f.payload := by
  induction fs generalizing t with
  | nil => exact ⟨t, rfl, hs, rfl⟩
  | cons f fs ih =>
    obtain ⟨t₁, hafter₁, hww₁, hcalls₁⟩ := after_frame t hs f
    obtain ⟨t₂, hafter₂, hww₂, hcalls₂⟩ := ih t₁ hww₁
    refine ⟨t₂, ?_, hww₂, ?_⟩
    · rw [List.flatMap_cons, Transducer.after_append, hafter₁, hafter₂]
    · rw [List.flatMap_cons, threadCalls_append t _ _ hafter₁, hcalls₁, List.map_append, hcalls₂,
        List.map_singleton, f.args_frameBuf, List.map_cons, List.singleton_append]

def sentCalls (msgs : List Message) : List UsartCall := msgs.flatMap Message.calls

def sentBytes (msgs : List Message) : List UInt8 := (sentCalls msgs).flatMap UsartCall.line

theorem sentBytes_eq (msgs : List Message) :
    sentBytes msgs = (msgs.map Message.frame).flatMap Frame.bytes := by
  unfold sentBytes sentCalls
  induction msgs with
  | nil => rfl
  | cons msg msgs ih =>
    rw [List.flatMap_cons, List.flatMap_append, ih, msg.flatMap_line, List.map_cons,
      List.flatMap_cons]

theorem sentCalls_payload (msgs : List Message) :
    (sentCalls msgs).map UsartCall.payload = msgs.map fun msg => msg.frame.payload := by
  unfold sentCalls
  induction msgs with
  | nil => rfl
  | cons msg msgs ih =>
    obtain ⟨c, hc, hp⟩ := msg.calls_eq
    rw [List.flatMap_cons, List.map_append, ih, hc, List.map_singleton, hp, List.map_cons,
      List.singleton_append]

/-- The bytes of any sequence of messages, fed to a receiver in `WW_STATE`, give
back the messages: one call each, in order, with the payload and its length. -/
theorem wire_round_trip (msgs : List Message) (t : Receiver) :
    (sentCalls msgs).length = msgs.length ∧
      ∃ t', thread.after (some t.ready) (sentBytes msgs) = some t' ∧ t'.state = .wwState ∧
        (threadCalls t.ready (sentBytes msgs)).map RxCall.args =
          (sentCalls msgs).map fun c => delivered c.payload := by
  have hpayload := sentCalls_payload msgs
  refine ⟨by simpa using congrArg List.length hpayload, ?_⟩
  obtain ⟨t', hafter, hww, hcalls⟩ := after_frames t.ready t.ready_state (msgs.map Message.frame)
  refine ⟨t', by rw [sentBytes_eq, hafter], hww, ?_⟩
  have hd := congrArg (List.map delivered) hpayload
  rw [sentBytes_eq, hcalls]
  simpa [List.map_map, Function.comp_def] using hd.symm

/-- Changing one summand changes the sum. -/
theorem sum_set_ne (xs : List UInt8) (k : ℕ) (v : UInt8) (hk : k < xs.length) (hv : xs[k] ≠ v) :
    (xs.set k v).sum ≠ xs.sum := by
  induction xs generalizing k with
  | nil => simp at hk
  | cons x xs ih =>
    cases k with
    | zero =>
      intro h
      rw [List.set_cons_zero, List.sum_cons, List.sum_cons] at h
      exact hv (add_right_cancel h).symm
    | succ k =>
      intro h
      rw [List.set_cons_succ, List.sum_cons, List.sum_cons] at h
      exact ih k (by simpa using hk) hv (add_left_cancel h)

/-- The altered bytes are again a header with the same length byte, as many data
bytes, and a check byte that is not their sum. -/
theorem altered_eq (f : Frame) (p : ℕ) (v : UInt8) (hp : p < f.bytes.length)
    (hpos : p = 2 ∨ 4 ≤ p) (hv : f.bytes[p] ≠ v) :
    ∃ c ds chk, f.bytes.set p v = 0x55 :: 0xaa :: c :: f.lenByte :: (ds ++ [chk]) ∧
      ds.length = f.data.length ∧ (c :: f.lenByte :: ds).sum ≠ chk := by
  have hlen := f.bytes_length
  rcases hpos with rfl | h4
  -- the command byte changes; the check byte is still the old sum
  · refine ⟨v, f.data, f.payload.sum, rfl, rfl, ?_⟩
    exact sum_set_ne f.payload 0 v (by simp [f.payload_length]) hv
  · obtain ⟨k, rfl⟩ := Nat.exists_eq_add_of_le h4
    -- byte `4 + k` is a data byte, or the check byte behind them
    by_cases hk : k < f.data.length
    · refine ⟨f.cmd, f.data.set k v, f.payload.sum, ?_, by simp, ?_⟩
      · simp [Frame.bytes, Frame.payload, Nat.add_comm 4 k, hk]
      · have hbound : k + 2 < f.payload.length := by rw [f.payload_length]; omega
        have hv' : f.payload[k + 2] ≠ v := by
          simpa [Frame.bytes, Frame.payload, Nat.add_comm 4 k, hk] using hv
        simpa [Frame.payload] using sum_set_ne f.payload (k + 2) v _ hv'
    · have hk' : k = f.data.length := by omega
      subst hk'
      refine ⟨f.cmd, f.data, v, ?_, rfl, ?_⟩
      · simp [Frame.bytes, Frame.payload, Nat.add_comm 4]
      · simpa [Frame.bytes, Frame.payload, Nat.add_comm 4] using hv

/-- A stream of frames in which byte `p` of the frame `f` is replaced by `v`. -/
def corrupted (fs : List Frame) (f : Frame) (p : ℕ) (v : UInt8) (gs : List Frame) : List UInt8 :=
  fs.flatMap Frame.bytes ++ (f.bytes.set p v ++ gs.flatMap Frame.bytes)

/-- One altered byte, not a header byte and not the length byte, suppresses the
call for its own frame and for no other. -/
theorem corruption_contained (fs gs : List Frame) (f : Frame) (p : ℕ) (v : UInt8) (t : Receiver)
    (hp : p < f.bytes.length) (hpos : p = 2 ∨ 4 ≤ p) (hv : f.bytes[p] ≠ v) :
    ∃ t', thread.after (some t.ready) (corrupted fs f p v gs) = some t' ∧ t'.state = .wwState ∧
      (threadCalls t.ready (corrupted fs f p v gs)).map RxCall.args =
        (fs ++ gs).map fun f => delivered f.payload := by
  obtain ⟨t₁, hafter₁, hww₁, hcalls₁⟩ := after_frames t.ready t.ready_state fs
  obtain ⟨c, ds, chk, hset, hds, hsum⟩ := altered_eq f p v hp hpos hv
  have hlt : f.lenByte.toNat < 255 := by have := f.data_le; rw [f.lenByte_toNat]; omega
  have hne : ds ≠ [] := List.ne_nil_of_length_pos (by rw [hds]; exact f.data_pos)
  obtain ⟨t₂, hafter₂, hww₂, -, hcalls₂⟩ := after_piece t₁ hww₁ c f.lenByte ds chk hne
    (by rw [hds]; exact f.lenByte_toNat) hlt
  rw [if_neg hsum] at hcalls₂
  rw [← hset] at hafter₂ hcalls₂
  obtain ⟨t₃, hafter₃, hww₃, hcalls₃⟩ := after_frames t₂ hww₂ gs
  refine ⟨t₃, ?_, hww₃, ?_⟩
  · rw [corrupted, Transducer.after_append, hafter₁, Transducer.after_append, hafter₂, hafter₃]
  · rw [corrupted, threadCalls_append _ _ _ hafter₁, threadCalls_append _ _ _ hafter₂, hcalls₂,
      List.nil_append, List.map_append, hcalls₁, hcalls₃, List.map_append]

/-- The second of two ping frames loses its low id byte to noise that looks like a
header; the first is still delivered. -/
theorem corruption_contained_ping :
    ∃ t', thread.after (some Receiver.initial.ready)
        (corrupted [(Message.ping 7).frame] (Message.ping 0x55aa).frame 5 0x55 []) = some t' ∧
      t'.state = .wwState ∧
      (threadCalls Receiver.initial.ready
        (corrupted [(Message.ping 7).frame] (Message.ping 0x55aa).frame 5 0x55 [])).map
          RxCall.args = [delivered (Message.ping 7).frame.payload] :=
  corruption_contained [(Message.ping 7).frame] [] (Message.ping 0x55aa).frame 5 0x55 _
    (by decide) (by decide) (by decide)

end IdolGateway.ZbClient
