import IdolGateway.ZbClient.ReceiverSafety
import IdolGateway.ZbClient.ReceiverStreams

namespace IdolGateway.ZbClient

/-- What holds between two bytes when every length byte lies in `2..198`. -/
structure Receiver.Sound (t : Receiver) : Prop where
  lenIn : t.LenIn 2 198
  filling : t.Filling
  counted : t.Counted

theorem Receiver.sound_initial : Receiver.initial.Sound :=
  ⟨by simp [LenIn, initial], by simp [Filling, initial], by simp [Counted, initial]⟩

theorem Receiver.sound_step (t : Receiver) (ch : UInt8) (ht : t.Sound)
    (hch : LenByteIn 2 198 (some t) ch) : ∃ t', (t.step ch).1 = some t' ∧ t'.Sound := by
  obtain ⟨t', hnext, hin⟩ := t.lenIn_step (by omega) ch ht.lenIn hch
  exact ⟨t', hnext, hin, t.filling_step (by omega) ch ht.lenIn ht.filling hch t' hnext,
    t.counted_step ch t' hnext⟩

def SoundState (s : Option Receiver) : Prop := ∃ t, s = some t ∧ t.Sound

theorem soundState_step (s : Option Receiver) (ch : UInt8) (hs : SoundState s)
    (hch : LenByteIn 2 198 s ch) : SoundState (thread.step s ch).1 := by
  obtain ⟨t, rfl, ht⟩ := hs
  exact t.sound_step ch ht hch

theorem soundState_initial : SoundState (some Receiver.initial) :=
  ⟨_, rfl, Receiver.sound_initial⟩

def RxEvent.Fits : RxEvent → Prop
  | .write i => i < rxbufSize
  | .read i => i < rxbufSize
  | .recieveUsart _ len => len.toNat < rxbufSize

theorem Receiver.events_fit (t : Receiver) (ch : UInt8) (ht : t.Sound) :
    ∀ e ∈ (t.step ch).2, e.Fits := by
  cases hs : t.state with
  | wwState => rw [t.step_ww ch hs]; simp
  | aaState => rw [t.step_aa ch hs]; simp
  | cmdState1 => rw [t.step_cmd ch hs]; simp [RxEvent.Fits, rxbufSize]
  | lenState => rw [t.step_len ch hs]; simp [RxEvent.Fits, rxbufSize]
  | dataState =>
    have hwrite : (RxEvent.write (2 + t.tempDataLen.toNat)).Fits := by
      have := (ht.lenIn (Or.inl hs)).2
      have := ht.filling hs
      simp only [RxEvent.Fits, rxbufSize]
      omega
    rw [t.step_data ch hs]
    by_cases hend : ((t.tempDataLen + 1).toNat : ℤ) = (t.lenToken.toNat : ℤ) - 1
    · simpa [t.dataStep_of_eq ch hend] using hwrite
    · simpa [t.dataStep_of_ne ch hend] using hwrite
  | fcsState =>
    have hhi := (ht.lenIn (Or.inr hs)).2
    have hlt : t.lenToken.toNat < 255 := by omega
    have hcrc : ∀ e ∈ t.crcEvents, e.Fits := by
      intro e he
      simp only [crcEvents, List.mem_append, List.mem_map, List.mem_range,
        List.mem_singleton] at he
      rcases he with ⟨i, hi, rfl⟩ | rfl <;> simp only [RxEvent.Fits, rxbufSize] <;> omega
    have hid : ∀ e ∈ t.idEvents, e.Fits := by
      intro e he
      simp only [idEvents, List.mem_map, List.mem_append, List.mem_replicate,
        List.mem_singleton] at he
      obtain ⟨i, hi, rfl⟩ := he
      simp only [RxEvent.Fits, rxbufSize]
      omega
    have hcall : (RxEvent.recieveUsart t.crcBuf (t.lenToken + 1)).Fits := by
      simp only [RxEvent.Fits, rxbufSize, UInt8.toNat_add, UInt8.reduceToNat]
      omega
    rw [t.step_fcs ch hs]
    by_cases hc : t.crcOf = ch
    · rw [t.fcsStep_of_eq hlt hc]
      intro e he
      simp only [List.mem_append, List.mem_singleton] at he
      rcases he with (he | he) | rfl
      · exact hcrc e he
      · exact hid e he
      · exact hcall
    · rw [t.fcsStep_of_ne hlt hc]
      exact hcrc

/-- Every access of a run whose length bytes lie in `2..198` is inside `rxbuf`. -/
theorem thread_events_fit (s : List UInt8)
    (hok : thread.Along (LenByteIn 2 198) (some Receiver.initial) s) :
    ∀ e ∈ thread.outputs (some Receiver.initial) s, e.Fits := by
  refine Transducer.outputs_invariant soundState_step ?_ soundState_initial hok
  rintro s ch ⟨t, rfl, ht⟩ -
  exact t.events_fit ch ht

/-- `pend` is what has been read of the frame the receiver is in. -/
def Pending (t : Receiver) (pend : List UInt8) : Prop :=
  match t.state with
  | .wwState => pend = []
  | .aaState => pend = [0x55]
  | .cmdState1 => pend = [0x55, 0xaa]
  | .lenState => pend = [0x55, 0xaa, t.rxbuf 0]
  | .dataState | .fcsState => ∃ c ds, pend = 0x55 :: 0xaa :: c :: t.lenToken :: ds ∧
      ds.length = t.tempDataLen.toNat ∧
      firstCells t.rxbuf (ds.length + 2) = c :: t.lenToken :: ds

def Completes (pend : List UInt8) (ch : UInt8) (cs : List RxCall) (f : Frame) : Prop :=
  pend ++ [ch] = f.bytes ∧ cs.map RxCall.args = [delivered f.payload]

theorem Receiver.data_pending (t : Receiver) (ch : UInt8) (hs : t.state = .dataState)
    (ht : t.Sound) {pend : List UInt8} (hp : Pending t pend) :
    ∃ t', (t.step ch).1 = some t' ∧ calls (t.step ch).2 = [] ∧ Pending t' (pend ++ [ch]) := by
  rw [Pending, hs] at hp
  obtain ⟨c, ds, rfl, hlen, hbuf⟩ := hp
  have hlt := ht.filling hs
  have hL := t.lenToken.toNat_lt
  have hinc : (t.tempDataLen + 1).toNat = t.tempDataLen.toNat + 1 := by
    rw [UInt8.toNat_add]
    exact Nat.mod_eq_of_lt (by simp only [UInt8.reduceToNat]; omega)
  have hgrow : ∃ c' ds', 0x55 :: 0xaa :: c :: t.lenToken :: ds ++ [ch] =
        0x55 :: 0xaa :: c' :: t.lenToken :: ds' ∧ ds'.length = (t.tempDataLen + 1).toNat ∧
      firstCells (t.stored ch).rxbuf (ds'.length + 2) = c' :: t.lenToken :: ds' := by
    refine ⟨c, ds ++ [ch], rfl, by simp [hlen, hinc], ?_⟩
    -- the byte goes behind the part of the frame that is already in the buffer
    have hidx : 2 + t.tempDataLen.toNat = ds.length + 2 := by omega
    have hstored : (t.stored ch).rxbuf = Function.update t.rxbuf (ds.length + 2) ch := by
      simp only [stored, hidx]
    rw [hstored, List.length_append, List.length_singleton, Nat.add_right_comm, firstCells_succ,
      firstCells_update_of_le _ le_rfl, hbuf, Function.update_self]
    rfl
  rw [t.step_data ch hs]
  by_cases hend : ((t.tempDataLen + 1).toNat : ℤ) = (t.lenToken.toNat : ℤ) - 1
  · rw [t.dataStep_of_eq ch hend]
    exact ⟨_, rfl, rfl, hgrow⟩
  · rw [t.dataStep_of_ne ch hend]
    refine ⟨_, rfl, rfl, ?_⟩
    rw [Pending, show (t.stored ch).state = .dataState from hs]
    exact hgrow

theorem Receiver.fcs_pending (t : Receiver) (ch : UInt8) (hs : t.state = .fcsState)
    (ht : t.Sound) {pend : List UInt8} (hp : Pending t pend) :
    ∃ t', (t.step ch).1 = some t' ∧ t'.state = .wwState ∧
      (calls (t.step ch).2 = [] ∨ ∃ f, Completes pend ch (calls (t.step ch).2) f) := by
  rw [Pending, hs] at hp
  obtain ⟨c, ds, rfl, hlen, hbuf⟩ := hp
  obtain ⟨hlo, hhi⟩ := ht.lenIn (Or.inr hs)
  have hcount := ht.counted hs
  obtain ⟨t', hafter, hww, -, hcalls⟩ := t.fcsStep_spec ch (by omega)
  rw [t.step_fcs ch hs, hcalls]
  refine ⟨t', hafter, hww, ?_⟩
  by_cases hc : t.crcOf = ch
  · right
    -- the bounds on the length byte are those of a frame
    let f : Frame := ⟨c, ds, by omega, by omega⟩
    have htoken : f.lenByte = t.lenToken := by
      rw [← UInt8.toNat_inj, f.lenByte_toNat]
      change ds.length + 1 = _
      omega
    have hpayload : c :: t.lenToken :: ds = f.payload := by rw [← htoken]; rfl
    have hn : t.lenToken.toNat + 1 = ds.length + 2 := by omega
    have hsum : t.crcOf = f.payload.sum := by rw [crcOf, hn, hbuf, hpayload]
    have hlast : (t.lenToken + 1).toNat = t.lenToken.toNat + 1 := by
      rw [UInt8.toNat_add]
      exact Nat.mod_eq_of_lt (by simp only [UInt8.reduceToNat]; omega)
    refine ⟨f, ?_, ?_⟩
    · rw [Frame.bytes, ← hpayload, ← hc, hsum, hpayload]
      simp [← hpayload]
    · rw [if_pos hc, List.map_singleton, RxCall.args, RxCall.contents, crcBuf, hlast,
        firstCells_update_of_le _ le_rfl, hn, hbuf, hpayload, delivered, f.payload_length]
  · left
    exact if_neg hc

/-- One byte either extends the pending part, drops it, or completes a frame. -/
theorem Receiver.pending_step (t : Receiver) (ch : UInt8) (ht : t.Sound) {pend : List UInt8}
    (hp : Pending t pend) :
    ∃ t', (t.step ch).1 = some t' ∧
      ((calls (t.step ch).2 = [] ∧ (Pending t' (pend ++ [ch]) ∨ Pending t' [])) ∨
        ∃ f, Completes pend ch (calls (t.step ch).2) f ∧ Pending t' []) := by
  cases hs : t.state with
  | wwState =>
    rw [Pending, hs] at hp
    subst hp
    rw [t.step_ww ch hs]
    refine ⟨_, rfl, Or.inl ⟨rfl, ?_⟩⟩
    by_cases h : ch = 0x55 <;> simp [h, Pending, hs]
  | aaState =>
    rw [Pending, hs] at hp
    subst hp
    rw [t.step_aa ch hs]
    refine ⟨_, rfl, Or.inl ⟨rfl, ?_⟩⟩
    by_cases h : ch = 0xaa <;> simp [h, Pending]
  | cmdState1 =>
    rw [Pending, hs] at hp
    subst hp
    rw [t.step_cmd ch hs]
    exact ⟨_, rfl, Or.inl ⟨rfl, Or.inl (by simp [Pending])⟩⟩
  | lenState =>
    rw [Pending, hs] at hp
    subst hp
    rw [t.step_len ch hs]
    refine ⟨_, rfl, Or.inl ⟨rfl, Or.inl ?_⟩⟩
    exact ⟨t.rxbuf 0, [], rfl, rfl, by simp [firstCells, List.range_succ]⟩
  | dataState =>
    obtain ⟨t', hnext, hcalls, hpend⟩ := t.data_pending ch hs ht hp
    exact ⟨t', hnext, Or.inl ⟨hcalls, Or.inl hpend⟩⟩
  | fcsState =>
    obtain ⟨t', hnext, hww, hcalls⟩ := t.fcs_pending ch hs ht hp
    have hnil : Pending t' [] := by rw [Pending, hww]
    rcases hcalls with hcalls | ⟨f, hf⟩
    · exact ⟨t', hnext, Or.inl ⟨hcalls, Or.inr hnil⟩⟩
    · exact ⟨t', hnext, Or.inr ⟨f, hf, hnil⟩⟩

/-- A stream cut into gaps, each followed by a frame, and a rest. -/
def pieces (ps : List (List UInt8 × Frame)) : List UInt8 :=
  ps.flatMap fun p => p.1 ++ p.2.bytes

theorem parsed (s : List UInt8)
    (hok : thread.Along (LenByteIn 2 198) (some Receiver.initial) s) :
    ∃ t ps gap pend, thread.after (some Receiver.initial) s = some t ∧ t.Sound ∧
      Pending t pend ∧ s = pieces ps ++ gap ++ pend ∧
      (threadCalls Receiver.initial s).map RxCall.args = ps.map fun p => delivered p.2.payload := by
  -- the last byte extends the pending part, turns it into gap, or completes a piece
  induction s using List.reverseRecOn with
  | nil => exact ⟨_, [], [], [], rfl, Receiver.sound_initial, rfl, rfl, rfl⟩
  | append_singleton s ch ih =>
    rw [Transducer.along_append] at hok
    obtain ⟨t, ps, gap, pend, hafter, ht, hp, rfl, hcalls⟩ := ih hok.1
    rw [hafter] at hok
    obtain ⟨t', hnext, ht'⟩ := t.sound_step ch ht hok.2.1
    obtain ⟨t'', hnext', hcase⟩ := t.pending_step ch ht hp
    obtain rfl : t' = t'' := Option.some.inj (hnext.symm.trans hnext')
    have hlast : threadCalls t [ch] = calls (t.step ch).2 := by simp [threadCalls]
    rw [Transducer.after_append, hafter, threadCalls_append _ _ _ hafter, hlast, List.map_append,
      hcalls]
    rcases hcase with ⟨hnone, hext | hdrop⟩ | ⟨f, ⟨hbytes, hargs⟩, hnil⟩
    · exact ⟨t', ps, gap, pend ++ [ch], hnext, ht', hext, by simp, by simp [hnone]⟩
    · exact ⟨t', ps, gap ++ pend ++ [ch], [], hnext, ht', hdrop, by simp, by simp [hnone]⟩
    · refine ⟨t', ps ++ [(gap, f)], [], [], hnext, ht', hnil, ?_, by simp [hargs]⟩
      simp [pieces, ← hbytes]

/-- Every call of `recieve_usart` is for a frame that stands in the stream; the
frames are disjoint and in the order of the calls. -/
theorem dispatched_are_frames (s : List UInt8)
    (hok : thread.Along (LenByteIn 2 198) (some Receiver.initial) s) :
    ∃ ps rest, s = pieces ps ++ rest ∧
      (threadCalls Receiver.initial s).map RxCall.args = ps.map fun p => delivered p.2.payload := by
  obtain ⟨t, ps, gap, pend, -, -, -, hs, hcalls⟩ := parsed s hok
  exact ⟨ps, gap ++ pend, by rw [hs, List.append_assoc], hcalls⟩

theorem dispatched_are_frames_noisy :
    ∃ ps rest, [1, 0x55, 2, 0x55, 0xaa, 7, 2, 0x55, 0x5e, 0x55, 0xaa, 7, 2, 0, 0] =
        pieces ps ++ rest ∧
      (threadCalls Receiver.initial
        [1, 0x55, 2, 0x55, 0xaa, 7, 2, 0x55, 0x5e, 0x55, 0xaa, 7, 2, 0, 0]).map RxCall.args =
          ps.map fun p => delivered p.2.payload :=
  dispatched_are_frames _ (by decide +kernel)

end IdolGateway.ZbClient
