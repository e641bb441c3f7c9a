import IdolGateway.ZbClient.Receiver

namespace IdolGateway.ZbClient

namespace Receiver

def crcOf (t : Receiver) : UInt8 := (firstCells t.rxbuf (t.lenToken.toNat + 1)).sum

def crcBuf (t : Receiver) : ℕ → UInt8 :=
  Function.update t.rxbuf (t.lenToken.toNat + 1) t.crcOf

def crcEvents (t : Receiver) : List RxEvent :=
  (List.range (t.lenToken.toNat + 1)).map RxEvent.read ++ [.write (t.lenToken.toNat + 1)]

def idEvents (t : Receiver) : List RxEvent :=
  (List.replicate (t.lenToken.toNat + 1) 2 ++ [3]).map RxEvent.read

theorem fcsStep_of_eq (t : Receiver) {ch : UInt8} (h : t.lenToken.toNat < 255)
    (hc : t.crcOf = ch) :
    t.fcsStep ch =
      (some { t with
        state := .wwState
        fscToken := ch
        rxbuf := t.crcBuf
        len := t.lenToken + 1
        id := (t.crcBuf 2).toUInt16 <<< 8 ||| (t.crcBuf 3).toUInt16 },
      t.crcEvents ++ t.idEvents ++ [.recieveUsart t.crcBuf (t.lenToken + 1)]) := by
  have hf : t.lenToken.toNat + 1 < loopFuel := by unfold loopFuel; omega
  simp only [fcsStep, crcLoop_eq t.rxbuf h hf, idLoop_eq _ _ h hf]
  exact if_pos hc

theorem fcsStep_of_ne (t : Receiver) {ch : UInt8} (h : t.lenToken.toNat < 255)
    (hc : t.crcOf ≠ ch) :
    t.fcsStep ch = (some { t with state := .wwState, fscToken := ch, rxbuf := t.crcBuf },
      t.crcEvents) := by
  have hf : t.lenToken.toNat + 1 < loopFuel := by unfold loopFuel; omega
  simp only [fcsStep, crcLoop_eq t.rxbuf h hf]
  exact if_neg hc

theorem fcsStep_of_255 (t : Receiver) (ch : UInt8) (h : t.lenToken = 255) :
    t.fcsStep ch = (none, []) := by
  simp only [fcsStep, h, crcLoop_of_255]

@[simp] theorem calls_crcEvents (t : Receiver) : calls t.crcEvents = [] := by simp [crcEvents]

@[simp] theorem calls_idEvents (t : Receiver) : calls t.idEvents = [] := by
  rw [idEvents, calls_reads]

/-- What `FCS_STATE` does with a length byte other than 255. -/
theorem fcsStep_spec (t : Receiver) (ch : UInt8) (h : t.lenToken.toNat < 255) :
    ∃ t', (t.fcsStep ch).1 = some t' ∧ t'.state = .wwState ∧ t'.rxbuf = t.crcBuf ∧
      calls (t.fcsStep ch).2 = if t.crcOf = ch then [⟨t.crcBuf, t.lenToken + 1⟩] else [] := by
  by_cases hc : t.crcOf = ch
  · rw [fcsStep_of_eq t h hc, if_pos hc]
    exact ⟨_, rfl, rfl, rfl, by simp⟩
  · rw [fcsStep_of_ne t h hc, if_neg hc]
    exact ⟨_, rfl, rfl, rfl, by simp⟩

end Receiver

namespace Receiver

def stored (t : Receiver) (ch : UInt8) : Receiver :=
  { t with
    rxbuf := Function.update t.rxbuf (2 + t.tempDataLen.toNat) ch
    tempDataLen := t.tempDataLen + 1 }

theorem dataStep_of_eq (t : Receiver) (ch : UInt8)
    (h : ((t.tempDataLen + 1).toNat : ℤ) = (t.lenToken.toNat : ℤ) - 1) :
    t.dataStep ch = (some { t.stored ch with state := .fcsState },
      [.write (2 + t.tempDataLen.toNat)]) := if_pos h

theorem dataStep_of_ne (t : Receiver) (ch : UInt8)
    (h : ((t.tempDataLen + 1).toNat : ℤ) ≠ (t.lenToken.toNat : ℤ) - 1) :
    t.dataStep ch = (some (t.stored ch), [.write (2 + t.tempDataLen.toNat)]) := if_neg h

end Receiver

theorem threadCalls_append (t : Receiver) (xs ys : List UInt8) {t' : Receiver}
    (h : thread.after (some t) xs = some t') :
    threadCalls t (xs ++ ys) = threadCalls t xs ++ threadCalls t' ys := by
  simp [threadCalls, Transducer.outputs_append, h]

def afterHeader (t : Receiver) (c L : UInt8) : Receiver :=
  { t with
    state := .dataState
    lenToken := L
    tempDataLen := 0
    rxbuf := writeAt t.rxbuf 0 [c, L] }

theorem after_header (t : Receiver) (hs : t.state = .wwState) (c L : UInt8) :
    thread.after (some t) [0x55, 0xaa, c, L] = some (afterHeader t c L) ∧
      threadCalls t [0x55, 0xaa, c, L] = [] := by
  simp [threadCalls, afterHeader, Receiver.step, hs, calls, RxEvent.call?]

/-- The data bytes fill the buffer from `2 + tempDataLen` on, and the last one
announced by the length byte ends `DATA_STATE`. -/
theorem after_data (t : Receiver) (ds : List UInt8) (hs : t.state = .dataState) (hne : ds ≠ [])
    (hlen : t.tempDataLen.toNat + ds.length + 1 = t.lenToken.toNat) :
    thread.after (some t) ds = some { t with
        state := .fcsState
        tempDataLen := t.tempDataLen + UInt8.ofNat ds.length
        rxbuf := writeAt t.rxbuf (2 + t.tempDataLen.toNat) ds } ∧
      threadCalls t ds = [] := by
  have hL := t.lenToken.toNat_lt
  -- each byte moves `tempDataLen`, so the receiver is general in the induction
  induction ds generalizing t with
  | nil => exact absurd rfl hne
  | cons d ds ih =>
    simp only [List.length_cons] at hlen
    have hnext : (t.tempDataLen + 1).toNat = t.tempDataLen.toNat + 1 := by
      rw [UInt8.toNat_add]
      exact Nat.mod_eq_of_lt (by simp only [UInt8.reduceToNat]; omega)
    have hstep : t.step d = t.dataStep d := by rw [Receiver.step, hs]
    by_cases hd : ds = []
    · subst hd
      have hend : ((t.tempDataLen + 1).toNat : ℤ) = (t.lenToken.toNat : ℤ) - 1 := by
        simp only [List.length_nil] at hlen
        omega
      rw [t.dataStep_of_eq d hend] at hstep
      simp [threadCalls, hstep, Receiver.stored]
    · have hgo : ((t.tempDataLen + 1).toNat : ℤ) ≠ (t.lenToken.toNat : ℤ) - 1 := by
        have := List.length_pos_of_ne_nil hd
        omega
      rw [t.dataStep_of_ne d hgo] at hstep
      have hk : (t.stored d).tempDataLen.toNat = t.tempDataLen.toNat + 1 := hnext
      have hL' : (t.stored d).lenToken = t.lenToken := rfl
      obtain ⟨hafter, hcalls⟩ := ih (t.stored d) hs hd (by rw [hk, hL']; omega) hL
      constructor
      · rw [Transducer.after_cons, thread_step_some, hstep, hafter, hk]
        simp [Receiver.stored, Nat.add_assoc, UInt8.add_assoc, UInt8.add_comm 1]
      · simpa [threadCalls, hstep] using hcalls

/-- The buffer behind a frame: its payload, then the sum. -/
def frameBuf (buf : ℕ → UInt8) (payload : List UInt8) : ℕ → UInt8 :=
  writeAt buf 0 (payload ++ [payload.sum])

theorem writeAt_append (buf : ℕ → UInt8) (p : ℕ) (xs ys : List UInt8) :
    writeAt buf p (xs ++ ys) = writeAt (writeAt buf p xs) (p + xs.length) ys := by
  induction xs generalizing buf p with
  | nil => rfl
  | cons x xs ih =>
    rw [List.cons_append, writeAt_cons, ih, writeAt_cons, List.length_cons]
    congr 1
    omega

/-- A header, the announced number of data bytes and a check byte: the call is
made exactly when the check byte is the sum of the payload. -/
theorem after_piece (t : Receiver) (hs : t.state = .wwState) (c L : UInt8) (ds : List UInt8)
    (f : UInt8) (hne : ds ≠ []) (hL : L.toNat = ds.length + 1) (hlt : L.toNat < 255) :
    ∃ t', thread.after (some t) (0x55 :: 0xaa :: c :: L :: (ds ++ [f])) = some t' ∧
      t'.state = .wwState ∧ t'.rxbuf = frameBuf t.rxbuf (c :: L :: ds) ∧
      threadCalls t (0x55 :: 0xaa :: c :: L :: (ds ++ [f])) =
        if (c :: L :: ds).sum = f then [⟨frameBuf t.rxbuf (c :: L :: ds), L + 1⟩] else [] := by
  obtain ⟨hhead, hheadCalls⟩ := after_header t hs c L
  obtain ⟨hdata, hdataCalls⟩ := after_data (afterHeader t c L) ds rfl hne (by
    simp [afterHeader, hL])
  -- `t₁` stands behind the header, `t₂` behind the data bytes
  set t₁ := afterHeader t c L with ht₁
  set t₂ : Receiver := { t₁ with
    state := .fcsState
    tempDataLen := t₁.tempDataLen + UInt8.ofNat ds.length
    rxbuf := writeAt t₁.rxbuf (2 + t₁.tempDataLen.toNat) ds } with ht₂
  have hbuf : t₂.rxbuf = writeAt t.rxbuf 0 (c :: L :: ds) := rfl
  have hcrc : t₂.crcOf = (c :: L :: ds).sum := by
    have hn : t₂.lenToken.toNat + 1 = (c :: L :: ds).length := by simp [ht₂, ht₁, afterHeader, hL]
    rw [Receiver.crcOf, hbuf, hn, firstCells_writeAt]
  have hfull : t₂.crcBuf = frameBuf t.rxbuf (c :: L :: ds) := by
    rw [Receiver.crcBuf, hcrc, hbuf, frameBuf, writeAt_append]
    simp [ht₂, ht₁, afterHeader, hL, Nat.add_comm]
  obtain ⟨t', hfcs, hww, hrx, hcalls⟩ := t₂.fcsStep_spec f hlt
  have hsplit : 0x55 :: 0xaa :: c :: L :: (ds ++ [f]) = [0x55, 0xaa, c, L] ++ (ds ++ [f]) := rfl
  refine ⟨t', ?_, hww, hrx.trans hfull, ?_⟩
  · rw [hsplit, Transducer.after_append, hhead, Transducer.after_append, hdata]
    exact hfcs
  · rw [hsplit, threadCalls_append t _ _ hhead, hheadCalls, threadCalls_append t₁ _ _ hdata,
      hdataCalls, List.nil_append, List.nil_append]
    have hlast : threadCalls t₂ [f] = calls (t₂.fcsStep f).2 := by
      simp [threadCalls, Receiver.step, ht₂]
    rw [hlast, hcalls, hcrc, hfull]
    rfl

end IdolGateway.ZbClient
