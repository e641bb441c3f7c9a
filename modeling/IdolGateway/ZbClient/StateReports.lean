import IdolGateway.ZbClient.Joins
import IdolGateway.ZbClient.ReceiverStreams

/-!
# State reports as devices send them

A `SEND_STATE` frame carries one to three channel values from `rx[8]` on, and the link
quality behind them.  The tests of `len` in its branch are those of a shorter layout, in
which the values stood three bytes earlier: they always pass.  So three bytes are stored
whatever the frame carries, and behind the last channel these are the link quality and
the sum that `thread()` has put behind the frame.
-/

namespace IdolGateway.ZbClient

open Procedure

theorem out_guardedStore (mem : Loc → UInt8) (w : World) (i : ℕ) (c : Prop) [Decidable c]
    (k : Fin 3) (j : ℕ) (hc : c) : ((when c (storeRx i k j)).run mem w).out = [.store i] := by
  rw [run_when, if_pos hc]
  rfl

/-- A state report with its channels and its link quality. -/
structure StateFrame where
  id : UInt16
  cluster : UInt16
  command : UInt8
  channels : List UInt8
  quality : UInt8
  channels_pos : 1 ≤ channels.length
  channels_le : channels.length ≤ 3

namespace StateFrame

/-- `06 len-1 id cluster command c`, the channels and the link quality. -/
def frame (f : StateFrame) : Frame where
  cmd := mxjSendState
  data := [hiByte f.id, loByte f.id, hiByte f.cluster, loByte f.cluster, f.command,
    UInt8.ofNat f.channels.length] ++ f.channels ++ [f.quality]
  data_pos := by simp
  data_le := by
    have := f.channels_le
    simp
    omega

def rx (f : StateFrame) (t : Receiver) : ℕ → UInt8 := frameBuf t.rxbuf f.frame.payload

def len (f : StateFrame) : UInt8 := f.frame.lenByte + 1

def values (f : StateFrame) : List UInt8 := f.channels ++ [f.quality, f.frame.payload.sum]

theorem len_toNat (f : StateFrame) : f.len.toNat = 9 + f.channels.length := by
  rw [len, Frame.callLen_toNat, Frame.payload_length]
  simp [frame]
  omega

theorem line_eq (f : StateFrame) : f.frame.payload ++ [f.frame.payload.sum] =
    [mxjSendState, f.frame.lenByte, hiByte f.id, loByte f.id, hiByte f.cluster, loByte f.cluster,
      f.command, UInt8.ofNat f.channels.length] ++ f.values := by
  simp [Frame.payload, frame, values]

section Buffer

variable (f : StateFrame) (t : Receiver)

theorem rx_eq (k : ℕ) (hk : k < (f.frame.payload ++ [f.frame.payload.sum]).length) :
    f.rx t k = (f.frame.payload ++ [f.frame.payload.sum])[k] := by
  have h := writeAt_of_inside t.rxbuf 0 (f.frame.payload ++ [f.frame.payload.sum]) k hk
  rwa [Nat.zero_add] at h

theorem rx_values (k : ℕ) (hk : k < f.values.length) : f.rx t (8 + k) = f.values[k] := by
  have hlen : 8 + k < (f.frame.payload ++ [f.frame.payload.sum]).length := by
    rw [f.line_eq, List.length_append]
    simp
    omega
  rw [f.rx_eq t _ hlen]
  simp only [f.line_eq]
  rw [List.getElem_append_right (by simp)]
  simp

theorem rx_head : f.rx t 0 = mxjSendState ∧ f.rx t 2 = hiByte f.id ∧ f.rx t 3 = loByte f.id := by
  have hlen : 8 ≤ (f.frame.payload ++ [f.frame.payload.sum]).length := by
    rw [f.line_eq, List.length_append]
    simp
  rw [f.rx_eq t 0 (by omega), f.rx_eq t 2 (by omega), f.rx_eq t 3 (by omega)]
  simp [f.line_eq]

theorem idOf_rx (behind : ℕ → UInt8) : idOf (memory (f.rx t) behind) f.len = f.id := by
  have h4 : 4 ≤ f.len := by
    rw [UInt8.le_iff_toNat_le, f.len_toNat]
    simp only [UInt8.reduceToNat]
    omega
  obtain ⟨-, hhi, hlo⟩ := f.rx_head t
  rw [idOf, if_pos h4]
  change word (f.rx t 2) (f.rx t 3) = f.id
  rw [hhi, hlo, word_bytes]

end Buffer

def inputs (f : StateFrame) (t : Receiver) (now : Tm) (behind : ℕ → UInt8) : List Input :=
  (threadCalls t.ready f.frame.bytes).map fun c => .frame now behind c.rx c.len

theorem inputs_eq (f : StateFrame) (t : Receiver) (now : Tm) (behind : ℕ → UInt8) :
    f.inputs t now behind = [.frame now behind (f.rx t) f.len] := by
  obtain ⟨t', -, -, hcalls⟩ := after_frame t.ready t.ready_state f.frame
  rw [inputs, hcalls]
  rfl

/-- All three tests of `len` pass. -/
theorem tests_pass (f : StateFrame) : 6 ≤ f.len ∧ 7 ≤ f.len := by
  rw [UInt8.le_iff_toNat_le, UInt8.le_iff_toNat_le, f.len_toNat]
  simp only [UInt8.reduceToNat]
  omega

theorem lt_values (f : StateFrame) (k : Fin 3) : k.val < f.values.length := by
  have := f.channels_pos
  simp [values]
  omega

section Handled

variable [JsonC] (f : StateFrame) (t : Receiver) (w : World) (now : Tm) (behind : ℕ → UInt8) (i : ℕ)

def statesAfter : Fin 3 → UInt8 :=
  ((gateway.after w (f.inputs t now behind)).mxjDevice i).state

def storesOf : ℕ := (gateway.outputs w (f.inputs t now behind)).count (.store i)

/-- Each channel carried is stored, no other is changed, and beside the heart beat that a
lookup counts there is one store for each channel carried. -/
structure WritesItsChannels : Prop where
  carried : ∀ (k : Fin 3) (hk : k.val < f.channels.length),
    f.statesAfter t w now behind i k = f.channels[k.val]
  others : ∀ k : Fin 3, f.channels.length ≤ k.val →
    f.statesAfter t w now behind i k = (w.mxjDevice i).state k
  stores : f.storesOf t w now behind i = 1 + f.channels.length

variable {w i}

theorem run_eq : ((recieveUsart now f.len).run (memory (f.rx t) behind) w) =
    (sendState f.len f.id).run (memory (f.rx t) behind) { w with tblock := now } := by
  have hcmd : memory (f.rx t) behind (.rx 0) = mxjSendState := (f.rx_head t).1
  rw [run_recieveUsart, f.idOf_rx, hcmd]
  rfl

/-- Three bytes are stored, whatever the frame carries. -/
theorem statesAfter_eq (hi : w.lookup f.id = some i) (k : Fin 3) :
    f.statesAfter t w now behind i k = f.values.get ⟨k.val, f.lt_values k⟩ := by
  obtain ⟨h6, h7⟩ := f.tests_pass
  have hrun : (gateway.after w (f.inputs t now behind)) =
      ((sendState f.len f.id).run (memory (f.rx t) behind) { w with tblock := now }).state := by
    rw [f.inputs_eq, ← f.run_eq]
    rfl
  rw [statesAfter, hrun, sendState_states _ { w with tblock := now } i f.len hi]
  match k with
  | 0 => exact (if_pos h6).trans (f.rx_values t 0 _)
  | 1 => exact (if_pos h6).trans (f.rx_values t 1 _)
  | 2 => exact (if_pos h7).trans (f.rx_values t 2 _)

theorem storesOf_eq (hi : w.lookup f.id = some i) : f.storesOf t w now behind i = 4 := by
  obtain ⟨h6, h7⟩ := f.tests_pass
  have h5 : 5 + linkqualityEnable ≤ f.len.toNat := UInt8.le_iff_toNat_le.mp h6
  have hout : gateway.outputs w (f.inputs t now behind) =
      ((sendState f.len f.id).run (memory (f.rx t) behind) { w with tblock := now }).out := by
    rw [f.inputs_eq, ← f.run_eq]
    exact List.append_nil _
  have hlookup : ({ w with tblock := now } : World).lookup f.id = some i := hi
  rw [storesOf, hout, sendState, run_bind_out, run_findDev, hlookup]
  dsimp only
  rw [stateReport, run_bind_out, out_guardedStore _ _ _ _ _ _ h5, run_bind_out,
    out_guardedStore _ _ _ _ _ _ h6, run_bind_out, out_guardedStore _ _ _ _ _ _ h7, run_buildJson]
  simp

end Handled

end StateFrame

/-- A report writes exactly the channels it carries if and only if it carries all three. -/
theorem report_exact_iff [JsonC] (f : StateFrame) (t : Receiver) (w : World) (now : Tm)
    (behind : ℕ → UInt8) (i : ℕ) (hi : w.lookup f.id = some i) :
    f.WritesItsChannels t w now behind i ↔ f.channels.length = 3 := by
  have hstores := f.storesOf_eq t now behind hi
  constructor
  · intro h
    have := h.stores
    omega
  · intro hthree
    refine ⟨fun k hk => ?_, fun k hk => ?_, by omega⟩
    · rw [f.statesAfter_eq t now behind hi]
      exact List.getElem_append_left hk
    · omega

def World.single (id : UInt16) : World :=
  { World.zero with mxjDevice := fun _ => { MxjDevice.zero with id := id }, devsize := 1 }

/-- The report `06 0b 38 65 00 04 06 03 00 01 00 6a` of the corridor switch. -/
def corridorReport : StateFrame := ⟨guodaoId, 4, 6, [0, 1, 0], 0x6a, by decide, by decide⟩

/-- The report `06 09 0c 41 00 06 06 01 00 6a` of the socket. -/
def socketReport : StateFrame := ⟨powerCiwoId, 6, 6, [0], 0x6a, by decide, by decide⟩

theorem report_exact_corridor :
    letI := spacedJsonC
    corridorReport.WritesItsChannels .initial (.single guodaoId) march (fun _ => 0) 0 :=
  (@report_exact_iff spacedJsonC corridorReport .initial (.single guodaoId) march (fun _ => 0) 0
    (by decide)).mpr rfl

/-- The link quality becomes the second state of the socket. -/
theorem socket_report_stores_quality :
    letI := spacedJsonC
    ¬ socketReport.WritesItsChannels .initial (.single powerCiwoId) march (fun _ => 0) 0 := by
  intro h
  have hsecond := @StateFrame.WritesItsChannels.others spacedJsonC _ _ _ _ _ _ h 1 (by decide)
  rw [@StateFrame.statesAfter_eq spacedJsonC socketReport _ _ march _ _ (by decide)] at hsecond
  exact absurd hsecond (by decide)

end IdolGateway.ZbClient
