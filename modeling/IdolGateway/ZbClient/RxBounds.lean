import IdolGateway.ZbClient.DispatchReads
import IdolGateway.ZbClient.MainLoop
import IdolGateway.ZbClient.ReceiverSoundness

namespace IdolGateway.ZbClient

open Procedure

def Loc.InRx : Loc → Prop
  | .rx i => i < rxbufSize
  | .behind _ => True

/-- An access below 200, or a call of `recieve_usart` whose reads of `rx` are all
below 200, whatever else the buffer, the heap and the globals hold. -/
def RxEvent.InBounds : RxEvent → Prop
  | .write i => i < rxbufSize
  | .read i => i < rxbufSize
  | .recieveUsart rx len => ∀ (_ : JsonC) (behind : ℕ → UInt8) (now : Tm) (w : World),
      ReadsWithin Loc.InRx (ZbClient.recieveUsart now len) (memory rx behind) w

theorem readsWithin_inRx [JsonC] (now : Tm) {len : UInt8} (hlen : len.toNat < rxbufSize)
    (mem : Loc → UInt8) (w : World) :
    ReadsWithin Loc.InRx (recieveUsart now len) mem w := by
  have hlow : ∀ i < 11, Loc.InRx (.rx i) := fun i hi => by
    simp only [Loc.InRx, rxbufSize]
    omega
  refine readsWithin_recieveUsart now (fun i hi => ?_) (hlow 0 (by omega)) (fun _ => trivial) ?_
  · exact lt_trans hi hlen
  · exact
      { channel := fun _ _ _ _ => ⟨hlow 5 (by omega), fun _ => hlow 6 (by omega)⟩
        states := fun _ _ _ => ⟨hlow 8 (by omega), hlow 9 (by omega)⟩
        third := fun _ _ _ => hlow 10 (by omega) }

theorem RxEvent.Fits.inBounds {e : RxEvent} (h : e.Fits) : e.InBounds := by
  cases e with
  | write i => exact h
  | read i => exact h
  | recieveUsart rx len => exact fun _ behind now w => readsWithin_inRx now h _ w

/-- Every access to `rxbuf` while `s` is read from the start is inside it. -/
def AccessesInBounds (s : List UInt8) : Prop :=
  ∀ e ∈ thread.outputs (some Receiver.initial) s, e.InBounds

/-- In every run whose length bytes lie in `2..198`, no access to `rxbuf` is past its
end: no write of the receiver, no read of its loops, no read of the handler. -/
theorem rx_accesses_in_bounds (s : List UInt8)
    (hok : thread.Along (LenByteIn 2 198) (some Receiver.initial) s) : AccessesInBounds s := by
  intro e he
  have hfit := thread_events_fit s hok e he
  exact hfit.inBounds

/-- The longest frame that fits, all of whose data bytes are `55`. -/
theorem rx_accesses_in_bounds_longest :
    AccessesInBounds ([0x55, 0xaa, 7, 198] ++ List.replicate 197 0x55 ++ [0x36]) :=
  rx_accesses_in_bounds _ (by decide +kernel)

/-- Length byte 200: the last of the 199 data bytes is written behind the buffer. -/
theorem rx_write_past_end :
    ¬ AccessesInBounds ([0x55, 0xaa, 7, 200] ++ List.replicate 199 0) := by
  have hany : (thread.outputs (some Receiver.initial)
      ([0x55, 0xaa, 7, 200] ++ List.replicate 199 0)).any
        (fun e => match e with | .write i => i == 200 | _ => false) = true := by
    decide +kernel
  obtain ⟨e, he, hwrite⟩ := List.any_eq_true.mp hany
  intro hbounds
  have hin := hbounds e he
  cases e with
  | write i =>
    obtain rfl := beq_iff_eq.mp hwrite
    simp [RxEvent.InBounds, rxbufSize] at hin
  | read i => simp at hwrite
  | recieveUsart rx len => simp at hwrite

end IdolGateway.ZbClient
