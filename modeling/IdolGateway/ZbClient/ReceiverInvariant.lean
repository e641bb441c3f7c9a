import Mathlib.Algebra.Order.BigOperators.Group.List
import Mathlib.Algebra.Order.Group.Nat
import IdolGateway.ZbClient.ReceiverFrames

namespace IdolGateway.ZbClient

namespace Receiver

section Step

variable (t : Receiver) (ch : UInt8)

theorem step_ww (hs : t.state = .wwState) :
    t.step ch = (some (if ch = 0x55 then { t with state := .aaState } else t), []) := by
  rw [step, hs]

theorem step_aa (hs : t.state = .aaState) :
    t.step ch = (some { t with state := if ch = 0xaa then .cmdState1 else .wwState }, []) := by
  rw [step, hs]

theorem step_cmd (hs : t.state = .cmdState1) :
    t.step ch = (some { t with rxbuf := Function.update t.rxbuf 0 ch, state := .lenState },
      [.write 0]) := by
  rw [step, hs]

theorem step_len (hs : t.state = .lenState) :
    t.step ch = (some { t with
      lenToken := ch
      tempDataLen := 0
      rxbuf := Function.update t.rxbuf 1 ch
      state := .dataState }, [.write 1]) := by
  rw [step, hs]

theorem step_data (hs : t.state = .dataState) : t.step ch = t.dataStep ch := by rw [step, hs]

theorem step_fcs (hs : t.state = .fcsState) : t.step ch = t.fcsStep ch := by rw [step, hs]

end Step

theorem lenToken_lt {t : Receiver} (h : t.lenToken ≠ 255) : t.lenToken.toNat < 255 := by
  have := t.lenToken.toNat_lt
  have : t.lenToken.toNat ≠ 255 := fun heq => h (UInt8.toNat_inj.mp heq)
  omega

def Counted (t : Receiver) : Prop :=
  t.state = .fcsState → (t.tempDataLen.toNat : ℤ) = (t.lenToken.toNat : ℤ) - 1

/-- The fewest bytes that lead from `WW_STATE` to here. -/
def consumed (t : Receiver) : ℕ :=
  match t.state with
  | .wwState => 0
  | .aaState => 1
  | .cmdState1 => 2
  | .lenState => 3
  | .dataState => 4 + t.tempDataLen.toNat
  | .fcsState => 4 + t.tempDataLen.toNat

theorem counted_step (t : Receiver) (ch : UInt8) :
    ∀ t', (t.step ch).1 = some t' → t'.Counted := by
  cases hs : t.state with
  | wwState =>
    rw [t.step_ww ch hs]
    rintro t' ⟨⟩
    split_ifs <;> simp [Counted, hs]
  | aaState =>
    rw [t.step_aa ch hs]
    rintro t' ⟨⟩
    split_ifs <;> simp [Counted]
  | cmdState1 =>
    rw [t.step_cmd ch hs]
    rintro t' ⟨⟩
    simp [Counted]
  | lenState =>
    rw [t.step_len ch hs]
    rintro t' ⟨⟩
    simp [Counted]
  | dataState =>
    rw [t.step_data ch hs]
    by_cases hend : ((t.tempDataLen + 1).toNat : ℤ) = (t.lenToken.toNat : ℤ) - 1
    · rw [t.dataStep_of_eq ch hend]
      rintro t' ⟨⟩
      exact fun _ => hend
    · rw [t.dataStep_of_ne ch hend]
      rintro t' ⟨⟩
      simp [Counted, stored, hs]
  | fcsState =>
    rw [t.step_fcs ch hs]
    by_cases h255 : t.lenToken = 255
    -- the checksum loop hangs: there is no next state
    · rw [t.fcsStep_of_255 ch h255]
      simp
    · obtain ⟨t', hafter, hww, -, -⟩ := t.fcsStep_spec ch (lenToken_lt h255)
      rw [hafter]
      rintro t'' ⟨⟩
      simp [Counted, hww]

section

variable (ok : ℕ → Prop) [DecidablePred ok]

/-- The bytes read of the frame under way, unless its length byte is not in `ok`. -/
def credit (t : Receiver) : ℕ :=
  if (t.state = .dataState ∨ t.state = .fcsState) → ok t.lenToken.toNat then t.consumed else 0

def creditOf (s : Option Receiver) : ℕ := (s.map (credit ok)).getD 0

/-- The bytes of the frame that a call with the parameter `len` is made for. -/
def frameCost (len : ℕ) : ℕ := if ok (len - 1) then len + 3 else 0

/-- What a byte brings about is paid by the byte and the bytes before it. -/
def Paid (t : Receiver) (ch : UInt8) : Prop :=
  ((calls (t.step ch).2).map fun c => frameCost ok c.len.toNat).sum + creditOf ok (t.step ch).1 ≤
    t.credit ok + 1

variable {ok}

theorem paid_data (t : Receiver) (ch : UInt8) (hs : t.state = .dataState) : Paid ok t ch := by
  -- the counter may wrap to 0, so it grows by at most one
  have hinc : (t.tempDataLen + 1).toNat ≤ t.tempDataLen.toNat + 1 := by
    rw [UInt8.toNat_add]
    exact Nat.mod_le _ _
  have hcredit : ∀ s, s = .dataState ∨ s = .fcsState →
      credit ok { t.stored ch with state := s } ≤ t.credit ok + 1 := by
    rintro s (rfl | rfl) <;> simp only [credit, consumed, stored, hs, true_or, or_true,
      forall_const] <;> split_ifs <;> omega
  unfold Paid
  rw [t.step_data ch hs]
  by_cases hend : ((t.tempDataLen + 1).toNat : ℤ) = (t.lenToken.toNat : ℤ) - 1
  · rw [t.dataStep_of_eq ch hend]
    simpa [creditOf] using hcredit .fcsState (Or.inr rfl)
  · rw [t.dataStep_of_ne ch hend]
    have hsame : { t.stored ch with state := .dataState } = t.stored ch := by
      rw [← hs]
      rfl
    have hdata := hcredit .dataState (Or.inl rfl)
    rw [hsame] at hdata
    simpa [creditOf] using hdata

theorem paid_fcs (t : Receiver) (ch : UInt8) (ht : t.Counted) (hs : t.state = .fcsState) :
    Paid ok t ch := by
  unfold Paid
  rw [t.step_fcs ch hs]
  by_cases h255 : t.lenToken = 255
  · rw [t.fcsStep_of_255 ch h255]
    simp [creditOf]
  · have hlt := lenToken_lt h255
    have hlen : (t.lenToken + 1).toNat = t.lenToken.toNat + 1 := by
      rw [UInt8.toNat_add]
      exact Nat.mod_eq_of_lt (by simp only [UInt8.reduceToNat]; omega)
    obtain ⟨t', hafter, hww, -, hcalls⟩ := t.fcsStep_spec ch hlt
    have hzero : creditOf ok (some t') = 0 := by simp [creditOf, credit, consumed, hww]
    rw [hafter, hcalls, hzero]
    -- the data bytes read are those that the length byte announced
    have hcost : frameCost ok (t.lenToken.toNat + 1) ≤ t.credit ok + 1 := by
      have hcount := ht hs
      simp only [frameCost, credit, consumed, hs, or_true, forall_const, Nat.add_sub_cancel]
      split_ifs <;> omega
    split_ifs
    · simpa [hlen] using hcost
    · simp

theorem paid_step (t : Receiver) (ch : UInt8) (ht : t.Counted) : Paid ok t ch := by
  cases hs : t.state with
  | wwState =>
    unfold Paid
    rw [t.step_ww ch hs]
    by_cases h : ch = 0x55 <;> simp [creditOf, credit, consumed, h, hs]
  | aaState =>
    unfold Paid
    rw [t.step_aa ch hs]
    by_cases h : ch = 0xaa <;> simp [creditOf, credit, consumed, h, hs]
  | cmdState1 =>
    unfold Paid
    rw [t.step_cmd ch hs]
    simp [creditOf, credit, consumed, hs]
  | lenState =>
    unfold Paid
    rw [t.step_len ch hs]
    simp only [creditOf, credit, consumed, hs, Option.map_some, Option.getD_some, calls_cons_write,
      calls_nil, List.map_nil, List.sum_nil]
    split_ifs <;> simp_all
  | dataState => exact t.paid_data ch hs
  | fcsState => exact t.paid_fcs ch ht hs

end

end Receiver

def CountedState (s : Option Receiver) : Prop := ∀ t ∈ s, t.Counted

theorem countedState_step (s : Option Receiver) (ch : UInt8) :
    CountedState (thread.step s ch).1 := by
  cases s with
  | none => exact fun t ht => nomatch ht
  | some t => exact t.counted_step ch

section

variable (ok : ℕ → Prop) [DecidablePred ok]

def RxEvent.cost (e : RxEvent) : ℕ :=
  (e.call?.map fun c => Receiver.frameCost ok c.len.toNat).getD 0

theorem cost_events (es : List RxEvent) :
    (es.map (RxEvent.cost ok)).sum =
      ((calls es).map fun c => Receiver.frameCost ok c.len.toNat).sum := by
  induction es with
  | nil => rfl
  | cons e es ih =>
    rw [List.map_cons, List.sum_cons, ih]
    unfold calls
    rw [List.filterMap_cons]
    cases e with
    | write i => simp [RxEvent.cost, RxEvent.call?]
    | read i => simp [RxEvent.cost, RxEvent.call?]
    | recieveUsart rx len => simp [RxEvent.cost, RxEvent.call?]

variable {ok}

theorem paid_run (s : Option Receiver) (ch : UInt8) (hs : CountedState s) :
    ((thread.step s ch).2.map (RxEvent.cost ok)).sum + Receiver.creditOf ok (thread.step s ch).1 ≤
      Receiver.creditOf ok s + 1 := by
  cases s with
  | none => simp [thread, Receiver.creditOf]
  | some t =>
    rw [thread_step_some, cost_events]
    exact t.paid_step ch (hs t rfl)

end

/-- A call with parameter `len` is made only after the `len + 3` bytes of its frame. -/
theorem len_le_of_mem_threadCalls (t : Receiver) (ht : t.Counted) (xs : List UInt8) :
    ∀ c ∈ threadCalls t xs, c.len.toNat + 3 ≤ t.consumed + xs.length := by
  intro c hc
  have hs : CountedState (some t) := fun t' h => Option.some.inj h ▸ ht
  have hpaid := Transducer.worth_le_paid (RxEvent.cost fun _ => True)
    (Receiver.creditOf fun _ => True) (fun s ch _ => countedState_step s ch) paid_run hs xs
  rw [cost_events, ← threadCalls] at hpaid
  have hle : c.len.toNat + 3 ≤ ((threadCalls t xs).map fun c => c.len.toNat + 3).sum :=
    List.single_le_sum (fun _ _ => Nat.zero_le _) _ (List.mem_map_of_mem hc)
  have hcredit : Receiver.creditOf (fun _ => True) (some t) = t.consumed := by
    simp [Receiver.creditOf, Receiver.credit]
  rw [hcredit] at hpaid
  simp only [Receiver.frameCost, if_true] at hpaid
  exact hle.trans hpaid

end IdolGateway.ZbClient
