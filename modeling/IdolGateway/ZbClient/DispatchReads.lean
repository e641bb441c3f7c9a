import IdolGateway.ZbClient.Dispatch

/-!
# The bytes a frame's handler looks at

Apart from the two report branches, `recieve_usart` looks at no byte past the
frame.  `CTRL_UP` looks at `rx[5]` and `rx[6]`, and `SEND_STATE` at `rx[8]`,
`rx[9]` and `rx[10]`, without a test that the frame is that long.
-/

namespace IdolGateway.ZbClient

open Procedure

section

variable {K : Loc → Prop} {mem : Loc → UInt8} {w : World}

theorem readsWithin_setDevice (i : ℕ) (f : MxjDevice → MxjDevice) :
    ReadsWithin K (setDevice i f) mem w := by
  unfold setDevice
  rw [readsWithin_bind]
  exact ⟨readsWithin_modify _, readsWithin_emit _⟩

theorem readsWithin_findDev (id : UInt16) : ReadsWithin K (findDev id) mem w := by
  unfold findDev
  rw [readsWithin_bind, run_gets]
  refine ⟨readsWithin_gets _, ?_⟩
  cases w.lookup id with
  | none => exact readsWithin_pure _
  | some i =>
    dsimp only
    rw [readsWithin_bind]
    exact ⟨readsWithin_setDevice _ _, readsWithin_pure _⟩

theorem readsWithin_dump {len : UInt8} (h : ∀ i < len.toNat, K (.rx i)) :
    ReadsWithin K (dump len) mem w := by
  apply readsWithin_each
  intro i hi s
  rw [readsWithin_bind, readsWithin_cell]
  exact ⟨h i (List.mem_range.mp hi), readsWithin_pure _⟩

theorem readsWithin_frameId {len : UInt8} (h : ∀ i < len.toNat, K (.rx i)) :
    ReadsWithin K (frameId len) mem w := by
  unfold frameId
  by_cases hlen : 4 ≤ len
  · have hlen' : 4 ≤ len.toNat := UInt8.le_iff_toNat_le.mp hlen
    rw [if_pos hlen, readsWithin_bind, readsWithin_bind, readsWithin_cell, readsWithin_cell]
    exact ⟨h 2 (by omega), h 3 (by omega), readsWithin_pure _⟩
  · rw [if_neg hlen]
    exact readsWithin_pure _

theorem readsWithin_frameCid {len : UInt8} (h : ∀ i < len.toNat, K (.rx i)) :
    ReadsWithin K (frameCid len) mem w := by
  unfold frameCid
  by_cases hlen : 6 ≤ len
  · have hlen' : 6 ≤ len.toNat := UInt8.le_iff_toNat_le.mp hlen
    rw [if_pos hlen, readsWithin_bind, readsWithin_bind, readsWithin_cell, readsWithin_cell]
    exact ⟨h 4 (by omega), h 5 (by omega), readsWithin_pure _⟩
  · rw [if_neg hlen]
    exact readsWithin_pure _

theorem readsWithin_storeRx (i : ℕ) (k : Fin 3) {j : ℕ} (h : K (.rx j)) :
    ReadsWithin K (storeRx i k j) mem w := by
  unfold storeRx
  rw [readsWithin_bind, readsWithin_cell]
  exact ⟨h, readsWithin_setDevice _ _⟩

theorem readsWithin_channelReport (i : ℕ) (c : UInt8) (k : Fin 3) (h5 : K (.rx 5))
    (h6 : mem (.rx 5) = c → K (.rx 6)) : ReadsWithin K (channelReport i c k) mem w := by
  unfold channelReport
  rw [readsWithin_bind, readsWithin_cell, readsWithin_when]
  exact ⟨h5, fun hc => readsWithin_storeRx i k (h6 hc)⟩

theorem readsWithin_switchReport [JsonC] (id : UInt16) (i : ℕ) (h5 : K (.rx 5))
    (h6 : mem (.rx 5) = 1 ∨ mem (.rx 5) = 2 ∨ mem (.rx 5) = 3 → K (.rx 6)) :
    ReadsWithin K (switchReport id i) mem w := by
  unfold switchReport
  simp only [readsWithin_bind, readsWithin_when]
  refine ⟨?_, ?_, ?_, fun _ => readsWithin_modify _, readsWithin_modify _⟩
  · exact readsWithin_channelReport i 1 0 h5 fun h => h6 (Or.inl h)
  · exact readsWithin_channelReport i 2 1 h5 fun h => h6 (Or.inr (Or.inl h))
  · exact readsWithin_channelReport i 3 2 h5 fun h => h6 (Or.inr (Or.inr h))

theorem readsWithin_stateReport [JsonC] {len : UInt8} (i : ℕ)
    (h8 : 6 ≤ len.toNat → K (.rx 8) ∧ K (.rx 9)) (h10 : 7 ≤ len.toNat → K (.rx 10)) :
    ReadsWithin K (stateReport len i) mem w := by
  unfold stateReport
  simp only [readsWithin_bind, readsWithin_when]
  refine ⟨fun h => ?_, fun h => ?_, fun h => ?_, readsWithin_modify _⟩
  · exact readsWithin_storeRx i 0 (h8 h).1
  · exact readsWithin_storeRx i 1 (h8 (UInt8.le_iff_toNat_le.mp h)).2
  · exact readsWithin_storeRx i 2 (h10 (UInt8.le_iff_toNat_le.mp h))

theorem readsWithin_ctrlUp [JsonC] (id : UInt16)
    (h : ∀ i, w.lookup id = some i → (w.mxjDevice i).type = 4 →
      K (.rx 5) ∧ (mem (.rx 5) = 1 ∨ mem (.rx 5) = 2 ∨ mem (.rx 5) = 3 → K (.rx 6))) :
    ReadsWithin K (ctrlUp id) mem w := by
  unfold ctrlUp
  rw [readsWithin_bind, run_findDev]
  refine ⟨readsWithin_findDev id, ?_⟩
  cases hi : w.lookup id with
  | none => exact readsWithin_pure _
  | some i =>
    dsimp only
    rw [readsWithin_bind, readsWithin_bind, readsWithin_when, readsWithin_when, run_gets]
    refine ⟨readsWithin_gets _, fun htype => ?_, fun _ => ?_⟩
    · rw [w.beat_type] at htype
      obtain ⟨h5, h6⟩ := h i hi htype
      exact readsWithin_switchReport id i h5 h6
    · unfold toggleSocket
      simp only [readsWithin_bind, readsWithin_gets, readsWithin_emit, true_and]
      exact readsWithin_setDevice _ _

theorem readsWithin_sendState [JsonC] {len : UInt8} (id : UInt16)
    (h8 : (w.lookup id).isSome → 6 ≤ len.toNat → K (.rx 8) ∧ K (.rx 9))
    (h10 : (w.lookup id).isSome → 7 ≤ len.toNat → K (.rx 10)) :
    ReadsWithin K (sendState len id) mem w := by
  unfold sendState
  rw [readsWithin_bind, run_findDev]
  refine ⟨readsWithin_findDev id, ?_⟩
  cases hi : w.lookup id with
  | none => exact readsWithin_pure _
  | some i => exact readsWithin_stateReport i (h8 (by simp [hi])) (h10 (by simp [hi]))

section Sensor

variable {len : UInt8} (hrx : ∀ i < len.toNat, K (.rx i)) (hbehind : ∀ i, K (.behind i))

include hbehind in
theorem readsWithin_blockByte (block : List UInt8) (k : ℕ) :
    ReadsWithin K (blockByte block k) mem w := by
  unfold blockByte
  cases block[k]? with
  | none => exact (readsWithin_cell _).mpr (hbehind _)
  | some b => exact readsWithin_pure _

include hbehind in
theorem readsWithin_strcmpEq (block : List UInt8) (k : ℕ) (literal : List UInt8) :
    ReadsWithin K (strcmpEq block k literal) mem w := by
  induction literal generalizing k w with
  | nil =>
    rw [strcmpEq, readsWithin_bind]
    exact ⟨readsWithin_blockByte hbehind block k, readsWithin_pure _⟩
  | cons c cs ih =>
    rw [strcmpEq, readsWithin_bind]
    refine ⟨readsWithin_blockByte hbehind block k, ?_⟩
    by_cases hc : ((blockByte block k).run mem w).value = c
    · rw [if_pos hc]
      exact ih _
    · rw [if_neg hc]
      exact readsWithin_pure _

include hrx in
/-- `strncpy` stays inside the frame if the bytes it may copy do. -/
theorem readsWithin_strncpyRx (start n : ℕ) (h : start + n ≤ len.toNat) :
    ReadsWithin K (strncpyRx start n) mem w := by
  induction n generalizing start w with
  | zero => exact readsWithin_pure _
  | succ n ih =>
    rw [strncpyRx, readsWithin_bind, readsWithin_cell, run_cell]
    refine ⟨hrx start (by omega), ?_⟩
    by_cases hb : mem (.rx start) = 0
    · rw [if_pos hb]
      exact readsWithin_pure _
    · rw [if_neg hb, readsWithin_bind]
      exact ⟨ih (start + 1) (by omega), readsWithin_pure _⟩

theorem readsWithin_appendSensor [JsonC] (id : UInt16) (type : UInt8) :
    ReadsWithin K (appendSensor id type) mem w := by
  unfold appendSensor
  rw [readsWithin_bind, readsWithin_bind, readsWithin_bind, readsWithin_when]
  exact ⟨readsWithin_gets _, readsWithin_setDevice _ _, fun _ => readsWithin_modify _,
    readsWithin_modify _⟩

include hbehind in
theorem readsWithin_joinAs [JsonC] (id : UInt16) (tempStr : List UInt8)
    (models : List (List UInt8 × UInt8)) : ReadsWithin K (joinAs id tempStr models) mem w := by
  induction models generalizing w with
  | nil => exact readsWithin_pure _
  | cons m rest ih =>
    rw [joinAs, readsWithin_bind]
    refine ⟨readsWithin_strcmpEq hbehind tempStr 0 m.1, ?_⟩
    cases ((strcmpEq tempStr 0 m.1).run mem w).value with
    | true => exact readsWithin_appendSensor id m.2
    | false => exact ih

include hrx hbehind in
theorem readsWithin_sensorJoin [JsonC] (id cid : UInt16) (i : Option ℕ) :
    ReadsWithin K (sensorJoin len id cid i) mem w := by
  unfold sensorJoin
  rw [readsWithin_when, readsWithin_when]
  intro hlen _
  have hlen' : 27 ≤ len.toNat := UInt8.le_iff_toNat_le.mp hlen
  rw [readsWithin_bind, readsWithin_cell, readsWithin_when]
  -- the test of `rx[12]` bounds the copy; `strcmp` then runs on into the heap
  refine ⟨hrx 12 (by omega), fun hn => ?_⟩
  rw [readsWithin_bind]
  exact ⟨readsWithin_strncpyRx hrx 13 _ (by omega), readsWithin_joinAs hbehind id _ _⟩

include hrx in
theorem readsWithin_onOffReport (now : Tm) (id : UInt16) :
    ReadsWithin K (onOffReport now len id) mem w := by
  unfold onOffReport
  rw [readsWithin_when]
  rintro rfl
  rw [readsWithin_bind, readsWithin_cell, run_cell]
  refine ⟨hrx 11 (by decide), ?_⟩
  by_cases hkick : mem (.rx 11) = 0x20
  · rw [if_pos hkick]
    exact readsWithin_emit _
  · rw [if_neg hkick, readsWithin_bind, readsWithin_cell]
    exact ⟨hrx 12 (by decide), readsWithin_emit _⟩

theorem readsWithin_motionLight (j : Option ℕ) : ReadsWithin K (motionLight j) mem w := by
  cases j with
  | none => exact readsWithin_pure _
  | some j =>
    unfold motionLight
    rw [readsWithin_bind, readsWithin_when]
    refine ⟨readsWithin_gets _, fun _ => ?_⟩
    rw [readsWithin_bind, readsWithin_when]
    refine ⟨readsWithin_gets _, fun _ => ?_⟩
    rw [readsWithin_bind]
    exact ⟨readsWithin_emit _, readsWithin_modify _⟩

theorem readsWithin_occupancyReport (id : UInt16) :
    ReadsWithin K (occupancyReport len id) mem w := by
  unfold occupancyReport
  rw [readsWithin_when, readsWithin_when]
  intro _ _
  rw [readsWithin_bind, readsWithin_bind, readsWithin_bind, readsWithin_when]
  exact ⟨readsWithin_findDev _, readsWithin_motionLight _, readsWithin_gets _,
    fun _ => readsWithin_modify _⟩

include hrx in
theorem readsWithin_measureReport : ReadsWithin K (measureReport len) mem w := by
  unfold measureReport
  rw [readsWithin_when]
  rintro rfl
  rw [readsWithin_bind, readsWithin_cell, readsWithin_bind, readsWithin_cell]
  exact ⟨hrx 13 (by decide), hrx 12 (by decide), readsWithin_pure _⟩

include hrx hbehind in
theorem readsWithin_xiaomi18 [JsonC] (now : Tm) (id cid : UInt16) :
    ReadsWithin K (xiaomi18 now len id cid) mem w := by
  unfold xiaomi18
  rw [readsWithin_bind, readsWithin_bind]
  refine ⟨readsWithin_findDev id, readsWithin_sensorJoin hrx hbehind id cid _, ?_⟩
  split_ifs
  · exact readsWithin_onOffReport hrx now id
  · exact readsWithin_occupancyReport id
  · exact readsWithin_measureReport hrx
  · exact readsWithin_measureReport hrx
  · exact readsWithin_pure _

end Sensor

/-- What the two report branches need beyond the bytes of the frame. -/
structure ReportReads (K : Loc → Prop) (mem : Loc → UInt8) (w : World) (len : UInt8) :
    Prop where
  channel : mem (.rx 0) = mxjCtrlUp → ∀ i, w.lookup (idOf mem len) = some i →
    (w.mxjDevice i).type = 4 →
      K (.rx 5) ∧ (mem (.rx 5) = 1 ∨ mem (.rx 5) = 2 ∨ mem (.rx 5) = 3 → K (.rx 6))
  states : mem (.rx 0) = mxjSendState → (w.lookup (idOf mem len)).isSome →
    6 ≤ len.toNat → K (.rx 8) ∧ K (.rx 9)
  third : mem (.rx 0) = mxjSendState → (w.lookup (idOf mem len)).isSome →
    7 ≤ len.toNat → K (.rx 10)

theorem readsWithin_recieveUsart [JsonC] (now : Tm) {len : UInt8}
    (hrx : ∀ i < len.toNat, K (.rx i)) (h0 : K (.rx 0)) (hbehind : ∀ i, K (.behind i))
    (hreport : ReportReads K mem w len) : ReadsWithin K (recieveUsart now len) mem w := by
  unfold recieveUsart
  simp only [readsWithin_bind, readsWithin_modify, readsWithin_cell, run_modify, run_dump,
    run_frameId, run_frameCid, run_cell, true_and]
  refine ⟨readsWithin_dump hrx, readsWithin_frameId hrx, readsWithin_frameCid hrx, h0, ?_⟩
  unfold dispatch
  split_ifs with hup hreq hstate hget h18 h1c
  · exact readsWithin_ctrlUp _ (hreport.channel hup)
  · exact readsWithin_emit _
  · exact readsWithin_sendState _ (hreport.states hstate) (hreport.third hstate)
  · exact readsWithin_emit _
  · exact readsWithin_xiaomi18 hrx hbehind now _ _
  · rw [readsWithin_bind]
    exact ⟨readsWithin_findDev _, readsWithin_pure _⟩
  · exact readsWithin_pure _

end

end IdolGateway.ZbClient
