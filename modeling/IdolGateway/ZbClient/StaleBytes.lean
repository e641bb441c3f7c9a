import Mathlib.Data.List.GetD
import IdolGateway.ZbClient.DispatchReads
import IdolGateway.ZbClient.MainLoop
import IdolGateway.ZbClient.ReceiverStreams
import IdolGateway.ZbClient.Reports
import IdolGateway.ZbClient.SameHome

/-!
# Bytes left behind by earlier frames

`rxbuf` is never cleared: behind the payload and the sum of the last frame it holds
what earlier frames left there.  A short `CTRL_UP` or `SEND_STATE` frame makes the
handler store such bytes; every other frame has an effect that does not depend on
the traffic before it.
-/

namespace IdolGateway.ZbClient

open Procedure

theorem frameBuf_of_lt (buf : ℕ → UInt8) (payload : List UInt8) {i : ℕ} (h : i < payload.length) :
    frameBuf buf payload i = payload[i] := by
  have hi : i < (payload ++ [payload.sum]).length := by simp; omega
  have := writeAt_of_inside buf 0 (payload ++ [payload.sum]) i hi
  rw [Nat.zero_add] at this
  rw [frameBuf, this, List.getElem_append_left h]

theorem frameBuf_length (buf : ℕ → UInt8) (payload : List UInt8) :
    frameBuf buf payload payload.length = payload.sum := by
  have := writeAt_of_inside buf 0 (payload ++ [payload.sum]) payload.length (by simp)
  rw [Nat.zero_add] at this
  rw [frameBuf, this]
  simp

/-- Behind the sum the buffer is the old one. -/
theorem frameBuf_of_gt (buf : ℕ → UInt8) (payload : List UInt8) {i : ℕ} (h : payload.length < i) :
    frameBuf buf payload i = buf i :=
  writeAt_of_outside buf 0 _ (Or.inr (by simp; omega))

theorem frameBuf_eq_of_le (buf buf' : ℕ → UInt8) (payload : List UInt8) {i : ℕ}
    (h : i ≤ payload.length) : frameBuf buf payload i = frameBuf buf' payload i := by
  rcases Nat.lt_or_eq_of_le h with hlt | rfl
  · rw [frameBuf_of_lt _ _ hlt, frameBuf_of_lt _ _ hlt]
  · rw [frameBuf_length, frameBuf_length]

def Frame.id (f : Frame) : UInt16 :=
  if 4 ≤ f.payload.length then word (f.payload.getD 2 0) (f.payload.getD 3 0) else 0

def Input.ofCall (now : Tm) (behind : ℕ → UInt8) (c : RxCall) : Input :=
  .frame now behind c.rx c.len

def Frame.memory (f : Frame) (t : Receiver) (behind : ℕ → UInt8) : Loc → UInt8 :=
  ZbClient.memory (frameBuf t.rxbuf f.payload) behind

/-- What the calls made for `f` do to the world, and what leaves the program. -/
def Frame.effect [JsonC] (f : Frame) (t : Receiver) (now : Tm) (behind : ℕ → UInt8) (w : World) :
    World × List Out :=
  let xs := (threadCalls t f.bytes).map (Input.ofCall now behind)
  (gateway.after w xs, gateway.outputs w xs)

theorem Frame.effect_eq [JsonC] (f : Frame) {t : Receiver} (ht : t.state = .wwState) (now : Tm)
    (behind : ℕ → UInt8) (w : World) :
    f.effect t now behind w =
      (((recieveUsart now (f.lenByte + 1)).run (f.memory t behind) w).state,
        ((recieveUsart now (f.lenByte + 1)).run (f.memory t behind) w).out) := by
  obtain ⟨-, -, -, hcalls⟩ := after_frame t ht f
  unfold effect
  rw [hcalls]
  simp only [List.map_singleton, Transducer.after_cons, Transducer.after_nil,
    Transducer.outputs_cons, Transducer.outputs_nil, List.append_nil]
  rfl

section

variable (f : Frame) (t : Receiver) (behind : ℕ → UInt8)

theorem Frame.memory_cmd : f.memory t behind (.rx 0) = f.cmd :=
  frameBuf_of_lt _ _ (by rw [f.payload_length]; omega)

theorem Frame.le_callLen (n : UInt8) : n ≤ f.lenByte + 1 ↔ n.toNat ≤ f.payload.length := by
  rw [UInt8.le_iff_toNat_le, f.callLen_toNat]

theorem Frame.idOf_memory : idOf (f.memory t behind) (f.lenByte + 1) = f.id := by
  unfold idOf Frame.id
  by_cases h : 4 ≤ f.payload.length
  · have h2 : f.memory t behind (.rx 2) = f.payload.getD 2 0 := by
      rw [List.getD_eq_getElem _ _ (by omega)]
      exact frameBuf_of_lt _ _ (by omega)
    have h3 : f.memory t behind (.rx 3) = f.payload.getD 3 0 := by
      rw [List.getD_eq_getElem _ _ (by omega)]
      exact frameBuf_of_lt _ _ (by omega)
    rw [if_pos ((f.le_callLen 4).mpr h), if_pos h, h2, h3]
  · rw [if_neg fun h4 => h ((f.le_callLen 4).mp h4), if_neg h]

end

/-- The handler of `f` stores a byte that stands behind the sum of `f`: a switch report
of at most five bytes, or a state report of six to nine. -/
def Frame.LooksBehind (f : Frame) (w : World) : Prop :=
  ∃ i, w.lookup f.id = some i ∧
    ((f.cmd = mxjCtrlUp ∧ (w.mxjDevice i).type = 4 ∧
        (f.payload.length ≤ 4 ∨
          f.payload.length = 5 ∧ (f.payload.sum = 1 ∨ f.payload.sum = 2 ∨ f.payload.sum = 3))) ∨
      (f.cmd = mxjSendState ∧ 6 ≤ f.payload.length ∧ f.payload.length ≤ 9))

def Between (h : List UInt8) (t : Receiver) : Prop :=
  thread.after (some Receiver.initial) h = some t ∧ t.state = .wwState

/-- Whatever was received before, and whatever else differs, the frame does the same to
the home and puts the same frames on the line. -/
def Frame.TrafficIndependent [JsonC] (f : Frame) (w : World) : Prop :=
  ∀ (h₁ h₂ : List UInt8) (t₁ t₂ : Receiver), Between h₁ t₁ → Between h₂ t₂ →
    ∀ w₁ w₂ : World, w₁.SameHome w → w₂.SameHome w →
      ∀ (now₁ now₂ : Tm) (behind : ℕ → UInt8),
        (f.effect t₁ now₁ behind w₁).1.SameHome (f.effect t₂ now₂ behind w₂).1 ∧
          (f.effect t₁ now₁ behind w₁).2.filterMap Out.usart? =
            (f.effect t₂ now₂ behind w₂).2.filterMap Out.usart?

def Frame.Fixed (f : Frame) : Loc → Prop
  | .rx i => i ≤ f.payload.length
  | .behind _ => True

theorem Frame.reportReads {f : Frame} {w : World} (h : ¬ f.LooksBehind w) (t : Receiver)
    (behind : ℕ → UInt8) :
    ReportReads f.Fixed (f.memory t behind) w (f.lenByte + 1) where
  channel := by
    rw [f.memory_cmd, f.idOf_memory]
    intro hcmd i hi htype
    have hlen : ¬ f.payload.length ≤ 4 := fun h4 =>
      h ⟨i, hi, Or.inl ⟨hcmd, htype, Or.inl h4⟩⟩
    refine ⟨show 5 ≤ f.payload.length by omega, fun hc => ?_⟩
    -- with five bytes `rx[5]` is the sum of the frame, which says whether `rx[6]` is read
    by_contra h6
    have h5 : f.payload.length = 5 := by
      simp only [Frame.Fixed] at h6
      omega
    have hsum : f.memory t behind (.rx 5) = f.payload.sum := by
      rw [← frameBuf_length t.rxbuf f.payload, h5]
      rfl
    rw [hsum] at hc
    exact h ⟨i, hi, Or.inl ⟨hcmd, htype, Or.inr ⟨h5, hc⟩⟩⟩
  states := by
    rw [f.memory_cmd, f.idOf_memory, f.callLen_toNat]
    intro hcmd hsome h6
    obtain ⟨i, hi⟩ := Option.isSome_iff_exists.mp hsome
    have h9 : ¬ f.payload.length ≤ 9 := fun h9 => h ⟨i, hi, Or.inr ⟨hcmd, h6, h9⟩⟩
    exact ⟨show 8 ≤ f.payload.length by omega, show 9 ≤ f.payload.length by omega⟩
  third := by
    rw [f.memory_cmd, f.idOf_memory, f.callLen_toNat]
    intro hcmd hsome h7
    obtain ⟨i, hi⟩ := Option.isSome_iff_exists.mp hsome
    have h9 : ¬ f.payload.length ≤ 9 := fun h9 => h ⟨i, hi, Or.inr ⟨hcmd, by omega, h9⟩⟩
    exact show 10 ≤ f.payload.length by omega

theorem Frame.LooksBehind.of_sameHome {f : Frame} {w w' : World} (h : f.LooksBehind w)
    (hw : w.SameHome w') : f.LooksBehind w' := by
  unfold LooksBehind at *
  rwa [← hw.lookup f.id, ← hw.mxjDevice]

theorem Frame.independent_of_not_looksBehind [JsonC] {f : Frame} {w : World}
    (h : ¬ f.LooksBehind w) : f.TrafficIndependent w := by
  rintro h₁ h₂ t₁ t₂ ⟨-, ht₁⟩ ⟨-, ht₂⟩ w₁ w₂ hw₁ hw₂ now₁ now₂ behind
  rw [f.effect_eq ht₁, f.effect_eq ht₂]
  have hreads : ReadsWithin f.Fixed (recieveUsart now₁ (f.lenByte + 1)) (f.memory t₁ behind) w₁ := by
    refine readsWithin_recieveUsart now₁ (fun i hi => ?_) (Nat.zero_le _) (fun _ => trivial)
      (reportReads (fun hl => h (hl.of_sameHome hw₁)) t₁ behind)
    rw [f.callLen_toNat] at hi
    exact le_of_lt hi
  have hmem : ∀ k, f.Fixed k → f.memory t₁ behind k = f.memory t₂ behind k := by
    rintro (i | i) hk
    · exact frameBuf_eq_of_le _ _ _ hk
    · rfl
  rw [run_congr hreads hmem]
  exact (same_recieveUsart now₁ now₂ _ w₁ w₂ (hw₁.trans hw₂.symm)).2

/-- A frame no handler reacts to; it leaves `1` in `rx[5]` and `v` in `rx[6..11]`. -/
def staleFrame (v : UInt8) : Frame :=
  ⟨0xff, [0, 0, 0, 1, v, v, v, v, v, v], by simp, by simp⟩

theorem between_stale (v : UInt8) :
    ∃ t, Between (staleFrame v).bytes t ∧ t.rxbuf 5 = 1 ∧
      ∀ i, 6 ≤ i → i ≤ 11 → t.rxbuf i = v := by
  obtain ⟨t, hafter, hww, hrx, -⟩ := after_piece Receiver.initial rfl (staleFrame v).cmd
    (staleFrame v).lenByte (staleFrame v).data (staleFrame v).payload.sum
    (staleFrame v).data_ne_nil (staleFrame v).lenByte_toNat (by
      rw [Frame.lenByte_toNat]
      simp [staleFrame])
  refine ⟨t, ⟨hafter, hww⟩, by rw [hrx]; rfl, fun i h6 h11 => ?_⟩
  rw [hrx]
  have hcases : i = 6 ∨ i = 7 ∨ i = 8 ∨ i = 9 ∨ i = 10 ∨ i = 11 := by omega
  rcases hcases with rfl | rfl | rfl | rfl | rfl | rfl <;> rfl

theorem reported_ne {c : UInt8} (hc : c = 1 ∨ c = 2 ∨ c = 3) (s : Fin 3 → UInt8) :
    reported c 0 s ≠ reported c 1 s := by
  intro h
  rcases hc with rfl | rfl | rfl
  · simpa [reported] using congrFun h 0
  · simpa [reported] using congrFun h 1
  · simpa [reported] using congrFun h 2

theorem toggled_injective : Function.Injective toggled := by
  intro s s' h
  funext k
  by_cases hk : k = 0
  · subst hk
    simpa [toggled] using congrFun h 0
  · simpa [toggled, hk] using congrFun h k

theorem reportedStates_ne {len a a' b b' c c' : UInt8} (s : Fin 3 → UInt8) (h6 : 6 ≤ len)
    (h : b ≠ b' ∨ 7 ≤ len ∧ c ≠ c') :
    reportedStates len a b c s ≠ reportedStates len a' b' c' s := by
  intro heq
  rcases h with hb | ⟨h7, hc⟩
  · exact hb (by simpa [reportedStates, h6] using congrFun heq 1)
  · exact hc (by simpa [reportedStates, h7] using congrFun heq 2)

theorem Frame.ctrlUp_effect [JsonC] {f : Frame} {t : Receiver} (ht : t.state = .wwState)
    (hcmd : f.cmd = mxjCtrlUp) (now : Tm) (behind : ℕ → UInt8) (w : World) {i : ℕ}
    (hi : w.lookup f.id = some i) (htype : (w.mxjDevice i).type = 4) :
    ((f.effect t now behind w).1.mxjDevice i).state =
      if f.id = powerCiwoId then
        toggled (reported (frameBuf t.rxbuf f.payload 5) (frameBuf t.rxbuf f.payload 6)
          (w.mxjDevice i).state)
      else reported (frameBuf t.rxbuf f.payload 5) (frameBuf t.rxbuf f.payload 6)
          (w.mxjDevice i).state := by
  rw [f.effect_eq ht, run_recieveUsart, f.memory_cmd, f.idOf_memory, dispatch, if_pos hcmd]
  exact ctrlUp_states _ { w with tblock := now } i hi htype

theorem Frame.sendState_effect [JsonC] {f : Frame} {t : Receiver} (ht : t.state = .wwState)
    (hcmd : f.cmd = mxjSendState) (now : Tm) (behind : ℕ → UInt8) (w : World) {i : ℕ}
    (hi : w.lookup f.id = some i) :
    ((f.effect t now behind w).1.mxjDevice i).state =
      reportedStates (f.lenByte + 1) (frameBuf t.rxbuf f.payload 8)
        (frameBuf t.rxbuf f.payload 9) (frameBuf t.rxbuf f.payload 10) (w.mxjDevice i).state := by
  have hne : mxjSendState ≠ mxjCtrlUp ∧ mxjSendState ≠ mxjRegisterRequest := by decide
  rw [f.effect_eq ht, run_recieveUsart, f.memory_cmd, f.idOf_memory, dispatch, hcmd, if_neg hne.1,
    if_neg hne.2, if_pos rfl]
  exact sendState_states _ { w with tblock := now } i _ hi

theorem Frame.not_independent_of_looksBehind [JsonC] {f : Frame} {w : World}
    (h : f.LooksBehind w) : ¬ f.TrafficIndependent w := by
  intro hind
  obtain ⟨i, hi, hcase⟩ := h
  -- two histories that differ only in what they leave in `rx[6..11]`
  obtain ⟨t, hb, h5, hv⟩ := between_stale 0
  obtain ⟨t', hb', h5', hv'⟩ := between_stale 1
  have hw : w.SameHome w := ⟨rfl, rfl, rfl⟩
  have hsame := (hind _ _ t t' hb hb' w w hw hw ⟨0, 0, 0, 0, 0, 0⟩ ⟨0, 0, 0, 0, 0, 0⟩
    fun _ => 0).1.mxjDevice
  have hstate := congrArg MxjDevice.state (congrFun hsame i)
  rcases hcase with ⟨hcmd, htype, hlen⟩ | ⟨hcmd, h6, h9⟩
  · rw [ctrlUp_effect hb.2 hcmd _ _ w hi htype, ctrlUp_effect hb'.2 hcmd _ _ w hi htype] at hstate
    have hval : frameBuf t.rxbuf f.payload 6 = 0 ∧ frameBuf t'.rxbuf f.payload 6 = 1 := by
      rw [frameBuf_of_gt _ _ (by omega), frameBuf_of_gt _ _ (by omega)]
      exact ⟨hv 6 (by omega) (by omega), hv' 6 (by omega) (by omega)⟩
    have hchan : ∃ c, (c = 1 ∨ c = 2 ∨ c = 3) ∧ frameBuf t.rxbuf f.payload 5 = c ∧
        frameBuf t'.rxbuf f.payload 5 = c := by
      rcases hlen with h4 | ⟨h5len, hsum⟩
      · refine ⟨1, Or.inl rfl, ?_, ?_⟩
        · rw [frameBuf_of_gt _ _ (by omega), h5]
        · rw [frameBuf_of_gt _ _ (by omega), h5']
      · refine ⟨f.payload.sum, hsum, ?_, ?_⟩
        · rw [← h5len, frameBuf_length]
        · rw [← h5len, frameBuf_length]
    obtain ⟨c, hc, hc1, hc2⟩ := hchan
    rw [hval.1, hval.2, hc1, hc2] at hstate
    by_cases hid : f.id = powerCiwoId
    · rw [if_pos hid, if_pos hid] at hstate
      exact reported_ne hc _ (toggled_injective hstate)
    · rw [if_neg hid, if_neg hid] at hstate
      exact reported_ne hc _ hstate
  · rw [sendState_effect hb.2 hcmd _ _ w hi, sendState_effect hb'.2 hcmd _ _ w hi] at hstate
    refine reportedStates_ne _ ((f.le_callLen 6).mpr h6) ?_ hstate
    -- up to eight bytes leave `rx[9]` stale; nine put the sum there and leave `rx[10]` stale
    by_cases h8 : f.payload.length ≤ 8
    · left
      rw [frameBuf_of_gt _ _ (by omega), frameBuf_of_gt _ _ (by omega),
        hv 9 (by omega) (by omega), hv' 9 (by omega) (by omega)]
      decide
    · right
      refine ⟨(f.le_callLen 7).mpr (show 7 ≤ f.payload.length by omega), ?_⟩
      rw [frameBuf_of_gt _ _ (by omega), frameBuf_of_gt _ _ (by omega),
        hv 10 (by omega) (by omega), hv' 10 (by omega) (by omega)]
      decide

/-- The effect of a frame on a home is independent of earlier traffic exactly when its
handler does not look behind it. -/
theorem effect_traffic_independent_iff [JsonC] (f : Frame) (w : World) :
    f.TrafficIndependent w ↔ ¬ f.LooksBehind w := by
  constructor
  · exact fun h hl => Frame.not_independent_of_looksBehind hl h
  · exact Frame.independent_of_not_looksBehind

/-- A switch report that ends behind the id, from the living room switch. -/
def shortReport : Frame :=
  ⟨mxjCtrlUp, [hiByte ketingId, loByte ketingId], by simp, by simp⟩

/-- Right after the start, it stores what two frames before it left in `rx[6]`. -/
theorem shortReport_depends_on_traffic :
    letI := spacedJsonC
    ¬ shortReport.TrafficIndependent (World.started march) :=
  letI := spacedJsonC
  Frame.not_independent_of_looksBehind
    ⟨0, by decide +kernel, Or.inl ⟨rfl, by decide +kernel, Or.inl (by decide)⟩⟩

end IdolGateway.ZbClient
