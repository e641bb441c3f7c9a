import IdolGateway.ZbClient.Entries

namespace IdolGateway.ZbClient

open Procedure

/-- The pieces of which the outputs of a frame consist, with `n` slots in use, apart from
control frames for the sender itself. -/
structure ReportLaw (n : ℕ) (L : List Out → Prop) : Prop extends Chainable L where
  store : ∀ i < n, L [.store i]
  light : L [ctrl chufangId 3 1 1 1]
  register : ∀ id, L ((mxjSendRegisterMessage id mxjRegisterOk).map .usart)
  double : ∀ id, L (doubleKick id)
  single : ∀ now id action, L (singleKick now id action)

/-- The pieces of which the outputs of any frame consist. -/
structure FrameLaw (n : ℕ) (L : List Out → Prop) : Prop extends Chainable L where
  store : ∀ i < n, L [.store i]
  socket : ∀ v, L [ctrl powerCiwoId 1 v 0 0]
  light : L [ctrl chufangId 3 1 1 1]
  register : ∀ id, L ((mxjSendRegisterMessage id mxjRegisterOk).map .usart)
  getState : ∀ id, L [ctrl id 1 2 2 2]
  double : ∀ id, L (doubleKick id)
  single : ∀ now id action, L (singleKick now id action)

theorem FrameLaw.report {n : ℕ} {L : List Out → Prop} (hL : FrameLaw n L) : ReportLaw n L :=
  ⟨hL.toChainable, hL.store, hL.light, hL.register, hL.double, hL.single⟩

section

variable {mem : Loc → UInt8} {L : List Out → Prop} {n : ℕ}

def World.HasSlots (n : ℕ) (w : World) : Prop := w.devsize.toNat = n

abbrev Keeps (mem : Loc → UInt8) (L : List Out → Prop) (n : ℕ) (p : Handler Unit) : Prop :=
  Emits mem L (World.HasSlots n) p fun _ => World.HasSlots n

theorem emits_findDev (hL : ReportLaw n L) (id : UInt16) :
    Emits mem L (World.HasSlots n) (findDev id) fun found w => w.HasSlots n ∧ ∀ i ∈ found, i < n := by
  intro w hw
  rw [run_findDev]
  cases hfound : w.lookup id with
  | none => exact ⟨⟨hw, by simp⟩, hL.nil⟩
  | some i =>
    have hi : i < n := hw ▸ ((lookup_eq_some_iff w id i).mp hfound).1
    exact ⟨⟨hw, by simpa using hi⟩, hL.store i hi⟩

theorem emits_storeState (hL : ReportLaw n L) {i : ℕ} (hi : i < n) (k : Fin 3) (v : UInt8) :
    Keeps mem L n (storeState i k v) := fun _ hw => ⟨hw, hL.store i hi⟩

theorem emits_storeRx (hL : ReportLaw n L) {i : ℕ} (hi : i < n) (k : Fin 3) (j : ℕ) :
    Keeps mem L n (storeRx i k j) :=
  (Emits.cell hL.toChainable _).bind hL.toChainable fun _ => emits_storeState hL hi k _

theorem emits_channelReport (hL : ReportLaw n L) {i : ℕ} (hi : i < n) (c : UInt8) (k : Fin 3) :
    Keeps mem L n (channelReport i c k) :=
  (Emits.cell hL.toChainable _).bind hL.toChainable fun _ =>
    .when hL.toChainable fun _ => emits_storeRx hL hi k 6

theorem emits_buildJson [JsonC] (hL : ReportLaw n L) : Keeps mem L n buildJson :=
  fun _ hw => ⟨hw, hL.nil⟩

theorem emits_setHumand (hL : ReportLaw n L) (h : ℤ) :
    Keeps mem L n (modify fun w => { w with humand := h }) := fun _ hw => ⟨hw, hL.nil⟩

theorem emits_switchReport [JsonC] (hL : ReportLaw n L) (id : UInt16) {i : ℕ} (hi : i < n) :
    Keeps mem L n (switchReport id i) := by
  have hC := hL.toChainable
  apply (emits_channelReport hL hi 1 0).bind hC
  intro _
  apply (emits_channelReport hL hi 2 1).bind hC
  intro _
  apply (emits_channelReport hL hi 3 2).bind hC
  intro _
  apply (Emits.when hC fun _ => emits_setHumand hL 0).bind hC
  exact fun _ => emits_buildJson hL

theorem emits_toggleSocket (hL : ReportLaw n L) (hsocket : ∀ v, L [ctrl powerCiwoId 1 v 0 0]) {i : ℕ}
    (hi : i < n) : Keeps mem L n (toggleSocket i) := by
  have hC := hL.toChainable
  apply (Emits.gets hC _).bind hC
  intro s
  apply (Emits.emit (hsocket (1 - s))).bind hC
  intro _
  apply (Emits.gets hC _).bind hC
  exact fun s => emits_storeState hL hi 0 (1 - s)

theorem emits_afterFind (hL : ReportLaw n L) (id : UInt16) {p : Option ℕ → Handler Unit}
    (hp : ∀ found, (∀ i ∈ found, i < n) → Keeps mem L n (p found)) :
    Keeps mem L n (findDev id >>= p) := by
  apply (emits_findDev hL id).bind hL.toChainable
  intro found w hw
  exact hp found hw.2 w hw.1

theorem emits_ctrlUp [JsonC] (hL : ReportLaw n L) (id : UInt16)
    (hsocket : id = powerCiwoId → ∀ v, L [ctrl powerCiwoId 1 v 0 0]) :
    Keeps mem L n (ctrlUp id) := by
  have hC := hL.toChainable
  apply emits_afterFind hL id
  intro found hfound
  cases found with
  | none => exact Emits.pure hC ()
  | some i =>
    have hi : i < n := hfound i rfl
    apply (Emits.gets hC _).bind hC
    intro type
    apply (Emits.when hC fun _ => emits_switchReport hL id hi).bind hC
    intro _
    exact .when hC fun hid => emits_toggleSocket hL (hsocket hid) hi

theorem emits_sendState [JsonC] (hL : ReportLaw n L) (len : UInt8) (id : UInt16) :
    Keeps mem L n (sendState len id) := by
  have hC := hL.toChainable
  apply emits_afterFind hL id
  intro found hfound
  cases found with
  | none => exact Emits.pure hC ()
  | some i =>
    have hi : i < n := hfound i rfl
    apply (Emits.when hC fun _ => emits_storeRx hL hi 0 8).bind hC
    intro _
    apply (Emits.when hC fun _ => emits_storeRx hL hi 1 9).bind hC
    intro _
    apply (Emits.when hC fun _ => emits_storeRx hL hi 2 10).bind hC
    exact fun _ => emits_buildJson hL

theorem emits_onOffReport (hL : ReportLaw n L) (now : Tm) (len : UInt8) (id : UInt16) :
    Keeps mem L n (onOffReport now len id) := by
  have hC := hL.toChainable
  apply Emits.when hC
  intro _
  apply (Emits.cell hC _).bind hC
  intro kick
  by_cases hkick : kick = 0x20
  · rw [if_pos hkick]
    exact Emits.emit (hL.double id)
  · rw [if_neg hkick]
    apply (Emits.cell hC _).bind hC
    exact fun action => Emits.emit (hL.single now id action)

theorem emits_motionLight (hL : ReportLaw n L) (j : Option ℕ) : Keeps mem L n (motionLight j) := by
  have hC := hL.toChainable
  cases j with
  | none => exact Emits.pure hC ()
  | some j =>
    apply (Emits.gets hC _).bind hC
    intro s
    apply Emits.when hC
    intro _
    apply (Emits.gets hC _).bind hC
    intro humand
    apply Emits.when hC
    intro _
    exact (Emits.emit hL.light).bind hC fun _ => emits_setHumand hL 120

theorem emits_occupancyReport (hL : ReportLaw n L) (len : UInt8) (id : UInt16) :
    Keeps mem L n (occupancyReport len id) := by
  have hC := hL.toChainable
  apply Emits.when hC
  intro _
  apply Emits.when hC
  intro _
  apply emits_afterFind hL chufangId
  intro j _
  apply (emits_motionLight hL j).bind hC
  intro _
  apply (Emits.gets hC _).bind hC
  intro humand
  exact .when hC fun _ => emits_setHumand hL 120

theorem emits_measureReport (hL : ReportLaw n L) (len : UInt8) :
    Keeps mem L n (measureReport len) := by
  have hC := hL.toChainable
  apply Emits.when hC
  intro _
  apply (Emits.cell hC _).bind hC
  intro _
  exact (Emits.cell hC _).bind hC fun _ => Emits.pure hC ()

theorem emits_clusters (hL : ReportLaw n L) (now : Tm) (len : UInt8) (id cid : UInt16) :
    Keeps mem L n (if cid = 6 then onOffReport now len id
      else if cid = 0x406 then occupancyReport len id
      else if cid = 0x402 then measureReport len
      else if cid = 0x405 then measureReport len
      else pure ()) := by
  split_ifs
  · exact emits_onOffReport hL now len id
  · exact emits_occupancyReport hL len id
  · exact emits_measureReport hL len
  · exact emits_measureReport hL len
  · exact Emits.pure hL.toChainable ()

end

section

variable [JsonC] {mem : Loc → UInt8} {L : List Out → Prop} {w : World} {len : UInt8}

theorem out_appendSensor (id : UInt16) (type : UInt8) (mem : Loc → UInt8) (w : World) :
    ((appendSensor id type).run mem w).out = [.store w.devsize.toNat] := by
  unfold appendSensor
  rw [run_gets_bind, run_bind_out, run_setDevice, run_bind_out, run_when]
  by_cases h : w.devsize.toNat < devSize
  · rw [if_pos h]
    rfl
  · rw [if_neg h]
    rfl

theorem out_xiaomi18 (hL : ReportLaw w.devsize.toNat L)
    (hjoin : w.joinType mem len ≠ none → L [.store w.devsize.toNat])
    (hcmd : mem (.rx 0) = mxjXiaomi18) (now : Tm) :
    L ((xiaomi18 now len (idOf mem len) (cidOf mem len)).run mem w).out := by
  have hfind : L ((findDev (idOf mem len)).run mem w).out := (emits_findDev hL _ w rfl).2
  have hcluster : Keeps mem L w.devsize.toNat _ :=
    emits_clusters hL now len (idOf mem len) (cidOf mem len)
  unfold xiaomi18
  rw [run_bind_out, run_bind_out]
  apply hL.append hfind
  rw [run_findDev, run_sensorJoin mem _ len _ _ hcmd, ← World.joinType]
  cases htype : w.joinType mem len with
  | none =>
    apply hL.append hL.nil
    exact (hcluster _ (w.devsize_beat (idOf mem len) ▸ rfl)).2
  | some type =>
    have hcid : cidOf mem len = 0 := by
      unfold World.joinType at htype
      split_ifs at htype
      exact cidOf_of_sensorType htype
    rw [hcid]
    apply hL.append
    · rw [out_appendSensor]
      exact hjoin (by simp [htype])
    · exact hL.nil

/-- The outputs of a frame are put together from the pieces; the control frames for the
sender are those of a `CTRL_UP` of the socket and of a `GET_STATE`. -/
theorem frame_out_of_report (hL : ReportLaw w.devsize.toNat L)
    (hsocket : mem (.rx 0) = mxjCtrlUp → idOf mem len = powerCiwoId → ∀ v, L [ctrl powerCiwoId 1 v 0 0])
    (hstate : mem (.rx 0) = mxjGetState → L [ctrl (idOf mem len) 1 2 2 2])
    (hjoin : w.joinType mem len ≠ none → L [.store w.devsize.toNat]) (now : Tm) :
    L ((recieveUsart now len).run mem w).out := by
  have hw : ({ w with tblock := now } : World).HasSlots w.devsize.toNat := rfl
  rw [run_recieveUsart]
  unfold dispatch
  split_ifs with hup hreg hsend hget h18 h1c
  · exact (emits_ctrlUp hL _ (hsocket hup) _ hw).2
  · exact hL.register _
  · exact (emits_sendState hL len _ _ hw).2
  · exact hstate hget
  · exact out_xiaomi18 (w := { w with tblock := now }) hL hjoin h18 now
  · exact (emits_afterFind hL _ (fun _ _ => Emits.pure hL.toChainable ()) _ hw).2
  · exact hL.nil

theorem frame_out (hL : FrameLaw w.devsize.toNat L)
    (hjoin : w.joinType mem len ≠ none → L [.store w.devsize.toNat]) (now : Tm) :
    L ((recieveUsart now len).run mem w).out :=
  frame_out_of_report hL.report (fun _ _ => hL.socket) (fun _ => hL.getState _) hjoin now

end

end IdolGateway.ZbClient
