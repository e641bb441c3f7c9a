import IdolGateway.ZbClient.MainLoop
import IdolGateway.ZbClient.Reports

namespace IdolGateway.ZbClient

open Procedure

def LooksUp (cmd : UInt8) : Prop :=
  cmd = mxjCtrlUp ∨ cmd = mxjSendState ∨ cmd = mxjXiaomi18 ∨ cmd = mxjXiaomi1c

instance (cmd : UInt8) : Decidable (LooksUp cmd) := inferInstanceAs (Decidable (_ ∨ _))

def IsMotion (mem : Loc → UInt8) (len : UInt8) : Prop :=
  mem (.rx 0) = mxjXiaomi18 ∧ idOf mem len = xiaomirentiId ∧ cidOf mem len = 0x406 ∧ len = 14

instance (mem : Loc → UInt8) (len : UInt8) : Decidable (IsMotion mem len) :=
  inferInstanceAs (Decidable (_ ∧ _))

/-- The type as which the sender of the frame would join the table. -/
def sensorType (mem : Loc → UInt8) (len : UInt8) : Option UInt8 :=
  if mem (.rx 0) = mxjXiaomi18 ∧ 27 ≤ len ∧ cidOf mem len = 0 ∧
      (mem (.rx 12)).toNat + 13 ≤ len.toNat then
    recognised mem (copied mem 13 (mem (.rx 12)).toNat) modelTypes
  else none

def World.joined (w : World) (id : UInt16) (type : UInt8) : World :=
  { w with
    mxjDevice := Function.update w.mxjDevice w.devsize.toNat
      { w.mxjDevice w.devsize.toNat with id := id, type := type, idx := 1, registered := 1 }
    devsize := if w.devsize.toNat < devSize then w.devsize + 1 else w.devsize }

def World.kitchenState (w : World) : Option UInt8 :=
  (w.lookup chufangId).map fun j => (w.mxjDevice j).state 0

def World.humandOnMotion (w : World) : ℤ :=
  if (w.kitchenState = some 0 ∧ w.humand ≤ 1) ∨ 1 < w.humand then 120 else w.humand

/-- `humand` after a `CTRL_UP` frame: the switch of the kitchen stops the timer. -/
def World.humandOnReport (w : World) (id : UInt16) : ℤ :=
  match w.lookup id with
  | some i => if (w.mxjDevice i).type = 4 ∧ id = chufangId then 0 else w.humand
  | none => w.humand

section Frame

variable (mem : Loc → UInt8) (len : UInt8)

/-- The type as which the sender joins; nobody in the table does. -/
def World.joinType (w : World) : Option UInt8 :=
  if w.lookup (idOf mem len) = none then sensorType mem len else none

/-- The table after a frame, up to states. -/
def World.heard (w : World) : World :=
  if LooksUp (mem (.rx 0)) then
    match w.joinType mem len with
    | some type => w.joined (idOf mem len) type
    | none =>
      if IsMotion mem len then (w.beat (idOf mem len)).beat chufangId else w.beat (idOf mem len)
  else w

def World.humandAfter (w : World) : ℤ :=
  if IsMotion mem len then w.humandOnMotion
  else if mem (.rx 0) = mxjCtrlUp then w.humandOnReport (idOf mem len)
  else w.humand

end Frame

/-- Only states, `humand`, `json_str` and the clock differ; `humand` is `h`. -/
structure World.Settled (w₀ : World) (h : ℤ) (w : World) : Prop where
  slot : ∀ j, ∃ s, w.mxjDevice j = { w₀.mxjDevice j with state := s }
  devsize : w.devsize = w₀.devsize
  flagHour : w.flagHour = w₀.flagHour
  humand : w.humand = h

theorem World.Settled.refl (w : World) : w.Settled w.humand w :=
  ⟨fun j => ⟨(w.mxjDevice j).state, rfl⟩, rfl, rfl, rfl⟩

section Branches

variable {mem : Loc → UInt8} {w₀ : World} {h : ℤ}

theorem settled_gets {α : Type} (f : World → α) :
    Triple mem (w₀.Settled h) (gets f : Handler α) fun _ => w₀.Settled h := fun _ hw => hw

theorem settled_emit (o : List Out) :
    Triple mem (w₀.Settled h) (emit o) fun _ => w₀.Settled h := fun _ hw => hw

theorem settled_when {c : Prop} [Decidable c] {p : Handler Unit}
    (hp : c → Triple mem (w₀.Settled h) p fun _ => w₀.Settled h) :
    Triple mem (w₀.Settled h) (when c p) fun _ => w₀.Settled h :=
  Triple.when hp fun _ _ hw => hw

theorem settled_buildJson [JsonC] :
    Triple mem (w₀.Settled h) buildJson fun _ => w₀.Settled h :=
  fun _ hw => ⟨hw.slot, hw.devsize, hw.flagHour, hw.humand⟩

theorem settled_setHumand (n : ℤ) :
    Triple mem (w₀.Settled h) (modify fun w => { w with humand := n } : Handler Unit)
      fun _ => w₀.Settled n :=
  fun _ hw => ⟨hw.slot, hw.devsize, hw.flagHour, rfl⟩

theorem settled_storeState (i : ℕ) (k : Fin 3) (v : UInt8) :
    Triple mem (w₀.Settled h) (storeState i k v) fun _ => w₀.Settled h := by
  intro w hw
  unfold storeState
  rw [run_setDevice]
  refine ⟨fun j => ?_, hw.devsize, hw.flagHour, hw.humand⟩
  obtain ⟨s, hs⟩ := hw.slot j
  by_cases hj : j = i
  · subst hj
    exact ⟨Function.update s k v, by simp [hs]⟩
  · exact ⟨s, by simp [hj, hs]⟩

theorem settled_storeRx (i : ℕ) (k : Fin 3) (j : ℕ) :
    Triple mem (w₀.Settled h) (storeRx i k j) fun _ => w₀.Settled h :=
  (Triple.cell _).bind fun _ => settled_storeState i k _

theorem settled_channelReport (i : ℕ) (c : UInt8) (k : Fin 3) :
    Triple mem (w₀.Settled h) (channelReport i c k) fun _ => w₀.Settled h :=
  (Triple.cell _).bind fun _ => settled_when fun _ => settled_storeRx i k 6

theorem settled_switchReport [JsonC] (id : UInt16) (i : ℕ) :
    Triple mem (w₀.Settled h) (switchReport id i)
      fun _ => w₀.Settled (if id = chufangId then 0 else h) := by
  refine (settled_channelReport i 1 0).bind fun _ => (settled_channelReport i 2 1).bind fun _ => ?_
  refine (settled_channelReport i 3 2).bind fun _ => Triple.bind ?_ fun _ => settled_buildJson
  refine Triple.when (fun hid => ?_) fun hid w hw => ?_
  · rw [if_pos hid]
    exact settled_setHumand 0
  · rw [if_neg hid]
    exact hw

theorem settled_toggleSocket (i : ℕ) :
    Triple mem (w₀.Settled h) (toggleSocket i) fun _ => w₀.Settled h := by
  refine (settled_gets _).bind fun s => (settled_emit _).bind fun _ => ?_
  exact (settled_gets _).bind fun s => settled_storeState i 0 _

theorem settled_stateReport [JsonC] (len : UInt8) (i : ℕ) :
    Triple mem (w₀.Settled h) (stateReport len i) fun _ => w₀.Settled h := by
  refine (settled_when fun _ => settled_storeRx i 0 8).bind fun _ => ?_
  refine (settled_when fun _ => settled_storeRx i 1 9).bind fun _ => ?_
  exact (settled_when fun _ => settled_storeRx i 2 10).bind fun _ => settled_buildJson

theorem settled_onOffReport (now : Tm) (len : UInt8) (id : UInt16) :
    Triple mem (w₀.Settled h) (onOffReport now len id) fun _ => w₀.Settled h := by
  refine settled_when fun _ => (Triple.cell _).bind fun kick => ?_
  by_cases hkick : kick = 0x20
  · rw [if_pos hkick]
    exact settled_emit _
  · rw [if_neg hkick]
    exact (Triple.cell _).bind fun action => settled_emit _

theorem settled_measureReport (len : UInt8) :
    Triple mem (w₀.Settled h) (measureReport len) fun _ => w₀.Settled h :=
  settled_when fun _ => (Triple.cell _).bind fun _ => (Triple.cell _).bind fun _ =>
    fun _ hw => hw

end Branches

section Lookups

variable (mem : Loc → UInt8) (w : World)

theorem World.beat_of_none {w : World} {id : UInt16} (h : w.lookup id = none) : w.beat id = w := by
  unfold World.beat
  rw [h]

@[simp] theorem World.humand_beat (id : UInt16) : (w.beat id).humand = w.humand := rfl

@[simp] theorem World.devsize_beat (id : UInt16) : (w.beat id).devsize = w.devsize := rfl

@[simp] theorem World.flagHour_beat (id : UInt16) : (w.beat id).flagHour = w.flagHour := rfl

theorem heart_beat (id : UInt16) (j : ℕ) :
    ((w.beat id).mxjDevice j).heart =
      (w.mxjDevice j).heart + if w.lookup id = some j then 1 else 0 := by
  unfold World.beat
  cases w.lookup id with
  | none => simp
  | some i =>
    by_cases hj : j = i
    · subst hj
      simp
    · simp [hj, Ne.symm hj]

@[simp] theorem World.lookup_beat (id id' : UInt16) : (w.beat id).lookup id' = w.lookup id' := by
  have hid : ∀ i, ((w.beat id).mxjDevice i).id = (w.mxjDevice i).id := by
    intro i
    obtain ⟨h, hi⟩ := w.beat_mxjDevice id i
    rw [hi]
  unfold World.lookup
  simp only [hid]
  rfl

@[simp] theorem World.kitchenState_beat (id : UInt16) :
    (w.beat id).kitchenState = w.kitchenState := by
  unfold World.kitchenState
  rw [w.lookup_beat]
  cases w.lookup chufangId with
  | none => rfl
  | some j => simp only [Option.map_some, beat_state]

@[simp] theorem World.humandOnMotion_beat (id : UInt16) :
    (w.beat id).humandOnMotion = w.humandOnMotion := by
  unfold World.humandOnMotion
  rw [w.kitchenState_beat]
  rfl

theorem ctrlUp_settled [JsonC] (id : UInt16) :
    (w.beat id).Settled (w.humandOnReport id) ((ctrlUp id).run mem w).state := by
  unfold ctrlUp World.humandOnReport
  rw [run_bind_state, run_findDev]
  cases w.lookup id with
  | none => exact .refl _
  | some i =>
    dsimp only
    rw [run_gets_bind, w.beat_type]
    have hswitch : Triple mem ((w.beat id).Settled w.humand)
        (when ((w.mxjDevice i).type = 4) (switchReport id i)) fun _ =>
          (w.beat id).Settled (if (w.mxjDevice i).type = 4 ∧ id = chufangId then 0 else w.humand) := by
      refine Triple.when (fun htype => ?_) fun htype s hs => ?_
      · simp only [htype, true_and]
        exact settled_switchReport id i
      · simp only [htype, false_and, if_false]
        exact hs
    exact hswitch.bind (fun _ => settled_when fun _ => settled_toggleSocket i) _ (.refl _)

theorem sendState_settled [JsonC] (len : UInt8) (id : UInt16) :
    (w.beat id).Settled w.humand ((sendState len id).run mem w).state := by
  unfold sendState
  rw [run_bind_state, run_findDev]
  cases w.lookup id with
  | none => exact .refl _
  | some i => exact settled_stateReport len i _ (.refl _)

theorem run_motionLight (j : Option ℕ) :
    (motionLight j).run mem w =
      if (j.map fun j => (w.mxjDevice j).state 0) = some 0 ∧ w.humand ≤ 1 then
        ⟨(), { w with humand := 120 }, [ctrl chufangId 3 1 1 1]⟩ else ⟨(), w, []⟩ := by
  cases j with
  | none => simp [motionLight]
  | some j =>
    unfold motionLight
    rw [run_gets_bind, run_when]
    by_cases hs : (w.mxjDevice j).state 0 = 0
    · rw [if_pos hs, run_gets_bind, run_when]
      by_cases hh : w.humand ≤ 1
      · simp [hs, hh]
      · simp [hs, hh]
    · simp [hs]

theorem occupancyReport_settled (len : UInt8) (id : UInt16) :
    (if len = 14 ∧ id = xiaomirentiId then w.beat chufangId else w).Settled
      (if len = 14 ∧ id = xiaomirentiId then w.humandOnMotion else w.humand)
      ((occupancyReport len id).run mem w).state := by
  unfold occupancyReport
  rw [run_when, run_when]
  by_cases hlen : len = 14
  · by_cases hid : id = xiaomirentiId
    · simp only [hlen, hid, and_self, if_true]
      rw [run_bind_state, run_findDev, run_bind_state, run_motionLight, run_gets_bind, run_when]
      have hk : ((w.lookup chufangId).map fun j => ((w.beat chufangId).mxjDevice j).state 0) =
          w.kitchenState := by
        simp only [beat_state]
        rfl
      have hh : (w.beat chufangId).humand = w.humand := rfl
      rw [hk, hh, World.humandOnMotion]
      by_cases hon : w.kitchenState = some 0 ∧ w.humand ≤ 1
      · simp only [if_pos hon, if_pos (Or.inl hon : _ ∨ 1 < w.humand)]
        exact ⟨fun j => ⟨_, rfl⟩, rfl, rfl, rfl⟩
      · by_cases hrun : 1 < w.humand
        · simp only [if_neg hon, hh, if_pos hrun, if_pos (Or.inr hrun : (_ ∧ _) ∨ _)]
          exact ⟨fun j => ⟨_, rfl⟩, rfl, rfl, rfl⟩
        · have hnot : ¬ ((w.kitchenState = some 0 ∧ w.humand ≤ 1) ∨ 1 < w.humand) := by
            rintro (h | h)
            · exact hon h
            · exact hrun h
          simp only [if_neg hon, hh, if_neg hrun, if_neg hnot]
          exact .refl _
    · simp only [hlen, hid, and_false, if_true, if_false]
      exact .refl _
  · simp only [hlen, false_and, if_false]
    exact .refl _

theorem appendSensor_settled [JsonC] (id : UInt16) (type : UInt8) :
    (w.joined id type).Settled w.humand ((appendSensor id type).run mem w).state := by
  unfold appendSensor World.joined
  rw [run_gets_bind, run_bind_state, run_setDevice, run_bind_state, run_when, run_buildJson]
  by_cases h : w.devsize.toNat < devSize
  · simp only [if_pos h]
    exact ⟨fun j => ⟨_, rfl⟩, rfl, rfl, rfl⟩
  · simp only [if_neg h]
    exact ⟨fun j => ⟨_, rfl⟩, rfl, rfl, rfl⟩

theorem run_sensorJoin [JsonC] (len : UInt8) (id : UInt16) (i : Option ℕ)
    (hcmd : mem (.rx 0) = mxjXiaomi18) :
    (sensorJoin len id (cidOf mem len) i).run mem w =
      match if i = none then sensorType mem len else none with
      | some type => (appendSensor id type).run mem w
      | none => ⟨(), w, []⟩ := by
  unfold sensorJoin sensorType
  simp only [run_when, hcmd, true_and]
  by_cases hlen : 27 ≤ len
  · by_cases hcid : cidOf mem len = 0
    · rw [if_pos hlen, if_pos hcid, run_cell_bind, run_when]
      by_cases hn : (mem (.rx 12)).toNat + 13 ≤ len.toNat
      · by_cases hi : i = none
        · simp only [hlen, hcid, hn, hi, and_self, if_true]
          rw [run_bind_of_quiet (run_strncpyRx mem w 13 _)]
          exact run_joinAs mem w id _ modelTypes
        · simp [hi]
      · simp [hn]
    · simp [hcid]
  · simp [hlen]

theorem cidOf_of_sensorType {mem : Loc → UInt8} {len type : UInt8}
    (h : sensorType mem len = some type) : cidOf mem len = 0 := by
  unfold sensorType at h
  by_cases hc : mem (.rx 0) = mxjXiaomi18 ∧ 27 ≤ len ∧ cidOf mem len = 0 ∧
      (mem (.rx 12)).toNat + 13 ≤ len.toNat
  · exact hc.2.2.1
  · rw [if_neg hc] at h
    exact absurd h (by simp)

theorem xiaomi18_settled [JsonC] (now : Tm) (len : UInt8) (hcmd : mem (.rx 0) = mxjXiaomi18) :
    (w.heard mem len).Settled (w.humandAfter mem len)
      ((xiaomi18 now len (idOf mem len) (cidOf mem len)).run mem w).state := by
  have hlooks : LooksUp (mem (.rx 0)) := Or.inr (Or.inr (Or.inl hcmd))
  have hup : mem (.rx 0) ≠ mxjCtrlUp := by rw [hcmd]; decide
  unfold World.heard World.humandAfter xiaomi18
  rw [if_pos hlooks, if_neg hup, run_bind_state, run_findDev, run_bind_state,
    run_sensorJoin mem _ len _ _ hcmd, ← World.joinType]
  cases hjoin : w.joinType mem len with
  | some type =>
    have hnone : w.lookup (idOf mem len) = none := by
      by_contra hne
      rw [World.joinType, if_neg hne] at hjoin
      exact absurd hjoin (by simp)
    have hcid : cidOf mem len = 0 := by
      rw [World.joinType, if_pos hnone] at hjoin
      exact cidOf_of_sensorType hjoin
    have hmotion : ¬ IsMotion mem len := fun h => absurd (hcid.symm.trans h.2.2.1) (by decide)
    simp only [if_neg hmotion, World.beat_of_none hnone, hcid]
    exact appendSensor_settled mem w _ type
  | none =>
    dsimp only
    by_cases h6 : cidOf mem len = 6
    · have hmotion : ¬ IsMotion mem len := fun h => absurd (h6.symm.trans h.2.2.1) (by decide)
      simp only [if_pos h6, if_neg hmotion]
      exact settled_onOffReport now len _ _ (.refl _)
    · rw [if_neg h6]
      by_cases h406 : cidOf mem len = 0x406
      · have hmotion : IsMotion mem len ↔ len = 14 ∧ idOf mem len = xiaomirentiId :=
          ⟨fun h => ⟨h.2.2.2, h.2.1⟩, fun h => ⟨hcmd, h.2, h406, h.1⟩⟩
        have hocc := occupancyReport_settled mem (w.beat (idOf mem len)) len (idOf mem len)
        simp only [if_pos h406, hmotion]
        simpa only [World.humandOnMotion_beat, World.humand_beat] using hocc
      · have hmotion : ¬ IsMotion mem len := fun h => h406 h.2.2.1
        simp only [if_neg h406, if_neg hmotion, run_ite]
        split_ifs
        · exact settled_measureReport len _ (.refl _)
        · exact settled_measureReport len _ (.refl _)
        · exact .refl _

end Lookups

section Frame

variable (mem : Loc → UInt8) (len : UInt8) (w : World)

theorem World.joinType_of_ne (hne : mem (.rx 0) ≠ mxjXiaomi18) : w.joinType mem len = none := by
  have htype : sensorType mem len = none := if_neg fun h => hne h.1
  unfold World.joinType
  rw [htype, ite_self]

theorem World.heard_of_ne (hne : mem (.rx 0) ≠ mxjXiaomi18) :
    w.heard mem len = if LooksUp (mem (.rx 0)) then w.beat (idOf mem len) else w := by
  have hmotion : ¬ IsMotion mem len := fun h => hne h.1
  unfold World.heard
  rw [w.joinType_of_ne mem len hne]
  simp only [if_neg hmotion]

theorem World.humandAfter_of_ne (hne : mem (.rx 0) ≠ mxjXiaomi18) :
    w.humandAfter mem len =
      if mem (.rx 0) = mxjCtrlUp then w.humandOnReport (idOf mem len) else w.humand :=
  if_neg fun h : IsMotion mem len => hne h.1

theorem dispatch_settled [JsonC] (now : Tm) :
    (w.heard mem len).Settled (w.humandAfter mem len)
      ((dispatch now len (idOf mem len) (cidOf mem len) (mem (.rx 0))).run mem w).state := by
  by_cases h18 : mem (.rx 0) = mxjXiaomi18
  · have h := xiaomi18_settled mem w now len h18
    rw [h18]
    exact h
  · rw [w.heard_of_ne mem len h18, w.humandAfter_of_ne mem len h18]
    unfold dispatch
    by_cases hlooks : LooksUp (mem (.rx 0))
    · rw [if_pos hlooks]
      split_ifs with hup hreq hstate hget h1c
      · exact ctrlUp_settled mem w _
      · exact absurd hlooks (by rw [hreq]; decide)
      · exact sendState_settled mem w len _
      · exact absurd hlooks (by rw [hget]; decide)
      · rw [run_bind_state, run_findDev]
        exact .refl _
      · exact absurd hlooks (by simp [LooksUp, *])
    · rw [if_neg hlooks]
      split_ifs with hup hreq hstate hget h1c
      · exact absurd (Or.inl hup) hlooks
      · exact .refl w
      · exact absurd (Or.inr (Or.inl hstate)) hlooks
      · exact .refl w
      · exact absurd (Or.inr (Or.inr (Or.inr h1c))) hlooks
      · exact .refl w

/-- The clock plays no part in it. -/
theorem World.heard_tblock (now : Tm) :
    ({ w with tblock := now } : World).heard mem len = { w.heard mem len with tblock := now } := by
  have hjoin : ({ w with tblock := now } : World).joinType mem len = w.joinType mem len := rfl
  unfold World.heard
  rw [hjoin]
  split_ifs <;> cases w.joinType mem len <;> rfl

/-- What a frame leaves, whatever the globals, the buffer, the heap and the clock. -/
theorem frame_settled [JsonC] (now : Tm) :
    (w.heard mem len).Settled (w.humandAfter mem len) ((recieveUsart now len).run mem w).state := by
  have h := dispatch_settled mem len { w with tblock := now } now
  rw [run_recieveUsart]
  rw [w.heard_tblock] at h
  exact ⟨h.slot, h.devsize, h.flagHour, h.humand⟩

end Frame

end IdolGateway.ZbClient
