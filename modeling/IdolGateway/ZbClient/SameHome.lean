import IdolGateway.ZbClient.Dispatch

namespace IdolGateway.ZbClient

open Procedure

structure World.SameHome (w w' : World) : Prop where
  mxjDevice : w.mxjDevice = w'.mxjDevice
  devsize : w.devsize = w'.devsize
  humand : w.humand = w'.humand

theorem World.SameHome.symm {w w' : World} (h : w.SameHome w') : w'.SameHome w :=
  ⟨h.mxjDevice.symm, h.devsize.symm, h.humand.symm⟩

theorem World.SameHome.trans {w w' w'' : World} (h : w.SameHome w') (h' : w'.SameHome w'') :
    w.SameHome w'' :=
  ⟨h.mxjDevice.trans h'.mxjDevice, h.devsize.trans h'.devsize, h.humand.trans h'.humand⟩

theorem World.SameHome.lookup {w w' : World} (h : w.SameHome w') (id : UInt16) :
    w.lookup id = w'.lookup id := by
  unfold World.lookup
  rw [h.mxjDevice, h.devsize]

/-- The two handlers cannot be told apart by the home and the line. -/
def SameEffect (mem : Loc → UInt8) {α : Type} (p p' : Handler α) : Prop :=
  Lockstep World.SameHome Out.usart? mem p p'

section

variable {mem : Loc → UInt8}

theorem same_setDevice (i : ℕ) (f : MxjDevice → MxjDevice) :
    SameEffect mem (setDevice i f) (setDevice i f) :=
  Lockstep.bind (Lockstep.modify fun _ _ h => ⟨by simp only [h.mxjDevice], h.devsize, h.humand⟩)
    fun _ => Lockstep.emit rfl

theorem same_findDev (id : UInt16) : SameEffect mem (findDev id) (findDev id) := by
  apply Lockstep.bind (Lockstep.gets fun _ _ h => h.lookup id)
  intro i
  cases i with
  | none => exact Lockstep.pure _
  | some i => exact Lockstep.bind (same_setDevice i _) fun _ => Lockstep.pure _

theorem same_buildJson [JsonC] : SameEffect mem buildJson buildJson :=
  Lockstep.modify fun _ _ h => ⟨h.mxjDevice, h.devsize, h.humand⟩

theorem same_setHumand (n : ℤ) :
    SameEffect mem (modify fun w => { w with humand := n })
      (modify fun w => { w with humand := n }) :=
  Lockstep.modify fun _ _ h => ⟨h.mxjDevice, h.devsize, rfl⟩

theorem same_storeRx (i : ℕ) (k : Fin 3) (j : ℕ) :
    SameEffect mem (storeRx i k j) (storeRx i k j) :=
  Lockstep.bind (Lockstep.cell _) fun _ => same_setDevice i _

theorem same_channelReport (i : ℕ) (c : UInt8) (k : Fin 3) :
    SameEffect mem (channelReport i c k) (channelReport i c k) :=
  Lockstep.bind (Lockstep.cell _) fun _ => Lockstep.when (same_storeRx i k 6)

theorem same_switchReport [JsonC] (id : UInt16) (i : ℕ) :
    SameEffect mem (switchReport id i) (switchReport id i) := by
  apply Lockstep.bind (same_channelReport i 1 0)
  intro _
  apply Lockstep.bind (same_channelReport i 2 1)
  intro _
  apply Lockstep.bind (same_channelReport i 3 2)
  intro _
  exact Lockstep.bind (Lockstep.when (same_setHumand 0)) fun _ => same_buildJson

theorem same_toggleSocket (i : ℕ) : SameEffect mem (toggleSocket i) (toggleSocket i) := by
  have hstate : SameEffect mem (gets fun w => (w.mxjDevice i).state 0)
      (gets fun w => (w.mxjDevice i).state 0) :=
    Lockstep.gets fun _ _ h => by rw [h.mxjDevice]
  apply Lockstep.bind hstate
  intro s
  apply Lockstep.bind (Lockstep.emit rfl)
  intro _
  exact Lockstep.bind hstate fun s => same_setDevice i _

theorem same_ctrlUp [JsonC] (id : UInt16) : SameEffect mem (ctrlUp id) (ctrlUp id) := by
  apply Lockstep.bind (same_findDev id)
  intro i
  cases i with
  | none => exact Lockstep.pure _
  | some i =>
    apply Lockstep.bind (Lockstep.gets fun _ _ h => by rw [h.mxjDevice])
    intro type
    apply Lockstep.bind (Lockstep.when (same_switchReport id i))
    intro _
    exact Lockstep.when (same_toggleSocket i)

theorem same_stateReport [JsonC] (len : UInt8) (i : ℕ) :
    SameEffect mem (stateReport len i) (stateReport len i) := by
  apply Lockstep.bind (Lockstep.when (same_storeRx i 0 8))
  intro _
  apply Lockstep.bind (Lockstep.when (same_storeRx i 1 9))
  intro _
  exact Lockstep.bind (Lockstep.when (same_storeRx i 2 10)) fun _ => same_buildJson

theorem same_sendState [JsonC] (len : UInt8) (id : UInt16) :
    SameEffect mem (sendState len id) (sendState len id) := by
  apply Lockstep.bind (same_findDev id)
  intro i
  cases i with
  | none => exact Lockstep.pure _
  | some i => exact same_stateReport len i

theorem same_strncpyRx (start n : ℕ) :
    SameEffect mem (strncpyRx start n) (strncpyRx start n) := by
  induction n generalizing start with
  | zero => exact Lockstep.pure _
  | succ n ih =>
    apply Lockstep.bind (Lockstep.cell _)
    intro b
    by_cases hb : b = 0
    · simp only [if_pos hb]
      exact Lockstep.pure _
    · simp only [if_neg hb]
      exact Lockstep.bind (ih (start + 1)) fun rest => Lockstep.pure _

theorem same_blockByte (block : List UInt8) (k : ℕ) :
    SameEffect mem (blockByte block k) (blockByte block k) := by
  unfold blockByte
  cases block[k]? with
  | none => exact Lockstep.cell _
  | some b => exact Lockstep.pure _

theorem same_strcmpEq (block : List UInt8) (k : ℕ) (literal : List UInt8) :
    SameEffect mem (strcmpEq block k literal) (strcmpEq block k literal) := by
  induction literal generalizing k with
  | nil => exact Lockstep.bind (same_blockByte block k) fun b => Lockstep.pure _
  | cons c cs ih =>
    apply Lockstep.bind (same_blockByte block k)
    intro b
    by_cases hc : b = c
    · simp only [if_pos hc]
      exact ih (k + 1)
    · simp only [if_neg hc]
      exact Lockstep.pure _

theorem same_appendSensor [JsonC] (id : UInt16) (type : UInt8) :
    SameEffect mem (appendSensor id type) (appendSensor id type) := by
  apply Lockstep.bind (Lockstep.gets fun _ _ h => h.devsize)
  intro n
  apply Lockstep.bind (same_setDevice n.toNat _)
  intro _
  refine Lockstep.bind (Lockstep.when (Lockstep.modify fun _ _ h => ?_)) fun _ => same_buildJson
  exact ⟨h.mxjDevice, by simp only [h.devsize], h.humand⟩

theorem same_joinAs [JsonC] (id : UInt16) (tempStr : List UInt8)
    (models : List (List UInt8 × UInt8)) :
    SameEffect mem (joinAs id tempStr models) (joinAs id tempStr models) := by
  induction models with
  | nil => exact Lockstep.pure _
  | cons m rest ih =>
    apply Lockstep.bind (same_strcmpEq tempStr 0 m.1)
    intro same
    cases same with
    | true => exact same_appendSensor id m.2
    | false => exact ih

theorem same_sensorJoin [JsonC] (len : UInt8) (id cid : UInt16) (i : Option ℕ) :
    SameEffect mem (sensorJoin len id cid i) (sensorJoin len id cid i) := by
  refine Lockstep.when (Lockstep.when (Lockstep.bind (Lockstep.cell _) fun n => ?_))
  refine Lockstep.when (Lockstep.bind (same_strncpyRx 13 n.toNat) fun tempStr => ?_)
  exact same_joinAs id tempStr modelTypes

theorem usart_leakReport (now now' : Tm) (place : String) (room : UInt16) (action : UInt8) :
    (leakReport now place room action).filterMap Out.usart? =
      (leakReport now' place room action).filterMap Out.usart? := by
  unfold leakReport
  -- the frames that leave are constants; only the time in the post differs
  by_cases h0 : action = 0
  · simp [h0, List.filterMap_cons, Out.usart?]
  · by_cases h1 : action = 1
    · simp [h1, List.filterMap_cons, Out.usart?]
    · simp [h0, h1]

theorem usart_singleKick (now now' : Tm) (id : UInt16) (action : UInt8) :
    (singleKick now id action).filterMap Out.usart? =
      (singleKick now' id action).filterMap Out.usart? := by
  have hleak : ∀ (c : Prop) [Decidable c] (place : String) (room : UInt16),
      (if c then leakReport now place room action else []).filterMap Out.usart? =
        (if c then leakReport now' place room action else []).filterMap Out.usart? := by
    intro c _ place room
    by_cases hc : c
    · simpa only [if_pos hc] using usart_leakReport now now' place room action
    · simp only [if_neg hc]
  have hdoor : ∀ (c : Prop) [Decidable c] (text text' : String),
      (if c then [Out.post text] else []).filterMap Out.usart? =
        (if c then [Out.post text'] else []).filterMap Out.usart? := by
    intro c _ text text'
    by_cases hc : c
    · simp only [if_pos hc]
      rfl
    · simp only [if_neg hc]
  unfold singleKick
  simp only [List.filterMap_append]
  rw [hleak (id = xmloushuiCiwoId), hleak (id = xmloushuiChufangId), hdoor (id = xmmenciId)]

theorem same_onOffReport (now now' : Tm) (len : UInt8) (id : UInt16) :
    SameEffect mem (onOffReport now len id) (onOffReport now' len id) := by
  refine Lockstep.when (Lockstep.bind (Lockstep.cell _) fun kick => ?_)
  by_cases hkick : kick = 0x20
  · simp only [if_pos hkick]
    exact Lockstep.emit rfl
  · simp only [if_neg hkick]
    exact Lockstep.bind (Lockstep.cell _) fun action =>
      Lockstep.emit (usart_singleKick now now' id action)

theorem same_motionLight (j : Option ℕ) : SameEffect mem (motionLight j) (motionLight j) := by
  cases j with
  | none => exact Lockstep.pure _
  | some j =>
    apply Lockstep.bind (Lockstep.gets fun _ _ h => by rw [h.mxjDevice])
    intro s
    refine Lockstep.when (Lockstep.bind (Lockstep.gets fun _ _ h => h.humand) fun humand => ?_)
    exact Lockstep.when (Lockstep.bind (Lockstep.emit rfl) fun _ => same_setHumand 120)

theorem same_occupancyReport (len : UInt8) (id : UInt16) :
    SameEffect mem (occupancyReport len id) (occupancyReport len id) := by
  refine Lockstep.when (Lockstep.when (Lockstep.bind (same_findDev chufangId) fun j => ?_))
  apply Lockstep.bind (same_motionLight j)
  intro _
  exact Lockstep.bind (Lockstep.gets fun _ _ h => h.humand) fun humand =>
    Lockstep.when (same_setHumand 120)

theorem same_measureReport (len : UInt8) :
    SameEffect mem (measureReport len) (measureReport len) :=
  Lockstep.when (Lockstep.bind (Lockstep.cell _) fun _ =>
    Lockstep.bind (Lockstep.cell _) fun _ => Lockstep.pure _)

theorem same_xiaomi18 [JsonC] (now now' : Tm) (len : UInt8) (id cid : UInt16) :
    SameEffect mem (xiaomi18 now len id cid) (xiaomi18 now' len id cid) := by
  apply Lockstep.bind (same_findDev id)
  intro i
  apply Lockstep.bind (same_sensorJoin len id cid i)
  intro _
  split_ifs
  · exact same_onOffReport now now' len id
  · exact same_occupancyReport len id
  · exact same_measureReport len
  · exact same_measureReport len
  · exact Lockstep.pure _

theorem same_dispatch [JsonC] (now now' : Tm) (len : UInt8) (id cid : UInt16) (cmd : UInt8) :
    SameEffect mem (dispatch now len id cid cmd) (dispatch now' len id cid cmd) := by
  unfold dispatch
  split_ifs
  · exact same_ctrlUp id
  · exact Lockstep.emit rfl
  · exact same_sendState len id
  · exact Lockstep.emit rfl
  · exact same_xiaomi18 now now' len id cid
  · exact Lockstep.bind (same_findDev id) fun _ => Lockstep.pure _
  · exact Lockstep.pure _

/-- The effect of a frame depends on the home and on the memory read. -/
theorem same_recieveUsart [JsonC] (now now' : Tm) (len : UInt8) :
    SameEffect mem (recieveUsart now len) (recieveUsart now' len) := by
  intro w w' h
  rw [run_recieveUsart, run_recieveUsart]
  exact same_dispatch now now' len _ _ _ _ _ ⟨h.mxjDevice, h.devsize, h.humand⟩

end

end IdolGateway.ZbClient
