import IdolGateway.ZbClient.Device

/-!
# What a received frame does

`recieve_usart(rx,len)` dumps the frame to the log, reads the id and the cluster
id where the frame is long enough for them, and branches on the command byte.
The clock is read once for a frame: `now` is its value, and every later call of
`time` in the same activation gives it again.
-/

namespace IdolGateway.ZbClient

open Procedure

def word (hi lo : UInt8) : UInt16 := (hi.toUInt16 <<< 8) ||| lo.toUInt16

/-- `mxj_device[i].state[k] = rx[j]` -/
def storeRx (i : ℕ) (k : Fin 3) (j : ℕ) : Handler Unit := do
  let v ← cell (.rx j)
  storeState i k v

def channelReport (i : ℕ) (c : UInt8) (k : Fin 3) : Handler Unit := do
  let channel ← cell (.rx 5)
  when (channel = c) (storeRx i k 6)

/-- A switch of type 4: channel `rx[5]` now has the value `rx[6]`. -/
def switchReport [JsonC] (id : UInt16) (i : ℕ) : Handler Unit := do
  channelReport i 1 0
  channelReport i 2 1
  channelReport i 3 2
  when (id = chufangId) (modify fun w => { w with humand := 0 })
  buildJson

/-- The socket is sent the other state, which the table takes over at once. -/
def toggleSocket (i : ℕ) : Handler Unit := do
  let s ← gets fun w => (w.mxjDevice i).state 0
  emit [ctrl powerCiwoId 1 (1 - s) 0 0]
  let s ← gets fun w => (w.mxjDevice i).state 0
  storeState i 0 (1 - s)

def ctrlUp [JsonC] (id : UInt16) : Handler Unit := do
  match ← findDev id with
  | none => pure ()
  | some i =>
    let type ← gets fun w => (w.mxjDevice i).type
    when (type = 4) (switchReport id i)
    when (id = powerCiwoId) (toggleSocket i)

def linkqualityEnable : ℕ := 1

def stateReport [JsonC] (len : UInt8) (i : ℕ) : Handler Unit := do
  when (5 + linkqualityEnable ≤ len.toNat) (storeRx i 0 8)
  when (6 ≤ len) (storeRx i 1 9)
  when (7 ≤ len) (storeRx i 2 10)
  buildJson

def sendState [JsonC] (len : UInt8) (id : UInt16) : Handler Unit := do
  match ← findDev id with
  | none => pure ()
  | some i => stateReport len i

/-- The sensor models that may join, with the type they get. -/
def modelTypes : List (List UInt8 × UInt8) :=
  [(asciiBytes "lumi.sensor_switch", 0x0b), (asciiBytes "lumi.sensor_magnet", 0x0a),
   (asciiBytes "lumi.sensor_motion", 0x03), (asciiBytes "lumi.sensor_ht", 0x09)]

/-- `strncpy` of `n` bytes from `rx[start]` on: nothing is read past a NUL, and the
rest of the block is filled up with NULs. -/
def strncpyRx (start : ℕ) : ℕ → Handler (List UInt8)
  | 0 => pure []
  | n + 1 => do
    let b ← cell (.rx start)
    if b = 0 then pure (List.replicate (n + 1) 0)
    else do
      let rest ← strncpyRx (start + 1) n
      pure (b :: rest)

def blockByte (block : List UInt8) (k : ℕ) : Handler UInt8 :=
  match block[k]? with
  | some b => pure b
  | none => cell (.behind (k - block.length))

/-- `0 == strcmp(block, literal)`, from byte `k` on. -/
def strcmpEq (block : List UInt8) (k : ℕ) : List UInt8 → Handler Bool
  | [] => do
    let b ← blockByte block k
    pure (b = 0)
  | c :: cs => do
    let b ← blockByte block k
    if b = c then strcmpEq block (k + 1) cs else pure false

/-- The new slot keeps the name, the heart beat and the states it has. -/
def appendSensor [JsonC] (id : UInt16) (type : UInt8) : Handler Unit := do
  let n ← gets fun w => w.devsize
  setDevice n.toNat fun d => { d with id := id, type := type, idx := 1, registered := 1 }
  when (n.toNat < devSize) (modify fun w => { w with devsize := w.devsize + 1 })
  buildJson

def joinAs [JsonC] (id : UInt16) (tempStr : List UInt8) :
    List (List UInt8 × UInt8) → Handler Unit
  | [] => pure ()
  | (model, type) :: rest => do
    let same ← strcmpEq tempStr 0 model
    if same then appendSensor id type else joinAs id tempStr rest

/-- A basic-cluster report may carry the model name of a sensor not in the table. -/
def sensorJoin [JsonC] (len : UInt8) (id cid : UInt16) (i : Option ℕ) : Handler Unit :=
  when (27 ≤ len) <| when (cid = 0) do
    let n ← cell (.rx 12)
    when (n.toNat + 13 ≤ len.toNat ∧ i = none) do
      let tempStr ← strncpyRx 13 n.toNat
      joinAs id tempStr modelTypes

def doubleKick (id : UInt16) : List Out :=
  (if id = xmkgZhuId then [ctrl zhuwoId 3 3 3 3] else []) ++
  (if id = xmkgCiId then
    [ctrl zhuwoId 3 0 0 0, ctrl ciwoId 3 0 0 0, ctrl chufangId 3 0 0 0, ctrl cantingId 3 0 0 0,
     ctrl ketingId 3 0 0 0, ctrl mentingId 3 0 0 0, ctrl guodaoId 3 0 0 0] else []) ++
  (if id = xmkgClZhuwoId then
    [ctrl chuanglianZhuwoId 3 0 0 1, .pause, ctrl chuanglianZhuwoId 3 0 0 0] else []) ++
  (if id = xmkgClKeting1Id then
    [.usart (curtainData 1 0 2 2), .pause, .usart (curtainData 0 0 2 2)] else []) ++
  (if id = xmkgClKeting2Id then
    [.usart (curtainData 2 2 1 0), .pause, .usart (curtainData 2 2 0 0)] else [])

/-- A leak sensor raises the alarm in the main bedroom and in its own room. -/
def leakReport (now : Tm) (place : String) (room : UInt16) (action : UInt8) : List Out :=
  if action = 0 then
    [.post ("text=" ++ place ++ "漏水" ++ now.stamp), ctrl zhuwoId 3 1 0 0, ctrl room 3 1 0 0]
  else if action = 1 then [.post ("text=" ++ place ++ "漏水解除" ++ now.stamp)]
  else []

def singleKick (now : Tm) (id : UInt16) (action : UInt8) : List Out :=
  (if id = xmkgZhuId ∧ action = 1 then [ctrl guodaoId 3 3 3 3] else []) ++
  (if id = xmkgCiId ∧ action = 1 then [ctrl ciwoId 3 3 3 3] else []) ++
  (if id = xmkgClZhuwoId ∧ action = 1 then
    [ctrl chuanglianZhuwoId 3 1 0 0, .pause, ctrl chuanglianZhuwoId 3 0 0 0] else []) ++
  (if id = xmkgClKeting1Id ∧ action = 1 then
    [.usart (curtainData 0 1 2 2), .pause, .usart (curtainData 0 0 2 2)] else []) ++
  (if id = xmkgClKeting2Id ∧ action = 1 then
    [.usart (curtainData 2 2 0 1), .pause, .usart (curtainData 2 2 0 0)] else []) ++
  -- the door sensor posts whatever was printed, an empty text for any other action
  (if id = xmmenciId then
    [.post (if action = 1 then "text=开门！" ++ now.stamp
      else if action = 0 then "text=关门！" ++ now.stamp else "")] else []) ++
  (if id = xmloushuiCiwoId then leakReport now "次卧" ciwoId action else []) ++
  (if id = xmloushuiChufangId then leakReport now "厨房" chufangId action else [])

def onOffReport (now : Tm) (len : UInt8) (id : UInt16) : Handler Unit :=
  when (len = 14) do
    let kick ← cell (.rx 11)
    if kick = 0x20 then emit (doubleKick id)
    else do
      let action ← cell (.rx 12)
      emit (singleKick now id action)

/-- The kitchen light goes on if the table says that it is off and no timer runs. -/
def motionLight : Option ℕ → Handler Unit
  | none => pure ()
  | some j => do
    let s ← gets fun w => (w.mxjDevice j).state 0
    when (s = 0) do
      let humand ← gets fun w => w.humand
      when (humand ≤ 1) do
        emit [ctrl chufangId 3 1 1 1]
        modify fun w => { w with humand := 120 }

def occupancyReport (len : UInt8) (id : UInt16) : Handler Unit :=
  when (len = 14) <| when (id = xiaomirentiId) do
    let j ← findDev chufangId
    motionLight j
    let humand ← gets fun w => w.humand
    when (1 < humand) (modify fun w => { w with humand := 120 })

def measureReport (len : UInt8) : Handler Unit :=
  when (len = 15) do
    let _ ← cell (.rx 13)
    let _ ← cell (.rx 12)
    pure ()

def xiaomi18 [JsonC] (now : Tm) (len : UInt8) (id cid : UInt16) : Handler Unit := do
  let i ← findDev id
  sensorJoin len id cid i
  if cid = 6 then onOffReport now len id
  else if cid = 0x406 then occupancyReport len id
  else if cid = 0x402 then measureReport len
  else if cid = 0x405 then measureReport len
  else pure ()

def dump (len : UInt8) : Handler Unit :=
  each (fun i => do
    let _ ← cell (.rx i)
    pure ()) (List.range len.toNat)

/-- The id, or `0` when the frame is too short for one. -/
def frameId (len : UInt8) : Handler UInt16 :=
  if 4 ≤ len then do
    let hi ← cell (.rx 2)
    let lo ← cell (.rx 3)
    pure (word hi lo)
  else pure 0

def frameCid (len : UInt8) : Handler UInt16 :=
  if 6 ≤ len then do
    let hi ← cell (.rx 4)
    let lo ← cell (.rx 5)
    pure (word hi lo)
  else pure 0

def dispatch [JsonC] (now : Tm) (len : UInt8) (id cid : UInt16) (cmd : UInt8) : Handler Unit :=
  if cmd = mxjCtrlUp then ctrlUp id
  else if cmd = mxjRegisterRequest then
    emit ((mxjSendRegisterMessage id mxjRegisterOk).map .usart)
  else if cmd = mxjSendState then sendState len id
  else if cmd = mxjGetState then emit [ctrl id 1 2 2 2]
  else if cmd = mxjXiaomi18 then xiaomi18 now len id cid
  else if cmd = mxjXiaomi1c then do
    let _ ← findDev id
    pure ()
  else pure ()

def recieveUsart [JsonC] (now : Tm) (len : UInt8) : Handler Unit := do
  modify fun w => { w with tblock := now }
  dump len
  let id ← frameId len
  let cid ← frameCid len
  let cmd ← cell (.rx 0)
  dispatch now len id cid cmd

def idOf (mem : Loc → UInt8) (len : UInt8) : UInt16 :=
  if 4 ≤ len then word (mem (.rx 2)) (mem (.rx 3)) else 0

def cidOf (mem : Loc → UInt8) (len : UInt8) : UInt16 :=
  if 6 ≤ len then word (mem (.rx 4)) (mem (.rx 5)) else 0

section Run

variable (mem : Loc → UInt8) (w : World)

@[simp] theorem run_frameId (len : UInt8) :
    (frameId len).run mem w = ⟨idOf mem len, w, []⟩ := by
  unfold frameId idOf
  by_cases h : 4 ≤ len
  · simp [h]
  · simp [h]

@[simp] theorem run_frameCid (len : UInt8) :
    (frameCid len).run mem w = ⟨cidOf mem len, w, []⟩ := by
  unfold frameCid cidOf
  by_cases h : 6 ≤ len
  · simp [h]
  · simp [h]

@[simp] theorem run_dump (len : UInt8) : (dump len).run mem w = ⟨(), w, []⟩ := by
  unfold dump
  induction List.range len.toNat with
  | nil => rfl
  | cons i is ih => simp only [each, run_bind, run_cell, run_pure, ih, List.append_nil]

theorem run_recieveUsart [JsonC] (now : Tm) (len : UInt8) :
    (recieveUsart now len).run mem w =
      (dispatch now len (idOf mem len) (cidOf mem len) (mem (.rx 0))).run mem
        { w with tblock := now } := by
  simp only [recieveUsart, run_bind, run_modify, run_dump, run_frameId, run_frameCid, run_cell,
    List.nil_append]

end Run

section Model

variable (mem : Loc → UInt8)

def copied (start : ℕ) : ℕ → List UInt8
  | 0 => []
  | n + 1 =>
    if mem (.rx start) = 0 then List.replicate (n + 1) 0
    else mem (.rx start) :: copied (start + 1) n

def byteFrom (block : List UInt8) (k : ℕ) : UInt8 :=
  (block[k]?).getD (mem (.behind (k - block.length)))

def holdsString (block : List UInt8) (k : ℕ) : List UInt8 → Bool
  | [] => byteFrom mem block k = 0
  | c :: cs => if byteFrom mem block k = c then holdsString block (k + 1) cs else false

/-- The type of the first model whose name the block holds. -/
def recognised (block : List UInt8) : List (List UInt8 × UInt8) → Option UInt8
  | [] => none
  | (model, type) :: rest => if holdsString mem block 0 model then some type else recognised block rest

variable (w : World)

@[simp] theorem run_strncpyRx (start n : ℕ) :
    (strncpyRx start n).run mem w = ⟨copied mem start n, w, []⟩ := by
  induction n generalizing start with
  | zero => rfl
  | succ n ih =>
    rw [strncpyRx, run_cell_bind, copied]
    by_cases hb : mem (.rx start) = 0
    · rw [if_pos hb, if_pos hb]
      rfl
    · rw [if_neg hb, if_neg hb, run_bind, ih]
      rfl

@[simp] theorem run_blockByte (block : List UInt8) (k : ℕ) :
    (blockByte block k).run mem w = ⟨byteFrom mem block k, w, []⟩ := by
  unfold blockByte byteFrom
  cases block[k]? with
  | none => rfl
  | some b => rfl

@[simp] theorem run_strcmpEq (block : List UInt8) (k : ℕ) (literal : List UInt8) :
    (strcmpEq block k literal).run mem w = ⟨holdsString mem block k literal, w, []⟩ := by
  induction literal generalizing k with
  | nil =>
    rw [strcmpEq, run_bind, run_blockByte, holdsString]
    rfl
  | cons c cs ih =>
    rw [strcmpEq, run_bind, run_blockByte, holdsString]
    by_cases hc : byteFrom mem block k = c
    · simp only [if_pos hc, ih, List.nil_append]
    · simp only [if_neg hc]
      rfl

theorem run_joinAs [JsonC] (id : UInt16) (block : List UInt8)
    (models : List (List UInt8 × UInt8)) :
    (joinAs id block models).run mem w =
      match recognised mem block models with
      | some type => (appendSensor id type).run mem w
      | none => ⟨(), w, []⟩ := by
  induction models with
  | nil => rfl
  | cons m rest ih =>
    obtain ⟨model, type⟩ := m
    rw [joinAs, run_bind, run_strcmpEq, recognised]
    by_cases hm : holdsString mem block 0 model = true
    · simp only [if_pos hm, List.nil_append]
    · simp only [if_neg hm, ih, List.nil_append]

end Model

end IdolGateway.ZbClient
