import IdolGateway.Library.Transducer
import IdolGateway.ZbClient.Dispatch

/-!
# The main thread and the whole gateway

`main` fills the table with its nineteen fixed devices, asks every device for its
state, builds the first JSON text and then runs one round of its loop a second.
The `gateway` takes received frames and rounds of the loop in any order, each as one
step.
-/

namespace IdolGateway.ZbClient

open Procedure

structure FixedDevice where
  id : UInt16
  type : UInt8
  idx : UInt8
  name : String

def fixedDevices : List FixedDevice :=
  [⟨ketingId, 4, 1, "客厅灯开关"⟩, ⟨cantingId, 4, 1, "餐厅灯开关"⟩,
   ⟨chufangId, 4, 1, "厨房灯开关"⟩, ⟨mentingId, 4, 1, "门厅灯开关"⟩,
   ⟨guodaoId, 4, 3, "过道灯开关"⟩, ⟨zhuwoId, 4, 1, "主卧灯开关"⟩,
   ⟨ciwoId, 4, 1, "次卧灯开关"⟩, ⟨xmkgZhuId, 14, 1, "主卧小米按钮"⟩,
   ⟨xmkgCiId, 14, 1, "次卧小米按钮"⟩, ⟨xmmenciId, 10, 1, "入户小米门磁"⟩,
   ⟨xiaomirentiId, 3, 1, "厨房小米人体感应"⟩, ⟨xmkgWaiId, 14, 1, "客厅小米按钮"⟩,
   ⟨xmloushuiCiwoId, 10, 1, "次卧漏水检测"⟩, ⟨xmloushuiChufangId, 10, 1, "厨房漏水检测"⟩,
   ⟨powerCiwoId, 6, 1, "次卧插座"⟩, ⟨chuanglianZhuwoId, 4, 3, "主卧窗帘"⟩,
   ⟨chuanglianKeting1Id, 4, 2, "客厅窗帘"⟩, ⟨xmkgClKeting1Id, 4, 2, "客厅窗帘开关1"⟩,
   ⟨xmkgClKeting2Id, 4, 2, "客厅窗帘开关2"⟩]

/-- One of the nineteen append blocks of `main`. -/
def appendFixed (f : FixedDevice) : Handler Unit := do
  let n ← gets fun w => w.devsize
  setDevice n.toNat fun d =>
    { d with id := f.id, type := f.type, idx := f.idx, heart := 0, name := some f.name,
             registered := 1 }
  when (n.toNat < devSize) (modify fun w => { w with devsize := w.devsize + 1 })

def mainSetup [JsonC] (now : Tm) : Handler Unit := do
  modify fun w => { w with tblock := now }
  emit [.post ("text=系统启动" ++ now.stamp)]
  each appendFixed fixedDevices
  emit [.usart (mxjGetStateMessage 0xffff)]
  buildJson

/-- The globals before `main` runs; `json_str` is freshly allocated. -/
def World.zero : World := ⟨fun _ => .zero, 0, 0, "", ⟨0, 0, 0, 0, 0, 0⟩, 0⟩

/-- The globals when the loop starts. -/
def World.started [JsonC] (now : Tm) : World := ((mainSetup now).run (fun _ => 0) .zero).state

def march : Tm := ⟨117, 2, 1, 8, 30, 0⟩

/-- `printf` writes `(null)` for a device that joined without a name. -/
def offlineText (d : MxjDevice) (tblock : Tm) : String :=
  "text=设备:" ++ d.name.getD "(null)" ++ " ID:" ++ toString d.id.toNat ++ " 离线！" ++ tblock.stamp

/-- The time in the alarm is that of the last call of `localtime`, wherever it was. -/
def checkOffline (i : ℕ) : Handler Unit := do
  let d ← gets fun w => w.mxjDevice i
  if d.heart = 0 ∧ (d.id = xmloushuiChufangId ∨ d.id = xmloushuiCiwoId) then do
    let tblock ← gets fun w => w.tblock
    emit [.post (offlineText d tblock)]
  else setDevice i fun d => { d with heart := 0 }

def offlineChecks : Handler Unit := do
  modify fun w => { w with flagHour := 0 }
  let n ← gets fun w => w.devsize
  each checkOffline (List.range n.toNat)

/-- One round of `while(1)`; the clock is read by `send_usart`. -/
def tick (now : Tm) : Handler Unit := do
  modify fun w => { w with flagHour := w.flagHour + 1 }
  let flagHour ← gets fun w => w.flagHour
  when (7500 ≤ flagHour) offlineChecks
  let humand ← gets fun w => w.humand
  when (humand = 1) do
    modify fun w => { w with tblock := now }
    emit [ctrl chufangId 3 0 0 0]
  when (0 < humand) (modify fun w => { w with humand := w.humand - 1 })

def memory (rx behind : ℕ → UInt8) : Loc → UInt8
  | .rx i => rx i
  | .behind i => behind i

inductive Input
  | frame (now : Tm) (behind : ℕ → UInt8) (rx : ℕ → UInt8) (len : UInt8)
  | tick (now : Tm)

def Input.run [JsonC] (w : World) : Input → Outcome World Out Unit
  | .frame now behind rx len => (recieveUsart now len).run (memory rx behind) w
  | .tick now => (ZbClient.tick now).run (fun _ => 0) w

def gateway [JsonC] : Transducer World Input Out where
  step w x := ((x.run w).state, (x.run w).out)

end IdolGateway.ZbClient
