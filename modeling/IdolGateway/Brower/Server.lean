import IdolGateway.Brower.Device
import IdolGateway.ZbClient.MainLoop
import IdolGateway.ZbClient.Http

/-!
# Received frames and posted bodies

`recieve_usart` registers devices, stores their states and lets a switch control the lights
it is configured for; `iterate_post` configures devices and sets states.  The `server` takes
frames and bodies in any order, each as one step.
-/

namespace IdolGateway.Brower

open Procedure
open ZbClient (Json JsonC UsartCall word memory recognised copied modelTypes mxjCtrlUp
  mxjRegisterRequest mxjRegisterOk mxjSendState mxjXiaomi18)

section

variable [JsonC]

/-- The value that toggles channel `k` of the light `j`, if the switch `i` is configured for
it. -/
def toggled (i : ℕ) (j : Option ℕ) (k : Fin 3) : Handler UInt8 := do
  let l ← lightAt i k
  if l = 1 then do
    let s ← stateAt j k
    pure (if s = 1 then 0 else 1)
  else pure 2

/-- The value of the frame, if the sensor `i` is configured for channel `k`. -/
def passedOn (i : ℕ) (v : UInt8) (k : Fin 3) : Handler UInt8 := do
  let l ← lightAt i k
  pure (if l = 1 then v else 2)

def sendTo (i : ℕ) (msg : Fin 3 → Handler UInt8) : Handler Unit := do
  let m1 ← msg 0
  let m2 ← msg 1
  let m3 ← msg 2
  let d ← device i
  emit [.usart (mxjSendCtrlMessage d.devid m1 m2 m3)]

def ctrlUp (rx : ℕ → UInt8) (id : UInt16) : Handler Unit := do
  match ← findDev id.toNat with
  | none => pure ()
  | some i =>
    let d ← device i
    if d.type = 7 then do
      let j ← findDev d.devid.toNat
      sendTo i (toggled i j)
    else if d.type = 3 then do
      let _ ← findDev d.devid.toNat
      sendTo i (passedOn i (rx 6))
    else pure ()

/-- A full table is stored to behind its end, and does not grow. -/
def appendDevice (id : UInt16) (type idx : UInt8) : Handler Unit := do
  let n ← gets fun w => w.devsize
  setDevice n.toNat fun d => { d with id := id, type := type, idx := idx, registered := 1 }
  when (n.toNat < devSize) (modify fun w => { w with devsize := w.devsize + 1 })
  buildJson

def registerRequest (rx : ℕ → UInt8) (id : UInt16) : Handler Unit := do
  let i ← findDev id.toNat
  when (i = none) (appendDevice id (rx 4) (rx 5))
  emit ((mxjSendRegisterMessage id mxjRegisterOk).map .usart)

def sendState (rx : ℕ → UInt8) (id : UInt16) : Handler Unit := do
  match ← findDev id.toNat with
  | none => pure ()
  | some i =>
    setState i 0 (rx 4)
    setState i 1 (rx 5)
    setState i 2 (rx 6)
    buildJson

/-- A basic-cluster report may carry the model name of a sensor not in the table; reports of
known sensors go to the log only. -/
def xiaomi18 (rx behind : ℕ → UInt8) (len : UInt8) (id cid : UInt16) : Handler Unit := do
  let i ← findDev id.toNat
  when (27 ≤ len ∧ cid = 0 ∧ (rx 12).toNat + 13 ≤ len.toNat ∧ i = none) do
    match recognised (memory rx behind) (copied (memory rx behind) 13 (rx 12).toNat)
        modelTypes with
    | some type => appendDevice id type 1
    | none => pure ()

/-- The id in a frame, or `0` when the frame is too short for one. -/
def frameId (rx : ℕ → UInt8) (len : UInt8) : UInt16 := if 4 ≤ len then word (rx 2) (rx 3) else 0

def frameCid (rx : ℕ → UInt8) (len : UInt8) : UInt16 := if 6 ≤ len then word (rx 4) (rx 5) else 0

def recieveUsart (rx behind : ℕ → UInt8) (len : UInt8) : Handler Unit :=
  let id := frameId rx len
  if rx 0 = mxjCtrlUp then ctrlUp rx id
  else if rx 0 = mxjRegisterRequest then registerRequest rx id
  else if rx 0 = mxjSendState then sendState rx id
  else if rx 0 = mxjXiaomi18 then xiaomi18 rx behind len id (frameCid rx len)
  else pure ()

section Run

variable (mem : Stray → UInt8) (w : World)

def World.append (w : World) (id : UInt16) (type idx : UInt8) : World :=
  if w.devsize.toNat < devSize then
    { w.set w.devsize.toNat fun d =>
        { d with id := id, type := type, idx := idx, registered := 1 } with
      devsize := w.devsize + 1 }
  else w

@[simp] theorem run_appendDevice (id : UInt16) (type idx : UInt8) :
    (appendDevice id type idx).run mem w =
      ⟨(), (w.append id type idx).publish, .device w.devsize.toNat ::
        (List.range (w.append id type idx).devsize.toNat).flatMap rowReads⟩ := by
  unfold appendDevice World.append
  rw [run_gets_bind, run_bind, run_setDevice]
  dsimp only
  rw [run_bind, run_when]
  by_cases hn : w.devsize.toNat < devSize
  · simp [World.set, hn]
  · simp [World.set, hn]

end Run

end

/-- json-c as a reader: the parser, what `json_object_get_int` makes of a text or a number
with a fraction, and what the array functions find in a value that is no array. -/
class Tokener extends JsonC where
  jsonTokenerParse : List UInt8 → Json
  coerced : Json → ℤ
  strayItems : Json → List Json

def isNull : Json → Bool
  | .null => true
  | _ => false

theorem isNull_member {x : Json} (hx : isNull x) (key : String) : isNull (x.member key) := by
  cases x with
  | null => rfl
  | _ => exact absurd hx Bool.false_ne_true

section

variable [Tokener]

/-- Integers are kept within 32 bits. -/
def jsonObjectGetInt : Json → ℤ
  | .null => 0
  | .int n => max (-2147483648) (min n 2147483647)
  | x => Tokener.coerced x

/-- `json_object_array_get_idx` for every index below `json_object_array_length`. -/
def items : Json → List Json
  | .array xs => xs
  | x => Tokener.strayItems x

def sendChannel (i k : ℕ) (v : UInt8) : Handler Unit := do
  if k = 0 then do
    let d ← device i
    emit [.usart (mxjSendCtrlMessage d.id v 2 2)]
  else if k = 1 then do
    let d ← device i
    emit [.usart (mxjSendCtrlMessage d.id 2 v 2)]
  else if k = 2 then do
    let d ← device i
    emit [.usart (mxjSendCtrlMessage d.id 2 2 v)]
  else pure ()

/-- The state is compared with the integer, and takes its lowest byte. -/
def postState (i k : ℕ) (tempint : ℤ) : Handler Unit := do
  let s ← stateAt (some i) k
  when ((s.toNat : ℤ) ≠ tempint) do
    setState i k (UInt8.ofInt tempint)
    sendChannel i k (UInt8.ofInt tempint)

def postStatus (i : ℕ) (status : Json) : Handler Unit :=
  each (fun x => postState i x.2 (jsonObjectGetInt x.1)) (items status).zipIdx

def postLights (i : ℕ) (lights : Json) : Handler Unit :=
  when (¬ isNull lights) do
    setLight i 0 0
    setLight i 1 0
    setLight i 2 0
    each (fun x => setLight i (jsonObjectGetInt x) 1) (items lights)

def setDevid (devid : UInt16) (d : MxjDevice) : MxjDevice := { d with devid := devid }

def postControl (i : ℕ) (control : Json) : Handler Unit :=
  when (¬ isNull control) do
    setDevice i (setDevid (UInt16.ofInt (jsonObjectGetInt (control.member "devid"))))
    postLights i (control.member "lights")

/-- One element of `devices`; the posted type goes to the log only. -/
def postDevice (obj : Json) : Handler Unit := do
  match ← findDev (jsonObjectGetInt (obj.member "id")) with
  | none => pure ()
  | some findedid =>
    postControl findedid (obj.member "control")
    postStatus findedid (obj.member "status")

/-- A call of `iterate_post`: the key, the bytes at `data` up to the NUL, and `size`. -/
structure Post where
  key : String
  data : List UInt8
  size : ℕ

inductive MhdResult
  | no | yes
  deriving DecidableEq

def maxNameSize : ℕ := 3000

def postDevices (size : ℕ) (myObject : Json) : Handler MhdResult := do
  each postDevice (items myObject)
  when (size ≤ maxNameSize) buildJson
  pure .no

def iteratePost (p : Post) : Handler MhdResult :=
  if 0 < p.size then
    let myObject2 := Tokener.jsonTokenerParse p.data
    if isNull myObject2 then pure .no
    else
      let myObject := myObject2.member "devices"
      if isNull myObject then pure .no else postDevices p.size myObject
  else if p.key = "open" then do
    emit [.usart (mxjSendConfigMessage 0x171f 0 0 ⟨0xa9ed, 1, 2, 2, 1⟩)]
    pure .no
  else if p.key = "close" then do
    emit [.usart (mxjGetConfigMessage 0x171f)]
    pure .no
  else pure .yes

def Post.devices (p : Post) : List Json :=
  let myObject := (Tokener.jsonTokenerParse p.data).member "devices"
  if 0 < p.size ∧ ¬ isNull myObject then items myObject else []

theorem iteratePost_body {p : Post} (h : 0 < p.size ∧
    ¬ isNull ((Tokener.jsonTokenerParse p.data).member "devices")) :
    iteratePost p =
      postDevices p.size ((Tokener.jsonTokenerParse p.data).member "devices") := by
  unfold iteratePost
  dsimp only
  rw [if_pos h.1, if_neg (fun hdoc => h.2 (isNull_member hdoc _)), if_neg h.2]

/-- A call walks over the devices of the body, or sends at most a frame that controls none. -/
theorem iteratePost_cases (p : Post) :
    (∃ myObject, p.devices = items myObject ∧ iteratePost p = postDevices p.size myObject) ∨
    (p.devices = [] ∧ ∃ cs : List UsartCall, ∃ ret, (∀ c ∈ cs, c.data.head? ≠ some 0) ∧
      iteratePost p = do
        emit (cs.map .usart)
        pure ret) := by
  by_cases hbody : 0 < p.size ∧
      ¬ isNull ((Tokener.jsonTokenerParse p.data).member "devices")
  · exact Or.inl ⟨_, if_pos hbody, iteratePost_body hbody⟩
  · right
    refine ⟨if_neg hbody, ?_⟩
    unfold iteratePost
    dsimp only
    split_ifs with hsize hdoc hdevices
    · exact ⟨[], .no, by simp, rfl⟩
    · exact ⟨[], .no, by simp, rfl⟩
    · exact absurd ⟨hsize, hdevices⟩ hbody
    · refine ⟨[_], .no, ?_, rfl⟩
      intro c hc
      rw [List.mem_singleton.mp hc]
      decide
    · refine ⟨[_], .no, ?_, rfl⟩
      intro c hc
      rw [List.mem_singleton.mp hc]
      decide
    · exact ⟨[], .yes, by simp, rfl⟩

inductive Event
  | frame (rx behind : ℕ → UInt8) (len : UInt8)
  | post (p : Post)

/-- An event, and the bytes that stand where the table has no state. -/
structure Input where
  event : Event
  outside : Stray → UInt8

def Event.handler : Event → Handler Unit
  | .frame rx behind len => recieveUsart rx behind len
  | .post p => do
    let _ ← iteratePost p
    pure ()

def Input.run (w : World) (x : Input) : Outcome World Out Unit := x.event.handler.run x.outside w

def server : Transducer World Input Out where
  step w x := ((x.run w).state, (x.run w).out)

/-- The globals before `main` runs; `json_str` is freshly allocated. -/
def World.zero : World := ⟨fun _ => .zero, 0, ""⟩

/-- The globals when the setup of `main` is through, and no device has registered. -/
def World.started : World := (buildJson.run (fun _ => 0) .zero).state

end

def textBytes (s : String) : List UInt8 := s.toUTF8.data.toList

@[reducible] def tabled (text : String) (doc : Json) : Tokener where
  jsonObjectToJsonString := Json.spaced
  jsonTokenerParse data := if data = textBytes text then doc else .null
  coerced _ := 0
  strayItems _ := []

def Post.ofText (text : String) : Post := ⟨"", textBytes text, text.utf8ByteSize⟩

def posted (text : String) : Input := ⟨.post (.ofText text), fun _ => 0⟩

def received (payload : List UInt8) : Input :=
  ⟨.frame (fun i => payload.getD i 0) (fun _ => 0) (UInt8.ofNat payload.length), fun _ => 0⟩

end IdolGateway.Brower
