import IdolGateway.Microhttpd.Sessions

/-!
# The rule server

`httpserver.c` is the server that the gateways post their reports to.  `iterate_post` collects
the fields of a form in the slot `re_post[idx]`; the page of a POST answers what stands there
with a command for the gateway, and goes on to the next slot.  A report may register its device.
-/

namespace IdolGateway.HttpServer

open Microhttpd (Call Iterator Method MhdResult Obeys Request Site cstr keyText)

structure MxjDevice where
  id : UInt16
  type : UInt8
  idx : UInt8
  deriving DecidableEq

/-- `type` is the string in the array of twenty bytes; what a longer one overwrites is not
modelled. -/
structure PostStruct where
  id : UInt16
  type : List UInt8
  devType : UInt8
  idxs : UInt8
  idx : UInt8
  action : UInt8
  value : UInt16
  deriving DecidableEq

def devSize : ℕ := 200

def typeSize : ℕ := 20

def str22Size : ℕ := 200

structure World where
  idx : UInt8
  oldIdx : ℕ
  rePost : ℕ → PostStruct
  mxjDevice : ℕ → MxjDevice
  devsize : UInt16
  temp : UInt8

/-- The device the humidity rule commands; nothing is ever assigned to it. -/
def tempid : UInt16 := 0

def World.initial : World :=
  ⟨0, 0, fun _ => ⟨0, [], 0, 0, 0, 100, 0⟩, fun _ => ⟨0, 0, 0⟩, 0, 1⟩

/-- The indices used on `re_post` and `mxj_device`, and the bytes stored to a `type` and to
`str22`. -/
inductive Out
  | rePost (i : ℤ)
  | type (n : ℕ)
  | device (i : ℕ)
  | str22 (n : ℕ)
  deriving DecidableEq

def Out.InArray : Out → Prop
  | .rePost i => 0 ≤ i ∧ i < 256
  | .type n => n ≤ typeSize
  | .device i => i < devSize
  | .str22 n => n ≤ str22Size

def IsSpace (c : UInt8) : Prop := c = 0x20 ∨ (0x09 ≤ c ∧ c ≤ 0x0d)

instance (c : UInt8) : Decidable (IsSpace c) := inferInstanceAs (Decidable (_ ∨ _))

def IsDigit (c : UInt8) : Prop := 0x30 ≤ c ∧ c ≤ 0x39

instance (c : UInt8) : Decidable (IsDigit c) := inferInstanceAs (Decidable (_ ∧ _))

def digits (text : List UInt8) : ℕ :=
  (text.takeWhile fun c => IsDigit c).foldl (fun n c => 10 * n + (c.toNat - 0x30)) 0

/-- `atoi`, which is `strtol` in 32 bits. -/
def atoi (text : List UInt8) : ℤ :=
  match text.dropWhile fun c => IsSpace c with
  | [] => 0
  | c :: rest =>
    if c = 0x2d then max (-2147483648) (-(digits rest))
    else if c = 0x2b then min 2147483647 (digits rest)
    else min 2147483647 (digits (c :: rest))

def World.setPost (w : World) (i : ℤ) (f : PostStruct → PostStruct) : World :=
  { w with rePost := fun j => if (j : ℤ) = i then f (w.rePost j) else w.rePost j }

/-- What a slot that has been left is reset to; its type stays. -/
def PostStruct.reset (p : PostStruct) : PostStruct :=
  { p with action := 100, devType := 0, idxs := 0, idx := 0, id := 0, value := 0 }

/-- The assignment for a key; the assigned numbers are cut to their fields. -/
def PostStruct.store (key : String) (data : List UInt8) (p : PostStruct) : PostStruct :=
  if key = "type" then { p with type := data }
  else if key = "dev_id" then { p with id := UInt16.ofInt (atoi data) }
  else if key = "dev_type" then { p with devType := UInt8.ofInt (atoi data) }
  else if key = "idxs" then { p with idxs := UInt8.ofInt (atoi data) }
  else if key = "idx" then { p with idx := UInt8.ofInt (atoi data) }
  else if key = "action" then { p with action := UInt8.ofInt (atoi data) }
  else if key = "value" then { p with value := UInt16.ofInt (atoi data) }
  else p

def fieldKeys : List String := ["type", "dev_id", "dev_type", "idxs", "idx", "action", "value"]

/-- The first call after `idx` has moved resets the slot that was left. -/
def World.leave (w : World) : World :=
  if w.oldIdx ≠ w.idx.toNat then
    { w.setPost ((w.idx.toNat : ℤ) - 1) PostStruct.reset with oldIdx := w.idx.toNat }
  else w

def World.storeField (w : World) (call : Call) : World :=
  w.leave.setPost w.idx.toNat (PostStruct.store (keyText call.key) (cstr call.data))

def World.storeUses (w : World) (call : Call) : List Out :=
  (if w.oldIdx ≠ w.idx.toNat then [.rePost ((w.idx.toNat : ℤ) - 1)] else []) ++
  (if keyText call.key ∈ fieldKeys then [.rePost w.idx.toNat] else []) ++
  (if keyText call.key = "type" then [.type ((cstr call.data).length + 1)] else [])

def iteratePost : Iterator (World × Unit) Out := fun s call =>
  if call.data = [] then (.no, s, [])
  else (.yes, (s.1.storeField call, ()), s.1.storeUses call)

inductive Command
  | controlDown (devid : UInt16) (state1 state2 state3 : UInt8)
  | registerOk (devid : UInt16)
  | registerFailed (devid : UInt16)
  deriving DecidableEq

def Command.text : Command → String
  | .controlDown devid state1 state2 state3 =>
    "\x7b\"devid\":\"" ++ toString devid.toNat ++ "\",\"state1\":\"" ++ toString state1.toNat ++
    "\",\"state2\":\"" ++ toString state2.toNat ++ "\",\"state3\":\"" ++ toString state3.toNat ++
    "\",\"type\":\"control_down\"\x7d"
  | .registerOk devid =>
    "\x7b\"devid\":\"" ++ toString devid.toNat ++ "\",\"type\":\"register_ok\"\x7d"
  | .registerFailed devid =>
    "\x7b\"devid\":\"" ++ toString devid.toNat ++ "\",\"type\":\"register_failed\"\x7d"

section Text

variable (devid : UInt16) (state1 state2 state3 : UInt8)

theorem text_controlDown : (Command.controlDown devid state1 state2 state3).text =
    "\x7b\"devid\":\"" ++ toString devid.toNat ++ "\",\"state1\":\"" ++ toString state1.toNat ++
    "\",\"state2\":\"" ++ toString state2.toNat ++ "\",\"state3\":\"" ++ toString state3.toNat ++
    "\",\"type\":\"control_down\"\x7d" := rfl

theorem text_registerOk : (Command.registerOk devid).text =
    "\x7b\"devid\":\"" ++ toString devid.toNat ++ "\",\"type\":\"register_ok\"\x7d" := rfl

theorem text_registerFailed : (Command.registerFailed devid).text =
    "\x7b\"devid\":\"" ++ toString devid.toNat ++ "\",\"type\":\"register_failed\"\x7d" := rfl

end Text

def World.findDev (w : World) (id : UInt16) : Option ℕ :=
  (List.range w.devsize.toNat).find? fun i => (w.mxjDevice i).id = id

def World.findUses (w : World) (id : UInt16) : List Out :=
  (List.range ((w.findDev id).elim w.devsize.toNat (· + 1))).map .device

/-- The entry behind the last one; behind a full table there is no entry, and it does not
grow. -/
def World.addDev (w : World) (p : PostStruct) : World :=
  if w.devsize.toNat < devSize then
    { w with
      mxjDevice := Function.update w.mxjDevice w.devsize.toNat ⟨p.id, p.devType, p.idxs⟩
      devsize := w.devsize + 1 }
  else w

/-- What a rule does: the state it leaves, the text it prints, the indices it uses. -/
structure Ruling where
  world : World
  command : Option Command
  uses : List Out

def World.registerRequest (w : World) (p : PostStruct) : Ruling :=
  match w.findDev p.id with
  | some _ => ⟨w, some (.registerOk p.id), w.findUses p.id⟩
  | none => ⟨w.addDev p, some (.registerOk p.id), w.findUses p.id ++ [.device w.devsize.toNat]⟩

/-- The two switches and the door contact. -/
def controlUp (p : PostStruct) : Option Command :=
  if p.id = 0xfaf8 then
    if p.action = 1 then some (.controlDown 0x7710 3 3 3)
    else if p.action = 2 then some (.controlDown 0xffff 0 0 0)
    else none
  else if p.id = 0x1ad6 then
    if p.action = 1 then some (.controlDown 0x9590 3 3 3)
    else if p.action = 2 then some (.controlDown 0xffff 0 0 0)
    else none
  else if p.id = 0xfc44 then
    if p.action = 1 then some (.controlDown 0xe6b0 1 1 1)
    else if p.action = 0 then some (.controlDown 0xe6b0 0 0 0)
    else none
  else none

/-- `temp` is 0 from an on to the next off. -/
def World.humidityUp (w : World) (value : UInt16) : Ruling :=
  if 8000 < value then ⟨{ w with temp := 0 }, some (.controlDown tempid 1 1 1), []⟩
  else if value < 6000 ∧ w.temp = 0 then
    ⟨{ w with temp := 1 }, some (.controlDown tempid 0 0 0), []⟩
  else ⟨w, none, []⟩

def World.askState (w : World) (id : UInt16) : Ruling :=
  match w.findDev id with
  | some i =>
    ⟨w, if (w.mxjDevice i).type = 6 then some (.controlDown id 0 2 2) else none,
      w.findUses id ++ [.device i]⟩
  | none => ⟨w, some (.registerFailed id), w.findUses id⟩

/-- The rule for a slot.  The types exclude each other; nothing is done for `temperature_up`. -/
def World.rule (w : World) (p : PostStruct) : Ruling :=
  if keyText p.type = "register_request" ∧ p.devType ≠ 0 ∧ p.idxs ≠ 0 then w.registerRequest p
  else if keyText p.type = "control_up" ∧ p.id ≠ 0 ∧ p.idx ≠ 0 ∧ p.action ≠ 100 then
    ⟨w, controlUp p, []⟩
  else if keyText p.type = "humidity_up" ∧ p.id ≠ 0 ∧ p.value ≠ 0 then w.humidityUp p.value
  else if keyText p.type = "ask_state" ∧ p.id ≠ 0 then w.askState p.id
  else ⟨w, none, []⟩

def World.slot (w : World) : PostStruct := w.rePost w.idx.toNat

/-- `idx++`, and from behind the last slot to slot 1. -/
def World.advance (w : World) : World :=
  { w with idx := if 250 < w.idx + 1 then 1 else w.idx + 1 }

/-- A page when it is queued: the text `str22` has then, or the error page.  The response refers to
`str22` itself, which every later call of `answer_to_connection` clears. -/
inductive Page
  | str22 (command : Option Command)
  | errorpage
  deriving DecidableEq

def Page.text : Page → String
  | .str22 command => command.elim "" Command.text
  | .errorpage => "<html><body>This doesn't seem to be right.</body></html>"

/-- The end of `answer_to_connection`; the rules are gone through for every method but GET. -/
def World.reply (w : World) : Method → World × Page × List Out
  | .get => (w, .errorpage, [])
  | _ =>
    let r := w.rule w.slot
    (r.world.advance, .str22 r.command, .rePost w.idx.toNat :: r.uses ++
      r.command.toList.map fun c => .str22 (c.text.length + 1))

def verdict (call : Call) : MhdResult := if call.data = [] then .no else .yes

theorem iteratePost_eq (s : World × Unit) (call : Call) :
    iteratePost s call = (verdict call,
      (if call.data = [] then s.1 else s.1.storeField call, ()),
      if call.data = [] then [] else s.1.storeUses call) := by
  unfold iteratePost verdict
  split_ifs <;> rfl

def site : Site Unit World Unit Page Empty Out where
  iteratePost _ := iteratePost
  noAnswer := ()
  reply w method _ := w.reply method
  elsewhere i _ := i.elim
  verdict := verdict
  obeys _ s call := congrArg Prod.fst (iteratePost_eq s call)
  answerAfter _ a := a
  answers _ _ _ := rfl
  apart _ _ _ _ _ := ⟨rfl, rfl⟩

abbrev Action := Microhttpd.Action Unit Unit Empty

abbrev Event := Microhttpd.Event Unit Empty

abbrev Daemon := Microhttpd.Daemon World Unit

end IdolGateway.HttpServer
