import Mathlib.Logic.Function.Basic
import Mathlib.Data.Fintype.Pi
import IdolGateway.Library.Procedure
import IdolGateway.ZbClient.Wire

/-!
# The device table and the text published from it

The gateway keeps its devices in `mxj_device[0 .. devsize-1]` and the JSON text of
the table in `json_str`, which `build_json` writes.  The globals that the receiver
thread and the main loop share are one `World`; the code that works on them is a
`Handler`, which reads bytes of `rx`, moves the world and emits what leaves the
program.
-/

namespace IdolGateway.ZbClient

open Procedure

/-- The objects the program makes and gets with json-c.  A string object is made from a
pointer, which may be `NULL`; a floating point number keeps its text. -/
inductive Json
  | null
  | boolean (b : Bool)
  | int (n : ℤ)
  | double (text : String)
  | string (s : Option String)
  | array (items : List Json)
  | object (members : List (String × Json))

class JsonC where
  jsonObjectToJsonString : Json → String

def asciiBytes (s : String) : List UInt8 := s.toList.map fun c => c.toNat.toUInt8

/-- json-c escapes quotes, backslashes and slashes; text in other alphabets stays. -/
def escapeChar (c : Char) : String :=
  if c = '"' then "\\\"" else if c = '\\' then "\\\\" else if c = '/' then "\\/"
  else String.singleton c

mutual

/-- The spaced form, in which `json_object_to_json_string` prints. -/
def Json.spaced : Json → String
  | .null => "null"
  | .boolean b => if b then "true" else "false"
  | .int n => toString n
  | .double text => text
  | .string none => "null"
  | .string (some s) => "\"" ++ String.join (s.toList.map escapeChar) ++ "\""
  | .array items => "[" ++ Json.spacedItems "" items ++ " ]"
  | .object members => "\x7b" ++ Json.spacedMembers "" members ++ " \x7d"

def Json.spacedItems (sep : String) : List Json → String
  | [] => ""
  | x :: xs => sep ++ " " ++ x.spaced ++ Json.spacedItems "," xs

def Json.spacedMembers (sep : String) : List (String × Json) → String
  | [] => ""
  | (key, x) :: xs => sep ++ " \"" ++ key ++ "\": " ++ x.spaced ++ Json.spacedMembers "," xs

end

@[reducible] def spacedJsonC : JsonC := ⟨Json.spaced⟩

structure Tm where
  tmYear : ℤ
  tmMon : ℤ
  tmMday : ℤ
  tmHour : ℤ
  tmMin : ℤ
  tmSec : ℤ
  deriving DecidableEq, Repr

/-- `_%d年%d月%d日 %d点%d分%d秒` -/
def Tm.stamp (t : Tm) : String :=
  "_" ++ toString (t.tmYear + 1900) ++ "年" ++ toString (t.tmMon + 1) ++ "月" ++
    toString t.tmMday ++ "日 " ++ toString t.tmHour ++ "点" ++ toString t.tmMin ++ "分" ++
    toString t.tmSec ++ "秒"

/-- The states of a device are numbered from 0; there are three. -/
instance threeStates : NeZero 3 := ⟨by decide⟩

structure MxjDevice where
  id : UInt16
  type : UInt8
  heart : UInt8
  idx : UInt8
  name : Option String
  state : Fin 3 → UInt8
  registered : UInt8
  deriving DecidableEq

def MxjDevice.zero : MxjDevice := ⟨0, 0, 0, 0, none, fun _ => 0, 0⟩

def devSize : ℕ := 200

/-- The table is indexed by every natural number, so that a store at an index past
the `devSize` slots is a store the model can speak about. -/
structure World where
  mxjDevice : ℕ → MxjDevice
  devsize : UInt8
  humand : ℤ
  jsonStr : String
  tblock : Tm
  flagHour : ℤ

inductive Out
  | usart (c : UsartCall)
  | pause
  | post (text : String)
  | store (i : ℕ)
  deriving DecidableEq

def ctrl (id : UInt16) (len msg1 msg2 msg3 : UInt8) : Out :=
  .usart (mxjSendCtrlMessage id len msg1 msg2 msg3)

def Out.usart? : Out → Option UsartCall
  | .usart c => some c
  | _ => none

/-- The bytes a handler reads: those of `rx`, and those that follow a block of heap
memory. -/
inductive Loc
  | rx (i : ℕ)
  | behind (i : ℕ)
  deriving DecidableEq

abbrev Handler (α : Type) := Procedure Loc UInt8 World Out α

/-- The rooms `build_json` names, and the HTTP interface accepts. -/
def roomNames : List (UInt16 × String) :=
  [(ketingId, "KETING_ID"), (cantingId, "CANTING_ID"), (chufangId, "CHUFANG_ID"),
   (mentingId, "MENTING_ID"), (guodaoId, "GUODAO_ID"), (zhuwoId, "ZHUWO_ID"),
   (ciwoId, "CIWO_ID")]

def deviceJson (d : MxjDevice) : Json :=
  .object ([("id", .int d.id.toNat), ("nameChinese", .string d.name), ("type", .int d.type.toNat),
    ("status", .array [.int (d.state 0).toNat, .int (d.state 1).toNat, .int (d.state 2).toNat])] ++
    (roomNames.filter fun r => r.1 = d.id).map fun r => ("name", .string (some r.2)))

/-- What `build_json` assembles in `str2`. -/
def deviceListText [JsonC] (mxjDevice : ℕ → MxjDevice) (devsize : UInt8) : String :=
  (List.range devsize.toNat).foldl
    (fun str2 i => str2 ++ JsonC.jsonObjectToJsonString (deviceJson (mxjDevice i)) ++
      if i + 1 < devsize.toNat then "," else "]\x7d")
    "\x7b\"devices\":["

def buildJson [JsonC] : Handler Unit :=
  modify fun w => { w with jsonStr := deviceListText w.mxjDevice w.devsize }

theorem deviceListText_congr [JsonC] {dev dev' : ℕ → MxjDevice} {devsize : UInt8}
    (h : ∀ i < devsize.toNat, deviceJson (dev i) = deviceJson (dev' i)) :
    deviceListText dev devsize = deviceListText dev' devsize := by
  unfold deviceListText
  apply List.foldl_ext
  intro str2 i hi
  rw [h i (List.mem_range.mp hi)]

def setDevice (i : ℕ) (f : MxjDevice → MxjDevice) : Handler Unit := do
  modify fun w => { w with mxjDevice := Function.update w.mxjDevice i (f (w.mxjDevice i)) }
  emit [.store i]

def storeState (i : ℕ) (k : Fin 3) (v : UInt8) : Handler Unit :=
  setDevice i fun d => { d with state := Function.update d.state k v }

def World.lookup (w : World) (id : UInt16) : Option ℕ :=
  (List.range w.devsize.toNat).find? fun i => (w.mxjDevice i).id = id

/-- `none` stands for the result `-1`. -/
def findDev (id : UInt16) : Handler (Option ℕ) := do
  match ← gets fun w => w.lookup id with
  | none => pure none
  | some i =>
    setDevice i fun d => { d with heart := d.heart + 1 }
    pure (some i)

section Run

variable (mem : Loc → UInt8) (w : World)

@[simp] theorem run_setDevice (i : ℕ) (f : MxjDevice → MxjDevice) :
    (setDevice i f).run mem w =
      ⟨(), { w with mxjDevice := Function.update w.mxjDevice i (f (w.mxjDevice i)) },
        [.store i]⟩ := rfl

@[simp] theorem run_buildJson [JsonC] :
    (buildJson).run mem w =
      ⟨(), { w with jsonStr := deviceListText w.mxjDevice w.devsize }, []⟩ := rfl

def World.beat (w : World) (id : UInt16) : World :=
  { w with
    mxjDevice := match w.lookup id with
      | none => w.mxjDevice
      | some i => Function.update w.mxjDevice i
          { w.mxjDevice i with heart := (w.mxjDevice i).heart + 1 } }

@[simp] theorem run_findDev (id : UInt16) :
    (findDev id).run mem w =
      ⟨w.lookup id, w.beat id, (w.lookup id).toList.map .store⟩ := by
  simp only [findDev, run_bind, run_gets, World.beat]
  cases w.lookup id with
  | none => simp
  | some i => simp

theorem World.beat_mxjDevice (id : UInt16) (j : ℕ) :
    ∃ h, (w.beat id).mxjDevice j = { w.mxjDevice j with heart := h } := by
  unfold World.beat
  cases w.lookup id with
  | none => exact ⟨_, rfl⟩
  | some i =>
    by_cases hj : j = i
    · subst hj
      exact ⟨(w.mxjDevice j).heart + 1, by simp⟩
    · exact ⟨(w.mxjDevice j).heart, by simp [hj]⟩

theorem World.beat_type (id : UInt16) (j : ℕ) :
    ((w.beat id).mxjDevice j).type = (w.mxjDevice j).type := by
  obtain ⟨h, hj⟩ := w.beat_mxjDevice id j
  rw [hj]

end Run

end IdolGateway.ZbClient
