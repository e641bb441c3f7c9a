import IdolGateway.ZbClient.Device

/-!
# The table of the configurable server

`zbserver-brower.c` keeps its devices in `mxj_device[0 .. devsize-1]`, and every entry can
be configured over HTTP.  A handler moves the table and emits the frames it sends and the
indices it uses.
-/

namespace IdolGateway.Brower

open Procedure
open ZbClient (Json JsonC UsartCall hiByte loByte mxjRegisterOk mxjRegisterFailed)

structure MxjDevice where
  id : UInt16
  type : UInt8
  ctrl : UInt8
  devid : UInt16
  idx : UInt8
  light : Fin 3 → UInt8
  state : Fin 3 → UInt8
  registered : UInt8
  deriving DecidableEq

/-- There are three channels; a store to another one, which hits what stands around `light[]`, is
left out. -/
def MxjDevice.setLight (k : ℤ) (v : UInt8) (d : MxjDevice) : MxjDevice :=
  { d with light := fun j => if (j : ℤ) = k then v else d.light j }

def MxjDevice.setState (k : ℕ) (v : UInt8) (d : MxjDevice) : MxjDevice :=
  { d with state := fun j => if (j : ℕ) = k then v else d.state j }

def MxjDevice.zero : MxjDevice := ⟨0, 0, 0, 0, 0, fun _ => 0, fun _ => 0, 0⟩

def devSize : ℕ := 200

/-- Only the first `devSize` slots of the table are ever stored to. -/
@[ext] structure World where
  mxjDevice : ℕ → MxjDevice
  devsize : UInt8
  jsonStr : String

/-- The calls of `send_usart`, and the indices used on `mxj_device`, `light` and `state`. -/
inductive Out
  | usart (c : UsartCall)
  | device (i : ℤ)
  | light (k : ℤ)
  | state (k : ℤ)
  deriving DecidableEq

def Out.usart? : Out → Option UsartCall
  | .usart c => some c
  | _ => none

/-- What `mxj_device[device].state[state]` addresses where there is no such state. -/
structure Stray where
  device : ℤ
  state : ℕ
  deriving DecidableEq

abbrev Handler (α : Type) := Procedure Stray UInt8 World Out α

def mxjSendCtrlMessage (id : UInt16) (msg1 msg2 msg3 : UInt8) : UsartCall :=
  ⟨[0, 6, hiByte id, loByte id, msg1, msg2, msg3], 7⟩

/-- Nothing is sent for a state other than the two register replies. -/
def mxjSendRegisterMessage (id : UInt16) (state : UInt8) : List UsartCall :=
  if state = mxjRegisterOk then [⟨[3, 4, hiByte id, loByte id, 1], 5⟩]
  else if state = mxjRegisterFailed then [⟨[4, 4, hiByte id, loByte id, 0], 5⟩]
  else []

structure MxjConfig where
  id : UInt16
  state1 : UInt8
  state2 : UInt8
  state3 : UInt8
  enable : UInt8

def mxjSendConfigMessage (id : UInt16) (idx state : UInt8) (mxjconfig : MxjConfig) : UsartCall :=
  ⟨[8, 11, hiByte id, loByte id, idx, state, hiByte mxjconfig.id, loByte mxjconfig.id,
    mxjconfig.state1, mxjconfig.state2, mxjconfig.state3, mxjconfig.enable], 12⟩

def mxjGetConfigMessage (id : UInt16) : UsartCall := ⟨[10, 3, hiByte id, loByte id], 4⟩

/-- The numbers of the channels whose `light[]` is set. -/
def MxjDevice.lights (d : MxjDevice) : List (Fin 3) := [0, 1, 2].filter fun k => d.light k ≠ 0

def deviceJson (d : MxjDevice) : Json :=
  .object [("id", .int d.id.toNat), ("type", .int d.type.toNat),
    ("control", .object [("devid", .int d.devid.toNat),
      ("lights", .array (d.lights.map fun k : Fin 3 => .int (k : ℕ)))]),
    ("status", .array [.int (d.state 0).toNat, .int (d.state 1).toNat, .int (d.state 2).toNat])]

/-- What `build_json` assembles in `str2`.  Without a device the text is not closed. -/
def deviceListText [JsonC] (mxjDevice : ℕ → MxjDevice) (devsize : UInt8) : String :=
  (List.range devsize.toNat).foldl
    (fun str2 i => str2 ++ JsonC.jsonObjectToJsonString (deviceJson (mxjDevice i)) ++
      if i + 1 < devsize.toNat then "," else "]\x7d")
    "\x7b\"devices\":["

def rowReads (i : ℕ) : List Out :=
  [.device i, .light 0, .light 1, .light 2, .state 0, .state 1, .state 2]

def World.publish [JsonC] (w : World) : World :=
  { w with jsonStr := deviceListText w.mxjDevice w.devsize }

def buildJson [JsonC] : Handler Unit := do
  let n ← gets fun w => w.devsize
  emit ((List.range n.toNat).flatMap rowReads)
  modify World.publish

def device (i : ℕ) : Handler MxjDevice := do
  emit [.device i]
  gets fun w => w.mxjDevice i

/-- The table after an assignment to fields of `mxj_device[i]`; one behind the table leaves
it as it is. -/
def World.set (w : World) (i : ℕ) (f : MxjDevice → MxjDevice) : World :=
  if i < devSize then { w with mxjDevice := Function.update w.mxjDevice i (f (w.mxjDevice i)) }
  else w

def setDevice (i : ℕ) (f : MxjDevice → MxjDevice) : Handler Unit := do
  emit [.device i]
  modify fun w => w.set i f

def lightAt (i : ℕ) (k : Fin 3) : Handler UInt8 := do
  let d ← device i
  emit [.light k]
  pure (d.light k)

/-- `mxj_device[i].light[k] = v` -/
def setLight (i : ℕ) (k : ℤ) (v : UInt8) : Handler Unit := do
  emit [.light k]
  setDevice i (.setLight k v)

def indexOf : Option ℕ → ℤ
  | some i => i
  | none => -1

/-- `mxj_device[i].state[k]`, also where `find_dev` found no `i`. -/
def stateAt (i : Option ℕ) (k : ℕ) : Handler UInt8 := do
  emit [.device (indexOf i), .state k]
  match i with
  | some i =>
    if h : k < 3 then gets fun w => (w.mxjDevice i).state ⟨k, h⟩ else cell ⟨i, k⟩
  | none => cell ⟨-1, k⟩

/-- `mxj_device[i].state[k] = v` -/
def setState (i k : ℕ) (v : UInt8) : Handler Unit := do
  emit [.state k]
  setDevice i (.setState k v)

/-- The entry has the number `id`, which need not fit in 16 bits. -/
def MxjDevice.HasId (d : MxjDevice) (id : ℤ) : Prop := (d.id.toNat : ℤ) = id

instance (d : MxjDevice) (id : ℤ) : Decidable (d.HasId id) :=
  inferInstanceAs (Decidable (_ = _))

def findFrom (id : ℤ) : List ℕ → Handler (Option ℕ)
  | [] => pure none
  | i :: is => do
    let d ← device i
    if d.HasId id then pure (some i) else findFrom id is

/-- `none` stands for the result `-1`. -/
def findDev (id : ℤ) : Handler (Option ℕ) := do
  let n ← gets fun w => w.devsize
  findFrom id (List.range n.toNat)

/-- The first slot in use that holds `id`. -/
def World.lookup (w : World) (id : ℤ) : Option ℕ :=
  (List.range w.devsize.toNat).find? fun i => (w.mxjDevice i).HasId id

theorem forall_channel {P : Fin 3 → Prop} : (∀ k, P k) ↔ P 0 ∧ P 1 ∧ P 2 :=
  Fin.forall_fin_succ.trans (and_congr_right fun _ => Fin.forall_fin_two)

section Run

variable (mem : Stray → UInt8) (w : World)

@[simp] theorem run_device (i : ℕ) : (device i).run mem w = ⟨w.mxjDevice i, w, [.device i]⟩ := rfl

@[simp] theorem run_setDevice (i : ℕ) (f : MxjDevice → MxjDevice) :
    (setDevice i f).run mem w = ⟨(), w.set i f, [.device i]⟩ := rfl

@[simp] theorem run_lightAt (i : ℕ) (k : Fin 3) :
    (lightAt i k).run mem w = ⟨(w.mxjDevice i).light k, w, [.device i, .light k]⟩ := rfl

@[simp] theorem run_setLight (i : ℕ) (k : ℤ) (v : UInt8) :
    (setLight i k v).run mem w =
      ⟨(), w.set i (.setLight k v), [.light k, .device i]⟩ := rfl

@[simp] theorem run_setState (i k : ℕ) (v : UInt8) :
    (setState i k v).run mem w =
      ⟨(), w.set i (.setState k v), [.state k, .device i]⟩ := rfl

@[simp] theorem run_buildJson [JsonC] :
    (buildJson).run mem w =
      ⟨(), w.publish, (List.range w.devsize.toNat).flatMap rowReads⟩ := by
  simp [buildJson]

def World.stateAt (i : Option ℕ) (k : ℕ) : UInt8 :=
  match i with
  | some i => if h : k < 3 then (w.mxjDevice i).state ⟨k, h⟩ else mem ⟨i, k⟩
  | none => mem ⟨-1, k⟩

@[simp] theorem run_stateAt (i : Option ℕ) (k : ℕ) :
    (stateAt i k).run mem w = ⟨w.stateAt mem i k, w, [.device (indexOf i), .state k]⟩ := by
  cases i with
  | none => rfl
  | some i =>
    by_cases hk : k < 3
    · simp [stateAt, World.stateAt, hk]
    · simp [stateAt, World.stateAt, hk]

def World.probes (id : ℤ) : List ℕ → List Out
  | [] => []
  | i :: is => .device i :: if (w.mxjDevice i).HasId id then [] else World.probes id is

theorem run_findFrom (id : ℤ) (is : List ℕ) :
    (findFrom id is).run mem w =
      ⟨is.find? fun i => (w.mxjDevice i).HasId id, w, w.probes id is⟩ := by
  induction is with
  | nil => rfl
  | cons i is ih =>
    rw [findFrom, run_bind, run_device]
    by_cases hi : (w.mxjDevice i).HasId id
    · simp [hi, World.probes]
    · simp [hi, World.probes, ih]

@[simp] theorem run_findDev (id : ℤ) :
    (findDev id).run mem w =
      ⟨w.lookup id, w, w.probes id (List.range w.devsize.toNat)⟩ := by
  rw [findDev, run_gets_bind, run_findFrom]
  rfl

theorem mem_probes {id : ℤ} {is : List ℕ} {o : Out} (ho : o ∈ w.probes id is) :
    ∃ i ∈ is, o = .device i := by
  induction is with
  | nil => exact absurd ho List.not_mem_nil
  | cons i is ih =>
    rcases List.mem_cons.mp ho with rfl | ho
    · exact ⟨i, List.mem_cons_self, rfl⟩
    · split_ifs at ho with hi
      · exact absurd ho List.not_mem_nil
      · obtain ⟨j, hj, rfl⟩ := ih ho
        exact ⟨j, List.mem_cons_of_mem i hj, rfl⟩

end Run

section Lookup

variable {w : World} {id : ℤ}

theorem lookup_lt {i : ℕ} (h : w.lookup id = some i) : i < w.devsize.toNat :=
  List.mem_range.mp (List.mem_of_find?_eq_some h)

theorem lookup_hasId {i : ℕ} (h : w.lookup id = some i) : (w.mxjDevice i).HasId id := by
  simpa using List.find?_some h

theorem lookup_eq_none :
    w.lookup id = none ↔ ∀ i < w.devsize.toNat, ¬ (w.mxjDevice i).HasId id := by
  simp [World.lookup, List.find?_eq_none]

theorem lookup_ne_none {i : ℕ} (hi : i < w.devsize.toNat) (hid : (w.mxjDevice i).HasId id) :
    w.lookup id ≠ none := by
  intro h
  exact lookup_eq_none.mp h i hi hid

end Lookup

end IdolGateway.Brower
