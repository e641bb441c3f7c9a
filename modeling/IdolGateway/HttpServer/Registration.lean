import IdolGateway.HttpServer.Rules
import IdolGateway.Library.Register

namespace IdolGateway.HttpServer

open Microhttpd (Call ConnId Method Request cstr keyText)
open Register (enter entries arrived)

/-- `mxj_device[0 .. devsize-1]` -/
def World.table (w : World) : List MxjDevice :=
  (List.range w.devsize.toNat).map w.mxjDevice

/-- The device a slot asks to register. -/
def PostStruct.registration (p : PostStruct) : Option MxjDevice :=
  if keyText p.type = "register_request" ∧ p.devType ≠ 0 ∧ p.idxs ≠ 0 then
    some ⟨p.id, p.devType, p.idxs⟩
  else none

def registrations (w : World) : Action → List MxjDevice
  | .reply _ method _ => if method = .get then [] else w.slot.registration.toList
  | _ => []

/-- No store leaves its array: the page of a POST that asks for a registration of an unknown
device finds room in the table, and the string that `strcpy` is handed for a type fits in its
slot. -/
def World.Harmless (w : World) : Action → Prop
  | .call _ _ call => keyText call.key = "type" → (cstr call.data).length < typeSize
  | .reply _ method _ => method ≠ .get → w.slot.registration ≠ none →
    w.findDev w.slot.id = none → w.devsize.toNat < devSize
  | .elsewhere i => i.elim

instance (w : World) (a : Action) : Decidable (w.Harmless a) :=
  match a with
  | .call _ _ _ => inferInstanceAs (Decidable (_ → _))
  | .reply _ _ _ => inferInstanceAs (Decidable (_ → _ → _ → _))
  | .elsewhere i => i.elim

theorem length_table (w : World) : w.table.length = w.devsize.toNat := by
  simp [World.table]

theorem findDev_isNone {w : World} {id : UInt16} :
    w.findDev id = none ↔ id ∉ w.table.map MxjDevice.id := by
  simp [World.findDev, World.table]

theorem table_addDev {w : World} (hsize : w.devsize.toNat ≤ devSize) (p : PostStruct)
    (hnew : w.findDev p.id = none) :
    (w.addDev p).devsize.toNat ≤ devSize ∧
      (w.addDev p).table = enter MxjDevice.id devSize w.table ⟨p.id, p.devType, p.idxs⟩ := by
  unfold World.addDev enter
  rw [length_table]
  by_cases hroom : w.devsize.toNat < devSize
  · have hnext : (w.devsize + 1).toNat = w.devsize.toNat + 1 := by
      unfold devSize at hroom
      rw [UInt16.toNat_add, UInt16.toNat_one]
      omega
    rw [if_pos hroom, if_neg]
    · refine ⟨by rw [hnext]; omega, ?_⟩
      unfold World.table
      rw [hnext, List.range_succ, List.map_append, List.map_singleton]
      dsimp only
      rw [Function.update_self]
      refine congrArg (· ++ _) (List.map_congr_left fun i hi => ?_)
      rw [List.mem_range] at hi
      exact Function.update_of_ne (Nat.ne_of_lt hi) _ _
    · rw [not_or]
      exact ⟨findDev_isNone.mp hnew, by omega⟩
  · rw [if_neg hroom, if_pos (Or.inr (by omega))]
    exact ⟨hsize, rfl⟩

theorem table_registerRequest {w : World} (hsize : w.devsize.toNat ≤ devSize) (p : PostStruct) :
    (w.registerRequest p).world.devsize.toNat ≤ devSize ∧
      (w.registerRequest p).world.table =
        enter MxjDevice.id devSize w.table ⟨p.id, p.devType, p.idxs⟩ := by
  unfold World.registerRequest
  cases hfind : w.findDev p.id with
  | none => exact table_addDev hsize p hfind
  | some i =>
    have hknown : p.id ∈ w.table.map MxjDevice.id := by
      by_contra h
      rw [findDev_isNone.mpr h] at hfind
      cases hfind
    refine ⟨hsize, ?_⟩
    rw [enter, if_pos (Or.inl hknown)]

/-- The rules other than the first leave the table alone. -/
theorem table_rule {w : World} (hsize : w.devsize.toNat ≤ devSize) (p : PostStruct) :
    (w.rule p).world.devsize.toNat ≤ devSize ∧
      (w.rule p).world.table =
        (p.registration.toList).foldl (enter MxjDevice.id devSize) w.table := by
  unfold World.rule PostStruct.registration
  split_ifs with h₁ h₂ h₃ h₄
  · exact table_registerRequest hsize p
  · exact ⟨hsize, rfl⟩
  · unfold World.humidityUp
    split_ifs <;> exact ⟨hsize, rfl⟩
  · unfold World.askState
    cases w.findDev p.id <;> exact ⟨hsize, rfl⟩
  · exact ⟨hsize, rfl⟩

def Lists (w : World) (rs : List MxjDevice) : Prop :=
  w.devsize.toNat ≤ devSize ∧ w.table = rs

theorem table_storeField (w : World) (call : Call) :
    (w.storeField call).devsize = w.devsize ∧ (w.storeField call).mxjDevice = w.mxjDevice := by
  unfold World.storeField World.leave
  split_ifs <;> exact ⟨rfl, rfl⟩

theorem flat_refines_register :
    site.flat.Refines (Register.machine MxjDevice.id devSize) Lists World.Harmless
      registrations (fun _ => none) := by
  constructor
  · rintro w rs a ⟨hsize, rfl⟩ -
    rw [Register.after_machine]
    cases a with
    | elsewhere i => exact i.elim
    | call e c call =>
      simp only [Microhttpd.Site.flat, site, iteratePost_eq, registrations, List.foldl_nil]
      split_ifs
      · exact ⟨hsize, rfl⟩
      · obtain ⟨hdev, hmxj⟩ := table_storeField w call
        exact ⟨hdev ▸ hsize, by rw [World.table, hdev, hmxj]; rfl⟩
    | reply c method a =>
      cases method with
      | get => exact ⟨hsize, rfl⟩
      | post => exact table_rule hsize w.slot
      | other => exact table_rule hsize w.slot
  · intro w rs a _ _
    exact (List.filterMap_eq_nil_iff.mpr fun _ _ => rfl).trans (Register.outputs_machine _ _).symm

variable (request : ConnId → Request)

/-- The registrations of a run, in order. -/
def asked (d : Daemon) (xs : List Event) : List MxjDevice :=
  (site.flat.trace registrations).outputs d.globals (site.trace request d xs)

def HarmlessRun (d : Daemon) (xs : List Event) : Prop :=
  site.flat.Along World.Harmless d.globals (site.trace request d xs)

instance (d : Daemon) (xs : List Event) : Decidable (HarmlessRun request d xs) :=
  inferInstanceAs (Decidable (site.flat.Along _ _ _))

theorem lists_run {d : Daemon} (hsize : d.globals.devsize.toNat ≤ devSize) {xs : List Event}
    (h : HarmlessRun request d xs) :
    ((site.daemon request).after d xs).globals.devsize.toNat ≤ devSize ∧
      ((site.daemon request).after d xs).globals.table =
        (asked request d xs).foldl (enter MxjDevice.id devSize) d.globals.table := by
  have hrun := (flat_refines_register.run (s := d.globals) ⟨hsize, rfl⟩ h).1
  rw [Register.after_machine] at hrun
  rw [(Microhttpd.run_flat d xs).1]
  exact hrun

/-- The page that tells a device that it is not registered. -/
theorem failed_iff {w : World} {p : PostStruct} (hask : keyText p.type = "ask_state")
    (hid : p.id ≠ 0) :
    (w.rule p).command = some (.registerFailed p.id) ↔ p.id ∉ w.table.map MxjDevice.id := by
  have hrule : w.rule p = w.askState p.id := by
    unfold World.rule
    simp [hask, hid]
  rw [hrule, ← findDev_isNone, World.askState]
  cases w.findDev p.id with
  | none => simp
  | some i =>
    dsimp only
    split_ifs <;> simp

/-- In every run whose stores stay in their arrays, the table holds the first two hundred
different ids that asked for registration, each as it first asked, and only grows at its end; who
asks for his state later is told that he is not registered exactly if he is not among them. -/
theorem registered_first_come (xs : List Event)
    (hrun : HarmlessRun request (.idle Unit World.initial) xs) :
    let d := (site.daemon request).after (.idle Unit World.initial) xs
    (∀ dev, dev ∈ d.globals.table ↔
      ∃ pre post, asked request (.idle Unit World.initial) xs = pre ++ dev :: post ∧
        dev.id ∉ pre.map MxjDevice.id ∧ arrived MxjDevice.id pre < devSize) ∧
    (∀ ys, HarmlessRun request d ys →
      d.globals.table <+: ((site.daemon request).after d ys).globals.table) ∧
    ∀ c, d.conCls c ≠ none → (request c).method = .post →
      keyText d.globals.slot.type = "ask_state" → d.globals.slot.id ≠ 0 →
      (.page c (.str22 (some (.registerFailed d.globals.slot.id))) ∈
          ((site.daemon request).step d (.answer () c [])).2 ↔
        d.globals.slot.id ∉ d.globals.table.map MxjDevice.id) := by
  intro d
  obtain ⟨hsize, htable⟩ := lists_run request (by decide) hrun
  refine ⟨fun dev => ?_, fun ys hys => ?_, fun c hopen hpost hask hid => ?_⟩
  · rw [← Register.mem_entries_iff]
    exact iff_of_eq (congrArg _ htable)
  · rw [(lists_run request hsize hys).2]
    exact Register.prefix_foldl _ _
  · obtain ⟨con, hcon⟩ := Option.ne_none_iff_exists'.mp hopen
    have hstep := @Microhttpd.step_page _ _ _ _ _ _ site request d c con hcon () []
      (by simp)
    rw [hstep, hpost, ← failed_iff hask hid]
    simp [site, World.reply, eq_comm]

def registerEvents : List Event :=
  [.answer () 1 [],
    .answer () 1 "dev_id=7&dev_type=6&idxs=1&type=register_request".toUTF8.data.toList,
    .answer () 1 []]

theorem registered_seven :
    let d := (site.daemon fun _ => ⟨.post, true⟩).after (.idle Unit World.initial) registerEvents
    ⟨7, 6, 1⟩ ∈ d.globals.table := by
  have hrun := registered_first_come (fun _ => ⟨.post, true⟩) registerEvents (by decide +kernel)
  refine (hrun.1 _).mpr ⟨[], [], ?_, by decide, by decide⟩
  decide +kernel

end IdolGateway.HttpServer
