import IdolGateway.Brower.PostBack
import IdolGateway.ZbClient.JsonSpaced

/-!
# The list of devices as JSON

Only the objects of `build_json` come from json-c; the brackets and commas around them are
pasted by hand, and the closing ones come with the last device.  A table without a device
is published as a text that is not closed, and `main` publishes it before any device exists.
-/

namespace IdolGateway.Brower

open Procedure
open ZbClient (Json JsonC spacedJsonC parseJson parseJson_of_spells readableItems_iff)
open ZbClient.JsonText (Plain Spells plain_of_all spells_devices spells_spaced)

structure MxjDevice.ShownBy (d : MxjDevice) (x : Json) : Prop where
  id : x.member "id" = .int d.id.toNat
  type : x.member "type" = .int d.type.toNat
  devid : (x.member "control").member "devid" = .int d.devid.toNat
  lights : ∃ ks : List (Fin 3), (x.member "control").member "lights" =
      .array (ks.map fun k : Fin 3 => .int (k : ℕ)) ∧
    ks.Pairwise (· < ·) ∧ ∀ k, k ∈ ks ↔ d.light k ≠ 0
  status : x.member "status" =
    .array [.int (d.state 0).toNat, .int (d.state 1).toNat, .int (d.state 2).toNat]

/-- The document lists the slots in use, one object for each, in their order. -/
structure World.ListedIn (w : World) (doc : Json) : Prop where
  object : ∃ members, doc = .object members
  devices : ∃ xs, doc.member "devices" = .array xs ∧
    List.Forall₂ MxjDevice.ShownBy ((List.range w.devsize.toNat).map w.mxjDevice) xs

theorem lights_pairwise (d : MxjDevice) : d.lights.Pairwise (· < ·) := by
  have hall : ([0, 1, 2] : List (Fin 3)).Pairwise (· < ·) := by decide
  exact hall.sublist List.filter_sublist

theorem shownBy_deviceJson (d : MxjDevice) : d.ShownBy (deviceJson d) where
  id := rfl
  type := rfl
  devid := rfl
  lights := ⟨d.lights, rfl, lights_pairwise d, mem_lights d⟩
  status := rfl

theorem listedIn_rows (w : World) : w.ListedIn (.object [("devices", .array w.rows)]) where
  object := ⟨_, rfl⟩
  devices := by
    refine ⟨w.rows, rfl, ?_⟩
    unfold World.rows
    rw [List.forall₂_map_left_iff, List.forall₂_map_right_iff, List.forall₂_same]
    exact fun i _ => shownBy_deviceJson (w.mxjDevice i)

def World.PrintsRows [JsonC] (w : World) : Prop :=
  ∀ i < w.devsize.toNat,
    Spells (JsonC.jsonObjectToJsonString (deviceJson (w.mxjDevice i))).toList
      (deviceJson (w.mxjDevice i))

theorem readable_deviceJson (d : MxjDevice) : (deviceJson d).Readable := by
  have hlights : (Json.array (d.lights.map fun k : Fin 3 => .int (k : ℕ))).Readable := by
    rw [Json.Readable, readableItems_iff]
    intro x hx
    obtain ⟨k, -, rfl⟩ := List.mem_map.mp hx
    rw [Json.Readable]
    exact trivial
  have hall : ["id", "type", "control", "devid", "lights", "status"].all
      (fun key => key.toList.all fun c => Plain c) = true := by decide +kernel
  have hkeys : ∀ key ∈ ["id", "type", "control", "devid", "lights", "status"],
      ∀ c ∈ key.toList, Plain c :=
    fun key hkey => plain_of_all (List.all_eq_true.mp hall key hkey)
  simp only [List.forall_mem_cons] at hkeys
  obtain ⟨hid, htype, hcontrol, hdevid, hlightsKey, hstatus, -⟩ := hkeys
  simp only [deviceJson, Json.Readable, Json.ReadableMembers, Json.ReadableItems] at hlights ⊢
  exact ⟨hid, trivial, htype, trivial, hcontrol, ⟨hdevid, trivial, hlightsKey, hlights, trivial⟩,
    hstatus, ⟨trivial, trivial, trivial, trivial⟩, trivial⟩

theorem printsRows_spaced (w : World) : @World.PrintsRows spacedJsonC w :=
  fun i _ => spells_spaced _ (readable_deviceJson (w.mxjDevice i))

theorem parse_text [JsonC] {w : World} (hrows : w.PrintsRows) (hw : w.devsize ≠ 0) :
    parseJson w.text = some (.object [("devices", .array w.rows)]) := by
  have hn : w.devsize.toNat ≠ 0 := fun h => hw (UInt8.toNat_inj.mp h)
  exact parseJson_of_spells (spells_devices hrows hn)

theorem parse_open : parseJson "\x7b\"devices\":[" = none :=
  Option.isNone_iff_eq_none.mp (by decide +kernel)

/-- What `build_json` leaves in `json_str` is a list of the table exactly when there is a
device. -/
theorem device_list_iff [JsonC] (mem : Stray → UInt8) (w : World) (hrows : w.PrintsRows) :
    (∃ doc, parseJson (buildJson.run mem w).state.jsonStr = some doc ∧ w.ListedIn doc) ↔
      w.devsize ≠ 0 := by
  rw [run_buildJson]
  change (∃ doc, parseJson w.text = some doc ∧ w.ListedIn doc) ↔ w.devsize ≠ 0
  constructor
  · rintro ⟨doc, hparse, -⟩ hzero
    have htext : w.text = "\x7b\"devices\":[" := by
      rw [World.text, hzero]
      rfl
    rw [htext, parse_open] at hparse
    cases hparse
  · intro hw
    exact ⟨_, parse_text hrows hw, listedIn_rows w⟩

def oneRow : World :=
  ⟨fun _ => ⟨1, 5, 0, 2, 2, fun k => if k = 1 then 0 else 1, fun _ => 1, 1⟩, 1, ""⟩

theorem one_row_listed :
    letI := spacedJsonC
    ∃ doc, parseJson (buildJson.run (fun _ => 0) oneRow).state.jsonStr = some doc ∧
      oneRow.ListedIn doc :=
  (@device_list_iff spacedJsonC (fun _ => 0) oneRow (printsRows_spaced oneRow)).mpr (by decide)

/-- What `main` publishes before any device exists. -/
theorem first_list_not_json :
    letI := spacedJsonC
    (buildJson.run (fun _ => 0) World.zero).state.jsonStr = "\x7b\"devices\":[" ∧
      ¬ ∃ doc, parseJson (buildJson.run (fun _ => 0) World.zero).state.jsonStr = some doc ∧
        World.zero.ListedIn doc := by
  have htext : (@buildJson spacedJsonC |>.run (fun _ => 0) World.zero).state.jsonStr =
      "\x7b\"devices\":[" := rfl
  refine ⟨htext, ?_⟩
  rintro ⟨doc, hparse, -⟩
  rw [htext, parse_open] at hparse
  cases hparse

end IdolGateway.Brower
