import IdolGateway.Brower.Lights

namespace IdolGateway.Brower

open Procedure
open ZbClient (Json JsonC)

def World.text [JsonC] (w : World) : String := deviceListText w.mxjDevice w.devsize

def World.rows (w : World) : List Json :=
  (List.range w.devsize.toNat).map fun i => deviceJson (w.mxjDevice i)

/-- What the text of the table says; without a device it is no JSON text. -/
def World.document (w : World) : Json :=
  if w.devsize = 0 then .null else .object [("devices", .array w.rows)]

section

variable {mem : Stray → UInt8} {w : World}

theorem set_eq_self {i : ℕ} {f : MxjDevice → MxjDevice} (h : f (w.mxjDevice i) = w.mxjDevice i) :
    w.set i f = w := by
  unfold World.set
  rw [h, Function.update_eq_self]
  exact ite_self w

theorem set_set (i : ℕ) (f g : MxjDevice → MxjDevice) :
    (w.set i f).set i g = w.set i fun d => g (f d) := by
  by_cases hi : i < devSize
  · simp [World.set, hi]
  · simp [World.set, hi]

/-- The channels `ks` are configured besides the others. -/
def MxjDevice.lit (ks : List (Fin 3)) (d : MxjDevice) : MxjDevice :=
  { d with light := fun j => if j ∈ ks then 1 else d.light j }

theorem lit_cons (k : Fin 3) (ks : List (Fin 3)) (d : MxjDevice) :
    (d.setLight (k : ℕ) 1).lit ks = d.lit (k :: ks) := by
  unfold MxjDevice.lit MxjDevice.setLight
  congr 1
  funext j
  by_cases hj : j ∈ ks
  · simp [hj]
  · by_cases hk : j = k
    · simp [hk]
    · have hne : ¬ ((j : ℕ) : ℤ) = (k : ℕ) := fun h => hk (Fin.ext (Int.ofNat_inj.mp h))
      simp [hj, hk, hne]

theorem mem_lights (d : MxjDevice) (j : Fin 3) : j ∈ d.lights ↔ d.light j ≠ 0 := by
  have hall : ∀ j : Fin 3, j ∈ [0, 1, 2] := by decide
  simp [MxjDevice.lights, List.mem_filter, hall j]

def MxjDevice.unlit (d : MxjDevice) : MxjDevice := ((d.setLight 0 0).setLight 1 0).setLight 2 0

theorem unlit_light (d : MxjDevice) (j : Fin 3) : d.unlit.light j = 0 := by
  revert j
  exact forall_channel.mpr ⟨rfl, rfl, rfl⟩

theorem lit_lights {d : MxjDevice} (hd : d.LightSet) : d.unlit.lit d.lights = d := by
  have hlight : (d.unlit.lit d.lights).light = d.light := by
    funext j
    change (if j ∈ d.lights then 1 else d.unlit.light j) = d.light j
    rw [unlit_light]
    rcases hd j with h | h
    · rw [if_neg (fun hj => (mem_lights d j).mp hj h), h]
    · rw [if_pos ((mem_lights d j).mpr (by rw [h]; decide)), h]
  exact congrArg (fun l => { d with light := l }) hlight

theorem lookup_self (hw : w.Valid) {i : ℕ} (hi : i < w.devsize.toNat) :
    w.lookup (w.mxjDevice i).id.toNat = some i := by
  obtain ⟨j, hj⟩ := Option.ne_none_iff_exists'.mp (lookup_ne_none hi rfl)
  have hid : (w.mxjDevice j).id = (w.mxjDevice i).id :=
    UInt16.toNat_inj.mp (Int.ofNat_inj.mp (lookup_hasId hj))
  rw [hj, hw.id_inj j (lookup_lt hj) i hi hid]

variable [Tokener]

theorem getInt_of_le {n : ℕ} (hn : n ≤ 2147483647) : jsonObjectGetInt (.int n) = n := by
  have hclamp : jsonObjectGetInt (.int n) = max (-2147483648) (min (n : ℤ) 2147483647) := rfl
  rw [hclamp]
  omega

theorem getInt_word (n : UInt16) : jsonObjectGetInt (.int n.toNat) = n.toNat := by
  have hn := n.toNat_lt
  exact getInt_of_le (by omega)

theorem getInt_byte (n : UInt8) : jsonObjectGetInt (.int n.toNat) = n.toNat := by
  have hn := n.toNat_lt
  exact getInt_of_le (by omega)

theorem state_setLights (i : ℕ) (ks : List (Fin 3)) :
    ((each (fun x => setLight i (jsonObjectGetInt x) 1) (ks.map fun k : Fin 3 => .int (k : ℕ))).run
      mem w).state = w.set i (.lit ks) := by
  induction ks generalizing w with
  | nil =>
    have hnone : (w.mxjDevice i).lit [] = w.mxjDevice i := by simp [MxjDevice.lit]
    exact (set_eq_self hnone).symm
  | cons k ks ih =>
    have hk := k.isLt
    rw [List.map_cons, each, run_bind_state, run_setLight, ih, set_set,
      getInt_of_le (by omega)]
    simp only [lit_cons]

theorem state_postControl {i : ℕ} (hd : (w.mxjDevice i).LightSet) :
    ((postControl i ((deviceJson (w.mxjDevice i)).member "control")).run mem w).state = w := by
  have hcontrol : postControl i ((deviceJson (w.mxjDevice i)).member "control") = (do
      setDevice i (setDevid (UInt16.ofInt (jsonObjectGetInt (.int (w.mxjDevice i).devid.toNat))))
      setLight i 0 0
      setLight i 1 0
      setLight i 2 0
      each (fun x => setLight i (jsonObjectGetInt x) 1)
        ((w.mxjDevice i).lights.map fun k : Fin 3 => .int (k : ℕ))) := rfl
  have hdevid : (setDevid (UInt16.ofInt (jsonObjectGetInt (.int (w.mxjDevice i).devid.toNat))))
      (w.mxjDevice i) = w.mxjDevice i := by
    have hword : UInt16.ofInt ((w.mxjDevice i).devid.toNat : ℤ) = (w.mxjDevice i).devid := by
      have hn := (w.mxjDevice i).devid.toNat_lt
      apply UInt16.toNat_inj.mp
      simp only [UInt16.ofInt, UInt16.toNat_ofNat']
      omega
    rw [getInt_word, hword]
    rfl
  rw [hcontrol, run_bind_state, run_setDevice, set_eq_self hdevid]
  simp only [run_bind_state, run_setLight, state_setLights, set_set]
  exact set_eq_self (lit_lights hd)

theorem state_postStatus (i : ℕ) :
    ((postStatus i ((deviceJson (w.mxjDevice i)).member "status")).run mem w).state = w := by
  have hlen : (items ((deviceJson (w.mxjDevice i)).member "status")).length ≤ 3 := le_refl 3
  have hzip : (items ((deviceJson (w.mxjDevice i)).member "status")).zip [0, 1, 2] =
      ([0, 1, 2] : List (Fin 3)).map fun k => (Json.int ((w.mxjDevice i).state k).toNat, k) := rfl
  rw [postStatus_eq i hlen, hzip]
  apply run_each_state
  intro x hx
  obtain ⟨k, -, rfl⟩ := List.mem_map.mp hx
  rw [postState, run_bind_state, run_stateAt_channel, run_when, getInt_byte]
  exact congrArg Outcome.state (if_neg (not_not.mpr rfl))

/-- A device of the list is found in its own slot, and stays as it is. -/
theorem state_postDevice (hw : w.Valid) {i : ℕ} (hi : i < w.devsize.toNat) :
    ((postDevice (deviceJson (w.mxjDevice i))).run mem w).state = w := by
  have hid : jsonObjectGetInt ((deviceJson (w.mxjDevice i)).member "id") =
      (w.mxjDevice i).id.toNat := getInt_word _
  rw [postDevice, run_bind_state, run_findDev, hid, lookup_self hw hi]
  dsimp only
  rw [run_bind_state, state_postControl (hw.lightSet i), state_postStatus]

theorem state_rows (hw : w.Valid) : ((each postDevice w.rows).run mem w).state = w := by
  apply run_each_state
  intro obj hobj
  obtain ⟨i, hi, rfl⟩ := List.mem_map.mp hobj
  exact state_postDevice hw (List.mem_range.mp hi)

/-- What the list posts is stored already. -/
theorem updates_known (hw : w.Valid) : ∀ u ∈ w.updates w.rows, u.Known w.stored := by
  intro u hu
  obtain ⟨obj, hobj, hu⟩ := List.mem_flatMap.mp hu
  obtain ⟨i, hi, rfl⟩ := List.mem_map.mp hobj
  have hid : jsonObjectGetInt ((deviceJson (w.mxjDevice i)).member "id") =
      (w.mxjDevice i).id.toNat := getInt_word _
  rw [hid, lookup_self hw (List.mem_range.mp hi)] at hu
  have hzip : (items ((deviceJson (w.mxjDevice i)).member "status")).zip [0, 1, 2] =
      ([0, 1, 2] : List (Fin 3)).map fun k => (Json.int ((w.mxjDevice i).state k).toNat, k) := rfl
  obtain ⟨x, hx, rfl⟩ := List.mem_map.mp hu
  rw [hzip] at hx
  obtain ⟨k, -, rfl⟩ := List.mem_map.mp hx
  exact (getInt_byte _).symm

end

/-- A table that was never filled still has its first text. -/
def World.BlankFresh [JsonC] (w : World) : Prop := w.devsize = 0 → w.jsonStr = w.text

theorem lasting_blankFresh [JsonC] : Lasting World.BlankFresh where
  set i f hw _ _ := by
    intro hzero
    rw [devsize_set] at hzero
    rw [jsonStr_set, hw hzero, World.text, World.text, devsize_set, hzero]
    rfl
  publish _ _ := rfl
  append _ _ _ _ _ := rfl

theorem size_le_foldl (f : String → ℕ → String)
    (hf : ∀ t i, t.utf8ByteSize ≤ (f t i).utf8ByteSize) (t : String) (is : List ℕ) :
    t.utf8ByteSize ≤ (is.foldl f t).utf8ByteSize := by
  induction is generalizing t with
  | nil => exact le_refl _
  | cons i is ih => exact (hf t i).trans (ih (f t i))

theorem text_pos [JsonC] (w : World) : 0 < w.text.utf8ByteSize := by
  apply lt_of_lt_of_le (show 0 < ("\x7b\"devices\":[" : String).utf8ByteSize by decide)
  apply size_le_foldl
  intro t i
  rw [String.utf8ByteSize_append, String.utf8ByteSize_append]
  omega

section

variable [Tokener]

section

variable {mem : Stray → UInt8} {w : World} {p : Post} (hpos : 0 < p.size)
include hpos

theorem iteratePost_null (hparse : Tokener.jsonTokenerParse p.data = .null) :
    iteratePost p = pure .no := by
  unfold iteratePost
  dsimp only
  rw [hparse, if_pos hpos]
  rfl

variable (hparse : Tokener.jsonTokenerParse p.data = .object [("devices", .array w.rows)])
include hparse

theorem body_rows : 0 < p.size ∧
    ¬ isNull ((Tokener.jsonTokenerParse p.data).member "devices") := by
  rw [hparse]
  exact ⟨hpos, Bool.false_ne_true⟩

theorem devices_rows : p.devices = w.rows := by
  rw [Post.devices, if_pos (body_rows hpos hparse), hparse]
  rfl

theorem state_postRows (hw : w.Valid) (hsize : p.size ≤ maxNameSize) :
    ((iteratePost p).run mem w).state = w.publish := by
  rw [iteratePost_body (body_rows hpos hparse), state_postDevices hsize, hparse]
  exact congrArg World.publish (state_rows hw)

theorem ctrl_postRows (hw : w.Valid) :
    ((iteratePost p).run mem w).out.filterMap Out.ctrl? = [] := by
  have hdevices := devices_rows hpos hparse
  have hperforms : Performs w ((iteratePost p).run mem w) (w.updates w.rows) := by
    rw [← hdevices]
    apply performs_iteratePost hw
    rw [hdevices]
    intro obj hobj _
    obtain ⟨i, -, rfl⟩ := List.mem_map.mp hobj
    exact le_refl 3
  rw [hperforms.frames, outputs_known (updates_known hw)]
  rfl

end

/-- Posting the text of a table back changes nothing and sends nothing. -/
theorem post_back_noop (xs : List Input) (key : String) (outside : Stray → UInt8)
    (hfits : (server.after .started xs).text.utf8ByteSize < 2000)
    (hread : Tokener.jsonTokenerParse (textBytes (server.after .started xs).text) =
      (server.after .started xs).document) :
    let w := server.after .started xs
    let r := (iteratePost ⟨key, textBytes w.text, w.text.utf8ByteSize⟩).run outside w
    (∀ i, r.state.mxjDevice i = w.mxjDevice i) ∧ r.state.devsize = w.devsize ∧
      r.state.jsonStr = w.text ∧ r.out.filterMap Out.ctrl? = [] := by
  intro w r
  have hw : w.Valid := valid_after xs
  have hblank : w.BlankFresh :=
    Transducer.after_preserves (lasting_step lasting_blankFresh) (fun _ => rfl) xs
  have hpos := text_pos w
  change Tokener.jsonTokenerParse (textBytes w.text) = w.document at hread
  by_cases hzero : w.devsize = 0
  · -- the text without a device does not parse
    have hr : r = ⟨.no, w, []⟩ := by
      change (iteratePost _).run outside w = _
      rw [iteratePost_null hpos (hread.trans (if_pos hzero))]
      rfl
    rw [hr]
    exact ⟨fun _ => rfl, rfl, hblank hzero, rfl⟩
  · have hparse : Tokener.jsonTokenerParse (textBytes w.text) =
        .object [("devices", .array w.rows)] := hread.trans (if_neg hzero)
    have hsize : w.text.utf8ByteSize ≤ maxNameSize := (le_of_lt hfits).trans (by decide)
    have hstate : r.state = w.publish := state_postRows hpos hparse hw hsize
    rw [hstate]
    exact ⟨fun _ => rfl, rfl, rfl, ctrl_postRows hpos hparse hw⟩

end

def MxjDevice.LooksLike (d d' : MxjDevice) : Prop :=
  d.id = d'.id ∧ d.type = d'.type ∧ d.devid = d'.devid ∧
    ∀ k, d.light k = d'.light k ∧ d.state k = d'.state k

instance (d d' : MxjDevice) : Decidable (d.LooksLike d') := inferInstanceAs (Decidable (_ ∧ _))

theorem deviceJson_congr {d d' : MxjDevice} (h : d.LooksLike d') :
    deviceJson d = deviceJson d' := by
  obtain ⟨hid, htype, hdevid, hchannel⟩ := h
  have hlights : d.lights = d'.lights := by
    unfold MxjDevice.lights
    simp only [(hchannel _).1]
  unfold deviceJson
  rw [hid, htype, hdevid, hlights, (hchannel 0).2, (hchannel 1).2, (hchannel 2).2]

theorem document_of_two {w : World} {d e : MxjDevice} (hsize : w.devsize = 2)
    (hd : (w.mxjDevice 0).LooksLike d) (he : (w.mxjDevice 1).LooksLike e) :
    w.document = .object [("devices", .array [deviceJson d, deviceJson e])] := by
  rw [World.document, if_neg (by rw [hsize]; decide), World.rows, hsize, ← deviceJson_congr hd,
    ← deviceJson_congr he]
  rfl

def pairRun : List Input :=
  [received [2, 5, 0, 1, 5, 2], received [2, 5, 0, 2, 7, 1], received [6, 6, 0, 1, 1, 0, 1]]

def pairText : String :=
  "\x7b\"devices\":[\x7b \"id\": 1, \"type\": 5, \"control\": \x7b \"devid\": 0, " ++
  "\"lights\": [ ] \x7d, \"status\": [ 1, 0, 1 ] \x7d,\x7b \"id\": 2, \"type\": 7, \"control\": \x7b \"devid\": 0, " ++
  "\"lights\": [ ] \x7d, \"status\": [ 0, 0, 0 ] \x7d]\x7d"

def pairDocument : Json :=
  .object [("devices", .array [
    .object [("id", .int 1), ("type", .int 5),
      ("control", .object [("devid", .int 0), ("lights", .array [])]),
      ("status", .array [.int 1, .int 0, .int 1])],
    .object [("id", .int 2), ("type", .int 7),
      ("control", .object [("devid", .int 0), ("lights", .array [])]),
      ("status", .array [.int 0, .int 0, .int 0])]])]

theorem text_pair :
    letI := tabled pairText pairDocument
    (server.after .started pairRun).text = pairText := by
  decide +kernel

theorem document_pair :
    letI := tabled pairText pairDocument
    (server.after .started pairRun).document = pairDocument :=
  document_of_two (d := ⟨1, 5, 0, 0, 2, fun _ => 0, fun k => if k = 1 then 0 else 1, 1⟩)
    (e := ⟨2, 7, 0, 0, 1, fun _ => 0, fun _ => 0, 1⟩) (by decide +kernel) (by decide +kernel)
    (by decide +kernel)

theorem fits_pair :
    letI := tabled pairText pairDocument
    (server.after .started pairRun).text.utf8ByteSize < 2000 :=
  lt_of_eq_of_lt (congrArg String.utf8ByteSize text_pair) (by decide +kernel)

theorem read_pair :
    letI := tabled pairText pairDocument
    Tokener.jsonTokenerParse (textBytes (server.after .started pairRun).text) =
      (server.after .started pairRun).document :=
  (if_pos (congrArg textBytes text_pair)).trans document_pair.symm

theorem post_back_pair :
    letI := tabled pairText pairDocument
    let w := server.after .started pairRun
    let r := (iteratePost ⟨"", textBytes w.text, w.text.utf8ByteSize⟩).run (fun _ => 0) w
    (∀ i, r.state.mxjDevice i = w.mxjDevice i) ∧ r.state.devsize = w.devsize ∧
      r.state.jsonStr = w.text ∧ r.out.filterMap Out.ctrl? = [] :=
  @post_back_noop (tabled pairText pairDocument) pairRun "" (fun _ => 0) fits_pair read_pair

end IdolGateway.Brower
