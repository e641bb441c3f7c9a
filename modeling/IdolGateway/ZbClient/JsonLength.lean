import Mathlib.Algebra.BigOperators.Intervals
import IdolGateway.ZbClient.DeviceNames

namespace IdolGateway.ZbClient

open Procedure

def decimalWidth (n : ℕ) : ℕ := (Nat.toDigits 10 n).length

theorem bytes_ofList {cs : List Char} (hcs : ∀ c ∈ cs, c.isDigit) :
    (String.ofList cs).utf8ByteSize = cs.length := by
  induction cs with
  | nil => rfl
  | cons c cs ih =>
    have hc : c.utf8Size = 1 := by
      have h := hcs c (by simp)
      simp only [Char.isDigit, Bool.and_eq_true, decide_eq_true_eq] at h
      exact Char.utf8Size_eq_one_iff.mpr (UInt32.le_trans h.2 (by decide))
    rw [String.ofList_cons, String.utf8ByteSize_append, String.utf8ByteSize_singleton, hc,
      ih fun c h => hcs c (by simp [h]), List.length_cons, add_comm]

theorem bytes_int (n : ℕ) : (toString (n : ℤ)).utf8ByteSize = decimalWidth n := by
  have hrepr : toString (n : ℤ) = String.ofList (Nat.toDigits 10 n) := rfl
  rw [hrepr, bytes_ofList fun c hc => Nat.isDigit_of_mem_toDigits (by decide) (by decide) hc]
  rfl

theorem decimalWidth_pos (n : ℕ) : 1 ≤ decimalWidth n := Nat.length_toDigits_pos

theorem decimalWidth_le {n k : ℕ} (hk : 0 < k) (h : n < 10 ^ k) : decimalWidth n ≤ k :=
  (Nat.length_toDigits_le_iff (by decide) hk).mpr h

def nameBytes (name : Option String) : ℕ := (Json.spaced (.string name)).utf8ByteSize

/-- The member `name` of the seven rooms. -/
def roomBytes (id : UInt16) : ℕ :=
  (Json.spacedMembers ","
    ((roomNames.filter fun r => r.1 = id).map fun r => ("name", .string (some r.2)))).utf8ByteSize

def stateDigits (d : MxjDevice) : ℕ :=
  decimalWidth (d.state 0).toNat + decimalWidth (d.state 1).toNat + decimalWidth (d.state 2).toNat

/-- Everything in the object of a device but the digits of its states. -/
def baseBytes (d : MxjDevice) : ℕ :=
  57 + decimalWidth d.id.toNat + nameBytes d.name + decimalWidth d.type.toNat + roomBytes d.id

theorem bytes_deviceJson (d : MxjDevice) :
    (deviceJson d).spaced.utf8ByteSize = baseBytes d + stateDigits d := by
  have hname : (Json.spaced (.string d.name)).utf8ByteSize = nameBytes d.name := rfl
  have hkeys : "id".utf8ByteSize = 2 ∧ "nameChinese".utf8ByteSize = 11 ∧ "type".utf8ByteSize = 4 ∧
      "status".utf8ByteSize = 6 := by decide
  have hmarks : "\x7b".utf8ByteSize = 1 ∧ " \x7d".utf8ByteSize = 2 ∧ "[".utf8ByteSize = 1 ∧
      " ]".utf8ByteSize = 2 ∧ " \"".utf8ByteSize = 2 ∧ "\": ".utf8ByteSize = 3 ∧
      " ".utf8ByteSize = 1 ∧ ",".utf8ByteSize = 1 ∧ "".utf8ByteSize = 0 := by decide
  unfold deviceJson baseBytes stateDigits roomBytes
  rw [Json.spaced]
  simp only [List.cons_append, List.nil_append, Json.spacedMembers, String.utf8ByteSize_append,
    hname]
  simp only [Json.spaced, Json.spacedItems, String.utf8ByteSize_append, bytes_int]
  omega

theorem bytes_foldl (f : ℕ → String) (s : String) (n : ℕ) :
    ((List.range n).foldl (fun str2 i => str2 ++ f i) s).utf8ByteSize =
      s.utf8ByteSize + ∑ i ∈ Finset.range n, (f i).utf8ByteSize := by
  induction n with
  | zero => rfl
  | succ n ih =>
    rw [List.range_succ, List.foldl_append, List.foldl_cons, List.foldl_nil,
      String.utf8ByteSize_append, ih, Finset.sum_range_succ, add_assoc]

theorem sum_separators {n : ℕ} (hn : 0 < n) :
    ∑ i ∈ Finset.range n, (if i + 1 < n then "," else "]\x7d").utf8ByteSize = n + 1 := by
  obtain ⟨m, rfl⟩ : ∃ m, n = m + 1 := ⟨n - 1, by omega⟩
  have hinner : ∀ i ∈ Finset.range m,
      (if i + 1 < m + 1 then "," else "]\x7d").utf8ByteSize = 1 := by
    intro i hi
    have hlt : i < m := Finset.mem_range.mp hi
    rw [if_pos (by omega)]
    rfl
  have hlast : (if m + 1 < m + 1 then "," else "]\x7d").utf8ByteSize = 2 := by
    rw [if_neg (by omega)]
    rfl
  rw [Finset.sum_range_succ, Finset.sum_const_nat hinner, hlast, Finset.card_range, mul_one]

theorem bytes_deviceListText (dev : ℕ → MxjDevice) {devsize : UInt8} (hn : 0 < devsize.toNat) :
    (@deviceListText spacedJsonC dev devsize).utf8ByteSize =
      13 + devsize.toNat + ∑ i ∈ Finset.range devsize.toNat, (baseBytes (dev i) + stateDigits (dev i)) := by
  have hhead : "\x7b\"devices\":[".utf8ByteSize = 12 := by decide
  unfold deviceListText
  simp only [String.append_assoc]
  rw [bytes_foldl, hhead]
  simp only [String.utf8ByteSize_append]
  rw [Finset.sum_add_distrib, sum_separators hn]
  have hdevices : ∑ i ∈ Finset.range devsize.toNat,
      (@JsonC.jsonObjectToJsonString spacedJsonC (deviceJson (dev i))).utf8ByteSize =
        ∑ i ∈ Finset.range devsize.toNat, (baseBytes (dev i) + stateDigits (dev i)) :=
    Finset.sum_congr rfl fun i _ => bytes_deviceJson (dev i)
  rw [hdevices]
  omega

def World.joinedCount (w : World) : ℕ := w.devsize.toNat - fixedDevices.length

/-- The decimal digits of all states, and of the ids and types of sensors that joined. -/
def World.digits (w : World) : ℕ :=
  ∑ i ∈ Finset.range w.devsize.toNat, stateDigits (w.mxjDevice i) +
    ∑ j ∈ Finset.range w.joinedCount,
      (decimalWidth (w.mxjDevice (fixedDevices.length + j)).id.toNat +
        decimalWidth (w.mxjDevice (fixedDevices.length + j)).type.toNat)

theorem byteWidth_le (v : UInt8) : decimalWidth v.toNat ≤ 3 := by
  have hlt : v.toNat < 256 := v.toNat_lt
  exact decimalWidth_le (by decide) (by omega)

theorem stateDigits_bounds (d : MxjDevice) : 3 ≤ stateDigits d ∧ stateDigits d ≤ 9 := by
  have h0 := byteWidth_le (d.state 0)
  have h1 := byteWidth_le (d.state 1)
  have h2 := byteWidth_le (d.state 2)
  have p0 := decimalWidth_pos (d.state 0).toNat
  have p1 := decimalWidth_pos (d.state 1).toNat
  have p2 := decimalWidth_pos (d.state 2).toNat
  unfold stateDigits
  omega

theorem idTypeDigits_bounds (d : MxjDevice) :
    2 ≤ decimalWidth d.id.toNat + decimalWidth d.type.toNat ∧
      decimalWidth d.id.toNat + decimalWidth d.type.toNat ≤ 8 := by
  have hid : decimalWidth d.id.toNat ≤ 5 := by
    have hlt : d.id.toNat < 65536 := d.id.toNat_lt
    exact decimalWidth_le (by decide) (by omega)
  have htype := byteWidth_le d.type
  have pid := decimalWidth_pos d.id.toNat
  have ptype := decimalWidth_pos d.type.toNat
  omega

theorem sum_range_bounds {f : ℕ → ℕ} {lo hi : ℕ} (hf : ∀ i, lo ≤ f i ∧ f i ≤ hi) (n : ℕ) :
    n * lo ≤ ∑ i ∈ Finset.range n, f i ∧ ∑ i ∈ Finset.range n, f i ≤ n * hi := by
  induction n with
  | zero => simp
  | succ n ih =>
    have hn := hf n
    rw [Finset.sum_range_succ, Nat.succ_mul, Nat.succ_mul]
    omega

theorem World.digits_bounds (w : World) :
    w.devsize.toNat * 3 + w.joinedCount * 2 ≤ w.digits ∧
      w.digits ≤ w.devsize.toNat * 9 + w.joinedCount * 8 := by
  have hstates := sum_range_bounds (fun i => stateDigits_bounds (w.mxjDevice i)) w.devsize.toNat
  have hjoined := sum_range_bounds
    (fun j => idTypeDigits_bounds (w.mxjDevice (fixedDevices.length + j))) w.joinedCount
  unfold World.digits
  omega

/-- The fixed devices stand first, no two devices share an id, and only the fixed devices
have names. -/
structure World.Regular (w : World) : Prop where
  fixed : w.KeepsFixed
  distinct : w.Distinct
  unnamed : ∀ i, fixedDevices.length ≤ i → (w.mxjDevice i).name = none

namespace World.Regular

variable {w : World}

theorem of_same {v : World} (hw : w.Regular) (hentries : v.entries = w.entries)
    (hname : ∀ i, (v.mxjDevice i).name = (w.mxjDevice i).name) : v.Regular where
  fixed := by
    unfold World.KeepsFixed
    rw [hentries]
    exact hw.fixed
  distinct := by
    unfold World.Distinct
    rw [hentries]
    exact hw.distinct
  unnamed := fun i hi => (hname i).trans (hw.unnamed i hi)

theorem size_ge (hw : w.Regular) : fixedDevices.length ≤ w.devsize.toNat := by
  have hlen := hw.fixed.length_le
  rwa [List.length_map, entries_length] at hlen

theorem base_fixed (hw : w.Regular) :
    ∑ i ∈ Finset.range fixedDevices.length, baseBytes (w.mxjDevice i) = 1690 := by
  have hslots : ∀ i ∈ Finset.range fixedDevices.length, baseBytes (w.mxjDevice i) =
      baseBytes ((fixedDevices.map FixedDevice.entry).getD i .zero) := by
    intro i hi
    have hlt : i < fixedDevices.length := Finset.mem_range.mp hi
    have hslot := (hw.fixed.slot (List.getElem?_eq_getElem hlt)).2
    have hbase : baseBytes (w.mxjDevice i) = baseBytes (w.mxjDevice i).identity := rfl
    rw [hbase, hslot, List.getD_eq_getElem?_getD, List.getElem?_map, List.getElem?_eq_getElem hlt]
    rfl
  rw [Finset.sum_congr rfl hslots]
  decide +kernel

/-- No room has the id of a sensor that joined. -/
theorem base_joined (hw : w.Regular) {j : ℕ} (hj : j < w.joinedCount) :
    baseBytes (w.mxjDevice (fixedDevices.length + j)) =
      61 + (decimalWidth (w.mxjDevice (fixedDevices.length + j)).id.toNat +
        decimalWidth (w.mxjDevice (fixedDevices.length + j)).type.toNat) := by
  have hlt : fixedDevices.length + j < w.devsize.toNat := by
    unfold World.joinedCount at hj
    omega
  have hroom : ∀ r ∈ roomNames, r.1 ≠ (w.mxjDevice (fixedDevices.length + j)).id := by
    intro r hr hid
    have hfixed : ∀ r ∈ roomNames, r.1 ∈ fixedDevices.map FixedDevice.id := by decide
    obtain ⟨f, hf, hfid⟩ := List.mem_map.mp (hfixed r hr)
    obtain ⟨k, hk, hkf⟩ := List.mem_iff_getElem.mp hf
    have hfound : w.lookup f.id = some k :=
      hw.fixed.lookup (List.getElem?_eq_some_iff.mpr ⟨hk, hkf⟩)
    rw [hfid, hid, hw.distinct.lookup hlt, Option.some_inj] at hfound
    omega
  have hrooms : (roomNames.filter fun r => r.1 = (w.mxjDevice (fixedDevices.length + j)).id) = [] :=
    List.filter_eq_nil_iff.mpr fun r hr => by simpa using hroom r hr
  have hname : nameBytes (w.mxjDevice (fixedDevices.length + j)).name = 4 := by
    rw [hw.unnamed _ (Nat.le_add_right _ _)]
    decide +kernel
  have hnone : roomBytes (w.mxjDevice (fixedDevices.length + j)).id = 0 := by
    unfold roomBytes
    rw [hrooms]
    decide +kernel
  unfold baseBytes
  rw [hname, hnone]
  omega

theorem text_bytes (hw : w.Regular) :
    (@deviceListText spacedJsonC w.mxjDevice w.devsize).utf8ByteSize =
      1722 + 62 * w.joinedCount + w.digits := by
  have hge := hw.size_ge
  have hpos : 0 < fixedDevices.length := by decide
  have hnineteen : fixedDevices.length = 19 := rfl
  have hsize : w.devsize.toNat = fixedDevices.length + w.joinedCount := by
    unfold World.joinedCount
    omega
  have hjoined : ∑ j ∈ Finset.range w.joinedCount,
      baseBytes (w.mxjDevice (fixedDevices.length + j)) =
        61 * w.joinedCount + ∑ j ∈ Finset.range w.joinedCount,
          (decimalWidth (w.mxjDevice (fixedDevices.length + j)).id.toNat +
            decimalWidth (w.mxjDevice (fixedDevices.length + j)).type.toNat) := by
    rw [Finset.sum_congr rfl fun j hj => hw.base_joined (Finset.mem_range.mp hj),
      Finset.sum_add_distrib, Finset.sum_const_nat fun _ _ => rfl, Finset.card_range, mul_comm]
  have hbase : ∑ i ∈ Finset.range w.devsize.toNat, baseBytes (w.mxjDevice i) =
      1690 + ∑ j ∈ Finset.range w.joinedCount,
        baseBytes (w.mxjDevice (fixedDevices.length + j)) := by
    rw [hsize, Finset.sum_range_add, hw.base_fixed]
  rw [bytes_deviceListText _ (by omega), Finset.sum_add_distrib, hbase, hjoined]
  unfold World.digits
  omega

end World.Regular

section

variable [JsonC]

theorem regular_started (start : Tm) : (World.started start).Regular where
  fixed := keepsFixed_started start
  distinct := distinct_started start
  unnamed := by
    have hblank := blankBehind_started start
    intro i hi
    apply hblank
    rw [devsize_started]
    exact hi

theorem regular_step (w : World) (x : Input) (hw : w.Regular) : (gateway.step w x).1.Regular where
  fixed := keepsFixed_step w x hw.fixed
  distinct := distinct_step w x hw.distinct
  unnamed := fun i hi => (name_step w x i).trans (hw.unnamed i hi)

theorem regular_built {w v : World} (hw : w.Regular) {x : Input} (hv : v ∈ x.built w) :
    v.Regular := by
  cases x with
  | tick now => exact absurd hv (by simp [Input.built])
  | frame now behind rx len =>
    obtain ⟨h, hsettled⟩ := built_settled hv
    have hafter := frame_settled (memory rx behind) len w now
    apply World.Regular.of_same (regular_step w (.frame now behind rx len) hw)
    · rw [entries_settled hsettled]
      exact (entries_settled hafter).symm
    · intro i
      obtain ⟨s, hs⟩ := hsettled.slot i
      rw [hs, name_step]
      exact name_heard _ len w i

end

/-- The size of `json_str` and of `str2`. -/
def jsonStrSize : ℕ := 2000

/-- If the step runs `build_json`, the text and its NUL fit into the buffers. -/
def Input.BuildsFitting [JsonC] (w : World) (x : Input) : Prop :=
  ∀ v ∈ x.built w, v.jsonStr.utf8ByteSize + 1 ≤ jsonStrSize

/-- If the step runs `build_json`, the sensors that joined and the digits of the table leave
room for the text. -/
def Input.LeavesRoom [JsonC] (w : World) (x : Input) : Prop :=
  ∀ v ∈ x.built w, 62 * v.joinedCount + v.digits ≤ 277

theorem buildsFitting_iff {w : World} (hw : w.Regular) (x : Input) :
    letI := spacedJsonC
    x.BuildsFitting w ↔ x.LeavesRoom w := by
  let _ := spacedJsonC
  have hbytes : ∀ v ∈ x.built w,
      v.jsonStr.utf8ByteSize = 1722 + 62 * v.joinedCount + v.digits := by
    intro v hv
    have hfresh : v.Fresh := by
      cases x with
      | tick now => exact absurd hv (by simp [Input.built])
      | frame now behind rx len => exact built_fresh hv
    rw [hfresh]
    exact (regular_built hw hv).text_bytes
  have hmax : jsonStrSize = 2000 := rfl
  constructor
  · intro h v hv
    have hfit := h v hv
    rw [hbytes v hv] at hfit
    omega
  · intro h v hv
    have hroom := h v hv
    rw [hbytes v hv]
    omega

/-- In a run from the start, every text fits its buffers if and only if whenever `build_json`
runs, 62 for each sensor that joined and the decimal digits of the table are at most 277. -/
theorem json_fits_iff (start : Tm) (xs : List Input) :
    letI := spacedJsonC
    gateway.Along (fun w x => x.BuildsFitting w) (World.started start) xs ↔
      gateway.Along (fun w x => x.LeavesRoom w) (World.started start) xs :=
  letI := spacedJsonC
  Transducer.along_congr (fun w x hw _ => regular_step w x hw) (fun _ x hw => buildsFitting_iff hw x)
    (regular_started start) xs

/-- With one sensor more than the fixed devices the text fits whatever the states, with
four more it never does. -/
theorem leavesRoom_of_joinedCount {v : World} (hv : v.Regular) :
    (v.joinedCount ≤ 1 → 62 * v.joinedCount + v.digits ≤ 277) ∧
      (4 ≤ v.joinedCount → 277 < 62 * v.joinedCount + v.digits) := by
  have hge := hv.size_ge
  have hnineteen : fixedDevices.length = 19 := rfl
  have hsize : v.devsize.toNat = fixedDevices.length + v.joinedCount := by
    unfold World.joinedCount
    omega
  have hdigits := v.digits_bounds
  constructor
  · intro h
    omega
  · intro h
    omega

theorem not_leavesRoom_of_joins [JsonC] {w : World} (hw : w.Regular) {x : Input} (hx : x.Joins w)
    (hcount : 4 ≤ (gateway.step w x).1.joinedCount) : ¬ x.LeavesRoom w := by
  intro h
  have hover := (leavesRoom_of_joinedCount (regular_step w x hw)).2 hcount
  have hroom := h _ (step_built hx)
  omega

/-- Four buttons join. -/
theorem json_overflow :
    letI := spacedJsonC
    ¬ gateway.Along (fun w x => x.BuildsFitting w) (World.started march) (joins 4) := by
  let _ := spacedJsonC
  intro h
  have hids := ids_joins march (show 3 ≤ 181 by decide)
  have hafter := ids_joins march (show 4 ≤ 181 by decide)
  have hregular := Transducer.after_preserves regular_step (regular_started march) (joins 3)
  have hjoins := joinFrame_joins (lookup_joins (show 3 ≤ 181 by decide) hids)
  rw [joins_succ] at h hafter
  rw [gateway.along_append] at h
  rw [gateway.after_append_singleton] at hafter
  have hsize := devsize_joins hafter
  apply not_leavesRoom_of_joins hregular hjoins
  · unfold World.joinedCount
    rw [hsize]
    decide
  · exact (buildsFitting_iff hregular _).mp h.2.1

end IdolGateway.ZbClient
