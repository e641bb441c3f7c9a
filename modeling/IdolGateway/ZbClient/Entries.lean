import IdolGateway.ZbClient.FrameEffect
import IdolGateway.ZbClient.TickEffect

namespace IdolGateway.ZbClient

open Procedure

/-- Everything about a device but its heart beat and its states. -/
def MxjDevice.identity (d : MxjDevice) : MxjDevice := { d with heart := 0, state := fun _ => 0 }

def World.entries (w : World) : List MxjDevice :=
  (List.range w.devsize.toNat).map fun i => (w.mxjDevice i).identity

def FixedDevice.entry (f : FixedDevice) : MxjDevice :=
  ⟨f.id, f.type, 0, f.idx, some f.name, fun _ => 0, 1⟩

def World.newEntry (w : World) (id : UInt16) (type : UInt8) : MxjDevice :=
  { (w.mxjDevice w.devsize.toNat).identity with id := id, type := type, idx := 1, registered := 1 }

theorem identity_name (d : MxjDevice) : d.identity.name = d.name := rfl

theorem entries_length (w : World) : w.entries.length = w.devsize.toNat := by
  simp [World.entries]

theorem entries_getElem (w : World) (i : ℕ) (h : i < w.entries.length) :
    w.entries[i] = (w.mxjDevice i).identity := by
  simp [World.entries]

theorem World.ids_getElem? (w : World) {i : ℕ} (hi : i < w.devsize.toNat) :
    (w.entries.map MxjDevice.id)[i]? = some (w.mxjDevice i).id := by
  have hlt : i < w.entries.length := by rwa [entries_length]
  rw [List.getElem?_map, List.getElem?_eq_getElem hlt, entries_getElem]
  rfl

theorem entries_congr {w w' : World} (hsize : w'.devsize = w.devsize)
    (hslot : ∀ i < w.devsize.toNat, (w'.mxjDevice i).identity = (w.mxjDevice i).identity) :
    w'.entries = w.entries := by
  unfold World.entries
  rw [hsize]
  exact List.map_congr_left fun i hi => hslot i (List.mem_range.mp hi)

theorem lookup_eq_none_iff (w : World) (id : UInt16) :
    w.lookup id = none ↔ ∀ e ∈ w.entries, e.id ≠ id := by
  unfold World.lookup World.entries
  rw [List.find?_eq_none, List.forall_mem_map]
  simp [MxjDevice.identity]

theorem lookup_eq_some_iff (w : World) (id : UInt16) (i : ℕ) :
    w.lookup id = some i ↔
      i < w.devsize.toNat ∧ (w.mxjDevice i).id = id ∧ ∀ j < i, (w.mxjDevice j).id ≠ id := by
  unfold World.lookup
  rw [List.find?_range_eq_some]
  simp only [decide_eq_true_eq, List.mem_range, Bool.not_eq_true', decide_eq_false_iff_not]
  constructor
  · rintro ⟨hid, hi, hj⟩
    exact ⟨hi, hid, hj⟩
  · rintro ⟨hi, hid, hj⟩
    exact ⟨hid, hi, hj⟩

theorem entries_settled {w₀ w : World} {h : ℤ} (hw : w₀.Settled h w) : w.entries = w₀.entries := by
  apply entries_congr hw.devsize
  intro i _
  obtain ⟨s, hs⟩ := hw.slot i
  rw [hs]
  rfl

theorem entries_beat (w : World) (id : UInt16) : (w.beat id).entries = w.entries := by
  apply entries_congr (w.devsize_beat id)
  intro i _
  obtain ⟨h, hi⟩ := w.beat_mxjDevice id i
  rw [hi]
  rfl

/-- A store into the slot behind the table that counts it in, if there is room. -/
theorem entries_grown {w w' : World} {e : MxjDevice}
    (hold : ∀ i < w.devsize.toNat, (w'.mxjDevice i).identity = (w.mxjDevice i).identity)
    (hnew : (w'.mxjDevice w.devsize.toNat).identity = e)
    (hsize : w'.devsize = if w.devsize.toNat < devSize then w.devsize + 1 else w.devsize) :
    w'.entries = if w.devsize.toNat < devSize then w.entries ++ [e] else w.entries := by
  by_cases h : w.devsize.toNat < devSize
  · have hn : w'.devsize.toNat = w.devsize.toNat + 1 := by
      have h' : w.devsize.toNat < 200 := h
      rw [hsize, if_pos h, UInt8.toNat_add]
      simp only [UInt8.reduceToNat]
      omega
    rw [if_pos h]
    unfold World.entries
    rw [hn, List.range_succ, List.map_append, List.map_singleton, hnew]
    congr 1
    exact List.map_congr_left fun i hi => hold i (List.mem_range.mp hi)
  · rw [if_neg h] at hsize ⊢
    exact entries_congr hsize hold

theorem entries_joined (w : World) (id : UInt16) (type : UInt8) :
    (w.joined id type).entries =
      if w.devsize.toNat < devSize then w.entries ++ [w.newEntry id type] else w.entries := by
  apply entries_grown
  · intro i hi
    have hne : i ≠ w.devsize.toNat := by omega
    simp [World.joined, hne]
  · simp [World.joined, World.newEntry, MxjDevice.identity]
  · rfl

/-- The entry a frame appends: that of a joining sensor, while there is room. -/
def World.appends (w : World) (mem : Loc → UInt8) (len : UInt8) : List MxjDevice :=
  match w.joinType mem len with
  | some type => if w.devsize.toNat < devSize then [w.newEntry (idOf mem len) type] else []
  | none => []

/-- What is appended is a sensor that was not in the table, and there is room for it. -/
theorem World.appends_cases (w : World) (mem : Loc → UInt8) (len : UInt8) :
    w.appends mem len = [] ∨ ∃ type, w.joinType mem len = some type ∧
      w.lookup (idOf mem len) = none ∧ w.devsize.toNat < devSize ∧
      w.appends mem len = [w.newEntry (idOf mem len) type] := by
  unfold World.appends
  cases hjoin : w.joinType mem len with
  | none => exact Or.inl rfl
  | some type =>
    have hnone : w.lookup (idOf mem len) = none := by
      by_contra hne
      rw [World.joinType, if_neg hne] at hjoin
      exact absurd hjoin (by simp)
    dsimp only
    by_cases h : w.devsize.toNat < devSize
    · rw [if_pos h]
      exact Or.inr ⟨type, rfl, hnone, h, rfl⟩
    · rw [if_neg h]
      exact Or.inl rfl

theorem entries_heard (mem : Loc → UInt8) (len : UInt8) (w : World) :
    (w.heard mem len).entries = w.entries ++ w.appends mem len := by
  unfold World.heard World.appends
  by_cases hlooks : LooksUp (mem (.rx 0))
  · rw [if_pos hlooks]
    cases w.joinType mem len with
    | some type =>
      simp only [entries_joined]
      by_cases h : w.devsize.toNat < devSize
      · rw [if_pos h, if_pos h]
      · rw [if_neg h, if_neg h, List.append_nil]
    | none =>
      by_cases hmotion : IsMotion mem len
      · simp only [if_pos hmotion, entries_beat, List.append_nil]
      · simp only [if_neg hmotion, entries_beat, List.append_nil]
  · have h18 : mem (.rx 0) ≠ mxjXiaomi18 := fun h => hlooks (Or.inr (Or.inr (Or.inl h)))
    rw [if_neg hlooks, w.joinType_of_ne mem len h18, List.append_nil]

theorem entries_frame [JsonC] (mem : Loc → UInt8) (len : UInt8) (now : Tm) (w : World) :
    ((recieveUsart now len).run mem w).state.entries = w.entries ++ w.appends mem len := by
  rw [entries_settled (frame_settled mem len w now), entries_heard]

theorem entries_ticked (w : World) (now : Tm) : (w.ticked now).entries = w.entries := by
  apply entries_congr (show (w.ticked now).devsize = w.devsize from rfl)
  intro i _
  obtain ⟨h, hi⟩ := w.ticked_mxjDevice now i
  rw [hi]
  rfl

def World.appended (w : World) (f : FixedDevice) : World :=
  { w with
    mxjDevice := Function.update w.mxjDevice w.devsize.toNat
      { w.mxjDevice w.devsize.toNat with
        id := f.id, type := f.type, idx := f.idx, heart := 0, name := some f.name, registered := 1 }
    devsize := if w.devsize.toNat < devSize then w.devsize + 1 else w.devsize }

theorem run_appendFixed (mem : Loc → UInt8) (w : World) (f : FixedDevice) :
    (appendFixed f).run mem w = ⟨(), w.appended f, [.store w.devsize.toNat]⟩ := by
  unfold appendFixed World.appended
  rw [run_gets_bind, run_bind, run_setDevice]
  dsimp only
  rw [run_when]
  by_cases h : w.devsize.toNat < devSize
  · rw [if_pos h, if_pos h]
    rfl
  · rw [if_neg h, if_neg h]
    rfl

theorem entries_appended (w : World) (f : FixedDevice) :
    (w.appended f).entries =
      if w.devsize.toNat < devSize then w.entries ++ [f.entry] else w.entries := by
  apply entries_grown
  · intro i hi
    have hne : i ≠ w.devsize.toNat := by omega
    simp [World.appended, hne]
  · simp [World.appended, FixedDevice.entry, MxjDevice.identity]
  · rfl

theorem run_setup (mem : Loc → UInt8) (w : World) (fs : List FixedDevice) :
    ((each appendFixed fs).run mem w).state = fs.foldl World.appended w := by
  induction fs generalizing w with
  | nil => rfl
  | cons f fs ih => rw [each, run_bind_state, run_appendFixed, ih, List.foldl_cons]

theorem devsize_appended {w : World} (f : FixedDevice) (hroom : w.devsize.toNat < devSize) :
    (w.appended f).devsize.toNat = w.devsize.toNat + 1 := by
  rw [← entries_length, entries_appended, if_pos hroom, List.length_append, entries_length,
    List.length_singleton]

theorem entries_setup (w : World) (fs : List FixedDevice)
    (hroom : w.devsize.toNat + fs.length ≤ devSize) :
    (fs.foldl World.appended w).entries = w.entries ++ fs.map FixedDevice.entry := by
  induction fs generalizing w with
  | nil => simp
  | cons f fs ih =>
    have hlt : w.devsize.toNat < devSize := by
      simp only [List.length_cons] at hroom
      omega
    have hentries : (w.appended f).entries = w.entries ++ [f.entry] := by
      rw [entries_appended, if_pos hlt]
    rw [List.foldl_cons, ih, hentries, List.append_assoc]
    · rfl
    · rw [devsize_appended f hlt]
      simp only [List.length_cons] at hroom
      omega

/-- Everything `main` does to the globals before its loop. -/
theorem started_eq [JsonC] (now : Tm) : ∃ text, World.started now =
    { fixedDevices.foldl World.appended { World.zero with tblock := now } with jsonStr := text } := by
  unfold World.started mainSetup
  rw [run_bind_state, run_bind_state, run_bind_state, run_setup, run_bind_state, run_buildJson,
    run_emit, run_emit, run_modify]
  exact ⟨_, rfl⟩

theorem setup_timers (w : World) (fs : List FixedDevice) :
    (fs.foldl World.appended w).humand = w.humand ∧
      (fs.foldl World.appended w).flagHour = w.flagHour := by
  induction fs generalizing w with
  | nil => exact ⟨rfl, rfl⟩
  | cons f fs ih => exact ih _

theorem timers_started [JsonC] (now : Tm) :
    (World.started now).humand = 0 ∧ (World.started now).flagHour = 0 := by
  obtain ⟨text, hw⟩ := started_eq now
  have hsetup := setup_timers { World.zero with tblock := now } fixedDevices
  rw [hw]
  dsimp only
  rw [hsetup.1, hsetup.2]
  exact ⟨rfl, rfl⟩

theorem entries_jsonStr (w : World) (text : String) :
    ({ w with jsonStr := text } : World).entries = w.entries := rfl

theorem entries_started [JsonC] (now : Tm) :
    (World.started now).entries = fixedDevices.map FixedDevice.entry := by
  obtain ⟨text, hw⟩ := started_eq now
  have hroom : World.zero.devsize.toNat + fixedDevices.length ≤ devSize := by decide
  rw [hw, entries_jsonStr, entries_setup { World.zero with tblock := now } _ hroom]
  rfl

theorem devsize_started [JsonC] (now : Tm) : (World.started now).devsize.toNat = 19 := by
  rw [← entries_length, entries_started, List.length_map]
  rfl

def Input.appends (w : World) : Input → List MxjDevice
  | .frame _ behind rx len => w.appends (memory rx behind) len
  | .tick _ => []

theorem step_tick [JsonC] (w : World) (now : Tm) :
    gateway.step w (.tick now) = (w.ticked now, w.tickOut) := by
  simp only [gateway, Input.run, run_tick]

theorem entries_step [JsonC] (w : World) (x : Input) :
    (gateway.step w x).1.entries = w.entries ++ x.appends w := by
  cases x with
  | frame now behind rx len => exact entries_frame _ len now w
  | tick now =>
    rw [step_tick, entries_ticked]
    exact (List.append_nil _).symm

def World.Distinct (w : World) : Prop := (w.entries.map MxjDevice.id).Nodup

theorem distinct_frame [JsonC] (mem : Loc → UInt8) (len : UInt8) (now : Tm) {w : World}
    (hw : w.Distinct) : ((recieveUsart now len).run mem w).state.Distinct := by
  unfold World.Distinct at *
  rw [entries_frame]
  rcases w.appends_cases mem len with hnil | ⟨type, -, hnone, -, hnew⟩
  · rw [hnil, List.append_nil]
    exact hw
  · have hfresh : (w.newEntry (idOf mem len) type).id ∉ w.entries.map MxjDevice.id := by
      intro hmem
      obtain ⟨e, he, hid⟩ := List.mem_map.mp hmem
      exact (lookup_eq_none_iff w _).mp hnone e he hid
    rw [hnew, List.map_append, List.map_singleton, ← List.concat_eq_append]
    exact hw.concat hfresh

theorem distinct_step [JsonC] (w : World) (x : Input) (hw : w.Distinct) :
    (gateway.step w x).1.Distinct := by
  cases x with
  | frame now behind rx len => exact distinct_frame _ len now hw
  | tick now =>
    unfold World.Distinct
    rw [entries_step]
    exact (List.append_nil w.entries).symm ▸ hw

theorem distinct_started [JsonC] (now : Tm) : (World.started now).Distinct := by
  unfold World.Distinct
  rw [entries_started]
  decide

theorem World.Distinct.lookup {w : World} (hw : w.Distinct) {i : ℕ} (hi : i < w.devsize.toNat) :
    w.lookup (w.mxjDevice i).id = some i := by
  rw [lookup_eq_some_iff]
  refine ⟨hi, rfl, fun j hj hid => ?_⟩
  have hjlt : j < w.devsize.toNat := lt_trans hj hi
  have hsame : (w.entries.map MxjDevice.id)[j]? = (w.entries.map MxjDevice.id)[i]? := by
    rw [w.ids_getElem? hjlt, w.ids_getElem? hi, hid]
  have hlen : j < (w.entries.map MxjDevice.id).length := by
    rw [List.length_map, entries_length]
    exact hjlt
  have hji : j = i := (List.getElem?_inj hlen hw).mp hsame
  omega

/-- The fixed devices stand at the start of the table, in their order. -/
def World.KeepsFixed (w : World) : Prop := fixedDevices.map FixedDevice.entry <+: w.entries

theorem keepsFixed_step [JsonC] (w : World) (x : Input) (hw : w.KeepsFixed) :
    (gateway.step w x).1.KeepsFixed := by
  unfold World.KeepsFixed at *
  rw [entries_step]
  exact hw.trans (List.prefix_append _ _)

theorem keepsFixed_started [JsonC] (now : Tm) : (World.started now).KeepsFixed := by
  unfold World.KeepsFixed
  rw [entries_started]

theorem keepsFixed_after [JsonC] {w : World} (hw : w.KeepsFixed) (xs : List Input) :
    (gateway.after w xs).KeepsFixed :=
  Transducer.after_preserves keepsFixed_step hw xs

namespace World.KeepsFixed

variable {w : World} {k : ℕ} {f : FixedDevice}

theorem slot (hw : w.KeepsFixed) (hk : fixedDevices[k]? = some f) :
    k < w.devsize.toNat ∧ (w.mxjDevice k).identity = f.entry := by
  have hentry : w.entries[k]? = some f.entry := by
    obtain ⟨rest, hrest⟩ := hw
    have hlt : k < fixedDevices.length := (List.getElem?_eq_some_iff.mp hk).choose
    rw [← hrest, List.getElem?_append_left (by simpa using hlt), List.getElem?_map, hk]
    rfl
  obtain ⟨hlt, heq⟩ := List.getElem?_eq_some_iff.mp hentry
  rw [entries_getElem] at heq
  exact ⟨entries_length w ▸ hlt, heq⟩

theorem type (hw : w.KeepsFixed) (hk : fixedDevices[k]? = some f) : (w.mxjDevice k).type = f.type :=
  congrArg MxjDevice.type (hw.slot hk).2

theorem id (hw : w.KeepsFixed) (hk : fixedDevices[k]? = some f) : (w.mxjDevice k).id = f.id :=
  congrArg MxjDevice.id (hw.slot hk).2

theorem name (hw : w.KeepsFixed) (hk : fixedDevices[k]? = some f) :
    (w.mxjDevice k).name = some f.name :=
  congrArg MxjDevice.name (hw.slot hk).2

theorem lookup (hw : w.KeepsFixed) (hk : fixedDevices[k]? = some f) : w.lookup f.id = some k := by
  have hnd : (fixedDevices.map FixedDevice.id).Nodup := by decide
  rw [lookup_eq_some_iff]
  refine ⟨(hw.slot hk).1, hw.id hk, fun j hj hid => ?_⟩
  obtain ⟨hklt, hkf⟩ := List.getElem?_eq_some_iff.mp hk
  have hjlt : j < fixedDevices.length := lt_trans hj hklt
  have hjf : fixedDevices[j]? = some fixedDevices[j] := List.getElem?_eq_getElem hjlt
  have hsame : (fixedDevices.map FixedDevice.id)[j]? = (fixedDevices.map FixedDevice.id)[k]? := by
    rw [List.getElem?_map, List.getElem?_map, hjf, hk, Option.map_some, Option.map_some,
      ← hw.id hjf, hid]
  have hjk : j = k := (List.getElem?_inj (by simpa using hjlt) hnd).mp hsame
  omega

end World.KeepsFixed

end IdolGateway.ZbClient
