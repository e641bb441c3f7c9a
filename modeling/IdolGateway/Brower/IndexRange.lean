import IdolGateway.Brower.Registration

namespace IdolGateway.Brower

open Procedure
open ZbClient (Json UsartCall recognised copied modelTypes memory mxjCtrlUp mxjRegisterRequest
  mxjRegisterOk mxjSendState mxjXiaomi18)

def Out.InRange : Out → Prop
  | .usart _ => True
  | .device i => 0 ≤ i ∧ i < devSize
  | .light k => 0 ≤ k ∧ k < 3
  | .state k => 0 ≤ k ∧ k < 3

instance : DecidablePred Out.InRange := fun o =>
  match o with
  | .usart _ => isTrue trivial
  | .device _ | .light _ | .state _ => inferInstanceAs (Decidable (_ ∧ _))

/-- The switch `id` is configured for channels of a device that is not in the table. -/
def World.TogglesUnknown (w : World) (id : UInt16) : Prop :=
  ∃ i, w.lookup id.toNat = some i ∧ (w.mxjDevice i).type = 7 ∧
    w.lookup (w.mxjDevice i).devid.toNat = none ∧ ∃ k, (w.mxjDevice i).light k = 1

/-- The condition on an event and the table it finds. -/
def Event.Safe [Tokener] (w : World) : Event → Prop
  | .frame rx behind len =>
    (rx 0 = mxjCtrlUp → ¬ w.TogglesUnknown (frameId rx len)) ∧
    (rx 0 = mxjRegisterRequest → ¬ w.NoRoomFor (frameId rx len)) ∧
    (rx 0 = mxjXiaomi18 → Joins rx behind len → ¬ w.NoRoomFor (frameId rx len))
  | .post p => ∀ obj ∈ p.devices,
    w.lookup (jsonObjectGetInt (obj.member "id")) ≠ none → Fits obj

section

variable {mem : Stray → UInt8} {w : World}

theorem inRange_device {i : ℕ} (hi : i < devSize) : (Out.device i).InRange :=
  ⟨Int.natCast_nonneg i, Int.ofNat_lt.mpr hi⟩

theorem inRange_rows {n : ℕ} (hn : n ≤ devSize) :
    ∀ o ∈ (List.range n).flatMap rowReads, o.InRange := by
  intro o ho
  obtain ⟨i, hi, ho⟩ := List.mem_flatMap.mp ho
  rcases List.mem_cons.mp ho with rfl | ho
  · exact inRange_device (lt_of_lt_of_le (List.mem_range.mp hi) hn)
  · have hconst : ∀ o ∈ [Out.light 0, .light 1, .light 2, .state 0, .state 1, .state 2],
        o.InRange := by decide
    exact hconst o ho

theorem outAll_findDev (hw : w.Valid) (id : ℤ) : OutAll Out.InRange (findDev id) mem w := by
  intro o ho
  rw [run_findDev] at ho
  obtain ⟨i, hi, rfl⟩ := mem_probes w ho
  exact inRange_device (lt_of_lt_of_le (List.mem_range.mp hi) hw.devsize_le)

theorem lookup_lt_devSize (hw : w.Valid) {id : ℤ} {i : ℕ} (h : w.lookup id = some i) :
    i < devSize :=
  lt_of_lt_of_le (lookup_lt h) hw.devsize_le

theorem outAll_device {i : ℕ} (hi : i < devSize) : OutAll Out.InRange (device i) mem w := by
  intro o ho
  rw [List.mem_singleton.mp ho]
  exact inRange_device hi

theorem outAll_usarts (cs : List UsartCall) :
    OutAll Out.InRange (emit (cs.map .usart)) mem w := by
  intro o ho
  obtain ⟨c, -, rfl⟩ := List.mem_map.mp ho
  trivial

theorem outAll_usart (c : UsartCall) : OutAll Out.InRange (emit [.usart c]) mem w :=
  outAll_usarts [c]

theorem inRange_pair {i : ℕ} (hi : i < devSize) {o : Out} (ho : o.InRange) :
    (∀ x ∈ [o, .device i], x.InRange) ∧ ∀ x ∈ [.device i, o], x.InRange := by
  have hdev := inRange_device hi
  constructor
  · intro x hx
    rcases List.mem_pair.mp hx with rfl | rfl
    · exact ho
    · exact hdev
  · intro x hx
    rcases List.mem_pair.mp hx with rfl | rfl
    · exact hdev
    · exact ho

theorem inRange_channel (k : Fin 3) : (Out.light k).InRange ∧ (Out.state k).InRange := by
  revert k
  decide

theorem outAll_lightAt {i : ℕ} (hi : i < devSize) (k : Fin 3) :
    OutAll Out.InRange (lightAt i k) mem w := by
  intro o ho
  rw [run_lightAt] at ho
  exact (inRange_pair hi (inRange_channel k).1).2 o ho

theorem outAll_toggled {i : ℕ} (hi : i < devSize) {j : Option ℕ} (hj : ∀ i ∈ j, i < devSize)
    (k : Fin 3) : OutAll Out.InRange (toggled i j k) mem w ↔
      ((w.mxjDevice i).light k = 1 → j ≠ none) := by
  rw [toggled, outAll_bind, run_lightAt]
  dsimp only
  rw [and_iff_right (outAll_lightAt hi k)]
  by_cases hl : (w.mxjDevice i).light k = 1
  · rw [if_pos hl, outAll_bind, run_stateAt, and_iff_left (outAll_pure _), forall_prop_of_true hl]
    cases j with
    | none =>
      refine iff_of_false ?_ (fun h => h rfl)
      intro h
      exact absurd (h (.device (-1)) List.mem_cons_self).1 (by decide)
    | some j =>
      refine iff_of_true ?_ (Option.some_ne_none j)
      intro o ho
      rw [run_stateAt] at ho
      exact (inRange_pair (hj j rfl) (inRange_channel k).2).2 o ho
  · rw [if_neg hl]
    exact iff_of_true (outAll_pure _) (fun h => absurd h hl)

theorem outAll_passedOn {i : ℕ} (hi : i < devSize) (v : UInt8) (k : Fin 3) :
    OutAll Out.InRange (passedOn i v k) mem w := by
  rw [passedOn, outAll_bind]
  exact ⟨outAll_lightAt hi k, outAll_pure _⟩

theorem outAll_sendTo {i : ℕ} (hi : i < devSize) {msg : Fin 3 → Handler UInt8}
    (hmsg : ∀ k w, ((msg k).run mem w).state = w) :
    OutAll Out.InRange (sendTo i msg) mem w ↔ ∀ k, OutAll Out.InRange (msg k) mem w := by
  rw [forall_channel]
  simp only [sendTo, outAll_bind, hmsg, run_device, outAll_device hi, outAll_usart, and_true]

theorem outAll_ctrlUp (hw : w.Valid) (rx : ℕ → UInt8) (id : UInt16) :
    OutAll Out.InRange (ctrlUp rx id) mem w ↔ ¬ w.TogglesUnknown id := by
  rw [ctrlUp, outAll_bind, run_findDev, and_iff_right (outAll_findDev hw _)]
  cases hi : w.lookup id.toNat with
  | none =>
    refine iff_of_true (outAll_pure _) ?_
    rintro ⟨i, hsome, -⟩
    rw [hi] at hsome
    exact absurd hsome.symm (Option.some_ne_none i)
  | some i =>
    have hlt := lookup_lt_devSize hw hi
    dsimp only
    rw [outAll_bind, run_device, and_iff_right (outAll_device hlt)]
    dsimp only
    by_cases h7 : (w.mxjDevice i).type = 7
    · rw [if_pos h7, outAll_bind, run_findDev, and_iff_right (outAll_findDev hw _),
        outAll_sendTo hlt (quiet_toggled i _)]
      have hlight : ∀ j ∈ w.lookup (w.mxjDevice i).devid.toNat, j < devSize :=
        fun _ hj => lookup_lt_devSize hw hj
      simp only [outAll_toggled hlt hlight]
      constructor
      · rintro h ⟨i', hi', -, hnone, k, hk⟩
        rw [hi, Option.some_inj] at hi'
        subst hi'
        exact h k hk hnone
      · intro h k hk hnone
        exact h ⟨i, hi, h7, hnone, k, hk⟩
    · rw [if_neg h7]
      refine iff_of_true ?_ ?_
      · split_ifs
        · rw [outAll_bind, run_findDev]
          refine ⟨outAll_findDev hw _, ?_⟩
          exact (outAll_sendTo hlt (quiet_passedOn i _)).mpr (outAll_passedOn hlt _)
        · exact outAll_pure _
      · rintro ⟨i', hi', htype, -⟩
        rw [hi, Option.some_inj] at hi'
        subst hi'
        exact h7 htype

theorem outAll_setState {i : ℕ} (hi : i < devSize) {k : ℕ} (hk : k < 3) (v : UInt8) :
    OutAll Out.InRange (setState i k v) mem w := by
  intro o ho
  rw [run_setState] at ho
  exact (inRange_pair hi (inRange_channel ⟨k, hk⟩).2).1 o ho

section

variable [Tokener]

theorem outAll_buildJson (hw : w.Valid) : OutAll Out.InRange buildJson mem w := by
  intro o ho
  rw [run_buildJson] at ho
  exact inRange_rows hw.devsize_le o ho

theorem outAll_appendDevice (hw : w.Valid) (id : UInt16) (type idx : UInt8) :
    OutAll Out.InRange (appendDevice id type idx) mem w ↔ w.devsize.toNat ≠ devSize := by
  unfold OutAll
  rw [run_appendDevice, List.forall_mem_cons]
  by_cases hn : w.devsize.toNat < devSize
  · refine iff_of_true ⟨inRange_device hn, ?_⟩ (ne_of_lt hn)
    apply inRange_rows
    rw [devsize_append_of_lt hn]
    exact hn
  · have hfull : w.devsize.toNat = devSize := le_antisymm hw.devsize_le (not_lt.mp hn)
    refine iff_of_false ?_ (fun h => h hfull)
    intro h
    exact hn (Int.ofNat_lt.mp h.1.2)

theorem outAll_registerRequest (hw : w.Valid) (rx : ℕ → UInt8) (id : UInt16) :
    OutAll Out.InRange (registerRequest rx id) mem w ↔ ¬ w.NoRoomFor id := by
  rw [registerRequest, outAll_bind, run_findDev, and_iff_right (outAll_findDev hw _), outAll_bind,
    outAll_when, outAll_appendDevice hw]
  constructor
  · intro h hroom
    exact h.1 hroom.1 hroom.2
  · intro h
    exact ⟨fun hnone hfull => h ⟨hnone, hfull⟩, outAll_usarts _⟩

theorem outAll_sendState (hw : w.Valid) (rx : ℕ → UInt8) (id : UInt16) :
    OutAll Out.InRange (sendState rx id) mem w := by
  rw [sendState, outAll_bind, run_findDev]
  refine ⟨outAll_findDev hw _, ?_⟩
  cases hi : w.lookup id.toNat with
  | none => exact outAll_pure _
  | some i =>
    have hlt := lookup_lt_devSize hw hi
    have hkeep : ∀ k v, Triple mem (Good w) (setState i k v) fun _ => Good w :=
      keeps_setState (stable_good w) i
    have hgood : Good w w := ⟨hw, .refl w⟩
    dsimp only
    rw [outAll_bind, outAll_bind, outAll_bind]
    refine ⟨outAll_setState hlt (by omega) _, outAll_setState hlt (by omega) _,
      outAll_setState hlt (by omega) _, ?_⟩
    exact outAll_buildJson (hkeep 2 _ _ (hkeep 1 _ _ (hkeep 0 _ _ hgood))).1

theorem outAll_xiaomi18 (hw : w.Valid) (rx behind : ℕ → UInt8) (len : UInt8) (id : UInt16) :
    OutAll Out.InRange (xiaomi18 rx behind len id (frameCid rx len)) mem w ↔
      (Joins rx behind len → ¬ w.NoRoomFor id) := by
  rw [xiaomi18, outAll_bind, run_findDev, and_iff_right (outAll_findDev hw _), outAll_when]
  unfold Joins World.NoRoomFor
  dsimp only
  cases recognised (memory rx behind) (copied (memory rx behind) 13 (rx 12).toNat) modelTypes with
  | none =>
    refine iff_of_true (fun _ => outAll_pure _) ?_
    intro h
    exact absurd rfl h.2.2.2
  | some type =>
    rw [outAll_appendDevice hw]
    constructor
    · rintro h ⟨hlen, hcid, hn, -⟩ ⟨hnone, hfull⟩
      exact h ⟨hlen, hcid, hn, hnone⟩ hfull
    · rintro h ⟨hlen, hcid, hn, hnone⟩ hfull
      exact h ⟨hlen, hcid, hn, Option.some_ne_none type⟩ ⟨hnone, hfull⟩

theorem outAll_recieveUsart (hw : w.Valid) (rx behind : ℕ → UInt8) (len : UInt8) :
    OutAll Out.InRange (recieveUsart rx behind len) mem w ↔
      (Event.frame rx behind len).Safe w := by
  unfold recieveUsart Event.Safe
  dsimp only
  -- a frame has one command, so two of the three conditions are about other frames
  by_cases h1 : rx 0 = mxjCtrlUp
  · have h2 : rx 0 ≠ mxjRegisterRequest := by rw [h1]; decide
    have h18 : rx 0 ≠ mxjXiaomi18 := by rw [h1]; decide
    rw [if_pos h1, outAll_ctrlUp hw]
    exact ⟨fun h => ⟨fun _ => h, fun h => absurd h h2, fun h => absurd h h18⟩, fun h => h.1 h1⟩
  · rw [if_neg h1]
    by_cases h2 : rx 0 = mxjRegisterRequest
    · have h18 : rx 0 ≠ mxjXiaomi18 := by rw [h2]; decide
      rw [if_pos h2, outAll_registerRequest hw]
      exact ⟨fun h => ⟨fun h => absurd h h1, fun _ => h, fun h => absurd h h18⟩,
        fun h => h.2.1 h2⟩
    · rw [if_neg h2]
      by_cases h6 : rx 0 = mxjSendState
      · have h18 : rx 0 ≠ mxjXiaomi18 := by rw [h6]; decide
        rw [if_pos h6]
        exact iff_of_true (outAll_sendState hw rx _)
          ⟨fun h => absurd h h1, fun h => absurd h h2, fun h => absurd h h18⟩
      · rw [if_neg h6]
        by_cases h18 : rx 0 = mxjXiaomi18
        · rw [if_pos h18, outAll_xiaomi18 hw]
          exact ⟨fun h => ⟨fun h => absurd h h1, fun h => absurd h h2, fun _ => h⟩,
            fun h => h.2.2 h18⟩
        · rw [if_neg h18]
          exact iff_of_true (outAll_pure _)
            ⟨fun h => absurd h h1, fun h => absurd h h2, fun h => absurd h h18⟩

end

theorem inRange_state (k : ℕ) : (Out.state k).InRange ↔ k < 3 := by
  constructor
  · intro h
    exact Int.ofNat_lt.mp h.2
  · intro h
    exact (inRange_channel ⟨k, h⟩).2

theorem outAll_sendChannel {i : ℕ} (hi : i < devSize) (k : ℕ) (v : UInt8) :
    OutAll Out.InRange (sendChannel i k v) mem w := by
  unfold sendChannel
  split_ifs
  · exact (outAll_bind _ _).mpr ⟨outAll_device hi, outAll_usart _⟩
  · exact (outAll_bind _ _).mpr ⟨outAll_device hi, outAll_usart _⟩
  · exact (outAll_bind _ _).mpr ⟨outAll_device hi, outAll_usart _⟩
  · exact outAll_pure _

theorem outAll_postState {i : ℕ} (hi : i < devSize) (k : ℕ) (tempint : ℤ) :
    OutAll Out.InRange (postState i k tempint) mem w ↔ k < 3 := by
  rw [postState, outAll_bind, outAll_when]
  constructor
  · intro h
    apply (inRange_state k).mp
    apply h.1
    rw [run_stateAt]
    exact List.mem_cons_of_mem _ List.mem_cons_self
  · intro hk
    refine ⟨?_, fun _ => (outAll_bind _ _).mpr ⟨outAll_setState hi hk _, outAll_sendChannel hi k _⟩⟩
    intro o ho
    rw [run_stateAt] at ho
    exact (inRange_pair hi ((inRange_state k).mpr hk)).2 o ho

theorem zipIdx_lt_iff {α : Type} (xs : List α) (n : ℕ) :
    (∀ x ∈ xs.zipIdx, x.2 < n) ↔ xs.length ≤ n := by
  constructor
  · intro h
    by_contra hlt
    have hn : n < xs.length := not_le.mp hlt
    have hmem : (xs[n], n) ∈ xs.zipIdx := by
      rw [List.mem_zipIdx_iff_getElem?]
      exact List.getElem?_eq_getElem hn
    exact absurd (h _ hmem) (lt_irrefl n)
  · intro h x hx
    exact lt_of_lt_of_le (List.snd_lt_of_mem_zipIdx hx) h

theorem outAll_setLight {i : ℕ} (hi : i < devSize) (k : ℤ) (v : UInt8) :
    OutAll Out.InRange (setLight i k v) mem w ↔ 0 ≤ k ∧ k < 3 := by
  constructor
  · intro h
    exact h (.light k) List.mem_cons_self
  · intro hk o ho
    rw [run_setLight] at ho
    exact (inRange_pair hi (o := .light k) hk).1 o ho

variable [Tokener]

theorem outAll_postStatus {i : ℕ} (hi : i < devSize) (status : Json) :
    OutAll Out.InRange (postStatus i status) mem w ↔ (items status).length ≤ 3 := by
  rw [postStatus, outAll_each (P := fun _ => True) (fun _ => Triple.any _)
    (fun x s _ => outAll_postState hi x.2 _) trivial]
  exact zipIdx_lt_iff (items status) 3

theorem outAll_postLights {i : ℕ} (hi : i < devSize) (lights : Json) :
    OutAll Out.InRange (postLights i lights) mem w ↔ (¬ isNull lights →
      ∀ x ∈ items lights, 0 ≤ jsonObjectGetInt x ∧ jsonObjectGetInt x < 3) := by
  rw [postLights, outAll_when]
  apply imp_congr_right
  intro _
  have hzero : ∀ k : ℤ, 0 ≤ k ∧ k < 3 → ∀ w, OutAll Out.InRange (setLight i k 0) mem w :=
    fun k hk w => (outAll_setLight hi k 0).mpr hk
  rw [outAll_bind, and_iff_right (hzero 0 (by decide) _), outAll_bind,
    and_iff_right (hzero 1 (by decide) _), outAll_bind, and_iff_right (hzero 2 (by decide) _)]
  exact outAll_each (P := fun _ => True) (fun _ => Triple.any _)
    (fun x s _ => outAll_setLight hi _ 1) trivial

theorem outAll_postControl {i : ℕ} (hi : i < devSize) (control : Json) :
    OutAll Out.InRange (postControl i control) mem w ↔ (¬ isNull control →
      ¬ isNull (control.member "lights") → ∀ x ∈ items (control.member "lights"),
        0 ≤ jsonObjectGetInt x ∧ jsonObjectGetInt x < 3) := by
  rw [postControl, outAll_when]
  apply imp_congr_right
  intro _
  rw [outAll_bind, outAll_postLights hi]
  apply and_iff_right
  intro o ho
  rw [List.mem_singleton.mp ho]
  exact inRange_device hi

theorem outAll_postDevice (hw : w.Valid) (obj : Json) :
    OutAll Out.InRange (postDevice obj) mem w ↔
      (w.lookup (jsonObjectGetInt (obj.member "id")) ≠ none → Fits obj) := by
  rw [postDevice, outAll_bind, run_findDev, and_iff_right (outAll_findDev hw _)]
  cases hi : w.lookup (jsonObjectGetInt (obj.member "id")) with
  | none => exact iff_of_true (outAll_pure _) (fun h => absurd rfl h)
  | some i =>
    have hlt := lookup_lt_devSize hw hi
    dsimp only
    rw [outAll_bind, outAll_postControl hlt, outAll_postStatus hlt,
      forall_prop_of_true (Option.some_ne_none i), Fits]

theorem outAll_devices (hw : w.Valid) (objs : List Json) :
    OutAll Out.InRange (each postDevice objs) mem w ↔
      ∀ obj ∈ objs, w.lookup (jsonObjectGetInt (obj.member "id")) ≠ none → Fits obj := by
  have hstable := (stable_good w).and (stable_lookup w)
  refine outAll_each (fun obj => keeps_postDevice hstable obj) ?_ ⟨⟨hw, .refl w⟩, fun _ => rfl⟩
  intro obj w' h
  rw [outAll_postDevice h.1.1, h.2]

theorem outAll_postDevices (hw : w.Valid) (size : ℕ) (myObject : Json) :
    OutAll Out.InRange (postDevices size myObject) mem w ↔ ∀ obj ∈ items myObject,
      w.lookup (jsonObjectGetInt (obj.member "id")) ≠ none → Fits obj := by
  rw [postDevices, outAll_bind, outAll_devices hw, outAll_bind, outAll_when]
  apply and_iff_left
  refine ⟨fun _ => outAll_buildJson ?_, outAll_pure _⟩
  have hgood : Triple mem (Good w) (each postDevice (items myObject)) fun _ => Good w :=
    Triple.each fun obj => keeps_postDevice (stable_good w) obj
  exact (hgood w ⟨hw, .refl w⟩).1

theorem outAll_iteratePost (hw : w.Valid) (p : Post) :
    OutAll Out.InRange (iteratePost p) mem w ↔ (Event.post p).Safe w := by
  unfold Event.Safe
  dsimp only
  rcases iteratePost_cases p with ⟨myObject, hdevices, hpost⟩ | ⟨hnone, cs, ret, -, hpost⟩
  · rw [hpost, hdevices, outAll_postDevices hw]
  · rw [hpost, hnone]
    refine iff_of_true ?_ fun obj hobj => absurd hobj List.not_mem_nil
    exact (outAll_bind _ _).mpr ⟨outAll_usarts cs, outAll_pure _⟩

end

section

variable [Tokener]

theorem step_inRange_iff {w : World} (hw : w.Valid) (x : Input) :
    (∀ o ∈ (server.step w x).2, o.InRange) ↔ x.event.Safe w := by
  obtain ⟨event, outside⟩ := x
  cases event with
  | frame rx behind len => exact outAll_recieveUsart hw rx behind len
  | post p =>
    have hpost : OutAll Out.InRange (iteratePost p) outside w ↔ (Event.post p).Safe w :=
      outAll_iteratePost hw p
    apply Iff.trans (outAll_bind (iteratePost p) fun _ => pure ())
    rw [hpost]
    exact and_iff_left (outAll_pure _)

/-- Every index of a run is in range exactly if every event finds a table it is safe with. -/
theorem indices_in_range_iff (xs : List Input) :
    (∀ o ∈ server.outputs .started xs, o.InRange) ↔
      server.Along (fun w x => x.event.Safe w) .started xs := by
  have hvalid : ∀ (w : World) x, w.Valid → (server.step w x).1.Valid :=
    fun w x hw => (lasting_step (lasting_good w) w x ⟨hw, .refl w⟩).1
  exact Transducer.forall_outputs_iff hvalid (fun _ x hw => step_inRange_iff hw x) started_valid xs

end

def switchText : String :=
  "\x7b\"devices\":[\x7b\"id\":1,\"type\":7,\"control\":\x7b\"devid\":2,\"lights\":[0]\x7d," ++
  "\"status\":[0,0,0]\x7d]\x7d"

def switchDocument : Json :=
  .object [("devices", .array [.object [("id", .int 1), ("type", .int 7),
    ("control", .object [("devid", .int 2), ("lights", .array [.int 0])]),
    ("status", .array [.int 0, .int 0, .int 0])]])]

/-- The switch registers, is configured, and is pressed; the device 2 never registered. -/
def switchRun : List Input :=
  [received [2, 5, 0, 1, 7, 1], posted switchText, received [1, 3, 0, 1]]

theorem switch_out_of_range :
    letI := tabled switchText switchDocument
    ¬ ∀ o ∈ server.outputs .started switchRun, o.InRange := by
  decide +kernel

end IdolGateway.Brower
