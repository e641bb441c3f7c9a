import IdolGateway.Brower.Server

namespace IdolGateway.Brower

open Procedure
open ZbClient (Json JsonC recognised copied modelTypes memory mxjRegisterRequest mxjXiaomi18)

def MxjDevice.label (d : MxjDevice) : UInt16 × UInt8 × UInt8 := (d.id, d.type, d.idx)

def MxjDevice.LightSet (d : MxjDevice) : Prop := ∀ k, d.light k = 0 ∨ d.light k = 1

structure World.Valid (w : World) : Prop where
  devsize_le : w.devsize.toNat ≤ devSize
  id_inj : ∀ i < w.devsize.toNat, ∀ j < w.devsize.toNat,
    (w.mxjDevice i).id = (w.mxjDevice j).id → i = j
  lightSet : ∀ i, (w.mxjDevice i).LightSet

structure World.Grows (w w' : World) : Prop where
  devsize_le : w.devsize.toNat ≤ w'.devsize.toNat
  label : ∀ i < w.devsize.toNat, (w'.mxjDevice i).label = (w.mxjDevice i).label

theorem World.Grows.refl (w : World) : w.Grows w := ⟨le_rfl, fun _ _ => rfl⟩

theorem World.Grows.trans {w w' w'' : World} (h : w.Grows w') (h' : w'.Grows w'') :
    w.Grows w'' where
  devsize_le := h.devsize_le.trans h'.devsize_le
  label i hi := (h'.label i (lt_of_lt_of_le hi h.devsize_le)).trans (h.label i hi)

/-- A valid table that has grown out of `w₀`. -/
def Good (w₀ w : World) : Prop := w.Valid ∧ w₀.Grows w

section

variable {w₀ w : World}

theorem mxjDevice_set (i j : ℕ) (f : MxjDevice → MxjDevice) :
    (w.set i f).mxjDevice j = if j = i ∧ i < devSize then f (w.mxjDevice j) else w.mxjDevice j := by
  unfold World.set
  by_cases hi : i < devSize
  · by_cases hj : j = i
    · subst hj
      simp [hi]
    · simp [hi, hj]
  · simp [hi]

@[simp] theorem devsize_set (i : ℕ) (f : MxjDevice → MxjDevice) :
    (w.set i f).devsize = w.devsize := by
  unfold World.set
  split_ifs <;> rfl

@[simp] theorem jsonStr_set (i : ℕ) (f : MxjDevice → MxjDevice) :
    (w.set i f).jsonStr = w.jsonStr := by
  unfold World.set
  split_ifs <;> rfl

theorem label_set (i j : ℕ) {f : MxjDevice → MxjDevice} (hf : ∀ d, (f d).label = d.label) :
    ((w.set i f).mxjDevice j).label = (w.mxjDevice j).label := by
  rw [mxjDevice_set]
  split_ifs with h
  · exact hf _
  · rfl

theorem lightSet_set {i : ℕ} {f : MxjDevice → MxjDevice}
    (hf : ∀ d : MxjDevice, d.LightSet → (f d).LightSet) (hw : ∀ j, (w.mxjDevice j).LightSet)
    (j : ℕ) : ((w.set i f).mxjDevice j).LightSet := by
  rw [mxjDevice_set]
  split_ifs with h
  · exact hf _ (hw j)
  · exact hw j

theorem id_of_label {d d' : MxjDevice} (h : d.label = d'.label) : d.id = d'.id :=
  congrArg Prod.fst h

theorem good_set (h : Good w₀ w) (i : ℕ) {f : MxjDevice → MxjDevice}
    (hlabel : ∀ d, (f d).label = d.label) (hlight : ∀ d : MxjDevice, d.LightSet → (f d).LightSet) :
    Good w₀ (w.set i f) := by
  obtain ⟨hvalid, hgrows⟩ := h
  refine ⟨⟨?_, ?_, ?_⟩, ⟨?_, ?_⟩⟩
  · rw [devsize_set]
    exact hvalid.devsize_le
  · intro j hj j' hj' hid
    rw [devsize_set] at hj hj'
    apply hvalid.id_inj j hj j' hj'
    rw [← id_of_label (label_set i j hlabel), ← id_of_label (label_set i j' hlabel), hid]
  · exact lightSet_set hlight hvalid.lightSet
  · rw [devsize_set]
    exact hgrows.devsize_le
  · intro j hj
    rw [label_set i j hlabel, hgrows.label j hj]

theorem lookup_set (i : ℕ) {f : MxjDevice → MxjDevice} (hf : ∀ d, (f d).label = d.label)
    (id : ℤ) : (w.set i f).lookup id = w.lookup id := by
  unfold World.lookup
  rw [devsize_set]
  congr 1
  funext j
  apply decide_eq_decide.mpr
  unfold MxjDevice.HasId
  rw [id_of_label (label_set i j hf)]

theorem good_publish [JsonC] (h : Good w₀ w) : Good w₀ w.publish :=
  ⟨⟨h.1.devsize_le, h.1.id_inj, h.1.lightSet⟩, ⟨h.2.devsize_le, h.2.label⟩⟩

theorem devsize_append_of_lt (hn : w.devsize.toNat < devSize) (id : UInt16) (type idx : UInt8) :
    (w.append id type idx).devsize.toNat = w.devsize.toNat + 1 := by
  have hn' : w.devsize.toNat < 200 := hn
  rw [World.append, if_pos hn, UInt8.toNat_add]
  exact Nat.mod_eq_of_lt (by change w.devsize.toNat + 1 < 256; omega)

theorem mxjDevice_append (id : UInt16) (type idx : UInt8) (j : ℕ) :
    (w.append id type idx).mxjDevice j =
      if j = w.devsize.toNat ∧ w.devsize.toNat < devSize then
        { w.mxjDevice j with id := id, type := type, idx := idx, registered := 1 }
      else w.mxjDevice j := by
  unfold World.append
  by_cases hn : w.devsize.toNat < devSize
  · rw [if_pos hn]
    exact mxjDevice_set w.devsize.toNat j _
  · simp [hn]

theorem append_of_full (hn : ¬ w.devsize.toNat < devSize) (id : UInt16) (type idx : UInt8) :
    w.append id type idx = w := if_neg hn

theorem mxjDevice_append_of_lt {j : ℕ} (hj : j < w.devsize.toNat) (id : UInt16)
    (type idx : UInt8) : (w.append id type idx).mxjDevice j = w.mxjDevice j := by
  rw [mxjDevice_append, if_neg (by omega)]

theorem id_append (hn : w.devsize.toNat < devSize) (id : UInt16) (type idx : UInt8) :
    ((w.append id type idx).mxjDevice w.devsize.toNat).id = id := by
  rw [mxjDevice_append, if_pos ⟨rfl, hn⟩]

/-- The new id is none of those in use. -/
theorem id_inj_append (hw : w.Valid) (hn : w.devsize.toNat < devSize) {id : UInt16}
    (hnew : w.lookup id.toNat = none) (type idx : UInt8) {i j : ℕ}
    (hi : i < w.devsize.toNat + 1) (hj : j < w.devsize.toNat + 1)
    (hid : ((w.append id type idx).mxjDevice i).id = ((w.append id type idx).mxjDevice j).id) :
    i = j := by
  have hother : ∀ k < w.devsize.toNat, (w.mxjDevice k).id ≠ id := by
    intro k hk hk'
    apply lookup_eq_none.mp hnew k hk
    rw [MxjDevice.HasId, hk']
  rcases Nat.lt_succ_iff_lt_or_eq.mp hi with hi | rfl
  · rw [mxjDevice_append_of_lt hi] at hid
    rcases Nat.lt_succ_iff_lt_or_eq.mp hj with hj | rfl
    · rw [mxjDevice_append_of_lt hj] at hid
      exact hw.id_inj i hi j hj hid
    · rw [id_append hn] at hid
      exact absurd hid (hother i hi)
  · rw [id_append hn] at hid
    rcases Nat.lt_succ_iff_lt_or_eq.mp hj with hj | rfl
    · rw [mxjDevice_append_of_lt hj] at hid
      exact absurd hid.symm (hother j hj)
    · rfl

theorem good_append (h : Good w₀ w) {id : UInt16} (hnew : w.lookup id.toNat = none)
    (type idx : UInt8) : Good w₀ (w.append id type idx) := by
  by_cases hn : w.devsize.toNat < devSize
  · obtain ⟨hvalid, hgrows⟩ := h
    have hsize := devsize_append_of_lt hn id type idx
    refine ⟨⟨?_, ?_, ?_⟩, ⟨?_, ?_⟩⟩
    · rw [hsize]
      exact hn
    · intro i hi j hj hid
      rw [hsize] at hi hj
      exact id_inj_append hvalid hn hnew type idx hi hj hid
    · intro j
      rw [mxjDevice_append]
      split_ifs
      · exact hvalid.lightSet j
      · exact hvalid.lightSet j
    · rw [hsize]
      exact hgrows.devsize_le.trans (Nat.le_succ _)
    · intro j hj
      rw [mxjDevice_append_of_lt (lt_of_lt_of_le hj hgrows.devsize_le), hgrows.label j hj]
  · rw [append_of_full hn]
    exact h

end

/-- A property of the table that an assignment to the other fields of an entry keeps. -/
structure Stable (P : World → Prop) : Prop where
  set : ∀ {w : World} (i : ℕ) {f : MxjDevice → MxjDevice}, P w → (∀ d, (f d).label = d.label) →
    (∀ d : MxjDevice, d.LightSet → (f d).LightSet) → P (w.set i f)

/-- A property of the table that lasts: building the text and a new device keep it too. -/
structure Lasting [JsonC] (P : World → Prop) : Prop extends Stable P where
  publish : ∀ {w : World}, P w → P w.publish
  append : ∀ {w : World} {id : UInt16} (type idx : UInt8), P w → w.lookup id.toNat = none →
    P (w.append id type idx).publish

theorem stable_good (w₀ : World) : Stable (Good w₀) := ⟨fun i _ h => good_set h i⟩

theorem lasting_good [JsonC] (w₀ : World) : Lasting (Good w₀) where
  toStable := stable_good w₀
  publish := good_publish
  append type idx h hnew := good_publish (good_append h hnew type idx)

theorem stable_lookup (w₀ : World) : Stable fun w => ∀ id, w.lookup id = w₀.lookup id :=
  ⟨fun i _ h hlabel _ id => (lookup_set i hlabel id).trans (h id)⟩

theorem Stable.and {P Q : World → Prop} (hP : Stable P) (hQ : Stable Q) :
    Stable fun w => P w ∧ Q w :=
  ⟨fun i _ h hlabel hlight => ⟨hP.set i h.1 hlabel hlight, hQ.set i h.2 hlabel hlight⟩⟩

section

variable {mem : Stray → UInt8} {P : World → Prop}

theorem keeps_emit (o : List Out) : Triple mem P (emit o) fun _ => P := Triple.of_quiet fun _ => rfl

theorem keeps_findDev (id : ℤ) : Triple mem P (findDev id) fun _ => P :=
  Triple.of_quiet fun w => by rw [run_findDev]

theorem keeps_device (i : ℕ) : Triple mem P (device i) fun _ => P := Triple.of_quiet fun _ => rfl

theorem keeps_setState (hP : Stable P) (i k : ℕ) (v : UInt8) :
    Triple mem P (setState i k v) fun _ => P := by
  intro w hw
  rw [run_setState]
  apply hP.set i hw
  · intro d
    rfl
  · intro d hd
    exact hd

theorem keeps_setLight (hP : Stable P) (i : ℕ) (k : ℤ) {v : UInt8} (hv : v = 0 ∨ v = 1) :
    Triple mem P (setLight i k v) fun _ => P := by
  intro w hw
  rw [run_setLight]
  apply hP.set i hw
  · intro d
    rfl
  · intro d hd j
    unfold MxjDevice.setLight
    dsimp only
    split_ifs
    · exact hv
    · exact hd j

theorem keeps_sendChannel (i k : ℕ) (v : UInt8) :
    Triple mem P (sendChannel i k v) fun _ => P := by
  unfold sendChannel
  split_ifs
  · exact (keeps_device i).bind fun _ => keeps_emit _
  · exact (keeps_device i).bind fun _ => keeps_emit _
  · exact (keeps_device i).bind fun _ => keeps_emit _
  · exact fun _ hw => hw

theorem keeps_postState (hP : Stable P) (i k : ℕ) (tempint : ℤ) :
    Triple mem P (postState i k tempint) fun _ => P := by
  refine (Triple.of_quiet fun w => by rw [run_stateAt]).bind fun s => ?_
  apply Triple.when
  · intro _
    exact (keeps_setState hP i k _).bind fun _ => keeps_sendChannel i k _
  · exact fun _ _ hw => hw

section

variable [Tokener]

theorem keeps_postLights (hP : Stable P) (i : ℕ) (lights : Json) :
    Triple mem P (postLights i lights) fun _ => P := by
  apply Triple.when
  · intro _
    refine (keeps_setLight hP i 0 (Or.inl rfl)).bind fun _ => ?_
    refine (keeps_setLight hP i 1 (Or.inl rfl)).bind fun _ => ?_
    refine (keeps_setLight hP i 2 (Or.inl rfl)).bind fun _ => ?_
    exact Triple.each fun x => keeps_setLight hP i _ (Or.inr rfl)
  · exact fun _ _ hw => hw

theorem keeps_postControl (hP : Stable P) (i : ℕ) (control : Json) :
    Triple mem P (postControl i control) fun _ => P := by
  apply Triple.when
  · intro _
    refine Triple.bind (Q := fun _ => P) ?_ fun _ => keeps_postLights hP i _
    intro w hw
    rw [run_setDevice]
    apply hP.set i hw
    · intro d
      rfl
    · intro d hd
      exact hd
  · exact fun _ _ hw => hw

theorem keeps_postStatus (hP : Stable P) (i : ℕ) (status : Json) :
    Triple mem P (postStatus i status) fun _ => P :=
  Triple.each fun _ => keeps_postState hP i _ _

theorem keeps_postDevice (hP : Stable P) (obj : Json) :
    Triple mem P (postDevice obj) fun _ => P := by
  refine (keeps_findDev _).bind fun i => ?_
  cases i with
  | none => exact fun _ hw => hw
  | some i => exact (keeps_postControl hP i _).bind fun _ => keeps_postStatus hP i _

end

theorem quiet_toggled (i : ℕ) (j : Option ℕ) (k : Fin 3) (w : World) :
    ((toggled i j k).run mem w).state = w := by
  rw [toggled, run_bind_state, run_lightAt]
  dsimp only
  split_ifs
  · rw [run_bind_state, run_stateAt]
    rfl
  · rfl

theorem quiet_passedOn (i : ℕ) (v : UInt8) (k : Fin 3) (w : World) :
    ((passedOn i v k).run mem w).state = w := rfl

theorem quiet_sendTo (i : ℕ) {msg : Fin 3 → Handler UInt8}
    (hmsg : ∀ k w, ((msg k).run mem w).state = w) (w : World) :
    ((sendTo i msg).run mem w).state = w := by
  simp only [sendTo, run_bind_state, hmsg, run_device, run_emit]

theorem quiet_ctrlUp (rx : ℕ → UInt8) (id : UInt16) (w : World) :
    ((ctrlUp rx id).run mem w).state = w := by
  rw [ctrlUp, run_bind_state, run_findDev]
  cases w.lookup id.toNat with
  | none => rfl
  | some i =>
    dsimp only
    rw [run_bind_state, run_device]
    dsimp only
    split_ifs
    · rw [run_bind_state, run_findDev]
      exact quiet_sendTo i (quiet_toggled i _) w
    · rw [run_bind_state, run_findDev]
      exact quiet_sendTo i (quiet_passedOn i _) w
    · rfl

end

section

variable [Tokener] {mem : Stray → UInt8} {P : World → Prop} (hP : Lasting P)

include hP

theorem keeps_buildJson : Triple mem P buildJson fun _ => P := by
  intro w hw
  rw [run_buildJson]
  exact hP.publish hw

theorem keeps_appendDevice {w : World} (hw : P w) {id : UInt16} (hnew : w.lookup id.toNat = none)
    (type idx : UInt8) : P ((appendDevice id type idx).run mem w).state := by
  rw [run_appendDevice]
  exact hP.append type idx hw hnew

theorem keeps_registerRequest (rx : ℕ → UInt8) (id : UInt16) :
    Triple mem P (registerRequest rx id) fun _ => P := by
  intro w hw
  rw [registerRequest, run_bind_state, run_findDev, run_bind_state, run_emit, run_when]
  cases hi : w.lookup id.toNat with
  | none => exact keeps_appendDevice hP hw hi _ _
  | some i => exact hw

theorem keeps_sendState (rx : ℕ → UInt8) (id : UInt16) :
    Triple mem P (sendState rx id) fun _ => P := by
  refine (keeps_findDev _).bind fun i => ?_
  cases i with
  | none => exact fun _ hw => hw
  | some i =>
    have hset : ∀ k v, Triple mem P (setState i k v) fun _ => P := keeps_setState hP.toStable i
    exact (hset 0 _).bind fun _ => (hset 1 _).bind fun _ => (hset 2 _).bind fun _ =>
      keeps_buildJson hP

theorem keeps_xiaomi18 (rx behind : ℕ → UInt8) (len : UInt8) (id cid : UInt16) :
    Triple mem P (xiaomi18 rx behind len id cid) fun _ => P := by
  intro w hw
  rw [xiaomi18, run_bind_state, run_findDev, run_when]
  split_ifs with h
  · cases recognised (memory rx behind) (copied (memory rx behind) 13 (rx 12).toNat)
      modelTypes with
    | none => exact hw
    | some type => exact keeps_appendDevice hP hw h.2.2.2 type 1
  · exact hw

theorem keeps_recieveUsart (rx behind : ℕ → UInt8) (len : UInt8) :
    Triple mem P (recieveUsart rx behind len) fun _ => P := by
  unfold recieveUsart
  dsimp only
  split_ifs
  · exact Triple.of_quiet (quiet_ctrlUp rx _)
  · exact keeps_registerRequest hP rx _
  · exact keeps_sendState hP rx _
  · exact keeps_xiaomi18 hP rx behind len _ _
  · exact fun _ hw => hw

theorem keeps_postDevices (size : ℕ) (myObject : Json) :
    Triple mem P (postDevices size myObject) fun _ => P := by
  refine (Triple.each fun obj => keeps_postDevice hP.toStable obj).bind fun _ => ?_
  refine Triple.bind (Q := fun _ => P) ?_ fun _ => fun _ hw => hw
  exact Triple.when (fun _ => keeps_buildJson hP) fun _ _ hw => hw

theorem keeps_iteratePost (p : Post) : Triple mem P (iteratePost p) fun _ => P := by
  rcases iteratePost_cases p with ⟨myObject, -, hpost⟩ | ⟨-, cs, ret, -, hpost⟩
  · rw [hpost]
    exact keeps_postDevices hP p.size myObject
  · rw [hpost]
    exact (keeps_emit _).bind fun _ => fun _ hw => hw

theorem lasting_step (w : World) (x : Input) (hw : P w) : P (server.step w x).1 := by
  obtain ⟨event, outside⟩ := x
  cases event with
  | frame rx behind len => exact keeps_recieveUsart hP rx behind len w hw
  | post p =>
    change P ((iteratePost p >>= fun _ => pure ()).run outside w).state
    rw [run_bind_state]
    exact keeps_iteratePost hP p w hw

end

def World.NoRoomFor (w : World) (id : UInt16) : Prop :=
  w.lookup id.toNat = none ∧ w.devsize.toNat = devSize

/-- The frame is the report with which a sensor of a known model joins. -/
def Joins (rx behind : ℕ → UInt8) (len : UInt8) : Prop :=
  27 ≤ len ∧ frameCid rx len = 0 ∧ (rx 12).toNat + 13 ≤ len.toNat ∧
    recognised (memory rx behind) (copied (memory rx behind) 13 (rx 12).toNat) modelTypes ≠ none

instance (w : World) (id : UInt16) : Decidable (w.NoRoomFor id) :=
  inferInstanceAs (Decidable (_ ∧ _))

instance (rx behind : ℕ → UInt8) (len : UInt8) : Decidable (Joins rx behind len) :=
  inferInstanceAs (Decidable (_ ∧ _))

section

variable [Tokener]

/-- The channels configured for a device are three at most, and so are its states. -/
def Fits (obj : Json) : Prop :=
  (¬ isNull (obj.member "control") → ¬ isNull ((obj.member "control").member "lights") →
    ∀ x ∈ items ((obj.member "control").member "lights"),
      0 ≤ jsonObjectGetInt x ∧ jsonObjectGetInt x < 3) ∧
  (items (obj.member "status")).length ≤ 3

instance (obj : Json) : Decidable (Fits obj) := inferInstanceAs (Decidable (_ ∧ _))

/-- The event stores nothing outside the arrays: no device is appended to a full table, and no
channel behind the third one is posted.  What other stores do to the table depends on the
memory around it, so the model leaves them out. -/
def Event.StoresInside (w : World) : Event → Prop
  | .frame rx behind len =>
    (rx 0 = mxjRegisterRequest → ¬ w.NoRoomFor (frameId rx len)) ∧
    (rx 0 = mxjXiaomi18 → Joins rx behind len → ¬ w.NoRoomFor (frameId rx len))
  | .post p => ∀ obj ∈ p.devices,
    w.lookup (jsonObjectGetInt (obj.member "id")) ≠ none → Fits obj

instance (w : World) (e : Event) : Decidable (e.StoresInside w) :=
  match e with
  | .frame _ _ _ => inferInstanceAs (Decidable (_ ∧ _))
  | .post p => inferInstanceAs (Decidable (∀ obj ∈ p.devices, _))

def StoresInside (xs : List Input) : Prop :=
  server.Along (fun w x => x.event.StoresInside w) .started xs

instance (xs : List Input) : Decidable (StoresInside xs) :=
  inferInstanceAs (Decidable (server.Along _ _ _))

end

section

variable [Tokener]

theorem started_valid : World.started.Valid where
  devsize_le := Nat.zero_le _
  id_inj _ hi := absurd hi (Nat.not_lt_zero _)
  lightSet _ _ := Or.inl rfl

theorem good_after {w : World} (hw : w.Valid) (xs : List Input) : Good w (server.after w xs) :=
  Transducer.after_preserves (lasting_step (lasting_good w)) ⟨hw, .refl w⟩ xs

theorem valid_after (xs : List Input) : (server.after .started xs).Valid :=
  (good_after started_valid xs).1

theorem valid_of_storesInside {xs : List Input} (h : StoresInside xs) :
    (server.after .started xs).Valid :=
  Transducer.after_invariant
    (fun w x hw _ => (lasting_step (lasting_good w) w x ⟨hw, .refl w⟩).1) started_valid h

/-- Every reachable table is valid, and every later one has grown out of it. -/
theorem table_invariant (xs ys : List Input) :
    let w := server.after .started xs
    let w' := server.after w ys
    (w.devsize.toNat ≤ 200 ∧
      (∀ i < w.devsize.toNat, ∀ j < w.devsize.toNat,
        (w.mxjDevice i).id = (w.mxjDevice j).id → i = j) ∧
      ∀ i k, (w.mxjDevice i).light k = 0 ∨ (w.mxjDevice i).light k = 1) ∧
    ∀ i < w.devsize.toNat, i < w'.devsize.toNat ∧ (w'.mxjDevice i).id = (w.mxjDevice i).id ∧
      (w'.mxjDevice i).type = (w.mxjDevice i).type ∧
      (w'.mxjDevice i).idx = (w.mxjDevice i).idx := by
  intro w w'
  have hvalid : w.Valid := valid_after xs
  have hgrows : w.Grows w' := (good_after hvalid ys).2
  refine ⟨⟨hvalid.devsize_le, hvalid.id_inj, hvalid.lightSet⟩, ?_⟩
  intro i hi
  have hlabel := hgrows.label i hi
  exact ⟨lt_of_lt_of_le hi hgrows.devsize_le, congrArg Prod.fst hlabel,
    congrArg (fun l => l.2.1) hlabel, congrArg (fun l => l.2.2) hlabel⟩

end

end IdolGateway.Brower
