import IdolGateway.Brower.Channels
import IdolGateway.Brower.Table
import IdolGateway.ZbClient.Joins

namespace IdolGateway.Brower

open Procedure
open ZbClient (Json UsartCall word word_bytes hiByte loByte)

/-- A slot of the table and a channel of the device in it. -/
abbrev Channel := ℕ × Fin 3

def World.stored (w : World) : Channel → UInt8 := fun c => (w.mxjDevice c.1).state c.2

def World.inUse (w : World) : Set Channel := {c | c.1 < w.devsize.toNat}

def msgFor (k : Fin 3) (v : UInt8) (j : Fin 3) : UInt8 := if j = k then v else 2

def World.frame (w : World) (c : Command Channel) : UsartCall :=
  mxjSendCtrlMessage (w.mxjDevice c.channel.1).id (msgFor c.channel.2 c.byte 0)
    (msgFor c.channel.2 c.byte 1) (msgFor c.channel.2 c.byte 2)

def Out.ctrl? : Out → Option UsartCall
  | .usart c => if c.data.head? = some 0 then some c else none
  | _ => none

def statusUpdates [Tokener] (i : ℕ) (status : Json) : List (Update Channel) :=
  ((items status).zip [0, 1, 2]).map fun x => ⟨(i, x.2), jsonObjectGetInt x.1⟩

/-- The states that elements of `devices` post, in order. -/
def World.updates [Tokener] (w : World) (objs : List Json) : List (Update Channel) :=
  objs.flatMap fun obj =>
    match w.lookup (jsonObjectGetInt (obj.member "id")) with
    | some i => statusUpdates i (obj.member "status")
    | none => []

/-- The outcome is that of posting `us` to the store, and no device was exchanged. -/
structure Performs {α : Type} (w : World) (r : Outcome World Out α) (us : List (Update Channel)) :
    Prop where
  stored : r.state.stored = store.after w.stored us
  frames : r.out.filterMap Out.ctrl? = (store.outputs w.stored us).map w.frame
  label : ∀ i, (r.state.mxjDevice i).label = (w.mxjDevice i).label
  devsize : r.state.devsize = w.devsize

section

variable {mem : Stray → UInt8} {w w' : World} {α γ : Type}

theorem frame_congr (h : ∀ i, (w'.mxjDevice i).label = (w.mxjDevice i).label) :
    w'.frame = w.frame := by
  funext c
  unfold World.frame
  rw [id_of_label (h c.channel.1)]

theorem Performs.bind {p : Handler α} {f : α → Handler γ} {us us' : List (Update Channel)}
    (hp : Performs w (p.run mem w) us)
    (hf : Performs (p.run mem w).state ((f (p.run mem w).value).run mem (p.run mem w).state) us') :
    Performs w ((p >>= f).run mem w) (us ++ us') := by
  rw [run_bind]
  refine ⟨?_, ?_, ?_, ?_⟩
  · rw [Transducer.after_append, ← hp.stored]
    exact hf.stored
  · rw [List.filterMap_append, hp.frames, hf.frames, Transducer.outputs_append, List.map_append,
      hp.stored, frame_congr hp.label]
  · intro i
    exact (hf.label i).trans (hp.label i)
  · exact hf.devsize.trans hp.devsize

theorem performs_nil {r : Outcome World Out α} (hstored : r.state.stored = w.stored)
    (hframes : r.out.filterMap Out.ctrl? = [])
    (hlabel : ∀ i, (r.state.mxjDevice i).label = (w.mxjDevice i).label)
    (hdevsize : r.state.devsize = w.devsize) : Performs w r [] :=
  ⟨hstored, hframes, hlabel, hdevsize⟩

theorem performs_pure (a : α) : Performs w ((pure a : Handler α).run mem w) [] :=
  performs_nil rfl rfl (fun _ => rfl) rfl

theorem Performs.when {c : Prop} [Decidable c] {p : Handler Unit}
    (hp : c → Performs w (p.run mem w) []) : Performs w ((when c p).run mem w) [] := by
  rw [run_when]
  split_ifs with hc
  · exact hp hc
  · exact performs_nil rfl rfl (fun _ => rfl) rfl

theorem performs_each {ι : Type} {P : World → Prop} {body : ι → Handler Unit}
    {f : ι → List (Update Channel)} (hkeep : ∀ x, Triple mem P (body x) fun _ => P)
    {is : List ι} (hbody : ∀ x ∈ is, ∀ w, P w → Performs w ((body x).run mem w) (f x))
    (hw : P w) : Performs w ((each body is).run mem w) (is.flatMap f) := by
  induction is generalizing w with
  | nil => exact performs_pure ()
  | cons x is ih =>
    rw [List.forall_mem_cons] at hbody
    rw [each, List.flatMap_cons]
    exact (hbody.1 w hw).bind (ih hbody.2 (hkeep x w hw))

theorem performs_findDev (id : ℤ) : Performs w ((findDev id).run mem w) [] := by
  rw [run_findDev]
  refine performs_nil rfl ?_ (fun _ => rfl) rfl
  apply List.filterMap_eq_nil_iff.mpr
  intro o ho
  obtain ⟨i, -, rfl⟩ := mem_probes w ho
  rfl

theorem stored_set (i : ℕ) {f : MxjDevice → MxjDevice} (hf : ∀ d, (f d).state = d.state) :
    (w.set i f).stored = w.stored := by
  funext c
  unfold World.stored
  rw [mxjDevice_set]
  split_ifs
  · rw [hf]
  · rfl

theorem performs_setLight (i : ℕ) (k : ℤ) (v : UInt8) :
    Performs w ((setLight i k v).run mem w) [] := by
  rw [run_setLight]
  exact performs_nil (stored_set i fun _ => rfl) rfl (fun j => label_set i j fun _ => rfl)
    (devsize_set i _)

/-- The frame goes to the device in the slot, whatever its states are by now. -/
theorem run_sendChannel (i : ℕ) (k : Fin 3) (v : UInt8) :
    (sendChannel i k v).run mem w =
      ⟨(), w, [.device i, .usart (w.frame ⟨(i, k), v⟩)]⟩ := by
  revert k
  exact forall_channel.mpr ⟨rfl, rfl, rfl⟩

theorem stored_setState {i : ℕ} (hi : i < devSize) (k : Fin 3) (v : UInt8) :
    (w.set i (.setState k v)).stored = Function.update w.stored (i, k) v := by
  funext c
  obtain ⟨j, j'⟩ := c
  unfold World.stored
  dsimp only
  rw [mxjDevice_set, Function.update_apply]
  by_cases hj : j = i
  · subst hj
    rw [if_pos ⟨rfl, hi⟩]
    by_cases hk : j' = k
    · subst hk
      simp [MxjDevice.setState]
    · have hne : (j' : ℕ) ≠ k := fun h => hk (Fin.ext h)
      simp [MxjDevice.setState, hk, hne]
  · rw [if_neg (fun h => hj h.1), if_neg (fun h => hj (congrArg Prod.fst h))]

theorem run_stateAt_channel (i : ℕ) (k : Fin 3) :
    (stateAt (some i) k).run mem w = ⟨w.stored (i, k), w, [.device i, .state k]⟩ := by
  rw [run_stateAt]
  have hread : w.stateAt mem (some i) k = w.stored (i, k) := dif_pos k.isLt
  rw [hread]
  rfl

theorem performs_postState {i : ℕ} (hi : i < devSize) (k : Fin 3) (tempint : ℤ) :
    Performs w ((postState i k tempint).run mem w) [⟨(i, k), tempint⟩] := by
  rw [postState, run_bind, run_stateAt_channel]
  dsimp only
  rw [run_when]
  by_cases hsame : ((w.stored (i, k)).toNat : ℤ) = tempint
  · rw [if_neg (not_not.mpr hsame)]
    have hknown : (Update.mk (i, k) tempint).Known w.stored := hsame
    have hstep := step_known hknown
    exact ⟨(congrArg Prod.fst hstep).symm, by simp [Out.ctrl?, hstep], fun _ => rfl, rfl⟩
  · rw [if_pos hsame, run_bind, run_setState]
    dsimp only
    rw [run_sendChannel]
    have hnew : ¬ (Update.mk (i, k) tempint).Known w.stored := hsame
    have hstep := step_new hnew
    have hlabel : ∀ j, ((w.set i (.setState k (UInt8.ofInt tempint))).mxjDevice j).label =
        (w.mxjDevice j).label := fun j => label_set i j fun _ => rfl
    refine ⟨?_, ?_, hlabel, devsize_set i _⟩
    · rw [Transducer.after_cons, hstep]
      exact stored_setState hi k _
    · rw [Transducer.outputs_cons, hstep, frame_congr hlabel]
      rfl

variable [Tokener]

theorem performs_postLights (i : ℕ) (lights : Json) :
    Performs w ((postLights i lights).run mem w) [] := by
  apply Performs.when
  intro _
  have hloop : ∀ w, Performs w
      ((each (fun x => setLight i (jsonObjectGetInt x) 1) (items lights)).run mem w) [] := by
    intro w
    have hnil : (items lights).flatMap (fun _ => ([] : List (Update Channel))) = [] :=
      List.flatMap_eq_nil_iff.mpr fun _ _ => rfl
    rw [← hnil]
    exact performs_each (fun _ => Triple.any fun _ => True)
      (fun x _ w _ => performs_setLight i (jsonObjectGetInt x) 1) trivial
  exact (performs_setLight i 0 0).bind ((performs_setLight i 1 0).bind
    ((performs_setLight i 2 0).bind (hloop _)))

theorem performs_postControl (i : ℕ) (control : Json) :
    Performs w ((postControl i control).run mem w) [] := by
  apply Performs.when
  intro _
  have hdevid : Performs w ((setDevice i
      (setDevid (UInt16.ofInt (jsonObjectGetInt (control.member "devid"))))).run mem w) [] := by
    rw [run_setDevice]
    exact performs_nil (stored_set i fun _ => rfl) rfl (fun j => label_set i j fun _ => rfl)
      (devsize_set i _)
  exact hdevid.bind (performs_postLights i _)

/-- Up to three states are numbered as the channels are. -/
theorem postStatus_eq (i : ℕ) {status : Json} (hlen : (items status).length ≤ 3) :
    postStatus i status = each (fun x : Json × Fin 3 => postState i x.2 (jsonObjectGetInt x.1))
      ((items status).zip [0, 1, 2]) := by
  unfold postStatus
  match items status, hlen with
  | [], _ => rfl
  | [_], _ => rfl
  | [_, _], _ => rfl
  | [_, _, _], _ => rfl

theorem performs_postStatus {i : ℕ} (hi : i < devSize) {status : Json}
    (hlen : (items status).length ≤ 3) :
    Performs w ((postStatus i status).run mem w) (statusUpdates i status) := by
  rw [postStatus_eq i hlen, statusUpdates, List.map_eq_flatMap]
  exact performs_each (fun _ => Triple.any fun _ => True)
    (fun x _ w _ => performs_postState hi x.2 (jsonObjectGetInt x.1)) trivial

theorem performs_postDevice (hw : w.Valid) {obj : Json}
    (hlen : w.lookup (jsonObjectGetInt (obj.member "id")) ≠ none →
      (items (obj.member "status")).length ≤ 3) :
    Performs w ((postDevice obj).run mem w) (w.updates [obj]) := by
  have hupdates : w.updates [obj] = [] ++ w.updates [obj] := rfl
  rw [hupdates]
  apply (performs_findDev _).bind
  rw [run_findDev]
  unfold World.updates
  rw [List.flatMap_singleton]
  dsimp only
  cases hi : w.lookup (jsonObjectGetInt (obj.member "id")) with
  | none => exact performs_pure ()
  | some i =>
    have hlt : i < devSize := lt_of_lt_of_le (lookup_lt hi) hw.devsize_le
    have hknown : w.lookup (jsonObjectGetInt (obj.member "id")) ≠ none := by
      rw [hi]
      exact Option.some_ne_none i
    exact (performs_postControl i _).bind (performs_postStatus hlt (hlen hknown))

theorem updates_congr (h : ∀ id, w'.lookup id = w.lookup id) (objs : List Json) :
    w'.updates objs = w.updates objs := by
  unfold World.updates
  simp only [h]

theorem performs_devices (hw : w.Valid) {objs : List Json}
    (hlen : ∀ obj ∈ objs, w.lookup (jsonObjectGetInt (obj.member "id")) ≠ none →
      (items (obj.member "status")).length ≤ 3) :
    Performs w ((each postDevice objs).run mem w) (w.updates objs) := by
  have hstable := (stable_good w).and (stable_lookup w)
  apply performs_each (fun obj => keeps_postDevice hstable obj)
  · intro obj hobj w' h
    have hdevice : Performs w' ((postDevice obj).run mem w') (w'.updates [obj]) := by
      apply performs_postDevice h.1.1
      rw [h.2]
      exact hlen obj hobj
    rw [updates_congr h.2, World.updates, List.flatMap_singleton] at hdevice
    exact hdevice
  · exact ⟨⟨hw, .refl w⟩, fun _ => rfl⟩

theorem performs_buildJson : Performs w (buildJson.run mem w) [] := by
  rw [run_buildJson]
  refine performs_nil rfl ?_ (fun _ => rfl) rfl
  apply List.filterMap_eq_nil_iff.mpr
  intro o ho
  obtain ⟨i, -, ho⟩ := List.mem_flatMap.mp ho
  have hrow : (rowReads i).filterMap Out.ctrl? = [] := rfl
  exact List.filterMap_eq_nil_iff.mp hrow o ho

theorem performs_iteratePost (hw : w.Valid) (p : Post)
    (hlen : ∀ obj ∈ p.devices, w.lookup (jsonObjectGetInt (obj.member "id")) ≠ none →
      (items (obj.member "status")).length ≤ 3) :
    Performs w ((iteratePost p).run mem w) (w.updates p.devices) := by
  rcases iteratePost_cases p with ⟨myObject, hdevices, hpost⟩ | ⟨hnone, cs, ret, hcs, hpost⟩
  · rw [hdevices] at hlen ⊢
    rw [hpost, postDevices, ← List.append_nil (w.updates _)]
    apply (performs_devices hw hlen).bind
    apply Performs.bind (Performs.when fun _ => performs_buildJson)
    exact performs_pure _
  · rw [hnone, hpost]
    refine performs_nil rfl ?_ (fun _ => rfl) rfl
    apply List.filterMap_eq_nil_iff.mpr
    intro o ho
    rw [run_bind_out] at ho
    rcases List.mem_append.mp ho with ho | ho
    · obtain ⟨c, hc, rfl⟩ := List.mem_map.mp ho
      exact if_neg (hcs c hc)
    · exact absurd ho List.not_mem_nil

theorem state_postDevices {size : ℕ} (hsize : size ≤ maxNameSize) (myObject : Json) :
    ((postDevices size myObject).run mem w).state =
      ((each postDevice (items myObject)).run mem w).state.publish := by
  rw [postDevices, run_bind_state, run_bind_state, run_when, if_pos hsize, run_buildJson]
  rfl

theorem jsonStr_iteratePost {p : Post} (hp : p.devices ≠ []) (hsize : p.size ≤ maxNameSize) :
    ((iteratePost p).run mem w).state.jsonStr =
      deviceListText ((iteratePost p).run mem w).state.mxjDevice
        ((iteratePost p).run mem w).state.devsize := by
  rcases iteratePost_cases p with ⟨myObject, -, hpost⟩ | ⟨hnone, -⟩
  · rw [hpost, state_postDevices hsize]
    rfl
  · exact absurd hnone hp

end

abbrev Lights := UInt16 → Fin 3 → Bool

def byteFor (m0 m1 m2 : UInt8) : Fin 3 → UInt8
  | 0 => m0
  | 1 => m1
  | 2 => m2

/-- A control frame is obeyed by the device it names, channel by channel. -/
def Lights.apply (other : UInt8 → Bool → Bool) (L : Lights) (c : UsartCall) : Lights :=
  match c.data with
  | [0, 6, hi, lo, m0, m1, m2] => fun id k =>
    if id = word hi lo then obey other (byteFor m0 m1 m2 k) (L id k) else L id k
  | _ => L

def Lights.applyAll (other : UInt8 → Bool → Bool) (L : Lights) (cs : List UsartCall) : Lights :=
  cs.foldl (Lights.apply other) L

def World.lightsOf (w : World) (L : Lights) : Channel → Bool :=
  fun c => L (w.mxjDevice c.1).id c.2

def World.InStepWith (w : World) (L : Lights) : Prop := InStep w.inUse w.stored (w.lightsOf L)

section

variable {w : World} {other : UInt8 → Bool → Bool}

theorem apply_frame (L : Lights) (c : Command Channel) (id : UInt16) (k : Fin 3) :
    L.apply other (w.frame c) id k =
      if id = (w.mxjDevice c.channel.1).id ∧ k = c.channel.2 then obey other c.byte (L id k)
      else L id k := by
  have hbyte : byteFor (msgFor c.channel.2 c.byte 0) (msgFor c.channel.2 c.byte 1)
      (msgFor c.channel.2 c.byte 2) k = msgFor c.channel.2 c.byte k := by
    revert k
    exact forall_channel.mpr ⟨rfl, rfl, rfl⟩
  have hframe : L.apply other (w.frame c) id k =
      if id = word (hiByte (w.mxjDevice c.channel.1).id) (loByte (w.mxjDevice c.channel.1).id) then
        obey other (byteFor (msgFor c.channel.2 c.byte 0) (msgFor c.channel.2 c.byte 1)
          (msgFor c.channel.2 c.byte 2) k) (L id k)
      else L id k := rfl
  rw [hframe, word_bytes, hbyte, msgFor]
  by_cases hid : id = (w.mxjDevice c.channel.1).id
  · by_cases hk : k = c.channel.2
    · rw [if_pos hid, if_pos hk, if_pos ⟨hid, hk⟩]
    · -- 2 keeps the other channels
      rw [if_pos hid, if_neg hk, if_neg (fun h => hk h.2)]
      rfl
  · rw [if_neg hid, if_neg (fun h => hid h.1)]

/-- The ids of a valid table differ, so a frame moves the light of its own slot only. -/
theorem lightsOf_apply (hw : w.Valid) (L : Lights) {c : Command Channel} (hc : c.channel ∈ w.inUse)
    {x : Channel} (hx : x ∈ w.inUse) :
    w.lightsOf (L.apply other (w.frame c)) x =
      Function.update (w.lightsOf L) c.channel (obey other c.byte (w.lightsOf L c.channel)) x := by
  have hsame : (w.mxjDevice x.1).id = (w.mxjDevice c.channel.1).id ∧ x.2 = c.channel.2 ↔
      x = c.channel := by
    constructor
    · intro h
      exact Prod.ext (hw.id_inj _ hx _ hc h.1) h.2
    · rintro rfl
      exact ⟨rfl, rfl⟩
  rw [World.lightsOf, apply_frame, Function.update_apply]
  by_cases h : x = c.channel
  · rw [if_pos (hsame.mpr h), if_pos h, h]
    rfl
  · rw [if_neg (fun hboth => h (hsame.mp hboth)), if_neg h]
    rfl

theorem lightsOf_applyAll (hw : w.Valid) {cs : List (Command Channel)}
    (hcs : ∀ c ∈ cs, c.channel ∈ w.inUse) (L : Lights) {l : Channel → Bool}
    (hl : ∀ x ∈ w.inUse, w.lightsOf L x = l x) :
    ∀ x ∈ w.inUse, w.lightsOf (L.applyAll other (cs.map w.frame)) x = hear other l cs x := by
  induction cs generalizing L l with
  | nil => exact hl
  | cons c cs ih =>
    rw [List.forall_mem_cons] at hcs
    apply ih hcs.2
    intro x hx
    rw [lightsOf_apply hw L hcs.1 hx, Function.update_apply, Function.update_apply, hl _ hcs.1,
      hl x hx]

end

theorem channel_of_output {κ : Type} [DecidableEq κ] {s : κ → UInt8} {us : List (Update κ)}
    {c : Command κ} (hc : c ∈ store.outputs s us) : ∃ u ∈ us, u.channel = c.channel := by
  induction us generalizing s with
  | nil => exact absurd hc List.not_mem_nil
  | cons u us ih =>
    rcases List.mem_append.mp hc with hc | hc
    · by_cases hknown : u.Known s
      · rw [step_known hknown] at hc
        exact absurd hc List.not_mem_nil
      · rw [step_new hknown] at hc
        exact ⟨u, List.mem_cons_self, by rw [List.mem_singleton.mp hc]⟩
    · obtain ⟨u', hu', hchannel⟩ := ih hc
      exact ⟨u', List.mem_cons_of_mem u hu', hchannel⟩

section

variable [Tokener] {w : World}

theorem updates_inUse {objs : List Json} {u : Update Channel} (hu : u ∈ w.updates objs) :
    u.channel ∈ w.inUse := by
  obtain ⟨obj, -, hu⟩ := List.mem_flatMap.mp hu
  cases hi : w.lookup (jsonObjectGetInt (obj.member "id")) with
  | none =>
    rw [hi] at hu
    exact absurd hu List.not_mem_nil
  | some i =>
    rw [hi] at hu
    obtain ⟨x, -, rfl⟩ := List.mem_map.mp hu
    exact lookup_lt hi

/-- Where no store leaves the arrays, lights in step stay in step with a body exactly if the
last value it posts for each channel is 0 or 1 in its lowest byte; a channel whose stored state
is the posted one is sent nothing; and clients see the table the body leaves. -/
theorem posted_in_step_iff (xs : List Input) (p : Post) (outside : Stray → UInt8)
    (other : UInt8 → Bool → Bool) (L : Lights) (hxs : StoresInside xs)
    (hp : (Event.post p).StoresInside (server.after .started xs))
    (hL : (server.after .started xs).InStepWith L) :
    let w := server.after .started xs
    let us := w.updates p.devices
    let r := (iteratePost p).run outside w
    let frames := r.out.filterMap Out.ctrl?
    (r.state.InStepWith (L.applyAll other frames) ↔
      ∀ c ∈ w.inUse, ∀ v, lastPosted c us = some v → UInt8.ofInt v ≤ 1) ∧
    (∀ pre u post, us = pre ++ u :: post → u.Known (store.after w.stored pre) →
      frames = (store.outputs w.stored pre ++
        store.outputs (store.after w.stored pre) post).map w.frame) ∧
    (p.devices ≠ [] → p.size ≤ maxNameSize →
      r.state.jsonStr = deviceListText r.state.mxjDevice r.state.devsize) := by
  intro w us r frames
  have hw : w.Valid := valid_of_storesInside hxs
  obtain ⟨hstored, hframes, hlabel, hsize⟩ : Performs w r us :=
    performs_iteratePost hw p fun obj hobj hknown => (hp obj hobj hknown).2
  refine ⟨?_, ?_, jsonStr_iteratePost⟩
  · have hlights : ∀ x ∈ w.inUse, w.lightsOf (L.applyAll other frames) x =
        hear other (w.lightsOf L) (store.outputs w.stored us) x := by
      intro x hx
      change w.lightsOf (L.applyAll other (r.out.filterMap Out.ctrl?)) x = _
      rw [hframes]
      apply lightsOf_applyAll hw _ L (fun _ _ => rfl) x hx
      intro c hc
      obtain ⟨u, hu, hchannel⟩ := channel_of_output hc
      rw [← hchannel]
      exact updates_inUse hu
    have hiff : InStep w.inUse (store.after w.stored us)
        (hear other (w.lightsOf L) (store.outputs w.stored us)) ↔
          ∀ c ∈ w.inUse, ∀ v, lastPosted c us = some v → UInt8.ofInt v ≤ 1 :=
      inStep_after_iff hL us
    rw [← hiff]
    unfold World.InStepWith InStep
    have huse : r.state.inUse = w.inUse := by
      unfold World.inUse
      rw [hsize]
    rw [huse]
    apply forall₂_congr
    intro c hc
    rw [hstored, ← hlights c hc, World.lightsOf, id_of_label (hlabel c.1)]
    rfl
  · intro pre u post hus hknown
    change r.out.filterMap Out.ctrl? = _
    rw [hframes, hus, Transducer.outputs_append, Transducer.outputs_cons, step_known hknown]
    rfl

def oneLight : List Input := [received [2, 5, 0, 1, 5, 2]]

theorem oneLight_inStep : (server.after .started oneLight).InStepWith fun _ _ => false := by
  rintro ⟨i, k⟩ hi
  have hzero : i = 0 := Nat.lt_one_iff.mp hi
  subst hzero
  rfl

end

def twiceText : String :=
  "\x7b\"devices\":[\x7b\"id\":1,\"control\":\x7b\"lights\":[0,2]\x7d,\"status\":[1,0]\x7d," ++
  "\x7b\"id\":1,\"status\":[3,1,256]\x7d]\x7d"

def twiceDocument : Json :=
  .object [("devices", .array [
    .object [("id", .int 1), ("control", .object [("lights", .array [.int 0, .int 2])]),
      ("status", .array [.int 1, .int 0])],
    .object [("id", .int 1), ("status", .array [.int 3, .int 1, .int 256])]])]

theorem twice_storesInside :
    letI := tabled twiceText twiceDocument
    StoresInside oneLight ∧
      (Event.post (.ofText twiceText)).StoresInside (server.after .started oneLight) := by
  decide +kernel

theorem posted_in_step_twice :
    letI := tabled twiceText twiceDocument
    let w := server.after .started oneLight
    let p := Post.ofText twiceText
    let us := w.updates p.devices
    let r := (iteratePost p).run (fun _ => 0) w
    let frames := r.out.filterMap Out.ctrl?
    (r.state.InStepWith (Lights.applyAll (fun _ b => b) (fun _ _ => false) frames) ↔
      ∀ c ∈ w.inUse, ∀ v, lastPosted c us = some v → UInt8.ofInt v ≤ 1) ∧
    (∀ pre u post, us = pre ++ u :: post → u.Known (store.after w.stored pre) →
      frames = (store.outputs w.stored pre ++
        store.outputs (store.after w.stored pre) post).map w.frame) ∧
    (p.devices ≠ [] → p.size ≤ maxNameSize →
      r.state.jsonStr = deviceListText r.state.mxjDevice r.state.devsize) :=
  @posted_in_step_iff (tabled twiceText twiceDocument) oneLight (.ofText twiceText) (fun _ => 0)
    (fun _ b => b) (fun _ _ => false) twice_storesInside.1 twice_storesInside.2
    (@oneLight_inStep (tabled twiceText twiceDocument))

/-- On the wire, 2 leaves the light as it is; in the table it is a state. -/
def keepText : String := "\x7b\"devices\":[\x7b\"id\":1,\"status\":[2]\x7d]\x7d"

def keepDocument : Json :=
  .object [("devices", .array [.object [("id", .int 1), ("status", .array [.int 2])]])]

theorem keep_out_of_step :
    letI := tabled keepText keepDocument
    let w := server.after .started oneLight
    let p := Post.ofText keepText
    let r := (iteratePost p).run (fun _ => 0) w
    (∀ obj ∈ p.devices, (items (obj.member "status")).length ≤ 3) ∧
    w.InStepWith (fun _ _ => false) ∧
    ¬ r.state.InStepWith
      (Lights.applyAll (fun _ b => b) (fun _ _ => false) (r.out.filterMap Out.ctrl?)) := by
  let _ := tabled keepText keepDocument
  intro w p r
  refine ⟨by decide +kernel, oneLight_inStep, ?_⟩
  intro h
  have hslot : 0 < r.state.devsize.toNat := by decide +kernel
  have hstate := h (0, 0) hslot
  revert hstate
  decide +kernel

end IdolGateway.Brower
