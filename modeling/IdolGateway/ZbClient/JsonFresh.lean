import IdolGateway.ZbClient.MainLoop

namespace IdolGateway.ZbClient

open Procedure

section

variable [JsonC]

/-- `json_str` is what `build_json` would write now. -/
def World.Fresh (w : World) : Prop := w.jsonStr = deviceListText w.mxjDevice w.devsize

theorem World.Fresh.of_same {w w' : World} (h : w.Fresh) (hstr : w'.jsonStr = w.jsonStr)
    (hsize : w'.devsize = w.devsize)
    (hdev : ∀ i, deviceJson (w'.mxjDevice i) = deviceJson (w.mxjDevice i)) : w'.Fresh := by
  unfold World.Fresh at *
  rw [hstr, hsize, h]
  exact deviceListText_congr fun i _ => (hdev i).symm

variable {mem : Loc → UInt8}

theorem fresh_buildJson (P : World → Prop) :
    Triple mem P buildJson fun _ => World.Fresh := fun _ _ => rfl

theorem fresh_modify (f : World → World) (hf : ∀ w, w.Fresh → (f w).Fresh) :
    Triple mem World.Fresh (modify f : Handler Unit) fun _ => World.Fresh := hf

theorem fresh_emit (o : List Out) : Triple mem World.Fresh (emit o) fun _ => World.Fresh :=
  fun _ hw => hw

theorem fresh_gets {α : Type} (f : World → α) :
    Triple mem World.Fresh (gets f : Handler α) fun _ => World.Fresh := fun _ hw => hw

theorem fresh_when {c : Prop} [Decidable c] {p : Handler Unit}
    (hp : c → Triple mem World.Fresh p fun _ => World.Fresh) :
    Triple mem World.Fresh (when c p) fun _ => World.Fresh :=
  Triple.when hp fun _ _ hw => hw

theorem fresh_findDev (id : UInt16) :
    Triple mem World.Fresh (findDev id) fun _ => World.Fresh := by
  intro w hw
  rw [run_findDev]
  refine hw.of_same rfl rfl fun i => ?_
  obtain ⟨h, hi⟩ := w.beat_mxjDevice id i
  rw [hi]
  rfl

theorem fresh_switchReport (id : UInt16) (i : ℕ) (P : World → Prop) :
    Triple mem P (switchReport id i) fun _ => World.Fresh :=
  -- whatever is stored before, the branch ends in `build_json`
  (Triple.any P).bind fun _ => (Triple.any _).bind fun _ => (Triple.any _).bind fun _ =>
    (Triple.any _).bind fun _ => fresh_buildJson _

theorem fresh_stateReport (len : UInt8) (i : ℕ) (P : World → Prop) :
    Triple mem P (stateReport len i) fun _ => World.Fresh :=
  (Triple.any P).bind fun _ => (Triple.any _).bind fun _ => (Triple.any _).bind fun _ =>
    fresh_buildJson _

theorem fresh_appendSensor (id : UInt16) (type : UInt8) (P : World → Prop) :
    Triple mem P (appendSensor id type) fun _ => World.Fresh :=
  (Triple.any P).bind fun _ => (Triple.any _).bind fun _ => (Triple.any _).bind fun _ =>
    fresh_buildJson _

theorem fresh_ctrlUp {id : UInt16} (hid : id ≠ powerCiwoId) :
    Triple mem World.Fresh (ctrlUp id) fun _ => World.Fresh := by
  refine (fresh_findDev id).bind fun i => ?_
  cases i with
  | none => exact fun _ hw => hw
  | some i =>
    refine (fresh_gets _).bind fun type => ?_
    refine (fresh_when fun _ => fresh_switchReport id i _).bind fun _ => ?_
    -- the toggle of the socket is the branch that leaves the old text
    exact fresh_when fun h => absurd h hid

theorem fresh_sendState (len : UInt8) (id : UInt16) :
    Triple mem World.Fresh (sendState len id) fun _ => World.Fresh := by
  refine (fresh_findDev id).bind fun i => ?_
  cases i with
  | none => exact fun _ hw => hw
  | some i => exact fresh_stateReport len i _

theorem fresh_joinAs (id : UInt16) (tempStr : List UInt8) (models : List (List UInt8 × UInt8)) :
    Triple mem World.Fresh (joinAs id tempStr models) fun _ => World.Fresh := by
  intro w hw
  rw [run_joinAs]
  cases recognised mem tempStr models with
  | none => exact hw
  | some type => exact fresh_appendSensor id type World.Fresh w hw

theorem fresh_sensorJoin (len : UInt8) (id cid : UInt16) (i : Option ℕ) :
    Triple mem World.Fresh (sensorJoin len id cid i) fun _ => World.Fresh := by
  apply fresh_when
  intro _
  apply fresh_when
  intro _
  refine (Triple.cell World.Fresh).bind fun n => fresh_when fun _ => ?_
  have hcopy : Triple mem World.Fresh (strncpyRx 13 n.toNat) fun _ => World.Fresh := by
    intro w hw
    rwa [run_strncpyRx]
  exact hcopy.bind fun tempStr => fresh_joinAs id tempStr modelTypes

theorem fresh_onOffReport (now : Tm) (len : UInt8) (id : UInt16) :
    Triple mem World.Fresh (onOffReport now len id) fun _ => World.Fresh := by
  refine fresh_when fun _ => (Triple.cell World.Fresh).bind fun kick => ?_
  by_cases hkick : kick = 0x20
  · rw [if_pos hkick]
    exact fresh_emit _
  · rw [if_neg hkick]
    exact (Triple.cell World.Fresh).bind fun action => fresh_emit _

theorem fresh_motionLight (j : Option ℕ) :
    Triple mem World.Fresh (motionLight j) fun _ => World.Fresh := by
  cases j with
  | none => exact fun _ hw => hw
  | some j =>
    refine (fresh_gets _).bind fun s => fresh_when fun _ => ?_
    refine (fresh_gets _).bind fun humand => fresh_when fun _ => ?_
    exact (fresh_emit _).bind fun _ => fresh_modify _ fun _ hw => hw

theorem fresh_occupancyReport (len : UInt8) (id : UInt16) :
    Triple mem World.Fresh (occupancyReport len id) fun _ => World.Fresh := by
  apply fresh_when
  intro _
  apply fresh_when
  intro _
  refine (fresh_findDev chufangId).bind fun j => (fresh_motionLight j).bind fun _ => ?_
  exact (fresh_gets _).bind fun humand => fresh_when fun _ => fresh_modify _ fun _ hw => hw

theorem fresh_measureReport (len : UInt8) :
    Triple mem World.Fresh (measureReport len) fun _ => World.Fresh := by
  refine fresh_when fun _ => (Triple.cell World.Fresh).bind fun _ => ?_
  exact (Triple.cell World.Fresh).bind fun _ => fun _ hw => hw

theorem fresh_xiaomi18 (now : Tm) (len : UInt8) (id cid : UInt16) :
    Triple mem World.Fresh (xiaomi18 now len id cid) fun _ => World.Fresh := by
  refine (fresh_findDev id).bind fun i => (fresh_sensorJoin len id cid i).bind fun _ => ?_
  split_ifs
  · exact fresh_onOffReport now len id
  · exact fresh_occupancyReport len id
  · exact fresh_measureReport len
  · exact fresh_measureReport len
  · exact fun _ hw => hw

theorem fresh_dispatch (now : Tm) (len : UInt8) (id cid : UInt16) (cmd : UInt8)
    (h : ¬ (cmd = mxjCtrlUp ∧ id = powerCiwoId)) :
    Triple mem World.Fresh (dispatch now len id cid cmd) fun _ => World.Fresh := by
  unfold dispatch
  split_ifs with hup
  · exact fresh_ctrlUp fun hid => h ⟨hup, hid⟩
  · exact fresh_emit _
  · exact fresh_sendState len id
  · exact fresh_emit _
  · exact fresh_xiaomi18 now len id cid
  · exact (fresh_findDev id).bind fun _ => fun _ hw => hw
  · exact fun _ hw => hw

theorem fresh_checkOffline (i : ℕ) :
    Triple mem World.Fresh (checkOffline i) fun _ => World.Fresh := by
  refine (fresh_gets _).bind fun d => ?_
  split_ifs
  · exact (fresh_gets _).bind fun tblock => fresh_emit _
  · -- only `heart` is reset, which is not rendered
    intro w hw
    rw [run_setDevice]
    refine hw.of_same rfl rfl fun j => ?_
    by_cases hj : j = i
    · subst hj
      simp [deviceJson]
    · simp [hj]

theorem fresh_tick (now : Tm) : Triple mem World.Fresh (tick now) fun _ => World.Fresh := by
  unfold tick
  refine Triple.bind (fresh_modify _ fun _ hw => hw) fun _ => ?_
  refine (fresh_gets _).bind fun flagHour => (fresh_when fun _ => ?_).bind fun _ => ?_
  · unfold offlineChecks
    refine Triple.bind (fresh_modify _ fun _ hw => hw) fun _ => ?_
    exact (fresh_gets _).bind fun n => Triple.each fresh_checkOffline
  · refine (fresh_gets _).bind fun humand => (fresh_when fun _ => ?_).bind fun _ => ?_
    · exact Triple.bind (fresh_modify _ fun _ hw => hw) fun _ => fresh_emit _
    · exact fresh_when fun _ => fresh_modify _ fun _ hw => hw

/-- A report of the bedroom socket. -/
def Input.TogglesSocket : Input → Prop
  | .frame _ behind rx len => rx 0 = mxjCtrlUp ∧ idOf (memory rx behind) len = powerCiwoId
  | .tick _ => False

theorem fresh_started (now : Tm) : (World.started now).Fresh := by
  have hsetup : Triple (fun _ => 0) (fun _ => True) (mainSetup now) fun _ => World.Fresh :=
    (Triple.any _).bind fun _ => (Triple.any _).bind fun _ => (Triple.any _).bind fun _ =>
      (Triple.any _).bind fun _ => fresh_buildJson _
  exact hsetup _ trivial

theorem fresh_gateway_step (w : World) (x : Input) (hw : w.Fresh) (hx : ¬ x.TogglesSocket) :
    (gateway.step w x).1.Fresh := by
  cases x with
  | frame now behind rx len =>
    have hstart : ({ w with tblock := now } : World).Fresh := hw
    simp only [gateway, Input.run, run_recieveUsart]
    exact fresh_dispatch now len _ _ _ hx _ hstart
  | tick now => exact fresh_tick now w hw

/-- From the start, whatever frames are received and however the loop runs in between,
as long as the socket does not report, `json_str` is the text of the table after
every step. -/
theorem json_fresh (now : Tm) (xs : List Input) (h : ∀ x ∈ xs, ¬ x.TogglesSocket)
    (p : List Input) (hp : p <+: xs) : (gateway.after (World.started now) p).Fresh := by
  have hquiet : ∀ (w : World) (ys : List Input), (∀ x ∈ ys, ¬ x.TogglesSocket) →
      gateway.Along (fun _ x => ¬ x.TogglesSocket) w ys := by
    intro w ys hys
    induction ys generalizing w with
    | nil => trivial
    | cons y ys ih => exact ⟨hys y (by simp), ih _ fun x hx => hys x (by simp [hx])⟩
  exact Transducer.after_invariant fresh_gateway_step (fresh_started now)
    (hquiet _ p fun x hx => h x (hp.subset hx))

end

def received (payload : List UInt8) : Input :=
  .frame march (fun _ => 0) (fun i => payload.getD i 0) (UInt8.ofNat payload.length)

/-- A switch report, a round of the loop and a state report of the socket. -/
theorem json_fresh_reports :
    letI := spacedJsonC
    (gateway.after (World.started march)
      [received [1, 7, 0x4c, 0x35, 0, 1, 1, 0], .tick march,
        received [6, 10, 0x0c, 0x41, 0, 6, 0, 1, 1, 0, 0]]).Fresh :=
  letI := spacedJsonC
  json_fresh march _ (by simp [Input.TogglesSocket, received, idOf, memory]; decide) _
    (List.prefix_refl _)

/-- A report of the socket leaves the old state in the text. -/
theorem json_stale_after_toggle :
    letI := spacedJsonC
    ¬ (gateway.after (World.started march) [received [1, 3, 0x0c, 0x41]]).Fresh := by
  unfold World.Fresh
  decide +kernel

end IdolGateway.ZbClient
