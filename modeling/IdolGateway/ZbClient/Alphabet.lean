import IdolGateway.ZbClient.FrameOutput
import IdolGateway.ZbClient.Joins

namespace IdolGateway.ZbClient

open Procedure

namespace UsartCall

/-- A control frame: command byte 0. -/
def IsCtrl (c : UsartCall) : Prop := c.payload.head? = some 0

def states (c : UsartCall) : List UInt8 := c.payload.drop 4

def IsFor (id : UInt16) (c : UsartCall) : Prop := (c.payload.drop 2).take 2 = [hiByte id, loByte id]

/-- If it is a control frame, it has states in `0..3` and is not for the socket. -/
def Plain (c : UsartCall) : Prop :=
  c.IsCtrl → (∀ b ∈ c.states, b ≤ 3) ∧ ¬ c.IsFor powerCiwoId

theorem plain_of_payload {c : UsartCall} {len : UInt8} {id : UInt16} {msgs : List UInt8}
    (h : c.payload = 0 :: len :: hiByte id :: loByte id :: msgs) (hid : id ≠ powerCiwoId)
    (hmsgs : ∀ b ∈ msgs, b ≤ 3) : c.Plain := by
  intro _
  constructor
  · intro b hb
    rw [states, h] at hb
    exact hmsgs b hb
  · intro hfor
    rw [IsFor, h] at hfor
    -- the two bytes determine the id
    have hbytes : hiByte id = hiByte powerCiwoId ∧ loByte id = loByte powerCiwoId := by
      simpa using hfor
    apply hid
    rw [← word_bytes id, hbytes.1, hbytes.2, word_bytes]

end UsartCall

def usartFrames (o : List Out) : List UsartCall := o.filterMap Out.usart?

def PlainOut (o : List Out) : Prop := ∀ c ∈ usartFrames o, c.Plain

namespace PlainOut

theorem nil : PlainOut [] := by simp [PlainOut, usartFrames]

theorem append {o o' : List Out} (h : PlainOut o) (h' : PlainOut o') : PlainOut (o ++ o') := by
  intro c hc
  rw [usartFrames, List.filterMap_append, List.mem_append] at hc
  exact hc.elim (h c) (h' c)

theorem cons {o : Out} {os : List Out} (h : PlainOut [o]) (h' : PlainOut os) : PlainOut (o :: os) :=
  append h h'

theorem ite {p : Prop} [Decidable p] {o : List Out} (h : PlainOut o) :
    PlainOut (if p then o else []) := by
  by_cases hp : p
  · rw [if_pos hp]
    exact h
  · rw [if_neg hp]
    exact nil

theorem of_forall {o : List Out} (h : ∀ x ∈ o, PlainOut [x]) : PlainOut o := by
  induction o with
  | nil => exact nil
  | cons x o ih =>
    rw [List.forall_mem_cons] at h
    exact cons h.1 (ih h.2)

theorem usart {c : UsartCall} (h : c.Plain) : PlainOut [.usart c] := by
  intro d hd
  obtain rfl : d = c := by simpa [usartFrames, Out.usart?] using hd
  exact h

theorem silent {o : Out} (h : o.usart? = none) : PlainOut [o] := by
  intro c hc
  simp [usartFrames, h] at hc

theorem ctrl {id : UInt16} {msg1 msg2 msg3 : UInt8} (hid : id ≠ powerCiwoId) (h1 : msg1 ≤ 3)
    (h2 : msg2 ≤ 3) (h3 : msg3 ≤ 3) : PlainOut [ZbClient.ctrl id 3 msg1 msg2 msg3] := by
  have hpayload : (mxjSendCtrlMessage id 3 msg1 msg2 msg3).payload =
      0 :: 6 :: hiByte id :: loByte id :: [msg1, msg2, msg3] := rfl
  apply usart
  apply UsartCall.plain_of_payload hpayload hid
  simp only [List.forall_mem_cons]
  exact ⟨h1, h2, h3, List.forall_mem_nil _⟩

theorem curtain {open1 close1 open2 close2 : UInt8} (h1 : open1 ≤ 3) (h2 : close1 ≤ 3)
    (h3 : open2 ≤ 3) (h4 : close2 ≤ 3) :
    PlainOut [.usart (curtainData open1 close1 open2 close2)] := by
  have hpayload : (curtainData open1 close1 open2 close2).payload =
      0 :: 7 :: hiByte chuanglianKeting1Id :: loByte chuanglianKeting1Id ::
        [open1, close1, open2, close2] := rfl
  apply usart
  apply UsartCall.plain_of_payload hpayload (by decide)
  simp only [List.forall_mem_cons]
  exact ⟨h1, h2, h3, h4, List.forall_mem_nil _⟩

theorem post (text : String) : PlainOut [.post text] := silent rfl

theorem command {o o' : Out} (h : PlainOut [o]) (h' : PlainOut [o']) : PlainOut [o, .pause, o'] :=
  cons h (cons (silent rfl) h')

theorem doubleKick (id : UInt16) : PlainOut (doubleKick id) := by
  unfold ZbClient.doubleKick
  apply append
  · apply append
    · apply append
      · apply append
        · exact (ctrl (by decide) (by decide) (by decide) (by decide)).ite
        · apply ite
          iterate 6 apply cons (ctrl (by decide) (by decide) (by decide) (by decide))
          exact ctrl (by decide) (by decide) (by decide) (by decide)
      · exact (command (ctrl (by decide) (by decide) (by decide) (by decide))
          (ctrl (by decide) (by decide) (by decide) (by decide))).ite
    · exact (command (curtain (by decide) (by decide) (by decide) (by decide))
        (curtain (by decide) (by decide) (by decide) (by decide))).ite
  · exact (command (curtain (by decide) (by decide) (by decide) (by decide))
      (curtain (by decide) (by decide) (by decide) (by decide))).ite

theorem leakReport (now : Tm) (place : String) {room : UInt16} (action : UInt8)
    (hroom : room ≠ powerCiwoId) : PlainOut (leakReport now place room action) := by
  unfold ZbClient.leakReport
  split_ifs
  · apply cons (post _)
    apply cons (ctrl (by decide) (by decide) (by decide) (by decide))
    exact ctrl hroom (by decide) (by decide) (by decide)
  · exact post _
  · exact nil

theorem singleKick (now : Tm) (id : UInt16) (action : UInt8) :
    PlainOut (singleKick now id action) := by
  unfold ZbClient.singleKick
  iterate 7 apply append
  · exact (ctrl (by decide) (by decide) (by decide) (by decide)).ite
  · exact (ctrl (by decide) (by decide) (by decide) (by decide)).ite
  · exact (command (ctrl (by decide) (by decide) (by decide) (by decide))
      (ctrl (by decide) (by decide) (by decide) (by decide))).ite
  · exact (command (curtain (by decide) (by decide) (by decide) (by decide))
      (curtain (by decide) (by decide) (by decide) (by decide))).ite
  · exact (command (curtain (by decide) (by decide) (by decide) (by decide))
      (curtain (by decide) (by decide) (by decide) (by decide))).ite
  · exact (post _).ite
  · exact (leakReport now "次卧" action (by decide)).ite
  · exact (leakReport now "厨房" action (by decide)).ite

theorem register (id : UInt16) :
    PlainOut ((mxjSendRegisterMessage id mxjRegisterOk).map .usart) := by
  apply usart
  intro hctrl
  exact absurd hctrl (by simp [UsartCall.IsCtrl, UsartCall.payload])

theorem law (n : ℕ) : ReportLaw n PlainOut where
  nil := nil
  append := append
  store := fun i _ => silent rfl
  light := ctrl (by decide) (by decide) (by decide) (by decide)
  register := register
  double := doubleKick
  single := singleKick

end PlainOut

section States

variable {mem : Loc → UInt8} (i : ℕ) (s : Fin 3 → UInt8)

def World.StatesOf (i : ℕ) (s : Fin 3 → UInt8) (w : World) : Prop := (w.mxjDevice i).state = s

abbrev Spares (mem : Loc → UInt8) (i : ℕ) (s : Fin 3 → UInt8) (p : Handler Unit) : Prop :=
  Triple mem (World.StatesOf i s) p fun _ => World.StatesOf i s

theorem spares_when {c : Prop} [Decidable c] {p : Handler Unit} (hp : Spares mem i s p) :
    Spares mem i s (when c p) :=
  Triple.when (fun _ => hp) fun _ _ hw => hw

theorem spares_setHumand (h : ℤ) :
    Spares mem i s (modify fun w => { w with humand := h }) := fun _ hw => hw

theorem spares_emit (o : List Out) : Spares mem i s (emit o) := fun _ hw => hw

theorem spares_findDev (id : UInt16) :
    Triple mem (World.StatesOf i s) (findDev id) fun _ => World.StatesOf i s := by
  intro w hw
  rw [run_findDev]
  exact (beat_state w id i).trans hw

theorem spares_setDevice (j : ℕ) {f : MxjDevice → MxjDevice}
    (hf : ∀ d, (f d).state = d.state) : Spares mem i s (setDevice j f) := by
  intro w hw
  rw [run_setDevice]
  unfold World.StatesOf at *
  by_cases hj : i = j
  · subst hj
    simp [hf, hw]
  · simp [hj, hw]

variable {i} in
theorem spares_storeRx {j : ℕ} (hj : i ≠ j) (k : Fin 3) (n : ℕ) :
    Spares mem i s (storeRx j k n) := by
  refine Triple.bind (Triple.cell _) fun v => ?_
  intro w hw
  unfold World.StatesOf storeState at *
  rw [run_setDevice]
  simp [hj, hw]

variable {i} in
theorem spares_channelReport {j : ℕ} (hj : i ≠ j) (c : UInt8) (k : Fin 3) :
    Spares mem i s (channelReport j c k) := by
  refine Triple.bind (Triple.cell _) fun channel => ?_
  exact spares_when i s (spares_storeRx s hj k 6)

variable {i} in
theorem spares_switchReport [JsonC] (id : UInt16) {j : ℕ} (hj : i ≠ j) :
    Spares mem i s (switchReport id j) := by
  refine Triple.bind (spares_channelReport s hj 1 0) fun _ => ?_
  refine Triple.bind (spares_channelReport s hj 2 1) fun _ => ?_
  refine Triple.bind (spares_channelReport s hj 3 2) fun _ => ?_
  exact Triple.bind (spares_when i s (spares_setHumand i s 0)) fun _ _ hw => hw

variable {i} in
theorem spares_toggleSocket {j : ℕ} (hj : i ≠ j) : Spares mem i s (toggleSocket j) := by
  intro w hw
  unfold World.StatesOf toggleSocket storeState at *
  rw [run_gets_bind, run_bind_state, run_emit, run_gets_bind, run_setDevice]
  simp [hj, hw]

/-- A `CTRL_UP` or `SEND_STATE` frame touches the states of its sender only. -/
theorem states_ctrlUp [JsonC] {w : World} {id : UInt16} (hid : w.lookup id ≠ some i)
    (hw : w.StatesOf i s) : (((ctrlUp id).run mem w).state).StatesOf i s := by
  unfold ctrlUp
  rw [run_bind_state, run_findDev]
  have hbeat : (w.beat id).StatesOf i s := (beat_state w id i).trans hw
  cases hfound : w.lookup id with
  | none => exact hbeat
  | some j =>
    have hj : i ≠ j := by
      intro h
      exact hid (h ▸ hfound)
    rw [run_gets_bind]
    have hreport : ∀ type : UInt8, Spares mem i s (when (type = 4) (switchReport id j)) :=
      fun type => spares_when i s (spares_switchReport s id hj)
    exact (hreport _).bind (fun _ => spares_when i s (spares_toggleSocket s hj)) _ hbeat

theorem states_sendState [JsonC] {w : World} (len : UInt8) {id : UInt16}
    (hid : w.lookup id ≠ some i) (hw : w.StatesOf i s) :
    (((sendState len id).run mem w).state).StatesOf i s := by
  unfold sendState
  rw [run_bind_state, run_findDev]
  have hbeat : (w.beat id).StatesOf i s := (beat_state w id i).trans hw
  cases hfound : w.lookup id with
  | none => exact hbeat
  | some j =>
    have hj : i ≠ j := by
      intro h
      exact hid (h ▸ hfound)
    have hreport : Spares mem i s (stateReport len j) := by
      refine Triple.bind (spares_when i s (spares_storeRx s hj 0 8)) fun _ => ?_
      refine Triple.bind (spares_when i s (spares_storeRx s hj 1 9)) fun _ => ?_
      exact Triple.bind (spares_when i s (spares_storeRx s hj 2 10)) fun _ _ hw => hw
    exact hreport _ hbeat

theorem spares_onOffReport (now : Tm) (len : UInt8) (id : UInt16) :
    Spares mem i s (onOffReport now len id) := by
  apply spares_when
  refine Triple.bind (Triple.cell _) fun kick => ?_
  by_cases hkick : kick = 0x20
  · rw [if_pos hkick]
    exact spares_emit i s _
  · rw [if_neg hkick]
    exact (Triple.cell _).bind fun _ => spares_emit i s _

theorem spares_motionLight (j : Option ℕ) : Spares mem i s (motionLight j) := by
  intro w hw
  rw [run_motionLight]
  split_ifs
  · exact hw
  · exact hw

theorem spares_occupancyReport (len : UInt8) (id : UInt16) :
    Spares mem i s (occupancyReport len id) := by
  apply spares_when
  apply spares_when
  refine Triple.bind (spares_findDev i s chufangId) fun j => ?_
  refine Triple.bind (spares_motionLight i s j) fun _ => ?_
  intro w hw
  rw [run_gets_bind]
  exact spares_when i s (spares_setHumand i s 120) w hw

theorem spares_measureReport (len : UInt8) : Spares mem i s (measureReport len) :=
  spares_when i s ((Triple.cell _).bind fun _ => (Triple.cell _).bind fun _ => fun _ hw => hw)

theorem spares_appendSensor [JsonC] (id : UInt16) (type : UInt8) :
    Spares mem i s (appendSensor id type) := by
  have hsize : Triple mem (World.StatesOf i s) (gets fun w => w.devsize : Handler UInt8)
      fun _ => World.StatesOf i s := fun _ hw => hw
  refine hsize.bind fun n => ?_
  refine (spares_setDevice i s n.toNat fun _ => ?_).bind fun _ => ?_
  · rfl
  · exact Triple.bind (spares_when i s fun _ hw => hw) fun _ _ hw => hw

theorem spares_xiaomi18 [JsonC] (now : Tm) (len : UInt8) (hcmd : mem (.rx 0) = mxjXiaomi18) :
    Spares mem i s (xiaomi18 now len (idOf mem len) (cidOf mem len)) := by
  refine Triple.bind (spares_findDev i s _) fun found => ?_
  have hjoin : Spares mem i s (sensorJoin len (idOf mem len) (cidOf mem len) found) := by
    intro w hw
    rw [run_sensorJoin mem w len _ found hcmd]
    cases (if found = none then sensorType mem len else none) with
    | none => exact hw
    | some type => exact spares_appendSensor i s _ type w hw
  refine Triple.bind hjoin fun _ => ?_
  split_ifs
  · exact spares_onOffReport i s now len _
  · exact spares_occupancyReport i s len _
  · exact spares_measureReport i s len
  · exact spares_measureReport i s len
  · exact fun _ hw => hw

theorem states_frame [JsonC] {w : World} {len : UInt8} (now : Tm)
    (hother : mem (.rx 0) = mxjCtrlUp ∨ mem (.rx 0) = mxjSendState →
      w.lookup (idOf mem len) ≠ some i) :
    ((recieveUsart now len).run mem w).state.StatesOf i (w.mxjDevice i).state := by
  have hw : ({ w with tblock := now } : World).StatesOf i (w.mxjDevice i).state := rfl
  rw [run_recieveUsart]
  unfold dispatch
  split_ifs with hup hreg hsend hget h18 h1c
  · exact states_ctrlUp i _ (hother (Or.inl hup)) hw
  · exact hw
  · exact states_sendState i _ len (hother (Or.inr hsend)) hw
  · exact hw
  · exact spares_xiaomi18 i _ now len h18 _ hw
  · rw [run_bind_state]
    exact spares_findDev i _ _ _ hw
  · exact hw

end States

theorem run_toggleSocket (mem : Loc → UInt8) (w : World) (i : ℕ) :
    (toggleSocket i).run mem w = ⟨(), w.withStates i (toggled (w.mxjDevice i).state),
      [ctrl powerCiwoId 1 (1 - (w.mxjDevice i).state 0) 0 0, .store i]⟩ := rfl

theorem run_click [JsonC] (mem : Loc → UInt8) {w : World} {i : ℕ}
    (hi : w.lookup powerCiwoId = some i) (htype : (w.mxjDevice i).type ≠ 4) :
    (ctrlUp powerCiwoId).run mem w =
      ⟨(), (w.beat powerCiwoId).withStates i (toggled (w.mxjDevice i).state),
        [.store i, ctrl powerCiwoId 1 (1 - (w.mxjDevice i).state 0) 0 0, .store i]⟩ := by
  have hbeat : ((w.beat powerCiwoId).mxjDevice i).type ≠ 4 := by rwa [w.beat_type]
  have hquiet : (when (((w.beat powerCiwoId).mxjDevice i).type = 4)
      (switchReport powerCiwoId i)).run mem (w.beat powerCiwoId) =
        ⟨(), w.beat powerCiwoId, []⟩ := by
    rw [run_when, if_neg hbeat]
  unfold ctrlUp
  rw [run_bind, run_findDev, hi]
  dsimp only
  rw [run_gets_bind, run_bind_of_quiet hquiet, run_when, if_pos rfl, run_toggleSocket, beat_state]
  rfl

section Socket

def Input.ReportsSocket : Input → Prop
  | .frame _ behind rx len => rx 0 = mxjSendState ∧ idOf (memory rx behind) len = powerCiwoId
  | .tick _ => False

def Input.AsksSocketState : Input → Prop
  | .frame _ behind rx len => rx 0 = mxjGetState ∧ idOf (memory rx behind) len = powerCiwoId
  | .tick _ => False

def World.socketState (w : World) : Option UInt8 :=
  (w.lookup powerCiwoId).map fun i => (w.mxjDevice i).state 0

/-- The socket reports a click, and the table holds neither off nor on for it. -/
def Input.Unclear (w : World) (x : Input) : Prop :=
  x.TogglesSocket ∧ w.socketState ≠ some 0 ∧ w.socketState ≠ some 1

def toSocket (v : UInt8) : UsartCall := mxjSendCtrlMessage powerCiwoId 1 v 0 0

theorem states_toSocket (v : UInt8) : (toSocket v).states = [v] := rfl

variable {w : World} {x : Input}

theorem lookup_socket (hw : w.KeepsFixed) : w.lookup powerCiwoId = some 14 :=
  hw.lookup (k := 14) rfl

theorem socketState_eq (hw : w.KeepsFixed) : w.socketState = some ((w.mxjDevice 14).state 0) := by
  rw [World.socketState, lookup_socket hw]
  rfl

variable [JsonC]

/-- Only the socket's own frames change what the table holds for it. -/
theorem socketState_step (hw : w.KeepsFixed) (hup : ¬ x.TogglesSocket) (hsend : ¬ x.ReportsSocket) :
    (gateway.step w x).1.socketState = w.socketState := by
  rw [socketState_eq (keepsFixed_step w x hw), socketState_eq hw]
  cases x with
  | tick now =>
    obtain ⟨h, hslot⟩ := w.ticked_mxjDevice now 14
    rw [step_tick, hslot]
  | frame now behind rx len =>
    have hother : memory rx behind (.rx 0) = mxjCtrlUp ∨ memory rx behind (.rx 0) = mxjSendState →
        w.lookup (idOf (memory rx behind) len) ≠ some 14 := by
      intro hcmd hfound
      have hid : idOf (memory rx behind) len = powerCiwoId := by
        rw [← ((lookup_eq_some_iff w _ _).mp hfound).2.1]
        exact hw.id (k := 14) rfl
      rcases hcmd with hcmd | hcmd
      · exact hup ⟨hcmd, hid⟩
      · exact hsend ⟨hcmd, hid⟩
    have hstate : (((gateway.step w (.frame now behind rx len)).1).mxjDevice 14).state =
        (w.mxjDevice 14).state := states_frame 14 now hother
    rw [hstate]

/-- The socket is sent the other state, and the table takes it over. -/
theorem toggle_step (hw : w.KeepsFixed) (hx : x.TogglesSocket) :
    usartFrames (gateway.step w x).2 = [toSocket (1 - (w.mxjDevice 14).state 0)] ∧
      (gateway.step w x).1.socketState = some (1 - (w.mxjDevice 14).state 0) := by
  rw [socketState_eq (keepsFixed_step w x hw)]
  cases x with
  | tick now => exact hx.elim
  | frame now behind rx len =>
    obtain ⟨hcmd, hid⟩ := hx
    have hdispatch : dispatch now len (idOf (memory rx behind) len) (cidOf (memory rx behind) len)
        (memory rx behind (.rx 0)) = ctrlUp powerCiwoId := by
      rw [hid]
      exact if_pos hcmd
    have htype : (w.mxjDevice 14).type ≠ 4 := by
      rw [hw.type (k := 14) rfl]
      decide
    have hfind : ({ w with tblock := now } : World).lookup powerCiwoId = some 14 := lookup_socket hw
    have hrun := run_click (memory rx behind) hfind htype
    rw [← hdispatch, ← run_recieveUsart] at hrun
    simp only [gateway, Input.run, hrun]
    exact ⟨rfl, by simp [toggled]⟩

theorem ask_step (hx : x.AsksSocketState) :
    usartFrames (gateway.step w x).2 = [mxjSendCtrlMessage powerCiwoId 1 2 2 2] := by
  cases x with
  | tick now => exact hx.elim
  | frame now behind rx len =>
    obtain ⟨hcmd, hid⟩ := hx
    have hvalue : memory rx behind (.rx 0) = mxjGetState := hcmd
    have hout : (gateway.step w (.frame now behind rx len)).2 = [ctrl powerCiwoId 1 2 2 2] := by
      simp only [gateway, Input.run, run_recieveUsart, hid, hvalue]
      rfl
    rw [hout]
    rfl

theorem plain_step (hup : ¬ x.TogglesSocket) (hask : ¬ x.AsksSocketState) :
    PlainOut (gateway.step w x).2 := by
  cases x with
  | tick now =>
    rw [step_tick]
    apply PlainOut.of_forall
    intro o ho
    rcases (w.mem_tickOut o).mp ho with ⟨-, i, -, ⟨-, rfl⟩ | ⟨-, rfl⟩⟩ | ⟨-, rfl⟩
    · exact PlainOut.silent rfl
    · exact PlainOut.silent rfl
    · exact PlainOut.ctrl (by decide) (by decide) (by decide) (by decide)
  | frame now behind rx len =>
    apply frame_out_of_report (PlainOut.law _) (fun hcmd hid => absurd ⟨hcmd, hid⟩ hup)
    · intro hcmd
      have hpayload : (mxjSendCtrlMessage (idOf (memory rx behind) len) 1 2 2 2).payload =
          0 :: 4 :: hiByte (idOf (memory rx behind) len) :: loByte (idOf (memory rx behind) len) ::
            [2] := rfl
      apply PlainOut.usart
      apply UsartCall.plain_of_payload hpayload fun hid => hask ⟨hcmd, hid⟩
      intro b hb
      rw [List.mem_singleton.mp hb]
      decide
    · exact fun _ => PlainOut.silent rfl

/-- What the next steps from `w` send. -/
structure World.SpeaksProtocol (w : World) : Prop where
  alphabet : ∀ x : Input, ¬ x.Unclear w → ∀ c ∈ usartFrames (gateway.step w x).2, c.IsCtrl →
    ∀ b ∈ c.states, b ≤ 3
  socket : ∀ x : Input, ¬ x.Unclear w → ¬ x.AsksSocketState →
    ∀ c ∈ usartFrames (gateway.step w x).2, c.IsCtrl → c.IsFor powerCiwoId →
      c.states = [0] ∨ c.states = [1]
  answer : ∀ x : Input, x.AsksSocketState →
    (usartFrames (gateway.step w x).2).map UsartCall.states = [[2]]
  alternates : ∀ (up up' : Input) (mid : List Input), up.TogglesSocket → up'.TogglesSocket →
    ¬ up.Unclear w → (∀ x ∈ mid, ¬ x.TogglesSocket ∧ ¬ x.ReportsSocket) →
      ∃ v, (v = 0 ∨ v = 1) ∧ usartFrames (gateway.step w up).2 = [toSocket v] ∧
        usartFrames (gateway.step (gateway.after w (up :: mid)) up').2 = [toSocket (1 - v)]

theorem toggle_clear (hw : w.KeepsFixed) (hx : x.TogglesSocket) (hclear : ¬ x.Unclear w) :
    ∃ v, (v = 0 ∨ v = 1) ∧ usartFrames (gateway.step w x).2 = [toSocket v] ∧
      (gateway.step w x).1.socketState = some v := by
  obtain ⟨hframes, hstate⟩ := toggle_step hw hx
  refine ⟨_, ?_, hframes, hstate⟩
  by_contra hv
  apply hclear
  refine ⟨hx, ?_, ?_⟩
  · rw [socketState_eq hw]
    intro h
    rw [Option.some_inj.mp h] at hv
    exact hv (by decide)
  · rw [socketState_eq hw]
    intro h
    rw [Option.some_inj.mp h] at hv
    exact hv (by decide)

theorem socketState_after (hw : w.KeepsFixed) {mid : List Input}
    (hmid : ∀ x ∈ mid, ¬ x.TogglesSocket ∧ ¬ x.ReportsSocket) :
    (gateway.after w mid).socketState = w.socketState := by
  induction mid generalizing w with
  | nil => rfl
  | cons x mid ih =>
    rw [List.forall_mem_cons] at hmid
    rw [gateway.after_cons, ih (keepsFixed_step w x hw) hmid.2,
      socketState_step hw hmid.1.1 hmid.1.2]

theorem speaksProtocol_of_fixed (hw : w.KeepsFixed) : w.SpeaksProtocol where
  alphabet := by
    intro x hclear c hc hctrl b hb
    by_cases hup : x.TogglesSocket
    · obtain ⟨v, hv, hframes, -⟩ := toggle_clear hw hup hclear
      rw [hframes, List.mem_singleton] at hc
      rw [hc, states_toSocket, List.mem_singleton] at hb
      rcases hv with rfl | rfl
      · rw [hb]
        decide
      · rw [hb]
        decide
    · by_cases hask : x.AsksSocketState
      · rw [ask_step hask, List.mem_singleton] at hc
        have hkeep : (mxjSendCtrlMessage powerCiwoId 1 2 2 2).states = [2] := rfl
        rw [hc, hkeep, List.mem_singleton] at hb
        rw [hb]
        decide
      · exact (plain_step hup hask c hc hctrl).1 b hb
  socket := by
    intro x hclear hask c hc hctrl hfor
    by_cases hup : x.TogglesSocket
    · obtain ⟨v, hv, hframes, -⟩ := toggle_clear hw hup hclear
      rw [hframes, List.mem_singleton] at hc
      rw [hc, states_toSocket]
      rcases hv with rfl | rfl
      · exact Or.inl rfl
      · exact Or.inr rfl
    · exact absurd hfor (plain_step hup hask c hc hctrl).2
  answer := by
    intro x hask
    rw [ask_step hask]
    rfl
  alternates := by
    intro up up' mid hup hup' hclear hmid
    obtain ⟨v, hv, hframes, hstate⟩ := toggle_clear hw hup hclear
    have hkeeps := keepsFixed_step w up hw
    have hsecond := (toggle_step (keepsFixed_after hkeeps mid) hup').1
    have hheld := socketState_after hkeeps hmid
    rw [socketState_eq (keepsFixed_after hkeeps mid), hstate, Option.some_inj] at hheld
    rw [hheld] at hsecond
    exact ⟨v, hv, hframes, hsecond⟩

/-- From the initialised table, whatever is received and however the main loop runs. -/
theorem alphabet_kept (start : Tm) (xs : List Input) :
    (gateway.after (World.started start) xs).SpeaksProtocol :=
  speaksProtocol_of_fixed (keepsFixed_after (keepsFixed_started start) xs)

end Socket

/-- A `GET_STATE` of the socket is answered with 2, and a click behind the report of the
state 5 with 252. -/
theorem socket_sent_other_values :
    letI := spacedJsonC
    (¬ ∀ c ∈ usartFrames (gateway.step (World.started march) (received [5, 3, 0x0c, 0x41])).2,
        c.IsCtrl → c.IsFor powerCiwoId → c.states = [0] ∨ c.states = [1]) ∧
      ¬ ∀ c ∈ usartFrames (gateway.outputs (World.started march)
          [received [6, 9, 0x0c, 0x41, 0, 6, 6, 1, 5, 0x6a], received [1, 3, 0x0c, 0x41]]),
        c.IsCtrl → ∀ b ∈ c.states, b ≤ 3 := by
  constructor
  · intro h
    have hkeep := h (mxjSendCtrlMessage powerCiwoId 1 2 2 2) (by decide +kernel) rfl rfl
    exact absurd hkeep (by decide)
  · intro h
    have hbyte := h (toSocket 252) (by decide +kernel) rfl 252 (List.mem_singleton_self _)
    exact absurd hbyte (by decide)

end IdolGateway.ZbClient
