import IdolGateway.ZbClient.Http
import IdolGateway.ZbClient.JsonFresh
import IdolGateway.ZbClient.LineThread
import IdolGateway.ZbClient.StaleBytes
import IdolGateway.ZbClient.TickEffect

/-!
# The three threads

`thread()` reads bytes, `main` goes through its loop once a second, and the daemon calls
`answer_to_connection`.  They meet in the device table, in `json_str` and in `tblock`.  Every
byte, round and call is a step, and the steps come in any order.
-/

namespace IdolGateway.ZbClient

open Procedure

/-- The globals, sorted by who works on them; the daemon reads the `json_str` of the table. -/
structure Globals where
  world : World
  daemon : Daemon

inductive Deed
  | home (x : Input)
  | answer (now : Tm) (c : ConnId) (r : Request)
  | completed (c : ConnId) (connectiontype : ℤ)

def Deed.home? : Deed → Option Input
  | .home x => some x
  | _ => none

def Deed.call? : Deed → Option HttpCall
  | .home _ => none
  | .answer _ c r => some (.answer c r)
  | .completed c connectiontype => some (.completed c connectiontype)

inductive Other
  | tick (now : Tm)
  | answer (now : Tm) (c : ConnId) (r : Request)
  | completed (c : ConnId) (connectiontype : ℤ)

def Other.deed : Other → Deed
  | .tick now => .home (.tick now)
  | .answer now c r => .answer now c r
  | .completed c connectiontype => .completed c connectiontype

def receivedDeed (e : Tm × (ℕ → UInt8)) (c : RxCall) : Deed := .home (.ofCall e.1 e.2 c)

/-- What the line brings, and what the other threads do. -/
abbrev ProgramInput := (UInt8 × Tm × (ℕ → UInt8)) ⊕ Other

def deeds : Transducer (Option Receiver) ProgramInput Deed :=
  (lineThread receivedDeed).merge Other.deed

def World.SameButTime (w w' : World) : Prop := ∃ t, w = { w' with tblock := t }

theorem World.SameButTime.refl (w : World) : w.SameButTime w := ⟨w.tblock, rfl⟩

theorem usart_checkOut (w : World) (is : List ℕ) :
    (is.flatMap w.checkOut).filterMap Out.usart? = [] := by
  rw [List.filterMap_flatMap, List.flatMap_eq_nil_iff]
  intro i _
  unfold World.checkOut
  split_ifs <;> rfl

def Daemon.SameButText (d d' : Daemon) : Prop := ∃ text, d = { d' with jsonStr := text }

theorem completed_text (d : Daemon) (text : Option String) (c : ConnId) (t : ℤ) :
    (requestCompleted { d with jsonStr := text } c t).1 =
        { (requestCompleted d c t).1 with jsonStr := text } ∧
      (requestCompleted { d with jsonStr := text } c t).2 = (requestCompleted d c t).2 := by
  unfold requestCompleted
  split_ifs <;> exact ⟨rfl, rfl⟩

section

variable [Parsers]

/-- Whoever answers a connection looks at the clock first. -/
def Globals.step (g : Globals) : Deed → Globals × List (Out ⊕ HttpEvent)
  | .home x =>
    let r := gateway.step g.world x
    (⟨r.1, { g.daemon with jsonStr := some r.1.jsonStr }⟩, r.2.map .inl)
  | .answer now c r =>
    let a := answerToConnection g.daemon c r
    (⟨{ g.world with tblock := now }, a.1⟩, a.2.1.map .inr)
  | .completed c connectiontype =>
    let a := requestCompleted g.daemon c connectiontype
    (⟨g.world, a.1⟩, a.2.map .inr)

def globals : Transducer Globals Deed (Out ⊕ HttpEvent) := ⟨Globals.step⟩

def Globals.started (now : Tm) : Globals :=
  ⟨.started now, { Daemon.initial with jsonStr := some (World.started now).jsonStr }⟩

def program : Transducer (Option Receiver × Globals) ProgramInput (Out ⊕ HttpEvent) :=
  deeds.through globals

def homeFrame? (o : Out ⊕ HttpEvent) : Option UsartCall := o.getLeft?.bind Out.usart?

def httpFrame? (o : Out ⊕ HttpEvent) : Option UsartCall := o.getRight?.bind HttpEvent.usart?

/-- A frame sets the time before it is handled, a round reads it for its alarms only. -/
theorem gateway_sameButTime {w w' : World} (h : w.SameButTime w') (x : Input) :
    (gateway.step w x).1.SameButTime (gateway.step w' x).1 ∧
      (gateway.step w x).2.filterMap Out.usart? = (gateway.step w' x).2.filterMap Out.usart? := by
  obtain ⟨t, rfl⟩ := h
  cases x with
  | frame now behind rx len =>
    -- the handler sets the clock first, so the two runs are one from there on
    have hstep : gateway.step { w' with tblock := t } (.frame now behind rx len) =
        gateway.step w' (.frame now behind rx len) := by
      simp only [gateway, Input.run, run_recieveUsart]
    rw [hstep]
    exact ⟨⟨_, rfl⟩, rfl⟩
  | tick now =>
    simp only [gateway, Input.run, run_tick]
    refine ⟨⟨({ w' with tblock := t } : World).ticked now |>.tblock, rfl⟩, ?_⟩
    -- the clock shows in the alarms of the check only, and an alarm is no frame
    unfold World.tickOut
    rw [List.filterMap_append, List.filterMap_append]
    refine congrArg₂ (· ++ ·) ?_ rfl
    rw [apply_ite (List.filterMap Out.usart?), apply_ite (List.filterMap Out.usart?),
      usart_checkOut, usart_checkOut]
    rfl

theorem globals_gateway : globals.Refines (gateway.seen Out.usart?)
    (fun g w => g.world.SameButTime w) (fun _ _ => True) (fun _ x => x.home?.toList)
    homeFrame? where
  state := by
    intro g w x hg _
    cases x with
    | home x => exact (gateway_sameButTime hg x).1
    | answer now c r =>
      obtain ⟨t, ht⟩ := hg
      exact ⟨now, congrArg (fun v : World => { v with tblock := now }) ht⟩
    | completed c connectiontype => exact hg
  out := by
    intro g w x hg _
    cases x with
    | home x =>
      refine Eq.trans ?_ ((gateway_sameButTime hg x).2.trans (List.append_nil _).symm)
      exact List.filterMap_map
    | answer now c r =>
      refine (List.filterMap_map).trans (List.filterMap_eq_nil_iff.mpr fun _ _ => rfl)
    | completed c connectiontype =>
      refine (List.filterMap_map).trans (List.filterMap_eq_nil_iff.mpr fun _ _ => rfl)

theorem upload_text (d : Daemon) (text : Option String) (u : Upload) :
    answerUpload { d with jsonStr := text } u =
      ({ (answerUpload d u).1 with jsonStr := text }, (answerUpload d u).2) := by
  unfold answerUpload
  cases u.contentLength with
  | none => rfl
  | some len2 =>
    dsimp only
    split_ifs <;> rfl

theorem answer_text (d : Daemon) (text : Option String) (c : ConnId) (r : Request) :
    (answerToConnection { d with jsonStr := text } c r).1 =
        { (answerToConnection d c r).1 with jsonStr := text } ∧
      (answerToConnection { d with jsonStr := text } c r).2.1.filterMap HttpEvent.usart? =
        (answerToConnection d c r).2.1.filterMap HttpEvent.usart? := by
  unfold answerToConnection
  dsimp only
  by_cases hopen : d.openConn c = false
  · rw [if_pos hopen, if_pos hopen]
    exact ⟨rfl, rfl⟩
  rw [if_neg hopen, if_neg hopen]
  by_cases hget : r.method = "GET"
  · rw [if_pos hget, if_pos hget]
    exact ⟨rfl, rfl⟩
  rw [if_neg hget, if_neg hget]
  by_cases hpost : r.method = "POST"
  · rw [if_pos hpost, if_pos hpost]
    cases r.upload with
    | none =>
      dsimp only
      split_ifs <;> exact ⟨rfl, rfl⟩
    | some u =>
      dsimp only
      split_ifs
      · have hup := upload_text { d with permitjoin := true } text u
        rw [hup]
        exact ⟨rfl, rfl⟩
      · rw [upload_text]
        exact ⟨rfl, rfl⟩
  · rw [if_neg hpost, if_neg hpost]
    exact ⟨rfl, rfl⟩

/-- The daemon does not see the table, except for the text. -/
theorem globals_daemon : globals.Refines (daemon.seen HttpEvent.usart?)
    (fun g d => g.daemon.SameButText d) (fun _ _ => True) (fun _ x => x.call?.toList)
    httpFrame? where
  state := by
    rintro ⟨w, _⟩ d x ⟨text, rfl⟩ _
    cases x with
    -- a frame rewrites the text under the daemon, and nothing else of it
    | home x => exact ⟨some (gateway.step w x).1.jsonStr, rfl⟩
    | answer now c r => exact ⟨text, (answer_text d text c r).1⟩
    | completed c connectiontype => exact ⟨text, (completed_text d text c connectiontype).1⟩
  out := by
    rintro ⟨w, _⟩ d x ⟨text, rfl⟩ _
    cases x with
    | home x => exact List.filterMap_map.trans (List.filterMap_eq_nil_iff.mpr fun _ _ => rfl)
    | answer now c r =>
      refine Eq.trans ?_ ((answer_text d text c r).2.trans (List.append_nil _).symm)
      exact List.filterMap_map
    | completed c connectiontype =>
      refine Eq.trans ?_ (List.append_nil _).symm
      exact List.filterMap_map.trans
        (congrArg (List.filterMap _) (completed_text d text c connectiontype).2)

def Globals.Published (g : Globals) : Prop := g.daemon.jsonStr = some g.world.jsonStr

theorem published_step {g : Globals} (hg : g.Published) (x : Deed) :
    (globals.step g x).1.Published := by
  cases x with
  | home x => rfl
  | answer now c r =>
    have htext := congrArg Daemon.jsonStr (answer_text g.daemon g.daemon.jsonStr c r).1
    exact htext.trans hg
  | completed c connectiontype =>
    have htext :=
      congrArg Daemon.jsonStr (completed_text g.daemon g.daemon.jsonStr c connectiontype).1
    exact htext.trans hg

end

instance : DecidablePred Input.TogglesSocket := fun x =>
  match x with
  | .frame .. => inferInstanceAs (Decidable (_ ∧ _))
  | .tick _ => inferInstanceAs (Decidable False)

/-- The frames and rounds that the table sees. -/
def homeInputs (xs : List ProgramInput) : List Input :=
  (deeds.outputs (some Receiver.initial) xs).filterMap Deed.home?

def Other.call? (x : Other) : Option HttpCall := x.deed.call?

def Other.tick? : Other → Option Tm
  | .tick now => some now
  | _ => none

def httpCalls (xs : List ProgramInput) : List HttpCall :=
  (xs.filterMap Sum.getRight?).filterMap Other.call?

def Input.tick? : Input → Option Tm
  | .tick now => some now
  | .frame .. => none

def Input.args? : Input → Option (List UInt8 × ℕ)
  | .tick _ => none
  | .frame _ _ rx len => some (RxCall.args ⟨rx, len⟩)

theorem args_homeInputs (xs : List ProgramInput) : (homeInputs xs).filterMap Input.args? =
    (deeds.outputs (some Receiver.initial) xs).filterMap fun x => x.home?.bind Input.args? :=
  List.filterMap_filterMap

theorem args_other (x : Other) : x.deed.home?.bind Input.args? = none := by
  cases x <;> rfl

theorem pieces_homeInputs (xs : List ProgramInput)
    (hlen : thread.Along (LenByteIn 2 198) (some Receiver.initial) (serialBytes xs)) :
    ∃ ps rest, serialBytes xs = pieces ps ++ rest ∧
      (homeInputs xs).filterMap Input.args? = ps.map fun p => delivered p.2.payload := by
  have hcall : ∀ e c, (receivedDeed e c).home?.bind Input.args? = some c.args := fun _ _ => rfl
  rw [args_homeInputs]
  exact @merged_pieces _ _ _ receivedDeed (fun x => x.home?.bind Input.args?) hcall _ args_other
    xs hlen

theorem frames_homeInputs (xs : List ProgramInput) {fs : List Frame}
    (hfs : serialBytes xs = fs.flatMap Frame.bytes) :
    (homeInputs xs).filterMap Input.args? = fs.map fun f => delivered f.payload := by
  have hcall : ∀ e c, (receivedDeed e c).home?.bind Input.args? = some c.args := fun _ _ => rfl
  rw [args_homeInputs]
  exact @merged_frames _ _ _ receivedDeed (fun x => x.home?.bind Input.args?) hcall _ args_other
    xs fs hfs

theorem ticks_homeInputs (xs : List ProgramInput) : (homeInputs xs).filterMap Input.tick? =
    (xs.filterMap Sum.getRight?).filterMap Other.tick? := by
  have hother : ∀ x : Other, x.deed.home?.bind Input.tick? = x.tick? := by
    intro x
    cases x <;> rfl
  rw [homeInputs, List.filterMap_filterMap, deeds, Transducer.outputs_merge_right]
  · exact List.filterMap_congr fun x _ => hother x
  · intro t b
    exact List.filterMap_map.trans (List.filterMap_eq_nil_iff.mpr fun _ _ => rfl)

theorem calls_deeds (xs : List ProgramInput) :
    (deeds.outputs (some Receiver.initial) xs).filterMap Deed.call? = httpCalls xs := by
  rw [deeds, Transducer.outputs_merge_right]
  · rfl
  · intro t b
    exact List.filterMap_map.trans (List.filterMap_eq_nil_iff.mpr fun _ _ => rfl)

section

variable [Parsers]

theorem started_world (now : Tm) : (Globals.started now).world.SameButTime (.started now) := by
  unfold Globals.started
  dsimp only
  exact .refl _

theorem started_daemon (now : Tm) : (Globals.started now).daemon.SameButText .initial :=
  ⟨some (World.started now).jsonStr, rfl⟩

theorem home_run {g : Globals} {w : World} (h : g.world.SameButTime w) (ds : List Deed) :
    (globals.after g ds).world.SameButTime (gateway.after w (ds.filterMap Deed.home?)) ∧
      (globals.outputs g ds).filterMap homeFrame? =
        (gateway.outputs w (ds.filterMap Deed.home?)).filterMap Out.usart? := by
  obtain ⟨hstate, hout⟩ := globals_gateway.run h
    (globals.along_of_forall (fun _ _ => trivial) g ds)
  rw [Transducer.trace_outputs_of_map, ← List.filterMap_eq_flatMap_toList] at hstate hout
  rw [(gateway.run_seen Out.usart? w _).1] at hstate
  exact ⟨hstate, hout.trans (gateway.run_seen Out.usart? w _).2⟩

theorem http_run {g : Globals} {d : Daemon} (h : g.daemon.SameButText d) (ds : List Deed) :
    (globals.outputs g ds).filterMap httpFrame? =
      (daemon.outputs d (ds.filterMap Deed.call?)).filterMap HttpEvent.usart? := by
  obtain ⟨-, hout⟩ := globals_daemon.run h (globals.along_of_forall (fun _ _ => trivial) g ds)
  rw [Transducer.trace_outputs_of_map, ← List.filterMap_eq_flatMap_toList] at hout
  exact hout.trans (daemon.run_seen HttpEvent.usart? d _).2

/-- Whatever comes over the line, and whatever `main` and the daemon do between any two bytes:
the table is that of the gateway after frames that stand in the stream, in order, and after all
rounds; the frames for the home and those of the requests are sent as if they were alone.  With
only frames on the line, each is handled once. -/
theorem program_run (now : Tm) (xs : List ProgramInput)
    (hlen : thread.Along (LenByteIn 2 198) (some Receiver.initial) (serialBytes xs)) :
    (∃ ps rest, serialBytes xs = pieces ps ++ rest ∧
      (homeInputs xs).filterMap Input.args? = ps.map fun p => delivered p.2.payload) ∧
    (∀ fs : List Frame, serialBytes xs = fs.flatMap Frame.bytes →
      (homeInputs xs).filterMap Input.args? = fs.map fun f => delivered f.payload) ∧
    (homeInputs xs).filterMap Input.tick? = (xs.filterMap Sum.getRight?).filterMap Other.tick? ∧
    (program.after (some .initial, .started now) xs).2.world.SameButTime
      (gateway.after (.started now) (homeInputs xs)) ∧
    (program.outputs (some .initial, .started now) xs).filterMap homeFrame? =
      (gateway.outputs (.started now) (homeInputs xs)).filterMap Out.usart? ∧
    (program.outputs (some .initial, .started now) xs).filterMap httpFrame? =
      (daemon.outputs .initial (httpCalls xs)).filterMap HttpEvent.usart? := by
  obtain ⟨hafter, hout⟩ := deeds.run_through globals (some Receiver.initial) (.started now) xs
  have hhome := home_run (started_world now) (deeds.outputs (some Receiver.initial) xs)
  have hhttp := http_run (started_daemon now) (deeds.outputs (some Receiver.initial) xs)
  refine ⟨pieces_homeInputs xs hlen, fun fs hfs => frames_homeInputs xs hfs, ticks_homeInputs xs,
    ?_, ?_, ?_⟩
  · rw [program, hafter]
    exact hhome.1
  · rw [program, hout]
    exact hhome.2
  · rw [program, hout, hhttp, calls_deeds]

theorem get_answer (t : Option Receiver) {g : Globals} (hg : g.Published) (hfresh : g.world.Fresh)
    (now : Tm) {c : ConnId} {r : Request} (hopen : g.daemon.openConn c ≠ false)
    (hget : r.method = "GET") :
    (program.step (t, g) (.inr (.answer now c r))).2 =
      [.inr (.page c (.jsonStr (deviceListText g.world.mxjDevice g.world.devsize)))] := by
  have hpage : g.daemon.getPage = .jsonStr (deviceListText g.world.mxjDevice g.world.devsize) := by
    rw [← hfresh, Daemon.getPage, hg]
  change (globals.step g (.answer now c r)).2 ++ [] = _
  simp only [globals, Globals.step, answerToConnection, if_neg hopen, if_pos hget, hpage,
    List.map_singleton, List.append_nil]

theorem World.SameButTime.fresh {w w' : World} (h : w.SameButTime w') (hfresh : w'.Fresh) :
    w.Fresh := by
  obtain ⟨t, rfl⟩ := h
  exact hfresh

theorem published_run {g : Globals} (hg : g.Published) (ds : List Deed) :
    (globals.after g ds).Published := by
  have hstep : ∀ g x, g.Published → (globals.step g x).1.Published :=
    fun g x hg => published_step hg x
  exact Transducer.after_preserves hstep hg ds

theorem started_published (now : Tm) : (Globals.started now).Published := by
  unfold Globals.started Globals.Published
  dsimp only

/-- As long as the socket does not report, a GET is answered with the list of the table as it is,
between any two bytes. -/
theorem get_current (now : Tm) (xs : List ProgramInput)
    (hquiet : ∀ x ∈ homeInputs xs, ¬ x.TogglesSocket) (now' : Tm) {c : ConnId} {r : Request}
    (hopen : (program.after (some .initial, .started now) xs).2.daemon.openConn c ≠ false)
    (hget : r.method = "GET") :
    (program.step (program.after (some .initial, .started now) xs) (.inr (.answer now' c r))).2 =
      [.inr (.page c (.jsonStr (deviceListText
        (program.after (some .initial, .started now) xs).2.world.mxjDevice
        (program.after (some .initial, .started now) xs).2.world.devsize)))] := by
  obtain ⟨hafter, -⟩ := deeds.run_through globals (some Receiver.initial) (.started now) xs
  have hpublished := published_run (started_published now) (deeds.outputs (some .initial) xs)
  have halong : gateway.Along (fun _ x => ¬ x.TogglesSocket) (.started now) (homeInputs xs) := by
    rw [Transducer.along_iff]
    intro pre x post hxs
    exact hquiet x (by rw [hxs]; simp)
  have hhome := (home_run (started_world now) (deeds.outputs (some Receiver.initial) xs)).1
  have hfresh := Transducer.after_invariant fresh_gateway_step (fresh_started now) halong
  -- the time, in which the two differ, does not show in the list
  replace hfresh := hhome.fresh hfresh
  have hstate : program.after (some .initial, .started now) xs = _ := hafter
  rw [hstate] at hopen ⊢
  dsimp only at hopen ⊢
  exact get_answer _ hpublished hfresh now' hopen hget

end

@[reducible] def silentParsers : Parsers where
  jsonObjectToJsonString := Json.spaced
  jsonTokenerParse _ := .null
  jsonObjectGetInt _ := 0
  xmlParseMemory _ := none

def onLine (bytes : List UInt8) : List ProgramInput :=
  bytes.map fun ch => .inl (ch, march, fun _ => 0)

/-- A connection is opened and a round is gone through while a frame comes in. -/
def splitFrame : List ProgramInput :=
  onLine ((Message.ping 7).frame.bytes.take 4) ++
    [.inr (.answer march 1 ⟨"GET", "/", none⟩), .inr (.tick march)] ++
    onLine ((Message.ping 7).frame.bytes.drop 4)

theorem program_run_split :
    letI := silentParsers
    (homeInputs splitFrame).filterMap Input.args? = [delivered (Message.ping 7).frame.payload] ∧
      (program.outputs (some .initial, .started march) splitFrame).filterMap homeFrame? =
        (gateway.outputs (.started march) (homeInputs splitFrame)).filterMap Out.usart? :=
  letI := silentParsers
  have hrun := program_run march splitFrame (by decide +kernel)
  ⟨hrun.2.1 [(Message.ping 7).frame] rfl, hrun.2.2.2.2.1⟩

theorem get_current_split :
    letI := silentParsers
    (program.step (program.after (some .initial, .started march) splitFrame)
        (.inr (.answer march 1 ⟨"GET", "/", none⟩))).2 =
      [.inr (.page 1 (.jsonStr (deviceListText
        (program.after (some .initial, .started march) splitFrame).2.world.mxjDevice
        (program.after (some .initial, .started march) splitFrame).2.world.devsize)))] :=
  @get_current silentParsers march splitFrame (by decide +kernel) march 1 ⟨"GET", "/", none⟩
    (by decide +kernel) rfl

end IdolGateway.ZbClient
