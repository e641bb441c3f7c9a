import IdolGateway.Brower.HttpPages
import IdolGateway.ZbClient.LineThread

/-!
# The configurable server with its receiver thread

`thread()` is the automaton of the gateway with a smaller buffer.  It passes on the frames of one
sensor to one light by itself, before they are handled.  The bytes of the line and the calls for
all connections come in any order.
-/

namespace IdolGateway.Brower

open Microhttpd (ConnId Request)
open ZbClient (Frame LenByteIn Receiver RxCall UsartCall delivered lineThread merged_frames
  merged_pieces pieces serialBytes thread word)

def rxbufSize : ℕ := 100

/-- What `thread()` sends for a frame by itself; `datax` is set for each frame anew. -/
def relay (rx : ℕ → UInt8) : List Out :=
  if word (rx 2) (rx 3) = 0x6eab then [.usart ⟨[0, 6, 0x5e, 0xe0, rx 6, 1, 1], 7⟩] else []

def Event.relay : Event → List Out
  | .frame rx _ _ => Brower.relay rx
  | .post _ => []

abbrev Heap := (ℕ → UInt8) × (Stray → UInt8)

abbrev HttpCall := Microhttpd.Event (Stray → UInt8) Empty

abbrev ProgramInput := (UInt8 × Heap) ⊕ HttpCall

def HttpCall.event : HttpCall → HttpEvent
  | .answer e c upload => .answer e c upload
  | .completed e c => .completed e c
  | .elsewhere i => i.elim

def receivedCall (heap : Heap) (call : RxCall) : HttpEvent :=
  .elsewhere ⟨call.rx, heap.1, call.len, heap.2⟩

/-- The frames and the calls, in the order in which they are handled. -/
def events (xs : List ProgramInput) : List HttpEvent :=
  ((lineThread receivedCall).merge HttpCall.event).outputs (some Receiver.initial) xs

section

variable [Tokener]

/-- The server as `thread()` calls it. -/
def relaying : Transducer World Input Out where
  step w x := ((server.step w x).1, x.event.relay ++ (server.step w x).2)

variable (request : ConnId → Request)

def relayed : HttpEvent → List Out
  | .elsewhere i => relay i.rx
  | _ => []

def relayingHttpd : Transducer (Microhttpd.Daemon World AnswerString) HttpEvent
    (Microhttpd.Output Page Out) where
  step d x := (((httpd request).step d x).1, (relayed x).map .out ++ ((httpd request).step d x).2)

def program : Transducer (Option Receiver × Microhttpd.Daemon World AnswerString) ProgramInput
    (Microhttpd.Output Page Out) :=
  ((lineThread receivedCall).merge HttpCall.event).through (relayingHttpd request)

theorem after_relaying (w : World) (xs : List Input) : relaying.after w xs = server.after w xs := by
  induction xs generalizing w with
  | nil => rfl
  | cons x xs ih => exact ih _

theorem outputs_relaying {xs : List Input} (h : ∀ x ∈ xs, x.event.relay = []) (w : World) :
    relaying.outputs w xs = server.outputs w xs := by
  induction xs generalizing w with
  | nil => rfl
  | cons x xs ih =>
    rw [List.forall_mem_cons] at h
    rw [Transducer.outputs_cons, Transducer.outputs_cons]
    refine congrArg₂ (· ++ ·) ?_ (ih h.2 _)
    change x.event.relay ++ _ = _
    rw [h.1, List.nil_append]

variable {request}

theorem relay_actions (d : Microhttpd.Daemon World AnswerString) {x : HttpEvent}
    (hx : ∀ i, x ≠ .elsewhere i) :
    ∀ y ∈ (site.actions request d x).flatMap inputs, y.event.relay = [] := by
  intro y hy
  obtain ⟨a, ha, hy⟩ := List.mem_flatMap.mp hy
  cases a with
  | call e c heard =>
    rw [List.mem_singleton.mp hy]
    rfl
  | reply c method answerstring => exact absurd hy List.not_mem_nil
  | elsewhere i =>
    -- a call from the library stands for calls of the iterator and pages only
    exfalso
    cases x with
    | elsewhere j => exact hx j rfl
    | answer e c upload =>
      unfold Microhttpd.Site.actions at ha
      dsimp only at ha
      split at ha
      · simp at ha
      · split_ifs at ha <;> simp at ha
    | completed e c =>
      unfold Microhttpd.Site.actions at ha
      dsimp only at ha
      split at ha
      · simp at ha
      · split_ifs at ha <;> simp at ha

theorem after_relayingHttpd (d : Microhttpd.Daemon World AnswerString) (xs : List HttpEvent) :
    (relayingHttpd request).after d xs = (httpd request).after d xs := by
  induction xs generalizing d with
  | nil => rfl
  | cons x xs ih => exact ih _

theorem handed_cons (d : Microhttpd.Daemon World AnswerString) (x : HttpEvent)
    (xs : List HttpEvent) : handed request d (x :: xs) =
      (site.actions request d x).flatMap inputs ++
        handed request ((httpd request).step d x).1 xs := by
  simp only [handed, Microhttpd.Site.trace, Transducer.outputs_cons, List.flatMap_append]
  rfl

theorem handed_singleton (d : Microhttpd.Daemon World AnswerString) (x : HttpEvent) :
    handed request d [x] = (site.actions request d x).flatMap inputs := by
  rw [handed_cons]
  exact List.append_nil _

theorem out_step (d : Microhttpd.Daemon World AnswerString) (x : HttpEvent) :
    ((relayingHttpd request).step d x).2.filterMap Microhttpd.Output.out? =
      relaying.outputs d.globals ((site.actions request d x).flatMap inputs) := by
  have hserver := (httpd_server request d [x]).2
  rw [handed_singleton, Transducer.outputs_cons, Transducer.outputs_nil, List.append_nil]
    at hserver
  change ((relayed x).map Microhttpd.Output.out ++
    ((httpd request).step d x).2).filterMap Microhttpd.Output.out? = _
  rw [List.filterMap_append, Microhttpd.filterMap_out, hserver]
  -- only a frame has something passed on for it, and it is one input of the server
  cases x with
  | elsewhere i => exact (List.append_assoc _ _ _).symm
  | answer e c upload =>
    exact (outputs_relaying (relay_actions d (by simp)) _).symm
  | completed e c =>
    exact (outputs_relaying (relay_actions d (by simp)) _).symm

/-- The frames on the line are those of the server, each behind what is passed on for it. -/
theorem out_relayingHttpd (d : Microhttpd.Daemon World AnswerString) (xs : List HttpEvent) :
    ((relayingHttpd request).outputs d xs).filterMap Microhttpd.Output.out? =
      relaying.outputs d.globals (handed request d xs) := by
  induction xs generalizing d with
  | nil => rfl
  | cons x xs ih =>
    have hglobals := (httpd_server request d [x]).1
    rw [handed_singleton] at hglobals
    rw [handed_cons, Transducer.outputs_append, after_relaying, ← hglobals,
      Transducer.outputs_cons, List.filterMap_append, out_step]
    exact congrArg _ (ih _)

variable (request)

/-- A GET is answered with the list of the table, whatever `thread()` has in its buffer. -/
theorem get_step (t : Option Receiver) {d : Microhttpd.Daemon World AnswerString}
    (hfresh : d.globals.Fresh) (outside : Stray → UInt8) {c : ConnId} (upload : List UInt8)
    (hopen : d.conCls c ≠ none) (hget : (request c).method = .get) :
    ((program request).step (t, d) (.inr (.answer outside c upload))).2 =
      [.page c (.jsonStr d.globals.text)] := by
  obtain ⟨con, hcon⟩ := Option.ne_none_iff_exists'.mp hopen
  have hstep := @Microhttpd.step_page _ _ _ _ _ _ site request d c con hcon outside upload
    (by simp [hget])
  have hfresh' : d.globals.jsonStr = d.globals.text := hfresh
  rw [← hfresh']
  rw [hget] at hstep
  change ([] ++ ((httpd request).step d (.answer outside c upload)).2) ++ [] = _
  rw [List.append_nil, List.nil_append]
  exact congrArg Prod.snd hstep

end

def HttpEvent.args? : HttpEvent → Option (List UInt8 × ℕ)
  | .elsewhere i => some (RxCall.args ⟨i.rx, i.len⟩)
  | _ => none

def HttpEvent.call? : HttpEvent → Option HttpCall
  | .answer e c upload => some (.answer e c upload)
  | .completed e c => some (.completed e c)
  | .elsewhere _ => none

theorem args_event (x : HttpCall) : x.event.args? = none := by
  cases x with
  | elsewhere i => exact i.elim
  | _ => rfl

theorem calls_events (xs : List ProgramInput) :
    (events xs).filterMap HttpEvent.call? = xs.filterMap Sum.getRight? := by
  have hcall : ∀ x : HttpCall, x.event.call? = some x := by
    intro x
    cases x with
    | elsewhere i => exact i.elim
    | _ => rfl
  rw [events, Transducer.outputs_merge_right, List.filterMap_congr fun x _ => hcall x]
  · exact List.filterMap_some
  · intro t b
    exact List.filterMap_map.trans (List.filterMap_eq_nil_iff.mpr fun _ _ => rfl)

/-- Length bytes that keep `thread()` inside its buffer. -/
def LenByteFits (t : Option Receiver) (ch : UInt8) : Prop := LenByteIn 2 (rxbufSize - 2) t ch

instance (t : Option Receiver) (ch : UInt8) : Decidable (LenByteFits t ch) :=
  inferInstanceAs (Decidable (LenByteIn _ _ t ch))

theorem along_of_fits {t : Option Receiver} {bytes : List UInt8}
    (h : thread.Along LenByteFits t bytes) : thread.Along (LenByteIn 2 198) t bytes := by
  refine thread.along_mono ?_ h
  intro t ch hch t' ht' hstate
  obtain ⟨hlo, hhi⟩ := hch t' ht' hstate
  exact ⟨hlo, hhi.trans (by decide)⟩

section

variable [Tokener] (request : ConnId → Request)

/-- Whatever comes over the line, and whatever the library calls between any two bytes, as long
as the length bytes fit and no store leaves the arrays: the frames that are handled stand in the
stream, in order, and with only frames on the line each is handled once; table and connections
are those of the daemon given these frames whole; what is sent is what the server sends for them,
behind the relayed frames; the table is valid and a GET shows it. -/
theorem serial_refines (xs : List ProgramInput)
    (hlen : thread.Along LenByteFits (some Receiver.initial) (serialBytes xs))
    (hinside : RunStoresInside request (events xs)) :
    let s := (program request).after (some .initial, atStart) xs
    (∃ ps rest, serialBytes xs = pieces ps ++ rest ∧
      (events xs).filterMap HttpEvent.args? = ps.map fun p => delivered p.2.payload) ∧
    (∀ fs : List Frame, serialBytes xs = fs.flatMap Frame.bytes →
      (events xs).filterMap HttpEvent.args? = fs.map fun f => delivered f.payload) ∧
    (events xs).filterMap HttpEvent.call? = xs.filterMap Sum.getRight? ∧
    s.2 = (httpd request).after atStart (events xs) ∧
    ((program request).outputs (some .initial, atStart) xs).filterMap Microhttpd.Output.out? =
      relaying.outputs atStart.globals (handed request atStart (events xs)) ∧
    s.2.globals.Valid ∧
    ∀ outside c upload, s.2.conCls c ≠ none → (request c).method = .get →
      ((program request).step s (.inr (.answer outside c upload))).2 =
        [.page c (.jsonStr s.2.globals.text)] := by
  obtain ⟨hafter, hout⟩ := ((lineThread receivedCall).merge HttpCall.event).run_through
    (relayingHttpd request) (some Receiver.initial) atStart xs
  have hcall : ∀ e c, (receivedCall e c).args? = some c.args := fun _ _ => rfl
  have hdaemon : ((program request).after (some .initial, atStart) xs).2 =
      (httpd request).after atStart (events xs) :=
    (congrArg Prod.snd hafter).trans (after_relayingHttpd _ _)
  refine ⟨@merged_pieces _ _ _ receivedCall _ hcall _ args_event xs (along_of_fits hlen),
    fun fs hfs => @merged_frames _ _ _ receivedCall _ hcall _ args_event xs fs hfs,
    calls_events xs, hdaemon, (congrArg _ hout).trans (out_relayingHttpd _ _), ?_, ?_⟩
  · rw [hdaemon]
    exact valid_httpd request hinside
  · intro outside c upload hopen hget
    refine get_step request _ ?_ outside upload hopen hget
    rw [hdaemon]
    exact fresh_after request _

end

def onLine (bytes : List UInt8) : List ProgramInput :=
  bytes.map fun ch => .inl (ch, fun _ => 0, fun _ => 0)

def registering : Frame := ⟨2, [0, 1, 5, 2], by decide, by decide⟩

/-- A connection is opened in the middle of a frame. -/
def splitRegistering : List ProgramInput :=
  onLine (registering.bytes.take 5) ++ [.inr (.answer (fun _ => 0) 1 [])] ++
    onLine (registering.bytes.drop 5)

theorem serial_refines_split :
    letI := tabled "" .null
    (events splitRegistering).filterMap HttpEvent.args? = [delivered registering.payload] ∧
      ((program fun _ => ⟨.get, false⟩).after (some .initial, atStart) splitRegistering).2 =
        (httpd fun _ => ⟨.get, false⟩).after atStart (events splitRegistering) :=
  letI := tabled "" .null
  have hrun := serial_refines (fun _ => ⟨.get, false⟩) splitRegistering (by decide +kernel)
    (by decide +kernel)
  ⟨hrun.2.1 [registering] rfl, hrun.2.2.2.1⟩

end IdolGateway.Brower
