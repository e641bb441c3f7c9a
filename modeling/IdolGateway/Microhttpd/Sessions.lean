import IdolGateway.Microhttpd.Buffers
import IdolGateway.Microhttpd.Connections

namespace IdolGateway.Microhttpd

variable {ε σ α π ι ω : Type}

namespace Event

def upload (c : ConnId) : Event ε ι → Option (List UInt8)
  | .answer _ c' data => if c' = c ∧ data ≠ [] then some data else none
  | _ => none

def Completes (c : ConnId) : Event ε ι → Prop
  | .completed _ c' => c' = c
  | _ => False

def On (c : ConnId) : Event ε ι → Prop
  | .answer _ c' _ => c' = c
  | .completed _ c' => c' = c
  | .elsewhere _ => False

instance (c : ConnId) (x : Event ε ι) : Decidable (x.Completes c) :=
  match x with
  | .completed _ c' => inferInstanceAs (Decidable (c' = c))
  | .answer _ _ _ => isFalse id
  | .elsewhere _ => isFalse id

instance (c : ConnId) (x : Event ε ι) : Decidable (x.On c) :=
  match x with
  | .answer _ c' _ => inferInstanceAs (Decidable (c' = c))
  | .completed _ c' => inferInstanceAs (Decidable (c' = c))
  | .elsewhere _ => isFalse id

end Event

/-- The segments of a request, in order. -/
def uploads (c : ConnId) (xs : List (Event ε ι)) : List (List UInt8) :=
  xs.filterMap (Event.upload c)

variable {S : Site ε σ α π ι ω} {request : ConnId → Request} {c : ConnId}

theorem conCls_of_not_on (d : Daemon σ α) {x : Event ε ι} (h : ¬ x.On c) :
    ((S.daemon request).step d x).1.conCls c = d.conCls c := by
  have hother : ∀ (c' : ConnId) (con : Option (ConInfo α)), c' ≠ c →
      Function.update d.conCls c' con c = d.conCls c :=
    fun c' con hc => Function.update_of_ne (Ne.symm hc) _ _
  cases x with
  | elsewhere i => rfl
  | answer e c' upload =>
    simp only [Site.daemon, Site.answerToConnection]
    cases d.conCls c' with
    | none => exact hother c' _ h
    | some con =>
      dsimp only
      split_ifs
      · exact hother c' _ h
      · rfl
  | completed e c' =>
    simp only [Site.daemon, Site.requestCompleted]
    cases d.conCls c' with
    | none => rfl
    | some con =>
      dsimp only
      split_ifs
      · exact hother c' _ h
      · exact hother c' _ h

theorem callOn_map (e : ε) (c c' : ConnId) (calls : List Call) :
    (calls.map (@Action.call ε α ι e c')).filterMap (Action.callOn c) =
      if c' = c then calls else [] := by
  rw [List.filterMap_map]
  by_cases hc : c' = c
  · rw [if_pos hc]
    refine Eq.trans (List.filterMap_congr fun call _ => ?_) List.filterMap_some
    exact if_pos hc
  · rw [if_neg hc]
    exact List.filterMap_eq_nil_iff.mpr fun call _ => if_neg hc

theorem actions_of_not_on (d : Daemon σ α) {x : Event ε ι} (h : ¬ x.On c) :
    (S.actions request d x).filterMap (Action.callOn c) = [] := by
  cases x with
  | elsewhere i => rfl
  | answer e c' upload =>
    simp only [Site.actions]
    cases d.conCls c' with
    | none => rfl
    | some con =>
      dsimp only
      split_ifs
      · exact (callOn_map e c c' _).trans (if_neg h)
      · rfl
  | completed e c' =>
    simp only [Site.actions]
    cases d.conCls c' with
    | none => rfl
    | some con =>
      dsimp only
      split_ifs
      · exact (callOn_map e c c' _).trans (if_neg h)
      · rfl

theorem upload_of_not_on {x : Event ε ι} (h : ¬ x.On c) : x.upload c = none := by
  cases x with
  | answer e c' upload => exact if_neg fun hc => h hc.1
  | completed e c' => rfl
  | elsewhere i => rfl

/-- What a connection is for its own request: it hears the calls, and keeps its answer. -/
def Site.hear (S : Site ε σ α π ι ω) : Iterator α Call := fun a call =>
  (S.verdict call, S.answerAfter call a, [call])

theorem obeys_hear (S : Site ε σ α π ι ω) : Obeys S.hear S.verdict := fun _ _ => rfl

theorem effects_hear (a : α) (calls : List Call) :
    (effects S.hear).after a calls = calls.foldl (fun a call => S.answerAfter call a) a ∧
      (effects S.hear).outputs a calls = calls := by
  induction calls generalizing a with
  | nil => exact ⟨rfl, rfl⟩
  | cons call calls ih => exact ⟨(ih _).1, congrArg _ (ih _).2⟩

def Holds (c : ConnId) (d : Daemon σ α) (a : PostProcessor × α) : Prop :=
  d.conCls c = some ⟨.post, a.2, a.1⟩

/-- As long as its request is not completed, a connection moves by its own segments. -/
theorem connection_refines (S : Site ε σ α π ι ω) (hpost : (request c).method = .post) :
    ((S.daemon request).trace (S.actions request)).Refines (segments S.hear) (Holds c)
      (fun _ x => ¬ x.Completes c) (fun _ x => (x.upload c).toList) (Action.callOn c) := by
  have hstep : ∀ {d : Daemon σ α} {a : PostProcessor × α} {x : Event ε ι}, Holds c d a →
      ¬ x.Completes c →
      Holds c ((S.daemon request).step d x).1 ((segments S.hear).after a (x.upload c).toList) ∧
        (S.actions request d x).filterMap (Action.callOn c) =
          (segments S.hear).outputs a (x.upload c).toList := by
    intro d a x hd hx
    by_cases hon : x.On c
    · cases x with
      | elsewhere i => exact absurd hon id
      | completed e c' => exact absurd hon hx
      | answer e c' upload =>
        obtain rfl : c' = c := hon
        simp only [Site.daemon, Site.answerToConnection, Site.actions, Event.upload]
        rw [Holds] at hd
        rw [hd]
        dsimp only
        by_cases hup : upload = []
        · rw [if_neg (fun h => h.2 hup), if_neg (fun h => h.2 hup), if_neg (fun h => h.2 hup)]
          exact ⟨hd, rfl⟩
        · have hown := postProcess_eq (obeys_hear S) a.1 upload a.2
          rw [if_pos ⟨hpost, hup⟩, if_pos ⟨trivial, hup⟩, if_pos ⟨hpost, hup⟩, callOn_map,
            if_pos rfl, postProcess_eq (S.obeys e)]
          simp only [Option.toList_some, Transducer.after_cons, Transducer.after_nil,
            Transducer.outputs_cons, Transducer.outputs_nil, List.append_nil]
          change Function.update d.conCls c' _ c' = some ⟨.post,
            (postProcess S.hear a.1 upload a.2).user, (postProcess S.hear a.1 upload a.2).pp⟩ ∧
            _ = (postProcess S.hear a.1 upload a.2).out
          rw [hown, (effects_hear _ _).1, (effects_hear _ _).2, answer_after]
          exact ⟨Function.update_self c' _ _, rfl⟩
    · rw [Holds, conCls_of_not_on d hon, actions_of_not_on d hon, upload_of_not_on hon]
      exact ⟨hd, rfl⟩
  exact ⟨fun hd hx => (hstep hd hx).1, fun hd hx => (hstep hd hx).2⟩

/-- The calls a request hears for its segments so far. -/
abbrev Site.callsSoFar (S : Site ε σ α π ι ω) (segs : List (List UInt8)) : List Call :=
  (segments (listen S.verdict)).outputs (.create, ()) segs

/-- The first call for a POST opens it, and hears nothing. -/
theorem step_opening (S : Site ε σ α π ι ω) (hpost : request c = ⟨.post, true⟩)
    {d : Daemon σ α} (hclosed : d.conCls c = none) (e : ε) (first : List UInt8) :
    (S.daemon request).step d (.answer e c first) =
        (d.set c (some ⟨.post, S.noAnswer, .create⟩), []) ∧
      S.actions request d (.answer e c first) = [] := by
  constructor
  · simp [Site.daemon, Site.answerToConnection, hclosed, Site.opened, hpost]
  · simp [Site.actions, hclosed]

/-- What a POST has heard, and what it holds, after any run that does not complete it. -/
theorem request_calls (S : Site ε σ α π ι ω) (hpost : request c = ⟨.post, true⟩)
    {d : Daemon σ α} (hclosed : d.conCls c = none) (e : ε) (first : List UInt8)
    {xs : List (Event ε ι)} (hopen : ∀ x ∈ xs, ¬ x.Completes c) :
    (S.trace request d (.answer e c first :: xs)).filterMap (Action.callOn c) =
        S.callsSoFar (uploads c xs) ∧
      ((S.daemon request).after d (.answer e c first :: xs)).conCls c =
        some ⟨.post, (S.callsSoFar (uploads c xs)).foldl (fun a call => S.answerAfter call a)
          S.noAnswer, ((segments (listen S.verdict)).after (.create, ()) (uploads c xs)).1⟩ := by
  have hmethod : (request c).method = .post := by rw [hpost]
  obtain ⟨hfirst, hquiet⟩ := step_opening S hpost hclosed e first
  have hheld : Holds c (d.set c (some ⟨.post, S.noAnswer, .create⟩)) (.create, S.noAnswer) :=
    Function.update_self c _ _
  have halong := (Transducer.along_iff (m := (S.daemon request).trace (S.actions request))
    (fun _ x => ¬ Event.Completes c x) (d.set c (some ⟨.post, S.noAnswer, .create⟩)) xs).mpr
    fun pre x post hxs => hopen x (by rw [hxs]; simp)
  obtain ⟨hstate, hout⟩ := (connection_refines S hmethod).run hheld halong
  rw [Transducer.trace_outputs_of_map, ← List.filterMap_eq_flatMap_toList] at hstate hout
  obtain ⟨hsegs, hcalls⟩ := segments_eq (obeys_hear S) .create S.noAnswer (uploads c xs)
  change Holds c _ ((segments S.hear).after _ (uploads c xs)) at hstate
  change _ = (segments S.hear).outputs _ (uploads c xs) at hout
  rw [Transducer.after_trace, hsegs, Holds, (effects_hear _ _).1] at hstate
  rw [hcalls, (effects_hear _ _).2] at hout
  unfold Site.trace
  rw [Transducer.outputs_cons, Transducer.after_cons, hfirst, Transducer.trace_step, hfirst, hquiet]
  exact ⟨hout, hstate⟩

/-- A POST that arrives in one segment, with nothing in between. -/
theorem trace_one_segment (S : Site ε σ α π ι ω) (hpost : request c = ⟨.post, true⟩)
    {d : Daemon σ α} (hclosed : d.conCls c = none) (e e' : ε) {upload : List UInt8}
    (hupload : upload ≠ []) :
    S.trace request d [.answer e c [], .answer e' c upload] =
      (S.callsSoFar [upload]).map (.call e' c) := by
  obtain ⟨hfirst, hquiet⟩ := step_opening S hpost hclosed e []
  have hsecond : S.actions request (d.set c (some ⟨.post, S.noAnswer, .create⟩))
      (.answer e' c upload) =
        (postProcess (listen S.verdict) .create upload ()).out.map (.call e' c) := by
    simp [Site.actions, Daemon.set, hpost, hupload]
  unfold Site.trace
  rw [Transducer.outputs_cons, Transducer.trace_step, hfirst, hquiet, List.nil_append,
    Transducer.outputs_cons, Transducer.outputs_nil, List.append_nil, Transducer.trace_step,
    hsecond, Site.callsSoFar, Transducer.outputs_cons, Transducer.outputs_nil, List.append_nil]
  rfl

/-- When it is completed, it has heard the calls for its whole body. -/
theorem completed_calls (S : Site ε σ α π ι ω) (hpost : request c = ⟨.post, true⟩)
    {d : Daemon σ α} (hclosed : d.conCls c = none) (e e' : ε) (first : List UInt8)
    {xs : List (Event ε ι)} (hopen : ∀ x ∈ xs, ¬ x.Completes c) :
    (S.trace request d (.answer e c first :: xs ++ [.completed e' c])).filterMap
        (Action.callOn c) = callsUnder S.verdict (uploads c xs) ∧
      ((S.daemon request).after d (.answer e c first :: xs ++ [.completed e' c])).conCls c =
        none := by
  obtain ⟨hcalls, hstate⟩ := request_calls S hpost hclosed e first hopen
  unfold Site.trace at hcalls ⊢
  rw [Transducer.outputs_append, Transducer.after_append, Transducer.after_trace,
    List.filterMap_append, hcalls]
  generalize (S.daemon request).after d (.answer e c first :: xs) = d' at hstate ⊢
  constructor
  · refine congrArg _ ?_
    rw [Transducer.outputs_cons, Transducer.outputs_nil, List.append_nil, Transducer.trace_step]
    simp only [Site.actions, hstate, if_true]
    rw [callOn_map, if_pos rfl]
  · simp [Site.daemon, Site.requestCompleted, hstate]

theorem callsSoFar_prefix (S : Site ε σ α π ι ω) (segs : List (List UInt8)) :
    S.callsSoFar segs <+: untilRefused S.verdict (callsOf segs) := by
  rw [← callsUnder_eq]
  exact List.prefix_append _ _

def Daemon.Fits (d : Daemon σ α) : Prop :=
  ∀ c con, d.conCls c = some con → con.postprocessor.Fits

def Action.Fits : Action ε α ι → Prop
  | .call _ _ heard => heard.Fits
  | _ => True

theorem fits_set {d : Daemon σ α} (h : d.Fits) (g : σ) (c : ConnId) {con : Option (ConInfo α)}
    (hcon : ∀ con', con = some con' → con'.postprocessor.Fits) :
    Daemon.Fits ⟨g, Function.update d.conCls c con⟩ := by
  intro c' con' hc'
  by_cases hc : c' = c
  · subst hc
    exact hcon con' ((Function.update_self c' con d.conCls).symm.trans hc')
  · exact h c' con' ((Function.update_of_ne hc con d.conCls).symm.trans hc')

theorem fits_opened (req : Request) :
    ∀ con, S.opened req = some con → con.postprocessor.Fits := by
  intro con hcon
  unfold Site.opened at hcon
  split at hcon
  · split_ifs at hcon
    cases hcon
    exact create_fits
  · cases hcon
    exact create_fits

theorem fits_calls (e : ε) (c : ConnId) {calls : List Call} (h : ∀ call ∈ calls, call.Fits) :
    ∀ a ∈ calls.map (@Action.call ε α ι e c), a.Fits := by
  intro a ha
  obtain ⟨call, hcall, rfl⟩ := List.mem_map.mp ha
  exact h call hcall

theorem fits_step {d : Daemon σ α} (h : d.Fits) (x : Event ε ι) :
    ((S.daemon request).step d x).1.Fits ∧ ∀ a ∈ S.actions request d x, a.Fits := by
  cases x with
  | elsewhere i => exact ⟨h, by simp [Site.actions, Action.Fits]⟩
  | answer e c upload =>
    simp only [Site.daemon, Site.answerToConnection, Site.actions]
    cases hc : d.conCls c with
    | none => exact ⟨fits_set h _ c (fits_opened _), by simp⟩
    | some con =>
      dsimp only
      split_ifs
      · obtain ⟨hpp, hcalls⟩ := postProcess_fits S.verdict (h c con hc) upload
        rw [postProcess_eq (S.obeys e)]
        refine ⟨fits_set h _ c ?_, fits_calls e c hcalls⟩
        rintro con' ⟨⟩
        exact hpp
      · exact ⟨h, by simp [Action.Fits]⟩
  | completed e c =>
    simp only [Site.daemon, Site.requestCompleted, Site.actions]
    cases hc : d.conCls c with
    | none => exact ⟨h, by simp⟩
    | some con =>
      dsimp only
      split_ifs
      · exact ⟨fits_set h _ c (by simp), fits_calls e c (destroy_fits S.verdict (h c con hc))⟩
      · exact ⟨fits_set h _ c (by simp), by simp⟩

/-- No call of any run is larger than the buffers. -/
theorem fits_run {d : Daemon σ α} (h : d.Fits) (xs : List (Event ε ι)) :
    ((S.daemon request).after d xs).Fits ∧ ∀ a ∈ S.trace request d xs, a.Fits := by
  constructor
  · exact Transducer.after_preserves
      (fun d x hd => (@fits_step _ _ _ _ _ _ S request d hd x).1) h xs
  · exact Transducer.outputs_invariant (m := (S.daemon request).trace (S.actions request))
      (P := fun _ _ => True) (fun d x hd _ => (fits_step hd x).1)
      (fun d x hd _ => (fits_step hd x).2) h
      (Transducer.along_of_forall _ (fun _ _ => trivial) d xs)

theorem fits_idle (g : σ) : (Daemon.idle α g).Fits := by
  intro c con hc
  cases hc

end IdolGateway.Microhttpd
