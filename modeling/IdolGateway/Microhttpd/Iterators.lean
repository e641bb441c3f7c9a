import IdolGateway.Microhttpd.FormCalls

namespace IdolGateway.Microhttpd

variable {σ ω : Type}

def Obeys (ikvi : Iterator σ ω) (verdict : Call → MhdResult) : Prop :=
  ∀ s c, (ikvi s c).1 = verdict c

def effects (ikvi : Iterator σ ω) : Transducer σ Call ω where
  step s c := (ikvi s c).2

section

variable {ikvi : Iterator σ ω} {verdict : Call → MhdResult}

/-- The parser does not see the state of the iterator. -/
theorem processLoop_eq (h : Obeys ikvi verdict) (fuel : ℕ) (pp : PostProcessor)
    (data : List UInt8) (s : σ) :
    processLoop ikvi fuel pp data s =
      ⟨(processLoop (listen verdict) fuel pp data ()).result,
        (processLoop (listen verdict) fuel pp data ()).pp,
        (effects ikvi).after s (processLoop (listen verdict) fuel pp data ()).out,
        (effects ikvi).outputs s (processLoop (listen verdict) fuel pp data ()).out⟩ := by
  induction fuel generalizing pp data s with
  | zero => rfl
  | succ fuel ih =>
    rw [processLoop, processLoop]
    by_cases hdata : data = []
    · rw [if_pos hdata, if_pos hdata]
      rfl
    · rw [if_neg hdata, if_neg hdata]
      cases pp.round data with
      | ret result pp => rfl
      | goOn pp rest => exact ih pp rest s
      | call c refused pp rest =>
        simp only [listen]
        rw [h s c]
        cases hv : verdict c with
        | no => simp [effects]
        | yes =>
          rw [ih pp rest]
          simp only [List.singleton_append, Transducer.after_cons, Transducer.outputs_cons]
          rfl

theorem postProcess_eq (h : Obeys ikvi verdict) (pp : PostProcessor) (data : List UInt8) (s : σ) :
    postProcess ikvi pp data s =
      ⟨(postProcess (listen verdict) pp data ()).result,
        (postProcess (listen verdict) pp data ()).pp,
        (effects ikvi).after s (postProcess (listen verdict) pp data ()).out,
        (effects ikvi).outputs s (postProcess (listen verdict) pp data ()).out⟩ := by
  unfold postProcess
  split_ifs
  · rfl
  · exact processLoop_eq h _ pp data s

theorem destroyPostProcessor_eq (h : Obeys ikvi verdict) (pp : PostProcessor) (s : σ) :
    destroyPostProcessor ikvi pp s =
      ((effects ikvi).after s (destroyPostProcessor (listen verdict) pp ()).2,
        (effects ikvi).outputs s (destroyPostProcessor (listen verdict) pp ()).2) := by
  unfold destroyPostProcessor
  split_ifs
  · unfold postProcessUrlencoded
    rw [processLoop_eq h]
  · rfl

/-- So for all segments: the calls are those of a listener, and the iterator acts on them. -/
theorem segments_eq (h : Obeys ikvi verdict) (pp : PostProcessor) (s : σ)
    (segs : List (List UInt8)) :
    (segments ikvi).after (pp, s) segs =
        (((segments (listen verdict)).after (pp, ()) segs).1,
          (effects ikvi).after s ((segments (listen verdict)).outputs (pp, ()) segs)) ∧
      (segments ikvi).outputs (pp, s) segs =
        (effects ikvi).outputs s ((segments (listen verdict)).outputs (pp, ()) segs) := by
  induction segs generalizing pp s with
  | nil => exact ⟨rfl, rfl⟩
  | cons data segs ih =>
    have hdata := postProcess_eq h pp data s
    obtain ⟨hafter, hout⟩ := ih (postProcess (listen verdict) pp data ()).pp
      ((effects ikvi).after s (postProcess (listen verdict) pp data ()).out)
    rw [Transducer.after_cons, Transducer.outputs_cons, Transducer.after_cons,
      Transducer.outputs_cons, Transducer.after_append, Transducer.outputs_append]
    change (segments ikvi).after ((postProcess ikvi pp data s).pp, (postProcess ikvi pp data s).user)
        segs = _ ∧ (postProcess ikvi pp data s).out ++
        (segments ikvi).outputs ((postProcess ikvi pp data s).pp,
          (postProcess ikvi pp data s).user) segs = _
    rw [hdata]
    exact ⟨hafter, congrArg _ hout⟩

end

variable (verdict : Call → MhdResult)

/-- The calls up to the first one that is refused, that one included. -/
def untilRefused : List Call → List Call
  | [] => []
  | c :: cs => c :: if verdict c = .yes then untilRefused cs else []

theorem untilRefused_of_yes {cs : List Call} (h : ∀ c ∈ cs, verdict c = .yes)
    (cs' : List Call) : untilRefused verdict (cs ++ cs') = cs ++ untilRefused verdict cs' := by
  induction cs with
  | nil => rfl
  | cons c cs ih =>
    rw [List.forall_mem_cons] at h
    rw [List.cons_append, untilRefused, if_pos h.1, List.cons_append, ih h.2]

theorem untilRefused_of_no {cs : List Call} (h : ¬ ∀ c ∈ cs, verdict c = .yes)
    (cs' : List Call) : untilRefused verdict (cs ++ cs') = untilRefused verdict cs := by
  induction cs with
  | nil => exact absurd (by simp) h
  | cons c cs ih =>
    rw [List.cons_append, untilRefused, untilRefused]
    by_cases hv : verdict c = .yes
    · rw [if_pos hv, if_pos hv, ih]
      intro hall
      exact h (List.forall_mem_cons.mpr ⟨hv, hall⟩)
    · rw [if_neg hv, if_neg hv]

theorem initRound_ne_call (pp : PostProcessor) (data : List UInt8) (c : Call)
    (refused pp' : PostProcessor) (rest : List UInt8) :
    pp.initRound data ≠ .call c refused pp' rest := by
  unfold PostProcessor.initRound
  dsimp only
  split_ifs <;> simp

theorem valueRound_refused {pp : PostProcessor} {data : List UInt8} {c : Call}
    {refused pp' : PostProcessor} {rest : List UInt8}
    (h : pp.valueRound data = .call c refused pp' rest) : refused.state = .ppError := by
  unfold PostProcessor.valueRound at h
  dsimp only at h
  split_ifs at h with h0
  cases h
  rfl

/-- A refused call leaves the processor in its error state. -/
theorem round_refused {pp : PostProcessor} {data : List UInt8} {c : Call}
    {refused pp' : PostProcessor} {rest : List UInt8}
    (h : pp.round data = .call c refused pp' rest) : refused.state = .ppError := by
  unfold PostProcessor.round at h
  cases hstate : pp.state with
  | ppError =>
    rw [hstate] at h
    cases h
  | ppDone =>
    rw [hstate] at h
    cases h
  | ppInit =>
    rw [hstate] at h
    exact absurd h (initRound_ne_call pp data c refused pp' rest)
  | ppProcessValue =>
    rw [hstate] at h
    exact valueRound_refused h
  | ppExpectNewLine =>
    rw [hstate] at h
    cases data with
    | nil => cases h
    | cons b data =>
      dsimp only at h
      split_ifs at h

/-- A run `t` of a refusing iterator beside a run `all` of one that takes everything. -/
structure CutShort (verdict : Call → MhdResult) (pp : PostProcessor) (cs : List Call)
    (ppAll : PostProcessor) (csAll : List Call) : Prop where
  calls : cs = untilRefused verdict csAll
  same : (∀ c ∈ csAll, verdict c = .yes) → pp = ppAll
  error : (¬ ∀ c ∈ csAll, verdict c = .yes) → pp.state = .ppError

theorem loop_cutShort (fuel : ℕ) (pp : PostProcessor) (data : List UInt8) :
    CutShort verdict (processLoop (listen verdict) fuel pp data ()).pp
      (processLoop (listen verdict) fuel pp data ()).out
      (processLoop takeAll fuel pp data ()).pp (processLoop takeAll fuel pp data ()).out := by
  have hquiet : ∀ pp : PostProcessor, CutShort verdict pp [] pp [] :=
    fun pp => ⟨rfl, fun _ => rfl, fun h => absurd (by simp) h⟩
  induction fuel generalizing pp data with
  | zero => exact hquiet pp
  | succ fuel ih =>
    rw [processLoop, processLoop]
    by_cases hdata : data = []
    · rw [if_pos hdata, if_pos hdata]
      exact hquiet pp
    · rw [if_neg hdata, if_neg hdata]
      cases hround : pp.round data with
      | ret result pp => exact hquiet pp
      | goOn pp rest => exact ih pp rest
      | call c refused pp' rest =>
        simp only [listen]
        have hrest := ih pp' rest
        cases hv : verdict c with
        | no => exact ⟨by simp [untilRefused, hv], by simp [hv], fun _ => round_refused hround⟩
        | yes =>
          exact ⟨by simp [untilRefused, hv, hrest.calls], by simpa [hv] using hrest.same,
            by simpa [hv] using hrest.error⟩

theorem postProcess_cutShort (pp : PostProcessor) (data : List UInt8) :
    CutShort verdict (postProcess (listen verdict) pp data ()).pp
      (postProcess (listen verdict) pp data ()).out
      (postProcess takeAll pp data ()).pp (postProcess takeAll pp data ()).out := by
  unfold postProcess
  by_cases hdata : data = []
  · rw [if_pos hdata, if_pos hdata]
    exact ⟨rfl, fun _ => rfl, fun h => absurd (by simp) h⟩
  · rw [if_neg hdata, if_neg hdata]
    exact loop_cutShort verdict _ pp data

theorem postProcess_error {pp : PostProcessor} (h : pp.state = .ppError) (data : List UInt8) :
    (postProcess (listen verdict) pp data ()).pp = pp ∧
      (postProcess (listen verdict) pp data ()).out = [] := by
  unfold postProcess
  split_ifs with hdata
  · exact ⟨rfl, rfl⟩
  · have hround : pp.round data = .ret .no pp := by
      unfold PostProcessor.round
      rw [h]
    unfold postProcessUrlencoded loopBudget
    rw [processLoop, if_neg hdata, hround]
    exact ⟨rfl, rfl⟩

theorem segments_cons (pp : PostProcessor) (data : List UInt8) (segs : List (List UInt8)) :
    (segments (listen verdict)).after (pp, ()) (data :: segs) =
        (segments (listen verdict)).after ((postProcess (listen verdict) pp data ()).pp, ()) segs ∧
      (segments (listen verdict)).outputs (pp, ()) (data :: segs) =
        (postProcess (listen verdict) pp data ()).out ++
          (segments (listen verdict)).outputs ((postProcess (listen verdict) pp data ()).pp, ())
            segs :=
  ⟨rfl, rfl⟩

theorem segments_error {pp : PostProcessor} (h : pp.state = .ppError) (segs : List (List UInt8)) :
    ((segments (listen verdict)).after (pp, ()) segs).1 = pp ∧
      (segments (listen verdict)).outputs (pp, ()) segs = [] := by
  induction segs with
  | nil => exact ⟨rfl, rfl⟩
  | cons data segs ih =>
    obtain ⟨hpp, hout⟩ := postProcess_error verdict h data
    rw [(segments_cons verdict pp data segs).1, (segments_cons verdict pp data segs).2, hpp, hout]
    exact ih

theorem segments_cutShort (pp : PostProcessor) (segs : List (List UInt8)) :
    CutShort verdict ((segments (listen verdict)).after (pp, ()) segs).1
      ((segments (listen verdict)).outputs (pp, ()) segs)
      ((segments takeAll).after (pp, ()) segs).1 ((segments takeAll).outputs (pp, ()) segs) := by
  induction segs generalizing pp with
  | nil => exact ⟨rfl, fun _ => rfl, fun h => absurd (by simp) h⟩
  | cons data segs ih =>
    have hfirst := postProcess_cutShort verdict pp data
    rw [(segments_cons verdict pp data segs).1, (segments_cons verdict pp data segs).2,
      (segments_cons _ pp data segs).1, (segments_cons _ pp data segs).2]
    generalize postProcess (listen verdict) pp data () = first at hfirst ⊢
    generalize postProcess takeAll pp data () = firstAll at hfirst ⊢
    by_cases hall : ∀ c ∈ firstAll.out, verdict c = .yes
    · have hrest := ih firstAll.pp
      rw [hfirst.same hall]
      refine ⟨?_, fun h => hrest.same fun c hc => h c (List.mem_append_right _ hc),
        fun h => hrest.error fun h' => h (List.forall_mem_append.mpr ⟨hall, h'⟩)⟩
      have hself := untilRefused_of_yes verdict hall []
      simp only [untilRefused, List.append_nil] at hself
      rw [untilRefused_of_yes verdict hall, hfirst.calls, hself, hrest.calls]
    · obtain ⟨hpp, hout⟩ := segments_error verdict (hfirst.error hall) segs
      rw [hpp, hout, List.append_nil]
      refine ⟨?_, fun h => absurd (List.forall_mem_append.mp h).1 hall, fun _ => hfirst.error hall⟩
      rw [untilRefused_of_no verdict hall, hfirst.calls]

/-- The calls of an iterator that refuses are the first of those of one that does not. -/
theorem callsUnder_eq (segs : List (List UInt8)) :
    callsUnder verdict segs = untilRefused verdict (callsOf segs) := by
  have hsegs := segments_cutShort verdict .create segs
  unfold callsOf callsUnder
  dsimp only
  generalize (segments (listen verdict)).outputs (.create, ()) segs = cs at hsegs ⊢
  generalize (segments takeAll).outputs (.create, ()) segs = csAll at hsegs ⊢
  generalize ((segments (listen verdict)).after (.create, ()) segs).1 = pp at hsegs ⊢
  generalize ((segments takeAll).after (.create, ()) segs).1 = ppAll at hsegs ⊢
  by_cases hall : ∀ c ∈ csAll, verdict c = .yes
  · have hself := untilRefused_of_yes verdict hall []
    simp only [untilRefused, List.append_nil] at hself
    rw [untilRefused_of_yes verdict hall, hsegs.calls, hself, hsegs.same hall]
    unfold destroyPostProcessor
    split_ifs
    · exact congrArg _ (loop_cutShort verdict _ _ _).calls
    · rfl
  · rw [untilRefused_of_no verdict hall, hsegs.calls]
    simp [destroyPostProcessor, hsegs.error hall]

end IdolGateway.Microhttpd
