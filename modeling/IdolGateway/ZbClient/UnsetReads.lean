import IdolGateway.ZbClient.Rejection

namespace IdolGateway.ZbClient

/-- A `Content` child is answered before there is a child with this name. -/
def AnsweredWithout (name : String) (children : List XmlNode) : Prop :=
  ∃ before n after, children = before ++ n :: after ∧ n.name = "Content" ∧
    ∀ m ∈ before, m.name ≠ name

/-- The loop over the children reads the variable unset. -/
def XmlVars.Misses (v : XmlVars) (children : List XmlNode) : Unset → Prop
  | .uri => v.uri = none ∧ ∀ n ∈ children, n.name ∉ textNames
  | .fromUserName => v.fromUserName = none ∧ AnsweredWithout "FromUserName" (reached children)
  | .toUserName => v.toUserName = none ∧ AnsweredWithout "ToUserName" (reached children)
  | .connectiontype => False
  | .postprocessor => False

theorem answeredWithout_nil (name : String) : ¬ AnsweredWithout name [] := by
  rintro ⟨before, n, after, h, -⟩
  simp at h

theorem answeredWithout_cons (name : String) (n : XmlNode) (ns : List XmlNode) :
    AnsweredWithout name (n :: ns) ↔
      n.name = "Content" ∨ (n.name ≠ name ∧ AnsweredWithout name ns) := by
  constructor
  · rintro ⟨before, m, after, heq, hm, hbefore⟩
    cases before with
    | nil =>
      rw [List.nil_append, List.cons.injEq] at heq
      exact Or.inl (heq.1 ▸ hm)
    | cons b before =>
      rw [List.cons_append, List.cons.injEq] at heq
      refine Or.inr ⟨heq.1 ▸ hbefore b List.mem_cons_self, before, m, after, heq.2, hm, ?_⟩
      exact fun x hx => hbefore x (List.mem_cons_of_mem b hx)
  · rintro (hc | ⟨hname, before, m, after, rfl, hm, hbefore⟩)
    · exact ⟨[], n, ns, rfl, hc, by simp⟩
    · refine ⟨n :: before, m, after, rfl, hm, fun x hx => ?_⟩
      rcases List.mem_cons.mp hx with rfl | hx
      · exact hname
      · exact hbefore x hx

theorem readUnset_mem_readIfUnset (p : Option String) (x y : Unset) :
    .readUnset x ∈ readIfUnset p y ↔ x = y ∧ p = none := by
  unfold readIfUnset
  by_cases hp : p = none <;> simp [hp]

section

variable (u : Upload) (v : XmlVars) (strxml : String)

theorem readUnset_content {n : XmlNode} (hc : n.name = "Content") (ns : List XmlNode) (x : Unset) :
    .readUnset x ∈ (xmlLoop u v strxml (n :: ns)).events ↔
      (x = .fromUserName ∧ v.fromUserName = none) ∨ (x = .toUserName ∧ v.toUserName = none) ∨
        .readUnset x ∈ (xmlLoop u (v.after n) (replyText u v (strDataFor n)) ns).events := by
  have hafter : v.after n = { v with uri := some n.content } := by
    simp [XmlVars.after, textNames, hc]
  have hout : HttpEvent.readUnset x ∉ ((contentCommand n.content).getD []).map .out := by simp
  have hevents : (xmlLoop u v strxml (n :: ns)).events =
      ((contentCommand n.content).getD []).map .out ++
        (readIfUnset v.fromUserName .fromUserName ++ readIfUnset v.toUserName .toUserName) ++
        (xmlLoop u { v with uri := some n.content } (replyText u v (strDataFor n)) ns).events := by
    simp [xmlLoop, hc, strDataFor]
  rw [hevents, hafter]
  simp only [List.mem_append, hout, false_or, readUnset_mem_readIfUnset, or_assoc]

theorem ite_some_eq_none_iff (c : Prop) [Decidable c] (a : String) (p : Option String) :
    (if c then some a else p) = none ↔ ¬ c ∧ p = none := by
  by_cases hc : c <;> simp [hc]

theorem misses_sets {n : XmlNode} (hs : ¬ n.Stranger) (hc : n.name ≠ "Content")
    (ns : List XmlNode) (x : Unset) : (v.after n).Misses ns x ↔ v.Misses (n :: ns) x := by
  have hreach : reached (n :: ns) = n :: reached ns := by simp [reached, hs]
  cases x with
  | uri =>
    simp only [XmlVars.Misses, XmlVars.after, ite_some_eq_none_iff, List.forall_mem_cons]
    tauto
  | fromUserName =>
    simp only [XmlVars.Misses, XmlVars.after, ite_some_eq_none_iff, hreach, answeredWithout_cons,
      hc, false_or]
    tauto
  | toUserName =>
    simp only [XmlVars.Misses, XmlVars.after, ite_some_eq_none_iff, hreach, answeredWithout_cons,
      hc, false_or]
    tauto
  | connectiontype => rfl
  | postprocessor => rfl

theorem misses_content {n : XmlNode} (hc : n.name = "Content") (ns : List XmlNode) (x : Unset) :
    v.Misses (n :: ns) x ↔
      (x = .fromUserName ∧ v.fromUserName = none) ∨ (x = .toUserName ∧ v.toUserName = none) ∨
        (v.after n).Misses ns x := by
  have hs : ¬ n.Stranger := by simp [XmlNode.Stranger, hc]
  have hreach : reached (n :: ns) = n :: reached ns := by simp [reached, hs]
  cases x with
  | uri => simp [XmlVars.Misses, XmlVars.after, hc, textNames]
  | fromUserName =>
    have hkept : (v.after n).fromUserName = v.fromUserName := by simp [XmlVars.after, hc]
    simp only [XmlVars.Misses, hkept, hreach, answeredWithout_cons, hc, true_or]
    tauto
  | toUserName =>
    have hkept : (v.after n).toUserName = v.toUserName := by simp [XmlVars.after, hc]
    simp only [XmlVars.Misses, hkept, hreach, answeredWithout_cons, hc, true_or]
    tauto
  | connectiontype => simp [XmlVars.Misses]
  | postprocessor => simp [XmlVars.Misses]

/-- What the loop reads unset, by the children it comes to. -/
theorem readUnset_xmlLoop_iff (children : List XmlNode) (x : Unset) :
    .readUnset x ∈ (xmlLoop u v strxml children).events ↔ v.Misses children x := by
  induction children generalizing v strxml with
  | nil =>
    have hnil : reached [] = [] := rfl
    rw [xmlLoop, readUnset_mem_readIfUnset]
    cases x <;> simp [XmlVars.Misses, hnil, answeredWithout_nil]
  | cons n ns ih =>
    by_cases hs : n.Stranger
    · have hreach : reached (n :: ns) = [] := by simp [reached, hs]
      rw [xmlLoop_stranger u v strxml hs]
      cases x <;> simp [XmlVars.Misses, hreach, answeredWithout_nil, hs.1, textNames]
    · by_cases hc : n.name = "Content"
      · rw [readUnset_content u v strxml hc, ih, misses_content v hc]
      · rw [xmlLoop_sets u v strxml hs hc, ih, misses_sets v hs hc]

end

def HttpCall.conn? : HttpCall → Option ConnId
  | .answer c _ => some c
  | .completed c _ => some c
  | .buildJson _ => none

def uploadsOn (c : ConnId) (calls : List HttpCall) : List Upload :=
  calls.flatMap fun
    | .answer c' r => if c' = c then posted r else []
    | _ => []

section

variable [Parsers]

/-- What the calls on one connection do, among those of all others. -/
def Daemon.eventsOn (c : ConnId) (d : Daemon) : List HttpCall → List HttpEvent
  | [] => []
  | x :: xs =>
    (if x.conn? = some c then (daemon.step d x).2 else []) ++ eventsOn c (daemon.step d x).1 xs

/-- A document is posted whose children leave the variable unset. -/
def Upload.LeavesUnset (u : Upload) (x : Unset) : Prop :=
  ∃ children, u.IsDocument children ∧ XmlVars.start.Misses children x

/-- What is read unset between the first call of a request and its end. -/
def ReadUnsetIn (c : ConnId) (mid : List HttpCall) (connectiontype : ℤ) : Unset → Prop
  | .connectiontype => True
  | .postprocessor => connectiontype = 1
  | x => ∃ u ∈ uploadsOn c mid, u.LeavesUnset x

theorem Upload.IsDocument.unique {u : Upload} {children children' : List XmlNode}
    (h : u.IsDocument children) (h' : u.IsDocument children') : children = children' := by
  obtain ⟨n, hlen, -, -, hparse⟩ := h
  obtain ⟨n', hlen', -, -, hparse'⟩ := h'
  rw [hlen] at hlen'
  obtain rfl := Option.some.inj hlen'
  rw [hparse] at hparse'
  exact Option.some.inj (Option.some.inj hparse')

theorem readUnset_of_not_document (d : Daemon) {u : Upload}
    (h : ∀ children, ¬ u.IsDocument children) (x : Unset) :
    .readUnset x ∉ (answerUpload d u).2.1 := by
  cases hlen : u.contentLength with
  | none => simp [answerUpload_none d hlen]
  | some n =>
    by_cases h0 : n = 0
    · subst h0
      simp [answerUpload_zero d hlen]
    · by_cases hjson : u.isJson n
      · simp [answerUpload_json d hlen h0 hjson]
      · rw [answerUpload_xml d hlen h0 hjson]
        match hparse : Parsers.xmlParseMemory (strncpyBlock u.body n) with
        | none => simp [xmlBranch]
        | some none => simp [xmlBranch]
        | some (some children) =>
          exact absurd ⟨n, hlen, Nat.pos_of_ne_zero h0, hjson, hparse⟩ (h children)

theorem readUnset_answerUpload_iff (d : Daemon) (u : Upload) (x : Unset) :
    .readUnset x ∈ (answerUpload d u).2.1 ↔ u.LeavesUnset x := by
  by_cases h : ∃ children, u.IsDocument children
  · obtain ⟨children, hdoc⟩ := h
    rw [hdoc.answer d]
    refine (readUnset_xmlLoop_iff u .start d.strxml children x).trans ⟨fun hm => ⟨_, hdoc, hm⟩, ?_⟩
    rintro ⟨children', hdoc', hm⟩
    rwa [hdoc.unique hdoc']
  · simp only [not_exists] at h
    simp only [readUnset_of_not_document d h, false_iff]
    rintro ⟨children, hdoc, -⟩
    exact h children hdoc

theorem readUnset_answer_iff {d : Daemon} {c : ConnId} (hopen : d.openConn c = true) (r : Request)
    (x : Unset) :
    .readUnset x ∈ (answerToConnection d c r).2.1 ↔ ∃ u ∈ posted r, u.LeavesUnset x := by
  unfold answerToConnection posted
  rw [if_neg (by simp [hopen])]
  by_cases hget : r.method = "GET"
  · simp [hget]
  · by_cases hpost : r.method = "POST"
    · rw [if_neg hget, if_pos hpost, if_pos hpost]
      cases r.upload with
      | none => simp
      | some u => simp [readUnset_answerUpload_iff]
    · simp [hget, hpost]

theorem openConn_answer {d : Daemon} {c : ConnId} (hopen : d.openConn c = true) (c' : ConnId)
    (r : Request) : (answerToConnection d c' r).1.openConn c = true := by
  unfold answerToConnection
  split_ifs
  · by_cases hc : c = c'
    · simp [hc]
    · simp [hc, hopen]
  · exact hopen
  · cases r.upload with
    | none => exact hopen
    | some u => simpa [answerUpload_daemon] using hopen
  · cases r.upload with
    | none => exact hopen
    | some u => simpa [answerUpload_daemon] using hopen
  · exact hopen

theorem openConn_step {d : Daemon} {c : ConnId} (hopen : d.openConn c = true) {x : HttpCall}
    (hx : ∀ ct, x ≠ .completed c ct) : (daemon.step d x).1.openConn c = true := by
  cases x with
  | answer c' r => exact openConn_answer hopen c' r
  | completed c' ct =>
    have hc : c ≠ c' := by
      rintro rfl
      exact hx ct rfl
    simp only [daemon, requestCompleted]
    by_cases hclosed : d.openConn c' = false
    · rwa [if_pos hclosed]
    · rw [if_neg hclosed]
      exact (Function.update_of_ne hc _ _).trans hopen
  | buildJson text => exact hopen

theorem readUnset_eventsOn_iff {d : Daemon} {c : ConnId} (hopen : d.openConn c = true)
    {mid : List HttpCall} (hmid : ∀ ct, .completed c ct ∉ mid) (x : Unset) :
    .readUnset x ∈ d.eventsOn c mid ↔ ∃ u ∈ uploadsOn c mid, u.LeavesUnset x := by
  induction mid generalizing d with
  | nil => simp [Daemon.eventsOn, uploadsOn]
  | cons y ys ih =>
    have hy : ∀ ct, y ≠ .completed c ct := by
      rintro ct rfl
      exact hmid ct List.mem_cons_self
    have hys := ih (openConn_step hopen hy) fun ct hct => hmid ct (List.mem_cons_of_mem y hct)
    have hstep : .readUnset x ∈ (if y.conn? = some c then (daemon.step d y).2 else []) ↔
        ∃ u ∈ uploadsOn c [y], u.LeavesUnset x := by
      cases y with
      | answer c' r =>
        by_cases hc : c' = c
        · subst hc
          have huploads : uploadsOn c' [.answer c' r] = posted r := by simp [uploadsOn]
          have hown : (HttpCall.answer c' r).conn? = some c' := rfl
          rw [if_pos hown, huploads]
          exact readUnset_answer_iff hopen r x
        · simp [HttpCall.conn?, uploadsOn, hc]
      | completed c' ct =>
        have hc : c' ≠ c := by
          rintro rfl
          exact hy ct rfl
        simp [HttpCall.conn?, uploadsOn, hc]
      | buildJson text => simp [HttpCall.conn?, uploadsOn]
    have hsplit : uploadsOn c (y :: ys) = uploadsOn c [y] ++ uploadsOn c ys := by
      simp [uploadsOn]
    rw [Daemon.eventsOn, List.mem_append, hstep, hys, hsplit]
    simp only [List.mem_append, or_and_right, exists_or]

theorem eventsOn_append (c : ConnId) (d : Daemon) (xs ys : List HttpCall) :
    d.eventsOn c (xs ++ ys) = d.eventsOn c xs ++ (daemon.after d xs).eventsOn c ys := by
  induction xs generalizing d with
  | nil => rfl
  | cons x xs ih =>
    rw [List.cons_append, Daemon.eventsOn, Daemon.eventsOn, ih, List.append_assoc]
    rfl

theorem openConn_after {d : Daemon} {c : ConnId} (hopen : d.openConn c = true)
    {mid : List HttpCall} (hmid : ∀ ct, .completed c ct ∉ mid) :
    (daemon.after d mid).openConn c = true := by
  induction mid generalizing d with
  | nil => exact hopen
  | cons y ys ih =>
    have hy : ∀ ct, y ≠ .completed c ct := by
      rintro ct rfl
      exact hmid ct List.mem_cons_self
    exact ih (openConn_step hopen hy) fun ct hct => hmid ct (List.mem_cons_of_mem y hct)

/-- What a request reads unset, from its first call to its end. -/
theorem readUnset_request_iff (d : Daemon) (c : ConnId) (r : Request) (mid : List HttpCall)
    (connectiontype : ℤ) (hnew : d.openConn c = false) (hmid : ∀ ct, .completed c ct ∉ mid)
    (x : Unset) :
    .readUnset x ∈ d.eventsOn c (.answer c r :: mid ++ [.completed c connectiontype]) ↔
      ReadUnsetIn c mid connectiontype x := by
  have hfirst : daemon.step d (.answer c r) =
      ({ d with openConn := Function.update d.openConn c true }, []) := by
    simp [daemon, answerToConnection, hnew]
  set d₁ : Daemon := { d with openConn := Function.update d.openConn c true } with hd₁
  have hopen : d₁.openConn c = true := by simp [hd₁]
  have hend := openConn_after hopen hmid
  have hlast : (daemon.after d₁ mid).eventsOn c [.completed c connectiontype] =
      .readUnset .connectiontype ::
        if connectiontype = 1 then [.readUnset .postprocessor] else [] := by
    have hcompleted : (daemon.step (daemon.after d₁ mid) (.completed c connectiontype)).2 = _ :=
      congrArg Prod.snd (if_neg (by simp [hend]))
    have hown : (HttpCall.completed c connectiontype).conn? = some c := rfl
    rw [Daemon.eventsOn, if_pos hown, hcompleted]
    exact List.append_nil _
  have hevents : d.eventsOn c (.answer c r :: mid ++ [.completed c connectiontype]) =
      d₁.eventsOn c mid ++ .readUnset .connectiontype ::
        if connectiontype = 1 then [.readUnset .postprocessor] else [] := by
    rw [List.cons_append, Daemon.eventsOn, hfirst, eventsOn_append, hlast]
    simp
  rw [hevents, List.mem_append, readUnset_eventsOn_iff hopen hmid]
  have hnone : ∀ y : Unset, (y = .connectiontype ∨ y = .postprocessor) →
      ¬ ∃ u ∈ uploadsOn c mid, u.LeavesUnset y := by
    rintro y (rfl | rfl) ⟨u, -, children, -, h⟩
    · exact h
    · exact h
  cases x with
  | connectiontype => simp [ReadUnsetIn]
  | postprocessor =>
    have h := hnone .postprocessor (Or.inr rfl)
    by_cases h1 : connectiontype = 1 <;> simp [ReadUnsetIn, h, h1]
  | uri => by_cases h1 : connectiontype = 1 <;> simp [ReadUnsetIn, h1]
  | fromUserName => by_cases h1 : connectiontype = 1 <;> simp [ReadUnsetIn, h1]
  | toUserName => by_cases h1 : connectiontype = 1 <;> simp [ReadUnsetIn, h1]

/-- Every request reads a variable unset, and these are all it reads. -/
theorem request_reads_unset (d : Daemon) (c : ConnId) (r : Request) (mid : List HttpCall)
    (connectiontype : ℤ) (hnew : d.openConn c = false) (hmid : ∀ ct, .completed c ct ∉ mid) :
    let events := d.eventsOn c (.answer c r :: mid ++ [.completed c connectiontype])
    ¬ (∀ x, .readUnset x ∉ events) ∧
      ∀ x, .readUnset x ∈ events ↔ ReadUnsetIn c mid connectiontype x := by
  intro events
  have hreads := readUnset_request_iff d c r mid connectiontype hnew hmid
  exact ⟨fun hset => hset .connectiontype ((hreads .connectiontype).mpr trivial), hreads⟩

end

/-- A GET. -/
theorem get_reads_unset :
    letI := strangerParsers
    ¬ ∀ x, .readUnset x ∉ Daemon.initial.eventsOn 1
      (.answer 1 ⟨"GET", "/", none⟩ :: [.answer 1 ⟨"GET", "/", none⟩] ++ [.completed 1 0]) :=
  (@request_reads_unset strangerParsers .initial 1 ⟨"GET", "/", none⟩ [.answer 1 ⟨"GET", "/", none⟩]
    0 rfl (by simp)).1

/-- A document that begins with its content is answered to a name that nothing has set. -/
theorem content_first_reads_unset :
    letI := strangerParsers
    let events := Daemon.initial.eventsOn 1
      (.answer 1 (post none) :: [.answer 1 (post (some strangerUpload))] ++ [.completed 1 0])
    ¬ (∀ x, .readUnset x ∉ events) ∧ .readUnset .fromUserName ∈ events ∧
      .readUnset .toUserName ∈ events ∧ .readUnset .connectiontype ∈ events := by
  intro events
  have hfrom : .readUnset .fromUserName ∈ events := by decide +kernel
  have hto : .readUnset .toUserName ∈ events := by decide +kernel
  have hkind : .readUnset .connectiontype ∈ events := by decide +kernel
  exact ⟨fun hset => hset .fromUserName hfrom, hfrom, hto, hkind⟩

end IdolGateway.ZbClient
