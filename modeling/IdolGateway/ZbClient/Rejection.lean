import IdolGateway.ZbClient.HttpSegments

namespace IdolGateway.ZbClient

theorem rejected_xmlLoop_iff (u : Upload) (v : XmlVars) (strxml : String)
    (children : List XmlNode) :
    (xmlLoop u v strxml children).rejected = true ↔ ∃ n ∈ children, n.Stranger := by
  induction children generalizing v strxml with
  | nil => simp [xmlLoop]
  | cons n ns ih =>
    by_cases hs : n.Stranger
    · rw [xmlLoop_stranger u v strxml hs]
      simp [hs]
    · by_cases hc : n.name = "Content"
      · obtain ⟨reads, -, hloop⟩ := xmlLoop_content u v strxml hc ns
        rw [hloop]
        simpa [hs] using ih _ _
      · rw [xmlLoop_sets u v strxml hs hc, ih]
        simp [hs]

theorem store_not_mem_outs (n : XmlNode) (i : ℕ) : Out.store i ∉ n.outs := by
  have hall : ∀ e ∈ contentTable, ∀ o ∈ e.2, o.usart? ≠ none ∨ o = .pause := by decide
  unfold XmlNode.outs
  by_cases hc : n.name = "Content"
  · rw [if_pos hc]
    cases hcmd : contentCommand n.content with
    | none => simp
    | some outs =>
      obtain ⟨e, he, rfl⟩ := Option.map_eq_some_iff.mp hcmd
      intro hmem
      rcases hall e (List.mem_of_find?_eq_some he) _ hmem with h | h
      · exact h rfl
      · cases h
  · rw [if_neg hc]
    simp

theorem store_not_mem_events (u : Upload) (v : XmlVars) (strxml : String)
    (children : List XmlNode) (i : ℕ) :
    .out (.store i) ∉ (xmlLoop u v strxml children).events := by
  intro hmem
  have hout : Out.store i ∈ (xmlLoop u v strxml children).outs :=
    List.mem_filterMap.mpr ⟨_, hmem, rfl⟩
  rw [outs_xmlLoop] at hout
  obtain ⟨n, -, hn⟩ := List.mem_flatMap.mp hout
  exact store_not_mem_outs n i hn

theorem getD_eq_self_iff (r : Option String) (s : String) :
    r.getD s = s ↔ ∀ text, r = some text → text = s := by
  cases r <;> simp

section

variable [Parsers]

def Upload.IsDocument (u : Upload) (children : List XmlNode) : Prop :=
  ∃ n, u.contentLength = some n ∧ 0 < n ∧ ¬ u.isJson n ∧
    Parsers.xmlParseMemory (strncpyBlock u.body n) = some (some children)

theorem Upload.IsDocument.answer {u : Upload} {children : List XmlNode} (h : u.IsDocument children)
    (d : Daemon) :
    answerUpload d u =
      let r := xmlLoop u .start d.strxml children
      ({ d with postType := 2, strxml := r.strxml }, r.events,
        if r.rejected then .unspecified else .yes) := by
  obtain ⟨n, hlen, hn, hjson, hparse⟩ := h
  rw [answerUpload_xml d hlen (Nat.ne_of_gt hn) hjson, hparse]
  rfl

/-- A document with a sender outside the whitelist. -/
structure Upload.Rejects (u : Upload) (children : List XmlNode) : Prop where
  isDocument : u.IsDocument children
  stranger : ∃ s ∈ children, s.Stranger

/-- A call leads from `d` to `d'` and leaves no trace. -/
structure Daemon.Untouched (d : Daemon) (events : List HttpEvent) (d' : Daemon) : Prop where
  frames : events.filterMap HttpEvent.usart? = []
  postType : d'.postType = d.postType
  strxml : d'.strxml = d.strxml
  jsonStr : d'.jsonStr = d.jsonStr
  table : ∀ i, .out (.store i) ∉ events

/-- The call consumes the upload or returns `MHD_NO`, and leaves no trace. -/
structure Daemon.RejectsAtomically (d : Daemon) (u : Upload) : Prop where
  returned : (answerUpload d u).2.2 = .yes ∨ (answerUpload d u).2.2 = .no
  untouched : d.Untouched (answerUpload d u).2.1 (answerUpload d u).1

theorem Upload.Rejects.answer {u : Upload} {children : List XmlNode} (h : u.Rejects children)
    (d : Daemon) :
    answerUpload d u =
      ({ d with postType := 2, strxml := (xmlLoop u .start d.strxml children).strxml },
        (xmlLoop u .start d.strxml children).events, .unspecified) := by
  have hrejected := (rejected_xmlLoop_iff u .start d.strxml children).mpr h.stranger
  rw [h.isDocument.answer d]
  simp only [hrejected, if_true]

theorem untouched_iff {u : Upload} {children : List XmlNode} (h : u.Rejects children)
    (d : Daemon) :
    d.Untouched (answerUpload d u).2.1 (answerUpload d u).1 ↔
      d.postType = 2 ∧ (∀ n ∈ reached children, ¬ n.Command) ∧
        ∀ text, xmlReply u .start (reached children) = some text → text = d.strxml := by
  have hframes : (xmlLoop u .start d.strxml children).events.filterMap HttpEvent.usart? = [] ↔
      ∀ n ∈ reached children, ¬ n.Command := by
    have hsent := (xmlLoop_frames u .start d.strxml children).not
    simpa [XmlRun.frames] using hsent
  have hstrxml := getD_eq_self_iff (xmlReply u .start (reached children)) d.strxml
  rw [← xmlLoop_strxml] at hstrxml
  rw [h.answer d]
  constructor
  · intro hd
    exact ⟨hd.postType.symm, hframes.mp hd.frames, hstrxml.mp hd.strxml⟩
  · rintro ⟨htype, hcommands, hreply⟩
    exact ⟨hframes.mpr hcommands, htype.symm, hstrxml.mpr hreply, rfl,
      store_not_mem_events u .start d.strxml children⟩

/-- No rejection is atomic, whatever stands before the stranger: the upload is never
consumed.  Nothing else changes exactly if the page is an XML page already and the children
before the stranger send nothing and reply nothing new. -/
theorem rejection_never_atomic (d : Daemon) (u : Upload) (children : List XmlNode)
    (h : u.Rejects children) :
    ¬ d.RejectsAtomically u ∧
      (d.Untouched (answerUpload d u).2.1 (answerUpload d u).1 ↔
        d.postType = 2 ∧ (∀ n ∈ reached children, ¬ n.Command) ∧
          ∀ text, xmlReply u .start (reached children) = some text → text = d.strxml) := by
  refine ⟨fun hd => ?_, untouched_iff h d⟩
  have hreturned := hd.returned
  rw [h.answer d] at hreturned
  rcases hreturned with hyes | hno
  · cases hyes
  · cases hno

end

/-- `<xml><Content>开客厅</Content><FromUserName>x</FromUserName></xml>` -/
def strangerText : List UInt8 :=
  asciiBytes "<xml><Content>" ++ [0xe5, 0xbc, 0x80, 0xe5, 0xae, 0xa2, 0xe5, 0x8e, 0x85] ++
    asciiBytes "</Content><FromUserName>x</FromUserName></xml>"

def strangerChildren : List XmlNode := [⟨"Content", "开客厅"⟩, ⟨"FromUserName", "x"⟩]

@[reducible] def strangerParsers : Parsers where
  jsonObjectToJsonString := Json.spaced
  jsonTokenerParse _ := .null
  jsonObjectGetInt _ := 0
  xmlParseMemory text := if text = strangerText then some (some strangerChildren) else none

def strangerUpload : Upload := zeros.upload strangerText.length strangerText

theorem stranger_rejects :
    letI := strangerParsers
    strangerUpload.Rejects strangerChildren :=
  @Upload.Rejects.mk strangerParsers _ _
    ⟨strangerText.length, rfl, by decide +kernel, by decide +kernel, if_pos (by decide +kernel)⟩
    ⟨⟨"FromUserName", "x"⟩, by decide +kernel, by decide +kernel⟩

theorem rejection_of_stranger :
    letI := strangerParsers
    ¬ Daemon.initial.RejectsAtomically strangerUpload :=
  (@rejection_never_atomic strangerParsers .initial strangerUpload strangerChildren
    stranger_rejects).1

/-- The light has been switched on and the page changed when the sender is rejected. -/
theorem command_before_rejection :
    letI := strangerParsers
    let r := answerUpload .initial strangerUpload
    ¬ Daemon.initial.RejectsAtomically strangerUpload ∧ r.2.2 = .unspecified ∧
      r.2.1.filterMap HttpEvent.usart? = [mxjSendCtrlMessage ketingId 3 1 1 1] ∧
      Daemon.initial.postType = 0 ∧ r.1.postType = 2 := by
  have hreturned : (@answerUpload strangerParsers .initial strangerUpload).2.2 = .unspecified := by
    decide +kernel
  refine ⟨fun h => ?_, hreturned, by decide +kernel, rfl, by decide +kernel⟩
  have hclaimed := @Daemon.RejectsAtomically.returned strangerParsers _ _ h
  rw [hreturned] at hclaimed
  rcases hclaimed with hyes | hno
  · cases hyes
  · cases hno

end IdolGateway.ZbClient
