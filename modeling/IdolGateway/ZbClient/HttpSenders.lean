import Mathlib.Data.List.TakeWhile
import IdolGateway.ZbClient.Http

namespace IdolGateway.ZbClient

/-- A `FromUserName` child with a text outside the whitelist. -/
def XmlNode.Stranger (n : XmlNode) : Prop := n.name = "FromUserName" ∧ n.content ∉ whitelist

/-- A `Content` child with one of the twenty-four command texts. -/
def XmlNode.Command (n : XmlNode) : Prop :=
  n.name = "Content" ∧ contentCommand n.content ≠ none

instance (n : XmlNode) : Decidable n.Stranger := inferInstanceAs (Decidable (_ ∧ _))

instance (n : XmlNode) : Decidable n.Command := inferInstanceAs (Decidable (_ ∧ _))

def reached (children : List XmlNode) : List XmlNode := children.takeWhile fun n => ¬ n.Stranger

/-- There is a sender on the whitelist and none outside it. -/
def Authorised (children : List XmlNode) : Prop :=
  (∃ n ∈ children, n.name = "FromUserName" ∧ n.content ∈ whitelist) ∧
    ∀ n ∈ children, n.name = "FromUserName" → n.content ∈ whitelist

def HttpEvent.out? : HttpEvent → Option Out
  | .out o => some o
  | _ => none

def XmlRun.outs (r : XmlRun) : List Out := r.events.filterMap HttpEvent.out?

def XmlRun.frames (r : XmlRun) : List UsartCall := r.events.filterMap HttpEvent.usart?

def XmlNode.outs (n : XmlNode) : List Out :=
  if n.name = "Content" then (contentCommand n.content).getD [] else []

def XmlNode.frames (n : XmlNode) : List UsartCall := n.outs.filterMap Out.usart?

/-- The children whose text is taken into `uri`. -/
def textNames : List String := ["CreateTime", "FromUserName", "ToUserName", "MsgType", "Content"]

def XmlVars.after (v : XmlVars) (n : XmlNode) : XmlVars where
  uri := if n.name ∈ textNames then some n.content else v.uri
  fromUserName := if n.name = "FromUserName" then some n.content else v.fromUserName
  toUserName := if n.name = "ToUserName" then some n.content else v.toUserName

section

variable (u : Upload) (v : XmlVars) (strxml : String)

theorem xmlLoop_stranger {n : XmlNode} (h : n.Stranger) (ns : List XmlNode) :
    xmlLoop u v strxml (n :: ns) = ⟨strxml, [], true⟩ := by
  obtain ⟨hname, hcontent⟩ := h
  simp [xmlLoop, hname, hcontent]

theorem xmlLoop_content {n : XmlNode} (h : n.name = "Content") (ns : List XmlNode) :
    ∃ reads, (∀ e ∈ reads, e.out? = none) ∧
      xmlLoop u v strxml (n :: ns) =
        { xmlLoop u { v with uri := some n.content } (replyText u v
            (if contentCommand n.content = none then contentHelp else n.content)) ns with
          events := ((contentCommand n.content).getD []).map .out ++ reads ++
            (xmlLoop u { v with uri := some n.content } (replyText u v
              (if contentCommand n.content = none then contentHelp else n.content)) ns).events } := by
  refine ⟨readIfUnset v.fromUserName .fromUserName ++ readIfUnset v.toUserName .toUserName, ?_, ?_⟩
  · intro e he
    simp only [readIfUnset, List.mem_append] at he
    rcases he with he | he
    · split_ifs at he <;> simp_all [HttpEvent.out?]
    · split_ifs at he <;> simp_all [HttpEvent.out?]
  · simp [xmlLoop, h]

theorem xmlLoop_sets {n : XmlNode} (hs : ¬ n.Stranger) (hc : n.name ≠ "Content")
    (ns : List XmlNode) :
    xmlLoop u v strxml (n :: ns) = xmlLoop u (v.after n) strxml ns := by
  by_cases h1 : n.name = "CreateTime"
  · simp [xmlLoop, XmlVars.after, textNames, h1]
  · by_cases h2 : n.name = "FromUserName"
    · have hw : n.content ∈ whitelist := by
        by_contra hw
        exact hs ⟨h2, hw⟩
      simp [xmlLoop, XmlVars.after, textNames, h2, hw]
    · by_cases h3 : n.name = "ToUserName"
      · simp [xmlLoop, XmlVars.after, textNames, h3]
      · by_cases h4 : n.name = "MsgType"
        · simp [xmlLoop, XmlVars.after, textNames, h4]
        · simp [xmlLoop, XmlVars.after, textNames, h1, h2, h3, h4, hc]

end

theorem frames_of_command {content : String} (h : contentCommand content ≠ none) :
    ((contentCommand content).getD []).filterMap Out.usart? ≠ [] := by
  have hall : ∀ e ∈ contentTable, e.2.filterMap Out.usart? ≠ [] := by decide
  obtain ⟨outs, houts⟩ := Option.ne_none_iff_exists'.mp h
  obtain ⟨e, he, rfl⟩ := Option.map_eq_some_iff.mp houts
  rw [houts]
  exact hall e (List.mem_of_find?_eq_some he)

theorem XmlRun.frames_eq (r : XmlRun) : r.frames = r.outs.filterMap Out.usart? := by
  unfold frames outs
  rw [List.filterMap_filterMap]
  apply List.filterMap_congr
  intro e _
  cases e <;> rfl

theorem out_map_out (outs : List Out) :
    (outs.map HttpEvent.out).filterMap HttpEvent.out? = outs := by
  rw [List.filterMap_map]
  exact List.filterMap_some

theorem outs_xmlLoop (u : Upload) (v : XmlVars) (strxml : String) (children : List XmlNode) :
    (xmlLoop u v strxml children).outs = (reached children).flatMap XmlNode.outs := by
  induction children generalizing v strxml with
  | nil =>
    unfold xmlLoop XmlRun.outs readIfUnset
    split_ifs <;> rfl
  | cons n ns ih =>
    -- a stranger ends the loop, a content may send, any other child only sets pointers
    by_cases hs : n.Stranger
    · rw [xmlLoop_stranger u v strxml hs]
      simp [XmlRun.outs, reached, hs]
    · have hreach : reached (n :: ns) = n :: reached ns := by simp [reached, hs]
      rw [hreach, List.flatMap_cons]
      by_cases hc : n.name = "Content"
      · obtain ⟨reads, hreads, hloop⟩ := xmlLoop_content u v strxml hc ns
        have hnone : reads.filterMap HttpEvent.out? = [] := List.filterMap_eq_nil_iff.mpr hreads
        rw [hloop]
        simp only [XmlRun.outs, List.filterMap_append, out_map_out, hnone, List.append_nil]
        rw [← XmlRun.outs, ih, XmlNode.outs, if_pos hc]
      · rw [xmlLoop_sets u v strxml hs hc, ih, XmlNode.outs, if_neg hc, List.nil_append]

theorem frames_xmlLoop (u : Upload) (v : XmlVars) (strxml : String) (children : List XmlNode) :
    (xmlLoop u v strxml children).frames = (reached children).flatMap XmlNode.frames := by
  rw [XmlRun.frames_eq, outs_xmlLoop, List.filterMap_flatMap]
  rfl

theorem XmlNode.frames_ne_nil_iff (n : XmlNode) : n.frames ≠ [] ↔ n.Command := by
  unfold frames outs Command
  by_cases hc : n.name = "Content"
  · rw [if_pos hc]
    by_cases hcmd : contentCommand n.content = none
    · simp [hcmd]
    · simp [hc, hcmd, frames_of_command hcmd]
  · simp [hc]

/-- The loop sends something exactly when it comes to a command. -/
theorem xmlLoop_frames (u : Upload) (v : XmlVars) (strxml : String) (children : List XmlNode) :
    (xmlLoop u v strxml children).frames ≠ [] ↔ ∃ n ∈ reached children, n.Command := by
  rw [frames_xmlLoop, ne_eq, List.flatMap_eq_nil_iff]
  simp only [← XmlNode.frames_ne_nil_iff, not_forall, exists_prop]

/-- A command in a document that names no sender. -/
def UnsignedCommand (children : List XmlNode) : Prop :=
  (∀ n ∈ children, n.name ≠ "FromUserName") ∧ ∃ n ∈ children, n.Command

/-- A command that stands before the first sender outside the whitelist. -/
def CommandBeforeStranger (children : List XmlNode) : Prop :=
  ∃ before stranger after, children = before ++ stranger :: after ∧ stranger.Stranger ∧
    (∀ n ∈ before, ¬ n.Stranger) ∧ ∃ n ∈ before, n.Command

theorem reached_eq_self {children : List XmlNode} (h : ∀ n ∈ children, ¬ n.Stranger) :
    reached children = children := by
  unfold reached
  exact List.takeWhile_eq_self_iff.mpr fun n hn => by simpa using h n hn

/-- A document with a stranger is read up to the first one. -/
theorem exists_first_stranger {children : List XmlNode} (h : ∃ n ∈ children, n.Stranger) :
    ∃ s after, children = reached children ++ s :: after ∧ s.Stranger := by
  induction children with
  | nil => simp at h
  | cons n ns ih =>
    by_cases hs : n.Stranger
    · exact ⟨n, ns, by simp [reached, hs], hs⟩
    · have hns : ∃ n ∈ ns, n.Stranger := by simpa [hs] using h
      obtain ⟨s, after, heq, hstr⟩ := ih hns
      refine ⟨s, after, ?_, hstr⟩
      have hreach : reached (n :: ns) = n :: reached ns := by simp [reached, hs]
      rw [hreach, List.cons_append, ← heq]

theorem reached_append (after : List XmlNode) {before : List XmlNode} {s : XmlNode}
    (hs : s.Stranger) (hb : ∀ n ∈ before, ¬ n.Stranger) : reached (before ++ s :: after) = before := by
  have hrest : (s :: after).takeWhile (fun n => ¬ n.Stranger) = [] := by simp [hs]
  unfold reached
  rw [List.takeWhile_append_of_pos fun n hn => by simpa using hb n hn, hrest, List.append_nil]

theorem not_stranger_of_mem_reached {children : List XmlNode} :
    ∀ n ∈ reached children, ¬ n.Stranger := by
  intro n hn
  simpa using List.mem_takeWhile_imp hn

/-- If the XML branch sends a frame the document is authorised, unless the command is
unsigned or stands before the first stranger. -/
theorem xml_frames_authorised_iff (u : Upload) (strxml : String) (children : List XmlNode) :
    ((xmlBranch u strxml (some (some children))).frames ≠ [] → Authorised children) ↔
      ¬ (UnsignedCommand children ∨ CommandBeforeStranger children) := by
  have hframes := xmlLoop_frames u .start strxml children
  constructor
  · rintro h (⟨hnone, n, hn, hcmd⟩ | ⟨before, s, after, rfl, hs, hb, n, hn, hcmd⟩)
    · have hreach := reached_eq_self fun m hm (hs : m.Stranger) => hnone m hm hs.1
      obtain ⟨⟨m, hm, hname, -⟩, -⟩ := h (hframes.mpr ⟨n, by rwa [hreach], hcmd⟩)
      exact hnone m hm hname
    · have hreach := reached_append after hs hb
      obtain ⟨-, hall⟩ := h (hframes.mpr ⟨n, by rwa [hreach], hcmd⟩)
      exact hs.2 (hall s (by simp) hs.1)
  · intro h hsent
    obtain ⟨n, hn, hcmd⟩ := hframes.mp hsent
    -- a stranger would come after the command that was reached
    have hstr : ∀ m ∈ children, ¬ m.Stranger := by
      intro m hm hms
      obtain ⟨s, after, heq, hs⟩ := exists_first_stranger ⟨m, hm, hms⟩
      exact h (Or.inr ⟨reached children, s, after, heq, hs, not_stranger_of_mem_reached, n, hn, hcmd⟩)
    have hall : ∀ m ∈ children, m.name = "FromUserName" → m.content ∈ whitelist := by
      intro m hm hname
      by_contra hw
      exact hstr m hm ⟨hname, hw⟩
    refine ⟨?_, hall⟩
    by_contra hno
    refine h (Or.inl ⟨fun m hm hname => hno ⟨m, hm, hname, hall m hm hname⟩, n, ?_, hcmd⟩)
    rwa [reached_eq_self hstr] at hn

/-- A document that is nothing but a command switches the living room light on. -/
theorem unsigned_command_sent :
    (xmlBranch ⟨none, fun _ => 0, [], 0, ""⟩ "" (some (some [⟨"Content", "开客厅"⟩]))).frames =
        [mxjSendCtrlMessage ketingId 3 1 1 1] ∧
      ¬ Authorised [⟨"Content", "开客厅"⟩] := by
  refine ⟨by decide, ?_⟩
  rintro ⟨⟨n, hn, hname, -⟩, -⟩
  rw [List.mem_singleton.mp hn] at hname
  exact absurd hname (by decide)

end IdolGateway.ZbClient
