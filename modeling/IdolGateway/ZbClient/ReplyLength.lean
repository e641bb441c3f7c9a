import IdolGateway.ZbClient.UnsetReads

namespace IdolGateway.ZbClient

def strxmlSize : ℕ := 500

/-- What is printed for the receiver of a message: the text of the last `ToUserName` before
the content. -/
def Upload.receiver (u : Upload) (before : List XmlNode) : String :=
  (named "ToUserName" before.reverse).getD u.unset

def Upload.replyAt (u : Upload) (strxml : String) (before : List XmlNode) (n : XmlNode) : String :=
  (xmlLoop u .start strxml (before ++ [n])).strxml

/-- Every reply is written inside `strxml`, with the NUL behind it. -/
def Upload.RepliesFit (u : Upload) (children : List XmlNode) : Prop :=
  ∀ strxml before n after, children = before ++ n :: after → n.name = "Content" →
    (u.replyAt strxml before n).utf8ByteSize + 1 ≤ strxmlSize

theorem bytes_replyText (u : Upload) (v : XmlVars) (strData : String) :
    (replyText u v strData).utf8ByteSize =
      180 + (v.fromUserName.getD u.unset).utf8ByteSize + (v.toUserName.getD u.unset).utf8ByteSize +
        (toString (Int32.ofInt u.time)).utf8ByteSize + strData.utf8ByteSize := by
  have hparts : "<xml><ToUserName><![CDATA[".utf8ByteSize = 26 ∧
      "]]></ToUserName><FromUserName><![CDATA[".utf8ByteSize = 39 ∧
      "]]></FromUserName><CreateTime>".utf8ByteSize = 30 ∧
      "</CreateTime><MsgType><![CDATA[text]]></MsgType><Content><![CDATA[".utf8ByteSize = 66 ∧
      "]]></Content></xml>".utf8ByteSize = 19 := by decide
  unfold replyText
  simp only [String.utf8ByteSize_append]
  omega

theorem bytes_of_whitelist {s : String} (hs : s ∈ whitelist) : s.utf8ByteSize = 28 := by
  have hall : ∀ s ∈ whitelist, s.utf8ByteSize = 28 := by decide
  exact hall s hs

section

variable {children before after : List XmlNode} {n : XmlNode}

theorem sender_of_not_answeredWithout (hs : ∀ m ∈ before, ¬ m.Stranger)
    (hfrom : ¬ AnsweredWithout "FromUserName" (before ++ n :: after)) (hn : n.name = "Content") :
    ∃ s ∈ whitelist, named "FromUserName" before.reverse = some s := by
  have hsender : ∃ m ∈ before.reverse, m.name = "FromUserName" := by
    by_contra! hno
    exact hfrom ⟨before, n, after, rfl, hn, fun m hm => hno m (List.mem_reverse.mpr hm)⟩
  cases hfind : before.reverse.find? fun m => m.name = "FromUserName" with
  | none =>
    obtain ⟨m, hm, hname⟩ := hsender
    exact absurd hname (by simpa using List.find?_eq_none.mp hfind m hm)
  | some m =>
    have hname : m.name = "FromUserName" := by simpa using List.find?_some hfind
    refine ⟨m.content, ?_, by rw [named, hfind]; rfl⟩
    by_contra hw
    exact hs m (List.mem_reverse.mp (List.mem_of_find?_eq_some hfind)) ⟨hname, hw⟩

/-- The reply names the last sender and the last receiver before the content. -/
theorem replyAt_eq (u : Upload) (strxml : String) (hs : ∀ m ∈ before, ¬ m.Stranger)
    (hn : n.name = "Content") :
    u.replyAt strxml before n =
      replyText u ⟨none, named "FromUserName" before.reverse, named "ToUserName" before.reverse⟩
        (strDataFor n) := by
  have hall : ∀ m ∈ before ++ [n], ¬ m.Stranger := by
    intro m hm
    rcases List.mem_append.mp hm with hm | hm
    · exact hs m hm
    · rw [List.mem_singleton.mp hm]
      simp [XmlNode.Stranger, hn]
  rw [Upload.replyAt, xmlLoop_strxml, reached_eq_self hall, xmlReply]
  simp [hn, XmlVars.start]

theorem bytes_replyAt (u : Upload) (strxml : String)
    (hs : ∀ m ∈ before, ¬ m.Stranger)
    (hfrom : ¬ AnsweredWithout "FromUserName" (before ++ n :: after)) (hn : n.name = "Content") :
    (u.replyAt strxml before n).utf8ByteSize =
      208 + (u.receiver before).utf8ByteSize + (toString (Int32.ofInt u.time)).utf8ByteSize +
        (strDataFor n).utf8ByteSize := by
  obtain ⟨s, hwhite, hsender⟩ := sender_of_not_answeredWithout hs hfrom hn
  have hbytes : ((named "FromUserName" before.reverse).getD u.unset).utf8ByteSize = 28 := by
    rw [hsender]
    exact bytes_of_whitelist hwhite
  rw [replyAt_eq u strxml hs hn, bytes_replyText, hbytes, Upload.receiver]

end

/-- In a document of whitelisted senders, each before the contents it sends, every reply fits
exactly when receiver, time and text need 291 bytes at most. -/
theorem replies_fit_iff (u : Upload) (children : List XmlNode)
    (hs : ∀ n ∈ children, ¬ n.Stranger) (hfrom : ¬ AnsweredWithout "FromUserName" children) :
    u.RepliesFit children ↔
      ∀ before n after, children = before ++ n :: after → n.name = "Content" →
        (u.receiver before).utf8ByteSize + (toString (Int32.ofInt u.time)).utf8ByteSize +
          (strDataFor n).utf8ByteSize ≤ 291 := by
  have hbytes : ∀ strxml before n after, children = before ++ n :: after → n.name = "Content" →
      (u.replyAt strxml before n).utf8ByteSize =
        208 + (u.receiver before).utf8ByteSize + (toString (Int32.ofInt u.time)).utf8ByteSize +
          (strDataFor n).utf8ByteSize := by
    rintro strxml before n after rfl hn
    exact bytes_replyAt u strxml (fun m hm => hs m (List.mem_append_left _ hm)) hfrom hn
  unfold Upload.RepliesFit strxmlSize
  constructor
  · intro h before n after heq hn
    have := h "" before n after heq hn
    have := hbytes "" before n after heq hn
    omega
  · intro h strxml before n after heq hn
    have := h before n after heq hn
    have := hbytes strxml before n after heq hn
    omega

def namesTo (toUserName : String) : List XmlNode :=
  [⟨"ToUserName", toUserName⟩, ⟨"FromUserName", "ogvN0w4jG360_wHow3gKLxG7wURY"⟩]

def chat : XmlNode := ⟨"Content", "a"⟩

theorem split_chat (toUserName : String) {before after : List XmlNode} {n : XmlNode}
    (heq : namesTo toUserName ++ [chat] = before ++ n :: after) (hn : n.name = "Content") :
    before = namesTo toUserName ∧ n = chat := by
  match before with
  | [] =>
    simp only [namesTo, List.cons_append, List.nil_append, List.cons.injEq] at heq
    rw [← heq.1] at hn
    exact absurd hn (by simp)
  | [_] =>
    simp only [namesTo, List.cons_append, List.nil_append, List.cons.injEq] at heq
    rw [← heq.2.1] at hn
    exact absurd hn (by simp)
  | [_, _] =>
    simp only [namesTo, List.cons_append, List.nil_append, List.cons.injEq] at heq
    exact ⟨by rw [← heq.1, ← heq.2.1]; rfl, heq.2.2.1.symm⟩
  | _ :: _ :: _ :: rest => simp [namesTo] at heq

/-- A name of 15 bytes, as the accounts have. -/
theorem reply_to_account_fits : messageUpload.RepliesFit (namesTo "gh_0123456789ab" ++ [chat]) := by
  refine (replies_fit_iff messageUpload _ (by decide) ?_).mpr ?_
  · rintro ⟨before, n, after, heq, hn, hbefore⟩
    obtain ⟨rfl, -⟩ := split_chat _ heq hn
    exact hbefore ⟨"FromUserName", "ogvN0w4jG360_wHow3gKLxG7wURY"⟩ (by simp [namesTo]) rfl
  · rintro before n after heq hn
    obtain ⟨rfl, rfl⟩ := split_chat _ heq hn
    decide +kernel

/-- A name of 40 bytes: the NUL is the byte 501. -/
theorem reply_to_long_name_overflows :
    let toUserName := "gh_0123456789abcdefghijklmnopqrstuvwxyz0"
    ¬ messageUpload.RepliesFit (namesTo toUserName ++ [chat]) ∧
      (messageUpload.replyAt "" (namesTo toUserName) chat).utf8ByteSize = 500 := by
  intro toUserName
  have hbytes : (messageUpload.replyAt "" (namesTo toUserName) chat).utf8ByteSize = 500 := by
    decide +kernel
  refine ⟨fun h => ?_, hbytes⟩
  have hfits := h "" (namesTo toUserName) chat [] rfl rfl
  rw [hbytes] at hfits
  exact absurd hfits (by decide)

end IdolGateway.ZbClient
