import IdolGateway.Brower.HttpPages
import IdolGateway.Brower.HttpPosts

namespace IdolGateway.Brower

open Procedure
open Microhttpd (Action Call ConnId Request Site bufferSize cstr keyText)
open UrlForm (Field encode)

theorem publish_of_fresh [ZbClient.JsonC] {w : World} (h : w.Fresh) : w.publish = w :=
  World.ext rfl rfl h.symm

theorem length_textBytes (s : String) : (textBytes s).length = s.utf8ByteSize := rfl

section

variable [Tokener]

theorem postBack_run {w : World} (hvalid : w.Valid) (hfresh : w.Fresh) (mem : Stray → UInt8)
    {p : Post} (hpos : 0 < p.size) (hsize : p.size ≤ maxNameSize)
    (hread : Tokener.jsonTokenerParse p.data = w.document) :
    ((iteratePost p).run mem w).state = w ∧
      ((iteratePost p).run mem w).out.filterMap Out.ctrl? = [] := by
  by_cases hzero : w.devsize = 0
  · rw [iteratePost_null hpos (hread.trans (if_pos hzero))]
    exact ⟨rfl, rfl⟩
  · have hparse : Tokener.jsonTokenerParse p.data = .object [("devices", .array w.rows)] :=
      hread.trans (if_neg hzero)
    exact ⟨(state_postRows hpos hparse hvalid hsize).trans (publish_of_fresh hfresh),
      ctrl_postRows hpos hparse hvalid⟩

theorem postBack_answer {w : World} {call : Call} (hpos : 0 < call.data.length)
    (hsize : call.data.length ≤ maxNameSize)
    (hread : Tokener.jsonTokenerParse (cstr call.data) = w.document) :
    answerAfter call .null = if w.devsize = 0 then .null else .jsonStr := by
  unfold answerAfter Post.ofCall
  dsimp only
  rw [hread, if_pos hpos, if_pos hsize, World.document]
  by_cases hzero : w.devsize = 0
  · rw [if_pos hzero, if_pos hzero]
    rfl
  · rw [if_neg hzero, if_neg hzero]
    rfl

theorem pageFor_postBack {w : World} (hfresh : w.Fresh) :
    pageFor w .post (if w.devsize = 0 then .null else .jsonStr) =
      if w.devsize = 0 then .errorpage else .jsonStr w.text := by
  by_cases hzero : w.devsize = 0
  · rw [if_pos hzero, if_pos hzero]
    rfl
  · rw [if_neg hzero, if_neg hzero, ← show w.jsonStr = w.text from hfresh]
    rfl

variable (request : ConnId → Request)

/-- Posting the page of a GET back, in one segment, after a run whose stores stay inside the
arrays. -/
theorem get_then_post_back (xs : List HttpEvent) (hinside : RunStoresInside request xs)
    {c : ConnId} {key : List UInt8} (hpost : request c = ⟨.post, true⟩)
    (hclosed : ((httpd request).after atStart xs).conCls c = none)
    (hkey : (encode key).length ≤ bufferSize)
    (hcommand : keyText key ≠ "open" ∧ keyText key ≠ "close")
    (hnul : 0 ∉ textBytes ((httpd request).after atStart xs).globals.text)
    (hfits : (encode (textBytes ((httpd request).after atStart xs).globals.text)).length ≤ 512)
    (hread : Tokener.jsonTokenerParse
      (textBytes ((httpd request).after atStart xs).globals.text) =
        ((httpd request).after atStart xs).globals.document)
    (outside outside' : Stray → UInt8) :
    let d := (httpd request).after atStart xs
    let ys : List HttpEvent := [.answer outside c [],
      .answer outside' c (Field.text ⟨key, textBytes d.globals.text⟩)]
    let d' := (httpd request).after d ys
    d'.globals = d.globals ∧
      (((httpd request).outputs d ys).filterMap Microhttpd.Output.out?).filterMap Out.ctrl? = [] ∧
      ∀ outside'', (httpd request).step d' (.answer outside'' c []) =
        (d', [.page c (if d.globals.devsize = 0 then .errorpage
          else .jsonStr d.globals.text)]) := by
  intro d ys d'
  have hclosed' : d.conCls c = none := hclosed
  have hfresh : d.globals.Fresh := fresh_after request xs
  have hvalid : d.globals.Valid := valid_httpd request hinside
  have htext : textBytes d.globals.text ≠ [] := by
    rw [← List.length_pos_iff, length_textBytes]
    exact text_pos d.globals
  set f : Field := ⟨key, textBytes d.globals.text⟩ with hf
  obtain ⟨piece, hcalls, hpiece⟩ :=
    @Microhttpd.calls_one_segment verdict f hkey htext (refusesData hcommand)
  rw [hpiece.mpr hfits] at hcalls
  have hsize : f.value.length ≤ maxNameSize :=
    ((Microhttpd.segments_fit _ _).2 _ (hcalls ▸ List.mem_singleton_self _)).1.trans (by decide)
  have hcstr : cstr f.value = f.value := Microhttpd.cstr_of_notMem hnul
  have hupload : f.text ≠ [] := by simp [Field.text]
  have htrace : site.trace request d ys = [.call outside' c ⟨f.key, f.value, 0⟩] :=
    (Microhttpd.trace_one_segment site hpost hclosed' outside outside' hupload).trans
      (congrArg (List.map (Action.call outside' c)) hcalls)
  obtain ⟨hglobals, hout⟩ := @Microhttpd.run_flat _ _ _ _ _ _ site request d ys
  rw [htrace] at hglobals hout
  obtain ⟨hstate, hquiet⟩ := @postBack_run _ d.globals hvalid hfresh outside'
    (.ofCall ⟨f.key, f.value, 0⟩) (List.length_pos_iff.mpr htext) hsize
    ((congrArg _ hcstr).trans hread)
  have hsame : d'.globals = d.globals := hglobals.trans hstate
  refine ⟨hsame, ?_, ?_⟩
  · rw [hout, Transducer.outputs_cons, Transducer.outputs_nil, List.append_nil]
    exact hquiet
  · intro outside''
    obtain ⟨-, hcon⟩ := @Microhttpd.request_calls _ _ _ _ _ _ request c site hpost d hclosed'
      outside [] [.answer outside' c f.text] (by simp [Microhttpd.Event.Completes])
    have huploads : Microhttpd.uploads c [(.answer outside' c f.text : HttpEvent)] = [f.text] := by
      simp [Microhttpd.uploads, Microhttpd.Event.upload, hupload]
    have hheard : site.callsSoFar [f.text] = [⟨f.key, f.value, 0⟩] := hcalls
    have hanswer : answerAfter ⟨f.key, f.value, 0⟩ .null =
        if d.globals.devsize = 0 then .null else .jsonStr :=
      postBack_answer (List.length_pos_iff.mpr htext) hsize ((congrArg _ hcstr).trans hread)
    have hstep := @Microhttpd.step_page _ _ _ _ _ _ site request d' c _ hcon outside'' []
      (by simp)
    rw [huploads, hheard, hpost] at hstep
    refine hstep.trans ?_
    change (d', [Microhttpd.Output.page c (pageFor d'.globals .post
      (answerAfter ⟨f.key, f.value, 0⟩ .null))]) = _
    rw [hanswer, hsame, pageFor_postBack hfresh]

end

def pairHeard : List HttpEvent :=
  [heard [2, 5, 0, 1, 5, 2], heard [2, 5, 0, 2, 7, 1], heard [6, 6, 0, 1, 1, 0, 1]]

theorem globals_pair :
    letI := tabled pairText pairDocument
    ((httpd formPosts).after atStart pairHeard).globals = server.after .started pairRun := rfl

theorem text_heard :
    letI := tabled pairText pairDocument
    ((httpd formPosts).after atStart pairHeard).globals.text = pairText :=
  (congrArg (@World.text (tabled pairText pairDocument).toJsonC) globals_pair).trans text_pair

theorem pair_posted_back :
    letI := tabled pairText pairDocument
    let d := (httpd formPosts).after atStart pairHeard
    ((httpd formPosts).after d [.answer (fun _ => 0) 1 [],
      .answer (fun _ => 0) 1 (Field.text ⟨[0x63], textBytes d.globals.text⟩)]).globals =
      d.globals :=
  (@get_then_post_back (tabled pairText pairDocument) formPosts pairHeard
    (by decide +kernel) 1 [0x63] rfl rfl (by decide) (by decide +kernel)
    (by rw [text_heard]; decide +kernel)
    (by rw [text_heard]; decide +kernel) (by rw [globals_pair]; exact read_pair)
    (fun _ => 0) (fun _ => 0)).1

end IdolGateway.Brower
