import IdolGateway.Brower.Http
import IdolGateway.Microhttpd.FirstPiece

namespace IdolGateway.Brower

open Procedure
open Microhttpd (Action Call ConnId OnePiece RefusesData Request bufferSize cstr keyText uploads
  xbufSize)
open UrlForm (Field encode)

theorem refusesData {key : List UInt8} (h : keyText key ≠ "open" ∧ keyText key ≠ "close") :
    RefusesData verdict key := by
  rintro call rfl
  unfold verdict Post.answer Post.ofCall
  dsimp only
  by_cases hdata : call.data = []
  · simp [hdata, h.1, h.2, MhdResult.code]
  · simp [hdata, List.length_pos_iff, MhdResult.code]

/-- An action that is not a part of the configuration on `c`. -/
def Kept (c : ConnId) (f : Field) : Action (Stray → UInt8) AnswerString Received → Bool
  | .call _ c' call => c' ≠ c ∨ call.data = f.value
  | _ => true

theorem callOn_kept (c : ConnId) (f : Field)
    (as : List (Action (Stray → UInt8) AnswerString Received)) :
    (as.filter (Kept c f)).filterMap (Action.callOn c) =
      (as.filterMap (Action.callOn c)).filter (·.data = f.value) := by
  induction as with
  | nil => rfl
  | cons a as ih =>
    cases a with
    | reply c' method answerstring => exact ih
    | elsewhere i => exact ih
    | call outside c' call =>
      by_cases hc : c' = c
      · by_cases hdata : call.data = f.value
        · simp [Kept, Action.callOn, hc, hdata, ih]
        · simp [Kept, Action.callOn, hc, hdata, ih]
      · simp [Kept, Action.callOn, hc, ih]

section

variable [Tokener]

/-- A configuration: json-c reads it, if at all, only as a whole. -/
structure Configuration (f : Field) : Prop where
  room : (encode f.key).length ≤ bufferSize
  noCommand : keyText f.key ≠ "open" ∧ keyText f.key ≠ "close"
  noNul : 0 ∉ f.value
  nonempty : f.value ≠ []
  strict : ∀ piece, piece <+: f.value → piece ≠ f.value → Tokener.jsonTokenerParse piece = .null

def NamesDevices (f : Field) : Prop :=
  ¬ isNull ((Tokener.jsonTokenerParse f.value).member "devices")

instance (f : Field) : Decidable (NamesDevices f) := inferInstanceAs (Decidable (¬ _))

section

variable {f : Field} (hf : Configuration f)
include hf

theorem partial_call {call : Call} (hkey : call.key = f.key) (hpre : call.data <+: f.value)
    (hne : call.data ≠ f.value) :
    (∃ ret, iteratePost (.ofCall call) = pure ret) ∧ ∀ a, answerAfter call a = a := by
  have hcstr : cstr call.data = call.data :=
    Microhttpd.cstr_of_notMem fun h => hf.noNul (hpre.subset h)
  by_cases hdata : call.data = []
  · have hsize : ¬ 0 < (Post.ofCall call).size := by simp [Post.ofCall, hdata]
    have hcommand : (Post.ofCall call).key ≠ "open" ∧ (Post.ofCall call).key ≠ "close" := by
      simpa [Post.ofCall, hkey] using hf.noCommand
    constructor
    · refine ⟨.yes, ?_⟩
      unfold iteratePost
      rw [if_neg hsize, if_neg hcommand.1, if_neg hcommand.2]
    · intro a
      unfold answerAfter
      dsimp only
      rw [if_neg hsize, if_neg hcommand.1, if_neg hcommand.2]
  · have hsize : 0 < (Post.ofCall call).size := List.length_pos_iff.mpr hdata
    have hparse : Tokener.jsonTokenerParse (Post.ofCall call).data = .null := by
      change Tokener.jsonTokenerParse (cstr call.data) = .null
      rw [hcstr]
      exact hf.strict _ hpre hne
    refine ⟨⟨.no, iteratePost_null hsize hparse⟩, fun a => ?_⟩
    unfold answerAfter
    dsimp only
    rw [if_pos hsize, hparse]
    rfl

theorem partial_noop {call : Call} (hkey : call.key = f.key) (hpre : call.data <+: f.value)
    (hne : call.data ≠ f.value) (outside : Stray → UInt8) (c : ConnId) (w : World) :
    site.flat.step w (.call outside c call) = (w, []) := by
  obtain ⟨ret, hpost⟩ := (partial_call hf hkey hpre hne).1
  change (((iteratePost (.ofCall call)).run outside w).state,
    ((iteratePost (.ofCall call)).run outside w).out) = (w, [])
  rw [hpost]
  rfl

end

theorem kept_calls {f : Field} (hf : Configuration f) {calls : List Call}
    (h : OnePiece f calls) :
    (calls.filter (·.data = f.value) = [] ∧
        ∀ a, calls.foldl (fun a call => answerAfter call a) a = a) ∨
      (calls.filter (·.data = f.value) = [⟨f.key, f.value, 0⟩] ∧
        ∀ a, calls.foldl (fun a call => answerAfter call a) a =
          answerAfter ⟨f.key, f.value, 0⟩ a) := by
  obtain ⟨quiet, last, rfl, hquiet, hlast⟩ := h
  have hfold : ∀ a, quiet.foldl (fun a call => answerAfter call a) a = a := by
    intro a
    induction quiet with
    | nil => rfl
    | cons call quiet ih =>
      rw [List.forall_mem_cons] at hquiet
      have hcall := (partial_call hf hquiet.1.1 (by simp [hquiet.1.2])
        (by simpa [hquiet.1.2] using hf.nonempty.symm)).2 a
      rw [List.foldl_cons, hcall]
      exact ih hquiet.2
  have hnone : quiet.filter (·.data = f.value) = [] := by
    rw [List.filter_eq_nil_iff]
    intro call hcall
    simpa [(hquiet call hcall).2] using hf.nonempty.symm
  simp only [List.filter_append, hnone, List.nil_append, List.foldl_append, hfold]
  rcases hlast with rfl | ⟨piece, rfl, hne, hpre⟩
  · exact Or.inl ⟨rfl, fun a => rfl⟩
  · by_cases hpiece : piece = f.value
    · subst hpiece
      exact Or.inr ⟨by simp, fun a => rfl⟩
    · exact Or.inl ⟨by simp [hpiece], (@partial_call _ f hf ⟨f.key, piece, 0⟩ rfl hpre hpiece).2⟩

theorem answer_whole {f : Field} (hf : Configuration f) (hsize : f.value.length ≤ xbufSize) :
    answerAfter ⟨f.key, f.value, 0⟩ .null = if NamesDevices f then .jsonStr else .null := by
  have hcstr : cstr f.value = f.value := Microhttpd.cstr_of_notMem hf.noNul
  have hpos : 0 < f.value.length := List.length_pos_iff.mpr hf.nonempty
  have hshort : f.value.length ≤ maxNameSize := hsize.trans (by decide)
  unfold answerAfter NamesDevices Post.ofCall
  dsimp only
  rw [hcstr, if_pos hpos, if_pos hshort]
  by_cases hdevices : isNull ((Tokener.jsonTokenerParse f.value).member "devices") = true
  · simp [hdevices]
  · have hdoc : ¬ isNull (Tokener.jsonTokenerParse f.value) = true :=
      fun h => hdevices (isNull_member h _)
    simp [hdevices, hdoc]

/-- Whatever else happens, and however much of the body has come in whatever pieces: table and
frames are as if the configuration had been handed on whole, at most once, and the page says
whether it was. -/
theorem post_all_or_nothing {request : ConnId → Request} {c : ConnId} {f : Field}
    (hf : Configuration f) (hpost : request c = ⟨.post, true⟩)
    {d : Microhttpd.Daemon World AnswerString} (hclosed : d.conCls c = none)
    (outside : Stray → UInt8) (first : List UInt8) {xs : List HttpEvent}
    (hopen : ∀ x ∈ xs, ¬ x.Completes c) (hbody : (uploads c xs).flatten <+: f.text) :
    let d' := (httpd request).after d (.answer outside c first :: xs)
    let as := (site.trace request d (.answer outside c first :: xs)).filter (Kept c f)
    d'.globals = server.after d.globals (as.flatMap inputs) ∧
      ((httpd request).outputs d (.answer outside c first :: xs)).filterMap
        Microhttpd.Output.out? = server.outputs d.globals (as.flatMap inputs) ∧
      ((as.filterMap (Action.callOn c) = [] ∧
          ∀ outside', (httpd request).step d' (.answer outside' c []) = (d', [.page c .errorpage])) ∨
        (as.filterMap (Action.callOn c) = [⟨f.key, f.value, 0⟩] ∧
          ∀ outside', (httpd request).step d' (.answer outside' c []) =
            (d', [.page c (if NamesDevices f then .jsonStr d'.globals.jsonStr else .errorpage)]))) := by
  intro d' as
  obtain ⟨hcalls, hcon⟩ := Microhttpd.request_calls site hpost hclosed outside first hopen
  have hone : OnePiece f (site.callsSoFar (uploads c xs)) :=
    (Microhttpd.calls_one_piece hf.room (refusesData hf.noCommand) hbody).begun
      (Microhttpd.callsSoFar_prefix site _)
  have hskip : ∀ a ∈ site.trace request d (.answer outside c first :: xs), Kept c f a = false →
      ∀ w, site.flat.step w a = (w, []) := by
    intro a ha hdrop w
    cases a with
    | reply c' method answerstring => cases hdrop
    | elsewhere i => cases hdrop
    | call outside' c' call =>
      obtain ⟨rfl, hne⟩ : c' = c ∧ call.data ≠ f.value := by simpa [Kept] using hdrop
      have hmem : call ∈ site.callsSoFar (uploads c' xs) := by
        rw [← hcalls]
        exact List.mem_filterMap.mpr ⟨_, ha, if_pos rfl⟩
      exact partial_noop hf (hone.mem hmem).1 (hone.mem hmem).2 hne outside' c' w
  obtain ⟨hafter, hout⟩ := Transducer.run_filter site.flat (Kept c f) hskip d.globals
  obtain ⟨hglobals, hputs⟩ :=
    @Microhttpd.run_flat _ _ _ _ _ _ site request d (.answer outside c first :: xs)
  have hheard : as.filterMap (Action.callOn c) =
      (site.callsSoFar (uploads c xs)).filter (·.data = f.value) := by
    rw [← hcalls]
    exact callOn_kept c f _
  have hpage : ∀ outside', (httpd request).step d' (.answer outside' c []) =
      (d', [.page c (pageFor d'.globals .post
        ((site.callsSoFar (uploads c xs)).foldl (fun a call => answerAfter call a) .null))]) := by
    intro outside'
    have hstep := @Microhttpd.step_page _ _ _ _ _ _ site request d' c _ hcon outside' []
      (by simp)
    rw [hpost] at hstep
    exact hstep
  refine ⟨?_, ?_, ?_⟩
  · rw [← (flat_server d.globals as).1, hafter]
    exact hglobals
  · rw [← (flat_server d.globals as).2, hout]
    exact hputs
  · rw [hheard]
    rcases kept_calls hf hone with ⟨hnone, hfold⟩ | ⟨hwhole, hfold⟩
    · rw [hfold] at hpage
      exact Or.inl ⟨hnone, hpage⟩
    · have hmem : ⟨f.key, f.value, 0⟩ ∈ site.callsSoFar (uploads c xs) :=
        (List.mem_filter.mp (hwhole ▸ List.mem_singleton_self _)).1
      have hsize := ((Microhttpd.segments_fit _ _).2 _ hmem).1
      rw [hfold, answer_whole hf hsize] at hpage
      refine Or.inr ⟨hwhole, fun outside' => (hpage outside').trans ?_⟩
      by_cases hdevices : NamesDevices f
      · rw [if_pos hdevices, if_pos hdevices]
        rfl
      · rw [if_neg hdevices, if_neg hdevices]
        rfl

end

def pairField : Field := ⟨[0x63], textBytes pairText⟩

theorem configuration_pair :
    letI := tabled pairText pairDocument
    Configuration pairField :=
  letI := tabled pairText pairDocument
  { room := by decide
    noCommand := by decide +kernel
    noNul := by decide +kernel
    nonempty := by decide +kernel
    strict := fun _ _ hne => if_neg hne }

/-- The list in two segments, with a frame between them. -/
def pairUpload : List HttpEvent :=
  [.answer (fun _ => 0) 1 (pairField.text.take 100), heard [2, 5, 0, 1, 5, 2],
    .answer (fun _ => 0) 1 (pairField.text.drop 100)]

theorem uploads_pair :
    uploads 1 pairUpload = [pairField.text.take 100, pairField.text.drop 100] := by
  decide +kernel

theorem post_pair_cut :
    letI := tabled pairText pairDocument
    let d : Microhttpd.Daemon World AnswerString := .idle AnswerString .started
    let xs := .answer (fun _ => 0) 1 [] :: pairUpload
    ((httpd formPosts).after d xs).globals = server.after .started
      (((site.trace formPosts d xs).filter (Kept 1 pairField)).flatMap inputs) :=
  (@post_all_or_nothing (tabled pairText pairDocument) formPosts 1 pairField configuration_pair rfl
    (.idle AnswerString (@World.started (tabled pairText pairDocument))) rfl (fun _ => 0) []
    pairUpload
    (by decide) (by rw [uploads_pair]; simp)).1

section

variable [Tokener]

/-- A text of more than `XBUF_SIZE` bytes is never handed on whole; one that comes in one segment
is exactly if its encoding is no longer. -/
theorem configuration_fits_iff {request : ConnId → Request} {c : ConnId} {f : Field}
    (hf : Configuration f) (hpost : request c = ⟨.post, true⟩)
    {d : Microhttpd.Daemon World AnswerString} (hclosed : d.conCls c = none)
    (outside : Stray → UInt8) (first : List UInt8) {xs : List HttpEvent}
    (hopen : ∀ x ∈ xs, ¬ x.Completes c) :
    let as := (site.trace request d (.answer outside c first :: xs)).filter (Kept c f)
    (512 < f.value.length → as.filterMap (Action.callOn c) = []) ∧
      (uploads c xs = [f.text] →
        (as.filterMap (Action.callOn c) = [⟨f.key, f.value, 0⟩] ↔ (encode f.value).length ≤ 512)) := by
  intro as
  obtain ⟨hcalls, -⟩ := Microhttpd.request_calls site hpost hclosed outside first hopen
  have hheard : as.filterMap (Action.callOn c) =
      (site.callsSoFar (uploads c xs)).filter (·.data = f.value) := by
    rw [← hcalls]
    exact callOn_kept c f _
  rw [hheard]
  constructor
  · intro hlong
    rw [List.filter_eq_nil_iff]
    intro call hcall hdata
    have hsize : call.data.length ≤ 512 := ((Microhttpd.segments_fit _ _).2 call hcall).1
    rw [of_decide_eq_true hdata] at hsize
    omega
  · intro hwhole
    obtain ⟨piece, hpiece, hiff⟩ :=
      Microhttpd.calls_one_segment hf.room hf.nonempty (refusesData hf.noCommand)
    have hsegs : site.callsSoFar (uploads c xs) = [⟨f.key, piece, 0⟩] := by
      rw [hwhole]
      exact hpiece
    change _ ↔ (encode f.value).length ≤ xbufSize
    rw [hsegs, ← hiff]
    by_cases h : piece = f.value
    · simp [h]
    · simp [h]

end

theorem pair_fits :
    letI := tabled pairText pairDocument
    let d : Microhttpd.Daemon World AnswerString := .idle AnswerString .started
    let xs : List HttpEvent := [.answer (fun _ => 0) 1 [], .answer (fun _ => 0) 1 pairField.text]
    ((site.trace formPosts d xs).filter (Kept 1 pairField)).filterMap (Action.callOn 1) =
      [⟨pairField.key, pairField.value, 0⟩] :=
  ((@configuration_fits_iff (tabled pairText pairDocument) formPosts 1 pairField configuration_pair
    rfl (.idle AnswerString (@World.started (tabled pairText pairDocument))) rfl
    (fun _ => 0) [] [.answer (fun _ => 0) 1 pairField.text] (by decide)).2
    (by decide +kernel)).mpr (by decide +kernel)

end IdolGateway.Brower
