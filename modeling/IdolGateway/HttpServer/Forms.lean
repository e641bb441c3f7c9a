import IdolGateway.HttpServer.Registration
import IdolGateway.Microhttpd.WholeForm

namespace IdolGateway.HttpServer

open Microhttpd (Call ConnId Method MhdResult Request Whole callOf cstr keyText listen postProcess
  segments)
open UrlForm (Field formText)

def PostStruct.field (key : String) (p : PostStruct) : List UInt8 × ℕ :=
  if key = "type" then (p.type, 0)
  else if key = "dev_id" then ([], p.id.toNat)
  else if key = "dev_type" then ([], p.devType.toNat)
  else if key = "idxs" then ([], p.idxs.toNat)
  else if key = "idx" then ([], p.idx.toNat)
  else if key = "action" then ([], p.action.toNat)
  else if key = "value" then ([], p.value.toNat)
  else ([], 0)

def written (key : String) (f : Field) : Option (List UInt8 × ℕ) :=
  if keyText f.key = key then
    some ((PostStruct.store key (cstr f.value) ⟨0, [], 0, 0, 0, 100, 0⟩).field key)
  else none

def PostStruct.storeAll (fs : List Field) (p : PostStruct) : PostStruct :=
  fs.foldl (fun p f => p.store (keyText f.key) (cstr f.value)) p

/-- The slot a form would leave in a fresh one. -/
def readForm (fs : List Field) : PostStruct := PostStruct.storeAll fs ⟨0, [], 0, 0, 0, 100, 0⟩

theorem field_store {key : String} (hkey : key ∈ fieldKeys) (f : Field) (p : PostStruct) :
    (p.store (keyText f.key) (cstr f.value)).field key = (written key f).getD (p.field key) := by
  unfold written
  simp only [fieldKeys, List.mem_cons, List.not_mem_nil, or_false] at hkey
  split_ifs with h
  · rw [h]
    rcases hkey with rfl | rfl | rfl | rfl | rfl | rfl | rfl <;> rfl
  · rw [Option.getD_none]
    -- an assignment for another key
    unfold PostStruct.store
    split_ifs <;> rcases hkey with rfl | rfl | rfl | rfl | rfl | rfl | rfl <;>
      first | rfl | exact absurd (by assumption) h

theorem field_storeAll {key : String} (hkey : key ∈ fieldKeys) (fs : List Field) (p : PostStruct) :
    (p.storeAll fs).field key = ((fs.filterMap (written key)).getLast?).getD (p.field key) := by
  induction fs using List.reverseRecOn with
  | nil => rfl
  | append_singleton fs f ih =>
    have hstep : (p.storeAll (fs ++ [f])).field key =
        (written key f).getD ((p.storeAll fs).field key) := by
      rw [PostStruct.storeAll, List.foldl_append]
      exact field_store hkey f _
    rw [hstep, ih, List.filterMap_append]
    cases h : written key f with
    | none => simp [h]
    | some v => simp [h]

def needed (type : String) : List String :=
  if type = "register_request" then ["dev_id", "dev_type", "idxs"]
  else if type = "control_up" then ["dev_id", "idx", "action"]
  else if type = "humidity_up" then ["dev_id", "value"]
  else if type = "ask_state" then ["dev_id"]
  else []

/-- Type and needed fields are given, and the types fit. -/
structure Complete (fs : List Field) : Prop where
  given : ∀ key ∈ "type" :: needed (keyText (readForm fs).type), ∃ f ∈ fs, keyText f.key = key
  fits : ∀ f ∈ fs, keyText f.key = "type" → (cstr f.value).length < typeSize

theorem field_of_given {key : String} (hkey : key ∈ fieldKeys) {fs : List Field}
    (hgiven : ∃ f ∈ fs, keyText f.key = key) (p q : PostStruct) :
    (p.storeAll fs).field key = (q.storeAll fs).field key := by
  obtain ⟨f, hf, hname⟩ := hgiven
  have hwritten : ∃ v, written key f = some v := ⟨_, if_pos hname⟩
  obtain ⟨v, hv⟩ := hwritten
  have hne : fs.filterMap (written key) ≠ [] :=
    List.ne_nil_of_mem (List.mem_filterMap.mpr ⟨f, hf, hv⟩)
  rw [field_storeAll hkey, field_storeAll hkey, List.getLast?_eq_some_getLast hne]
  rfl

theorem rule_congr (w : World) {p q : PostStruct}
    (h : ∀ key ∈ "type" :: needed (keyText p.type), p.field key = q.field key) :
    w.rule p = w.rule q := by
  have htype : p.type = q.type := by simpa [PostStruct.field] using h "type" (by simp)
  rw [List.forall_mem_cons] at h
  replace h := h.2
  unfold World.rule
  rw [← htype]
  generalize keyText p.type = type at h
  unfold needed at h
  have hid : "dev_id" ∈ needed type → p.id = q.id := fun hmem =>
    UInt16.toNat_inj.mp (congrArg Prod.snd (h "dev_id" hmem))
  have hdevType : "dev_type" ∈ needed type → p.devType = q.devType := fun hmem =>
    UInt8.toNat_inj.mp (congrArg Prod.snd (h "dev_type" hmem))
  have hidxs : "idxs" ∈ needed type → p.idxs = q.idxs := fun hmem =>
    UInt8.toNat_inj.mp (congrArg Prod.snd (h "idxs" hmem))
  have hidx : "idx" ∈ needed type → p.idx = q.idx := fun hmem =>
    UInt8.toNat_inj.mp (congrArg Prod.snd (h "idx" hmem))
  have haction : "action" ∈ needed type → p.action = q.action := fun hmem =>
    UInt8.toNat_inj.mp (congrArg Prod.snd (h "action" hmem))
  have hvalue : "value" ∈ needed type → p.value = q.value := fun hmem =>
    UInt16.toNat_inj.mp (congrArg Prod.snd (h "value" hmem))
  by_cases h₁ : type = "register_request"
  · subst h₁
    simp [World.registerRequest, World.addDev, hid (by decide), hdevType (by decide),
      hidxs (by decide)]
  by_cases h₂ : type = "control_up"
  · subst h₂
    simp [controlUp, hid (by decide), hidx (by decide), haction (by decide)]
  by_cases h₃ : type = "humidity_up"
  · subst h₃
    simp [hid (by decide), hvalue (by decide)]
  by_cases h₄ : type = "ask_state"
  · subst h₄
    simp [hid (by decide)]
  · simp [h₁, h₂, h₃, h₄]

theorem needed_fieldKeys {type key : String} (h : key ∈ needed type) : key ∈ fieldKeys := by
  unfold needed at h
  split_ifs at h <;> revert key <;> decide

/-- Whatever stands in the slot, a complete form is answered as in a fresh one. -/
theorem rule_complete (w : World) {fs : List Field} (h : Complete fs) (p : PostStruct) :
    w.rule (p.storeAll fs) = w.rule (readForm fs) := by
  have hfield : ∀ key ∈ "type" :: needed (keyText (readForm fs).type),
      (p.storeAll fs).field key = (readForm fs).field key := by
    intro key hkey
    refine field_of_given ?_ (h.given key hkey) _ _
    rcases List.mem_cons.mp hkey with rfl | hkey
    · decide
    · exact needed_fieldKeys hkey
  have htype : (p.storeAll fs).type = (readForm fs).type := by
    simpa [PostStruct.field] using hfield "type" (by simp)
  refine rule_congr w ?_
  rwa [htype]

def World.SameHome (w w' : World) : Prop :=
  w.mxjDevice = w'.mxjDevice ∧ w.devsize = w'.devsize ∧ w.temp = w'.temp

theorem rule_sameHome {w w' : World} (h : w.SameHome w') (p : PostStruct) :
    (w.rule p).command = (w'.rule p).command := by
  obtain ⟨hdev, hsize, htemp⟩ := h
  have hfind : ∀ id, w.findDev id = w'.findDev id := by
    intro id
    unfold World.findDev
    rw [hdev, hsize]
  unfold World.rule
  split_ifs
  · unfold World.registerRequest
    rw [hfind]
    cases w'.findDev p.id <;> rfl
  · rfl
  · unfold World.humidityUp
    rw [htemp]
    split_ifs <;> rfl
  · unfold World.askState
    rw [hfind, hdev]
    cases w'.findDev p.id <;> rfl
  · rfl

theorem storeField_slot (w : World) (call : Call) :
    (w.storeField call).slot = w.slot.store (keyText call.key) (cstr call.data) ∧
      (w.storeField call).SameHome w ∧ (w.storeField call).idx = w.idx := by
  have hself : ((w.idx.toNat : ℕ) : ℤ) ≠ (w.idx.toNat : ℤ) - 1 := by omega
  unfold World.storeField World.leave World.slot World.setPost
  split_ifs
  · exact ⟨by simp [hself], ⟨rfl, rfl, rfl⟩, rfl⟩
  · exact ⟨by simp, ⟨rfl, rfl, rfl⟩, rfl⟩

/-- The calls for a whole form store it in the slot. -/
theorem slot_form (w : World) {fs : List Field} (hfs : ∀ f ∈ fs, f.value ≠ []) (c : ConnId) :
    let w' := site.flat.after w (fs.map fun f => .call () c (callOf f))
    w'.slot = w.slot.storeAll fs ∧ w'.SameHome w ∧ w'.idx = w.idx := by
  induction fs generalizing w with
  | nil => exact ⟨rfl, ⟨rfl, rfl, rfl⟩, rfl⟩
  | cons f fs ih =>
    rw [List.forall_mem_cons] at hfs
    have hstep : (site.flat.step w (.call () c (callOf f))).1 = w.storeField (callOf f) := by
      simp only [Microhttpd.Site.flat, site, iteratePost_eq]
      exact if_neg hfs.1
    obtain ⟨hslot, hhome, hidx⟩ := storeField_slot w (callOf f)
    obtain ⟨hslot', hhome', hidx'⟩ := ih (w.storeField (callOf f)) hfs.2
    rw [List.map_cons, Transducer.after_cons, hstep]
    refine ⟨?_, ?_, hidx'.trans hidx⟩
    · rw [hslot', hslot]
      rfl
    · exact ⟨hhome'.1.trans hhome.1, hhome'.2.1.trans hhome.2.1, hhome'.2.2.trans hhome.2.2⟩

/-- Nothing is stored, and the page is not that of a rule. -/
def Idle : Action → Prop
  | .call _ _ call => call.data = []
  | .reply _ method _ => method = .get
  | .elsewhere i => i.elim

instance : DecidablePred Idle
  | .call _ _ call => inferInstanceAs (Decidable (call.data = []))
  | .reply _ method _ => inferInstanceAs (Decidable (method = .get))
  | .elsewhere i => i.elim

theorem step_idle (w : World) {a : Action} (h : Idle a) : (site.flat.step w a).1 = w := by
  cases a with
  | elsewhere i => exact i.elim
  | call e c call =>
    simp only [Microhttpd.Site.flat, site, iteratePost_eq]
    exact if_pos h
  | reply c method a =>
    rw [Idle] at h
    rw [h]
    rfl

theorem after_idle (w : World) {as : List Action} (h : ∀ a ∈ as, Idle a) :
    site.flat.after w as = w := by
  induction as with
  | nil => rfl
  | cons a as ih =>
    rw [List.forall_mem_cons] at h
    rw [Transducer.after_cons, step_idle w h.1]
    exact ih h.2

variable {request : ConnId → Request} {c : ConnId}

theorem conCls_of_others {d : Daemon} {xs : List Event} (h : ∀ x ∈ xs, ¬ x.On c) :
    ((site.daemon request).after d xs).conCls c = d.conCls c := by
  induction xs generalizing d with
  | nil => rfl
  | cons x xs ih =>
    rw [List.forall_mem_cons] at h
    rw [Transducer.after_cons, ih h.2, Microhttpd.conCls_of_not_on d h.1]

/-- Whatever has happened before, a complete form that comes in one segment is answered from its
own fields and the table, as long as nothing is stored and no rule is asked in between. -/
theorem form_answered (hpost : request c = ⟨.post, true⟩) {d : Daemon}
    (hopen : d.conCls c = some ⟨.post, (), .create⟩) {fs : List Field}
    (hwhole : ∀ f ∈ fs, Whole f) (hcomplete : Complete fs) {xs : List Event}
    (hothers : ∀ x ∈ xs, ¬ x.On c)
    (hidle : ∀ a ∈ site.trace request
      ((site.daemon request).step d (.answer () c (formText fs))).1 xs, Idle a) :
    ((site.daemon request).step
        ((site.daemon request).after d (.answer () c (formText fs) :: xs)) (.answer () c [])).2.head? =
      some (.page c (.str22 (d.globals.rule (readForm fs)).command)) := by
  have hmethod : (request c).method = .post := by rw [hpost]
  have hne : formText fs ≠ [] := by
    obtain ⟨f, hf, -⟩ := hcomplete.given "type" (by simp)
    obtain ⟨g, gs, rfl⟩ := List.exists_cons_of_ne_nil (List.ne_nil_of_mem hf)
    simp [Microhttpd.formText_cons]
  have hyes : ∀ call : Call, call.data ≠ [] → verdict call = .yes := fun call h => if_neg h
  -- the segment stores the form
  have hactions : site.actions request d (.answer () c (formText fs)) =
      fs.map fun f => .call () c (callOf f) := by
    simp only [Microhttpd.Site.actions, hopen]
    rw [if_pos ⟨hmethod, hne⟩]
    exact (congrArg (List.map _) (Microhttpd.calls_whole_form hyes hwhole)).trans List.map_map
  have htrace : site.trace request d (.answer () c (formText fs) :: xs) =
      (fs.map fun f => .call () c (callOf f)) ++ site.trace request
        ((site.daemon request).step d (.answer () c (formText fs))).1 xs := by
    rw [← hactions]
    rfl
  have hglobals : ((site.daemon request).after d (.answer () c (formText fs) :: xs)).globals =
      site.flat.after d.globals (fs.map fun f => .call () c (callOf f)) := by
    rw [(Microhttpd.run_flat d _).1, htrace, Transducer.after_append, after_idle _ hidle]
  obtain ⟨hslot, hhome, -⟩ := slot_form d.globals (fun f hf => (hwhole f hf).nonempty) c
  -- and the connection stays open
  have hcon : ∃ con, ((site.daemon request).after d (.answer () c (formText fs) :: xs)).conCls c =
      some con := by
    rw [Transducer.after_cons, conCls_of_others hothers]
    simp only [Microhttpd.Site.daemon, Microhttpd.Site.answerToConnection, hopen]
    rw [if_pos ⟨hmethod, hne⟩]
    exact ⟨_, Function.update_self c _ _⟩
  obtain ⟨con, hcon⟩ := hcon
  have hstep := @Microhttpd.step_page _ _ _ _ _ _ site request _ c con hcon () [] (by simp)
  have hcommand : ∀ w : World, w.slot = d.globals.slot.storeAll fs → w.SameHome d.globals →
      (site.reply w .post con.answerstring).2.1 =
        .str22 (d.globals.rule (readForm fs)).command := by
    intro w hslot hhome
    change Page.str22 (w.rule w.slot).command = _
    rw [hslot, rule_sameHome hhome, rule_complete _ hcomplete]
  rw [hstep, hmethod, hglobals, List.head?_cons, hcommand _ hslot hhome]

end IdolGateway.HttpServer
