import IdolGateway.Brower.Http

/-!
# The pages of the configurable server

`json_str` is built again after every change of the table, also after a piece of a body: a
piece is shorter than `MAXNAMESIZE`.  So a page shows the table as it is when it is queued.
-/

namespace IdolGateway.Brower

open Procedure
open ZbClient (JsonC recognised copied modelTypes memory)
open Microhttpd (ConnId Method Request)

/-- `json_str` is the list of the table. -/
def World.Fresh [JsonC] (w : World) : Prop := w.jsonStr = w.text

theorem fresh_publish [JsonC] (w : World) : w.publish.Fresh := rfl

theorem pageFor_cases (w : World) (method : Method) (answerstring : AnswerString) :
    pageFor w method answerstring = .errorpage ∨
      pageFor w method answerstring = .jsonStr w.jsonStr := by
  unfold pageFor
  split
  · exact Or.inr rfl
  · exact Or.inr rfl
  · exact Or.inl rfl

section

variable [Tokener] {mem : Stray → UInt8}

theorem fresh_buildJson : Triple mem (fun _ => True) buildJson fun _ => World.Fresh := by
  intro w _
  rw [run_buildJson]
  exact fresh_publish w

theorem fresh_registerRequest (rx : ℕ → UInt8) (id : UInt16) :
    Triple mem World.Fresh (registerRequest rx id) fun _ => World.Fresh := by
  intro w hw
  rw [registerRequest, run_bind_state, run_findDev, run_bind_state, run_emit, run_when]
  cases w.lookup id.toNat with
  | none =>
    rw [if_pos rfl, run_appendDevice]
    exact fresh_publish _
  | some i => exact hw

theorem fresh_sendState (rx : ℕ → UInt8) (id : UInt16) :
    Triple mem World.Fresh (sendState rx id) fun _ => World.Fresh := by
  refine (keeps_findDev _).bind fun i => ?_
  cases i with
  | none => exact fun _ hw => hw
  | some i =>
    exact (Triple.any _).bind fun _ => (Triple.any _).bind fun _ => (Triple.any _).bind fun _ =>
      fresh_buildJson

theorem fresh_xiaomi18 (rx behind : ℕ → UInt8) (len : UInt8) (id cid : UInt16) :
    Triple mem World.Fresh (xiaomi18 rx behind len id cid) fun _ => World.Fresh := by
  intro w hw
  rw [xiaomi18, run_bind_state, run_findDev, run_when]
  split_ifs
  · cases recognised (memory rx behind) (copied (memory rx behind) 13 (rx 12).toNat)
      modelTypes with
    | none => exact hw
    | some type =>
      change World.Fresh ((appendDevice id type 1).run mem w).state
      rw [run_appendDevice]
      exact fresh_publish _
  · exact hw

theorem fresh_recieveUsart (rx behind : ℕ → UInt8) (len : UInt8) :
    Triple mem World.Fresh (recieveUsart rx behind len) fun _ => World.Fresh := by
  unfold recieveUsart
  dsimp only
  split_ifs
  · exact Triple.of_quiet (quiet_ctrlUp rx _)
  · exact fresh_registerRequest rx _
  · exact fresh_sendState rx _
  · exact fresh_xiaomi18 rx behind len _ _
  · exact fun _ hw => hw

theorem fresh_iteratePost {p : Post} (hsize : p.size ≤ maxNameSize) :
    Triple mem World.Fresh (iteratePost p) fun _ => World.Fresh := by
  rcases iteratePost_cases p with ⟨myObject, -, hpost⟩ | ⟨-, cs, ret, -, hpost⟩
  · rw [hpost, postDevices]
    refine (Triple.any _).bind fun _ => Triple.bind (Q := fun _ => World.Fresh) ?_
      fun _ => fun _ hw => hw
    rw [Procedure.when, if_pos hsize]
    exact fresh_buildJson
  · rw [hpost]
    exact (keeps_emit _).bind fun _ => fun _ hw => hw

def Input.Short (x : Input) : Prop :=
  match x.event with
  | .post p => p.size ≤ maxNameSize
  | .frame _ _ _ => True

theorem fresh_step {w : World} (hw : w.Fresh) {x : Input} (hx : x.Short) :
    (server.step w x).1.Fresh := by
  obtain ⟨event, outside⟩ := x
  cases event with
  | frame rx behind len => exact fresh_recieveUsart rx behind len w hw
  | post p =>
    change World.Fresh ((iteratePost p >>= fun _ => pure ()).run outside w).state
    rw [run_bind_state]
    exact fresh_iteratePost hx w hw

theorem handed_short (request : ConnId → Request) {d : Microhttpd.Daemon World AnswerString}
    (hd : d.Fits) (xs : List HttpEvent) : ∀ x ∈ handed request d xs, x.Short := by
  intro x hx
  obtain ⟨a, ha, hx⟩ := List.mem_flatMap.mp hx
  have hfits := (Microhttpd.fits_run hd xs).2 a ha
  cases a with
  | reply c method answerstring => simp [inputs] at hx
  | elsewhere i =>
    rw [List.mem_singleton.mp hx]
    exact trivial
  | call outside c call =>
    rw [List.mem_singleton.mp hx]
    exact hfits.1.trans (by decide)

variable (request : ConnId → Request)

def atStart : Microhttpd.Daemon World AnswerString := .idle AnswerString .started

theorem fresh_after (xs : List HttpEvent) :
    ((httpd request).after atStart xs).globals.Fresh := by
  have hshort := handed_short request (d := atStart) (Microhttpd.fits_idle World.started) xs
  rw [(httpd_server request atStart xs).1]
  refine @Transducer.after_invariant _ _ _ server World.Fresh (fun _ x => x.Short)
    (fun w x hw hx => fresh_step hw hx) _ _ (fresh_publish _) ?_
  rw [Transducer.along_iff]
  intro pre x post hxs
  exact hshort x (by rw [hxs]; simp)

/-- In the run, no store of a frame or of a piece of a body leaves the arrays. -/
def RunStoresInside (xs : List HttpEvent) : Prop := StoresInside (handed request atStart xs)

instance (xs : List HttpEvent) : Decidable (RunStoresInside request xs) :=
  inferInstanceAs (Decidable (StoresInside _))

theorem valid_httpd {xs : List HttpEvent} (h : RunStoresInside request xs) :
    ((httpd request).after atStart xs).globals.Valid := by
  rw [(httpd_server request atStart xs).1]
  exact valid_of_storesInside h

/-- For every interleaving of frames and of requests in any pieces whose stores stay inside the
arrays: the table is valid, a page is the error page or the list of the table as it is, and a
GET gets the list. -/
theorem pages_current (xs : List HttpEvent) (hinside : RunStoresInside request xs) :
    let d := (httpd request).after atStart xs
    d.globals.Valid ∧
      (∀ x c p, .page c p ∈ ((httpd request).step d x).2 →
        p = .errorpage ∨ p = .jsonStr d.globals.text) ∧
      ∀ outside c upload, d.conCls c ≠ none → (request c).method = .get →
        (httpd request).step d (.answer outside c upload) =
          (d, [.page c (.jsonStr d.globals.text)]) := by
  intro d
  have hfresh : d.globals.jsonStr = d.globals.text := fresh_after request xs
  rw [← hfresh]
  refine ⟨valid_httpd request hinside, ?_, ?_⟩
  · intro x c p hp
    obtain ⟨con, -, rfl⟩ := Microhttpd.page_of_step hp
    exact pageFor_cases _ _ _
  · intro outside c upload hopen hget
    obtain ⟨con, hcon⟩ := Option.ne_none_iff_exists'.mp hopen
    have hstep := @Microhttpd.step_page _ _ _ _ _ _ site request d c con hcon outside upload
      (by simp [hget])
    rw [hget] at hstep
    exact hstep

end

def registeredHeard : List HttpEvent := [heard [2, 5, 0, 1, 5, 2], .answer (fun _ => 0) 1 []]

theorem registered_page :
    letI := tabled "" .null
    let gets : ConnId → Request := fun _ => ⟨.get, false⟩
    let d := (httpd gets).after atStart registeredHeard
    (httpd gets).step d (.answer (fun _ => 0) 1 []) = (d, [.page 1 (.jsonStr d.globals.text)]) :=
  letI := tabled "" .null
  (pages_current (fun _ => ⟨.get, false⟩) registeredHeard (by decide +kernel)).2.2 _ 1 _
    (by decide +kernel) rfl

end IdolGateway.Brower
