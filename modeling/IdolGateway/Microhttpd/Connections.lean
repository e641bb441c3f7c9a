import IdolGateway.Library.Refinement
import IdolGateway.Microhttpd.Iterators
import Mathlib.Logic.Function.Basic

/-!
# Requests on many connections

The servers handle a request the same way: the first call of `answer_to_connection` allocates
a `connection_info_struct`, and a post processor for a POST; the next ones hand the uploaded
segments to the processor; the last one queues a page; `request_completed` destroys what was
allocated.  They differ in `iterate_post` and in the page.  The calls for one connection come
between those for the others.
-/

namespace IdolGateway.Microhttpd

abbrev ConnId := ℕ

inductive Method
  | get | post | other
  deriving DecidableEq

/-- What the handler sees of the head of a request: the method, and whether the `Content-Type` is
that of an url-encoded form.  `MHD_create_post_processor` takes multipart forms too; requests that
post these are not modelled. -/
structure Request where
  method : Method
  urlencoded : Bool

/-- A server: what `iterate_post` does to the globals and to `answerstring`, the page for a
method and an `answerstring`, and what other threads do to the globals.  Its answer to the
processor and `answerstring` depend on the call alone, and the globals not on `answerstring`. -/
structure Site (ε σ α π ι ω : Type) where
  iteratePost : ε → Iterator (σ × α) ω
  noAnswer : α
  reply : σ → Method → α → σ × π × List ω
  elsewhere : ι → σ → σ × List ω
  verdict : Call → MhdResult
  obeys : ∀ e, Obeys (iteratePost e) verdict
  answerAfter : Call → α → α
  answers : ∀ e s call, (iteratePost e s call).2.1.2 = answerAfter call s.2
  apart : ∀ e g a a' call, (iteratePost e (g, a) call).2.1.1 = (iteratePost e (g, a') call).2.1.1 ∧
    (iteratePost e (g, a) call).2.2 = (iteratePost e (g, a') call).2.2

/-- `struct connection_info_struct` -/
structure ConInfo (α : Type) where
  connectiontype : Method
  answerstring : α
  postprocessor : PostProcessor

structure Daemon (σ α : Type) where
  globals : σ
  conCls : ConnId → Option (ConInfo α)

def Daemon.set {σ α : Type} (d : Daemon σ α) (c : ConnId) (con : Option (ConInfo α)) :
    Daemon σ α :=
  { d with conCls := Function.update d.conCls c con }

def Daemon.idle {σ : Type} (α : Type) (globals : σ) : Daemon σ α := ⟨globals, fun _ => none⟩

inductive Event (ε ι : Type)
  | answer (e : ε) (c : ConnId) (upload : List UInt8)
  | completed (e : ε) (c : ConnId)
  | elsewhere (i : ι)

inductive Output (π ω : Type)
  | out (o : ω)
  | page (c : ConnId) (p : π)
  deriving DecidableEq

def Output.out? {π ω : Type} : Output π ω → Option ω
  | .out o => some o
  | _ => none

namespace Site

variable {ε σ α π ι ω : Type} (S : Site ε σ α π ι ω)

/-- The first call for a request; a POST is refused if it has no url-encoded body. -/
def opened (request : Request) : Option (ConInfo α) :=
  match request.method with
  | .post => if request.urlencoded then some ⟨.post, S.noAnswer, .create⟩ else none
  | _ => some ⟨.get, S.noAnswer, .create⟩

variable (request : ConnId → Request)

/-- `answer_to_connection`; an empty upload is `*upload_data_size == 0`. -/
def answerToConnection (e : ε) (c : ConnId) (upload : List UInt8) (d : Daemon σ α) :
    Daemon σ α × List (Output π ω) :=
  match d.conCls c with
  | none => (d.set c (S.opened (request c)), [])
  | some con =>
    if (request c).method = .post ∧ upload ≠ [] then
      let r := postProcess (S.iteratePost e) con.postprocessor upload (d.globals, con.answerstring)
      (⟨r.user.1, Function.update d.conCls c (some ⟨con.connectiontype, r.user.2, r.pp⟩)⟩,
        r.out.map .out)
    else
      let r := S.reply d.globals (request c).method con.answerstring
      ({ d with globals := r.1 }, .page c r.2.1 :: r.2.2.map .out)

/-- `request_completed` -/
def requestCompleted (e : ε) (c : ConnId) (d : Daemon σ α) : Daemon σ α × List (Output π ω) :=
  match d.conCls c with
  | none => (d, [])
  | some con =>
    if con.connectiontype = .post then
      let r := destroyPostProcessor (S.iteratePost e) con.postprocessor
        (d.globals, con.answerstring)
      (⟨r.1.1, Function.update d.conCls c none⟩, r.2.map .out)
    else (d.set c none, [])

def daemon : Transducer (Daemon σ α) (Event ε ι) (Output π ω) where
  step d
    | .answer e c upload => S.answerToConnection request e c upload d
    | .completed e c => S.requestCompleted e c d
    | .elsewhere i =>
      let r := S.elsewhere i d.globals
      ({ d with globals := r.1 }, r.2.map .out)

end Site

/-- What moves the globals: a call of `iterate_post`, a page, a step of another thread. -/
inductive Action (ε α ι : Type)
  | call (e : ε) (c : ConnId) (call : Call)
  | reply (c : ConnId) (method : Method) (answerstring : α)
  | elsewhere (i : ι)

def Action.callOn {ε α ι : Type} (c : ConnId) : Action ε α ι → Option Call
  | .call _ c' heard => if c' = c then some heard else none
  | _ => none

namespace Site

variable {ε σ α π ι ω : Type} (S : Site ε σ α π ι ω) (request : ConnId → Request)

/-- The server without its connections. -/
def flat : Transducer σ (Action ε α ι) ω where
  step g
    | .call e _ call =>
      let r := S.iteratePost e (g, S.noAnswer) call
      (r.2.1.1, r.2.2)
    | .reply _ method a => ((S.reply g method a).1, (S.reply g method a).2.2)
    | .elsewhere i => S.elsewhere i g

def actions (d : Daemon σ α) : Event ε ι → List (Action ε α ι)
  | .answer e c upload =>
    match d.conCls c with
    | none => []
    | some con =>
      if (request c).method = .post ∧ upload ≠ [] then
        (postProcess (listen S.verdict) con.postprocessor upload ()).out.map (.call e c)
      else [.reply c (request c).method con.answerstring]
  | .completed e c =>
    match d.conCls c with
    | none => []
    | some con =>
      if con.connectiontype = .post then
        (destroyPostProcessor (listen S.verdict) con.postprocessor ()).2.map (.call e c)
      else []
  | .elsewhere i => [.elsewhere i]

abbrev trace (d : Daemon σ α) (xs : List (Event ε ι)) : List (Action ε α ι) :=
  ((S.daemon request).trace (S.actions request)).outputs d xs

end Site

section

variable {ε σ α π ι ω : Type} {S : Site ε σ α π ι ω} {request : ConnId → Request}

theorem filterMap_out {os : List ω} : (os.map (@Output.out π ω)).filterMap Output.out? = os := by
  rw [List.filterMap_map]
  exact List.filterMap_some

theorem step_page {d : Daemon σ α} {c : ConnId} {con : ConInfo α} (hcon : d.conCls c = some con)
    (e : ε) {upload : List UInt8} (h : ¬ ((request c).method = .post ∧ upload ≠ [])) :
    (S.daemon request).step d (.answer e c upload) =
      ({ d with globals := (S.reply d.globals (request c).method con.answerstring).1 },
        .page c (S.reply d.globals (request c).method con.answerstring).2.1 ::
          (S.reply d.globals (request c).method con.answerstring).2.2.map .out) := by
  simp only [Site.daemon, Site.answerToConnection, hcon]
  rw [if_neg h]

theorem page_of_step {d : Daemon σ α} {x : Event ε ι} {c : ConnId} {p : π}
    (hp : .page c p ∈ ((S.daemon request).step d x).2) :
    ∃ con, d.conCls c = some con ∧
      p = (S.reply d.globals (request c).method con.answerstring).2.1 := by
  have hnone : ∀ os : List ω, .page c p ∉ os.map (@Output.out π ω) := by
    simp
  cases x with
  | elsewhere i => exact absurd hp (hnone _)
  | answer e c' upload =>
    simp only [Site.daemon, Site.answerToConnection] at hp
    cases hcon : d.conCls c' with
    | none => simp [hcon] at hp
    | some con =>
      rw [hcon] at hp
      dsimp only at hp
      split_ifs at hp
      · exact absurd hp (hnone _)
      · rcases List.mem_cons.mp hp with hp | hp
        · cases hp
          exact ⟨con, hcon, rfl⟩
        · exact absurd hp (hnone _)
  | completed e c' =>
    simp only [Site.daemon, Site.requestCompleted] at hp
    cases hcon : d.conCls c' with
    | none => simp [hcon] at hp
    | some con =>
      rw [hcon] at hp
      dsimp only at hp
      split_ifs at hp
      · exact absurd hp (hnone _)
      · simp at hp

/-- What a call leaves in `answerstring` is fixed by the calls. -/
theorem answer_after (e : ε) (s : σ × α) (calls : List Call) :
    ((effects (S.iteratePost e)).after s calls).2 =
      calls.foldl (fun a call => S.answerAfter call a) s.2 := by
  induction calls generalizing s with
  | nil => rfl
  | cons call calls ih => rw [Transducer.after_cons, ih, effects, S.answers, List.foldl_cons]

theorem flat_calls (e : ε) (c : ConnId) (s : σ × α) (calls : List Call) :
    ((effects (S.iteratePost e)).after s calls).1 = S.flat.after s.1 (calls.map (.call e c)) ∧
      (effects (S.iteratePost e)).outputs s calls = S.flat.outputs s.1 (calls.map (.call e c)) := by
  induction calls generalizing s with
  | nil => exact ⟨rfl, rfl⟩
  | cons call calls ih =>
    obtain ⟨g, a⟩ := s
    obtain ⟨hafter, hout⟩ := ih (S.iteratePost e (g, a) call).2.1
    obtain ⟨hglobals, hputs⟩ := S.apart e g a S.noAnswer call
    rw [Transducer.after_cons, Transducer.outputs_cons, List.map_cons, Transducer.after_cons,
      Transducer.outputs_cons]
    simp only [effects, Site.flat] at hafter hout ⊢
    rw [← hglobals, ← hputs]
    exact ⟨hafter, congrArg _ hout⟩

/-- The globals of the daemon move by the actions of its steps, whatever stands in the
connections. -/
theorem daemon_refines_flat (S : Site ε σ α π ι ω) (request : ConnId → Request) :
    (S.daemon request).Refines S.flat (fun d g => d.globals = g) (fun _ _ => True)
      (S.actions request) Output.out? := by
  have hstep : ∀ d x, ((S.daemon request).step d x).1.globals =
        S.flat.after d.globals (S.actions request d x) ∧
      ((S.daemon request).step d x).2.filterMap Output.out? =
        S.flat.outputs d.globals (S.actions request d x) := by
    intro d x
    cases x with
    | elsewhere i =>
      refine ⟨rfl, ?_⟩
      rw [Site.actions, Transducer.outputs_cons, Transducer.outputs_nil, List.append_nil]
      exact filterMap_out
    | answer e c upload =>
      simp only [Site.daemon, Site.answerToConnection, Site.actions]
      cases d.conCls c with
      | none => exact ⟨rfl, rfl⟩
      | some con =>
        dsimp only
        split_ifs
        · rw [postProcess_eq (S.obeys e), filterMap_out]
          exact flat_calls e c _ _
        · refine ⟨rfl, ?_⟩
          rw [List.filterMap_cons_none rfl, filterMap_out, Transducer.outputs_cons,
            Transducer.outputs_nil, List.append_nil]
          rfl
    | completed e c =>
      simp only [Site.daemon, Site.requestCompleted, Site.actions]
      cases d.conCls c with
      | none => exact ⟨rfl, rfl⟩
      | some con =>
        dsimp only
        split_ifs
        · rw [destroyPostProcessor_eq (S.obeys e), filterMap_out]
          exact flat_calls e c _ _
        · exact ⟨rfl, rfl⟩
  constructor
  · rintro d g x rfl -
    exact (hstep d x).1
  · rintro d g x rfl -
    exact (hstep d x).2

/-- So in every run. -/
theorem run_flat (d : Daemon σ α) (xs : List (Event ε ι)) :
    ((S.daemon request).after d xs).globals = S.flat.after d.globals (S.trace request d xs) ∧
      ((S.daemon request).outputs d xs).filterMap Output.out? =
        S.flat.outputs d.globals (S.trace request d xs) :=
  (daemon_refines_flat S request).run rfl (Transducer.along_of_forall _ (fun _ _ => trivial) d xs)

end

end IdolGateway.Microhttpd
