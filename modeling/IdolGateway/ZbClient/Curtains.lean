import IdolGateway.Library.Interleaving
import IdolGateway.ZbClient.FrameOutput
import IdolGateway.ZbClient.HttpSenders
import IdolGateway.ZbClient.Joins

namespace IdolGateway.ZbClient

open Procedure

/-- A curtain: its controller, and the places of its two relays in a control frame. -/
structure Curtain where
  id : UInt16
  opening : ℕ
  closing : ℕ
  deriving DecidableEq

def zhuwoChuanglian : Curtain := ⟨chuanglianZhuwoId, 0, 2⟩

def ketingShalian : Curtain := ⟨chuanglianKeting1Id, 0, 1⟩

def ketingBulian : Curtain := ⟨chuanglianKeting1Id, 2, 3⟩

def curtains : List Curtain := [zhuwoChuanglian, ketingShalian, ketingBulian]

/-- Which relays are on: by the id of the controller and the place in a control frame. -/
abbrev Relays := UInt16 → ℕ → Bool

/-- A controller switches a relay off for `0` and on for `1` and leaves it for `2`; what
it does for another value is left open. -/
def relayAfter (other : UInt8 → Bool → Bool) (msg : UInt8) (on : Bool) : Bool :=
  if msg = 0 then false else if msg = 1 then true else if msg = 2 then on else other msg on

def UsartCall.applied (other : UInt8 → Bool → Bool) (c : UsartCall) (r : Relays) : Relays :=
  match c.payload with
  | 0 :: _ :: hi :: lo :: msgs => fun id k =>
    if id = word hi lo then (msgs[k]?.map fun msg => relayAfter other msg (r id k)).getD (r id k)
    else r id k
  | _ => r

def Out.applied (other : UInt8 → Bool → Bool) (r : Relays) (o : Out) : Relays :=
  (o.usart?.map fun c => c.applied other r).getD r

def relaysAfter (other : UInt8 → Bool → Bool) (outs : List Out) : Relays :=
  outs.foldl (Out.applied other) fun _ _ => false

def Curtain.relays (c : Curtain) (r : Relays) : Bool × Bool := (r c.id c.opening, r c.id c.closing)

section

variable (other : UInt8 → Bool → Bool)

def UsartCall.Neutral (f : UsartCall) : Prop :=
  ∀ r, ∀ c ∈ curtains, c.relays (f.applied other r) = c.relays r

/-- The frame sets the relays of one curtain, never both on, and leaves the others. -/
def UsartCall.Drives (c : Curtain) (f : UsartCall) : Prop :=
  ∀ r, c.relays (f.applied other r) ≠ (true, true) ∧
    ∀ c' ∈ curtains, c' ≠ c → c'.relays (f.applied other r) = c'.relays r

def UsartCall.Releases (c : Curtain) (f : UsartCall) : Prop :=
  ∀ r, c.relays (f.applied other r) = (false, false) ∧
    ∀ c' ∈ curtains, c' ≠ c → c'.relays (f.applied other r) = c'.relays r

variable {other} {f : UsartCall} {len : UInt8} {id : UInt16} {msgs : List UInt8}

theorem applied_ctrl (h : f.payload = 0 :: len :: hiByte id :: loByte id :: msgs) (r : Relays)
    (id' : UInt16) (k : ℕ) :
    f.applied other r id' k =
      if id' = id then (msgs[k]?.map fun msg => relayAfter other msg (r id' k)).getD (r id' k)
      else r id' k := by
  unfold UsartCall.applied
  rw [h]
  simp only [word_bytes]

def Curtain.KeptBy (c : Curtain) (id : UInt16) (msgs : List UInt8) : Prop :=
  c.id ≠ id ∨ msgs[c.opening]?.getD 2 = 2 ∧ msgs[c.closing]?.getD 2 = 2

instance (c : Curtain) (id : UInt16) (msgs : List UInt8) : Decidable (c.KeptBy id msgs) :=
  inferInstanceAs (Decidable (_ ∨ _))

theorem relays_of_keptBy (h : f.payload = 0 :: len :: hiByte id :: loByte id :: msgs) {c : Curtain}
    (hkept : c.KeptBy id msgs) (r : Relays) : c.relays (f.applied other r) = c.relays r := by
  have hkeep : ∀ {msg : Option UInt8} (on : Bool), msg.getD 2 = 2 →
      (msg.map fun msg => relayAfter other msg on).getD on = on := by
    intro msg on hmsg
    cases msg with
    | none => rfl
    | some msg =>
      obtain rfl : msg = 2 := hmsg
      rfl
  unfold Curtain.relays
  rw [applied_ctrl h, applied_ctrl h]
  by_cases hid : c.id = id
  · obtain ⟨hopening, hclosing⟩ := hkept.resolve_left fun hne => hne hid
    rw [if_pos hid, if_pos hid, hkeep _ hopening, hkeep _ hclosing]
  · rw [if_neg hid, if_neg hid]

theorem relays_of_set (h : f.payload = 0 :: len :: hiByte id :: loByte id :: msgs) {c : Curtain}
    (hid : c.id = id) {a b : Bool} (ha : msgs[c.opening]? = some a.toUInt8)
    (hb : msgs[c.closing]? = some b.toUInt8) (r : Relays) :
    c.relays (f.applied other r) = (a, b) := by
  have hset : ∀ (x : Bool) on, relayAfter other x.toUInt8 on = x := by
    intro x on
    cases x <;> rfl
  unfold Curtain.relays
  rw [applied_ctrl h, applied_ctrl h, if_pos hid, if_pos hid, ha, hb]
  simp only [Option.map_some, Option.getD_some, hset]

theorem neutral_of_keptBy (h : f.payload = 0 :: len :: hiByte id :: loByte id :: msgs)
    (hkept : ∀ c ∈ curtains, c.KeptBy id msgs) : f.Neutral other :=
  fun r c hc => relays_of_keptBy h (hkept c hc) r

theorem neutral_of_id (h : f.payload = 0 :: len :: hiByte id :: loByte id :: msgs)
    (hid : ∀ c ∈ curtains, c.id ≠ id) : f.Neutral other :=
  neutral_of_keptBy h fun c hc => Or.inl (hid c hc)

theorem neutral_register (id : UInt16) (state : UInt8) :
    ∀ f ∈ mxjSendRegisterMessage id state, f.Neutral other := by
  intro f hf r c _
  unfold mxjSendRegisterMessage at hf
  split_ifs at hf <;> simp at hf <;> subst hf <;> rfl

variable (other) in
def Out.Neutral : Out → Prop
  | .usart f => f.Neutral other
  | .pause => False
  | _ => True

variable (other) in
/-- Outputs in which every frame that energises a curtain is followed, behind one pause,
by the frame that releases it. -/
inductive Paired : List Out → Prop
  | nil : Paired []
  | other {o : Out} {outs : List Out} (ho : o.Neutral other) (h : Paired outs) : Paired (o :: outs)
  | command {c : Curtain} {f g : UsartCall} {outs : List Out} (hc : c ∈ curtains)
      (hf : f.Drives other c) (hg : g.Releases other c) (h : Paired outs) :
      Paired (.usart f :: .pause :: .usart g :: outs)

theorem Paired.append {xs ys : List Out} (hx : Paired other xs) (hy : Paired other ys) :
    Paired other (xs ++ ys) := by
  induction hx with
  | nil => exact hy
  | other ho _ ih => exact .other ho ih
  | command hc hf hg _ ih => exact .command hc hf hg ih

theorem Paired.of_neutral {outs : List Out} (h : ∀ o ∈ outs, o.Neutral other) :
    Paired other outs := by
  induction outs with
  | nil => exact .nil
  | cons o outs ih =>
    rw [List.forall_mem_cons] at h
    exact .other h.1 (ih h.2)

theorem Paired.ite {p : Prop} [Decidable p] {outs : List Out} (h : Paired other outs) :
    Paired other (if p then outs else []) := by
  by_cases hp : p
  · rw [if_pos hp]
    exact h
  · rw [if_neg hp]
    exact .nil

theorem paired_command {c : Curtain} (hc : c ∈ curtains) {g : UsartCall} {len' : UInt8}
    {msgs' : List UInt8} (h : f.payload = 0 :: len :: hiByte c.id :: loByte c.id :: msgs)
    (h' : g.payload = 0 :: len' :: hiByte c.id :: loByte c.id :: msgs') {a : Bool}
    (hset : msgs[c.opening]? = some a.toUInt8 ∧ msgs[c.closing]? = some (!a).toUInt8)
    (hset' : msgs'[c.opening]? = some 0 ∧ msgs'[c.closing]? = some 0)
    (hkept : ∀ c' ∈ curtains, c' ≠ c → c'.KeptBy c.id msgs ∧ c'.KeptBy c.id msgs') :
    Paired other [.usart f, .pause, .usart g] := by
  apply Paired.command hc _ _ .nil
  · intro r
    rw [relays_of_set h rfl hset.1 hset.2]
    refine ⟨by cases a <;> simp, fun c' hc' hne => ?_⟩
    exact relays_of_keptBy h (hkept c' hc' hne).1 r
  · intro r
    have hoff : c.relays (g.applied other r) = (false, false) :=
      relays_of_set (a := false) (b := false) h' rfl hset'.1 hset'.2 r
    exact ⟨hoff, fun c' hc' hne => relays_of_keptBy h' (hkept c' hc' hne).2 r⟩

theorem paired_zhuwo (a : Bool) :
    Paired other [ctrl chuanglianZhuwoId 3 a.toUInt8 0 (!a).toUInt8, .pause,
      ctrl chuanglianZhuwoId 3 0 0 0] :=
  paired_command (c := zhuwoChuanglian) (a := a) (by decide) rfl rfl ⟨rfl, rfl⟩ ⟨rfl, rfl⟩
    (by revert a; decide)

theorem paired_shalian (a : Bool) :
    Paired other [.usart (curtainData a.toUInt8 (!a).toUInt8 2 2), .pause,
      .usart (curtainData 0 0 2 2)] :=
  paired_command (c := ketingShalian) (a := a) (by decide) rfl rfl ⟨rfl, rfl⟩ ⟨rfl, rfl⟩
    (by revert a; decide)

theorem paired_bulian (a : Bool) :
    Paired other [.usart (curtainData 2 2 a.toUInt8 (!a).toUInt8), .pause,
      .usart (curtainData 2 2 0 0)] :=
  paired_command (c := ketingBulian) (a := a) (by decide) rfl rfl ⟨rfl, rfl⟩ ⟨rfl, rfl⟩
    (by revert a; decide)

theorem paired_of_id (h : f.payload = 0 :: len :: hiByte id :: loByte id :: msgs)
    (hid : ∀ c ∈ curtains, c.id ≠ id) : Paired other [.usart f] :=
  .other (neutral_of_id h hid) .nil

theorem paired_post (text : String) : Paired other [.post text] := .other trivial .nil

theorem paired_doubleKick (id : UInt16) : Paired other (doubleKick id) := by
  unfold doubleKick
  apply Paired.append
  · apply Paired.append
    · apply Paired.append
      · apply Paired.append
        · exact (paired_of_id rfl (by decide)).ite
        · apply Paired.ite
          apply Paired.of_neutral
          simp only [List.forall_mem_cons]
          exact ⟨neutral_of_id rfl (by decide), neutral_of_id rfl (by decide),
            neutral_of_id rfl (by decide), neutral_of_id rfl (by decide),
            neutral_of_id rfl (by decide), neutral_of_id rfl (by decide),
            neutral_of_id rfl (by decide), List.forall_mem_nil _⟩
      · exact (paired_zhuwo false).ite
    · exact (paired_shalian true).ite
  · exact (paired_bulian true).ite

theorem paired_leakReport (now : Tm) (place : String) {room : UInt16} (action : UInt8)
    (hid : ∀ c ∈ curtains, c.id ≠ room) : Paired other (leakReport now place room action) := by
  have hzhuwo : ∀ c ∈ curtains, c.id ≠ zhuwoId := by decide
  unfold leakReport
  split_ifs
  · exact (paired_post _).append ((paired_of_id rfl hzhuwo).append (paired_of_id rfl hid))
  · exact paired_post _
  · exact .nil

theorem paired_singleKick (now : Tm) (id : UInt16) (action : UInt8) :
    Paired other (singleKick now id action) := by
  unfold singleKick
  iterate 7 apply Paired.append
  · exact (paired_of_id rfl (by decide)).ite
  · exact (paired_of_id rfl (by decide)).ite
  · exact (paired_zhuwo true).ite
  · exact (paired_shalian false).ite
  · exact (paired_bulian false).ite
  · exact (paired_post _).ite
  · exact (paired_leakReport now "次卧" action (by decide)).ite
  · exact (paired_leakReport now "厨房" action (by decide)).ite

theorem paired_law (n : ℕ) : FrameLaw n (Paired other) where
  nil := .nil
  append := Paired.append
  store := fun i _ => .other trivial .nil
  socket := fun v => paired_of_id rfl (by decide)
  light := paired_of_id rfl (by decide)
  register := by
    intro id
    apply Paired.of_neutral
    intro o ho
    obtain ⟨f, hf, rfl⟩ := List.mem_map.mp ho
    exact neutral_register id mxjRegisterOk f hf
  -- the frame may go to a curtain controller, and keeps its first relay
  getState := by
    intro id
    have hkept : ∀ c ∈ curtains, c.KeptBy id [2] := by
      have hrelays : ∀ c ∈ curtains, [(2 : UInt8)][c.opening]?.getD 2 = 2 ∧
          [(2 : UInt8)][c.closing]?.getD 2 = 2 := by decide
      exact fun c hc => Or.inr (hrelays c hc)
    exact .other (neutral_of_keptBy rfl hkept) .nil
  double := paired_doubleKick
  single := paired_singleKick

theorem paired_contentTable : ∀ e ∈ contentTable, Paired other e.2 := by
  have hrooms : ∀ e ∈ contentTable.take 18, Paired other e.2 := by
    simp only [contentTable, List.take_succ_cons, List.take_zero, List.forall_mem_cons]
    iterate 18 refine ⟨paired_of_id rfl (by decide), ?_⟩
    exact List.forall_mem_nil _
  have hcurtains : ∀ e ∈ contentTable.drop 18, Paired other e.2 := by
    simp only [contentTable, List.drop_succ_cons, List.drop_zero, List.forall_mem_cons]
    exact ⟨paired_zhuwo false, paired_zhuwo true, paired_shalian false, paired_shalian true,
      paired_bulian false, paired_bulian true, List.forall_mem_nil _⟩
  intro e he
  rw [← List.take_append_drop 18 contentTable] at he
  exact (List.mem_append.mp he).elim (hrooms e) (hcurtains e)

end

/-- One activation of a handler: a frame in `recieve_usart`, from whatever state of the
table, or a document in the XML branch of `answer_to_connection`. -/
inductive Activation
  | frame (mem : Loc → UInt8) (w : World) (now : Tm) (len : UInt8)
  | document (u : Upload) (strxml : String) (parsed : Option (Option (List XmlNode)))

def Activation.outs [JsonC] : Activation → List Out
  | frame mem w now len => ((recieveUsart now len).run mem w).out
  | document u strxml parsed => (xmlBranch u strxml parsed).outs

section

variable {other : UInt8 → Bool → Bool}

theorem XmlNode.paired (n : XmlNode) : Paired other n.outs := by
  unfold outs contentCommand
  apply Paired.ite
  cases hfind : contentTable.find? fun e => e.1 = n.content with
  | none => exact .nil
  | some e => exact paired_contentTable e (List.mem_of_find?_eq_some hfind)

theorem paired_xmlLoop (u : Upload) (v : XmlVars) (strxml : String) (children : List XmlNode) :
    Paired other (xmlLoop u v strxml children).outs := by
  rw [outs_xmlLoop]
  induction reached children with
  | nil => exact .nil
  | cons n ns ih => exact n.paired.append ih

theorem Activation.paired [JsonC] (a : Activation) : Paired other a.outs := by
  cases a with
  | frame mem w now len => exact frame_out (paired_law _) (fun _ => .other trivial .nil) now
  | document u strxml parsed =>
    change Paired other (xmlBranch u strxml parsed).outs
    unfold xmlBranch
    split
    · exact paired_xmlLoop u .start strxml _
    · exact .nil

end

/-- The activation has sent the first frame of a command and not yet the second. -/
def InCommand (p : Strand Out) : Prop := p.todo.head? = some .pause ∨ p.done.getLast? = some .pause

section

variable {other : UInt8 → Bool → Bool}

variable (other) in
/-- Where an activation stands: outside a command, or between the two frames of the
command of a curtain. -/
inductive Stands (p : Strand Out) : Option Curtain → Prop
  | outside (h : Paired other p.todo) : Stands p none
  | before {c : Curtain} {g : UsartCall} {outs : List Out} (hc : c ∈ curtains)
      (htodo : p.todo = .pause :: .usart g :: outs) (hg : g.Releases other c)
      (h : Paired other outs) : Stands p (some c)
  | behind {c : Curtain} {g : UsartCall} {outs : List Out} (hc : c ∈ curtains)
      (hdone : p.done.getLast? = some .pause) (htodo : p.todo = .usart g :: outs)
      (hg : g.Releases other c) (h : Paired other outs) : Stands p (some c)

theorem Stands.inCommand {p : Strand Out} {c : Curtain} (h : Stands other p (some c)) :
    InCommand p := by
  cases h with
  | before _ htodo _ _ => exact Or.inl (by rw [htodo]; rfl)
  | behind _ hdone _ _ _ => exact Or.inr hdone

variable (other) in
/-- No curtain has both relays on, and one that has a relay on waits for its release. -/
structure Attended {ι : Type*} (strands : ι → Strand Out) (r : Relays) : Prop where
  interlocked : ∀ c ∈ curtains, c.relays r ≠ (true, true)
  waits : ∃ stands : ι → Option Curtain, (∀ i, Stands other (strands i) (stands i)) ∧
    ∀ c ∈ curtains, c.relays r ≠ (false, false) → ∃ i, stands i = some c

theorem applied_of_neutral {o : Out} (ho : o.Neutral other) (r : Relays) {c : Curtain}
    (hc : c ∈ curtains) : c.relays (o.applied other r) = c.relays r := by
  cases o with
  | usart f => exact ho r c hc
  | pause => exact absurd ho id
  | post text => rfl
  | store i => rfl

/-- What one step of an activation does to a curtain: nothing; or it releases it; or the
activation now waits to release it. -/
theorem stands_step {p : Strand Out} {s : Option Curtain} (h : Stands other p s) (r : Relays) :
    ∃ s', Stands other p.advance.1 s' ∧ ∀ c ∈ curtains,
      let r' := p.advance.2.foldl (Out.applied other) r
      (c.relays r' = c.relays r ∧ (s = some c → s' = some c)) ∨ c.relays r' = (false, false) ∨
        (s' = some c ∧ c.relays r' ≠ (true, true)) := by
  obtain ⟨done, todo⟩ := p
  cases todo with
  | nil => exact ⟨s, h, fun c _ => Or.inl ⟨rfl, id⟩⟩
  | cons o rest =>
    cases h with
    | outside h =>
      cases h with
      | other ho h =>
        refine ⟨none, .outside h, fun c hc => Or.inl ⟨applied_of_neutral ho r hc, fun h => h⟩⟩
      | @command c f g outs hc hf hg h =>
        refine ⟨some c, .before hc rfl hg h, fun c' hc' => ?_⟩
        by_cases hne : c' = c
        · subst hne
          exact Or.inr (Or.inr ⟨rfl, (hf r).1⟩)
        · exact Or.inl ⟨(hf r).2 c' hc' hne, fun h => nomatch h⟩
    | before hc htodo hg h =>
      obtain ⟨rfl, rfl⟩ := List.cons.inj htodo
      exact ⟨_, .behind hc List.getLast?_concat rfl hg h, fun c' _ => Or.inl ⟨rfl, id⟩⟩
    | @behind c g outs hc hdone htodo hg h =>
      obtain ⟨rfl, rfl⟩ := List.cons.inj htodo
      refine ⟨none, .outside h, fun c' hc' => ?_⟩
      by_cases hne : c' = c
      · subst hne
        exact Or.inr (Or.inl (hg r).1)
      · exact Or.inl ⟨(hg r).2 c' hc' hne, fun heq => absurd (Option.some.inj heq).symm hne⟩

theorem attended_step {ι : Type*} [DecidableEq ι] {strands : ι → Strand Out} {r : Relays}
    (h : Attended other strands r) (i : ι) :
    Attended other (Function.update strands i (strands i).advance.1)
      ((strands i).advance.2.foldl (Out.applied other) r) := by
  obtain ⟨stands, hstands, hwaits⟩ := h.waits
  obtain ⟨s', hs', hstep⟩ := stands_step (hstands i) r
  constructor
  · intro c hc
    rcases hstep c hc with ⟨hsame, -⟩ | hoff | ⟨-, hon⟩
    · rw [hsame]
      exact h.interlocked c hc
    · rw [hoff]
      simp
    · exact hon
  · refine ⟨Function.update stands i s', ?_, ?_⟩
    · intro j
      by_cases hj : j = i
      · subst hj
        simpa using hs'
      · simpa [hj] using hstands j
    · intro c hc hon
      rcases hstep c hc with ⟨hsame, hkeep⟩ | hoff | ⟨hnew, -⟩
      · rw [hsame] at hon
        obtain ⟨j, hj⟩ := hwaits c hc hon
        refine ⟨j, ?_⟩
        by_cases hji : j = i
        · subst hji
          rw [Function.update_self]
          exact hkeep hj
        · rwa [Function.update_of_ne hji]
      · exact absurd hoff hon
      · exact ⟨i, by rw [Function.update_self, hnew]⟩

variable (other) in
theorem attended_run {ι : Type*} [DecidableEq ι] [JsonC] (handlers : ι → Activation)
    (turns : List ι) :
    Attended other
      ((interleaving ι Out).after (startAll fun i => (handlers i).outs) turns)
      (relaysAfter other
        ((interleaving ι Out).outputs (startAll fun i => (handlers i).outs) turns)) := by
  induction turns using List.reverseRecOn with
  | nil =>
    refine ⟨fun c _ => by simp [Curtain.relays, relaysAfter], fun _ => none, ?_, ?_⟩
    · exact fun i => .outside (handlers i).paired
    · exact fun c _ hon => absurd rfl hon
  | append_singleton turns i ih =>
    rw [interleaving_after_snoc, interleaving_outputs_snoc, relaysAfter, List.foldl_append]
    exact attended_step ih i

end

/-- However the activations are interleaved, no curtain ever has both relays on, and all
relays are off whenever no activation is between its two frames. -/
theorem curtains_interlocked [JsonC] (other : UInt8 → Bool → Bool) {ι : Type*} [DecidableEq ι]
    (handlers : ι → Activation) (turns : List ι) :
    let run := interleaving ι Out
    let start := startAll fun i => (handlers i).outs
    let r := relaysAfter other (run.outputs start turns)
    (∀ c ∈ curtains, ¬ (r c.id c.opening = true ∧ r c.id c.closing = true)) ∧
      ((∀ i, ¬ InCommand (run.after start turns i)) →
        ∀ c ∈ curtains, r c.id c.opening = false ∧ r c.id c.closing = false) := by
  intro run start r
  obtain ⟨hinterlocked, stands, hstands, hwaits⟩ := attended_run other handlers turns
  constructor
  · intro c hc hboth
    exact hinterlocked c hc (Prod.ext hboth.1 hboth.2)
  · intro hnone c hc
    by_contra hoff
    have hon : c.relays r ≠ (false, false) := fun h => hoff (Prod.mk.inj h)
    obtain ⟨i, hi⟩ := hwaits c hc hon
    exact hnone i (hi ▸ hstands i).inCommand

/-- The bedroom curtain is told to open, and then to close before it is released. -/
example :
    letI := spacedJsonC
    let handlers : Bool → Activation := fun i => .document ⟨none, fun _ => 0, [], 0, ""⟩ ""
      (some (some [⟨"Content", if i then "开主卧窗帘" else "关主卧窗帘"⟩]))
    zhuwoChuanglian.relays (relaysAfter (fun _ on => on)
      ((interleaving Bool Out).outputs (startAll fun i => (handlers i).outs) [true, false])) =
        (false, true) := by
  decide +kernel

end IdolGateway.ZbClient
