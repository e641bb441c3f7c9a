import IdolGateway.HttpServer.Forms

namespace IdolGateway.HttpServer

open Microhttpd (Call ConnId Request)

/-- What a page says to the device of the rule: on or off. -/
def humidity? : Microhttpd.Output Page Out → Option Bool
  | .page _ (.str22 (some command)) =>
    if command = .controlDown tempid 1 1 1 then some true
    else if command = .controlDown tempid 0 0 0 then some false
    else none
  | _ => none

/-- The commands of a step, and `temp` before and after it. -/
def Switches (temp : UInt8) (commands : List Bool) (temp' : UInt8) : Prop :=
  commands = [] ∧ temp' = temp ∨ commands = [true] ∧ temp' = 0 ∨
    commands = [false] ∧ temp = 0 ∧ temp' = 1

theorem humidity_out (os : List Out) :
    (os.map (@Microhttpd.Output.out Page Out)).filterMap humidity? = [] := by
  rw [List.filterMap_map]
  exact List.filterMap_eq_nil_iff.mpr fun _ _ => rfl

theorem humidity_controlUp (c : ConnId) (p : PostStruct) :
    humidity? (.page c (.str22 (controlUp p))) = none := by
  unfold controlUp
  split_ifs <;> rfl

theorem switches_rule (c : ConnId) (w : World) (p : PostStruct) :
    Switches w.temp (humidity? (.page c (.str22 (w.rule p).command))).toList
      (w.rule p).world.temp := by
  unfold World.rule
  split_ifs with h₁ h₂ h₃ h₄
  · refine Or.inl ?_
    unfold World.registerRequest World.addDev
    split
    · exact ⟨rfl, rfl⟩
    · split_ifs <;> exact ⟨rfl, rfl⟩
  · refine Or.inl ⟨?_, rfl⟩
    rw [humidity_controlUp]
    rfl
  · unfold World.humidityUp
    split_ifs with hwet hdry
    · exact Or.inr (Or.inl ⟨rfl, rfl⟩)
    · exact Or.inr (Or.inr ⟨rfl, hdry.2, rfl⟩)
    · exact Or.inl ⟨rfl, rfl⟩
  · refine Or.inl ?_
    unfold World.askState
    split
    · refine ⟨?_, rfl⟩
      dsimp only
      split_ifs
      · simp [humidity?]
      · rfl
    · exact ⟨rfl, rfl⟩
  · exact Or.inl ⟨rfl, rfl⟩

theorem switches_reply (c : ConnId) (w : World) (method : Microhttpd.Method) (a : Unit) :
    Switches w.temp (humidity? (.page c (site.reply w method a).2.1)).toList
      (site.reply w method a).1.temp := by
  cases method with
  | get => exact Or.inl ⟨rfl, rfl⟩
  | post => exact switches_rule c w w.slot
  | other => exact switches_rule c w w.slot

/-- `iterate_post` leaves `temp` alone. -/
theorem temp_calls (s : World × Unit) (calls : List Call) :
    ((Microhttpd.effects iteratePost).after s calls).1.temp = s.1.temp := by
  have hstep : ∀ (s' : World × Unit) (call : Call), s'.1.temp = s.1.temp →
      ((Microhttpd.effects iteratePost).step s' call).1.1.temp = s.1.temp := by
    intro s' call hs'
    simp only [Microhttpd.effects, iteratePost_eq]
    split_ifs
    · exact hs'
    · exact (storeField_slot s'.1 call).2.1.2.2.trans hs'
  exact Transducer.after_preserves hstep rfl calls

theorem switches_step (request : ConnId → Request) (d : Daemon) (x : Event) :
    Switches d.globals.temp (((site.daemon request).step d x).2.filterMap humidity?)
      ((site.daemon request).step d x).1.globals.temp := by
  cases x with
  | elsewhere i => exact i.elim
  | answer e c upload =>
    simp only [Microhttpd.Site.daemon, Microhttpd.Site.answerToConnection]
    cases hcon : d.conCls c with
    | none => exact Or.inl ⟨rfl, rfl⟩
    | some con =>
      dsimp only
      split_ifs
      · rw [humidity_out, Microhttpd.postProcess_eq (site.obeys e)]
        exact Or.inl ⟨rfl, temp_calls _ _⟩
      · rw [List.filterMap_cons, humidity_out]
        have hswitches := switches_reply c d.globals (request c).method con.answerstring
        cases hh : humidity? (.page c (site.reply d.globals (request c).method
          con.answerstring).2.1) with
        | none =>
          rw [hh] at hswitches
          exact hswitches
        | some b =>
          rw [hh] at hswitches
          exact hswitches
  | completed e c =>
    simp only [Microhttpd.Site.daemon, Microhttpd.Site.requestCompleted]
    cases hcon : d.conCls c with
    | none => exact Or.inl ⟨rfl, rfl⟩
    | some con =>
      dsimp only
      split_ifs
      · rw [humidity_out, Microhttpd.destroyPostProcessor_eq (site.obeys e)]
        exact Or.inl ⟨rfl, temp_calls _ _⟩
      · exact Or.inl ⟨rfl, rfl⟩

/-- In every run the command before an off is an on, and `temp` is 0 exactly as long as the last
command was an on. -/
theorem off_after_on (request : ConnId → Request) (xs : List Event) :
    let commands := ((site.daemon request).outputs (.idle Unit World.initial) xs).filterMap
      humidity?
    (∀ pre post, commands = pre ++ false :: post → pre.getLast? = some true) ∧
      (commands.getLast? = some true ↔
        ((site.daemon request).after (.idle Unit World.initial) xs).globals.temp = 0) := by
  induction xs using List.reverseRecOn with
  | nil =>
    exact ⟨fun pre post h => absurd h (by simp), by simp [Microhttpd.Daemon.idle, World.initial]⟩
  | append_singleton xs x ih =>
    obtain ⟨hoff, hlast⟩ := ih
    rw [Transducer.outputs_append, Transducer.after_append_singleton, Transducer.outputs_cons,
      Transducer.outputs_nil, List.append_nil, List.filterMap_append]
    rcases switches_step request ((site.daemon request).after (.idle Unit World.initial) xs) x with
      ⟨hnone, htemp⟩ | ⟨hon, htemp⟩ | ⟨hoff', hbefore, htemp⟩
    · rw [hnone, List.append_nil, htemp]
      exact ⟨hoff, hlast⟩
    · rw [hon, htemp]
      refine ⟨fun pre post h => ?_, by simp⟩
      rcases List.eq_nil_or_concat' post with rfl | ⟨post, b, rfl⟩
      · exact absurd (List.append_inj' h rfl).2 (by simp)
      · rw [← List.cons_append, ← List.append_assoc] at h
        exact hoff pre post (List.append_inj' h rfl).1
    · rw [hoff', htemp]
      refine ⟨fun pre post h => ?_, by simp⟩
      rcases List.eq_nil_or_concat' post with rfl | ⟨post, b, rfl⟩
      · rw [← (List.append_inj' h rfl).1]
        exact hlast.mpr hbefore
      · rw [← List.cons_append, ← List.append_assoc] at h
        exact hoff pre post (List.append_inj' h rfl).1

end IdolGateway.HttpServer
