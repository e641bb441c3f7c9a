import IdolGateway.HttpServer.Registration
import IdolGateway.ZbClient.JsonLength

namespace IdolGateway.HttpServer

open Microhttpd (Call ConnId Method Request cstr keyText)
open ZbClient (decimalWidth decimalWidth_le)

/-- What every run keeps: where `idx` is, that slot 0 is not left backwards, and the end of the
table. -/
structure World.Sound (w : World) : Prop where
  idx : w.idx.toNat ≤ 250
  first : w.idx = 0 → w.oldIdx = 0
  devsize : w.devsize.toNat ≤ devSize

theorem length_toString (n : ℕ) : (toString n).length = decimalWidth n := by
  have hrepr : toString n = String.ofList (Nat.toDigits 10 n) := rfl
  rw [hrepr, String.length_ofList, decimalWidth]

theorem length_word (n : UInt16) : (toString n.toNat).length ≤ 5 := by
  have hn := n.toNat_lt
  rw [length_toString]
  exact decimalWidth_le (by decide) (by omega)

theorem length_byte (n : UInt8) : (toString n.toNat).length ≤ 3 := by
  have hn := n.toNat_lt
  rw [length_toString]
  exact decimalWidth_le (by decide) (by omega)

/-- Whatever numbers are printed, `str22` has room for them. -/
theorem length_text (c : Command) : c.text.length < str22Size := by
  cases c with
  | controlDown devid state1 state2 state3 =>
    have h := length_word devid
    have h₁ := length_byte state1
    have h₂ := length_byte state2
    have h₃ := length_byte state3
    calc _ = 10 + (toString devid.toNat).length + 12 + (toString state1.toNat).length + 12 +
            (toString state2.toNat).length + 12 + (toString state3.toNat).length + 24 := by
          rw [text_controlDown]
          simp only [String.length_append]
          rfl
      _ < 200 := by omega
  | registerOk devid =>
    have h := length_word devid
    calc _ = 10 + (toString devid.toNat).length + 23 := by
          rw [text_registerOk]
          simp only [String.length_append]
          rfl
      _ < 200 := by omega
  | registerFailed devid =>
    have h := length_word devid
    calc _ = 10 + (toString devid.toNat).length + 27 := by
          rw [text_registerFailed]
          simp only [String.length_append]
          rfl
      _ < 200 := by omega

theorem sound_storeField {w : World} (h : w.Sound) (call : Call) : (w.storeField call).Sound := by
  unfold World.storeField World.leave
  split_ifs with hold
  · refine ⟨h.idx, fun h0 => ?_, h.devsize⟩
    have h0' : w.idx = 0 := h0
    change w.idx.toNat = 0
    rw [h0']
    rfl
  · exact ⟨h.idx, h.first, h.devsize⟩

theorem uses_storeField {w : World} (h : w.Sound) (call : Call) :
    (∀ o ∈ w.storeUses call, o.InArray) ↔
      (keyText call.key = "type" → (cstr call.data).length < typeSize) := by
  have hslot : Out.InArray (.rePost w.idx.toNat) := ⟨by omega, by have := h.idx; omega⟩
  have hleft : w.oldIdx ≠ w.idx.toNat → Out.InArray (.rePost ((w.idx.toNat : ℤ) - 1)) := by
    intro hold
    have hpos : w.idx.toNat ≠ 0 := by
      intro h0
      have hidx : w.idx = 0 := UInt8.toNat_inj.mp h0
      exact hold (by rw [h.first hidx, h0])
    have hle := h.idx
    exact ⟨by omega, by omega⟩
  have hfirst : ∀ o ∈ (if w.oldIdx ≠ w.idx.toNat then [Out.rePost ((w.idx.toNat : ℤ) - 1)] else []),
      o.InArray := by
    split_ifs with hold
    · simpa using hleft hold
    · simp
  have hsecond : ∀ o ∈ (if keyText call.key ∈ fieldKeys then [Out.rePost w.idx.toNat] else []),
      o.InArray := by
    split_ifs
    · simpa using hslot
    · simp
  unfold World.storeUses
  rw [List.forall_mem_append, List.forall_mem_append]
  constructor
  · rintro ⟨-, htype⟩ hkey
    rw [if_pos hkey, List.forall_mem_singleton] at htype
    exact htype
  · intro htype
    refine ⟨⟨hfirst, hsecond⟩, ?_⟩
    split_ifs with hkey
    · rw [List.forall_mem_singleton]
      exact htype hkey
    · simp

theorem uses_findDev {w : World} (h : w.Sound) (id : UInt16) :
    ∀ o ∈ w.findUses id, o.InArray := by
  have hsize := h.devsize
  unfold World.findUses
  rw [List.forall_mem_map]
  intro i hi
  rw [List.mem_range] at hi
  change i < devSize
  cases hfind : w.findDev id with
  | none =>
    rw [hfind] at hi
    exact Nat.lt_of_lt_of_le hi hsize
  | some j =>
    rw [hfind] at hi
    have hj := List.mem_of_find?_eq_some hfind
    rw [List.mem_range] at hj
    simp only [Option.elim_some] at hi
    omega

theorem uses_rule {w : World} (h : w.Sound) :
    (∀ o ∈ (w.rule w.slot).uses, o.InArray) ↔
      (w.slot.registration ≠ none → w.findDev w.slot.id = none → w.devsize.toNat < devSize) := by
  unfold World.rule PostStruct.registration
  split_ifs with h₁ h₂ h₃ h₄
  · have hfind := uses_findDev h w.slot.id
    unfold World.registerRequest
    cases hdev : w.findDev w.slot.id with
    | none =>
      simp only [ne_eq, reduceCtorEq, not_false_eq_true, forall_const]
      rw [List.forall_mem_append, List.forall_mem_singleton]
      exact ⟨fun h => h.2, fun h => ⟨hfind, h⟩⟩
    | some i => simpa using hfind
  · simp
  · unfold World.humidityUp
    split_ifs <;> simp
  · have hfind := uses_findDev h w.slot.id
    unfold World.askState
    cases hdev : w.findDev w.slot.id with
    | none => simpa using hfind
    | some i =>
      have hi := List.mem_of_find?_eq_some hdev
      rw [List.mem_range] at hi
      have hsize := h.devsize
      simp only [ne_eq, not_true_eq_false, false_implies, iff_true]
      rw [List.forall_mem_append, List.forall_mem_singleton]
      exact ⟨hfind, Nat.lt_of_lt_of_le hi hsize⟩
  · simp

theorem idx_rule (w : World) (p : PostStruct) :
    (w.rule p).world.idx = w.idx ∧ (w.rule p).world.oldIdx = w.oldIdx := by
  unfold World.rule
  split_ifs
  · unfold World.registerRequest World.addDev
    split
    · exact ⟨rfl, rfl⟩
    · split_ifs <;> exact ⟨rfl, rfl⟩
  · exact ⟨rfl, rfl⟩
  · unfold World.humidityUp
    split_ifs <;> exact ⟨rfl, rfl⟩
  · unfold World.askState
    split <;> exact ⟨rfl, rfl⟩
  · exact ⟨rfl, rfl⟩

theorem sound_advance {w : World} (h : w.Sound) : w.advance.Sound := by
  have hidx := h.idx
  have hnext : (w.idx + 1).toNat = w.idx.toNat + 1 := by
    rw [UInt8.toNat_add, UInt8.toNat_one]
    omega
  have hsmall : (if 250 < w.idx + 1 then 1 else w.idx + 1).toNat ≤ 250 ∧
      (if 250 < w.idx + 1 then 1 else w.idx + 1) ≠ 0 := by
    split_ifs with hbig
    · exact ⟨by decide, by decide⟩
    · rw [UInt8.lt_iff_toNat_lt, hnext] at hbig
      refine ⟨?_, fun h0 => ?_⟩
      · rw [hnext]
        exact Nat.le_of_not_lt hbig
      · rw [h0] at hnext
        exact absurd hnext (by simp)
  exact ⟨hsmall.1, fun h0 => absurd h0 hsmall.2, h.devsize⟩

theorem sound_step {w : World} (h : w.Sound) (a : Action) : (site.flat.step w a).1.Sound := by
  cases a with
  | elsewhere i => exact i.elim
  | call e c call =>
    simp only [Microhttpd.Site.flat, site, iteratePost_eq]
    split_ifs
    · exact h
    · exact sound_storeField h call
  | reply c method a =>
    have hrule : ((w.rule w.slot).world).Sound := by
      obtain ⟨hidx, hold⟩ := idx_rule w w.slot
      exact ⟨hidx ▸ h.idx, fun h0 => hold.trans (h.first (hidx ▸ h0)),
        (table_rule h.devsize w.slot).1⟩
    cases method with
    | get => exact h
    | post => exact sound_advance hrule
    | other => exact sound_advance hrule

theorem uses_reply {w : World} (h : w.Sound) :
    (∀ o ∈ .rePost w.idx.toNat :: (w.rule w.slot).uses ++
      (w.rule w.slot).command.toList.map fun c => .str22 (c.text.length + 1), Out.InArray o) ↔
      (w.slot.registration ≠ none → w.findDev w.slot.id = none → w.devsize.toNat < devSize) := by
  have hslot : Out.InArray (.rePost w.idx.toNat) := ⟨by omega, by have := h.idx; omega⟩
  have htext : ∀ o ∈ (w.rule w.slot).command.toList.map fun c => Out.str22 (c.text.length + 1),
      o.InArray := by
    rw [List.forall_mem_map]
    exact fun c _ => length_text c
  rw [List.forall_mem_append, List.forall_mem_cons, ← uses_rule h]
  exact ⟨fun h => h.1.2, fun h => ⟨⟨hslot, h⟩, htext⟩⟩

theorem uses_step {w : World} (h : w.Sound) (a : Action) :
    (∀ o ∈ (site.flat.step w a).2, o.InArray) ↔ w.Harmless a := by
  cases a with
  | elsewhere i => exact i.elim
  | call e c call =>
    simp only [Microhttpd.Site.flat, site, iteratePost_eq, World.Harmless]
    split_ifs with hdata
    · have hshort : (cstr call.data).length < typeSize := by
        rw [hdata]
        decide
      simp [hshort]
    · exact uses_storeField h call
  | reply c method a =>
    have huses := uses_reply h
    cases method with
    | get => simp [Microhttpd.Site.flat, site, World.reply, World.Harmless]
    | post => exact huses.trans (by simp [World.Harmless])
    | other => exact huses.trans (by simp [World.Harmless])

/-- In every run, all stores and look-ups are inside the arrays exactly if no type that
`iterate_post` is handed is a string of twenty bytes or more, and no new device is registered with
a full table. -/
theorem stays_in_arrays_iff (request : ConnId → Request) (xs : List Event) :
    (∀ o ∈ ((site.daemon request).outputs (.idle Unit World.initial) xs).filterMap
        Microhttpd.Output.out?, o.InArray) ↔
      site.flat.Along World.Harmless World.initial
        (site.trace request (.idle Unit World.initial) xs) := by
  rw [(Microhttpd.run_flat _ xs).2]
  exact site.flat.forall_outputs_iff (fun w a h => sound_step h a) (fun w a h => uses_step h a)
    ⟨by decide, fun _ => rfl, by decide⟩ _

end IdolGateway.HttpServer
