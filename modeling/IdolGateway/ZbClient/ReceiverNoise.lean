import IdolGateway.ZbClient.ReceiverInvariant
import IdolGateway.ZbClient.ReceiverStreams

namespace IdolGateway.ZbClient

/-- `55` is never directly followed by `AA`. -/
def NoHeader (g : List UInt8) : Prop := ¬ [0x55, 0xaa] <:+: g

/-- Length of the run of `55` at the end. -/
def trailingRun (g : List UInt8) : ℕ := (g.reverse.takeWhile (· == 0x55)).length

theorem trailingRun_append_55 (g : List UInt8) : trailingRun (g ++ [0x55]) = trailingRun g + 1 := by
  simp [trailingRun]

theorem trailingRun_append_of_ne (g : List UInt8) {x : UInt8} (hx : x ≠ 0x55) :
    trailingRun (g ++ [x]) = 0 := by
  simp [trailingRun, hx]

theorem exists_of_trailingRun_pos {g : List UInt8} (h : trailingRun g ≠ 0) :
    ∃ ys, g = ys ++ [0x55] := by
  cases g using List.reverseRecOn with
  | nil => simp [trailingRun] at h
  | append_singleton ys x =>
    by_cases hx : x = 0x55
    · exact ⟨ys, by rw [hx]⟩
    · exact absurd (trailingRun_append_of_ne ys hx) h

theorem NoHeader.of_append {g : List UInt8} {x : UInt8} (h : NoHeader (g ++ [x])) : NoHeader g :=
  fun hg => h (hg.trans (List.prefix_append g [x]).isInfix)

theorem NoHeader.ne_aa {g : List UInt8} {x : UInt8} (h : NoHeader (g ++ [x]))
    (hrun : trailingRun g ≠ 0) : x ≠ 0xaa := by
  rintro rfl
  obtain ⟨ys, rfl⟩ := exists_of_trailingRun_pos hrun
  exact h ⟨ys, [], by simp⟩

/-- Noise leaves the receiver between frames, in `AA_STATE` exactly behind an odd
run of `55`. -/
theorem after_noise (t : Receiver) (g : List UInt8) (hg : NoHeader g) :
    thread.after (some t.ready) g =
        some { t with state := if Odd (trailingRun g) then .aaState else .wwState } ∧
      threadCalls t.ready g = [] := by
  induction g using List.reverseRecOn with
  | nil => simp [Receiver.ready, trailingRun, threadCalls]
  | append_singleton g x ih =>
    obtain ⟨hafter, hcalls⟩ := ih hg.of_append
    rw [threadCalls_append _ _ _ hafter, hcalls, Transducer.after_append, hafter]
    by_cases hodd : Odd (trailingRun g)
    -- in `AA_STATE`; the byte is not `AA`, so it only ends the attempt
    · have hx := hg.ne_aa fun h0 => by simp [h0] at hodd
      by_cases h55 : x = 0x55
      · subst h55
        simp [threadCalls, Receiver.step, hodd, trailingRun_append_55, Nat.odd_add_one]
      · simp [threadCalls, Receiver.step, hodd, hx, trailingRun_append_of_ne g h55]
    · by_cases h55 : x = 0x55
      · subst h55
        simp [threadCalls, Receiver.step, hodd, trailingRun_append_55, Nat.odd_add_one]
      · simp [threadCalls, Receiver.step, hodd, h55, trailingRun_append_of_ne g h55]

/-- Behind an odd run the first byte of the frame is spent on leaving `AA_STATE`,
and what is left is too short for a call with the frame's length. -/
theorem lost_of_odd (t : Receiver) (g : List UInt8) (hg : NoHeader g) (f : Frame)
    (hodd : Odd (trailingRun g)) :
    (threadCalls t.ready (g ++ f.bytes)).map RxCall.args ≠ [delivered f.payload] := by
  intro hcalls
  obtain ⟨hafter, hnone⟩ := after_noise t g hg
  rw [if_pos hodd] at hafter
  rw [threadCalls_append _ _ _ hafter, hnone, List.nil_append] at hcalls
  set t₁ : Receiver := { t with state := .aaState }
  -- the `55` of the frame is dropped here, and its `AA` is noise
  have hback : thread.after (some t₁) [0x55] = some t.ready := rfl
  have hsplit : f.bytes = [0x55] ++ 0xaa :: (f.payload ++ [f.payload.sum]) := rfl
  rw [hsplit, threadCalls_append _ _ _ hback] at hcalls
  have hfirst : threadCalls t₁ [0x55] = [] := rfl
  rw [hfirst, List.nil_append] at hcalls
  obtain ⟨c, hc, hargs⟩ : ∃ c ∈ threadCalls t.ready (0xaa :: (f.payload ++ [f.payload.sum])),
      c.args = delivered f.payload := by
    have hmem : delivered f.payload ∈
        (threadCalls t.ready (0xaa :: (f.payload ++ [f.payload.sum]))).map RxCall.args := by
      rw [hcalls]
      exact List.mem_singleton_self _
    simpa using hmem
  have hlen := len_le_of_mem_threadCalls t.ready (by simp [Receiver.Counted, Receiver.ready]) _ c hc
  have hn : c.len.toNat = f.payload.length := congrArg Prod.snd hargs
  simp [Receiver.consumed, Receiver.ready_state, f.payload_length] at hlen hn
  omega

theorem delivered_of_even (t : Receiver) (g : List UInt8) (hg : NoHeader g) (f : Frame)
    (heven : Even (trailingRun g)) :
    (threadCalls t.ready (g ++ f.bytes)).map RxCall.args = [delivered f.payload] := by
  obtain ⟨hafter, hnone⟩ := after_noise t g hg
  rw [if_neg (Nat.not_odd_iff_even.mpr heven)] at hafter
  obtain ⟨t', -, -, hcalls⟩ := after_frame t.ready t.ready_state f
  rw [threadCalls_append _ _ _ hafter, hnone, List.nil_append, ← Receiver.ready, hcalls,
    List.map_singleton, f.args_frameBuf]

/-- Noise without a header in front of a valid frame: the frame is delivered, and
nothing else is, exactly when the noise ends in an even run of `55`. -/
theorem noise_then_frame (t : Receiver) (g : List UInt8) (hg : NoHeader g) (f : Frame) :
    (threadCalls t.ready (g ++ f.bytes)).map RxCall.args = [delivered f.payload] ↔
      Even (trailingRun g) := by
  constructor
  · intro hcalls
    by_contra hne
    exact lost_of_odd t g hg f (Nat.not_even_iff_odd.mp hne) hcalls
  · exact delivered_of_even t g hg f

theorem noise_then_frame_ping :
    (threadCalls Receiver.initial.ready ([0x55, 0x55] ++ (Message.ping 7).frame.bytes)).map
        RxCall.args = [delivered (Message.ping 7).frame.payload] ↔
      Even (trailingRun [0x55, 0x55]) :=
  noise_then_frame Receiver.initial [0x55, 0x55] (by simp [NoHeader]; decide) (Message.ping 7).frame

/-- One stray `55` in front of a ping frame loses it. -/
theorem noise_loses_frame :
    NoHeader [0x55] ∧
      threadCalls Receiver.initial.ready ([0x55] ++ (Message.ping 7).frame.bytes) = [] :=
  ⟨by simp [NoHeader]; decide, rfl⟩

end IdolGateway.ZbClient
