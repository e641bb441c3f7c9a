import IdolGateway.Library.Refinement
import IdolGateway.ZbClient.ReceiverSoundness

namespace IdolGateway.ZbClient

variable {ε κ δ : Type*}

/-- `thread()`, with what a byte brings along for the frame that it may complete. -/
def lineThread (toInput : ε → RxCall → κ) : Transducer (Option Receiver) (UInt8 × ε) κ where
  step t b := ((thread.step t b.1).1, (calls (thread.step t b.1).2).map (toInput b.2))

/-- The bytes that come over the line, whatever happens between them. -/
def serialBytes (xs : List ((UInt8 × ε) ⊕ δ)) : List UInt8 :=
  (xs.filterMap Sum.getLeft?).map Prod.fst

section

variable {toInput : ε → RxCall → κ} {args? : κ → Option (List UInt8 × ℕ)}
  (hcall : ∀ e c, args? (toInput e c) = some c.args)

include hcall

theorem args_lineThread (t : Option Receiver) (bs : List (UInt8 × ε)) :
    ((lineThread toInput).outputs t bs).filterMap args? =
      (calls (thread.outputs t (bs.map Prod.fst))).map RxCall.args := by
  induction bs generalizing t with
  | nil => rfl
  | cons b bs ih =>
    have hstep : ∀ cs : List RxCall,
        (cs.map (toInput b.2)).filterMap args? = cs.map RxCall.args := by
      intro cs
      rw [List.filterMap_map, ← List.filterMap_eq_map]
      exact List.filterMap_congr fun c _ => hcall b.2 c
    rw [Transducer.outputs_cons, List.filterMap_append, ih, List.map_cons,
      Transducer.outputs_cons, calls_append, List.map_append]
    exact congrArg (· ++ _) (hstep _)

variable {g : δ → κ} (hother : ∀ d, args? (g d) = none)

include hother

/-- The frames that are handled stand in the stream of bytes, disjoint and in order. -/
theorem merged_pieces (xs : List ((UInt8 × ε) ⊕ δ))
    (hlen : thread.Along (LenByteIn 2 198) (some Receiver.initial) (serialBytes xs)) :
    ∃ ps rest, serialBytes xs = pieces ps ++ rest ∧
      (((lineThread toInput).merge g).outputs (some Receiver.initial) xs).filterMap args? =
        ps.map fun p => delivered p.2.payload := by
  obtain ⟨t, ps, gap, pend, -, -, -, hbytes, hcalls⟩ := parsed (serialBytes xs) hlen
  refine ⟨ps, gap ++ pend, by rw [hbytes, List.append_assoc], ?_⟩
  rw [Transducer.outputs_merge_left _ _ _ hother, args_lineThread hcall]
  exact hcalls

/-- Where there are only frames on the line, each is handled, once. -/
theorem merged_frames (xs : List ((UInt8 × ε) ⊕ δ)) {fs : List Frame}
    (hbytes : serialBytes xs = fs.flatMap Frame.bytes) :
    (((lineThread toInput).merge g).outputs (some Receiver.initial) xs).filterMap args? =
      fs.map fun f => delivered f.payload := by
  obtain ⟨t, -, -, hcalls⟩ := after_frames Receiver.initial rfl fs
  rw [Transducer.outputs_merge_left _ _ _ hother, args_lineThread hcall]
  exact (congrArg (fun bs => (threadCalls Receiver.initial bs).map RxCall.args) hbytes).trans hcalls

end

end IdolGateway.ZbClient
