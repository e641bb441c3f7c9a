import IdolGateway.Microhttpd.FirstPiece

namespace IdolGateway.Microhttpd

open UrlForm

def callOf (f : Field) : Call := ⟨f.key, f.value, 0⟩

/-- The key fits the buffer, and the value is one piece. -/
structure Whole (f : Field) : Prop where
  key : (encode f.key).length ≤ bufferSize
  value : (encode f.value).length ≤ xbufSize
  nonempty : f.value ≠ []

instance (f : Field) : Decidable (Whole f) :=
  decidable_of_iff ((encode f.key).length ≤ bufferSize ∧ (encode f.value).length ≤ xbufSize ∧
    f.value ≠ []) ⟨fun h => ⟨h.1, h.2.1, h.2.2⟩, fun h => ⟨h.key, h.value, h.nonempty⟩⟩

def behindValue : List Field → List UInt8
  | [] => []
  | f :: fs => amper :: formText (f :: fs)

theorem formText_cons (f : Field) (fs : List Field) :
    formText (f :: fs) = encode f.key ++ equals :: (encode f.value ++ behindValue fs) := by
  cases fs with
  | nil => rw [behindValue, List.append_nil]; rfl
  | cons g fs => simp [formText, behindValue, Field.text]

theorem round_whole {f : Field} (h : Whole f) {rest : List UInt8}
    (hrest : ∀ b ∈ rest.head?, EndsValue b) :
    PostProcessor.round ⟨.ppProcessValue, [], f.key, [], 0⟩ (encode f.value ++ rest) =
      .call (callOf f) ⟨.ppError, [], f.key, [], 0⟩
        (PostProcessor.endValue ⟨.ppProcessValue, [], f.key, [], f.value.length⟩
          (rest ≠ []) rest).1
        (PostProcessor.endValue ⟨.ppProcessValue, [], f.key, [], f.value.length⟩
          (rest ≠ []) rest).2 := by
  have hne : ∀ b ∈ encode f.value, decide (¬ EndsValue b) = true :=
    fun b hb => decide_eq_true (encode_range f.value b hb).1
  have hstop : (rest.take (xbufSize - (encode f.value).length)).takeWhile
      (fun b => ¬ EndsValue b) = [] := by
    cases rest with
    | nil => simp
    | cons b rest =>
      have hb := hrest b rfl
      cases xbufSize - (encode f.value).length with
      | zero => rfl
      | succ k => simp [hb]
  have hamper : (((encode f.value ++ rest).take xbufSize).takeWhile
      fun b => ¬ EndsValue b) = encode f.value := by
    rw [List.take_append, List.take_of_length_le h.value, List.takeWhile_append_of_pos hne, hstop,
      List.append_nil]
  have hfound : (((encode f.value ++ rest)[(encode f.value).length]?).any
      fun b => EndsValue b) = decide (rest ≠ []) := by
    rw [List.getElem?_append_right le_rfl, Nat.sub_self]
    cases rest with
    | nil => rfl
    | cons b rest => simp [hrest b rfl]
  have hkept : kept (encode f.value) = 0 := by
    simpa using kept_spells (spells_encode reader_undoes f.value) .nil
  unfold PostProcessor.round PostProcessor.valueRound
  dsimp only
  rw [hamper, hfound, List.length_nil, Nat.sub_zero, min_eq_left h.value, List.take_left,
    List.drop_left, List.nil_append, hkept, Nat.sub_zero, List.drop_length, List.take_length,
    unescaped_spells (spells_encode reader_undoes f.value),
    if_neg fun hnil => encode_ne_nil h.nonempty hnil.1, Nat.zero_add]
  rfl

/-- One field after another: two rounds each. -/
theorem loop_form {verdict : Call → MhdResult} (hyes : ∀ c : Call, c.data ≠ [] → verdict c = .yes)
    {fs : List Field} (hfs : ∀ f ∈ fs, Whole f) {fuel : ℕ} (hfuel : 2 * (formText fs).length < fuel)
    (key : List UInt8) (off : ℕ) :
    (processLoop (listen verdict) fuel ⟨.ppInit, [], key, [], off⟩ (formText fs) ()).out =
      fs.map callOf := by
  induction fs generalizing fuel key off with
  | nil =>
    obtain ⟨k, rfl⟩ : ∃ k, fuel = k + 1 := ⟨fuel - 1, by omega⟩
    rfl
  | cons f fs ih =>
    rw [List.forall_mem_cons] at hfs
    have htext := formText_cons f fs
    have hlen := congrArg List.length htext
    simp only [List.length_append, List.length_cons] at hlen
    obtain ⟨k, rfl⟩ : ∃ k, fuel = k + 1 + 1 := ⟨fuel - 2, by omega⟩
    have hhead : ∀ b ∈ (behindValue fs).head?, EndsValue b := by
      intro b hb
      cases fs with
      | nil => exact absurd hb (by simp [behindValue])
      | cons g fs =>
        obtain rfl : amper = b := by simpa [behindValue] using hb
        exact Or.inl rfl
    have hvalue : encode f.value ++ behindValue fs ≠ [] := by
      simp [encode_ne_nil hfs.1.nonempty]
    rw [htext, processLoop, if_neg (by simp), round_key hfs.1.key]
    dsimp only
    rw [processLoop, if_neg hvalue, round_whole hfs.1 hhead]
    simp only [listen, hyes (callOf f) hfs.1.nonempty, List.map_cons, List.singleton_append]
    refine congrArg _ ?_
    cases fs with
    | nil =>
      -- the value stays open, and there is nothing left to read
      cases k with
      | zero => rfl
      | succ k => rfl
    | cons g fs =>
      rw [behindValue, List.length_cons] at hlen
      exact ih hfs.2 (by omega) f.key f.value.length

/-- Field by field, in order. -/
theorem calls_whole_form {verdict : Call → MhdResult}
    (hyes : ∀ c : Call, c.data ≠ [] → verdict c = .yes) {fs : List Field}
    (hfs : ∀ f ∈ fs, Whole f) :
    (postProcess (listen verdict) .create (formText fs) ()).out = fs.map callOf := by
  by_cases hnil : formText fs = []
  · cases fs with
    | nil => rfl
    | cons f fs => exact absurd hnil (by simp [formText_cons])
  · rw [postProcess, if_neg hnil]
    exact loop_form hyes hfs (by unfold loopBudget; omega) [] 0

end IdolGateway.Microhttpd
