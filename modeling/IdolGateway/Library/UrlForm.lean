import IdolGateway.Library.Transducer
import Mathlib.Data.UInt
import Mathlib.Tactic.IntervalCases

/-!
# Url-encoded forms

A form is a list of fields; on the wire it is a text `key=value&key=value…` in which a
percent sign and two more bytes stand for a byte.  The reader of this module takes one byte
at a time, so that what it makes of a text does not depend on how the text is cut.  How a
plain byte, an escape and a whole key are read is left to a `Reader`.
-/

namespace IdolGateway.UrlForm

structure Field where
  key : List UInt8
  value : List UInt8
  deriving DecidableEq

/-- What a reader makes of a plain byte of a value, of the two bytes behind a percent sign,
and of a key; a longer key than `keyMax` ends the reading. -/
structure Reader where
  plain : UInt8 → UInt8
  escape : UInt8 → UInt8 → List UInt8
  readKey : List UInt8 → List UInt8
  keyMax : ℕ

def equals : UInt8 := 0x3d

def amper : UInt8 := 0x26

def percent : UInt8 := 0x25

/-- The bytes at which a value ends. -/
def EndsValue (b : UInt8) : Prop := b = amper ∨ b = 0x0a ∨ b = 0x0d

instance (b : UInt8) : Decidable (EndsValue b) := inferInstanceAs (Decidable (_ ∨ _ ∨ _))

/-- Inside a key; inside a value, of which `data` is read and `pending` is the beginning of an
escape; or behind the end of the form. -/
inductive Mode
  | key (raw : List UInt8)
  | value (key data pending : List UInt8)
  | stopped
  deriving DecidableEq

namespace Reader

variable (r : Reader)

def grow (data pending : List UInt8) (b : UInt8) : List UInt8 × List UInt8 :=
  match pending with
  | [] => if b = percent then (data, [b]) else (data ++ [r.plain b], [])
  | [p] => (data, [p, b])
  | _ :: c :: _ => (data ++ r.escape c b, [])

/-- The automaton; a field comes out when its value ends. -/
def form : Transducer Mode UInt8 Field where
  step
    | .key raw, b =>
      if b = equals then (.value (r.readKey raw) [] [], [])
      else if raw.length < r.keyMax then (.key (raw ++ [b]), [])
      else (.stopped, [])
    | .value key data pending, b =>
      if b = amper then (.key [], [⟨key, data⟩])
      else if EndsValue b then (.stopped, [⟨key, data⟩])
      else (.value key (r.grow data pending b).1 (r.grow data pending b).2, [])
    | .stopped, _ => (.stopped, [])

end Reader

def Mode.rest : Mode → List Field
  | .value k data _ => [⟨k, data⟩]
  | _ => []

def Reader.fieldsOf (r : Reader) (body : List UInt8) : List Field :=
  r.form.outputs (.key []) body ++ (r.form.after (.key []) body).rest

/-- The next byte of a value is no NUL, and neither breaks off an escape nor begins one inside
another. -/
def Mode.Clean : Mode → UInt8 → Prop
  | .value _ _ pending, b => b ≠ 0 ∧ (pending ≠ [] → ¬ EndsValue b ∧ b ≠ percent)
  | _, _ => True

instance (m : Mode) (b : UInt8) : Decidable (m.Clean b) :=
  match m with
  | .key _ => isTrue trivial
  | .value _ _ pending => inferInstanceAs (Decidable (b ≠ 0 ∧ (pending ≠ [] → _)))
  | .stopped => isTrue trivial

def Reader.CleanText (r : Reader) (body : List UInt8) : Prop :=
  r.form.Along Mode.Clean (.key []) body

instance (r : Reader) (body : List UInt8) : Decidable (r.CleanText body) :=
  inferInstanceAs (Decidable (r.form.Along Mode.Clean (.key []) body))

section

variable {r : Reader}

/-- `raw` spells `out`: plain bytes and whole escapes, none of which has a percent sign or a
NUL in it. -/
inductive Spells (r : Reader) : List UInt8 → List UInt8 → Prop
  | nil : Spells r [] []
  | plain {raw out : List UInt8} {b : UInt8} (h : Spells r raw out) (hb : b ≠ percent)
    (h0 : b ≠ 0) : Spells r (raw ++ [b]) (out ++ [r.plain b])
  | escape {raw out : List UInt8} {c d : UInt8} (h : Spells r raw out) (hc : c ≠ percent)
    (hc0 : c ≠ 0) (hd : d ≠ percent) (hd0 : d ≠ 0) :
    Spells r (raw ++ [percent, c, d]) (out ++ r.escape c d)

inductive Partial : List UInt8 → Prop
  | nil : Partial []
  | one : Partial [percent]
  | two {c : UInt8} (hc : c ≠ percent) (hc0 : c ≠ 0) : Partial [percent, c]

theorem Partial.length_le {p : List UInt8} (h : Partial p) : p.length ≤ 2 := by
  cases h <;> simp

theorem Spells.append {raw raw' out out' : List UInt8} (h : Spells r raw out)
    (h' : Spells r raw' out') : Spells r (raw ++ raw') (out ++ out') := by
  induction h' with
  | nil => simpa using h
  | plain _ hb h0 ih =>
    rw [← List.append_assoc, ← List.append_assoc]
    exact ih.plain hb h0
  | escape _ hc hc0 hd hd0 ih =>
    rw [← List.append_assoc, ← List.append_assoc]
    exact ih.escape hc hc0 hd hd0

theorem Spells.zero_notMem {raw out : List UInt8} (h : Spells r raw out) : 0 ∉ raw := by
  induction h with
  | nil => exact List.not_mem_nil
  | plain _ _ h0 ih => simpa [ih] using fun h => h0 h.symm
  | escape _ _ hc0 _ hd0 ih =>
    simp only [List.mem_append, List.mem_cons, List.not_mem_nil, or_false, not_or]
    exact ⟨ih, by decide, fun h => hc0 h.symm, fun h => hd0 h.symm⟩

theorem form_value {key data pending : List UInt8} {b : UInt8} (hb : ¬ EndsValue b) :
    r.form.step (.value key data pending) b =
      (.value key (r.grow data pending b).1 (r.grow data pending b).2, []) := by
  have hamp : b ≠ amper := fun h => hb (Or.inl h)
  simp only [Reader.form, if_neg hamp, if_neg hb]

/-- Bytes of a value complete the escape that is pending, spell what they add, and leave the
beginning of an escape pending. -/
theorem form_bytes {key data pending bytes : List UInt8} (hp : Partial pending)
    (hvalue : ∀ b ∈ bytes, ¬ EndsValue b)
    (hclean : r.form.Along Mode.Clean (.value key data pending) bytes) :
    ∃ raw out p, pending ++ bytes = raw ++ p ∧ Spells r raw out ∧ Partial p ∧
      r.form.after (.value key data pending) bytes = .value key (data ++ out) p ∧
      r.form.outputs (.value key data pending) bytes = [] := by
  induction bytes using List.reverseRecOn with
  | nil => exact ⟨[], [], pending, by simp, .nil, hp, by simp, rfl⟩
  | append_singleton bytes b ih =>
    rw [Transducer.along_append] at hclean
    obtain ⟨raw, out, p, heq, hraw, hpart, hafter, hout⟩ :=
      ih (fun c hc => hvalue c (List.mem_append_left _ hc)) hclean.1
    have hb : ¬ EndsValue b := hvalue b (by simp)
    have hnext := hclean.2.1
    rw [hafter] at hnext
    have hstep : r.form.step (.value key (data ++ out) p) b = _ := form_value hb
    rw [Transducer.after_append_singleton, Transducer.outputs_append, hout, hafter,
      Transducer.outputs_cons, Transducer.outputs_nil, hstep, ← List.append_assoc, heq]
    cases hpart with
    | nil =>
      by_cases hpc : b = percent
      · exact ⟨raw, out, [percent], by simp [hpc], hraw, .one, by simp [Reader.grow, hpc], rfl⟩
      · exact ⟨raw ++ [b], out ++ [r.plain b], [], by simp, hraw.plain hpc hnext.1, .nil,
          by simp [Reader.grow, hpc], rfl⟩
    | one =>
      exact ⟨raw, out, [percent, b], by simp, hraw, .two (hnext.2 (by simp)).2 hnext.1,
        by simp [Reader.grow], rfl⟩
    | two hc hc0 =>
      rename_i c
      exact ⟨raw ++ [percent, c, b], out ++ r.escape c b, [], by simp,
        hraw.escape hc hc0 (hnext.2 (by simp)).2 hnext.1, .nil, by simp [Reader.grow], rfl⟩

@[simp] theorem form_stopped (bytes : List UInt8) :
    r.form.after .stopped bytes = .stopped ∧ r.form.outputs .stopped bytes = [] := by
  induction bytes with
  | nil => exact ⟨rfl, rfl⟩
  | cons b bytes ih => exact ih

theorem form_key_clean {raw bytes : List UInt8} (hbytes : equals ∉ bytes) :
    r.form.Along Mode.Clean (.key raw) bytes := by
  have hstopped : ∀ bytes, r.form.Along Mode.Clean .stopped bytes := by
    intro bytes
    induction bytes with
    | nil => trivial
    | cons b bytes ih => exact ⟨trivial, ih⟩
  induction bytes generalizing raw with
  | nil => trivial
  | cons b bytes ih =>
    simp only [List.mem_cons, not_or] at hbytes
    have hb : b ≠ equals := fun h => hbytes.1 h.symm
    refine ⟨trivial, ?_⟩
    by_cases hroom : raw.length < r.keyMax
    · simp only [Reader.form, if_neg hb, if_pos hroom]
      exact ih hbytes.2
    · simp only [Reader.form, if_neg hb, if_neg hroom]
      exact hstopped bytes

theorem form_key {raw bytes : List UInt8} (hbytes : equals ∉ bytes) :
    r.form.outputs (.key raw) bytes = [] ∧
      r.form.after (.key raw) bytes =
        if raw.length + bytes.length ≤ max r.keyMax raw.length then .key (raw ++ bytes)
        else .stopped := by
  induction bytes generalizing raw with
  | nil => simp
  | cons b bytes ih =>
    simp only [List.mem_cons, not_or] at hbytes
    have hb : b ≠ equals := fun h => hbytes.1 h.symm
    by_cases hroom : raw.length < r.keyMax
    · have hstep : r.form.step (.key raw) b = (.key (raw ++ [b]), []) := by
        simp only [Reader.form, if_neg hb, if_pos hroom]
      obtain ⟨hout, hafter⟩ := @ih (raw ++ [b]) hbytes.2
      rw [Transducer.outputs_cons, Transducer.after_cons, hstep, hout, hafter]
      refine ⟨rfl, ?_⟩
      simp only [List.length_append, List.length_cons, List.length_nil, List.append_assoc,
        List.singleton_append]
      split_ifs with h h' h'
      · rfl
      · omega
      · omega
      · rfl
    · have hstep : r.form.step (.key raw) b = (.stopped, []) := by
        simp only [Reader.form, if_neg hb, if_neg hroom]
      rw [Transducer.outputs_cons, Transducer.after_cons, hstep, if_neg]
      · simp
      · simp only [List.length_cons]
        omega

end

/-- Letters, digits and four signs stand for themselves. -/
def Unreserved (b : UInt8) : Prop :=
  (0x30 ≤ b ∧ b ≤ 0x39) ∨ (0x41 ≤ b ∧ b ≤ 0x5a) ∨ (0x61 ≤ b ∧ b ≤ 0x7a) ∨
    b = 0x2d ∨ b = 0x2e ∨ b = 0x5f ∨ b = 0x7e

instance (b : UInt8) : Decidable (Unreserved b) :=
  inferInstanceAs (Decidable (_ ∨ _ ∨ _ ∨ _ ∨ _ ∨ _ ∨ _))

def hexDigit (n : ℕ) : UInt8 := UInt8.ofNat (if n < 10 then 0x30 + n else 0x37 + n)

def encodeByte (b : UInt8) : List UInt8 :=
  if b = 0x20 then [0x2b]
  else if Unreserved b then [b]
  else [percent, hexDigit (b.toNat / 16), hexDigit (b.toNat % 16)]

def encode (text : List UInt8) : List UInt8 := text.flatMap encodeByte

def Field.text (f : Field) : List UInt8 := encode f.key ++ equals :: encode f.value

def formText : List Field → List UInt8
  | [] => []
  | [f] => f.text
  | f :: fs => f.text ++ amper :: formText fs

structure Reader.Undoes (r : Reader) : Prop where
  plain_plus : r.plain 0x2b = 0x20
  plain_self : ∀ b, Unreserved b → r.plain b = b
  escape_hex : ∀ b : UInt8, r.escape (hexDigit (b.toNat / 16)) (hexDigit (b.toNat % 16)) = [b]
  readKey_spells : ∀ raw out, Spells r raw out → r.readKey raw = out

section

variable {r : Reader}

/-- Bytes that spell a value are read as such, and are clean. -/
theorem form_spelled {raw out : List UInt8} (h : Spells r raw out)
    (hvalue : ∀ b ∈ raw, ¬ EndsValue b) (key data : List UInt8) :
    r.form.after (.value key data []) raw = .value key (data ++ out) [] ∧
      r.form.outputs (.value key data []) raw = [] ∧
      r.form.Along Mode.Clean (.value key data []) raw := by
  induction h with
  | nil => exact ⟨by simp, rfl, trivial⟩
  | @plain raw out b _ hb h0 ih =>
    obtain ⟨hafter, hout, hclean⟩ := ih fun c hc => hvalue c (List.mem_append_left _ hc)
    have hstep : r.form.step (.value key (data ++ out) []) b = _ :=
      form_value (hvalue b (by simp))
    simp only [Reader.grow, if_neg hb] at hstep
    rw [Transducer.after_append_singleton, Transducer.outputs_append, Transducer.along_append,
      hafter, hout, Transducer.outputs_cons, hstep]
    exact ⟨by simp, rfl, hclean, ⟨h0, fun h => absurd rfl h⟩, trivial⟩
  | @escape raw out c d _ hc hc0 hd hd0 ih =>
    obtain ⟨hafter, hout, hclean⟩ := ih fun c hc => hvalue c (List.mem_append_left _ hc)
    have hp : r.form.step (.value key (data ++ out) []) percent = _ :=
      form_value (hvalue percent (by simp))
    have hcstep : r.form.step (.value key (data ++ out) [percent]) c = _ :=
      form_value (hvalue c (by simp))
    have hdstep : r.form.step (.value key (data ++ out) [percent, c]) d = _ :=
      form_value (hvalue d (by simp))
    simp only [Reader.grow, if_true] at hp hcstep hdstep
    have hends := hvalue c (by simp)
    have hends' := hvalue d (by simp)
    rw [Transducer.after_append, Transducer.outputs_append, Transducer.along_append, hafter, hout]
    simp only [Transducer.after_cons, Transducer.outputs_cons, Transducer.along_cons, hp, hcstep,
      hdstep, Transducer.after_nil, Transducer.outputs_nil, Transducer.along_nil]
    refine ⟨by simp, rfl, hclean, ⟨by decide, fun h => absurd rfl h⟩,
      ⟨hc0, fun _ => ⟨hends, hc⟩⟩, ⟨hd0, fun _ => ⟨hends', hd⟩⟩, trivial⟩

theorem hexDigit_range {n : ℕ} (hn : n < 16) :
    hexDigit n ≠ percent ∧ hexDigit n ≠ 0 ∧ ¬ EndsValue (hexDigit n) ∧ hexDigit n ≠ equals := by
  interval_cases n <;> decide

theorem unreserved_range {b : UInt8} (h : Unreserved b) :
    b ≠ percent ∧ b ≠ 0 ∧ ¬ EndsValue b ∧ b ≠ equals := by
  refine ⟨?_, ?_, ?_, ?_⟩
  · rintro rfl
    revert h
    decide
  · rintro rfl
    revert h
    decide
  · rintro (rfl | rfl | rfl) <;> (revert h; decide)
  · rintro rfl
    revert h
    decide

theorem encodeByte_range (b : UInt8) : ∀ c ∈ encodeByte b, ¬ EndsValue c ∧ c ≠ equals := by
  have hhi : b.toNat / 16 < 16 := by
    have := b.toNat_lt
    omega
  have hlo : b.toNat % 16 < 16 := Nat.mod_lt _ (by decide)
  unfold encodeByte
  split_ifs with hspace hun
  · simp only [List.mem_singleton, forall_eq]
    decide
  · simp only [List.mem_singleton, forall_eq]
    exact (unreserved_range hun).2.2
  · simp only [List.mem_cons, List.not_mem_nil, or_false, forall_eq_or_imp, forall_eq]
    exact ⟨by decide, (hexDigit_range hhi).2.2, (hexDigit_range hlo).2.2⟩

theorem encode_range (text : List UInt8) : ∀ c ∈ encode text, ¬ EndsValue c ∧ c ≠ equals := by
  intro c hc
  obtain ⟨b, -, hb⟩ := List.mem_flatMap.mp hc
  exact encodeByte_range b c hb

theorem spells_encode (h : r.Undoes) (text : List UInt8) : Spells r (encode text) text := by
  have hbyte : ∀ b, Spells r (encodeByte b) [b] := by
    intro b
    have hhi : b.toNat / 16 < 16 := by
      have := b.toNat_lt
      omega
    have hlo : b.toNat % 16 < 16 := Nat.mod_lt _ (by decide)
    unfold encodeByte
    split_ifs with hspace hun
    · rw [hspace, ← h.plain_plus]
      exact Spells.nil.plain (by decide) (by decide)
    · have := Spells.nil.plain (r := r) (unreserved_range hun).1 (unreserved_range hun).2.1
      rwa [h.plain_self b hun] at this
    · have := Spells.nil.escape (r := r) (hexDigit_range hhi).1 (hexDigit_range hhi).2.1
        (hexDigit_range hlo).1 (hexDigit_range hlo).2.1
      rwa [h.escape_hex] at this
  induction text with
  | nil => exact .nil
  | cons b text ih => exact (hbyte b).append ih

/-- A written field is read up to the end of its value. -/
theorem form_field (h : r.Undoes) {f : Field} (hkey : (encode f.key).length ≤ r.keyMax) :
    r.form.after (.key []) f.text = .value f.key f.value [] ∧
      r.form.outputs (.key []) f.text = [] ∧ r.form.Along Mode.Clean (.key []) f.text := by
  have hne : equals ∉ encode f.key := fun hmem => (encode_range f.key _ hmem).2 rfl
  obtain ⟨hout, hafter⟩ := @form_key r [] _ hne
  rw [List.length_nil, Nat.zero_add, max_eq_left (Nat.zero_le _), if_pos hkey,
    List.nil_append] at hafter
  have hstep : r.form.step (.key (encode f.key)) equals = (.value f.key [] [], []) := by
    simp only [Reader.form, if_true, h.readKey_spells _ _ (spells_encode h f.key)]
  obtain ⟨hafter', hout', hclean'⟩ := form_spelled (spells_encode h f.value)
    (fun b hb => (encode_range f.value b hb).1) f.key []
  have hclean : r.form.Along Mode.Clean (.key []) (encode f.key) := form_key_clean hne
  unfold Field.text
  rw [Transducer.after_append, Transducer.outputs_append, Transducer.along_append, hafter, hout,
    Transducer.after_cons, Transducer.outputs_cons, Transducer.along_cons, hstep, hafter', hout']
  exact ⟨rfl, rfl, hclean, trivial, hclean'⟩

theorem form_goes_on {key data pending bytes : List UInt8}
    (hout : r.form.outputs (.value key data pending) bytes = []) :
    ∃ data' pending', r.form.after (.value key data pending) bytes = .value key data' pending' ∧
      data <+: data' := by
  induction bytes generalizing data pending with
  | nil => exact ⟨data, pending, rfl, List.prefix_refl data⟩
  | cons b bytes ih =>
    rw [Transducer.outputs_cons] at hout
    obtain ⟨hfirst, hrest⟩ := List.append_eq_nil_iff.mp hout
    have hb : ¬ EndsValue b := by
      intro hb
      by_cases hamp : b = amper
      · simp [Reader.form, hamp] at hfirst
      · simp [Reader.form, hamp, hb] at hfirst
    rw [form_value hb] at hrest
    rw [Transducer.after_cons, form_value hb]
    obtain ⟨data', pending', hafter, hpre⟩ := ih hrest
    refine ⟨data', pending', hafter, List.IsPrefix.trans ?_ hpre⟩
    unfold Reader.grow
    split
    · split_ifs
      · exact List.prefix_refl data
      · exact List.prefix_append _ _
    · exact List.prefix_refl data
    · exact List.prefix_append _ _

/-- Of the beginning of a written field at most the beginning of its value is read. -/
theorem fieldsOf_begun (h : r.Undoes) {f : Field} (hkey : (encode f.key).length ≤ r.keyMax)
    {body : List UInt8} (hbody : body <+: f.text) :
    r.CleanText body ∧ (r.fieldsOf body = [] ∨
      ∃ value, value <+: f.value ∧ r.fieldsOf body = [⟨f.key, value⟩]) := by
  obtain ⟨tail, htail⟩ := hbody
  obtain ⟨hafter, hout, hclean⟩ := form_field h hkey
  rw [← htail] at hafter hout hclean
  rw [Transducer.after_append] at hafter
  rw [Transducer.outputs_append] at hout
  obtain ⟨hbegun, hrest⟩ := List.append_eq_nil_iff.mp hout
  refine ⟨((r.form.along_append _ _ body tail).mp hclean).1, ?_⟩
  unfold Reader.fieldsOf
  rw [hbegun, List.nil_append]
  cases hm : r.form.after (.key []) body with
  | key raw => exact Or.inl rfl
  | stopped =>
    rw [hm, (form_stopped tail).1] at hafter
    cases hafter
  | value key data pending =>
    rw [hm] at hafter hrest
    obtain ⟨data', pending', hend, hpre⟩ := form_goes_on hrest
    rw [hafter] at hend
    cases hend
    exact Or.inr ⟨data, hpre, rfl⟩

/-- What is written is clean, and is read as it was. -/
theorem formText_read (h : r.Undoes) {fs : List Field}
    (hkeys : ∀ f ∈ fs, (encode f.key).length ≤ r.keyMax) :
    r.CleanText (formText fs) ∧ r.fieldsOf (formText fs) = fs := by
  fun_induction formText fs with
  | case1 => exact ⟨trivial, rfl⟩
  | case2 f =>
    obtain ⟨hafter, hout, hclean⟩ := form_field h (hkeys f (by simp))
    refine ⟨hclean, ?_⟩
    rw [Reader.fieldsOf, hafter, hout]
    rfl
  | case3 f fs hne ih =>
    obtain ⟨hafter, hout, hclean⟩ := form_field h (hkeys f (by simp))
    obtain ⟨hclean', hfields⟩ := ih fun g hg => hkeys g (List.mem_cons_of_mem f hg)
    have hstep : r.form.step (.value f.key f.value []) amper = (.key [], [f]) := rfl
    constructor
    · rw [Reader.CleanText, Transducer.along_append, hafter, Transducer.along_cons, hstep]
      exact ⟨hclean, ⟨by decide, fun h => absurd rfl h⟩, hclean'⟩
    · rw [Reader.fieldsOf, Transducer.outputs_append, Transducer.after_append, hafter, hout,
        Transducer.outputs_cons, Transducer.after_cons, hstep]
      rw [Reader.fieldsOf] at hfields
      rw [List.nil_append, List.singleton_append, List.cons_append, hfields]

end

end IdolGateway.UrlForm
