import Mathlib.Data.List.TakeWhile
import IdolGateway.ZbClient.Device

namespace IdolGateway.ZbClient

namespace JsonText

def IsBlank (c : Char) : Prop := c = ' ' ∨ c = '\t' ∨ c = '\n' ∨ c = '\r'

instance (c : Char) : Decidable (IsBlank c) := inferInstanceAs (Decidable (_ ∨ _))

def skipBlanks (s : List Char) : List Char := s.dropWhile fun c => IsBlank c

def hexValue (c : Char) : Option ℕ :=
  if c.isDigit then some (c.toNat - 48)
  else if 'a' ≤ c ∧ c ≤ 'f' then some (c.toNat - 87)
  else if 'A' ≤ c ∧ c ≤ 'F' then some (c.toNat - 55)
  else none

/-- The character of a `\u` escape; half a pair stands for none. -/
def unitChar (c₃ c₂ c₁ c₀ : Char) : Option Char :=
  match hexValue c₃, hexValue c₂, hexValue c₁, hexValue c₀ with
  | some h₃, some h₂, some h₁, some h₀ =>
    let n := ((h₃ * 16 + h₂) * 16 + h₁) * 16 + h₀
    if n.isValidChar then some (Char.ofNat n) else none
  | _, _, _, _ => none

def escaped (c : Char) : Option Char :=
  if c = '"' ∨ c = '\\' ∨ c = '/' then some c
  else if c = 'b' then some '\x08'
  else if c = 'f' then some '\x0c'
  else if c = 'n' then some '\n'
  else if c = 'r' then some '\r'
  else if c = 't' then some '\t'
  else none

def readChars : List Char → Option (List Char × List Char)
  | [] => none
  | '"' :: s => some ([], s)
  | '\\' :: 'u' :: c₃ :: c₂ :: c₁ :: c₀ :: s =>
    (unitChar c₃ c₂ c₁ c₀).bind fun e => (readChars s).map fun r => (e :: r.1, r.2)
  | '\\' :: c :: s => (escaped c).bind fun e => (readChars s).map fun r => (e :: r.1, r.2)
  | c :: s =>
    if c = '\\' ∨ c.toNat < 32 then none else (readChars s).map fun r => (c :: r.1, r.2)

def readDigits (s : List Char) : Option (List Char × List Char) :=
  if s.takeWhile Char.isDigit = [] then none
  else some (s.takeWhile Char.isDigit, s.dropWhile Char.isDigit)

/-- The digits before the point have no zero in front. -/
def readWhole (s : List Char) : Option (List Char × List Char) :=
  (readDigits s).bind fun r => if r.1.head? = some '0' ∧ r.1.length ≠ 1 then none else some r

def readFraction : List Char → Option (List Char × List Char)
  | '.' :: s => (readDigits s).map fun r => ('.' :: r.1, r.2)
  | s => some ([], s)

def readExponent : List Char → Option (List Char × List Char)
  | [] => some ([], [])
  | c :: s =>
    if c = 'e' ∨ c = 'E' then
      match s with
      | '+' :: s => (readDigits s).map fun r => (c :: '+' :: r.1, r.2)
      | '-' :: s => (readDigits s).map fun r => (c :: '-' :: r.1, r.2)
      | s => (readDigits s).map fun r => (c :: r.1, r.2)
    else some ([], c :: s)

def readUnsigned (sign : Bool) (s : List Char) : Option (Json × List Char) :=
  (readWhole s).bind fun whole =>
  (readFraction whole.2).bind fun fraction =>
  (readExponent fraction.2).map fun exponent =>
    let n := Nat.ofDigitChars 10 whole.1 0
    if fraction.1 = [] ∧ exponent.1 = [] then (.int (if sign then -n else n), exponent.2)
    else
      (.double (String.ofList
        ((if sign then ['-'] else []) ++ whole.1 ++ fraction.1 ++ exponent.1)), exponent.2)

def readNumber : List Char → Option (Json × List Char)
  | '-' :: s => readUnsigned true s
  | s => readUnsigned false s

def readWord (s : List Char) : Option (Json × List Char) :=
  match ['n', 'u', 'l', 'l'].isPrefixOf? s, ['t', 'r', 'u', 'e'].isPrefixOf? s,
    ['f', 'a', 'l', 's', 'e'].isPrefixOf? s with
  | some t, _, _ => some (.null, t)
  | _, some t, _ => some (.boolean true, t)
  | _, _, some t => some (.boolean false, t)
  | none, none, none => none

mutual

/-- A value and the text behind it; the text has to be no longer than the fuel. -/
def readValue : ℕ → List Char → Option (Json × List Char)
  | 0, _ => none
  | fuel + 1, s =>
    match skipBlanks s with
    | [] => none
    | c :: s =>
      if c = '\x7b' then
        match skipBlanks s with
        | '\x7d' :: s => some (.object [], s)
        | s => (readMembers fuel s).map fun r => (.object r.1, r.2)
      else if c = '[' then
        match skipBlanks s with
        | ']' :: s => some (.array [], s)
        | s => (readItems fuel s).map fun r => (.array r.1, r.2)
      else if c = '"' then
        (readChars s).map fun r => (.string (some (String.ofList r.1)), r.2)
      else (readWord (c :: s)).or (readNumber (c :: s))

def readItems : ℕ → List Char → Option (List Json × List Char)
  | 0, _ => none
  | fuel + 1, s =>
    (readValue fuel s).bind fun x =>
      match skipBlanks x.2 with
      | ',' :: s => (readItems fuel s).map fun r => (x.1 :: r.1, r.2)
      | ']' :: s => some ([x.1], s)
      | _ => none

def readMembers : ℕ → List Char → Option (List (String × Json) × List Char)
  | 0, _ => none
  | fuel + 1, s =>
    match skipBlanks s with
    | '"' :: s =>
      (readChars s).bind fun key =>
        match skipBlanks key.2 with
        | ':' :: s =>
          (readValue fuel s).bind fun x =>
            match skipBlanks x.2 with
            | ',' :: s =>
              (readMembers fuel s).map fun r => ((String.ofList key.1, x.1) :: r.1, r.2)
            | '\x7d' :: s => some ([(String.ofList key.1, x.1)], s)
            | _ => none
        | _ => none
    | _ => none

end

def Ends (rest : List Char) : Prop :=
  ∀ c ∈ rest.head?, c.isDigit = false ∧ c ≠ '.' ∧ c ≠ 'e' ∧ c ≠ 'E'

/-- The text is read as this value, and nothing behind it is touched. -/
def Spells (text : List Char) (x : Json) : Prop :=
  ∀ rest fuel, Ends rest → text.length ≤ fuel → readValue fuel (text ++ rest) = some (x, rest)

def SpellsItems (text : List Char) (xs : List Json) : Prop :=
  ∀ rest fuel, text.length ≤ fuel → readItems fuel (text ++ rest) = some (xs, rest)

def SpellsMembers (text : List Char) (members : List (String × Json)) : Prop :=
  ∀ rest fuel, text.length ≤ fuel → readMembers fuel (text ++ rest) = some (members, rest)

def SpellsChars (text cs : List Char) : Prop :=
  ∀ rest, readChars (text ++ rest) = some (cs, rest)

def Blank (s : List Char) : Prop := ∀ c ∈ s, IsBlank c

theorem blank_space : Blank [' '] := by
  intro c hc
  rw [List.mem_singleton.mp hc]
  exact Or.inl rfl

theorem blank_nil : Blank [] := fun _ h => absurd h List.not_mem_nil

section

variable {b s text : List Char}

theorem skipBlanks_append (hb : Blank b) : skipBlanks (b ++ s) = skipBlanks s := by
  unfold skipBlanks
  exact List.dropWhile_append_of_pos fun c hc => by simpa using hb c hc

theorem skipBlanks_cons {c : Char} (hc : ¬ IsBlank c) : skipBlanks (c :: s) = c :: s :=
  List.dropWhile_cons_of_neg (by simpa using hc)

theorem skipBlanks_split (s : List Char) : ∃ b, Blank b ∧ s = b ++ skipBlanks s := by
  refine ⟨s.takeWhile fun c => IsBlank c, fun c hc => ?_, List.takeWhile_append_dropWhile.symm⟩
  simpa using List.mem_takeWhile_imp hc

theorem readValue_skip (hb : Blank b) (fuel : ℕ) : readValue fuel (b ++ s) = readValue fuel s := by
  cases fuel with
  | zero => rfl
  | succ fuel => simp only [readValue, skipBlanks_append hb]

theorem readItems_skip (hb : Blank b) (fuel : ℕ) : readItems fuel (b ++ s) = readItems fuel s := by
  cases fuel with
  | zero => rfl
  | succ fuel => simp only [readItems, readValue_skip hb]

theorem readMembers_skip (hb : Blank b) (fuel : ℕ) :
    readMembers fuel (b ++ s) = readMembers fuel s := by
  cases fuel with
  | zero => rfl
  | succ fuel => simp only [readMembers, skipBlanks_append hb]

theorem readItems_skipBlanks (fuel : ℕ) : readItems fuel (skipBlanks s) = readItems fuel s := by
  obtain ⟨b, hb, hs⟩ := skipBlanks_split s
  conv_rhs => rw [hs]
  exact (readItems_skip hb fuel).symm

theorem readMembers_skipBlanks (fuel : ℕ) :
    readMembers fuel (skipBlanks s) = readMembers fuel s := by
  obtain ⟨b, hb, hs⟩ := skipBlanks_split s
  conv_rhs => rw [hs]
  exact (readMembers_skip hb fuel).symm

theorem ends_cons {c : Char} (hc : c.isDigit = false ∧ c ≠ '.' ∧ c ≠ 'e' ∧ c ≠ 'E') :
    Ends (c :: s) := by
  intro c' hc'
  rw [List.head?_cons, Option.mem_some_iff] at hc'
  rwa [← hc']

theorem ends_blank (hb : Blank b) (hs : Ends s) : Ends (b ++ s) := by
  cases b with
  | nil => exact hs
  | cons c b =>
    apply ends_cons
    rcases hb c List.mem_cons_self with rfl | rfl | rfl | rfl <;> decide

/-- A bracket or a brace that closes a container starts no value. -/
theorem readValue_close {fuel : ℕ} {c : Char} (hc : c = ']' ∨ c = '\x7d')
    (hs : skipBlanks s = c :: text) : readValue fuel s = none := by
  cases fuel with
  | zero => rfl
  | succ fuel =>
    rw [readValue, hs]
    rcases hc with rfl | rfl <;> rfl

end

theorem exists_fuel {n fuel : ℕ} (h : n + 1 ≤ fuel) : ∃ fuel', fuel = fuel' + 1 ∧ n ≤ fuel' :=
  ⟨fuel - 1, by omega, by omega⟩

section

variable {b b' t ts : List Char} {x : Json} {xs : List Json}

theorem Spells.skip (hb : Blank b) (h : Spells t x) : Spells (b ++ t) x := by
  intro rest fuel hrest hfuel
  rw [List.length_append] at hfuel
  rw [List.append_assoc, readValue_skip hb]
  exact h rest fuel hrest (by omega)

theorem SpellsItems.skip (hb : Blank b) (h : SpellsItems t xs) : SpellsItems (b ++ t) xs := by
  intro rest fuel hfuel
  rw [List.length_append] at hfuel
  rw [List.append_assoc, readItems_skip hb]
  exact h rest fuel (by omega)

theorem SpellsItems.last (h : Spells t x) (hb : Blank b) : SpellsItems (t ++ b ++ [']']) [x] := by
  intro rest fuel hfuel
  rw [List.append_assoc, List.append_assoc, List.singleton_append]
  simp only [List.length_append, List.length_singleton] at hfuel
  obtain ⟨fuel, rfl, hle⟩ := exists_fuel hfuel
  rw [readItems, h _ fuel (ends_blank hb (ends_cons (by decide))) (by omega)]
  simp only [Option.bind_some, skipBlanks_append hb, skipBlanks_cons (c := ']') (by decide)]

theorem SpellsItems.cons (h : Spells t x) (hb : Blank b) (hs : SpellsItems ts xs) :
    SpellsItems (t ++ b ++ ',' :: ts) (x :: xs) := by
  intro rest fuel hfuel
  rw [List.append_assoc, List.append_assoc, List.cons_append]
  simp only [List.length_append, List.length_cons] at hfuel
  obtain ⟨fuel, rfl, hle⟩ := exists_fuel hfuel
  rw [readItems, h _ fuel (ends_blank hb (ends_cons (by decide))) (by omega)]
  simp only [Option.bind_some, skipBlanks_append hb, skipBlanks_cons (c := ',') (by decide),
    hs rest fuel (by omega), Option.map_some]

theorem SpellsItems.not_closed (h : SpellsItems t xs) (rest s : List Char) :
    skipBlanks (t ++ rest) ≠ ']' :: s := by
  intro hclosed
  have hread := h rest (t.length + 1) (Nat.le_succ _)
  rw [readItems, readValue_close (Or.inl rfl) hclosed] at hread
  exact absurd hread (by simp)

theorem SpellsItems.array (h : SpellsItems t xs) : Spells ('[' :: t) (.array xs) := by
  intro rest fuel _ hfuel
  obtain ⟨fuel, rfl, hle⟩ := exists_fuel hfuel
  have hread := h rest fuel hle
  -- the reader looks for an empty list first: `hopen` sends it on to the items
  have hopen := h.not_closed rest
  rw [List.cons_append, readValue, skipBlanks_cons (by decide)]
  simp only [show ('[' : Char) ≠ '\x7b' by decide, if_false, if_true]
  rw [readItems_skipBlanks, hread]
  rfl

theorem spells_empty_array (hb : Blank b) : Spells ('[' :: b ++ [']']) (.array []) := by
  intro rest fuel _ hfuel
  obtain ⟨fuel, rfl, -⟩ := exists_fuel hfuel
  rw [List.cons_append, List.cons_append, List.append_assoc, readValue,
    skipBlanks_cons (by decide)]
  simp only [show ('[' : Char) ≠ '\x7b' by decide, if_false, if_true, skipBlanks_append hb,
    List.singleton_append, skipBlanks_cons (c := ']') (by decide)]

/-! Members are read as items are, behind their key. -/

theorem SpellsMembers.skip {members : List (String × Json)} (hb : Blank b)
    (h : SpellsMembers t members) : SpellsMembers (b ++ t) members := by
  intro rest fuel hfuel
  rw [List.length_append] at hfuel
  rw [List.append_assoc, readMembers_skip hb]
  exact h rest fuel (by omega)

variable {key key' : List Char} {members : List (String × Json)}

theorem SpellsMembers.last (hkey : SpellsChars key key') (h : Spells t x) (hb : Blank b) :
    SpellsMembers ('"' :: key ++ ':' :: t ++ b ++ ['\x7d']) [(String.ofList key', x)] := by
  intro rest fuel hfuel
  have htext : '"' :: key ++ ':' :: t ++ b ++ ['\x7d'] ++ rest =
      '"' :: (key ++ ':' :: (t ++ (b ++ '\x7d' :: rest))) := by simp
  simp only [List.length_append, List.length_cons] at hfuel
  obtain ⟨fuel, rfl, hle⟩ := exists_fuel hfuel
  rw [htext, readMembers, skipBlanks_cons (by decide)]
  simp only [hkey _, Option.bind_some, skipBlanks_cons (c := ':') (by decide)]
  rw [h _ fuel (ends_blank hb (ends_cons (by decide))) (by omega)]
  simp only [Option.bind_some, skipBlanks_append hb, skipBlanks_cons (c := '\x7d') (by decide)]

theorem SpellsMembers.cons (hkey : SpellsChars key key') (h : Spells t x) (hb : Blank b)
    (hs : SpellsMembers ts members) :
    SpellsMembers ('"' :: key ++ ':' :: t ++ b ++ ',' :: ts)
      ((String.ofList key', x) :: members) := by
  intro rest fuel hfuel
  have htext : '"' :: key ++ ':' :: t ++ b ++ ',' :: ts ++ rest =
      '"' :: (key ++ ':' :: (t ++ (b ++ ',' :: (ts ++ rest)))) := by simp
  simp only [List.length_append, List.length_cons] at hfuel
  obtain ⟨fuel, rfl, hle⟩ := exists_fuel hfuel
  rw [htext, readMembers, skipBlanks_cons (by decide)]
  simp only [hkey _, Option.bind_some, skipBlanks_cons (c := ':') (by decide)]
  rw [h _ fuel (ends_blank hb (ends_cons (by decide))) (by omega)]
  simp only [Option.bind_some, skipBlanks_append hb, skipBlanks_cons (c := ',') (by decide),
    hs rest fuel (by omega), Option.map_some]

theorem SpellsMembers.not_closed (h : SpellsMembers t members) (rest s : List Char) :
    skipBlanks (t ++ rest) ≠ '\x7d' :: s := by
  intro hclosed
  have hread := h rest (t.length + 1) (Nat.le_succ _)
  rw [readMembers, hclosed] at hread
  exact absurd hread (by simp)

theorem SpellsMembers.object (h : SpellsMembers t members) :
    Spells ('\x7b' :: t) (.object members) := by
  intro rest fuel _ hfuel
  obtain ⟨fuel, rfl, hle⟩ := exists_fuel hfuel
  have hread := h rest fuel hle
  have hopen := h.not_closed rest
  rw [List.cons_append, readValue, skipBlanks_cons (by decide)]
  simp only [if_true]
  rw [readMembers_skipBlanks, hread]
  rfl

theorem spells_empty_object (hb : Blank b) :
    Spells ('\x7b' :: b ++ ['\x7d']) (.object []) := by
  intro rest fuel _ hfuel
  obtain ⟨fuel, rfl, -⟩ := exists_fuel hfuel
  rw [List.cons_append, List.cons_append, List.append_assoc, readValue,
    skipBlanks_cons (by decide)]
  simp only [if_true, skipBlanks_append hb, List.singleton_append,
    skipBlanks_cons (c := '\x7d') (by decide)]

end

/-- A character that stands for itself in a string. -/
def Plain (c : Char) : Prop := c ≠ '"' ∧ c ≠ '\\' ∧ 32 ≤ c.toNat

instance (c : Char) : Decidable (Plain c) := inferInstanceAs (Decidable (_ ∧ _))

theorem plain_of_all {cs : List Char} (h : cs.all fun c => Plain c) : ∀ c ∈ cs, Plain c :=
  fun c hc => of_decide_eq_true (List.all_eq_true.mp h c hc)

theorem spellsChars_nil : SpellsChars ['"'] [] := by
  intro rest
  simp [readChars]

theorem SpellsChars.plain {c : Char} {t cs : List Char} (hc : Plain c) (h : SpellsChars t cs) :
    SpellsChars (c :: t) (c :: cs) := by
  intro rest
  obtain ⟨hquote, hslash, hctrl⟩ := hc
  rw [List.cons_append, readChars, if_neg (by simp [hslash, hctrl]), h rest]
  · rfl
  · exact hquote
  · exact fun _ _ _ _ _ h _ => hslash h
  · exact fun _ _ h _ => hslash h

theorem SpellsChars.escaped {c : Char} {t cs : List Char} (hc : c = '"' ∨ c = '\\' ∨ c = '/')
    (h : SpellsChars t cs) : SpellsChars ('\\' :: c :: t) (c :: cs) := by
  intro rest
  have hne : c ≠ 'u' := by rcases hc with rfl | rfl | rfl <;> decide
  have hescaped : JsonText.escaped c = some c := if_pos hc
  rw [List.cons_append, List.cons_append, readChars, hescaped, h rest]
  · rfl
  · exact fun _ _ _ _ _ h _ => hne h

theorem spellsChars_of_plain {cs : List Char} (h : ∀ c ∈ cs, Plain c) :
    SpellsChars (cs ++ ['"']) cs := by
  induction cs with
  | nil => exact spellsChars_nil
  | cons c cs ih =>
    exact (ih fun c' hc' => h c' (List.mem_cons_of_mem c hc')).plain (h c List.mem_cons_self)

theorem spells_string {t cs : List Char} (h : SpellsChars t cs) :
    Spells ('"' :: t) (.string (some (String.ofList cs))) := by
  intro rest fuel _ hfuel
  obtain ⟨fuel, rfl, hle⟩ := exists_fuel hfuel
  rw [List.cons_append, readValue, skipBlanks_cons (by decide)]
  simp only [show ('"' : Char) ≠ '\x7b' by decide, show ('"' : Char) ≠ '[' by decide, if_false,
    if_true, h rest, Option.map_some]

theorem spells_word {c : Char} {t : List Char} {x : Json}
    (hc : ¬ IsBlank c ∧ c ≠ '\x7b' ∧ c ≠ '[' ∧ c ≠ '"')
    (h : ∀ rest, readWord (c :: t ++ rest) = some (x, rest)) : Spells (c :: t) x := by
  intro rest fuel _ hfuel
  obtain ⟨hblank, hbrace, hbracket, hquote⟩ := hc
  have hread := h rest
  obtain ⟨fuel, rfl, hle⟩ := exists_fuel hfuel
  rw [List.cons_append] at hread ⊢
  rw [readValue, skipBlanks_cons hblank]
  simp only [if_neg hbrace, if_neg hbracket, if_neg hquote, hread, Option.some_or]

theorem spells_null : Spells ['n', 'u', 'l', 'l'] .null :=
  spells_word (by decide) fun _ => rfl

theorem spells_true : Spells ['t', 'r', 'u', 'e'] (.boolean true) :=
  spells_word (by decide) fun _ => rfl

theorem spells_false : Spells ['f', 'a', 'l', 's', 'e'] (.boolean false) :=
  spells_word (by decide) fun _ => rfl

theorem readDigits_append {ds rest : List Char} (hne : ds ≠ []) (hds : ∀ c ∈ ds, c.isDigit)
    (hrest : Ends rest) : readDigits (ds ++ rest) = some (ds, rest) := by
  have htake : rest.takeWhile Char.isDigit = [] ∧ rest.dropWhile Char.isDigit = rest := by
    cases rest with
    | nil => exact ⟨rfl, rfl⟩
    | cons c rest =>
      have hc : ¬ c.isDigit = true := by simp [(hrest c rfl).1]
      exact ⟨List.takeWhile_cons_of_neg hc, List.dropWhile_cons_of_neg hc⟩
  rw [readDigits, List.takeWhile_append_of_pos hds, List.dropWhile_append_of_pos hds, htake.1,
    htake.2, List.append_nil, if_neg hne]

/-- Decimal digits have no zero in front. -/
theorem head_toDigits (n : ℕ) (hn : 0 < n) : (Nat.toDigits 10 n).head? ≠ some '0' := by
  induction n using Nat.strong_induction_on with
  | _ n ih =>
    by_cases h : n < 10
    · have hdigit : ∀ m < 10, 0 < m → m.digitChar ≠ '0' := by decide
      rw [Nat.toDigits_of_lt_base h]
      simpa using hdigit n h hn
    · have hdiv := ih (n / 10) (by omega) (by omega)
      have hne : Nat.toDigits 10 (n / 10) ≠ [] := Nat.toDigits_ne_nil
      rw [Nat.toDigits_of_base_le (by decide) (by omega), List.head?_append_of_ne_nil _ hne]
      exact hdiv

theorem readWhole_toDigits (n : ℕ) {rest : List Char} (hrest : Ends rest) :
    readWhole (Nat.toDigits 10 n ++ rest) = some (Nat.toDigits 10 n, rest) := by
  have hdigits : ∀ c ∈ Nat.toDigits 10 n, c.isDigit := fun c hc =>
    Nat.isDigit_of_mem_toDigits (by decide) (by decide) hc
  rw [readWhole, readDigits_append Nat.toDigits_ne_nil hdigits hrest, Option.bind_some]
  rcases Nat.eq_zero_or_pos n with rfl | hn
  · rfl
  · rw [if_neg fun h => head_toDigits n hn h.1]

theorem readFraction_ends {rest : List Char} (h : Ends rest) :
    readFraction rest = some ([], rest) := by
  cases rest with
  | nil => rfl
  | cons c rest =>
    obtain ⟨-, hpoint, -⟩ := h c rfl
    simp [readFraction, hpoint]

theorem readExponent_ends {rest : List Char} (h : Ends rest) :
    readExponent rest = some ([], rest) := by
  cases rest with
  | nil => rfl
  | cons c rest =>
    obtain ⟨-, -, hsmall, hlarge⟩ := h c rfl
    unfold readExponent
    exact if_neg (by simp [hsmall, hlarge])

theorem readUnsigned_toDigits (sign : Bool) (n : ℕ) {rest : List Char} (hrest : Ends rest) :
    readUnsigned sign (Nat.toDigits 10 n ++ rest) = some (.int (if sign then -n else n), rest) := by
  simp [readUnsigned, readWhole_toDigits n hrest, readFraction_ends hrest, readExponent_ends hrest,
    Nat.ofDigitChars_ten_toDigits]

theorem spells_number {c : Char} {t : List Char} {x : Json} (hc : c = '-' ∨ c.isDigit)
    (h : ∀ rest, Ends rest → readNumber (c :: t ++ rest) = some (x, rest)) : Spells (c :: t) x := by
  have hother : ¬ IsBlank c ∧ c ≠ '\x7b' ∧ c ≠ '[' ∧ c ≠ '"' ∧ c ≠ 'n' ∧ c ≠ 't' ∧ c ≠ 'f' := by
    unfold IsBlank
    refine ⟨?_, ?_, ?_, ?_, ?_, ?_, ?_⟩
    · rintro (rfl | rfl | rfl | rfl) <;> simp at hc
    all_goals
      rintro rfl
      simp at hc
  obtain ⟨hblank, hbrace, hbracket, hquote, hn, ht, hf⟩ := hother
  intro rest fuel hrest hfuel
  have hread := h rest hrest
  have hword : readWord (c :: t ++ rest) = none := by
    simp [readWord, List.isPrefixOf?, Ne.symm hn, Ne.symm ht, Ne.symm hf]
  obtain ⟨fuel, rfl, hle⟩ := exists_fuel hfuel
  rw [List.cons_append] at hread hword ⊢
  rw [readValue, skipBlanks_cons hblank]
  simp only [if_neg hbrace, if_neg hbracket, if_neg hquote, hword, hread, Option.none_or]

theorem spells_int (n : ℤ) : Spells (toString n).toList (.int n) := by
  cases n with
  | ofNat n =>
    have htext : (toString (Int.ofNat n)).toList = Nat.toDigits 10 n := Nat.toList_repr
    obtain ⟨c, t, hct⟩ := List.exists_cons_of_ne_nil (Nat.toDigits_ne_nil (n := n) (b := 10))
    have hc : c.isDigit := Nat.isDigit_of_mem_toDigits (b := 10) (n := n) (by decide) (by decide)
      (hct ▸ List.mem_cons_self)
    have hminus : c ≠ '-' := by
      rintro rfl
      exact absurd hc (by decide)
    rw [htext, hct]
    refine spells_number (Or.inr hc) fun rest hrest => ?_
    have hread := readUnsigned_toDigits false n hrest
    rw [hct] at hread
    simpa [readNumber, hminus] using hread
  | negSucc n =>
    have htext : (toString (Int.negSucc n)).toList = '-' :: Nat.toDigits 10 (n + 1) := by
      have happend : toString (Int.negSucc n) = "-" ++ (n + 1).repr := rfl
      rw [happend, String.toList_append, Nat.toList_repr]
      rfl
    rw [htext]
    refine spells_number (Or.inl rfl) fun rest hrest => ?_
    exact (readUnsigned_toDigits true (n + 1) hrest).trans (by simp [Int.negSucc_eq])

section

variable {n : ℕ} {f : ℕ → String} {x : ℕ → Json}

theorem spells_pasted (hf : ∀ i < n, Spells (f i).toList (x i)) (m k : ℕ) (hk : k + (m + 1) = n) :
    ∃ t, ((List.range' k (m + 1)).flatMap fun i =>
        (f i).toList ++ (if i + 1 < n then "," else "]\x7d").toList) = t ++ ['\x7d'] ∧
      SpellsItems t ((List.range' k (m + 1)).map x) := by
  induction m generalizing k with
  | zero =>
    have hlast : ¬ k + 1 < n := by omega
    refine ⟨(f k).toList ++ [] ++ [']'], ?_, SpellsItems.last (hf k (by omega)) blank_nil⟩
    simp [hlast]
  | succ m ih =>
    have hmore : k + 1 < n := by omega
    obtain ⟨t, htext, hitems⟩ := ih (k + 1) (by omega)
    refine ⟨(f k).toList ++ [] ++ ',' :: t, ?_, ?_⟩
    · rw [List.range'_succ, List.flatMap_cons, htext, if_pos hmore]
      simp
    · exact SpellsItems.cons (hf k (by omega)) blank_nil hitems

theorem toList_foldl (g : ℕ → String) (s : String) (is : List ℕ) :
    (is.foldl (fun str2 i => str2 ++ g i) s).toList =
      s.toList ++ is.flatMap fun i => (g i).toList := by
  induction is generalizing s with
  | nil => simp
  | cons i is ih =>
    rw [List.foldl_cons, ih, String.toList_append, List.flatMap_cons, List.append_assoc]

/-- With at least one item the brackets are closed. -/
theorem spells_devices (hf : ∀ i < n, Spells (f i).toList (x i)) (hn : n ≠ 0) :
    Spells ((List.range n).foldl (fun str2 i => str2 ++ f i ++ if i + 1 < n then "," else "]\x7d")
        "\x7b\"devices\":[").toList
      (.object [("devices", .array ((List.range n).map x))]) := by
  obtain ⟨m, rfl⟩ := Nat.exists_eq_add_one_of_ne_zero hn
  obtain ⟨t, htext, hitems⟩ := spells_pasted hf m 0 (by omega)
  have hkey : SpellsChars ("devices".toList ++ ['"']) "devices".toList :=
    spellsChars_of_plain (plain_of_all (by decide +kernel))
  have hmembers := (SpellsMembers.last hkey hitems.array blank_nil).object
  rw [← List.range_eq_range'] at htext hmembers
  have hfold := toList_foldl (fun i => f i ++ if i + 1 < m + 1 then "," else "]\x7d")
    "\x7b\"devices\":[" (List.range (m + 1))
  simp only [String.toList_append, htext, ← String.append_assoc] at hfold
  rw [hfold]
  simpa using hmembers

end

end JsonText

/-- The value a text is the JSON text of, if it is one. -/
def parseJson (text : String) : Option Json :=
  match JsonText.readValue text.toList.length text.toList with
  | some (x, rest) => if JsonText.skipBlanks rest = [] then some x else none
  | none => none

theorem parseJson_of_spells {text : String} {x : Json} (h : JsonText.Spells text.toList x) :
    parseJson text = some x := by
  have hread := h [] text.toList.length (fun _ hc => nomatch hc) le_rfl
  rw [List.append_nil] at hread
  rw [parseJson, hread]
  rfl

end IdolGateway.ZbClient
