import Mathlib.Data.String.Basic
import IdolGateway.ZbClient.JsonText

namespace IdolGateway.ZbClient

mutual

/-- The values whose spaced text is read back: keys and strings have no control characters,
and numbers no fraction. -/
def Json.Readable : Json → Prop
  | .null => True
  | .boolean _ => True
  | .int _ => True
  | .double _ => False
  | .string none => False
  | .string (some s) => ∀ c ∈ s.toList, 32 ≤ c.toNat
  | .array items => Json.ReadableItems items
  | .object members => Json.ReadableMembers members

def Json.ReadableItems : List Json → Prop
  | [] => True
  | x :: xs => x.Readable ∧ Json.ReadableItems xs

def Json.ReadableMembers : List (String × Json) → Prop
  | [] => True
  | (key, x) :: members =>
    (∀ c ∈ key.toList, JsonText.Plain c) ∧ x.Readable ∧ Json.ReadableMembers members

end

theorem readableItems_iff (xs : List Json) : Json.ReadableItems xs ↔ ∀ x ∈ xs, x.Readable := by
  induction xs with
  | nil => simp [Json.ReadableItems]
  | cons x xs ih => simp [Json.ReadableItems, ih]

namespace JsonText

theorem spellsChars_escaped {cs : List Char} (h : ∀ c ∈ cs, 32 ≤ c.toNat) :
    SpellsChars (cs.flatMap (fun c => (escapeChar c).toList) ++ ['"']) cs := by
  induction cs with
  | nil => exact spellsChars_nil
  | cons c cs ih =>
    have hrest := ih fun c' hc' => h c' (List.mem_cons_of_mem c hc')
    rw [List.flatMap_cons, List.append_assoc]
    by_cases hc : c = '"' ∨ c = '\\' ∨ c = '/'
    · have htext : (escapeChar c).toList = ['\\', c] := by
        rcases hc with rfl | rfl | rfl <;> rfl
      rw [htext]
      exact hrest.escaped hc
    · simp only [not_or] at hc
      obtain ⟨h1, h2, h3⟩ := hc
      have htext : (escapeChar c).toList = [c] := by simp [escapeChar, h1, h2, h3]
      rw [htext]
      exact hrest.plain ⟨h1, h2, h c List.mem_cons_self⟩

mutual

theorem spells_spaced : ∀ x : Json, x.Readable → Spells x.spaced.toList x
  | .null, _ => by simpa [Json.spaced] using spells_null
  | .boolean true, _ => by simpa [Json.spaced] using spells_true
  | .boolean false, _ => by simpa [Json.spaced] using spells_false
  | .int n, _ => spells_int n
  | .string (some s), h => by
    have hchars := spells_string (spellsChars_escaped h)
    rw [String.ofList_toList] at hchars
    simpa [Json.spaced, String.toList_join, List.flatMap_def, Function.comp_def] using hchars
  | .array [], _ => spells_empty_array blank_space
  | .array (x :: xs), h => by
    have hitems := spells_spacedItems xs h.2 x x.spaced.toList (spells_spaced x h.1)
    simpa [Json.spaced, Json.spacedItems] using (hitems.skip blank_space).array
  | .object [], _ => spells_empty_object blank_space
  | .object ((key, x) :: members), h => by
    have hmembers := spells_spacedMembers members h.2.2 key h.1 x x.spaced.toList
      (spells_spaced x h.2.1)
    simpa [Json.spaced, Json.spacedMembers] using (hmembers.skip blank_space).object

theorem spells_spacedItems : ∀ xs : List Json, Json.ReadableItems xs → ∀ x t, Spells t x →
    SpellsItems (t ++ (Json.spacedItems "," xs).toList ++ [' ', ']']) (x :: xs)
  | [], _, x, t, hx => by
    simpa [Json.spacedItems] using SpellsItems.last hx blank_space
  | y :: ys, h, x, t, hx => by
    have hys := spells_spacedItems ys h.2 y y.spaced.toList (spells_spaced y h.1)
    simpa [Json.spacedItems] using SpellsItems.cons hx blank_nil (hys.skip blank_space)

theorem spells_spacedMembers : ∀ members : List (String × Json), Json.ReadableMembers members →
    ∀ (key : String), (∀ c ∈ key.toList, Plain c) → ∀ x t, Spells t x →
      SpellsMembers ('"' :: key.toList ++ '"' :: ':' :: ' ' :: t ++
        (Json.spacedMembers "," members).toList ++ [' ', '\x7d']) ((key, x) :: members)
  | [], _, key, hkey, x, t, hx => by
    have hlast := SpellsMembers.last (spellsChars_of_plain hkey) (hx.skip blank_space) blank_space
    rw [String.ofList_toList] at hlast
    simpa [Json.spacedMembers] using hlast
  | (key', y) :: members, h, key, hkey, x, t, hx => by
    have hmembers := spells_spacedMembers members h.2.2 key' h.1 y y.spaced.toList
      (spells_spaced y h.2.1)
    have hcons := SpellsMembers.cons (spellsChars_of_plain hkey) (hx.skip blank_space) blank_nil
      (hmembers.skip blank_space)
    rw [String.ofList_toList] at hcons
    simpa [Json.spacedMembers] using hcons

end

end JsonText

end IdolGateway.ZbClient
