import IdolGateway.Library.CString
import IdolGateway.ZbClient.JsonFresh
import Mathlib.Data.List.TakeWhile

/-!
# The device list on its way to a client

`send_page` hands the daemon the address of `json_str` and the length the string has at
that moment, as memory that does not change.  The bytes are read when they are sent, and
the receiver thread writes to the same memory in between.
-/

namespace IdolGateway.ZbClient

def World.page (w : World) : CText :=
  ⟨w.jsonStr.toUTF8.data.toList.takeWhile (· ≠ 0), by
    intro h
    simpa using List.mem_takeWhile_imp h⟩

/-- The globals, the memory at `json_str`, and the lengths of the answers queued, by
request. -/
structure Site where
  world : World
  jsonStr : CString
  queued : ℕ → Option ℕ

/-- A step of the receiver or of the main loop, and the two ends of a GET request. -/
inductive SiteInput
  | gateway (x : Input)
  | get (r : ℕ)
  | transmit (r : ℕ)

structure Body where
  request : ℕ
  bytes : List UInt8
  deriving DecidableEq

/-- `MHD_create_response_from_buffer (strlen (page), page, MHD_RESPMEM_PERSISTENT)` -/
def Site.sendPage (s : Site) (r : ℕ) : Site :=
  { s with queued := Function.update s.queued r (some s.jsonStr.strlen) }

def Site.body (s : Site) (r : ℕ) : List Body :=
  match s.queued r with
  | some n => [⟨r, firstCells s.jsonStr.cell n⟩]
  | none => []

/-- A step that does not build the text copies what is there already, which changes no byte. -/
def Site.step [JsonC] (s : Site) : SiteInput → Site × List Body
  | .gateway x =>
    let w := (gateway.step s.world x).1
    ({ s with world := w, jsonStr := s.jsonStr.strcpy w.page }, [])
  | .get r => (s.sendPage r, [])
  | .transmit r => (s, s.body r)

def site [JsonC] : Transducer Site SiteInput Body := ⟨Site.step⟩

def Site.ofWorld (w : World) : Site := ⟨w, CString.blank.strcpy w.page, fun _ => none⟩

def Site.started [JsonC] (now : Tm) : Site := .ofWorld (.started now)

def Site.Holds (s : Site) : Prop := ∃ old : CString, s.jsonStr = old.strcpy s.world.page

abbrev Site.size (s : Site) : ℕ := s.world.page.val.length

theorem holds_ofWorld (w : World) : (Site.ofWorld w).Holds := ⟨CString.blank, rfl⟩

section

variable [JsonC]

theorem holds_step (s : Site) (x : SiteInput) (hs : s.Holds) : (site.step s x).1.Holds := by
  cases x with
  | gateway x => exact ⟨s.jsonStr, rfl⟩
  | get r => exact hs
  | transmit r => exact hs

theorem queued_step (s : Site) (x : SiteInput) {r : ℕ} (hx : x ≠ .get r) :
    (site.step s x).1.queued r = s.queued r := by
  cases x with
  | gateway x => rfl
  | get q =>
    have hq : r ≠ q := by
      intro h
      exact hx (h ▸ rfl)
    exact Function.update_of_ne hq _ _
  | transmit q => rfl

theorem queued_after (s : Site) {xs : List SiteInput} {r : ℕ} (hxs : SiteInput.get r ∉ xs) :
    (site.after s xs).queued r = s.queued r := by
  induction xs generalizing s with
  | nil => rfl
  | cons x xs ih =>
    rw [List.mem_cons, not_or] at hxs
    rw [site.after_cons, ih _ hxs.2, queued_step s x (Ne.symm hxs.1)]

/-- The answer to `r` is the complete text at one moment since it was queued. -/
def Whole (s₀ : Site) (r : ℕ) (mid : List SiteInput) (bytes : List UInt8) : Prop :=
  ∃ p, p <+: mid ∧ bytes = (site.after s₀ (.get r :: p)).world.page.val

/-- The body has the length of the old text and the bytes of the new one. -/
theorem body_eq {s₀ : Site} (r : ℕ) (mid : List SiteInput) (h₀ : s₀.Holds)
    (hmid : SiteInput.get r ∉ mid) :
    ∃ old : CString, (site.after s₀ (.get r :: mid)).body r =
      [⟨r, firstCells (old.strcpy (site.after s₀ (.get r :: mid)).world.page).cell
        s₀.size⟩] := by
  obtain ⟨old, hold⟩ : (site.after s₀ (.get r :: mid)).Holds :=
    Transducer.after_preserves holds_step h₀ _
  have hqueued : (site.after s₀ (.get r :: mid)).queued r = some s₀.size := by
    obtain ⟨old₀, hold₀⟩ := h₀
    have hget : (site.step s₀ (.get r)).1.queued r = some s₀.jsonStr.strlen :=
      Function.update_self _ _ _
    rw [site.after_cons, queued_after _ hmid, hget, hold₀, CString.strlen_strcpy]
  refine ⟨old, ?_⟩
  rw [Site.body, hqueued, ← hold]

/-- If the text is not longer than when the answer was queued, the answer is whole exactly if
it is as long; if it is longer, the answer is cut off. -/
theorem page_whole (start : Tm) (pre mid : List SiteInput) (r : ℕ)
    (hmid : SiteInput.get r ∉ mid) :
    let s₀ := site.after (.started start) pre
    let s := site.after s₀ (.get r :: mid)
    ∃ bytes, (site.step s (.transmit r)).2 = [⟨r, bytes⟩] ∧
      (s.size ≤ s₀.size → (Whole s₀ r mid bytes ↔ s.size = s₀.size)) ∧
      (s₀.size < s.size → bytes = s.world.page.val.take s₀.size) := by
  intro s₀ s
  have h₀ : s₀.Holds := Transducer.after_preserves holds_step (holds_ofWorld _) pre
  obtain ⟨old, hbody⟩ := body_eq r mid h₀ hmid
  refine ⟨_, hbody, ?_, ?_⟩
  · intro hle
    constructor
    · rintro ⟨p, -, hp⟩
      by_contra hne
      -- a shorter text leaves its NUL inside the answer
      have hzero := old.zero_mem_firstCells s.world.page (lt_of_le_of_ne hle hne)
      rw [hp] at hzero
      exact (site.after s₀ (.get r :: p)).world.page.property hzero
    · intro hsame
      refine ⟨mid, List.prefix_rfl, ?_⟩
      rw [old.firstCells_strcpy s.world.page (le_of_eq hsame.symm)]
      exact List.take_of_length_le (le_of_eq hsame)
  · intro hlt
    exact old.firstCells_strcpy s.world.page (le_of_lt hlt)

end

/-- A switch of the living room reports the state 10 for its first channel. -/
def stateTen : Input := received [1, 6, 0x4c, 0x35, 0, 1, 10]

theorem page_whole_ten :
    letI := spacedJsonC
    let s₀ := site.after (.started march) []
    let s := site.after s₀ (.get 0 :: [.gateway stateTen, .get 1])
    ∃ bytes, (site.step s (.transmit 0)).2 = [⟨0, bytes⟩] ∧
      (s.size ≤ s₀.size →
        (Whole s₀ 0 [.gateway stateTen, .get 1] bytes ↔ s.size = s₀.size)) ∧
      (s₀.size < s.size → bytes = s.world.page.val.take s₀.size) :=
  @page_whole spacedJsonC march [] [.gateway stateTen, .get 1] 0 (by simp)

/-- The text after `x` is longer, and its beginning is not the text before `x`. -/
def World.Outgrown [JsonC] (w : World) (x : Input) : Prop :=
  w.page.val.length < (gateway.step w x).1.page.val.length ∧
    (gateway.step w x).1.page.val.take w.page.val.length ≠ w.page.val

instance [JsonC] (w : World) (x : Input) : Decidable (w.Outgrown x) :=
  inferInstanceAs (Decidable (_ ∧ _))

theorem outgrown_ten :
    letI := spacedJsonC
    (World.started march).Outgrown stateTen := by
  decide +kernel

/-- A text that outgrows the one queued is not sent whole. -/
theorem not_whole_of_outgrown [JsonC] {w : World} {x : Input} (h : w.Outgrown x) (r : ℕ) :
    ∃ bytes,
      (site.step (site.after (.ofWorld w) [.get r, .gateway x]) (.transmit r)).2 =
        [⟨r, bytes⟩] ∧
      ¬ Whole (.ofWorld w) r [.gateway x] bytes := by
  obtain ⟨old, hbody⟩ := body_eq r [.gateway x] (holds_ofWorld w) (by simp)
  refine ⟨_, hbody, ?_⟩
  rintro ⟨p, hp, hpage⟩
  replace hpage := (old.firstCells_strcpy _ (le_of_lt h.1)).symm.trans hpage
  rcases List.prefix_cons_iff.mp hp with rfl | ⟨t, rfl, ht⟩
  · -- nothing happened yet
    exact h.2 hpage
  · rw [List.prefix_nil.mp ht] at hpage
    have hlength := congrArg List.length hpage
    rw [List.length_take_of_le (le_of_lt h.1)] at hlength
    exact absurd hlength (ne_of_lt h.1)

/-- The list was queued for a client, then the switch reported, then the body left. -/
theorem page_cut :
    letI := spacedJsonC
    ∃ bytes,
      (site.step (site.after (.started march) [.get 0, .gateway stateTen]) (.transmit 0)).2 =
        [⟨0, bytes⟩] ∧
      ¬ Whole (.started march) 0 [.gateway stateTen] bytes :=
  @not_whole_of_outgrown spacedJsonC _ stateTen outgrown_ten 0

end IdolGateway.ZbClient
