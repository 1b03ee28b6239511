import RagForge.Llm.Structured

/-
Context-window budgeting in the LLM agent (`text_window.py`).

A prompt longer than its budget loses its middle: the first half of the budget is taken from the
front and the rest from the end.  What survives of a part of the prompt is a matter of lengths.
-/

namespace RagForge.Llm

open Py

/-! ## Budgets -/

/-- What the budget of a call depends on: the window the provider reports for the model, if it does,
and the settings. -/
structure Window where
  discovered : Option Int
  vllmMaxModelLen : Int
  maxTokens : Int

def Window.contextTokens (w : Window) : Int :=
  let configured := if w.vllmMaxModelLen = 0 then 4096 else w.vllmMaxModelLen
  match w.discovered with
  | some window => if 0 < window then window else configured
  | none => configured

def safetyMarginTokens : Int := 128

/-- `estimate_tokens`, at 3.5 characters a token. -/
def estimateTokens (text : String) : Nat :=
  if text = "" then 0 else 2 * text.length / 7 + 1

def Window.inputBudgetChars (w : Window) (reservedTokens : Nat) : Except String Nat :=
  let available := w.contextTokens - w.maxTokens - reservedTokens - safetyMarginTokens
  if available ≤ 0 then
    .error "Prompt reservations leave no room in the model context window"
  else .ok (max 1 (7 * max 1 (available - 1).toNat / 2))

variable {w : Window} {reserved budget : Nat}

theorem Window.inputBudgetChars_pos
    (h : w.inputBudgetChars reserved = .ok budget) : 0 < budget := by
  unfold Window.inputBudgetChars at h
  dsimp only at h
  split at h
  · cases h
  · cases h
    omega

/-! ## Cutting the middle -/

def truncateMiddle (text : String) (maxChars : Nat) : Except String String :=
  if maxChars = 0 then .error "max_chars must be positive"
  else if text.length ≤ maxChars then .ok text
  else
    let prefixChars := maxChars / 2
    let suffixChars := maxChars - prefixChars
    let cs := text.toList
    .ok (String.ofList (cs.take prefixChars ++ cs.drop (cs.length - suffixChars)))

/-- A part of `n` characters survives between `front` characters before it and `back` after it. -/
def Fits (maxChars front n back : Nat) : Prop :=
  front + n + back ≤ maxChars ∨ front + n ≤ maxChars / 2 ∨ n + back ≤ maxChars - maxChars / 2

instance (maxChars front n back : Nat) : Decidable (Fits maxChars front n back) :=
  inferInstanceAs (Decidable (_ ∨ _))

variable {cut : String} {maxChars : Nat}

theorem truncateMiddle_isOk (text : String) (h : 0 < maxChars) :
    ∃ cut, truncateMiddle text maxChars = .ok cut := by
  unfold truncateMiddle
  rw [if_neg (by omega)]
  split
  · exact ⟨_, rfl⟩
  · exact ⟨_, rfl⟩

variable {text : String}

theorem truncateMiddle_cases (h : truncateMiddle text maxChars = .ok cut) :
    (text.toList.length ≤ maxChars ∧ cut = text) ∨
      (maxChars < text.toList.length ∧ cut.toList = text.toList.take (maxChars / 2) ++
        text.toList.drop (text.toList.length - (maxChars - maxChars / 2))) := by
  unfold truncateMiddle at h
  rw [← String.length_toList] at h
  split at h
  · cases h
  · split at h
    · next hle => exact .inl ⟨hle, (Except.ok.inj h).symm⟩
    · next hle =>
      refine .inr ⟨by omega, ?_⟩
      rw [← Except.ok.inj h, String.toList_ofList]

variable {front back : List Char}

theorem infix_truncateMiddle {content : List Char}
    (h : truncateMiddle (String.ofList (front ++ content ++ back)) maxChars = .ok cut)
    (hfits : Fits maxChars front.length content.length back.length) : content <:+: cut.toList := by
  have hwhole : content <:+: front ++ content ++ back := ⟨front, back, rfl⟩
  obtain ⟨-, rfl⟩ | ⟨hlt, hcut⟩ := truncateMiddle_cases h
  · rw [String.toList_ofList]
    exact hwhole
  · rw [String.toList_ofList] at hlt hcut
    rw [hcut]
    simp only [List.length_append] at hlt
    rcases hfits with hall | hfront | hback
    · omega
    · -- The first half reaches past the part.
      have hpre : front ++ content <+: (front ++ content ++ back).take (maxChars / 2) := by
        rw [List.take_append, List.take_of_length_le (by simpa using hfront)]
        exact List.prefix_append _ _
      exact (List.suffix_append front content).isInfix.trans
        (hpre.isInfix.trans (List.prefix_append _ _).isInfix)
    · -- The second half starts before the part.
      have hsuf : content ++ back <:+ (front ++ content ++ back).drop
          ((front ++ content ++ back).length - (maxChars - maxChars / 2)) := by
        rw [List.append_assoc, List.drop_append_of_le_length
          (by simp only [List.length_append]; omega)]
        exact List.suffix_append _ _
      exact (List.prefix_append content back).isInfix.trans
        (hsuf.isInfix.trans (List.suffix_append _ _).isInfix)

/-- A part made of one character that stands nowhere else in the prompt loses some of it when it
does not fit. -/
theorem count_truncateMiddle {c : Char} {n : Nat}
    (h : truncateMiddle (String.ofList (front ++ List.replicate n c ++ back)) maxChars = .ok cut)
    (hfront : c ∉ front) (hback : c ∉ back) (hn : n ≠ 0)
    (hfits : ¬ Fits maxChars front.length n back.length) : cut.toList.count c < n := by
  unfold Fits at hfits
  have hfrontTake (k : Nat) : (front.take k).count c = 0 :=
    List.count_eq_zero.mpr fun hmem => hfront (List.mem_of_mem_take hmem)
  have hbackTake (k : Nat) : (back.take k).count c = 0 :=
    List.count_eq_zero.mpr fun hmem => hback (List.mem_of_mem_take hmem)
  have hfrontDrop (k : Nat) : (front.drop k).count c = 0 :=
    List.count_eq_zero.mpr fun hmem => hfront (List.mem_of_mem_drop hmem)
  have hbackDrop (k : Nat) : (back.drop k).count c = 0 :=
    List.count_eq_zero.mpr fun hmem => hback (List.mem_of_mem_drop hmem)
  obtain ⟨hle, -⟩ | ⟨-, hcut⟩ := truncateMiddle_cases h
  · simp only [String.toList_ofList, List.length_append, List.length_replicate] at hle
    omega
  · rw [hcut, String.toList_ofList]
    simp only [List.count_append, List.take_append, List.drop_append, List.length_append,
      List.length_replicate, List.take_replicate, List.drop_replicate, List.count_replicate_self,
      hfrontTake, hbackTake, hfrontDrop, hbackDrop]
    omega

/-! ## What is sent fits the window -/

structure RenderedExecution where
  systemPrompt : String
  rawPrompt : String
  deriving DecidableEq

/-- `render`, after the entry of the request type has built its two prompts. -/
def Window.render (w : Window) (rendered : RenderedExecution) :
    Except String RenderedExecution := do
  let budget ← w.inputBudgetChars (estimateTokens rendered.systemPrompt)
  let rawPrompt ← truncateMiddle rendered.rawPrompt budget
  return ⟨rendered.systemPrompt, rawPrompt⟩

theorem length_truncateMiddle_le (h : truncateMiddle text maxChars = .ok cut) :
    cut.length ≤ maxChars := by
  rw [← String.length_toList]
  obtain ⟨hle, rfl⟩ | ⟨-, hcut⟩ := truncateMiddle_cases h
  · exact hle
  · rw [hcut, List.length_append, List.length_take, List.length_drop]
    omega

/-- The three roundings together: a text within the budget is estimated at no more tokens than the
budget was made of. -/
theorem estimateTokens_le_available
    (h : w.inputBudgetChars reserved = .ok budget) (hlength : text.length ≤ budget) :
    (estimateTokens text : Int) ≤
      w.contextTokens - w.maxTokens - reserved - safetyMarginTokens := by
  unfold Window.inputBudgetChars at h
  dsimp only at h
  generalize w.contextTokens - w.maxTokens - reserved - safetyMarginTokens = available at h ⊢
  split at h
  · cases h
  · cases h
    unfold estimateTokens
    split <;> omega

/-- Whatever is rendered for whatever window and output limit, both prompts, the output and the
safety margin fit the window by estimate. -/
theorem render_fits_window (w : Window) (rendered sent : RenderedExecution)
    (h : w.render rendered = .ok sent) :
    (estimateTokens sent.systemPrompt : Int) + estimateTokens sent.rawPrompt + w.maxTokens +
      safetyMarginTokens ≤ w.contextTokens := by
  obtain ⟨budget, hbudget, h⟩ := ok_of_bind h
  obtain ⟨cut, hcut, h⟩ := ok_of_bind h
  cases h
  have hle := estimateTokens_le_available hbudget (length_truncateMiddle_le hcut)
  dsimp only
  omega

/-- One token is left for the prompt, and three of its four characters are sent. -/
theorem render_fits_window_tight :
    let w : Window := ⟨some 642, 4096, 512⟩
    let sent : RenderedExecution := ⟨"Hi", "acd"⟩
    w.render ⟨"Hi", "abcd"⟩ = .ok sent ∧
      (estimateTokens sent.systemPrompt : Int) + estimateTokens sent.rawPrompt + w.maxTokens +
        safetyMarginTokens ≤ w.contextTokens := by
  have h : Window.render ⟨some 642, 4096, 512⟩ ⟨"Hi", "abcd"⟩ = .ok ⟨"Hi", "acd"⟩ := by
    decide +kernel
  exact ⟨h, render_fits_window _ _ _ h⟩

end RagForge.Llm
