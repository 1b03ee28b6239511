import Mathlib.Data.List.Basic

/-
Listing a sequence page by page.

A page function answers a cursor with some items and the cursor of the next page, if there is one.
`Listing` follows the cursors; a derivation is a listing that comes to its end.  A page function
that cuts its pages out of one sequence, each page right after the item its cursor names, lists that
sequence (`CutsFrom.listing`).
-/

namespace RagForge.Sequence

variable {α γ : Type} {items : List α} {cursorOf : α → γ} {limit : Nat}

/-- Everything listed from a cursor on, until a page names no next one. -/
inductive Listing (page : Option γ → List α × Option γ) : Option γ → List α → Prop
  | last {cursor : Option γ} {items : List α} : page cursor = (items, none) →
      Listing page cursor items
  | more {cursor : Option γ} {next : γ} {items rest : List α} : page cursor = (items, some next) →
      Listing page (some next) rest → Listing page cursor (items ++ rest)

/-- The first `limit` items, with the cursor of the last of them when the page is full. -/
def cutPage (cursorOf : α → γ) (limit : Nat) (items : List α) : List α × Option γ :=
  let taken := items.take limit
  (taken, if taken.length = limit then taken.getLast?.map cursorOf else none)

/-- The pages are cut from one sequence, and the cursor of an item gives what comes after it. -/
structure CutsFrom (cursorOf : α → γ) (limit : Nat) (items : List α)
    (page : Option γ → List α × Option γ) : Prop where
  first : page none = cutPage cursorOf limit items
  after : ∀ before item rest, items = before ++ item :: rest →
    page (some (cursorOf item)) = cutPage cursorOf limit rest

theorem cutPage_short (h : items.length < limit) :
    cutPage cursorOf limit items = (items, none) := by
  simp only [cutPage, List.take_of_length_le (Nat.le_of_lt h), if_neg (Nat.ne_of_lt h)]

theorem cutPage_full {before rest : List α} {item : α} (h : before.length + 1 = limit) :
    cutPage cursorOf limit (before ++ item :: rest) = (before ++ [item], some (cursorOf item)) := by
  have htake : (before ++ item :: rest).take limit = before ++ [item] := by
    rw [List.append_cons, List.take_left']
    rw [List.length_append, List.length_singleton, h]
  have hlen : (before ++ [item]).length = limit := by
    rw [List.length_append, List.length_singleton, h]
  simp only [cutPage, htake, hlen, if_pos, List.getLast?_concat, Option.map_some]

theorem exists_cut (hlimit : 0 < limit) (h : limit ≤ items.length) :
    ∃ before item rest, items = before ++ item :: rest ∧ before.length + 1 = limit := by
  refine ⟨items.take (limit - 1), items[limit - 1], items.drop (limit - 1 + 1), ?_, ?_⟩
  · rw [List.getElem_cons_drop, List.take_append_drop]
  · rw [List.length_take]
    omega

/-- Following the cursors lists the whole sequence, in its order, and ends. -/
theorem CutsFrom.listing {page : Option γ → List α × Option γ}
    (h : CutsFrom cursorOf limit items page) (hlimit : 0 < limit) : Listing page none items := by
  have hfrom : ∀ n before rest cursor, rest.length ≤ n → items = before ++ rest →
      page cursor = cutPage cursorOf limit rest → Listing page cursor rest := by
    intro n
    -- What is left gets shorter with every page.
    induction n with
    | zero =>
      intro before rest cursor hlen _ hpage
      rw [cutPage_short (by omega)] at hpage
      exact .last hpage
    | succ n ih =>
      intro before rest cursor hlen hitems hpage
      by_cases hshort : rest.length < limit
      · rw [cutPage_short hshort] at hpage
        exact .last hpage
      · obtain ⟨front, item, tail, rfl, hfront⟩ := exists_cut hlimit (Nat.le_of_not_lt hshort)
        rw [cutPage_full hfront] at hpage
        have hsplit : items = (before ++ front) ++ item :: tail := by
          rw [hitems, List.append_assoc]
        have hnext := ih ((before ++ front) ++ [item]) tail (some (cursorOf item))
          (by simp at hlen; omega) (by rw [hsplit]; simp) (h.after _ item tail hsplit)
        have := Listing.more hpage hnext
        rwa [List.append_assoc] at this
  exact hfrom items.length [] items none (Nat.le_refl _) rfl h.first

end RagForge.Sequence
