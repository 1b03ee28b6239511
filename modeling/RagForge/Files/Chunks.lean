import Mathlib.Data.List.Chain
import RagForge.Files.StateMachine
import RagForge.Sequence.Pairs

/-
The windows `chunk_text` cuts a text into.

`ChunkLoop` is the loop of the source: a derivation is a run that ends.  The windows are read off a
run, so what holds of them does not depend on the fuel of `chunkSpans`.  The function only asks that
the overlap is below the size; a negative overlap leaves a gap between two windows.

The chunks that `_build_chunk_documents` makes of them are stored under ids of their own.
-/

namespace RagForge.Files

open Sequence

/-- `while start < text_length`, from a start on, with the windows it appends until it ends. -/
inductive ChunkLoop (textLength chunkSize chunkOverlap : Int) : Int → List (Int × Int) → Prop
  | done {start : Int} : ¬ start < textLength →
      ChunkLoop textLength chunkSize chunkOverlap start []
  | last {start : Int} : start < textLength → min (start + chunkSize) textLength = textLength →
      ChunkLoop textLength chunkSize chunkOverlap start [(start, textLength)]
  | next {start stop : Int} {rest : List (Int × Int)} : start < textLength →
      stop = min (start + chunkSize) textLength → stop ≠ textLength →
      ChunkLoop textLength chunkSize chunkOverlap (stop - chunkOverlap) rest →
      ChunkLoop textLength chunkSize chunkOverlap start ((start, stop) :: rest)

def charSpans (chunks : List (Nat × Nat)) : List (Int × Int) :=
  chunks.map fun c => ((c.1 : Int), (c.2 : Int))

/-- What the windows of a text should be: the loop ends with them, none is empty or longer than the
size, the starts increase, each one overlaps the one before by the overlap, and together they cover
the text. -/
structure Windows (textLength : Nat) (chunkSize chunkOverlap : Int) (spans : List (Int × Int)) :
    Prop where
  ends : ChunkLoop textLength chunkSize chunkOverlap 0 spans
  width : ∀ c ∈ spans, 0 ≤ c.1 ∧ c.1 < c.2 ∧ c.2 ≤ textLength ∧ c.2 - c.1 ≤ chunkSize
  increasing : spans.Pairwise fun c d => c.1 < d.1
  overlaps : spans.IsChain fun c d => d.1 = c.2 - chunkOverlap
  covers : ∀ i : Int, 0 ≤ i → i < textLength → ∃ c ∈ spans, c.1 ≤ i ∧ i < c.2

/-! ## The loop ends -/

variable {chunkSize chunkOverlap : Int}

/-- Each window starts after the one before, so a round for every character is enough. -/
theorem chunkSpans_loop {textLength : Nat} (hsize : 0 < chunkSize)
    (hoverlap : chunkOverlap < chunkSize) (fuel start : Nat) (hfuel : textLength ≤ start + fuel) :
    ChunkLoop textLength chunkSize chunkOverlap start
      (charSpans (chunkSpans textLength chunkSize.toNat chunkOverlap fuel start)) := by
  induction fuel generalizing start with
  | zero => exact .done (by omega)
  | succ fuel ih =>
    rw [chunkSpans]
    by_cases hstart : start < textLength
    · rw [if_pos hstart]
      by_cases hstop : min (start + chunkSize.toNat) textLength = textLength
      · rw [if_pos hstop, hstop]
        exact .last (by omega) (by omega)
      · rw [if_neg hstop]
        refine .next (by omega) (by omega) (by omega) ?_
        have hnext := ih (((min (start + chunkSize.toNat) textLength : Nat) : Int) -
          chunkOverlap).toNat (by omega)
        rw [Int.toNat_of_nonneg (by omega)] at hnext
        exact hnext
    · rw [if_neg hstart]
      exact .done (by omega)

/-! ## What a run of the loop appends -/

section

variable {textLength start : Int} {spans : List (Int × Int)}

section

variable (hsize : 0 < chunkSize) (hoverlap : chunkOverlap < chunkSize)
  (h : ChunkLoop textLength chunkSize chunkOverlap start spans)

include hsize hoverlap h

theorem ChunkLoop.width :
    ∀ c ∈ spans, start ≤ c.1 ∧ c.1 < c.2 ∧ c.2 ≤ textLength ∧ c.2 - c.1 ≤ chunkSize := by
  induction h with
  | done _ => exact nofun
  | last hlt hstop =>
    intro c hc
    obtain rfl := List.mem_singleton.mp hc
    exact ⟨le_refl _, hlt, le_refl _, by omega⟩
  | next hlt hstop hne _ ih =>
    intro c hc
    rcases List.mem_cons.mp hc with rfl | hc
    · exact ⟨le_refl _, by omega, by omega, by omega⟩
    · obtain ⟨hle, hrest⟩ := ih c hc
      exact ⟨by omega, hrest⟩

theorem ChunkLoop.increasing : spans.Pairwise fun c d => c.1 < d.1 := by
  induction h with
  | done _ => exact List.Pairwise.nil
  | last _ _ => exact List.pairwise_singleton _ _
  | next hlt hstop hne hrest ih =>
    refine List.pairwise_cons.mpr ⟨fun d hd => ?_, ih⟩
    have := (hrest.width hsize hoverlap d hd).1
    omega

end

section

variable (h : ChunkLoop textLength chunkSize chunkOverlap start spans)

include h

theorem ChunkLoop.head_eq : ∀ c ∈ spans.head?, c.1 = start := by
  cases h with
  | done _ => exact fun _ hc => nomatch hc
  | last | next =>
    intro c hc
    cases hc
    rfl

theorem ChunkLoop.overlaps : spans.IsChain fun c d => d.1 = c.2 - chunkOverlap := by
  induction h with
  | done _ => exact .nil
  | last _ _ => exact .singleton _
  | next _ _ _ hrest ih => exact List.isChain_cons.mpr ⟨hrest.head_eq, ih⟩

theorem ChunkLoop.covers
    (hgap : textLength ≤ start + chunkSize ∨ 0 ≤ chunkOverlap) (i : Int) (hi : start ≤ i)
    (hlt : i < textLength) : ∃ c ∈ spans, c.1 ≤ i ∧ i < c.2 := by
  induction h with
  | done hend => exact absurd (lt_of_le_of_lt hi hlt) hend
  | last _ _ => exact ⟨_, List.mem_singleton.mpr rfl, hi, hlt⟩
  | @next start stop rest _ hstop hne _ ih =>
    by_cases hin : i < stop
    · exact ⟨(start, stop), List.mem_cons_self, hi, hin⟩
    · obtain ⟨c, hc, hcover⟩ := ih (by omega) (by omega)
      exact ⟨c, List.mem_cons_of_mem _ hc, hcover⟩

end

/-- A negative overlap skips the character after the first window when the text goes on. -/
theorem ChunkLoop.gap (hsize : 0 < chunkSize) (hoverlap : chunkOverlap < 0)
    (hlong : start + chunkSize < textLength)
    (h : ChunkLoop textLength chunkSize chunkOverlap start spans) :
    ∀ c ∈ spans, ¬ (c.1 ≤ start + chunkSize ∧ start + chunkSize < c.2) := by
  cases h with
  | done _ => exact nofun
  | last _ hstop => omega
  | next _ hstop _ hrest =>
    intro c hc
    rcases List.mem_cons.mp hc with rfl | hc
    · omega
    · have := (hrest.width hsize (by omega) c hc).1
      omega

end

/-! ## The function -/

theorem chunkText_ok {text : String} {chunks : List (Nat × Nat)}
    (h : chunkText text chunkSize chunkOverlap = .ok chunks) :
    (text.toList.length = 0 ∧ chunks = []) ∨ 0 < chunkSize ∧ chunkOverlap < chunkSize ∧
      ChunkLoop text.toList.length chunkSize chunkOverlap 0 (charSpans chunks) := by
  simp only [chunkText] at h
  split at h
  · next hempty => exact .inl ⟨hempty, (Except.ok.inj h).symm⟩
  · split at h
    · cases h
    · next hsize =>
      split at h
      · cases h
      · next hoverlap =>
        cases h
        exact .inr ⟨by omega, by omega,
          chunkSpans_loop (by omega) (by omega) _ 0 (by omega)⟩

/-- Whenever `chunk_text` does not raise, its windows are what they should be exactly when the text
fits one window or the overlap is not negative. -/
theorem chunkText_windows_iff (text : String) (chunkSize chunkOverlap : Int)
    (chunks : List (Nat × Nat)) (h : chunkText text chunkSize chunkOverlap = .ok chunks) :
    Windows text.toList.length chunkSize chunkOverlap (charSpans chunks) ↔
      text = "" ∨ (text.toList.length : Int) ≤ chunkSize ∨ 0 ≤ chunkOverlap := by
  have hempty : text = "" ↔ text.toList.length = 0 := by
    rw [List.length_eq_zero_iff, String.toList_eq_nil_iff]
  rw [hempty]
  rcases chunkText_ok h with ⟨hzero, rfl⟩ | ⟨hsize, hoverlap, hloop⟩
  · refine iff_of_true ⟨.done (by omega), ?_, List.Pairwise.nil, .nil, ?_⟩ (.inl hzero)
    · exact nofun
    · omega
  · constructor
    · intro hwindows
      by_contra hcond
      obtain ⟨c, hc, hcover⟩ := hwindows.covers chunkSize (by omega) (by omega)
      exact hloop.gap hsize (by omega) (by omega) c hc (by omega)
    · intro hcond
      refine ⟨hloop, hloop.width hsize hoverlap, hloop.increasing hsize hoverlap, hloop.overlaps,
        hloop.covers (by omega)⟩

theorem chunkText_two_windows :
    chunkText "abcdef" 4 1 = .ok [(0, 4), (3, 6)] ∧
      Windows 6 4 1 (charSpans [(0, 4), (3, 6)]) :=
  ⟨rfl, (chunkText_windows_iff "abcdef" 4 1 [(0, 4), (3, 6)] rfl).mpr (by decide)⟩

/-- With an overlap of minus one the third and the sixth character are in no window. -/
theorem chunkText_negative_overlap :
    chunkText "abcdefg" 2 (-1) = .ok [(0, 2), (3, 5), (6, 7)] ∧
      ¬ Windows 7 2 (-1) (charSpans [(0, 2), (3, 5), (6, 7)]) := by
  refine ⟨rfl, fun hwindows => ?_⟩
  obtain ⟨c, hc, hcover⟩ := hwindows.covers 2 (by decide) (by decide)
  revert c
  decide

/-! ## The ids of the chunks -/

/-- A number has no letter in its text, so the last letter is the one before the number. -/
theorem numbered_inj {s s' : List Char} {c : Char} {n n' : Nat} (hc : c.isDigit = false)
    (h : s ++ c :: (toString n).toList = s' ++ c :: (toString n').toList) : s = s' ∧ n = n' := by
  have hdigits : ∀ n : Nat, c ∉ (toString n).toList := by
    intro n hmem
    rw [Nat.toString_eq_repr, Nat.toList_repr] at hmem
    exact absurd (Nat.isDigit_of_mem_toDigits (by decide) (by decide) hmem) (by simp [hc])
  obtain ⟨htext, hnumber⟩ := append_cons_inj_right (hdigits n) (hdigits n') h
  have hvalue := congrArg (fun digits => Nat.ofDigitChars 10 digits 0) hnumber
  exact ⟨htext, by simpa [Nat.toString_eq_repr] using hvalue⟩

/-- The id of a chunk is read from the right: the index, then the version, then the document. -/
theorem buildChunk_chunkId_eq_iff (cfg cfg' : Config) (x x' : Target) (plan plan' : ChunkPlan)
    (text text' : String) (version version' index index' : Nat) (span span' : Nat × Nat) :
    (buildChunk cfg x plan text version index span).chunkId =
        (buildChunk cfg' x' plan' text' version' index' span').chunkId ↔
      x.document = x'.document ∧ version = version' ∧ index = index' := by
  constructor
  · intro h
    have hid : (x.document.toList ++ ['_', '_'] ++ 'v' :: (toString version).toList ++
          ['_', '_']) ++ 'c' :: (toString index).toList =
        (x'.document.toList ++ ['_', '_'] ++ 'v' :: (toString version').toList ++
          ['_', '_']) ++ 'c' :: (toString index').toList := by
      simpa [buildChunk] using congrArg String.toList h
    obtain ⟨hrest, hindex⟩ := numbered_inj (by decide) hid
    obtain ⟨hrest, hversion⟩ := numbered_inj (by decide) (List.append_cancel_right hrest)
    exact ⟨String.toList_injective (List.append_cancel_right hrest), hversion, hindex⟩
  · intro h
    simp [buildChunk, h]

end RagForge.Files
