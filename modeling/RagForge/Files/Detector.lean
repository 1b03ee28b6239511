import RagForge.Files.Patches
import RagForge.Files.StateMachine
import RagForge.Py.Regex

/-
The issue detector (`services/issue_detector.py`), and when the patches that are suggested for its
findings can be applied.

Every detector reports its own first match, whatever the others report.  The suggested patches are
refused when two of these matches overlap, and when a phrase is found in the lower-case text at a
place that the text itself does not have.  Floats are exact here.
-/

namespace RagForge.Files

open Py

/-! ## The detector -/

/-- The thresholds, and what the detector takes from Python: `str.lower` and the classes `\d` and
`\w`. -/
structure IssueDetector where
  promptInjectionThreshold : Rat
  piiHighRiskThreshold : Rat
  unsafeContentThreshold : Rat
  parserProblemThreshold : Rat
  lower : String → String
  isDigit : Char → Bool
  isWord : Char → Bool

def promptInjectionPatterns : List String :=
  ["ignore previous instructions", "disregard all prior instructions", "system prompt",
    "developer message", "reveal the hidden instructions"]

def unsafeContentPatterns : List String :=
  ["how to make a bomb", "build an explosive", "terrorist attack", "commit murder",
    "harm a child"]

namespace IssueDetector

variable (D : IssueDetector)

def digits (least extra : Nat) : Regex := .between (.one D.isDigit) least extra

def dash : Regex := .one (· = '-')

def capital (c : Char) : Bool := 'A' ≤ c && c ≤ 'Z'

def bounded (r : Regex) : Regex := .seq (.boundary D.isWord) (.seq r (.boundary D.isWord))

def piiPatterns : List (String × Regex) :=
  [("ssn", D.bounded (.seq (D.digits 3 0) (.seq dash (.seq (D.digits 2 0)
      (.seq dash (D.digits 4 0)))))),
    ("payment_card", D.bounded (.between
      (.seq (.one D.isDigit) (.fewest fun c => c = ' ' || c = '-')) 13 3)),
    ("iban", D.bounded (.seq (.between (.one capital) 2 0) (.seq (D.digits 2 0)
      (.between (.one fun c => capital c || ('0' ≤ c && c ≤ '9')) 11 19))))]

def phraseSpan (lowered : String) (phrases : List String) : Option (Nat × Nat) :=
  phrases.findSome? fun phrase =>
    ((List.range (lowered.toList.length + 1)).find? fun i =>
      phrase.toList.isPrefixOf (lowered.toList.drop i)).map fun i => (i, i + phrase.toList.length)

def promptSpan (text : String) : Option (Nat × Nat) :=
  phraseSpan (D.lower text) promptInjectionPatterns

def unsafeSpan (text : String) : Option (Nat × Nat) :=
  phraseSpan (D.lower text) unsafeContentPatterns

def detectPromptInjection (text : String) : List Finding :=
  (D.promptSpan text).toList.map fun span =>
    { category := "prompt_injection_risk"
      score := 95 / 100
      threshold := D.promptInjectionThreshold
      problemDescription := "The extracted text appears to contain instruction-like content " ++
        "aimed at manipulating downstream models."
      whyProblematic := "This content can alter model behavior if embedded or surfaced without " ++
        "review."
      spanStart := span.1
      spanEnd := span.2
      problematicText := "" }

def detectPii (text : String) : List Finding :=
  (D.piiPatterns.filterMap fun x => (x.2.search text.toList).map fun span =>
    { category := "pii_high_risk"
      score := 95 / 100
      threshold := D.piiHighRiskThreshold
      problemDescription := "Potentially sensitive " ++
        x.1.map (fun c => if c = '_' then ' ' else c) ++
        " data was detected in the extracted text."
      whyProblematic := "Sensitive data should not be embedded or retrieved without human review."
      spanStart := span.1
      spanEnd := span.2
      problematicText := "" }).take 3

def detectUnsafeContent (text : String) : List Finding :=
  (D.unsafeSpan text).toList.map fun span =>
    { category := "unsafe_or_prohibited_content"
      score := 92 / 100
      threshold := D.unsafeContentThreshold
      problemDescription := "The extracted text appears to describe harmful or prohibited content."
      whyProblematic := "This content may violate policy and should be reviewed before " ++
        "ingestion continues."
      spanStart := span.1
      spanEnd := span.2
      problematicText := "" }

def replacementRatio (stripped : String) : Rat :=
  stripped.toList.count (Char.ofNat 0xfffd) / max stripped.toList.length 1

/-- There is text, and it has too many replacement characters or came with warnings. -/
def malformed (text : String) (diagnostics : Json) : Bool :=
  strip text ≠ "" && (decide (3 / 100 ≤ replacementRatio (strip text)) ||
    (diagnostics.get "warnings").truthy)

def parserProblem (score : Rat) (problem why : String) (stop : Nat) : Finding where
  category := "parser_or_format_problem"
  score := score
  threshold := D.parserProblemThreshold
  problemDescription := problem
  whyProblematic := why
  spanStart := 0
  spanEnd := stop
  problematicText := ""

def detectParserProblem (text : String) (diagnostics : Json) : List Finding :=
  if strip text = "" then
    [D.parserProblem (99 / 100) "The extractor returned no usable text."
      "The file could not be ingested safely because the extracted text is empty." 0]
  else if malformed text diagnostics then
    [D.parserProblem (if 3 / 100 ≤ replacementRatio (strip text) then 8 / 10 else 72 / 100)
      "The extracted text contains parsing artifacts or extractor warnings."
      ("Malformed extraction can lead to poor chunking, incorrect embeddings, or misleading " ++
        "retrieval results.") (min (strip text).toList.length 80)]
  else []

def detect (text : String) (diagnostics : Json) : List Finding :=
  D.detectPromptInjection text ++ D.detectPii text ++ D.detectUnsafeContent text ++
    D.detectParserProblem text diagnostics

/-! ## Suggested patches -/

def piiSpans (text : String) : List (Nat × Nat) :=
  D.piiPatterns.filterMap fun x => x.2.search text.toList

/-- The first match of every detector that has one. -/
def firstMatches (text : String) : List (Nat × Nat) :=
  (D.promptSpan text).toList ++ D.piiSpans text ++ (D.unsafeSpan text).toList

/-- The phrases were found inside the text, no two matches overlap, and none reaches into the
beginning of a malformed text. -/
structure Apart (text : String) (diagnostics : Json) : Prop where
  prompt : ∀ span, D.promptSpan text = some span → span.2 ≤ text.toList.length
  unsafeContent : ∀ span, D.unsafeSpan text = some span → span.2 ≤ text.toList.length
  disjoint : (D.firstMatches text).Pairwise fun a b => a.2 ≤ b.1 ∨ b.2 ≤ a.1
  parser : malformed text diagnostics = true →
    ∀ span ∈ D.firstMatches text, min (strip text).toList.length 80 ≤ span.1

variable {D} {text : String} {diagnostics : Json} {span : Nat × Nat}

theorem phraseSpan_lt {lowered : String} {phrases : List String}
    (hphrases : ∀ phrase ∈ phrases, 0 < phrase.toList.length)
    (h : phraseSpan lowered phrases = some span) : span.1 < span.2 := by
  obtain ⟨phrase, hphrase, hfind⟩ := List.exists_of_findSome?_eq_some h
  obtain ⟨i, -, rfl⟩ := Option.map_eq_some_iff.mp hfind
  have := hphrases phrase hphrase
  omega

theorem piiSpans_bounds (h : span ∈ D.piiSpans text) :
    span.1 < span.2 ∧ span.2 ≤ text.toList.length := by
  obtain ⟨x, hx, hsearch⟩ := List.mem_filterMap.mp h
  have hwidth : ∀ x ∈ D.piiPatterns, 0 < x.2.width := by
    simp [piiPatterns, bounded, digits, dash, Regex.width]
  have := hwidth x hx
  have := Regex.search_bounds hsearch
  omega

theorem firstMatches_lt (h : span ∈ D.firstMatches text) : span.1 < span.2 := by
  simp only [firstMatches, List.mem_append, Option.mem_toList] at h
  rcases h with (h | h) | h
  · exact phraseSpan_lt (by decide) h
  · exact (piiSpans_bounds h).1
  · exact phraseSpan_lt (by decide) h

end IssueDetector

def Finding.span (f : Finding) : Nat × Nat := (f.spanStart, f.spanEnd)

/-- Suggested patches are accepted when the spans of the findings are inside the text and apart. -/
theorem defaultPatchMap_accepted_iff (text : String) (findings : List Finding) :
    (defaultPatchMap findings ≠ [] → validatePatchMap text (defaultPatchMap findings) = .ok ()) ↔
      (∀ s ∈ (findings.map Finding.span).filter (fun s => s.1 < s.2), s.2 ≤ text.toList.length) ∧
        ((findings.map Finding.span).filter fun s => s.1 < s.2).Pairwise
          fun a b => a.2 ≤ b.1 ∨ b.2 ≤ a.1 := by
  have hfilter : (findings.map Finding.span).filter (fun s => s.1 < s.2) =
      (findings.filter fun f => f.spanStart < f.spanEnd).map Finding.span := List.filter_map
  have hlt : ∀ f ∈ findings.filter fun f => f.spanStart < f.spanEnd, f.spanStart < f.spanEnd := by
    simp
  rw [hfilter, List.forall_mem_map, List.pairwise_map]
  unfold defaultPatchMap
  generalize (findings.filter fun f => f.spanStart < f.spanEnd) = fs at hlt
  by_cases hnil : fs = []
  · simp [hnil]
  · have hne : ∀ g : Finding → Patch, fs.map g ≠ [] := fun g h => hnil (List.map_eq_nil_iff.mp h)
    rw [imp_iff_right (hne _), validatePatchMap_eq_ok_iff (hne _), List.forall_mem_map,
      List.pairwise_map]
    refine and_congr (forall₂_congr fun f hf => ?_) Iff.rfl
    exact ⟨fun h => h.le, fun h => ⟨rfl, rfl, hlt f hf, h⟩⟩

namespace IssueDetector

variable {D : IssueDetector} {text : String} {diagnostics : Json}

theorem length_strip_le (text : String) : (strip text).toList.length ≤ text.toList.length := by
  rw [strip, String.toList_ofList]
  exact (List.rdropWhile_prefix _ _).length_le.trans (List.dropWhile_suffix _).length_le

theorem spans_detect (D : IssueDetector) (text : String) (diagnostics : Json) :
    (((D.detect text diagnostics).map Finding.span).filter fun s => s.1 < s.2) =
      D.firstMatches text ++
        if malformed text diagnostics then [(0, min (strip text).toList.length 80)] else [] := by
  have hpii : (D.detectPii text).map Finding.span = D.piiSpans text := by
    have hlen : ∀ f : String × Regex → Option Finding, (D.piiPatterns.filterMap f).length ≤ 3 :=
      fun f => List.length_filterMap_le f D.piiPatterns
    unfold detectPii piiSpans
    rw [List.take_of_length_le (hlen _), List.map_filterMap]
    refine List.filterMap_congr fun x _ => ?_
    rw [Option.map_map]
    exact Option.map_id'
  have hmatches : (D.firstMatches text).filter (fun s => s.1 < s.2) = D.firstMatches text :=
    List.filter_eq_self.mpr fun s hs => decide_eq_true (firstMatches_lt hs)
  have hparser : (((D.detectParserProblem text diagnostics).map Finding.span).filter
      fun s => s.1 < s.2) =
        if malformed text diagnostics then [(0, min (strip text).toList.length 80)] else [] := by
    unfold detectParserProblem
    by_cases hblank : strip text = ""
    · have hfine : malformed text diagnostics = false := by simp [malformed, hblank]
      simp [hblank, hfine, Finding.span, parserProblem]
    · rw [if_neg hblank]
      split
      · have hpos : 0 < (strip text).toList.length :=
          List.length_pos_of_ne_nil fun h => hblank (String.toList_eq_nil_iff.mp h)
        simp [Finding.span, parserProblem]
        omega
      · rfl
  have hprompt : (D.detectPromptInjection text).map Finding.span = (D.promptSpan text).toList := by
    rw [detectPromptInjection, List.map_map]
    exact List.map_id _
  have hunsafe : (D.detectUnsafeContent text).map Finding.span = (D.unsafeSpan text).toList := by
    rw [detectUnsafeContent, List.map_map]
    exact List.map_id _
  rw [detect, List.map_append, List.map_append, List.map_append, hprompt, hpii, hunsafe,
    List.filter_append, hparser, ← firstMatches, hmatches]

/-- The suggested patches are accepted exactly if the phrases are found inside the text and the
first matches do not overlap each other or the beginning of a malformed text. -/
theorem suggested_patches_accepted_iff (D : IssueDetector) (cfg : Config) (text : String)
    (diagnostics : Json) :
    (defaultPatchMap (enrichFindings cfg text (D.detect text diagnostics)) ≠ [] →
      validatePatchMap text
        (defaultPatchMap (enrichFindings cfg text (D.detect text diagnostics))) = .ok ()) ↔
      D.Apart text diagnostics := by
  have henriched : (enrichFindings cfg text (D.detect text diagnostics)).map Finding.span =
      (D.detect text diagnostics).map Finding.span := by
    rw [enrichFindings, List.map_map]
    rfl
  rw [defaultPatchMap_accepted_iff, henriched, spans_detect, List.pairwise_append]
  have hstrip := length_strip_le text
  constructor
  · intro h
    obtain ⟨hinside, hdisjoint, -, hcross⟩ := h
    refine ⟨fun s hs => hinside s ?_, fun s hs => hinside s ?_, hdisjoint, ?_⟩
    · simp [firstMatches, hs]
    · simp [firstMatches, hs]
    · intro hmal s hs
      have hlt := firstMatches_lt hs
      have := hcross s hs _ (by rw [if_pos hmal]; exact List.mem_singleton_self _)
      omega
  · intro h
    refine ⟨?_, h.disjoint, ?_, ?_⟩
    · intro s hs
      simp only [firstMatches, List.mem_append, Option.mem_toList] at hs
      rcases hs with ((hs | hs) | hs) | hs
      · exact h.prompt s hs
      · exact (piiSpans_bounds hs).2
      · exact h.unsafeContent s hs
      · split at hs
        · rw [List.mem_singleton.mp hs]
          omega
        · exact absurd hs List.not_mem_nil
    · split
      · exact List.pairwise_singleton _ _
      · exact List.Pairwise.nil
    · intro a ha b hb
      split at hb
      · next hmal =>
        rw [List.mem_singleton.mp hb]
        exact .inr (h.parser hmal a ha)
      · exact absurd hb List.not_mem_nil

def sampleDetector : IssueDetector where
  promptInjectionThreshold := 1 / 2
  piiHighRiskThreshold := 1 / 2
  unsafeContentThreshold := 1 / 2
  parserProblemThreshold := 1 / 2
  lower text := String.ofList (text.toList.map Char.toLower)
  isDigit := Char.isDigit
  isWord c := c.isAlphanum || c = '_'

def sampleService : Config where
  chunkSize := 100
  chunkOverlap := 0
  chunkPreviewMaxChars := 10
  reviewSnippetMaxChars := 10
  reviewResumeTokenTtlSeconds := 60
  uploadDir := "uploads"
  maxUploadBytes := 100
  hashText := id
  isAlnum := Char.isAlphanum
  resolvePath _ := []
  detect := sampleDetector.detect

/-- The number is taken for a social security number and for a payment card. -/
theorem overlapping_suggestions_refused :
    let suggested := defaultPatchMap (enrichFindings sampleService "123-45-6789-1234"
      (sampleDetector.detect "123-45-6789-1234" .null))
    suggested.length = 2 ∧ (validatePatchMap "123-45-6789-1234" suggested).toBool = false := by
  decide +kernel

end IssueDetector

end RagForge.Files
