import Mathlib.Data.List.Sort
import Mathlib.Data.String.Basic
import RagForge.Files.Types
import RagForge.Sequence.Pages

/-
The audit trail of a file, page by page (`db/_audit.py`).

The collection is read newest first, with the event id to order events of one time, and the cursor
of a page is the id of its last event.  The pages are cut from one sequence, the matching events in
that order, so following the cursors lists it.  An empty cursor stands for the first page, which is
why no event may have the empty id.
-/

namespace RagForge.Files

open Sequence

/-- A document of `file_audit_events`.  The time is in the unit the collection stores. -/
structure AuditRow where
  tenantId : String
  eventId : String
  createdAt : Int
  row : Row AuditEvent

/-- `_scope_filter` on the audit collection. -/
def AuditRow.inScope (who : Identity) (r : AuditRow) : Bool :=
  r.tenantId == who.tenantId && who.sees r.row

/-- The query of `get_audit_events` without a cursor. -/
def AuditRow.matches (who : Identity) (fileId : String) (r : AuditRow) : Bool :=
  r.inScope who && r.row.doc.fileId == fileId

/-- The `$or` of the cursor: an earlier time, or the same time and a smaller id. -/
def AuditRow.isBefore (r c : AuditRow) : Bool :=
  decide (r.createdAt < c.createdAt) ||
    (r.createdAt == c.createdAt && decide (r.eventId < c.eventId))

/-- The sort of the query, descending in the time and then in the id. -/
def AuditRow.sortsBefore (r s : AuditRow) : Bool := !r.isBefore s

/-- The document the cursor names.  An empty cursor is taken for none. -/
def cursorDoc (who : Identity) (col : List AuditRow) : Option String → Option AuditRow
  | none => none
  | some cursor =>
      if cursor = "" then none else col.find? fun r => r.inScope who && r.eventId == cursor

/-- The query of `get_audit_events`, with the cursor if it names a document. -/
def auditQuery (who : Identity) (col : List AuditRow) (fileId : String) (cursor : Option String) :
    List AuditRow :=
  match cursorDoc who col cursor with
  | none => col.filter fun r => r.matches who fileId
  | some c => col.filter fun r => r.matches who fileId && r.isBefore c

def getAuditEvents (who : Identity) (col : List AuditRow) (fileId : String) (limit : Nat)
    (cursor : Option String) : List AuditRow × Option String :=
  let events := ((auditQuery who col fileId cursor).insertionSort fun r s => r.sortsBefore s).take
    limit
  (events, if events.length = limit then events.getLast?.map AuditRow.eventId else none)

/-- The unique index over tenant and event id. -/
def UniqueEvents (col : List AuditRow) : Prop :=
  (col.map fun r => (r.tenantId, r.eventId)).Nodup

/-! ## The order of the events -/

theorem isBefore_iff (r c : AuditRow) : r.isBefore c = true ↔
    r.createdAt < c.createdAt ∨ r.createdAt = c.createdAt ∧ r.eventId < c.eventId := by
  simp [AuditRow.isBefore]

theorem sortsBefore_iff (r s : AuditRow) : r.sortsBefore s = true ↔
    s.createdAt < r.createdAt ∨ s.createdAt = r.createdAt ∧ s.eventId ≤ r.eventId := by
  simp only [AuditRow.sortsBefore, Bool.not_eq_true', Bool.eq_false_iff, ne_eq, isBefore_iff,
    not_or, not_and, not_lt]
  constructor
  · intro h
    rcases lt_or_eq_of_le h.1 with hlt | heq
    · exact .inl hlt
    · exact .inr ⟨heq, h.2 heq.symm⟩
  · intro h
    rcases h with hlt | ⟨heq, hle⟩
    · exact ⟨le_of_lt hlt, fun h => absurd h (ne_of_gt hlt)⟩
    · exact ⟨le_of_eq heq, fun _ => hle⟩

theorem sortsBefore_total (r s : AuditRow) : r.sortsBefore s = true ∨ s.sortsBefore r = true := by
  rw [sortsBefore_iff, sortsBefore_iff]
  rcases lt_trichotomy r.createdAt s.createdAt with hlt | heq | hlt
  · exact .inr (.inl hlt)
  · rcases le_total r.eventId s.eventId with hle | hle
    · exact .inr (.inr ⟨heq, hle⟩)
    · exact .inl (.inr ⟨heq.symm, hle⟩)
  · exact .inl (.inl hlt)

theorem sortsBefore_trans {r s t : AuditRow} (hrs : r.sortsBefore s = true)
    (hst : s.sortsBefore t = true) : r.sortsBefore t = true := by
  rw [sortsBefore_iff] at *
  rcases hrs with hrs | ⟨hrs, hrs'⟩ <;> rcases hst with hst | ⟨hst, hst'⟩
  · exact .inl (hst.trans hrs)
  · exact .inl (by omega)
  · exact .inl (by omega)
  · exact .inr ⟨hst.trans hrs, hst'.trans hrs'⟩

def newestFirst (events : List AuditRow) : List AuditRow :=
  events.insertionSort fun r s => r.sortsBefore s

theorem newestFirst_perm (events : List AuditRow) : (newestFirst events).Perm events :=
  List.perm_insertionSort _ events

theorem pairwise_newestFirst (events : List AuditRow) :
    (newestFirst events).Pairwise fun r s => r.sortsBefore s = true := by
  have : Std.Total fun r s : AuditRow => r.sortsBefore s = true := ⟨sortsBefore_total⟩
  have : IsTrans AuditRow fun r s => r.sortsBefore s = true := ⟨fun _ _ _ => sortsBefore_trans⟩
  exact List.pairwise_insertionSort _ events

/-! ## Unique ids -/

section

variable {who : Identity} {col : List AuditRow} {fileId : String}

section

variable (hunique : UniqueEvents col)

include hunique

theorem eq_of_eventId {r s : AuditRow} (hr : r ∈ col) (hs : s ∈ col)
    (hr' : r.inScope who = true) (hs' : s.inScope who = true) (h : r.eventId = s.eventId) :
    r = s := by
  simp only [AuditRow.inScope, Bool.and_eq_true, beq_iff_eq] at hr' hs'
  exact List.inj_on_of_nodup_map hunique hr hs (Prod.ext (hr'.1.trans hs'.1.symm) h)

theorem cursorDoc_eq {r : AuditRow} (hr : r ∈ col)
    (hscope : r.inScope who = true) (hid : r.eventId ≠ "") :
    cursorDoc who col (some r.eventId) = some r := by
  rw [cursorDoc, if_neg hid]
  have hfound : (col.find? fun s => s.inScope who && s.eventId == r.eventId).isSome := by
    rw [List.find?_isSome]
    exact ⟨r, hr, by simp [hscope]⟩
  obtain ⟨s, hs⟩ := Option.isSome_iff_exists.mp hfound
  have hprop := List.find?_some hs
  simp only [Bool.and_eq_true, beq_iff_eq] at hprop
  rw [hs, eq_of_eventId hunique (List.mem_of_find?_eq_some hs) hr hprop.1 hscope hprop.2]

theorem isBefore_of_sortsBefore {r s : AuditRow}
    (hr : r ∈ col ∧ r.inScope who = true) (hs : s ∈ col ∧ s.inScope who = true) (hne : r ≠ s)
    (h : r.sortsBefore s = true) : s.isBefore r = true := by
  rw [sortsBefore_iff] at h
  rw [isBefore_iff]
  rcases h with hlt | ⟨heq, hle⟩
  · exact .inl hlt
  · refine .inr ⟨heq, lt_of_le_of_ne hle fun hid => hne ?_⟩
    exact eq_of_eventId hunique hr.1 hs.1 hr.2 hs.2 hid.symm

theorem newestFirst_filter {events : List AuditRow}
    (hevents : ∀ r ∈ events, r ∈ col ∧ r.inScope who = true) (q : AuditRow → Bool) :
    newestFirst (events.filter q) = (newestFirst events).filter q := by
  have hperm : (newestFirst (events.filter q)).Perm ((newestFirst events).filter q) :=
    (newestFirst_perm _).trans ((newestFirst_perm events).filter q).symm
  refine hperm.eq_of_pairwise (fun r s hr hs hrs hsr => ?_) (pairwise_newestFirst _)
    ((pairwise_newestFirst events).filter q)
  have hr' := hevents r (List.mem_of_mem_filter ((newestFirst_perm _).mem_iff.mp hr))
  have hs' := hevents s ((newestFirst_perm _).mem_iff.mp (List.mem_of_mem_filter hs))
  refine eq_of_eventId hunique hr'.1 hs'.1 hr'.2 hs'.2 ?_
  rw [sortsBefore_iff] at hrs hsr
  rcases hrs with hrs | ⟨_, hrs⟩ <;> rcases hsr with hsr | ⟨_, hsr⟩
  · omega
  · omega
  · omega
  · exact le_antisymm hsr hrs

theorem filter_isBefore {events before rest : List AuditRow}
    {c : AuditRow} (hevents : ∀ r ∈ events, r ∈ col ∧ r.inScope who = true)
    (hnodup : events.Nodup) (hsplit : newestFirst events = before ++ c :: rest) :
    (newestFirst events).filter (fun r => r.isBefore c) = rest := by
  have hsorted := pairwise_newestFirst events
  have hdistinct := (newestFirst_perm events).nodup_iff.mpr hnodup
  rw [hsplit] at hsorted hdistinct
  have hmem : ∀ r ∈ before ++ c :: rest, r ∈ col ∧ r.inScope who = true := fun r hr =>
    hevents r ((newestFirst_perm events).mem_iff.mp (by rw [hsplit]; exact hr))
  obtain ⟨-, hrest, hbefore⟩ := List.pairwise_append.mp hsorted
  rw [hsplit, List.filter_append]
  have hnone : before.filter (fun r => r.isBefore c) = [] := by
    refine List.filter_eq_nil_iff.mpr fun r hr hlt => ?_
    have hle := hbefore r hr c List.mem_cons_self
    simp [AuditRow.sortsBefore, hlt] at hle
  have hself : c.isBefore c = false := by
    rw [Bool.eq_false_iff, ne_eq, isBefore_iff]
    simp
  have hall : rest.filter (fun r => r.isBefore c) = rest := by
    refine List.filter_eq_self.mpr fun r hr => ?_
    refine isBefore_of_sortsBefore hunique (hmem c (by simp)) (hmem r (by simp [hr])) ?_
      (List.rel_of_pairwise_cons hrest hr)
    have := (List.nodup_append.mp hdistinct).2.1
    exact fun heq => (List.nodup_cons.mp this).1 (heq ▸ hr)
  rw [hnone, List.filter_cons_of_neg (by simp [hself]), hall, List.nil_append]

end

theorem inScope_of_matches : ∀ r ∈ col.filter (fun r => r.matches who fileId),
    r ∈ col ∧ r.inScope who = true := by
  intro r hr
  obtain ⟨hr, hmatches⟩ := List.mem_filter.mp hr
  simp only [AuditRow.matches, Bool.and_eq_true] at hmatches
  exact ⟨hr, hmatches.1⟩

/-- The pages are cut from the matching events, newest first. -/
theorem getAuditEvents_cuts (hunique : UniqueEvents col) (hids : ∀ r ∈ col, r.eventId ≠ "")
    (limit : Nat) :
    CutsFrom AuditRow.eventId limit (newestFirst (col.filter fun r => r.matches who fileId))
      (getAuditEvents who col fileId limit) := by
  have hevents := @inScope_of_matches who col fileId
  refine ⟨rfl, fun before c rest hsplit => ?_⟩
  have hc : c ∈ col.filter fun r => r.matches who fileId := by
    rw [← (newestFirst_perm _).mem_iff, hsplit]
    simp
  have hcursor := cursorDoc_eq hunique (hevents c hc).1 (hevents c hc).2
    (hids c (hevents c hc).1)
  have hquery : newestFirst (auditQuery who col fileId (some c.eventId)) = rest := by
    have hnodup : (col.filter fun r => r.matches who fileId).Nodup :=
      (List.Nodup.of_map _ hunique).filter _
    have hfilter : auditQuery who col fileId (some c.eventId) =
        (col.filter fun r => r.matches who fileId).filter fun r => r.isBefore c := by
      rw [auditQuery, hcursor, List.filter_filter]
      refine List.filter_congr fun r _ => Bool.and_comm _ _
    rw [hfilter, newestFirst_filter hunique hevents, filter_isBefore hunique hevents hnodup hsplit]
  show cutPage AuditRow.eventId limit (newestFirst _) = _
  rw [hquery]

end

/-- Following the cursors from the first page lists each matching event once, newest first, and
ends, for every page size. -/
theorem getAuditEvents_lists (who : Identity) (col : List AuditRow) (fileId : String) (limit : Nat)
    (hunique : UniqueEvents col) (hids : ∀ r ∈ col, r.eventId ≠ "") (hlimit : 0 < limit) :
    ∃ events : List AuditRow, Listing (getAuditEvents who col fileId limit) none events ∧
      events.Perm (col.filter fun r => r.matches who fileId) ∧ events.Nodup ∧
      events.Pairwise fun r s => s.isBefore r = true := by
  have hperm := newestFirst_perm (col.filter fun r => r.matches who fileId)
  have hnodup : (newestFirst (col.filter fun r => r.matches who fileId)).Nodup :=
    hperm.nodup_iff.mpr ((List.Nodup.of_map _ hunique).filter _)
  refine ⟨_, (getAuditEvents_cuts hunique hids limit).listing hlimit, hperm, hnodup, ?_⟩
  refine ((pairwise_newestFirst _).and hnodup).imp_of_mem fun {r s} hr hs h => ?_
  exact isBefore_of_sortsBefore hunique (inScope_of_matches r (hperm.mem_iff.mp hr))
    (inScope_of_matches s (hperm.mem_iff.mp hs)) h.2 h.1

def auditRow (eventId : String) (createdAt : Int) : AuditRow :=
  ⟨"t1", eventId, createdAt, ⟨some "u1", some "a1"⟩,
    "f1", "f1", none, none, none, .fileUploaded, none, none, ⟨"u1", .user, "u1"⟩, "", .null⟩

def auditService : Identity := ⟨"t1", "files", .service, none, none⟩

/-- Two events of one time, on pages of one event. -/
theorem getAuditEvents_lists_tie :
    ∃ events, Listing (getAuditEvents auditService [auditRow "e1" 5, auditRow "e2" 5] "f1" 1) none
      events ∧ events.Perm ([auditRow "e1" 5, auditRow "e2" 5].filter fun r =>
        r.matches auditService "f1") ∧ events.Nodup ∧
        events.Pairwise fun r s => s.isBefore r = true :=
  getAuditEvents_lists auditService [auditRow "e1" 5, auditRow "e2" 5] "f1" 1
    (by unfold UniqueEvents; decide) (by decide) Nat.one_pos

/-- The cursor of an event with the empty id leads to the first page again, so the listing does not
end. -/
theorem getAuditEvents_empty_id :
    UniqueEvents [auditRow "" 5] ∧
      ¬ ∃ events, Listing (getAuditEvents auditService [auditRow "" 5] "f1" 1) none events := by
  refine ⟨by unfold UniqueEvents; decide, fun hlisting => ?_⟩
  obtain ⟨events, hlisting⟩ := hlisting
  have hpage : ∀ cursor, cursor.getD "" = "" →
      getAuditEvents auditService [auditRow "" 5] "f1" 1 cursor = ([auditRow "" 5], some "") := by
    intro cursor hcursor
    cases cursor with
    | none => rfl
    | some cursor =>
      obtain rfl : cursor = "" := hcursor
      rfl
  have hnever : ∀ cursor events, Listing (getAuditEvents auditService [auditRow "" 5] "f1" 1)
      cursor events → cursor.getD "" ≠ "" := by
    intro cursor events h hcursor
    induction h with
    | last h =>
      rw [hpage _ hcursor] at h
      cases h
    | more h _ ih =>
      rw [hpage _ hcursor] at h
      cases h
      exact ih rfl
  exact hnever none events hlisting rfl

end RagForge.Files
