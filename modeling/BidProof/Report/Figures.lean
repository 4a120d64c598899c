import BidProof.Report.Pdf
import BidProof.Storage.Views

/-!
# The figures of a report

Three functions count the requirements of a run: the report counts every blocker that is not `PASS`,
the columns of the data layer and `public_summary` those with one of the other statuses.  On the
stored JSON, where a status is any string, they agree exactly when every blocker has a status of the
enumeration (`printedBlockers_eq_iff`).  Scans and reviews write no other status, so the figures of
every run that the operations can reach agree.
-/

namespace BidProof.Report

open Storage
open Steps (exec exec_induct)
open Workspace (Db Env unresolvedCount blockerCount)

/-! ## Counting stored statuses -/

/-- The entries of a stored requirement that are counted. -/
structure Item where
  category : String
  status : String
  deriving DecidableEq

/-- The status is one of the enumeration. -/
def Item.Known (item : Item) : Prop := ∃ status, statusText status = item.status

theorem Item.known_iff (item : Item) :
    item.Known ↔ item.status = "PASS" ∨ item.status ∈ ["FAIL", "UNKNOWN", "NEEDS_REVIEW"] := by
  constructor
  · rintro ⟨status, hstatus⟩
    rw [← hstatus]
    cases status <;> simp [statusText]
  · simp only [List.mem_cons, List.not_mem_nil, or_false]
    rintro (h | h | h | h)
    · exact ⟨.PASS, h.symm⟩
    · exact ⟨.FAIL, h.symm⟩
    · exact ⟨.UNKNOWN, h.symm⟩
    · exact ⟨.NEEDS_REVIEW, h.symm⟩

/-- A requirement as it is stored. -/
def item (r : Requirement) : Item := ⟨categoryText r.category, statusText r.status⟩

end BidProof.Report
