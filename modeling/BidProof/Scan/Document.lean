import Mathlib.Data.Rat.Defs
import Mathlib.Data.List.Basic
import BidProof.Basic

/-!
# Pages, requirements and evidence

The records that extraction, the rules and the stored runs exchange.  Extraction turns a file into
a list of `Page`s, each cut into `Block`s; a `Locator` says where a page, a block or a quote is
found in the original.  The rules turn pages into `Requirement`s, each with its `Source` in the
tender and its `Evidence` in the enterprise's files.

Texts that are scanned are lists of characters; labels and identifiers are strings.  A string that
a record may lack and that is read only for its truth value is empty when it is missing.
-/

namespace BidProof

/-- The values of the further entries of a locator. -/
inductive LocatorValue
  | int (n : ℕ)
  | text (s : String)
  | box (b : List ℚ)
  | null
  deriving DecidableEq

/-- Where a page, a block or a quote is found.  The entries of `position` depend on the kind. -/
structure Locator where
  kind : String
  label : String
  position : List (String × LocatorValue) := []
  deriving DecidableEq

/-- `{"kind": "page", "label": f"第 {page} 页", "index": page}` -/
def pageLocator (page : ℕ) : Locator :=
  { kind := "page", label := s!"第 {page} 页", position := [("index", .int page)] }

/-- A line, cell, paragraph or region of a page. -/
structure Block where
  text : List Char
  bbox : Option (List ℚ) := none
  locator : Option Locator := none
  deriving DecidableEq

inductive OcrStatus
  | EXTRACTED
  | FAILED
  | DISABLED
  deriving DecidableEq

/-- A page of an extracted file.  `source_id` and `source_filename` are set by the scan. -/
structure Page where
  page : ℕ
  locator : Option Locator := none
  text : List Char
  has_text : Bool := true
  ocr_required : Bool := false
  low_text_confidence : Bool := false
  char_count : ℕ := 0
  blocks : List Block := []
  ocr_status : Option OcrStatus := none
  ocr_provider : Option String := none
  ocr_confidence : Option ℚ := none
  source_id : Option String := none
  source_filename : Option String := none
  deriving DecidableEq

/-! ## Requirements -/

inductive Category
  | QUALIFICATION
  | FATAL
  | SCORING
  | DEADLINE
  | SIGNATURE
  | BOND
  | CREDENTIAL
  deriving DecidableEq

/-- The status of a requirement. -/
inductive Status
  | PASS
  | FAIL
  | UNKNOWN
  | NEEDS_REVIEW
  deriving DecidableEq

inductive Severity
  | HIGH
  | MEDIUM
  deriving DecidableEq

inductive Criticality
  | HARD
  | SOFT
  deriving DecidableEq

inductive Polarity
  | NEGATIVE_OR_EXCLUSION
  | OBLIGATION
  | NEUTRAL
  deriving DecidableEq

/-- The place in the tender that a requirement comes from. -/
structure Source where
  source_id : String
  page : ℕ
  locator : Locator
  quote : List Char
  deriving DecidableEq

/-- A place in an enterprise file that supports a requirement. -/
structure Evidence where
  filename : String
  page : ℕ
  locator : Locator
  quote : List Char
  matched_terms : List (List Char)
  match_method : String
  deriving DecidableEq

structure Requirement where
  requirement_id : String
  label : String
  category : Category
  title : List Char
  source : Source
  evidence : List Evidence
  status : Status
  severity : Severity
  criticality : Criticality
  detection_method : String
  polarity : Polarity
  confidence : Option ℚ
  rule_score : ℕ
  rule_score_kind : String
  confidence_kind : String
  suggested_status : Option Status := none
  match_review_status : Option String := none
  deriving DecidableEq

end BidProof
