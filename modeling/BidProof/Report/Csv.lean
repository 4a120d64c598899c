import BidProof.Audit.Chain
import BidProof.Lib.Csv
import BidProof.Report.Pdf

/-!
# The exports as CSV

`presenters.report_row` and the two exports of `report_service` that are CSV files: the report of a
run and the audit trail of a workspace.  A reader of CSV finds in the report the row of every
requirement, and in the audit trail the row of every event, whatever the texts contain, as long as
none of them is longer than the reader's limit.
-/

namespace BidProof.Presenters

open Audit (AuditEvent)
open Csv (Row Record)
open Report (locatorLabel severityText statusText)
open Storage (LoadedRun categoryText)

def excel : Csv.Dialect Char where
  delimiter := ','
  quote := '"'
  cr := '\r'
  lf := '\n'
  distinct := by decide

/-! ## What is reported of a requirement -/

def evidenceGap (item : Requirement) : String :=
  if item.status = .PASS ∧ item.evidence ≠ [] then "已定位企业证据，仍需人工确认原件有效性"
  else if item.category ∈ [.QUALIFICATION, .CREDENTIAL, .BOND, .SIGNATURE] then
    "未定位到可核验的企业证据"
  else "该项主要依赖招标原文，需人工确认适用条件"

def riskImpact (item : Requirement) : String :=
  if item.category = .FATAL then "可能导致废标或资格失效"
  else if item.category = .QUALIFICATION then "可能导致资格审查不通过"
  else if item.category = .DEADLINE then "错过节点可能导致文件不被接收"
  else "可能影响合规性、评分或材料完整性"

def nextAction (item : Requirement) : String :=
  if item.status ∈ [.UNKNOWN, .NEEDS_REVIEW] then "补充证据并由人工复核"
  else if item.status = .FAIL then "核对原文并制定风险处置方案"
  else "保留原文定位并确认原件有效"

def REPORT_COLUMNS : List String :=
  ["requirement_id", "category", "label", "status", "severity", "title", "tender_locator",
    "evidence_locators", "evidence_gap", "risk_impact", "next_action"]

def evidenceLocators (evidence : List Evidence) : String :=
  "; ".intercalate (evidence.map fun entry => s!"{entry.filename} {locatorLabel entry.locator}")

def reportRow (item : Requirement) : Record Char where
  values :=
    [("requirement_id".toList, some item.requirement_id.toList),
      ("category".toList, some (categoryText item.category).toList),
      ("label".toList, some item.label.toList),
      ("status".toList, some (statusText item.status).toList),
      ("severity".toList, some (severityText item.severity).toList),
      ("title".toList, some item.title),
      ("tender_locator".toList, some (locatorLabel item.source.locator).toList),
      ("evidence_locators".toList, some (evidenceLocators item.evidence).toList),
      ("evidence_gap".toList, some (evidenceGap item).toList),
      ("risk_impact".toList, some (riskImpact item).toList),
      ("next_action".toList, some (nextAction item).toList)]

/-! ## The files -/

def header (columns : List String) : Row Char := columns.map String.toList

/-- `csv_report` -/
def csvReport (run : LoadedRun) : Option (List Char) :=
  (Csv.dictWrite excel (header REPORT_COLUMNS) (run.requirements.map reportRow)).map
    (List.dropWhile (· = '\ufeff'))

def AUDIT_EXPORT_COLUMNS : List String :=
  ["event_id", "created_at", "event_type", "run_id", "user_id", "outcome", "actor_ip",
    "request_id", "payload"]

section audit

variable {π : Type} (dumps : π → List Char)

/-- `list_audit_events` -/
def listAuditEvents (workspace_id : String) (run_id : Option String) (rows : List (AuditEvent π)) :
    List (AuditEvent π) :=
  (rows.filter fun row => row.workspace_id = workspace_id ∧
    ∀ id ∈ run_id.filter (· ≠ ""), row.run_id = some id).insertionSort
      fun a b => b.created_at ≤ a.created_at

def auditRow (event : AuditEvent π) : Record Char where
  values :=
    [("event_id".toList, some event.event_id.toList),
      ("created_at".toList, some event.created_at.toList),
      ("event_type".toList, some event.event_type.toList),
      ("run_id".toList, some (event.run_id.getD "").toList),
      ("user_id".toList, some event.user_id.toList),
      ("outcome".toList, some event.outcome.toList),
      ("actor_ip".toList, some (event.actor_ip.getD "").toList),
      ("request_id".toList, some (event.request_id.getD "").toList),
      ("payload".toList, some (dumps event.payload_json))]

/-- `audit_csv`, before the text is encoded.  The codec `utf-8-sig` begins with a mark. -/
def auditCsv (workspace_id : String) (rows : List (AuditEvent π)) : Option (List Char) :=
  (Csv.dictWrite excel (header AUDIT_EXPORT_COLUMNS)
    ((listAuditEvents workspace_id none rows).map (auditRow dumps))).map ('\ufeff' :: ·)

end audit

/-! ## What a reader finds -/

section readers

variable {π : Type} {dumps : π → List Char}

/-- The fields of a record, in the order of its columns. -/
def cells (record : Record Char) : Row Char := record.values.map fun value => value.2.getD []

theorem reportRow_eq (item : Requirement) :
    reportRow item = Csv.record (header REPORT_COLUMNS) (cells (reportRow item)) := by
  simp [reportRow, cells, Csv.record, header, REPORT_COLUMNS]

theorem auditRow_eq (event : AuditEvent π) :
    auditRow dumps event =
      Csv.record (header AUDIT_EXPORT_COLUMNS) (cells (auditRow dumps event)) := by
  simp [auditRow, cells, Csv.record, header, AUDIT_EXPORT_COLUMNS]

/-- Records that have the fields of their columns are read back. -/
theorem dictReader_dictWrite {ι : Type} (row : ι → Record Char) {columns : List String}
    (limit : ℕ) (items : List ι) (hnodup : (header columns).Nodup) (hne : columns ≠ [])
    (hlength : ∀ item, (cells (row item)).length = (header columns).length)
    (hrow : ∀ item, row item = Csv.record (header columns) (cells (row item))) :
    ∃ rows, Csv.dictWrite excel (header columns) (items.map row) =
        some (Csv.write excel (header columns :: rows)) ∧
      Csv.dictReader (Csv.read excel limit (Csv.write excel (header columns :: rows))) =
        if Csv.Fits limit (header columns) then
          .ok { fieldnames := some (header columns),
                records :=
                  if ∀ item ∈ items, Csv.Fits limit (cells (row item)) then .ok (items.map row)
                  else .error .fieldTooLong }
        else .error .fieldTooLong := by
  have hrecords : items.map row =
      (items.map fun item => cells (row item)).map (Csv.record (header columns)) := by
    rw [List.map_map]
    exact List.map_congr_left fun item _ => hrow item
  have hrows : ∀ fields ∈ items.map fun item => cells (row item),
      fields.length = (header columns).length := by
    rw [List.forall_mem_map]
    exact fun item _ => hlength item
  refine ⟨items.map fun item => cells (row item), ?_, ?_⟩
  · rw [hrecords, Csv.dictWrite_record excel hnodup hrows]
  · rw [Csv.dictReader_write excel limit (by simpa [header] using hne) hrows, ← hrecords]
    refine if_congr Iff.rfl ?_ rfl
    congr 2
    exact if_congr List.forall_mem_map rfl rfl

/-- A reader of the report finds the row of each requirement, in order. -/
theorem dictReader_csvReport (limit : ℕ) (run : LoadedRun) :
    (csvReport run).map (fun text => Csv.dictReader (Csv.read excel limit text)) =
      some (if Csv.Fits limit (header REPORT_COLUMNS) then
        .ok { fieldnames := some (header REPORT_COLUMNS),
              records :=
                if ∀ item ∈ run.requirements, Csv.Fits limit (cells (reportRow item)) then
                  .ok (run.requirements.map reportRow)
                else .error .fieldTooLong }
      else .error .fieldTooLong) := by
  obtain ⟨rows, hwrite, hread⟩ := dictReader_dictWrite reportRow limit run.requirements
    (by decide) (by decide) (fun _ => rfl) reportRow_eq
  -- the header does not begin with a mark
  obtain ⟨tail, htail⟩ : ∃ tail, Csv.write excel (header REPORT_COLUMNS :: rows) = 'r' :: tail :=
    ⟨_, rfl⟩
  have hmark : (Csv.write excel (header REPORT_COLUMNS :: rows)).dropWhile (· = '\ufeff') =
      Csv.write excel (header REPORT_COLUMNS :: rows) := by
    rw [htail]
    rfl
  rw [csvReport, hwrite, Option.map_some, Option.map_some, hmark, hread]

/-- A reader of the audit trail finds the row of each event of the workspace, behind a mark. -/
theorem dictReader_auditCsv (limit : ℕ) (dumps : π → List Char) (workspace_id : String)
    (events : List (AuditEvent π)) :
    ∃ text, ∃ listed : List (AuditEvent π), auditCsv dumps workspace_id events =
      some ('\ufeff' :: text) ∧
      listed.Perm (events.filter fun event => event.workspace_id = workspace_id) ∧
      listed.Pairwise (fun a b => b.created_at ≤ a.created_at) ∧
      Csv.dictReader (Csv.read excel limit text) =
        if Csv.Fits limit (header AUDIT_EXPORT_COLUMNS) then
          .ok { fieldnames := some (header AUDIT_EXPORT_COLUMNS),
                records :=
                  if ∀ event ∈ listed, Csv.Fits limit (cells (auditRow dumps event)) then
                    .ok (listed.map (auditRow dumps))
                  else .error .fieldTooLong }
        else .error .fieldTooLong := by
  obtain ⟨rows, hwrite, hread⟩ := dictReader_dictWrite (auditRow dumps) limit
    (listAuditEvents workspace_id none events) (by decide) (by decide) (fun _ => rfl) auditRow_eq
  refine ⟨_, listAuditEvents workspace_id none events, ?_, ?_, ?_, hread⟩
  · rw [auditCsv, hwrite]
    rfl
  · refine (List.perm_insertionSort _ _).trans ?_
    simp
  · exact List.pairwise_insertionSort _ _

end readers

end BidProof.Presenters
