import BidProof.Lib.Checks
import BidProof.Lib.Double

/-!
# The engineering gates

`engineering_gate_snapshot` reads three evaluation reports, converts one value of each with `float`
and compares it with a threshold.  A file that is missing or no JSON counts as not evaluated, but a
file that is not UTF-8, a literal beyond the limits of the parser and a value that `float` refuses
raise; and `float` takes booleans and numeric strings, while a comparison that the gate expects to
fail is false for a number that is none.  `engineering_gate_iff` says when the gate fails closed all
the same.
-/

namespace BidProof.Quality

/-! ## Reports -/

/-- A value of `json.loads`.  An object has its pairs in the order of the text. -/
inductive Json
  | null
  | bool (b : Bool)
  | int (n : ℤ)
  | float (x : Double)
  | str (s : List Char)
  | list (items : List Json)
  | dict (entries : List (String × Json))

inductive PyError
  | UnicodeDecodeError
  | ValueError
  | RecursionError
  | TypeError
  | OverflowError
  deriving DecidableEq

/-- A report file, by what becomes of reading and parsing it. -/
inductive ReportFile
  | missing
  /-- Opening or reading it raises `OSError`. -/
  | unreadable
  /-- Its bytes are not UTF-8. -/
  | undecodable
  /-- `json.loads` raises `JSONDecodeError`. -/
  | invalid
  /-- An integer literal has more than 4300 digits, which is a `ValueError`. -/
  | longInt
  /-- It is nested too deeply for the parser. -/
  | deep
  | json (value : Json)

/-- `_read_json` -/
def readJson : ReportFile → Except PyError (Option (List (String × Json)))
  | .missing | .unreadable | .invalid => .ok none
  | .undecodable => .error .UnicodeDecodeError
  | .longInt => .error .ValueError
  | .deep => .error .RecursionError
  | .json (.dict entries) => .ok (some entries)
  | .json _ => .ok none

/-- The value under a key, which is the last one of that key. -/
def get? (key : String) (entries : List (String × Json)) : Option Json :=
  (entries.reverse.find? fun entry => entry.1 = key).map Prod.snd

section snapshot

variable (floatOfStr : List Char → Option Double)

/-- `float(value)`, where `floatOfStr` is that of a string and `none` a `ValueError`. -/
def Json.toFloat : Json → Except PyError Double
  | .null | .list _ | .dict _ => .error .TypeError
  | .bool b => .ok (.finite (if b then 1 else 0))
  | .int n => (Double.ofInt n).elim (.error .OverflowError) .ok
  | .float x => .ok x
  | .str s => (floatOfStr s).elim (.error .ValueError) .ok

/-- The metric of a report, if the report has it. -/
def metric (report : Option (List (String × Json))) (key : String) :
    Except PyError (Option Double) :=
  match report.bind (get? key) with
  | none => .ok none
  | some value => some <$> value.toFloat floatOfStr

/-- The number `0.02` -/
def LINE_CER_MAX : ℚ := 5764607523034235 / 288230376151711744

/-- The number `0.97` -/
def KEY_FIELD_F1_MIN : ℚ := 4368491638549381 / 4503599627370496

/-- The number `0.9` -/
def TEDS_MIN : ℚ := 8106479329266893 / 9007199254740992

inductive GateStatus
  | EVALUATED
  | NOT_EVALUATED
  | INSUFFICIENT
  deriving DecidableEq

structure Snapshot where
  line_cer_max : ℚ := LINE_CER_MAX
  key_field_f1_min : ℚ := KEY_FIELD_F1_MIN
  teds_min : ℚ := TEDS_MIN
  line_cer : Option Double
  key_field_f1 : Option Double
  teds : Option Double
  failures : List String
  unevaluated : List String
  engineering_gate : String
  product_pass : Bool := false
  business_pass : Bool := false
  forced_requirement_status : String := "NEEDS_REVIEW"
  claim_scope : String := "engineering_gate_only"
  note : String := "Hard OR of evaluated CER/F1/TEDS failures, plus fail-closed on unevaluated " ++
    "gates. Not T-005."
  /-- The sources that are not empty: line CER, TEDS and key fields. -/
  sources : Bool × Bool × Bool := (false, false, false)
  deriving DecidableEq

/-- The entry of a metric among the failures. -/
def failure (name : String) (fails : Double → Bool) (value : Option Double) : List String :=
  if value.any fails then [name] else []

/-- The entry of a metric among those that are not evaluated. -/
def notEvaluated (name : String) (status : Option GateStatus) (value : Option Double) :
    List String :=
  if value = none ∧ status ∈ [none, some .NOT_EVALUATED, some .INSUFFICIENT] then [name] else []

/-- `line_cer > LINE_CER_MAX` -/
def lineCerFails (x : Double) : Bool := Double.lt (.finite LINE_CER_MAX) x

def keyFieldF1Fails (x : Double) : Bool := x.lt (.finite KEY_FIELD_F1_MIN)

def tedsFails (x : Double) : Bool := x.lt (.finite TEDS_MIN)

/-- `aggregate_engineering_gates` -/
def aggregateEngineeringGates (line_cer key_field_f1 teds : Option Double)
    (line_cer_status key_field_f1_status teds_status : Option GateStatus) : Snapshot :=
  let failures := failure "line_cer" lineCerFails line_cer ++
    failure "key_field_f1" keyFieldF1Fails key_field_f1 ++ failure "teds" tedsFails teds
  let unevaluated := notEvaluated "line_cer" line_cer_status line_cer ++
    notEvaluated "key_field_f1" key_field_f1_status key_field_f1 ++
    notEvaluated "teds" teds_status teds
  let engineering_gate :=
    if failures = [] ∧ unevaluated = [] then "GATE_PASS" else "GATE_FAIL"
  { line_cer := line_cer
    key_field_f1 := key_field_f1
    teds := teds
    failures := failures
    unevaluated := unevaluated
    engineering_gate :=
      if unevaluated ≠ [] ∧ failures = [] then "GATE_FAIL" else engineering_gate }

/-- The three report files. -/
structure Reports where
  line_cer : ReportFile
  teds : ReportFile
  key_field_f1 : ReportFile

/-- The status of a metric that was read. -/
def evaluated (value : Option Double) : Option GateStatus :=
  if value = none then some .NOT_EVALUATED else some .EVALUATED

/-- `bool(report)` -/
def truthy (report : Option (List (String × Json))) : Bool :=
  report.any fun entries => !entries.isEmpty

def engineeringGateSnapshot (reports : Reports) : Except PyError Snapshot := do
  let line_report ← readJson reports.line_cer
  let teds_report ← readJson reports.teds
  let key_report ← readJson reports.key_field_f1
  let line_cer ← metric floatOfStr line_report "line_cer"
  let teds ← metric floatOfStr teds_report "teds"
  let key_f1 ← metric floatOfStr key_report "key_field_f1"
  let aggregate := aggregateEngineeringGates line_cer key_f1 teds (evaluated line_cer)
    (evaluated key_f1) (evaluated teds)
  pure { aggregate with sources := (truthy line_report, truthy teds_report, truthy key_report) }

def allowMachinePass (reports : Reports) : Except PyError Bool := do
  let snapshot ← engineeringGateSnapshot floatOfStr reports
  pure (snapshot.engineering_gate = "GATE_PASS" && snapshot.unevaluated = [] &&
    snapshot.failures = [])

/-! ## What a report holds -/

/-- Reading and parsing the file raises nothing. -/
def ReportFile.Loads : ReportFile → Prop
  | .undecodable | .longInt | .deep => False
  | .missing | .unreadable | .invalid | .json _ => True

/-- The value under a key of a report that is an object. -/
def ReportFile.value? (key : String) : ReportFile → Option Json
  | .json (.dict entries) => get? key entries
  | _ => none

/-- The value of a JSON number, unless it is infinite or not a number. -/
def Json.number? : Json → Option ℚ
  | .int n => some n
  | .float (.finite q) => some q
  | _ => none

/-- `float` takes the value: a number that is not too large, a boolean or a numeric string. -/
def Json.Converts : Json → Prop
  | .null | .list _ | .dict _ => False
  | .bool _ | .float _ => True
  | .int n => n.natAbs < Double.intLimit
  | .str s => (floatOfStr s).isSome = true

/-- A metric of the snapshot: its report, its key, the comparison of the code and the numbers inside
the threshold. -/
structure Gate where
  file : ReportFile
  key : String
  fails : Double → Bool
  admits : ℚ → Prop

def Reports.gates (reports : Reports) : List Gate :=
  [⟨reports.line_cer, "line_cer", lineCerFails, fun q => q ≤ LINE_CER_MAX⟩,
    ⟨reports.teds, "teds", tedsFails, fun q => TEDS_MIN ≤ q⟩,
    ⟨reports.key_field_f1, "key_field_f1", keyFieldF1Fails, fun q => KEY_FIELD_F1_MIN ≤ q⟩]

/-- The report has the metric, as a number inside the threshold. -/
def Gate.Inside (gate : Gate) : Prop :=
  ∃ value ∈ gate.file.value? gate.key, ∃ q ∈ value.number?, gate.admits q

/-- The report has the metric, and what `float` makes of it does not fail. -/
def Gate.Passes (gate : Gate) : Prop :=
  ∃ value ∈ gate.file.value? gate.key, ∃ x, value.toFloat floatOfStr = .ok x ∧ gate.fails x = false

/-- The snapshot is taken without raising, and the machine may pass exactly when all three metrics
are numbers inside their thresholds. -/
def FailsClosed (reports : Reports) : Prop :=
  ∃ snapshot, engineeringGateSnapshot floatOfStr reports = .ok snapshot ∧
    (allowMachinePass floatOfStr reports = .ok true ↔ ∀ gate ∈ reports.gates, gate.Inside)

/-- Every report loads, `float` takes every metric that is there, and a metric that is no number
stands beside one that is missing or fails its threshold. -/
structure Sound (reports : Reports) : Prop where
  loads : ∀ gate ∈ reports.gates, gate.file.Loads
  converts : ∀ gate ∈ reports.gates, ∀ value ∈ gate.file.value? gate.key,
    value.Converts floatOfStr
  numbers : (∃ gate ∈ reports.gates, ∃ value ∈ gate.file.value? gate.key, value.number? = none) →
    ∃ gate ∈ reports.gates, ¬ gate.Passes floatOfStr

end snapshot

section lemmas

variable {floatOfStr : List Char → Option Double}

theorem loads_iff {file : ReportFile} : file.Loads ↔ ∃ report, readJson file = .ok report := by
  cases file with
  | json value => cases value <;> simp [ReportFile.Loads, readJson]
  | _ => simp [ReportFile.Loads, readJson]

theorem value?_of_readJson {file : ReportFile} {report : Option (List (String × Json))}
    (h : readJson file = .ok report) (key : String) : report.bind (get? key) = file.value? key := by
  cases file with
  | json value =>
    cases value <;> cases h <;> rfl
  | _ => cases h <;> rfl

theorem converts_iff {value : Json} :
    value.Converts floatOfStr ↔ ∃ x, value.toFloat floatOfStr = .ok x := by
  cases value with
  | int n =>
    simp only [Json.Converts, Json.toFloat, Double.ofInt]
    split_ifs with h <;> simp [h]
  | str s =>
    simp only [Json.Converts, Json.toFloat]
    cases floatOfStr s <;> simp
  | _ => simp [Json.Converts, Json.toFloat]

/-- A number inside a threshold is one that the comparison does not fail. -/
theorem admits_iff {reports : Reports} {gate : Gate} (hgate : gate ∈ reports.gates) {value : Json}
    {q : ℚ} {x : Double} (hq : value.number? = some q) (hx : value.toFloat floatOfStr = .ok x) :
    gate.admits q ↔ gate.fails x = false := by
  obtain ⟨r, rfl, hr⟩ : ∃ r, x = .finite r ∧
      ∀ t : ℚ, 0 < t ∧ t < 1 → (q ≤ t ↔ r ≤ t) ∧ (t ≤ q ↔ t ≤ r) := by
    cases value with
    | int n =>
      cases hq
      simp only [Json.toFloat] at hx
      cases hr : Double.ofInt n with
      | none => simp [hr] at hx
      | some y =>
        obtain ⟨r, rfl⟩ : ∃ r, y = .finite r := by
          simp only [Double.ofInt] at hr
          split_ifs at hr
          exact ⟨_, (Option.some.inj hr).symm⟩
        rw [hr] at hx
        cases hx
        exact ⟨r, rfl, fun t ht => ⟨(Double.ofInt_le_iff hr ht).symm,
          (Double.le_ofInt_iff hr ht).symm⟩⟩
    | float y =>
      cases hx
      cases x <;> cases hq
      exact ⟨q, rfl, fun _ _ => ⟨Iff.rfl, Iff.rfl⟩⟩
    | _ => cases hq
  simp only [Reports.gates, List.mem_cons, List.not_mem_nil, or_false] at hgate
  rcases hgate with rfl | rfl | rfl
  · simpa [lineCerFails, Double.lt] using (hr LINE_CER_MAX (by norm_num [LINE_CER_MAX])).1
  · simpa [tedsFails, Double.lt] using (hr TEDS_MIN (by norm_num [TEDS_MIN])).2
  · simpa [keyFieldF1Fails, Double.lt] using
      (hr KEY_FIELD_F1_MIN (by norm_num [KEY_FIELD_F1_MIN])).2

/-! ## The snapshot -/

theorem metric_eq_ok_iff {report : Option (List (String × Json))} {key : String}
    {value : Option Double} :
    metric floatOfStr report key = .ok value ↔
      (report.bind (get? key) = none ∧ value = none) ∨
        ∃ v x, report.bind (get? key) = some v ∧ v.toFloat floatOfStr = .ok x ∧
          value = some x := by
  unfold metric
  cases report.bind (get? key) with
  | none => simp [eq_comm]
  | some v =>
    cases hv : v.toFloat floatOfStr with
    | error e => simp [Functor.map, Except.map, hv]
    | ok x => simp [Functor.map, Except.map, hv, eq_comm]

/-- The value of a metric that was read, and whether it passes. -/
theorem passes_iff {file : ReportFile} {key : String} {fails : Double → Bool} {admits : ℚ → Prop}
    {report : Option (List (String × Json))} {value : Option Double}
    (hreport : readJson file = .ok report) (hvalue : metric floatOfStr report key = .ok value) :
    Gate.Passes floatOfStr ⟨file, key, fails, admits⟩ ↔ ∃ x ∈ value, fails x = false := by
  rw [metric_eq_ok_iff, value?_of_readJson hreport] at hvalue
  unfold Gate.Passes
  rcases hvalue with ⟨hnone, rfl⟩ | ⟨v, x, hv, hx, rfl⟩
  · simp [hnone]
  · simp [hv, hx]

theorem converts_of_metric {gate : Gate} {report : Option (List (String × Json))}
    (hreport : readJson gate.file = .ok report) :
    (∃ value, metric floatOfStr report gate.key = .ok value) ↔
      ∀ value ∈ gate.file.value? gate.key, value.Converts floatOfStr := by
  simp only [metric_eq_ok_iff, value?_of_readJson hreport, converts_iff]
  cases gate.file.value? gate.key with
  | none => simp
  | some v => simp

/-- The entries of a metric in the two lists are missing exactly when it is there and passes. -/
theorem entries_eq_nil_iff (name : String) {fails : Double → Bool} {value : Option Double} :
    failure name fails value = [] ∧ notEvaluated name (evaluated value) value = [] ↔
      ∃ x ∈ value, fails x = false := by
  cases value with
  | none => simp [notEvaluated, evaluated]
  | some x =>
    cases h : fails x <;> simp [failure, notEvaluated, h]

theorem gatePass_iff (line_cer key_f1 teds : Option Double) :
    ((aggregateEngineeringGates line_cer key_f1 teds (evaluated line_cer) (evaluated key_f1)
          (evaluated teds)).engineering_gate = "GATE_PASS" ∧
        (aggregateEngineeringGates line_cer key_f1 teds (evaluated line_cer) (evaluated key_f1)
          (evaluated teds)).unevaluated = [] ∧
        (aggregateEngineeringGates line_cer key_f1 teds (evaluated line_cer) (evaluated key_f1)
          (evaluated teds)).failures = []) ↔
      (∃ x ∈ line_cer, lineCerFails x = false) ∧ (∃ x ∈ teds, tedsFails x = false) ∧
        ∃ x ∈ key_f1, keyFieldF1Fails x = false := by
  rw [← entries_eq_nil_iff "line_cer", ← entries_eq_nil_iff "teds",
    ← entries_eq_nil_iff "key_field_f1"]
  simp only [aggregateEngineeringGates, List.append_eq_nil_iff]
  constructor
  · tauto
  · rintro ⟨⟨hl, hl'⟩, ⟨ht, ht'⟩, hk, hk'⟩
    simp [hl, hl', ht, ht', hk, hk']

theorem snapshot_eq_ok_iff {reports : Reports} {snapshot : Snapshot} :
    engineeringGateSnapshot floatOfStr reports = .ok snapshot ↔
      ∃ line_report, readJson reports.line_cer = .ok line_report ∧
      ∃ teds_report, readJson reports.teds = .ok teds_report ∧
      ∃ key_report, readJson reports.key_field_f1 = .ok key_report ∧
      ∃ line_cer, metric floatOfStr line_report "line_cer" = .ok line_cer ∧
      ∃ teds, metric floatOfStr teds_report "teds" = .ok teds ∧
      ∃ key_f1, metric floatOfStr key_report "key_field_f1" = .ok key_f1 ∧
        { aggregateEngineeringGates line_cer key_f1 teds (evaluated line_cer) (evaluated key_f1)
            (evaluated teds) with
          sources := (truthy line_report, truthy teds_report, truthy key_report) } = snapshot := by
  simp only [engineeringGateSnapshot, Checks.bind_eq_ok_iff, pure, Except.pure, Except.ok.injEq]

/-- The snapshot is taken when every report loads and every metric converts. -/
theorem exists_snapshot_iff {reports : Reports} :
    (∃ snapshot, engineeringGateSnapshot floatOfStr reports = .ok snapshot) ↔
      ∀ gate ∈ reports.gates, gate.file.Loads ∧
        ∀ value ∈ gate.file.value? gate.key, value.Converts floatOfStr := by
  have hgate (gate : Gate) : (gate.file.Loads ∧
      ∀ value ∈ gate.file.value? gate.key, value.Converts floatOfStr) ↔
        ∃ report, readJson gate.file = .ok report ∧
          ∃ value, metric floatOfStr report gate.key = .ok value := by
    rw [loads_iff]
    constructor
    · rintro ⟨⟨report, hreport⟩, hvalue⟩
      exact ⟨report, hreport, (converts_of_metric hreport).2 hvalue⟩
    · rintro ⟨report, hreport, hvalue⟩
      exact ⟨⟨report, hreport⟩, (converts_of_metric hreport).1 hvalue⟩
  simp only [snapshot_eq_ok_iff, Reports.gates, List.forall_mem_cons, hgate]
  constructor
  · rintro ⟨_, lr, hlr, tr, htr, kr, hkr, a, ha, b, hb, c, hc, -⟩
    exact ⟨⟨lr, hlr, a, ha⟩, ⟨tr, htr, b, hb⟩, ⟨kr, hkr, c, hc⟩, by simp⟩
  · rintro ⟨⟨lr, hlr, a, ha⟩, ⟨tr, htr, b, hb⟩, ⟨kr, hkr, c, hc⟩, -⟩
    exact ⟨_, lr, hlr, tr, htr, kr, hkr, a, ha, b, hb, c, hc, rfl⟩

/-- The machine may pass when no metric is missing or fails its comparison. -/
theorem allowMachinePass_iff {reports : Reports} {snapshot : Snapshot}
    (h : engineeringGateSnapshot floatOfStr reports = .ok snapshot) :
    allowMachinePass floatOfStr reports = .ok true ↔
      ∀ gate ∈ reports.gates, gate.Passes floatOfStr := by
  have hallow : allowMachinePass floatOfStr reports = .ok true ↔
      snapshot.engineering_gate = "GATE_PASS" ∧ snapshot.unevaluated = [] ∧
        snapshot.failures = [] := by
    simp [allowMachinePass, h, bind, Except.bind, pure, Except.pure, and_assoc]
  obtain ⟨lr, hlr, tr, htr, kr, hkr, a, ha, b, hb, c, hc, hs⟩ := snapshot_eq_ok_iff.1 h
  subst hs
  rw [hallow]
  refine (gatePass_iff a c b).trans ?_
  simp only [Reports.gates, List.forall_mem_cons, passes_iff hlr ha, passes_iff htr hb,
    passes_iff hkr hc, List.not_mem_nil, false_imp_iff, implies_true, and_true]

theorem inside_iff {reports : Reports} {gate : Gate} (hgate : gate ∈ reports.gates)
    (hconverts : ∀ value ∈ gate.file.value? gate.key, value.Converts floatOfStr) :
    gate.Inside ↔ gate.Passes floatOfStr ∧
      ∀ value ∈ gate.file.value? gate.key, value.number? ≠ none := by
  unfold Gate.Inside Gate.Passes
  cases hvalue : gate.file.value? gate.key with
  | none => simp
  | some value =>
    obtain ⟨x, hx⟩ := converts_iff.1 (hconverts value hvalue)
    cases hq : value.number? with
    | none => simp [hq]
    | some q => simp [hq, hx, admits_iff hgate hq hx]

end lemmas

/-- The gate fails closed exactly on reports that are sound. -/
theorem engineering_gate_iff (floatOfStr : List Char → Option Double) (reports : Reports) :
    FailsClosed floatOfStr reports ↔ Sound floatOfStr reports := by
  have hnumbers (hconverts : ∀ gate ∈ reports.gates, ∀ value ∈ gate.file.value? gate.key,
      value.Converts floatOfStr) :
      ((∀ gate ∈ reports.gates, gate.Passes floatOfStr) ↔ ∀ gate ∈ reports.gates, gate.Inside) ↔
        ((∃ gate ∈ reports.gates, ∃ value ∈ gate.file.value? gate.key, value.number? = none) →
          ∃ gate ∈ reports.gates, ¬ gate.Passes floatOfStr) := by
    have hinside : (∀ gate ∈ reports.gates, gate.Inside) ↔
        (∀ gate ∈ reports.gates, gate.Passes floatOfStr) ∧ ∀ gate ∈ reports.gates,
          ∀ value ∈ gate.file.value? gate.key, value.number? ≠ none := by
      rw [← forall₂_and]
      exact forall₂_congr fun gate hgate => inside_iff hgate (hconverts gate hgate)
    rw [hinside]
    constructor
    · rintro h ⟨gate, hgate, value, hvalue, hnone⟩
      by_contra hpass
      push Not at hpass
      exact (h.1 hpass).2 gate hgate value hvalue hnone
    · intro h
      refine ⟨fun hpass => ⟨hpass, fun gate hgate value hvalue hnone => ?_⟩, And.left⟩
      obtain ⟨other, hother, hfails⟩ := h ⟨gate, hgate, value, hvalue, hnone⟩
      exact hfails (hpass other hother)
  constructor
  · rintro ⟨snapshot, hsnapshot, hallow⟩
    have hgates := exists_snapshot_iff.1 ⟨snapshot, hsnapshot⟩
    have hconverts := fun gate hgate => (hgates gate hgate).2
    rw [allowMachinePass_iff hsnapshot, hnumbers hconverts] at hallow
    exact ⟨fun gate hgate => (hgates gate hgate).1, hconverts, hallow⟩
  · intro h
    obtain ⟨snapshot, hsnapshot⟩ := exists_snapshot_iff.2 fun gate hgate =>
      ⟨h.loads gate hgate, h.converts gate hgate⟩
    refine ⟨snapshot, hsnapshot, ?_⟩
    rw [allowMachinePass_iff hsnapshot, hnumbers h.converts]
    exact h.numbers

/-- The reports with these metrics. -/
def reportsOf (line_cer teds key_field_f1 : Json) : Reports where
  line_cer := .json (.dict [("line_cer", line_cer)])
  teds := .json (.dict [("teds", teds)])
  key_field_f1 := .json (.dict [("key_field_f1", key_field_f1)])

/-- A metric `null` raises, and three metrics `NaN` let the machine pass. -/
theorem gate_not_closed :
    ¬ FailsClosed (fun _ => none) (reportsOf .null (.int 1) (.int 1)) ∧
      ¬ FailsClosed (fun _ => none) (reportsOf (.float .nan) (.float .nan) (.float .nan)) := by
  constructor
  · rintro ⟨snapshot, hsnapshot, -⟩
    cases hsnapshot
  · rintro ⟨snapshot, -, hallow⟩
    obtain ⟨value, hvalue, q, hq, -⟩ := hallow.1 rfl _ List.mem_cons_self
    cases hvalue
    cases hq

end BidProof.Quality
