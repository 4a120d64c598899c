import BidProof.Ocr.Privacy

/-!
# OCR adapters

The choice of an adapter from the environment, and the calls it makes.  An engine is known by its
kind; what it answers is a parameter of the model, the function `ocr` from calls to results, where
`none` is `OCRUnavailable`.  Running an adapter yields its result together with the list of the
calls it has made (`OCRAdapter.extract`), so that a claim about what is sent to an engine is a
claim about that list.
-/

namespace BidProof

inductive Engine
  | paddle
  | rapid
  | qwen
  deriving DecidableEq

/-- `DisabledOCRAdapter`, an adapter for one engine, or `HybridOCRAdapter`. -/
inductive OCRAdapter
  | disabled
  | single (engine : Engine)
  | hybrid (primary : Engine) (fallback : Option Engine)
  deriving DecidableEq

structure ValueError where
  message : String
  deriving DecidableEq

namespace OCRAdapter

def enabled : OCRAdapter → Bool
  | disabled => false
  | _ => true

/-- The engines an adapter may call. -/
def engines : OCRAdapter → List Engine
  | disabled => []
  | single engine => [engine]
  | hybrid primary fallback => primary :: fallback.toList

def ofEngine : Option Engine → OCRAdapter
  | none => disabled
  | some engine => single engine

end OCRAdapter

/-! ## Selection -/

/-- The names of the cloud engine. -/
def qwenNames : List String := ["qwen", "qwen-vl-ocr", "qwen_vl_ocr"]

/-- `value or default` -/
def orDefault (value default : String) : String := if value = "" then default else value

section selection

variable (env : OcrEnv)

/-- `_build_named_adapter`, where `none` is the disabled adapter. -/
def buildNamedAdapter (name : String) : Except ValueError (Option Engine) :=
  let key := normalized name
  if key ∈ ["", "disabled", "off", "none"] then .ok none
  else if key ∈ qwenNames then
    let api_key := env.QWEN_OCR_API_KEY.getD ""
    if api_key = "" then .ok none
    else if stripped api_key = "" then .error ⟨"Qwen OCR API key is required"⟩
    else .ok (some .qwen)
  else if key ∈ ["paddle", "paddleocr"] then .ok (some .paddle)
  else if key ∈ ["rapid", "rapidocr", "onnx"] then .ok (some .rapid)
  else .error ⟨"Unknown OCR provider: " ++ name⟩

/-- `get_cloud_ocr_adapter` -/
def getCloudOcrAdapter : Except ValueError (Option Engine) :=
  if !envFlag env.BIDPROOF_OCR_EGRESS_ALLOWED "0" then .ok none
  else if normalized (env.BIDPROOF_OCR_EGRESS_MODE.getD "never") ∉
      ["redacted_only", "redacted", "t1", "vpc_private", "vpc", "t2"] then .ok none
  else
    buildNamedAdapter env (orDefault (stripped (env.BID_OCR_CLOUD_PROVIDER.getD "qwen")) "qwen")

/-- `"rapid" if os.name == "nt" else "paddle"` -/
def defaultPrimary : String := if env.windows then "rapid" else "paddle"

/-- `get_local_ocr_adapter` -/
def getLocalOcrAdapter : Except ValueError (Option Engine) :=
  let provider := normalized (env.BID_OCR_PROVIDER.getD "disabled")
  if provider ∈ ["hybrid", "auto"] then
    let primary := stripped (env.BID_OCR_PRIMARY.getD (defaultPrimary env))
    buildNamedAdapter env (if primary ∈ qwenNames then defaultPrimary env else primary)
  else if provider ∈ qwenNames then .ok none
  else
    match buildNamedAdapter env provider with
    | .error _ => .ok none
    | .ok adapter => .ok adapter

/-- `get_ocr_adapter` -/
def getOcrAdapter : Except ValueError OCRAdapter :=
  let provider := normalized (env.BID_OCR_PROVIDER.getD "disabled")
  if provider ∈ ["hybrid", "auto"] then do
    let primary_name :=
      orDefault (stripped (env.BID_OCR_PRIMARY.getD (defaultPrimary env))) (defaultPrimary env)
    let fallback_name := orDefault (stripped (env.BID_OCR_FALLBACK.getD "disabled")) "disabled"
    let primary ← buildNamedAdapter env primary_name
    let fallback ← buildNamedAdapter env
      (if fallback_name ∈ qwenNames then "disabled" else fallback_name)
    match primary, fallback with
    | none, some engine => .ok (.single engine)
    | some engine, fallback => .ok (.hybrid engine fallback)
    | none, none => .ok .disabled
  else
    match buildNamedAdapter env provider with
    | .error _ => .ok .disabled
    | .ok engine => .ok (.ofEngine engine)

/-- The adapter with which `extract_pdf` makes its first pass when it is given none. -/
def firstPassAdapter : Except ValueError OCRAdapter :=
  if egressAllowedForCloud env then
    match getLocalOcrAdapter env with
    | .error e => .error e
    | .ok (some engine) => .ok (.single engine)
    | .ok none => getOcrAdapter env
  else getOcrAdapter env

end selection

/-! ## Calls -/

/-- The place from which an engine is called. -/
inductive Slot
  | single
  | primary
  | fallback
  | cloud
  deriving DecidableEq

/-- One call of the `extract` method of an engine. -/
structure OcrCall where
  slot : Slot
  engine : Engine
  image : PageImage
  page_number : ℕ
  deriving DecidableEq

/-- `_should_try_fallback` -/
def shouldTryFallback (result : OCRResult) : Bool :=
  (result.confidence.any fun c => c < 1 / 2) || (Text.strip result.text).length < 40

/-- The result of `HybridOCRAdapter.extract` when both engines have answered. -/
def hybridResult (primary fallback : OCRResult) : OCRResult :=
  let chosen :=
    if (fallback.text.length : ℚ) > primary.text.length * (11 / 10) then fallback else primary
  { chosen with provider := "hybrid:" ++ primary.provider ++ "+" ++ fallback.provider }

/-- The `extract` method of an adapter: the result, and the calls it has made. -/
def OCRAdapter.extract (ocr : OcrCall → Option OCRResult) (image : PageImage) (page_number : ℕ) :
    OCRAdapter → Option OCRResult × List OcrCall
  | disabled => (none, [])
  | single engine =>
    let call : OcrCall := ⟨.single, engine, image, page_number⟩
    (ocr call, [call])
  | hybrid primary fallback =>
    let first : OcrCall := ⟨.primary, primary, image, page_number⟩
    let primary_result := ocr first
    if primary_result.any fun r => !shouldTryFallback r then (primary_result, [first])
    else
      match fallback with
      | none => (primary_result, [first])
      | some engine =>
        let second : OcrCall := ⟨.fallback, engine, image, page_number⟩
        match primary_result, ocr second with
        | some p, some f => (some (hybridResult p f), [first, second])
        | some p, none => (some p, [first, second])
        | none, some f => (some { f with provider := "hybrid:" ++ f.provider }, [first, second])
        | none, none => (none, [first, second])

/-- An adapter sends the image it is given to its own engines. -/
theorem OCRAdapter.call_of_mem_extract {ocr : OcrCall → Option OCRResult} {image : PageImage}
    {page_number : ℕ} {adapter : OCRAdapter} {c : OcrCall}
    (h : c ∈ (adapter.extract ocr image page_number).2) :
    c.engine ∈ adapter.engines ∧ c.image = image ∧ c.page_number = page_number := by
  cases adapter with
  | disabled => cases h
  | single engine =>
    rw [List.mem_singleton.1 h]
    simp [engines]
  | hybrid primary fallback =>
    simp only [extract] at h
    split_ifs at h
    · rw [List.mem_singleton.1 h]
      simp [engines]
    · cases fallback with
      | none =>
        rw [List.mem_singleton.1 h]
        simp [engines]
      | some engine =>
        have h : c ∈ [(⟨.primary, primary, image, page_number⟩ : OcrCall),
            ⟨.fallback, engine, image, page_number⟩] := by
          revert h
          dsimp only
          split <;> exact id
        rcases List.mem_pair.1 h with rfl | rfl <;> simp [engines]

/-- An adapter whose engines do not answer has no result. -/
theorem OCRAdapter.extract_unavailable (image : PageImage) (page_number : ℕ)
    (adapter : OCRAdapter) : (adapter.extract (fun _ => none) image page_number).1 = none := by
  cases adapter with
  | disabled | single => rfl
  | hybrid primary fallback => cases fallback <;> rfl

/-- An adapter whose engines do not answer calls all of them. -/
theorem OCRAdapter.mem_extract_unavailable (image : PageImage) (page_number : ℕ)
    {adapter : OCRAdapter} {engine : Engine} (he : engine ∈ adapter.engines) :
    ∃ c ∈ (adapter.extract (fun _ => none) image page_number).2,
      c.engine = engine ∧ c.image = image := by
  cases adapter with
  | disabled => cases he
  | single e => exact ⟨_, List.mem_singleton_self _, (List.mem_singleton.1 he).symm, rfl⟩
  | hybrid primary fallback =>
    cases fallback with
    | none => exact ⟨_, List.mem_singleton_self _, (List.mem_singleton.1 he).symm, rfl⟩
    | some e =>
      rcases List.mem_pair.1 he with rfl | rfl
      · exact ⟨_, List.mem_cons_self, rfl, rfl⟩
      · exact ⟨_, List.mem_cons_of_mem _ (List.mem_singleton_self _), rfl, rfl⟩

end BidProof
