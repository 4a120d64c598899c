import BidProof.Lib.Markup
import Mathlib.Algebra.GroupWithZero.Nat
import Mathlib.Data.List.Sort

/-!
# Rendering in the client

`escapeHtml`, `toHtml` and the template `html` of `ui/render.js`.  A value is escaped unless a
template has made it, so markup comes from the templates alone.  In a template a value stands within
text or within the quoted value of an attribute, and in a tag stands only a word of the program such
as `disabled`: then the values are `Sound`.

What is read of a sound value is what its templates say, with the characters of the texts put where
they stand, and the tags do not depend on the texts.  `highlightQuote` shows all of a quotation and
adds nothing but marks.
-/

namespace BidProof.Client

open Markup (Escape Part Place Reader Token readFrom)

/-! ## Values and templates -/

/-- What a template is given: a `word` is a text that the program chooses itself, and `markup` is
what a template has made, with its strings and the values between them. -/
inductive Value
  /-- `null`, `undefined` or `false` -/
  | missing
  | text (s : List Char)
  | word (s : List Char)
  | array (items : List Value)
  | markup (strings : List (List Char)) (values : List Value)

def escape : Escape := Markup.escapeWith "#039".toList (by simp) (by decide)

/-- `escapeHtml` -/
def escapeHtml (s : List Char) : List Char := s.flatMap escape.char

mutual

/-- `toHtml` -/
def toHtml : Value → List Char
  | .missing => []
  | .text s => escapeHtml s
  | .word s => escapeHtml s
  | .array items => joined items
  | .markup strings values => html strings values

/-- `value.map(toHtml).join('')` -/
def joined : List Value → List Char
  | [] => []
  | item :: items => toHtml item ++ joined items

/-- The string that `html` makes. -/
def html : List (List Char) → List Value → List Char
  | string :: strings, value :: values => string ++ (toHtml value ++ html strings values)
  | strings, [] => strings.headD []
  | [], _ :: _ => []

end

/-! ## Sound values -/

/-- Where a reader is, without what it has read. -/
def stand (r : Reader) : Reader := r.forget (fun _ => false) false

/-- A character of a word. -/
def isWord (c : Char) : Bool := c.isAlphanum || c == '-'

/-- A word may also stand in a tag. -/
def TakesWord (r : Reader) : Prop :=
  r.TakesData ∨ r.reference = none ∧ ∃ parts, r.place = .tag parts

mutual

/-- The value can be read where the reader stands. -/
def Value.Sound (r : Reader) : Value → Prop
  | .missing => True
  | .text _ => r.TakesData
  | .word s => TakesWord r ∧ s.all isWord = true
  | .array items => SoundItems r items
  | .markup strings values =>
    r.place = .text ∧ r.reference = none ∧ SoundHoles { place := .text } strings values

def SoundItems (r : Reader) : List Value → Prop
  | [] => True
  | item :: items => item.Sound r ∧ SoundItems r items

/-- The values of a template that begins where the reader stands, and ends in text. -/
def SoundHoles (r : Reader) : List (List Char) → List Value → Prop
  | string :: strings, value :: values =>
    value.Sound (stand (readFrom r string)) ∧
      SoundHoles (stand (readFrom r string)) strings values
  | strings, [] => stand (readFrom r (strings.headD [])) = { place := .text }
  | [], _ :: _ => False

end

mutual

/-- The reader after a value: it follows the templates, and the texts are put as they are. -/
def Value.put (r : Reader) : Value → Reader
  | .missing => r
  | .text s => s.foldl Reader.put r
  | .word s => s.foldl Reader.put r
  | .array items => putItems r items
  | .markup strings values => putHoles r strings values

def putItems (r : Reader) : List Value → Reader
  | [] => r
  | item :: items => putItems (item.put r) items

def putHoles (r : Reader) : List (List Char) → List Value → Reader
  | string :: strings, value :: values => putHoles (value.put (readFrom r string)) strings values
  | strings, [] => readFrom r (strings.headD [])
  | [], _ :: _ => r

end

mutual

/-- The value without its texts. -/
def Value.blank : Value → Value
  | .missing => .missing
  | .text _ => .text []
  | .word s => .word s
  | .array items => .array (blankItems items)
  | .markup strings values => .markup strings (blankItems values)

def blankItems : List Value → List Value
  | [] => []
  | item :: items => item.blank :: blankItems items

end

/-! ## What is read of a sound value -/

section sound

variable {r r' : Reader} {s : List Char}

theorem takesData_stand : (stand r).TakesData ↔ r.TakesData := by
  cases hplace : r.place <;>
    simp [stand, Reader.TakesData, Reader.forget, hplace, Place.forget]

theorem stand_stand (r : Reader) : stand (stand r) = stand r := r.forget_forget

theorem stand_readFrom_stand (r : Reader) (s : List Char) :
    stand (readFrom (stand r) s) = stand (readFrom r s) :=
  Markup.forget_readFrom (stand_stand r) s

theorem stand_eq (r : Reader) :
    stand r = { place := r.place.forget fun _ => false, reference := r.reference } := by
  have htokens : r.tokens.filterMap (Token.forget (fun _ => false) false) = [] := by
    rw [List.filterMap_eq_nil_iff]
    intro token _
    cases token <;> rfl
  rw [stand, Reader.forget, htokens]

theorem takesWord_stand : TakesWord (stand r) ↔ TakesWord r := by
  refine or_congr takesData_stand ?_
  cases hplace : r.place <;> simp [stand, Reader.forget, hplace, Place.forget]

theorem stand_foldl_put (h : r.TakesData) (s : List Char) :
    stand (s.foldl Reader.put r) = stand r :=
  h.forget_foldl_put (fun _ => rfl) s

theorem ordinary_of_isWord {c : Char} (hc : isWord c = true) : Markup.Ordinary c := by
  simp only [Markup.Ordinary, List.mem_cons, List.not_mem_nil, or_false, not_or]
  refine ⟨?_, ?_, ?_, ?_, ?_⟩ <;>
    · rintro rfl
      revert hc
      decide

theorem escapeHtml_word (hs : s.all isWord = true) : escapeHtml s = s := by
  induction s with
  | nil => rfl
  | cons c s ih =>
    rw [List.all_cons, Bool.and_eq_true] at hs
    have hordinary := ordinary_of_isWord hs.1
    simp only [Markup.Ordinary, List.mem_cons, List.not_mem_nil, or_false, not_or] at hordinary
    have hc : escape.char c = [c] := by
      show Markup.escapeChar _ c = [c]
      simp [Markup.escapeChar, hordinary]
    have hs' := ih hs.2
    rw [escapeHtml] at hs' ⊢
    rw [List.flatMap_cons, hc, hs', List.singleton_append]

theorem stand_append (r : Reader) (s t : List Char) :
    stand (readFrom r (s ++ t)) = stand (readFrom (stand (readFrom r s)) t) := by
  rw [stand_readFrom_stand, readFrom, List.foldl_append]
  rfl

/-- A word is read as it is, also in a tag. -/
theorem readFrom_word (h : TakesWord r) (hs : s.all isWord = true) :
    readFrom r s = s.foldl Reader.put r ∧ stand (s.foldl Reader.put r) = stand r := by
  have hordinary : ∀ c ∈ s, Markup.Ordinary c :=
    fun c hc => ordinary_of_isWord (List.all_eq_true.1 hs c hc)
  obtain hdata | ⟨hreference, parts, hplace⟩ := h
  · exact ⟨Markup.readFrom_ordinary hdata hordinary, stand_foldl_put hdata s⟩
  · clear hs
    induction s generalizing r parts with
    | nil => exact ⟨rfl, rfl⟩
    | cons c s ih =>
      obtain ⟨hc, hs⟩ := List.forall_mem_cons.1 hordinary
      simp only [Markup.Ordinary, List.mem_cons, List.not_mem_nil, or_false, not_or] at hc
      have hstep : r.step c = r.put c := by
        simp [Reader.step, hreference, Reader.stepPlain, hplace, hc]
      have hput : r.put c = { r with place := .tag (parts ++ [.bare c]) } := by
        simp [Reader.put, hplace]
      have hstand : stand (r.put c) = stand r := by
        simp [hput, stand, Reader.forget, hplace, Place.forget]
      have hread := ih (r := r.put c) hs (by rw [hput]; exact hreference) (parts ++ [.bare c])
        (by rw [hput])
      rw [readFrom, List.foldl_cons, hstep, List.foldl_cons, ← hstand]
      exact hread

mutual

/-- A sound value is read as its templates say, and the reader stands where it stood. -/
theorem readFrom_toHtml : ∀ (value : Value) (r : Reader), value.Sound (stand r) →
    readFrom r (toHtml value) = value.put r ∧ stand (value.put r) = stand r
  | .missing, r, _ => ⟨rfl, rfl⟩
  | .text s, r, h => by
    have hdata : r.TakesData := takesData_stand.1 h
    exact ⟨Markup.readFrom_escape escape hdata s, stand_foldl_put hdata s⟩
  | .word s, r, ⟨hword, hs⟩ => by
    rw [toHtml, escapeHtml_word hs]
    exact readFrom_word (takesWord_stand.1 hword) hs
  | .array items, r, h => readFrom_joined items r h
  | .markup strings values, r, ⟨hplace, hreference, hholes⟩ => by
    have hplace : r.place.forget (fun _ => false) = .text := by
      rwa [stand_eq] at hplace
    have hreference : r.reference = none := hreference
    have hstand : stand r = { place := .text } := by
      rw [stand_eq, hplace, hreference]
    obtain ⟨hread, hend⟩ := readFrom_html strings values r (hstand ▸ hholes)
    exact ⟨hread, hend.trans hstand.symm⟩

theorem readFrom_joined : ∀ (items : List Value) (r : Reader), SoundItems (stand r) items →
    readFrom r (joined items) = putItems r items ∧ stand (putItems r items) = stand r
  | [], r, _ => ⟨rfl, rfl⟩
  | item :: items, r, ⟨hitem, hitems⟩ => by
    obtain ⟨hread, hstand⟩ := readFrom_toHtml item r hitem
    obtain ⟨hreads, hstands⟩ := readFrom_joined items (item.put r) (hstand ▸ hitems)
    rw [joined, readFrom, List.foldl_append]
    rw [readFrom] at hread
    rw [hread]
    exact ⟨hreads, hstands.trans hstand⟩

theorem readFrom_html : ∀ (strings : List (List Char)) (values : List Value) (r : Reader),
    SoundHoles (stand r) strings values →
      readFrom r (html strings values) = putHoles r strings values ∧
        stand (putHoles r strings values) = { place := .text }
  | string :: strings, value :: values, r, ⟨hvalue, hvalues⟩ => by
    rw [stand_readFrom_stand] at hvalue hvalues
    obtain ⟨hread, hstand⟩ := readFrom_toHtml value (readFrom r string) hvalue
    obtain ⟨hreads, hstands⟩ :=
      readFrom_html strings values (value.put (readFrom r string)) (hstand ▸ hvalues)
    rw [html, readFrom, List.foldl_append, List.foldl_append]
    rw [readFrom] at hread
    have hstring : string.foldl Reader.step r = readFrom r string := rfl
    rw [hstring, hread]
    exact ⟨hreads, hstands⟩
  | [], [], r, h => by
    rw [SoundHoles, stand_readFrom_stand] at h
    exact ⟨rfl, h⟩
  | string :: strings, [], r, h => by
    rw [SoundHoles, stand_readFrom_stand] at h
    exact ⟨rfl, h⟩

end

/-! ## Tags -/

/-- The readers have seen the same tags, and are within the same. -/
def Alike (r r' : Reader) : Prop :=
  r.forget Part.isStructural true = r'.forget Part.isStructural true

mutual

/-- The texts leave no trace in the tags. -/
theorem alike_put : ∀ (value : Value) (r r' : Reader), value.Sound (stand r) → Alike r r' →
    Alike (value.put r) (value.blank.put r')
  | .missing, _, _, _, h => h
  | .text s, r, r', hsound, h =>
    ((takesData_stand.1 hsound).forget_foldl_put (fun _ => rfl) s).trans h
  | .word s, r, r', _, h => by
    show (s.foldl Reader.put r).forget _ _ = (s.foldl Reader.put r').forget _ _
    rw [← Markup.forget_foldl_put, h, Markup.forget_foldl_put]
  | .array items, r, r', hsound, h => alike_putItems items r r' hsound h
  | .markup strings values, r, r', ⟨hplace, hreference, hholes⟩, h => by
    have hplace : r.place.forget (fun _ => false) = .text := by
      rwa [stand_eq] at hplace
    have hreference : r.reference = none := hreference
    have hstand : stand r = { place := .text } := by
      rw [stand_eq, hplace, hreference]
    exact alike_putHoles strings values r r' (hstand ▸ hholes) h

theorem alike_putItems : ∀ (items : List Value) (r r' : Reader), SoundItems (stand r) items →
    Alike r r' → Alike (putItems r items) (putItems r' (blankItems items))
  | [], _, _, _, h => h
  | item :: items, r, r', ⟨hitem, hitems⟩, h => by
    have hstand := (readFrom_toHtml item r hitem).2
    exact alike_putItems items (item.put r) (item.blank.put r') (hstand ▸ hitems)
      (alike_put item r r' hitem h)

theorem alike_putHoles : ∀ (strings : List (List Char)) (values : List Value) (r r' : Reader),
    SoundHoles (stand r) strings values → Alike r r' →
      Alike (putHoles r strings values) (putHoles r' strings (blankItems values))
  | string :: strings, value :: values, r, r', ⟨hvalue, hvalues⟩, h => by
    rw [stand_readFrom_stand] at hvalue hvalues
    have hstand := (readFrom_toHtml value (readFrom r string) hvalue).2
    exact alike_putHoles strings values (value.put (readFrom r string))
      (value.blank.put (readFrom r' string)) (hstand ▸ hvalues)
      (alike_put value _ _ hvalue (Markup.forget_readFrom h string))
  | [], [], _, _, _, h => h
  | string :: _, [], _, _, _, h => Markup.forget_readFrom h string

end

mutual

theorem sound_blank : ∀ (value : Value) (r : Reader), value.Sound r → value.blank.Sound r
  | .missing, _, h => h
  | .text _, _, h => h
  | .word _, _, h => h
  | .array items, r, h => soundItems_blank items r h
  | .markup strings values, _, ⟨hplace, hreference, hholes⟩ =>
    ⟨hplace, hreference, soundHoles_blank strings values _ hholes⟩

theorem soundItems_blank : ∀ (items : List Value) (r : Reader), SoundItems r items →
    SoundItems r (blankItems items)
  | [], _, h => h
  | item :: items, r, ⟨hitem, hitems⟩ =>
    ⟨sound_blank item r hitem, soundItems_blank items r hitems⟩

theorem soundHoles_blank : ∀ (strings : List (List Char)) (values : List Value) (r : Reader),
    SoundHoles r strings values → SoundHoles r strings (blankItems values)
  | _ :: strings, value :: values, _, ⟨hvalue, hvalues⟩ =>
    ⟨sound_blank value _ hvalue, soundHoles_blank strings values _ hvalues⟩
  | [], [], _, h => h
  | _ :: _, [], _, h => h

end

/-- What is read of a sound value is what its templates say with its texts put where they stand, and
the tags are those that it has without its texts. -/
theorem read_toHtml (value : Value) (h : value.Sound {}) :
    Markup.read (toHtml value) = (value.put {}).tokens ∧
      Markup.skeleton (Markup.read (toHtml value)) =
        Markup.skeleton (Markup.read (toHtml value.blank)) := by
  have hstart : stand {} = {} := rfl
  have hread := (readFrom_toHtml value {} (hstart ▸ h)).1
  have hblank := (readFrom_toHtml value.blank {} (hstart ▸ sound_blank value {} h)).1
  have halike := congrArg Reader.tokens (alike_put value {} {} (hstart ▸ h) rfl)
  rw [Markup.read, Markup.read, hread, hblank]
  exact ⟨rfl, halike⟩

end sound

/-! ## Templates -/

section templates

variable {r : Reader}

theorem stand_literal {l : List Char} {r r' : Reader} (h : stand (readFrom r l) = r') :
    stand (readFrom r (String.ofList l).toList) = r' := by
  rwa [String.toList_ofList]

theorem takesData_text : ({} : Reader).TakesData := ⟨rfl, .inl rfl⟩

theorem takesData_value : ({ place := .value '"' [] } : Reader).TakesData :=
  ⟨rfl, .inr ⟨'"', [], rfl, by decide⟩⟩

/-- The button of a state. -/
def stateButton (id label : List Char) : Value :=
  .markup
    ["<button class=\"btn btn--secondary\" type=\"button\" id=\"".toList, "\">".toList,
      "</button>".toList]
    [.text id, .text label]

def emptyState (icon title body : List Char) (action : Option (List Char × List Char)) : Value :=
  .markup
    ["<div class=\"state\">\n    <span class=\"state__icon\" data-lucide=\"".toList,
      "\" data-icon-size=\"20\"></span>\n    <p class=\"state__title\">".toList,
      "</p>\n    <p class=\"state__body\">".toList, "</p>\n    ".toList, "\n  </div>".toList]
    [.text icon, .text title, .text body,
      action.elim (.text []) fun action => stateButton action.1 action.2]

/-- `retry` is the label of the button, `t('error.retry')`. -/
def errorState (retry title message : List Char) (retryId : Option (List Char)) : Value :=
  .markup
    ["<div class=\"state state--error\" role=\"alert\">\n    ".toList ++
        ("<span class=\"state__icon\" data-lucide=\"triangle-alert\" data-icon-size=\"20\">".toList ++
          "</span>\n    <p class=\"state__title\">".toList),
      "</p>\n    <p class=\"state__body\">".toList, "</p>\n    ".toList, "\n  </div>".toList]
    [.text title, .text message, retryId.elim (.text []) fun id => stateButton id retry]

/-- A piece of evidence to choose; `label` is its `locatorLabel`. -/
def evidenceOption (selected index : ℕ) (filename label : List Char) : Value :=
  .markup
    ["<option value=\"".toList, "\" ".toList, ">".toList, ". ".toList, " · ".toList,
      "</option>".toList]
    [.text (toString index).toList, .word (if index = selected then "selected".toList else []),
      .text (toString (index + 1)).toList,
      .text (if filename = [] then "来源文件未记录".toList else filename), .text label]

def evidenceSelector (evidence : List (List Char × List Char)) (selected : ℕ) : Value :=
  if evidence.length < 2 then .text []
  else .markup
    ["<div class=\"reader-evidence-picker\">\n    ".toList ++
        "<label for=\"reader-evidence-choice\">匹配证据 · 共 ".toList,
      " 份</label>\n    <select id=\"reader-evidence-choice\" data-evidence-select ".toList ++
        "aria-describedby=\"reader-evidence-selection-status\">\n      ".toList,
      "\n    </select>\n    <p id=\"reader-evidence-selection-status\" ".toList ++
        "data-evidence-selection-status role=\"status\">当前显示第 ".toList,
      " 份；切换后可继续核对其他证据。</p>\n  </div>".toList]
    [.text (toString evidence.length).toList,
      .array (evidence.mapIdx fun index entry => evidenceOption selected index entry.1 entry.2),
      .text (toString (selected + 1)).toList]

theorem sound_stateButton (id label : List Char) : (stateButton id label).Sound {} := by
  have hopen : stand (readFrom { place := .text }
      "<button class=\"btn btn--secondary\" type=\"button\" id=\"".toList) =
        { place := .value '"' [] } := stand_literal (by decide)
  have hlabel : stand (readFrom { place := .value '"' [] } "\">".toList) = {} :=
    stand_literal (by decide)
  have hclose : stand (readFrom {} "</button>".toList) = {} := stand_literal (by decide)
  refine ⟨rfl, rfl, ?_⟩
  simp only [SoundHoles, Value.Sound, hopen, hlabel, List.headD_cons, hclose]
  exact ⟨takesData_value, takesData_text, trivial⟩

/-- An empty state is sound, whatever its texts are. -/
theorem sound_emptyState (icon title body : List Char) (action : Option (List Char × List Char)) :
    (emptyState icon title body action).Sound {} := by
  have hicon : stand (readFrom { place := .text }
      "<div class=\"state\">\n    <span class=\"state__icon\" data-lucide=\"".toList) =
        { place := .value '"' [] } := stand_literal (by decide)
  have htitle : stand (readFrom { place := .value '"' [] }
      "\" data-icon-size=\"20\"></span>\n    <p class=\"state__title\">".toList) = {} :=
    stand_literal (by decide)
  have hbody : stand (readFrom {} "</p>\n    <p class=\"state__body\">".toList) = {} :=
    stand_literal (by decide)
  have haction : stand (readFrom {} "</p>\n    ".toList) = {} := stand_literal (by decide)
  have hclose : stand (readFrom {} "\n  </div>".toList) = {} := stand_literal (by decide)
  refine ⟨rfl, rfl, ?_⟩
  simp only [SoundHoles, Value.Sound, hicon, htitle, hbody, haction, List.headD_cons, hclose]
  refine ⟨takesData_value, takesData_text, takesData_text, ?_, trivial⟩
  cases action with
  | none => exact takesData_text
  | some action => exact sound_stateButton action.1 action.2

/-- An error state is sound, whatever the service answers. -/
theorem sound_errorState (retry title message : List Char) (retryId : Option (List Char)) :
    (errorState retry title message retryId).Sound {} := by
  have hopen : stand (readFrom { place := .text }
      "<div class=\"state state--error\" role=\"alert\">\n    ".toList) = {} :=
    stand_literal (by decide)
  have hicon : stand (readFrom {}
      ("<span class=\"state__icon\" data-lucide=\"triangle-alert\" data-icon-size=\"20\">").toList) =
        {} := stand_literal (by decide)
  have htitle : stand (readFrom {} "</span>\n    <p class=\"state__title\">".toList) = {} :=
    stand_literal (by decide)
  have hmessage : stand (readFrom {} "</p>\n    <p class=\"state__body\">".toList) = {} :=
    stand_literal (by decide)
  have hbutton : stand (readFrom {} "</p>\n    ".toList) = {} := stand_literal (by decide)
  have hclose : stand (readFrom {} "\n  </div>".toList) = {} := stand_literal (by decide)
  refine ⟨rfl, rfl, ?_⟩
  simp only [SoundHoles, Value.Sound, stand_append, hopen, hicon, htitle, hmessage, hbutton,
    List.headD_cons, hclose]
  refine ⟨takesData_text, takesData_text, ?_, trivial⟩
  cases retryId with
  | none => exact takesData_text
  | some id => exact sound_stateButton id retry

theorem soundItems_of_forall {items : List Value} {r : Reader} (h : ∀ item ∈ items, item.Sound r) :
    SoundItems r items := by
  induction items with
  | nil => trivial
  | cons item items ih =>
    obtain ⟨hitem, hitems⟩ := List.forall_mem_cons.1 h
    exact ⟨hitem, ih hitems⟩

theorem sound_evidenceOption (selected index : ℕ) (filename label : List Char) :
    (evidenceOption selected index filename label).Sound {} := by
  have hvalue : stand (readFrom { place := .text } "<option value=\"".toList) =
      { place := .value '"' [] } := stand_literal (by decide)
  have hselected : stand (readFrom { place := .value '"' [] } "\" ".toList) =
      { place := .tag [] } := stand_literal (by decide)
  have hnumber : stand (readFrom { place := .tag [] } ">".toList) = {} :=
    stand_literal (by decide)
  have hfilename : stand (readFrom {} ". ".toList) = {} := stand_literal (by decide)
  have hlabel : stand (readFrom {} " · ".toList) = {} := stand_literal (by decide)
  have hclose : stand (readFrom {} "</option>".toList) = {} := stand_literal (by decide)
  refine ⟨rfl, rfl, ?_⟩
  simp only [SoundHoles, Value.Sound, hvalue, hselected, hnumber, hfilename, hlabel,
    List.headD_cons, hclose]
  refine ⟨takesData_value, ⟨.inr ⟨rfl, [], rfl⟩, ?_⟩, takesData_text, takesData_text,
    takesData_text, trivial⟩
  by_cases hindex : index = selected
  · rw [if_pos hindex]
    decide
  · rw [if_neg hindex]
    rfl

/-- The choice of the evidence is sound, whatever the files are called. -/
theorem sound_evidenceSelector (evidence : List (List Char × List Char)) (selected : ℕ) :
    (evidenceSelector evidence selected).Sound {} := by
  have hpicker : stand (readFrom { place := .text }
      "<div class=\"reader-evidence-picker\">\n    ".toList) = {} := stand_literal (by decide)
  have hcount : stand (readFrom {}
      "<label for=\"reader-evidence-choice\">匹配证据 · 共 ".toList) = {} :=
    stand_literal (by decide)
  have hselect : stand (readFrom {}
      " 份</label>\n    <select id=\"reader-evidence-choice\" data-evidence-select ".toList) =
        { place := .tag [] } := stand_literal (by decide)
  have hdescribed : stand (readFrom { place := .tag [] }
      "aria-describedby=\"reader-evidence-selection-status\">\n      ".toList) = {} :=
    stand_literal (by decide)
  have hstatus : stand (readFrom {}
      "\n    </select>\n    <p id=\"reader-evidence-selection-status\" ".toList) =
        { place := .tag [] } := stand_literal (by decide)
  have hshown : stand (readFrom { place := .tag [] }
      "data-evidence-selection-status role=\"status\">当前显示第 ".toList) = {} :=
    stand_literal (by decide)
  have hclose : stand (readFrom {} " 份；切换后可继续核对其他证据。</p>\n  </div>".toList) = {} :=
    stand_literal (by decide)
  have hoptions : SoundItems {}
      (evidence.mapIdx fun index entry => evidenceOption selected index entry.1 entry.2) := by
    refine soundItems_of_forall fun item hitem => ?_
    obtain ⟨index, hindex, rfl⟩ := List.mem_mapIdx.1 hitem
    exact sound_evidenceOption _ _ _ _
  unfold evidenceSelector
  by_cases hlength : evidence.length < 2
  · rw [if_pos hlength]
    exact takesData_text
  · rw [if_neg hlength]
    refine ⟨rfl, rfl, ?_⟩
    simp only [SoundHoles, Value.Sound, stand_append, hpicker, hcount, hselect, hdescribed, hstatus,
      hshown, List.headD_cons, hclose]
    exact ⟨takesData_text, hoptions, takesData_text, trivial⟩

end templates

/-! ## Quotations -/

section quotations

/-- The number of UTF-16 units of a character. -/
def units (c : Char) : ℕ := if c.toNat < 0x10000 then 1 else 2

/-- `text.length` -/
def jsLength (s : List Char) : ℕ := (s.map units).sum

/-- `text.slice(0, n)` -/
def slice (n : ℕ) : List Char → List Char
  | [] => []
  | c :: s => if units c ≤ n then c :: slice (n - units c) s else []

/-- What `trim` takes off. -/
def isBlank (c : Char) : Bool :=
  let n := c.toNat
  (9 ≤ n && n ≤ 13) || n == 0x20 || n == 0xa0 || n == 0x1680 || (0x2000 ≤ n && n ≤ 0x200a) ||
    n == 0x2028 || n == 0x2029 || n == 0x202f || n == 0x205f || n == 0x3000 || n == 0xfeff

def trim (s : List Char) : List Char := ((s.dropWhile isBlank).reverse.dropWhile isBlank).reverse

variable (canonicalize : Char → Char)

/-- The length of the first of the words that the text begins with, without regard to case. -/
def matchWord (words : List (List Char)) (s : List Char) : Option ℕ :=
  (words.find? fun word => word.map canonicalize = (s.take word.length).map canonicalize).map
    List.length

/-- `value.split(expression)`, where the expression is in a group: the texts between the matches,
with the matches between them.  `before` is what has been read of the text since the last match. -/
def splitWords (words : List (List Char)) (before : List Char) : List Char → List (List Char)
  | [] => [before]
  | c :: s =>
    match matchWord canonicalize words (c :: s) with
    | some (n + 1) => before :: (c :: s.take n) :: splitWords words [] (s.drop n)
    | _ => splitWords words (before ++ [c]) s
termination_by s => s.length
decreasing_by
  · simp only [List.length_drop, List.length_cons]
    omega
  · simp

/-- The words that are marked, the longest first. -/
def markedWords (terms : List (List Char)) : List (List Char) :=
  let words := (((terms.map trim).filter (· ≠ [])).eraseDups.take 16).map (slice 80)
  words.insertionSort fun a b => jsLength b ≤ jsLength a

def plain (part : List Char) : Value := .markup [[], []] [.text part]

def mark (part : List Char) : Value := .markup ["<mark>".toList, "</mark>".toList] [.text part]

def highlightQuote (text : List Char) (terms : List (List Char)) : Value :=
  let words := markedWords terms
  if words = [] then plain text
  else .markup [[], []] [.array ((splitWords canonicalize words [] text).mapIdx fun index part =>
    if index % 2 = 1 then mark part else plain part)]

/-! ### What is shown of a quotation -/

variable {canonicalize} {tokens : List Token} {part : List Char}

/-- The characters of the text. -/
def texts (tokens : List Token) : List Char :=
  tokens.filterMap fun
    | .text c => some c
    | .tag _ => none

theorem texts_append (tokens tokens' : List Token) :
    texts (tokens ++ tokens') = texts tokens ++ texts tokens' := List.filterMap_append

theorem texts_map_text (s : List Char) : texts (s.map .text) = s := by
  rw [texts, List.filterMap_map]
  exact List.filterMap_some

def markTags : List Token := Markup.read "<mark>".toList ++ Markup.read "</mark>".toList

theorem flatten_splitWords (words : List (List Char)) (before s : List Char) :
    (splitWords canonicalize words before s).flatten = before ++ s := by
  induction before, s using splitWords.induct canonicalize words with
  | case1 before => simp [splitWords]
  | case2 before c s n hmatch ih =>
    rw [splitWords, hmatch]
    simp [ih]
  | case3 before c s hmatch ih =>
    rw [splitWords]
    split
    · rename_i n hsome
      exact absurd hsome (hmatch n)
    · simp [ih]

theorem put_plain (tokens : List Token) (part : List Char) :
    (plain part).put { tokens := tokens } = { tokens := tokens ++ part.map .text } :=
  Markup.foldl_put_text tokens part

theorem put_mark (tokens : List Token) (part : List Char) :
    (mark part).put { tokens := tokens } =
      { tokens := tokens ++ Markup.read "<mark>".toList ++ part.map .text ++
          Markup.read "</mark>".toList } := by
  have hopen : Markup.Complete "<mark>".toList := by decide
  have hclose : Markup.Complete "</mark>".toList := by decide
  show readFrom (part.foldl Reader.put (readFrom { tokens := tokens } "<mark>".toList))
    "</mark>".toList = _
  rw [hopen.readFrom_eq, Markup.foldl_put_text, hclose.readFrom_eq]

/-- Each part adds its text, and perhaps a pair of marks. -/
theorem put_parts {items : List Value} {parts : List (List Char)}
    (h : List.Forall₂ (fun item part => item = plain part ∨ item = mark part) items parts)
    (tokens : List Token) :
    ∃ added n, putItems { tokens := tokens } items = { tokens := tokens ++ added } ∧
      texts added = parts.flatten ∧
      Markup.skeleton added = (List.replicate n markTags).flatten := by
  induction h generalizing tokens with
  | nil => exact ⟨[], 0, by simp [putItems], rfl, rfl⟩
  | @cons item part items parts hitem _ ih =>
    obtain rfl | rfl := hitem
    · obtain ⟨added, n, hput, htexts, hskeleton⟩ := ih (tokens ++ part.map .text)
      refine ⟨part.map .text ++ added, n, ?_, ?_, ?_⟩
      · rw [putItems, put_plain, hput, List.append_assoc]
      · rw [texts_append, texts_map_text, htexts, List.flatten_cons]
      · rw [Markup.skeleton_append, Markup.skeleton_map_text, hskeleton, List.nil_append]
    · obtain ⟨added, n, hput, htexts, hskeleton⟩ :=
        ih (tokens ++ Markup.read "<mark>".toList ++ part.map .text ++ Markup.read "</mark>".toList)
      have hopen : texts (Markup.read "<mark>".toList) = [] := by decide
      have hclose : texts (Markup.read "</mark>".toList) = [] := by decide
      have hskeletons : Markup.skeleton (Markup.read "<mark>".toList) ++
          Markup.skeleton (Markup.read "</mark>".toList) = markTags := by decide
      refine ⟨Markup.read "<mark>".toList ++
        (part.map .text ++ (Markup.read "</mark>".toList ++ added)),
        n + 1, ?_, ?_, ?_⟩
      · rw [putItems, put_mark, hput]
        simp only [List.append_assoc]
      · rw [texts_append, texts_append, texts_append, texts_map_text, htexts, hopen, hclose,
          List.flatten_cons, List.nil_append, List.nil_append]
      · rw [Markup.skeleton_append, Markup.skeleton_append, Markup.skeleton_append,
          Markup.skeleton_map_text, hskeleton, List.nil_append, ← List.append_assoc, hskeletons,
          List.replicate_succ, List.flatten_cons]

theorem sound_plain (part : List Char) : (plain part).Sound {} :=
  ⟨rfl, rfl, takesData_text, rfl⟩

theorem sound_mark (part : List Char) : (mark part).Sound {} := by
  have hopen : stand (readFrom { place := .text } "<mark>".toList) = {} :=
    stand_literal (by decide)
  have hclose : stand (readFrom {} "</mark>".toList) = {} := stand_literal (by decide)
  refine ⟨rfl, rfl, ?_⟩
  simp only [SoundHoles, Value.Sound, hopen, List.headD_cons, hclose]
  exact ⟨takesData_text, trivial⟩

theorem forall₂_mapIdx {f : ℕ → List Char → Value} (parts : List (List Char))
    (h : ∀ index part, f index part = plain part ∨ f index part = mark part) :
    List.Forall₂ (fun item part => item = plain part ∨ item = mark part)
      (parts.mapIdx f) parts := by
  induction parts generalizing f with
  | nil => exact .nil
  | cons part parts ih =>
    rw [List.mapIdx_cons]
    exact .cons (h 0 part) (ih fun index part => h (index + 1) part)

theorem forall_sound {items : List Value} {parts : List (List Char)}
    (h : List.Forall₂ (fun item part => item = plain part ∨ item = mark part) items parts) :
    ∀ item ∈ items, item.Sound {} := by
  induction h with
  | nil => exact List.forall_mem_nil _
  | @cons item part items parts hitem _ ih =>
    refine List.forall_mem_cons.2 ⟨?_, ih⟩
    obtain rfl | rfl := hitem
    · exact sound_plain part
    · exact sound_mark part

/-- What is shown of a quotation is the quotation, for all terms, and its only tags are marks. -/
theorem read_highlightQuote (canonicalize : Char → Char) (text : List Char)
    (terms : List (List Char)) :
    texts (Markup.read (toHtml (highlightQuote canonicalize text terms))) = text ∧
      ∃ n, Markup.skeleton (Markup.read (toHtml (highlightQuote canonicalize text terms))) =
        (List.replicate n markTags).flatten := by
  unfold highlightQuote
  by_cases hwords : markedWords terms = []
  · have hread := (readFrom_toHtml (plain text) {} (sound_plain text)).1
    rw [if_pos hwords, Markup.read, hread, put_plain]
    exact ⟨texts_map_text text, 0, Markup.skeleton_map_text text⟩
  · rw [if_neg hwords]
    have hparts := forall₂_mapIdx
      (f := fun index part => if index % 2 = 1 then mark part else plain part)
      (splitWords canonicalize (markedWords terms) [] text) (fun index part => by
        by_cases hindex : index % 2 = 1
        · exact .inr (if_pos hindex)
        · exact .inl (if_neg hindex))
    generalize (splitWords canonicalize (markedWords terms) [] text).mapIdx _ = items at hparts ⊢
    have hsound : (Value.markup [[], []] [.array items]).Sound {} :=
      ⟨rfl, rfl, soundItems_of_forall (forall_sound hparts), rfl⟩
    have hread := (readFrom_toHtml _ {} hsound).1
    obtain ⟨added, n, hput, htexts, hskeleton⟩ := put_parts hparts []
    have hall : (Value.markup [[], []] [.array items]).put {} = { tokens := added } := hput
    rw [Markup.read, hread, hall]
    refine ⟨?_, n, hskeleton⟩
    rw [htexts, flatten_splitWords, List.nil_append]

theorem read_toHtml_emptyState :
    Markup.skeleton (Markup.read (toHtml (emptyState "x\" onload=\"".toList "<script>".toList
      "&lt;'".toList (some ("\"><b".toList, "</p>".toList))))) =
        Markup.skeleton (Markup.read (toHtml (emptyState [] [] [] (some ([], []))))) :=
  (read_toHtml _ (sound_emptyState "x\" onload=\"".toList "<script>".toList "&lt;'".toList
    (some ("\"><b".toList, "</p>".toList)))).2

end quotations

end BidProof.Client
