import Mathlib.Data.List.Induction

/-!
# Markup

A reader of the markup that templates are written in: text, tags, the quoted values of attributes,
and the references of the five characters that an escaped value does not have itself.

Within text or a quoted value the reader takes an escaped value for the characters that were escaped
(`foldl_step_escape`), so a value cannot end the place it was put into.  Markup that begins and ends
in text (`Complete`) is read piece by piece (`read_append`).  The `skeleton` of what was read is
what is left of it without the characters that were put: it does not depend on them
(`skeleton_foldl_put`), and reading on gives the same skeleton (`skeleton_foldl_step`).
-/

namespace Markup

/-- What a tag is made of: the characters outside of quotes, the quotes, and those within. -/
inductive Part
  | bare (c : Char)
  | quote (c : Char)
  | value (c : Char)
  deriving DecidableEq

inductive Token
  | text (c : Char)
  | tag (parts : List Part)
  deriving DecidableEq

/-- Where the reader is. -/
inductive Place
  | text
  | tag (parts : List Part)
  | value (quote : Char) (parts : List Part)
  deriving DecidableEq

/-- A reader; `reference` has what follows an ampersand. -/
structure Reader where
  place : Place := .text
  reference : Option (List Char) := none
  tokens : List Token := []
  deriving DecidableEq

def references : List (List Char × Char) :=
  [("amp".toList, '&'), ("lt".toList, '<'), ("gt".toList, '>'), ("quot".toList, '"'),
    ("#x27".toList, '\''), ("#039".toList, '\'')]

namespace Reader

/-- A character that stands for itself. -/
def put (r : Reader) (c : Char) : Reader :=
  match r.place with
  | .text => { r with tokens := r.tokens ++ [.text c] }
  | .tag parts => { r with place := .tag (parts ++ [.bare c]) }
  | .value quote parts => { r with place := .value quote (parts ++ [.value c]) }

/-- A character outside of a reference. -/
def stepPlain (r : Reader) (c : Char) : Reader :=
  match r.place with
  | .text =>
    if c = '<' then { r with place := .tag [] }
    else if c = '&' then { r with reference := some [] }
    else r.put c
  | .tag parts =>
    if c = '>' then { r with place := .text, tokens := r.tokens ++ [.tag parts] }
    else if c = '"' ∨ c = '\'' then { r with place := .value c (parts ++ [.quote c]) }
    else r.put c
  | .value quote parts =>
    if c = quote then { r with place := .tag (parts ++ [.quote quote]) }
    else if c = '&' then { r with reference := some [] }
    else r.put c

/-- A reference that is not known stands for itself. -/
def step (r : Reader) (c : Char) : Reader :=
  match r.reference with
  | none => r.stepPlain c
  | some name =>
    let r' := { r with reference := none }
    if c = ';' then
      match references.lookup name with
      | some x => r'.put x
      | none => ('&' :: (name ++ [';'])).foldl put r'
    else if c.isAlphanum ∨ c = '#' then { r with reference := some (name ++ [c]) }
    else (('&' :: name).foldl put r').stepPlain c

end Reader

open Reader

def readFrom (r : Reader) (s : List Char) : Reader := s.foldl step r

/-- The tokens of a text. -/
def read (s : List Char) : List Token := (readFrom {} s).tokens

/-- The text ends where it began. -/
def Complete (s : List Char) : Prop :=
  (readFrom {} s).place = .text ∧ (readFrom {} s).reference = none

instance decidableComplete (s : List Char) : Decidable (Complete s) :=
  inferInstanceAs (Decidable (_ ∧ _))

/-! ## Values -/

section values

variable {r : Reader} {s t : List Char}

/-- Within text or a quoted value, and not within a reference. -/
def Reader.TakesData (r : Reader) : Prop :=
  r.reference = none ∧
    (r.place = .text ∨ ∃ quote parts, r.place = .value quote parts ∧ quote ∈ ['"', '\''])

/-- A way to write characters such that they are read as themselves. -/
structure Escape where
  char : Char → List Char
  put : ∀ r : Reader, r.TakesData → ∀ c, readFrom r (char c) = r.put c

theorem Reader.TakesData.put (h : r.TakesData) (c : Char) : (r.put c).TakesData := by
  obtain ⟨hreference, hplace | ⟨quote, parts, hplace, hquote⟩⟩ := h
  · simp [Reader.put, TakesData, hplace, hreference]
  · refine ⟨by simp [Reader.put, hplace, hreference], .inr ⟨quote, parts ++ [.value c], ?_, hquote⟩⟩
    simp [Reader.put, hplace]

/-- A character without a meaning. -/
def Ordinary (c : Char) : Prop := c ∉ ['&', '<', '>', '"', '\'']

instance decidableOrdinary : DecidablePred Ordinary := fun c =>
  inferInstanceAs (Decidable (c ∉ ['&', '<', '>', '"', '\'']))

theorem Reader.TakesData.step_ordinary (h : r.TakesData) {c : Char} (hc : Ordinary c) :
    r.step c = r.put c := by
  simp only [Ordinary, List.mem_cons, List.not_mem_nil, or_false, not_or] at hc
  obtain ⟨hreference, hplace | ⟨quote, parts, hplace, hquote⟩⟩ := h
  · simp [step, hreference, stepPlain, hplace, hc]
  · have hne : c ≠ quote := by
      simp only [List.mem_cons, List.not_mem_nil, or_false] at hquote
      rintro rfl
      tauto
    simp [step, hreference, stepPlain, hplace, hc, hne]

/-- A reference is read as its character. -/
theorem Reader.TakesData.readFrom_reference (h : r.TakesData) {name : List Char} {c : Char}
    (hname : ∀ x ∈ name, x.isAlphanum ∨ x = '#') (hlookup : references.lookup name = some c) :
    readFrom r ('&' :: (name ++ [';'])) = r.put c := by
  have hopen : r.step '&' = { r with reference := some [] } := by
    obtain ⟨hreference, hplace | ⟨quote, parts, hplace, hquote⟩⟩ := h
    · simp [step, hreference, stepPlain, hplace]
    · have hne : '&' ≠ quote := by
        rintro rfl
        simp at hquote
      simp [step, hreference, stepPlain, hplace, hne]
  have hcollect : ∀ before : List Char,
      name.foldl step { r with reference := some before } =
        { r with reference := some (before ++ name) } := by
    clear hlookup
    induction name with
    | nil => simp
    | cons x name ih =>
      intro before
      obtain ⟨hx, hname⟩ := List.forall_mem_cons.1 hname
      have hsemi : x ≠ ';' := by
        rintro rfl
        revert hx
        decide
      rw [List.foldl_cons]
      have hstep : step { r with reference := some before } x =
          { r with reference := some (before ++ [x]) } := by
        simp [step, hsemi, hx]
      rw [hstep, ih hname]
      simp
  have hreference : { r with reference := none } = r := by
    cases r
    simp_all [TakesData]
  rw [readFrom, List.foldl_cons, hopen, List.foldl_append, hcollect, List.nil_append,
    List.foldl_cons, List.foldl_nil]
  simp [step, hlookup, hreference]

/-- A text is read as the characters that were escaped. -/
theorem readFrom_escape (e : Escape) (h : r.TakesData) (s : List Char) :
    readFrom r (s.flatMap e.char) = s.foldl Reader.put r := by
  induction s generalizing r with
  | nil => rfl
  | cons c s ih =>
    rw [List.flatMap_cons, readFrom, List.foldl_append]
    have hc := e.put r h c
    rw [readFrom] at hc
    rw [hc]
    exact ih (h.put c)

theorem readFrom_ordinary (h : r.TakesData) (hs : ∀ c ∈ s, Ordinary c) :
    readFrom r s = s.foldl Reader.put r := by
  induction s generalizing r with
  | nil => rfl
  | cons c s ih =>
    obtain ⟨hc, hs⟩ := List.forall_mem_cons.1 hs
    rw [readFrom, List.foldl_cons, h.step_ordinary hc]
    exact ih (h.put c) hs

/-- The five characters that have a meaning are written as references, of which that of the
apostrophe has two spellings. -/
def escapeChar (apostrophe : List Char) (c : Char) : List Char :=
  if c = '&' then '&' :: ("amp".toList ++ [';'])
  else if c = '<' then '&' :: ("lt".toList ++ [';'])
  else if c = '>' then '&' :: ("gt".toList ++ [';'])
  else if c = '"' then '&' :: ("quot".toList ++ [';'])
  else if c = '\'' then '&' :: (apostrophe ++ [';'])
  else [c]

def escapeWith (apostrophe : List Char) (hname : ∀ x ∈ apostrophe, x.isAlphanum ∨ x = '#')
    (hlookup : references.lookup apostrophe = some '\'') : Escape where
  char := escapeChar apostrophe
  put r h c := by
    unfold escapeChar
    split_ifs with hamp hlt hgt hquot hapos
    · subst hamp
      exact h.readFrom_reference (by simp) (by decide)
    · subst hlt
      exact h.readFrom_reference (by simp) (by decide)
    · subst hgt
      exact h.readFrom_reference (by simp) (by decide)
    · subst hquot
      exact h.readFrom_reference (by simp) (by decide)
    · subst hapos
      exact h.readFrom_reference hname hlookup
    · refine h.step_ordinary ?_
      simp [Ordinary, hamp, hlt, hgt, hquot, hapos]

end values

/-! ## Pieces -/

section pieces

variable {r : Reader} {s t : List Char}

/-- The reader after other tokens. -/
def Reader.after (before : List Token) (r : Reader) : Reader :=
  { r with tokens := before ++ r.tokens }

theorem put_after (before : List Token) (r : Reader) (c : Char) :
    (r.after before).put c = (r.put c).after before := by
  cases hplace : r.place <;> simp [Reader.put, Reader.after, hplace]

theorem foldl_put_after (before : List Token) (r : Reader) (s : List Char) :
    s.foldl Reader.put (r.after before) = (s.foldl Reader.put r).after before := by
  induction s generalizing r with
  | nil => rfl
  | cons c s ih => rw [List.foldl_cons, List.foldl_cons, put_after, ih]

theorem stepPlain_after (before : List Token) (r : Reader) (c : Char) :
    (r.after before).stepPlain c = (r.stepPlain c).after before := by
  have hput := put_after before r c
  have hplace : (r.after before).place = r.place := rfl
  unfold stepPlain
  rw [hplace]
  cases r.place with
  | text =>
    simp only [hput]
    split_ifs <;> rfl
  | tag parts =>
    simp only [hput]
    split_ifs
    · simp [Reader.after]
    · rfl
    · rfl
  | value quote parts =>
    simp only [hput]
    split_ifs <;> rfl

theorem step_after (before : List Token) (r : Reader) (c : Char) :
    (r.after before).step c = (r.step c).after before := by
  have hreference : (r.after before).reference = r.reference := rfl
  unfold step
  rw [hreference]
  cases r.reference with
  | none => exact stepPlain_after before r c
  | some name =>
    have hafter : ({ r.after before with reference := none } : Reader) =
        ({ r with reference := none } : Reader).after before := rfl
    simp only [hafter, put_after, foldl_put_after, stepPlain_after]
    split_ifs
    · cases references.lookup name <;> rfl
    · rfl
    · rfl

theorem readFrom_after (before : List Token) (r : Reader) (s : List Char) :
    readFrom (r.after before) s = (readFrom r s).after before := by
  unfold readFrom
  induction s generalizing r with
  | nil => rfl
  | cons c s ih => rw [List.foldl_cons, List.foldl_cons, step_after, ih]

/-- A complete text only adds its tokens. -/
theorem Complete.readFrom_eq (hs : Complete s) (tokens : List Token) :
    readFrom { tokens := tokens } s = { tokens := tokens ++ read s } := by
  have hstart : ({ tokens := tokens } : Reader) = ({} : Reader).after tokens := by
    simp [Reader.after]
  have hend : readFrom {} s = { tokens := read s } := by
    obtain ⟨hplace, hreference⟩ := hs
    unfold read
    cases hr : readFrom {} s
    simp_all
  rw [hstart, readFrom_after, hend]
  rfl

theorem Complete.append (hs : Complete s) (ht : Complete t) : Complete (s ++ t) := by
  have h : readFrom {} (s ++ t) = readFrom { tokens := read s } t := by
    rw [readFrom, List.foldl_append]
    exact congrArg (readFrom · t) (hs.readFrom_eq [])
  rw [Complete, h, ht.readFrom_eq]
  exact ⟨rfl, rfl⟩

theorem read_append (hs : Complete s) : read (s ++ t) = read s ++ read t := by
  have h : readFrom {} (s ++ t) = readFrom { tokens := read s } t := by
    rw [readFrom, List.foldl_append]
    exact congrArg (readFrom · t) (hs.readFrom_eq [])
  have hstart : ({ tokens := read s } : Reader) = ({} : Reader).after (read s) := by
    simp [Reader.after]
  rw [read, h, hstart, readFrom_after]
  rfl

theorem read_flatten {ss : List (List Char)} (h : ∀ s ∈ ss, Complete s) :
    read ss.flatten = (ss.map read).flatten := by
  induction ss with
  | nil => rfl
  | cons s ss ih =>
    obtain ⟨hs, hss⟩ := List.forall_mem_cons.1 h
    rw [List.flatten_cons, read_append hs, ih hss, List.map_cons, List.flatten_cons]

theorem foldl_put_text (tokens : List Token) (s : List Char) :
    s.foldl Reader.put { tokens := tokens } = { tokens := tokens ++ s.map .text } := by
  induction s generalizing tokens with
  | nil => simp
  | cons c s ih =>
    have hput : ({ tokens := tokens } : Reader).put c = { tokens := tokens ++ [.text c] } := rfl
    rw [List.foldl_cons, hput, ih]
    simp

theorem takesData_start (tokens : List Token) : ({ tokens := tokens } : Reader).TakesData :=
  ⟨rfl, .inl rfl⟩

/-- An escaped value is complete. -/
theorem complete_escape (e : Escape) (s : List Char) : Complete (s.flatMap e.char) := by
  rw [Complete, readFrom_escape e (takesData_start []), foldl_put_text]
  exact ⟨rfl, rfl⟩

theorem read_escape (e : Escape) (s : List Char) : read (s.flatMap e.char) = s.map .text := by
  rw [read, readFrom_escape e (takesData_start []), foldl_put_text]
  rfl

theorem complete_ordinary (hs : ∀ c ∈ s, Ordinary c) : Complete s := by
  rw [Complete, readFrom_ordinary (takesData_start []) hs, foldl_put_text]
  exact ⟨rfl, rfl⟩

theorem read_ordinary (hs : ∀ c ∈ s, Ordinary c) : read s = s.map .text := by
  rw [read, readFrom_ordinary (takesData_start []) hs, foldl_put_text]
  rfl

end pieces

/-! ## Templates without holes in tags -/

/-- A piece of a page: markup of the template, a value that is escaped, or a number. -/
inductive Piece
  | markup (s : String)
  | value (s : List Char)
  | count (n : ℕ)
  deriving DecidableEq

section templates

variable (e : Escape)

def Piece.render : Piece → List Char
  | .markup s => s.toList
  | .value s => s.flatMap e.char
  | .count n => (toString n).toList

/-- What is read of a piece. -/
def Piece.tokens : Piece → List Token
  | .markup s => read s.toList
  | .value s => s.map .text
  | .count n => (toString n).toList.map .text

def Piece.Complete : Piece → Prop
  | .markup s => Markup.Complete s.toList
  | .value _ | .count _ => True

instance Piece.decidableComplete : DecidablePred Piece.Complete
  | .markup s => inferInstanceAs (Decidable (Markup.Complete s.toList))
  | .value _ | .count _ => isTrue trivial

def render (pieces : List Piece) : List Char := pieces.flatMap (Piece.render e)

variable {e}

theorem ordinary_toString (n : ℕ) : ∀ c ∈ (toString n).toList, Ordinary c := by
  intro c hc
  have hdigit : c.isDigit = true := by
    rw [Nat.toString_eq_repr, Nat.toList_repr] at hc
    exact Nat.isDigit_of_mem_toDigits (by decide) (by decide) hc
  simp only [Ordinary, List.mem_cons, List.not_mem_nil, or_false, not_or]
  refine ⟨?_, ?_, ?_, ?_, ?_⟩ <;>
    · rintro rfl
      revert hdigit
      decide

theorem complete_render {piece : Piece} (h : piece.Complete) : Complete (piece.render e) := by
  cases piece with
  | markup s => exact h
  | value s => exact complete_escape e s
  | count n => exact complete_ordinary (ordinary_toString n)

theorem read_piece {piece : Piece} : read (piece.render e) = piece.tokens := by
  cases piece with
  | markup s => rfl
  | value s => exact read_escape e s
  | count n => exact read_ordinary (ordinary_toString n)

/-- A page is read piece by piece. -/
theorem read_render {pieces : List Piece} (h : ∀ piece ∈ pieces, piece.Complete) :
    read (render e pieces) = pieces.flatMap Piece.tokens := by
  rw [render, List.flatMap, read_flatten, List.map_map, List.flatMap]
  · exact congrArg _ (List.map_congr_left fun piece _ => read_piece)
  · rw [List.forall_mem_map]
    exact fun piece hpiece => complete_render (h piece hpiece)

end templates

/-! ## What does not depend on the values -/

section skeleton

variable {keep : Part → Bool} {tags : Bool} {r r' : Reader}

def Token.forget (keep : Part → Bool) (tags : Bool) : Token → Option Token
  | .text _ => none
  | .tag parts => if tags then some (.tag (parts.filter keep)) else none

def Place.forget (keep : Part → Bool) : Place → Place
  | .text => .text
  | .tag parts => .tag (parts.filter keep)
  | .value quote parts => .value quote (parts.filter keep)

/-- The reader without the text, and with only some of the parts of its tags. -/
def Reader.forget (keep : Part → Bool) (tags : Bool) (r : Reader) : Reader where
  place := r.place.forget keep
  reference := r.reference
  tokens := r.tokens.filterMap (Token.forget keep tags)

theorem Token.forget_forget (token : Token) :
    (token.forget keep tags).bind (Token.forget keep tags) = token.forget keep tags := by
  cases token with
  | text c => rfl
  | tag parts => cases tags <;> simp [Token.forget, List.filter_filter]

@[simp] theorem Place.forget_forget (place : Place) :
    (place.forget keep).forget keep = place.forget keep := by
  cases place <;> simp [Place.forget, List.filter_filter]

@[simp] theorem Reader.forget_forget (r : Reader) :
    (r.forget keep tags).forget keep tags = r.forget keep tags := by
  simp only [Reader.forget, Place.forget_forget, List.filterMap_filterMap, Token.forget_forget]

theorem forget_put (r : Reader) (c : Char) :
    ((r.forget keep tags).put c).forget keep tags = (r.put c).forget keep tags := by
  have hforget : (r.forget keep tags).forget keep tags = r.forget keep tags := r.forget_forget
  have htokens := congrArg Reader.tokens hforget
  simp only [Reader.forget] at htokens
  cases hplace : r.place <;>
    simp [Reader.put, Reader.forget, hplace, Place.forget, List.filter_filter, htokens]

theorem forget_foldl_put (r : Reader) (s : List Char) :
    (s.foldl Reader.put (r.forget keep tags)).forget keep tags =
      (s.foldl Reader.put r).forget keep tags := by
  induction s using List.reverseRecOn with
  | nil => exact r.forget_forget
  | append_singleton s c ih =>
    rw [List.foldl_append, List.foldl_append, List.foldl_cons, List.foldl_cons, List.foldl_nil,
      List.foldl_nil, ← forget_put, ih, forget_put]

theorem forget_stepPlain (r : Reader) (c : Char) :
    ((r.forget keep tags).stepPlain c).forget keep tags = (r.stepPlain c).forget keep tags := by
  have hput : ((r.forget keep tags).put c).forget keep tags = (r.put c).forget keep tags :=
    forget_put r c
  have hplace : (r.forget keep tags).place = r.place.forget keep := rfl
  have hforget : (r.forget keep tags).forget keep tags = r.forget keep tags := r.forget_forget
  have htokens := congrArg Reader.tokens hforget
  simp only [Reader.forget] at htokens
  unfold stepPlain
  rw [hplace]
  cases hr : r.place with
  | text =>
    simp only [Place.forget]
    split_ifs
    · simp [Reader.forget, Place.forget, htokens]
    · simp [Reader.forget, hr, Place.forget, htokens]
    · exact hput
  | tag parts =>
    simp only [Place.forget]
    split_ifs
    · cases tags <;>
        simp [Reader.forget, Place.forget, Token.forget, List.filter_filter, htokens]
    · simp [Reader.forget, Place.forget, List.filter_filter, htokens]
    · exact hput
  | value quote parts =>
    simp only [Place.forget]
    split_ifs
    · simp [Reader.forget, Place.forget, List.filter_filter, htokens]
    · simp [Reader.forget, hr, Place.forget, List.filter_filter, htokens]
    · exact hput

theorem forget_step (r : Reader) (c : Char) :
    ((r.forget keep tags).step c).forget keep tags = (r.step c).forget keep tags := by
  have hreference : (r.forget keep tags).reference = r.reference := rfl
  unfold step
  rw [hreference]
  cases r.reference with
  | none => exact forget_stepPlain r c
  | some name =>
    have hnone : ({ r.forget keep tags with reference := none } : Reader) =
        ({ r with reference := none } : Reader).forget keep tags := rfl
    simp only [hnone]
    split_ifs
    · cases references.lookup name with
      | none => exact forget_foldl_put _ _
      | some x => exact forget_put _ _
    · have hsome : ({ r.forget keep tags with reference := some (name ++ [c]) } : Reader) =
          ({ r with reference := some (name ++ [c]) } : Reader).forget keep tags := rfl
      rw [hsome, Reader.forget_forget]
    · rw [← forget_stepPlain, forget_foldl_put, forget_stepPlain]

/-- Readers that agree on what is kept still do after a text. -/
theorem forget_readFrom (h : r.forget keep tags = r'.forget keep tags) (s : List Char) :
    (readFrom r s).forget keep tags = (readFrom r' s).forget keep tags := by
  unfold readFrom
  induction s generalizing r r' with
  | nil => exact h
  | cons c s ih =>
    rw [List.foldl_cons, List.foldl_cons]
    refine ih ?_
    rw [← forget_step, h, forget_step]

/-- A character that is put within text or a value is forgotten, if the values are. -/
theorem Reader.TakesData.forget_foldl_put (h : r.TakesData) (hkeep : ∀ c, keep (.value c) = false)
    (s : List Char) : (s.foldl Reader.put r).forget keep tags = r.forget keep tags := by
  induction s generalizing r with
  | nil => rfl
  | cons c s ih =>
    rw [List.foldl_cons, ih (h.put c)]
    obtain ⟨-, hplace | ⟨quote, parts, hplace, -⟩⟩ := h
    · simp [Reader.put, Reader.forget, hplace, Place.forget, Token.forget]
    · simp [Reader.put, Reader.forget, hplace, Place.forget, hkeep]

/-- A part of a tag that is not in the value of an attribute. -/
def Part.isStructural : Part → Bool
  | .value _ => false
  | .bare _ | .quote _ => true

/-- The tags of the tokens, without the values of their attributes. -/
def skeleton (tokens : List Token) : List Token :=
  tokens.filterMap (Token.forget Part.isStructural true)

@[simp] theorem skeleton_append (tokens tokens' : List Token) :
    skeleton (tokens ++ tokens') = skeleton tokens ++ skeleton tokens' :=
  List.filterMap_append

/-- The piece with nothing in it. -/
def Piece.blank : Piece → Piece
  | .markup s => .markup s
  | .value _ => .value []
  | .count _ => .value []

theorem skeleton_map_text (s : List Char) : skeleton (s.map .text) = [] := by
  simp [skeleton, Token.forget, List.filterMap_map, Function.comp_def]

/-- What is put into a page leaves no trace in its skeleton. -/
theorem skeleton_flatMap_tokens (pieces : List Piece) :
    skeleton (pieces.flatMap Piece.tokens) =
      skeleton ((pieces.map Piece.blank).flatMap Piece.tokens) := by
  induction pieces with
  | nil => rfl
  | cons piece pieces ih =>
    have hpiece : skeleton piece.tokens = skeleton piece.blank.tokens := by
      cases piece with
      | markup s => rfl
      | value s => exact skeleton_map_text s
      | count n => exact skeleton_map_text _
    rw [List.map_cons, List.flatMap_cons, List.flatMap_cons, skeleton_append, skeleton_append, ih,
      hpiece]

end skeleton

end Markup
