import Mathlib.Data.List.Flatten
import BidProof.Lib.Text

/-!
# XML element trees

A parsed document is a tree of elements, as Python's `ElementTree` has it: an element has a tag in
which the namespace stands in braces, attributes, the text before its first child, its children and
the text behind it.  `iter` lists an element and everything below it in document order, and
`itertext` is the text inside it.
-/

namespace Xml

inductive Element
  | mk (tag : String) (attrib : List (String × String)) (text : List Char)
    (children : List Element) (tail : List Char)

namespace Element

def tag : Element → String
  | mk tag _ _ _ _ => tag

def attrib : Element → List (String × String)
  | mk _ attrib _ _ _ => attrib

def text : Element → List Char
  | mk _ _ text _ _ => text

def children : Element → List Element
  | mk _ _ _ children _ => children

def tail : Element → List Char
  | mk _ _ _ _ tail => tail

/-- `tag.rsplit("}", 1)[-1]` -/
def localName (tag : String) : String := String.ofList (tag.toList.rtakeWhile (· ≠ '}'))

/-- The tag of a name in a namespace. -/
def qualified (namespaceUri name : String) : String :=
  "\x7b" ++ namespaceUri ++ "\x7d" ++ name

theorem localName_qualified (namespaceUri : String) {name : String} (h : '}' ∉ name.toList) :
    localName (qualified namespaceUri name) = name := by
  have hname : name.toList.rtakeWhile (· ≠ '}') = name.toList :=
    List.rtakeWhile_eq_self_iff.2 fun c hc => decide_eq_true fun he => h (he ▸ hc)
  have htag : (qualified namespaceUri name).toList =
      ('{' :: namespaceUri.toList) ++ '}' :: name.toList := by
    simp [qualified]
  rw [localName, htag, Text.rtakeWhile_append_cons (by simp), hname, String.ofList_toList]

/-- The element has this name in whatever namespace. -/
def isA (name : String) (e : Element) : Bool := localName e.tag = name

theorem isA_mk_qualified (namespaceUri : String) {name : String} (h : '}' ∉ name.toList)
    (other : String) (attrib : List (String × String)) (text : List Char)
    (children : List Element) (tail : List Char) :
    (mk (qualified namespaceUri name) attrib text children tail).isA other =
      decide (name = other) := by
  rw [isA, tag, localName_qualified namespaceUri h]

/-- `e.attrib.get(key)` -/
def get? (e : Element) (key : String) : Option String :=
  (e.attrib.find? fun a => a.1 = key).map Prod.snd

mutual

/-- `e.iter()` -/
def iter : Element → List Element
  | mk tag attrib text children tail => mk tag attrib text children tail :: iterAll children

/-- The elements of a list and everything below them. -/
def iterAll : List Element → List Element
  | [] => []
  | e :: es => e.iter ++ iterAll es

end

mutual

/-- `"".join(e.itertext())` -/
def itertext : Element → List Char
  | mk _ _ text children _ => text ++ itertextAll children

/-- The text of siblings, with what stands behind each of them. -/
def itertextAll : List Element → List Char
  | [] => []
  | e :: es => e.itertext ++ e.tail ++ itertextAll es

end

mutual

/-- Equality of elements is decided child by child. -/
def decEq : (a b : Element) → Decidable (a = b)
  | mk tag attrib text children tail, mk tag' attrib' text' children' tail' =>
    match decEqAll children children' with
    | isTrue hchildren =>
      decidable_of_iff ((tag, attrib, text, tail) = (tag', attrib', text', tail'))
        (by simp [hchildren])
    | isFalse hchildren => isFalse fun h => hchildren (by cases h; rfl)

def decEqAll : (as bs : List Element) → Decidable (as = bs)
  | [], [] => isTrue rfl
  | [], _ :: _ => isFalse (by simp)
  | _ :: _, [] => isFalse (by simp)
  | a :: as, b :: bs =>
    match decEq a b, decEqAll as bs with
    | isTrue h, isTrue hs => isTrue (by rw [h, hs])
    | isFalse h, _ => isFalse fun he => h (List.cons.inj he).1
    | _, isFalse hs => isFalse fun he => hs (List.cons.inj he).2

end

instance decidableEq : DecidableEq Element := decEq

mutual

/-- The element with other texts in the same places. -/
def mapText (f : List Char → List Char) : Element → Element
  | mk tag attrib text children tail => mk tag attrib (f text) (mapTextAll f children) (f tail)

def mapTextAll (f : List Char → List Char) : List Element → List Element
  | [] => []
  | e :: es => e.mapText f :: mapTextAll f es

end

/-- The element with other texts and other children. -/
def redraw (f : List Char → List Char) (child : Element → Element) : Element → Element
  | mk tag attrib text children tail => mk tag attrib (f text) (children.map child) (f tail)

/-! ## Recursion -/

theorem iterAll_eq (es : List Element) : iterAll es = es.flatMap iter := by
  induction es with
  | nil => rw [iterAll, List.flatMap_nil]
  | cons e es ih => rw [iterAll, ih, List.flatMap_cons]

theorem iter_eq (e : Element) : e.iter = e :: e.children.flatMap iter := by
  cases e
  rw [iter, iterAll_eq]
  rfl

theorem mem_iter_self (e : Element) : e ∈ e.iter := by
  rw [iter_eq]
  exact List.mem_cons_self

theorem mem_iter_of_mem_children {e c x : Element} (hc : c ∈ e.children) (hx : x ∈ c.iter) :
    x ∈ e.iter := by
  rw [iter_eq]
  exact List.mem_cons_of_mem _ (List.mem_flatMap.2 ⟨c, hc, hx⟩)

/-! ## Other texts in the same places -/

section

variable (f g : List Char → List Char)

theorem mapTextAll_eq (es : List Element) : mapTextAll f es = es.map (mapText f) := by
  induction es with
  | nil => rw [mapTextAll, List.map_nil]
  | cons e es ih => rw [mapTextAll, ih, List.map_cons]

theorem mapText_mk (tag : String) (attrib : List (String × String)) (text : List Char)
    (children : List Element) (tail : List Char) : (mk tag attrib text children tail).mapText f =
      mk tag attrib (f text) (children.map (mapText f)) (f tail) := by
  rw [mapText, mapTextAll_eq]

@[simp] theorem isA_mapText (name : String) (e : Element) :
    (e.mapText f).isA name = e.isA name := by
  cases e
  rw [mapText_mk]
  rfl

@[simp] theorem children_mapText (e : Element) :
    (e.mapText f).children = e.children.map (mapText f) := by
  cases e
  rw [mapText_mk]
  rfl

@[simp] theorem isA_redraw (child : Element → Element) (name : String) (e : Element) :
    (e.redraw f child).isA name = e.isA name := by
  cases e
  rfl

@[simp] theorem children_redraw (child : Element → Element) (e : Element) :
    (e.redraw f child).children = e.children.map child := by
  cases e
  rfl

/-- An element is made of its children again. -/
theorem mapText_redraw (child : Element → Element) {e : Element}
    (h : ∀ c ∈ e.children, (child c).mapText g = c.mapText (g ∘ f)) :
    (e.redraw f child).mapText g = e.mapText (g ∘ f) := by
  cases e
  rw [redraw, mapText_mk, mapText_mk, List.map_map]
  congr 1
  exact List.map_congr_left h

mutual

theorem mapText_mapText : (e : Element) → (e.mapText f).mapText g = e.mapText (g ∘ f)
  | mk tag attrib text children tail => by
    rw [mapText, mapText, mapText, mapTextAll_mapTextAll children]
    rfl

theorem mapTextAll_mapTextAll : (es : List Element) →
    mapTextAll g (mapTextAll f es) = mapTextAll (g ∘ f) es
  | [] => by rw [mapTextAll, mapTextAll, mapTextAll]
  | e :: es => by
    rw [mapTextAll, mapTextAll, mapTextAll, mapText_mapText e, mapTextAll_mapTextAll es]

end

mutual

theorem iter_mapText : (e : Element) → (e.mapText f).iter = e.iter.map (mapText f)
  | mk tag attrib text children tail => by
    rw [mapText, iter, iter, iterAll_mapText children, List.map_cons, mapText]

theorem iterAll_mapText : (es : List Element) →
    iterAll (mapTextAll f es) = (iterAll es).map (mapText f)
  | [] => by rw [mapTextAll, iterAll, List.map_nil]
  | e :: es => by
    rw [mapTextAll, iterAll, iterAll, iter_mapText e, iterAll_mapText es, List.map_append]

end

variable {f}

mutual

/-- Whether all characters of the text inside an element are of a kind depends only on the texts
that it is made of. -/
theorem forall_itertext_mapText {p q : Char → Prop}
    (hf : ∀ s, (∀ c ∈ f s, p c) ↔ ∀ c ∈ s, q c) :
    (e : Element) → ((∀ c ∈ (e.mapText f).itertext, p c) ↔ ∀ c ∈ e.itertext, q c)
  | mk tag attrib text children tail => by
    rw [mapText, itertext, itertext, List.forall_mem_append, List.forall_mem_append, hf,
      forall_itertextAll_mapText hf children]

theorem forall_itertextAll_mapText {p q : Char → Prop}
    (hf : ∀ s, (∀ c ∈ f s, p c) ↔ ∀ c ∈ s, q c) :
    (es : List Element) → ((∀ c ∈ itertextAll (mapTextAll f es), p c) ↔ ∀ c ∈ itertextAll es, q c)
  | [] => by rw [mapTextAll, itertextAll]; simp
  | e :: es => by
    have htail : (e.mapText f).tail = f e.tail := by
      cases e
      rw [mapText]
      rfl
    rw [mapTextAll, itertextAll, itertextAll, List.forall_mem_append, List.forall_mem_append,
      List.forall_mem_append, List.forall_mem_append, forall_itertext_mapText hf e, htail, hf,
      forall_itertextAll_mapText hf es]

end

end

end Element

end Xml
