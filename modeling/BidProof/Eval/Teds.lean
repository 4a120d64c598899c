import Mathlib.Algebra.Order.Field.Rat
import Mathlib.Tactic.Linarith
import Mathlib.Tactic.Positivity
import BidProof.Eval.TreeDistance
import BidProof.Lib.Text

/-!
# TEDS of two HTML tables

`teds` parses two HTML texts into one tree each and scores how far the trees are apart.  A score of
1 means that the trees are the same (`teds_eq_one_iff`), which says something about the tables only
as far as the parser keeps them: a second table replaces the first, a cell inside a cell throws the
text of the outer one away, and an end tag closes whatever is open.

`Document` reads the same events and keeps everything: an end tag closes the innermost element of
its name with all that is open in it, a text belongs to the innermost open cell, and at the end
everything is closed.  `Kept` is the condition on the events under which the parser keeps
everything as well.  `HTMLParser` itself, the Unicode normalization and the lower case of a text
are parameters.
-/

namespace BidProof.Eval

open Forest
open Text (removeSpace)

/-- What `HTMLParser` calls its handlers with. -/
inductive HtmlEvent
  | starttag (tag : List Char)
  | endtag (tag : List Char)
  | data (text : List Char)
  deriving DecidableEq

def STRUCTURE_TAGS : List (List Char) :=
  ["table", "thead", "tbody", "tfoot", "tr", "td", "th"].map String.toList

/-- The tags of the cells. -/
def cellTags : List (List Char) := ["td", "th"].map String.toList

section normalization

variable (nfkc lower : List Char → List Char)

/-- `_norm_cell` -/
def normCell (text : List Char) : List Char :=
  lower (removeSpace ((nfkc text).map fun c => if c = '\u3000' then ' ' else c))

/-- The label of a cell with its text. -/
def cellLabel (tag text : List Char) : List Char := tag ++ ':' :: normCell nfkc lower text

/-! ## The parser -/

/-- A node on the stack.  The source appends a node to its parent when it opens; here it joins its
siblings when it is closed, in the same place. -/
structure OpenNode where
  label : List Char
  children : List TreeNode

/-- `_HtmlTableTreeParser`.  While nodes are open, the first of them is the root, and the root that
was closed before is lost. -/
structure HtmlTableTreeParser where
  root : Option TreeNode := none
  stack : List OpenNode := []
  buf : Option (List (List Char)) := none

namespace HtmlTableTreeParser

def handleStarttag (p : HtmlTableTreeParser) (tag : List Char) : HtmlTableTreeParser :=
  let lowered := lower tag
  if lowered ∉ STRUCTURE_TAGS then p
  else
    { root := if p.stack.isEmpty then none else p.root
      stack := ⟨lowered, []⟩ :: p.stack
      buf := if lowered ∈ cellTags then some [] else p.buf }

/-- A closed node below the open ones. -/
def attach (p : HtmlTableTreeParser) (node : TreeNode) : HtmlTableTreeParser :=
  match p.stack with
  | [] => { p with root := some node }
  | parent :: stack =>
    { p with stack := { parent with children := parent.children ++ [node] } :: stack }

def handleEndtag (p : HtmlTableTreeParser) (tag : List Char) : HtmlTableTreeParser :=
  let lowered := lower tag
  if lowered ∉ STRUCTURE_TAGS then p
  else
    match p.stack with
    | [] => p
    | node :: stack =>
      match p.buf with
      | some buf =>
        if lowered ∈ cellTags then
          attach { p with stack := stack, buf := none }
            (.node (cellLabel nfkc lower lowered buf.flatten) node.children)
        else attach { p with stack := stack } (.node node.label node.children)
      | none => attach { p with stack := stack } (.node node.label node.children)

def handleData (p : HtmlTableTreeParser) (data : List Char) : HtmlTableTreeParser :=
  { p with buf := p.buf.map fun buf => buf ++ [data] }

def handle (p : HtmlTableTreeParser) : HtmlEvent → HtmlTableTreeParser
  | .starttag tag => p.handleStarttag lower tag
  | .endtag tag => p.handleEndtag nfkc lower tag
  | .data text => p.handleData text

/-- The tree of the open nodes, with the closed nodes below the innermost one. -/
def close : List OpenNode → List TreeNode → Option TreeNode
  | [], nodes => nodes.head?
  | node :: stack, nodes => close stack [.node node.label (node.children ++ nodes)]

/-- The root when the parser is closed. -/
def result (p : HtmlTableTreeParser) : Option TreeNode :=
  if p.stack.isEmpty then p.root else close p.stack []

end HtmlTableTreeParser

/-- The tree of the events of an HTML text. -/
def treeOf (events : List HtmlEvent) : Option TreeNode :=
  (events.foldl (HtmlTableTreeParser.handle nfkc lower) {}).result

variable (parse : List Char → List HtmlEvent)

/-- `html_to_tree`, where `parse` is `HTMLParser`. -/
def htmlToTree (html_text : List Char) : Option TreeNode := treeOf nfkc lower (parse html_text)

/-- `teds` -/
def teds (pred_html gt_html : Option (List Char)) : ℚ :=
  match htmlToTree nfkc lower parse (pred_html.getD []), htmlToTree nfkc lower parse
    (gt_html.getD []) with
  | none, none => 1
  | none, some _ => 0
  | some _, none => 0
  | some pred_tree, some gt_tree =>
    let denom := max pred_tree.size gt_tree.size
    if denom = 0 then 1
    else
      let distance := treeEditDistance (some pred_tree) (some gt_tree)
      let score : ℚ := 1 - distance / denom
      if score < 0 then 0 else if 1 < score then 1 else score

/-! ## The tables of a text -/

/-- An open element with the text that belongs to it. -/
structure OpenElement where
  tag : List Char
  text : List Char
  children : List TreeNode

/-- An element as a node: a cell is labelled with its text. -/
def OpenElement.node (e : OpenElement) : TreeNode :=
  .node (if e.tag ∈ cellTags then cellLabel nfkc lower e.tag e.text else e.tag) e.children

/-- The elements of a text: the closed ones at the top level and those that are open, innermost
first. -/
structure Document where
  roots : List TreeNode := []
  stack : List OpenElement := []

namespace Document

def attach (d : Document) (node : TreeNode) : Document :=
  match d.stack with
  | [] => { d with roots := d.roots ++ [node] }
  | parent :: stack =>
    { d with stack := { parent with children := parent.children ++ [node] } :: stack }

/-- Close the innermost element. -/
def pop (d : Document) : Document :=
  match d.stack with
  | [] => d
  | e :: stack => attach { d with stack := stack } (e.node nfkc lower)

/-- The text belongs to the innermost cell. -/
def write (text : List Char) : List OpenElement → List OpenElement
  | [] => []
  | e :: stack =>
    if e.tag ∈ cellTags then { e with text := e.text ++ text } :: stack
    else e :: write text stack

def handle (d : Document) : HtmlEvent → Document
  | .starttag tag =>
    if lower tag ∈ STRUCTURE_TAGS then { d with stack := ⟨lower tag, [], []⟩ :: d.stack } else d
  | .endtag tag =>
    -- Everything that is open inside the element is closed with it; without such an element the
    -- end tag says nothing.
    if lower tag ∈ STRUCTURE_TAGS ∧ d.stack.any (fun e => e.tag = lower tag) then
      (pop nfkc lower)^[d.stack.findIdx (fun e => e.tag = lower tag) + 1] d
    else d
  | .data text => { d with stack := write text d.stack }

/-- The top-level elements when everything is closed. -/
def result (d : Document) : List TreeNode := ((pop nfkc lower)^[d.stack.length] d).roots

end Document

/-- The top-level elements of the events of an HTML text. -/
def rootsOf (events : List HtmlEvent) : List TreeNode :=
  (events.foldl (Document.handle nfkc lower) {}).result nfkc lower

/-- The top-level tables of an HTML text, with their rows, cells and normalised texts. -/
def tables (html_text : List Char) : List TreeNode :=
  (rootsOf nfkc lower (parse html_text)).filter fun
    | .node label _ => label = "table".toList

/-! ## What the parser keeps -/

namespace HtmlTableTreeParser

/-- The parser loses nothing at the event: no element opens at the top level after another one, no
cell opens inside a cell, and an end tag closes the innermost element. -/
def Keeps (p : HtmlTableTreeParser) : HtmlEvent → Prop
  | .starttag tag => lower tag ∈ STRUCTURE_TAGS →
      (p.stack = [] → p.root = none) ∧ (lower tag ∈ cellTags → p.buf = none)
  | .endtag tag => lower tag ∈ STRUCTURE_TAGS → ∀ node ∈ p.stack.head?, node.label = lower tag
  | .data _ => True

/-- The parser loses nothing at all: no cell is left open at the end either. -/
def Kept (p : HtmlTableTreeParser) : List HtmlEvent → Prop
  | [] => p.buf = none
  | e :: events => p.Keeps lower e ∧ Kept (p.handle nfkc lower e) events

instance (p : HtmlTableTreeParser) : (e : HtmlEvent) → Decidable (p.Keeps lower e)
  | .starttag _ => inferInstanceAs (Decidable (_ → (_ → _) ∧ (_ → _)))
  | .endtag _ => inferInstanceAs (Decidable (_ → ∀ _ ∈ _, _))
  | .data _ => inferInstanceAs (Decidable True)

instance decidableKept : (p : HtmlTableTreeParser) → (events : List HtmlEvent) →
    Decidable (p.Kept nfkc lower events)
  | p, [] => inferInstanceAs (Decidable (p.buf = none))
  | p, e :: events =>
    have := decidableKept (p.handle nfkc lower e) events
    inferInstanceAs (Decidable (_ ∧ _))

/-- An open node as an element, where the only open cell has the text of the buffer. -/
def element (buf : Option (List (List Char))) (node : OpenNode) : OpenElement where
  tag := node.label
  text := if node.label ∈ cellTags then (buf.getD []).flatten else []
  children := node.children

/-- The number of open cells. -/
def cellCount (stack : List OpenNode) : ℕ := stack.countP fun node => node.label ∈ cellTags

/-- The parser and the document have read the same. -/
structure Reads (p : HtmlTableTreeParser) (d : Document) : Prop where
  roots : d.roots = p.root.toList
  stack : d.stack = p.stack.map (element p.buf)
  unclosed : p.stack ≠ [] → p.root = none
  cells : cellCount p.stack = if p.buf.isSome then 1 else 0

end HtmlTableTreeParser

end normalization

namespace HtmlTableTreeParser

variable {nfkc lower : List Char → List Char} {p : HtmlTableTreeParser} {d : Document}
  {stack : List OpenNode}

@[simp] theorem tag_element (buf : Option (List (List Char))) (node : OpenNode) :
    (element buf node).tag = node.label := rfl

theorem cellCount_cons (node : OpenNode) (stack : List OpenNode) :
    cellCount (node :: stack) = cellCount stack + if node.label ∈ cellTags then 1 else 0 := by
  simp [cellCount, List.countP_cons]

/-- Without an open cell the buffer does not matter. -/
theorem map_element_of_cells (h : cellCount stack = 0) (buf buf' : Option (List (List Char))) :
    stack.map (element buf) = stack.map (element buf') := by
  refine List.map_congr_left fun node hnode => ?_
  have hlabel : node.label ∉ cellTags := by simpa using List.countP_eq_zero.1 h node hnode
  simp [element, hlabel]

theorem write_of_cells (h : cellCount stack = 0) (text : List Char)
    (buf : Option (List (List Char))) :
    Document.write text (stack.map (element buf)) = stack.map (element buf) := by
  induction stack with
  | nil => rfl
  | cons node stack ih =>
    rw [cellCount_cons] at h
    split_ifs at h with hlabel
    rw [List.map_cons, Document.write, tag_element, if_neg hlabel, ih h]

/-- A text goes to the one open cell. -/
theorem write_map_element (h : cellCount stack = 1) (text : List Char) (buf : List (List Char)) :
    Document.write text (stack.map (element (some buf))) =
      stack.map (element (some (buf ++ [text]))) := by
  induction stack with
  | nil => simp [cellCount] at h
  | cons node stack ih =>
    rw [cellCount_cons] at h
    rw [List.map_cons, List.map_cons, Document.write, tag_element]
    split_ifs at h with hlabel
    · have hrest : cellCount stack = 0 := by omega
      rw [if_pos hlabel, map_element_of_cells hrest (some buf) (some (buf ++ [text]))]
      simp [element, hlabel]
    · rw [if_neg hlabel, ih h]
      simp [element, hlabel]

theorem Reads.starttag (h : p.Reads d) {tag : List Char} (hk : p.Keeps lower (.starttag tag)) :
    (p.handleStarttag lower tag).Reads (d.handle nfkc lower (.starttag tag)) := by
  by_cases htag : lower tag ∈ STRUCTURE_TAGS
  · obtain ⟨hfirst, hcell⟩ := hk htag
    have hroot : (if p.stack.isEmpty then none else p.root) = none := by
      split_ifs with hstack
      · rfl
      · exact h.unclosed (by simpa using hstack)
    have hroots : p.root = none := by
      by_cases hstack : p.stack = []
      · exact hfirst hstack
      · exact h.unclosed hstack
    simp only [handleStarttag, Document.handle, htag, not_true_eq_false, if_false, if_true, hroot]
    refine ⟨?_, ?_, fun _ => rfl, ?_⟩
    · rw [h.roots, hroots]
    · rw [h.stack, List.map_cons]
      split_ifs with hlabel
      · have hnone : cellCount p.stack = 0 := by
          rw [h.cells, hcell hlabel]
          rfl
        rw [map_element_of_cells hnone p.buf (some [])]
        simp [element]
      · simp [element, hlabel]
    · rw [cellCount_cons, h.cells]
      by_cases hlabel : lower tag ∈ cellTags
      · simp [hlabel, hcell hlabel]
      · simp [hlabel]
  · simp only [handleStarttag, Document.handle, htag, not_false_eq_true, if_true, if_false]
    exact h

/-- A node and its element are attached to the same place. -/
theorem reads_attach {buf : Option (List (List Char))}
    (h : cellCount stack = if buf.isSome then 1 else 0) (node : TreeNode) :
    (HtmlTableTreeParser.attach ⟨none, stack, buf⟩ node).Reads
      (Document.attach ⟨[], stack.map (element buf)⟩ node) := by
  cases stack with
  | nil => exact ⟨rfl, rfl, fun hne => absurd rfl hne, h⟩
  | cons parent stack =>
    refine ⟨rfl, rfl, fun _ => rfl, ?_⟩
    rw [cellCount_cons] at h
    change cellCount (⟨parent.label, parent.children ++ [node]⟩ :: stack) = _
    rw [cellCount_cons]
    exact h

theorem Reads.endtag (h : p.Reads d) {tag : List Char} (hk : p.Keeps lower (.endtag tag)) :
    (p.handleEndtag nfkc lower tag).Reads (d.handle nfkc lower (.endtag tag)) := by
  by_cases htag : lower tag ∈ STRUCTURE_TAGS
  · cases hstack : p.stack with
    | nil =>
      have hempty : d.stack = [] := by rw [h.stack, hstack, List.map_nil]
      simp only [handleEndtag, Document.handle, htag, not_true_eq_false, if_false, hstack, hempty,
        List.any_nil, Bool.false_eq_true, and_false]
      exact h
    | cons node stack =>
      have hlabel : node.label = lower tag := hk htag node (by rw [hstack]; rfl)
      have hroot : p.root = none := h.unclosed (by rw [hstack]; exact List.cons_ne_nil _ _)
      have hopen : d.stack = element p.buf node :: stack.map (element p.buf) := by
        rw [h.stack, hstack, List.map_cons]
      have hpop : d.handle nfkc lower (.endtag tag) =
          Document.attach ⟨[], stack.map (element p.buf)⟩
            ((element p.buf node).node nfkc lower) := by
        have hroots : d.roots = [] := by rw [h.roots, hroot]; rfl
        simp [Document.handle, htag, hopen, hlabel, List.findIdx_cons, Document.pop, hroots]
      have hcells := h.cells
      rw [hstack, cellCount_cons, hlabel] at hcells
      rw [hpop]
      simp only [handleEndtag, htag, not_true_eq_false, if_false, hstack, hroot]
      by_cases hcell : lower tag ∈ cellTags
      · rw [if_pos hcell] at hcells
        cases hbuf : p.buf with
        | none =>
          rw [hbuf] at hcells
          simp at hcells
        | some buf =>
          rw [hbuf] at hcells
          have hrest : cellCount stack = 0 := by simpa using hcells
          have hnode : (element (some buf) node).node nfkc lower =
              .node (cellLabel nfkc lower (lower tag) buf.flatten) node.children := by
            simp [element, OpenElement.node, hlabel, hcell]
          rw [hnode, map_element_of_cells hrest (some buf) none]
          simp only [hcell, if_true]
          exact reads_attach hrest _
      · rw [if_neg hcell, Nat.add_zero] at hcells
        have hnode : (element p.buf node).node nfkc lower = .node node.label node.children := by
          simp [element, OpenElement.node, hlabel, hcell]
        rw [hnode]
        cases hbuf : p.buf with
        | none =>
          rw [hbuf] at hcells
          exact reads_attach hcells _
        | some buf =>
          rw [hbuf] at hcells
          simp only [hcell, if_false]
          exact reads_attach hcells _
  · simp only [handleEndtag, Document.handle, htag, not_false_eq_true, if_true, false_and, if_false]
    exact h

theorem Reads.data (h : p.Reads d) (text : List Char) :
    (p.handleData text).Reads (d.handle nfkc lower (.data text)) := by
  have hcells := h.cells
  have hwrite : Document.write text (p.stack.map (element p.buf)) =
      p.stack.map (element (p.buf.map fun buf => buf ++ [text])) := by
    cases hbuf : p.buf with
    | none =>
      rw [hbuf] at hcells
      exact write_of_cells hcells text none
    | some buf =>
      rw [hbuf] at hcells
      exact write_map_element hcells text buf
  refine ⟨h.roots, ?_, h.unclosed, ?_⟩
  · change Document.write text d.stack = _
    rw [h.stack, hwrite]
    rfl
  · change cellCount p.stack = if (p.buf.map fun buf => buf ++ [text]).isSome then 1 else 0
    rw [Option.isSome_map]
    exact hcells

theorem Reads.feed {events : List HtmlEvent} (h : p.Reads d) (hk : p.Kept nfkc lower events) :
    (events.foldl (HtmlTableTreeParser.handle nfkc lower) p).Reads
        (events.foldl (Document.handle nfkc lower) d) ∧
      (events.foldl (HtmlTableTreeParser.handle nfkc lower) p).buf = none := by
  induction events generalizing p d with
  | nil => exact ⟨h, hk⟩
  | cons e events ih =>
    obtain ⟨hkeeps, hrest⟩ := hk
    refine ih ?_ hrest
    cases e with
    | starttag tag => exact h.starttag hkeeps
    | endtag tag => exact h.endtag hkeeps
    | data text => exact h.data text

/-- Closing the open nodes from the inside out gives one root. -/
theorem roots_pop (hcells : cellCount stack = 0) (hne : stack ≠ []) :
    ((Document.pop nfkc lower)^[stack.length] ⟨[], stack.map (element none)⟩).roots =
      (close stack []).toList := by
  generalize hn : stack.length = n
  induction n generalizing stack with
  | zero => exact absurd (List.length_eq_zero_iff.1 hn) hne
  | succ n ih =>
    cases stack with
    | nil => exact absurd rfl hne
    | cons node stack =>
      rw [cellCount_cons] at hcells
      have hlabel : node.label ∉ cellTags := by
        intro hcell
        simp [hcell] at hcells
      have hnode : (element none node).node nfkc lower = .node node.label node.children := by
        simp [element, OpenElement.node, hlabel]
      rw [Function.iterate_succ_apply]
      cases stack with
      | nil =>
        cases hn
        simp [Document.pop, Document.attach, hnode, close]
      | cons parent stack =>
        have hparent : Document.pop nfkc lower ⟨[], (node :: parent :: stack).map (element none)⟩ =
            ⟨[], ((⟨parent.label, parent.children ++ [.node node.label node.children]⟩ ::
              stack : List OpenNode)).map (element none)⟩ := by
          simp only [Document.pop, Document.attach, List.map_cons, hnode]
          rfl
        rw [hparent, ih ?_ (List.cons_ne_nil _ _) (by simpa using hn)]
        · simp [close]
        · rw [cellCount_cons] at hcells ⊢
          change cellCount stack + (if parent.label ∈ cellTags then 1 else 0) = 0
          omega

/-- Where the parser loses nothing its tree is the one top-level element. -/
theorem rootsOf_eq {events : List HtmlEvent}
    (hk : ({} : HtmlTableTreeParser).Kept nfkc lower events) :
    rootsOf nfkc lower events = (treeOf nfkc lower events).toList := by
  have hstart : ({} : HtmlTableTreeParser).Reads {} := ⟨rfl, rfl, fun hne => absurd rfl hne, rfl⟩
  obtain ⟨hreads, hbuf⟩ := hstart.feed hk
  rw [rootsOf, treeOf]
  set p := events.foldl (HtmlTableTreeParser.handle nfkc lower) {}
  set d := events.foldl (Document.handle nfkc lower) {}
  have hstack := hreads.stack
  have hcells := hreads.cells
  rw [hbuf] at hstack hcells
  rw [Document.result, result, hstack, List.length_map]
  cases hopen : p.stack with
  | nil => simpa using hreads.roots
  | cons node stack =>
    have hne : p.stack ≠ [] := by
      rw [hopen]
      exact List.cons_ne_nil _ _
    have hd : d = ⟨[], p.stack.map (element none)⟩ := by
      have hroots := hreads.roots
      rw [hreads.unclosed hne] at hroots
      rw [← hstack, ← show d.roots = [] from hroots]
    rw [hd, ← hopen, roots_pop hcells hne]
    simp [hopen]

end HtmlTableTreeParser

section score

variable {nfkc lower : List Char → List Char} {parse : List Char → List HtmlEvent}
  {pred_html gt_html : Option (List Char)}

theorem teds_eq_one_iff : teds nfkc lower parse pred_html gt_html = 1 ↔
    htmlToTree nfkc lower parse (pred_html.getD []) = htmlToTree nfkc lower parse
      (gt_html.getD []) := by
  unfold teds
  cases htmlToTree nfkc lower parse (pred_html.getD []) with
  | none => cases htmlToTree nfkc lower parse (gt_html.getD []) <;> simp
  | some a =>
    cases htmlToTree nfkc lower parse (gt_html.getD []) with
    | none => simp
    | some b =>
      have hdistance : treeEditDistance (some a) (some b) = 0 ↔ a = b := by
        rw [treeEditDistance_eq, forestDist_eq_zero_iff]
        simp
      have hpos : 0 < max a.size b.size := lt_max_of_lt_left (size_pos a)
      simp only [hpos.ne', if_false, Option.some.injEq]
      rw [← hdistance]
      generalize treeEditDistance (some a) (some b) = distance
      have hquotient : (0 : ℚ) ≤ distance / (max a.size b.size : ℕ) := by positivity
      constructor
      · intro h
        by_contra hne
        have hless : (0 : ℚ) < distance / (max a.size b.size : ℕ) := by
          have hdistance : 0 < distance := Nat.pos_of_ne_zero hne
          positivity
        split_ifs at h <;> linarith
      · rintro rfl
        norm_num

end score

/-- Between two texts of which the parser loses nothing a score of 1 means that they contain the
same tables. -/
theorem same_tables_of_teds (nfkc lower : List Char → List Char)
    (parse : List Char → List HtmlEvent)
    {pred_html gt_html : Option (List Char)}
    (hpred : ({} : HtmlTableTreeParser).Kept nfkc lower (parse (pred_html.getD [])))
    (hgt : ({} : HtmlTableTreeParser).Kept nfkc lower (parse (gt_html.getD [])))
    (h : teds nfkc lower parse pred_html gt_html = 1) :
    tables nfkc lower parse (pred_html.getD []) = tables nfkc lower parse (gt_html.getD []) := by
  have htree : treeOf nfkc lower (parse (pred_html.getD [])) =
      treeOf nfkc lower (parse (gt_html.getD [])) :=
    teds_eq_one_iff.1 h
  rw [tables, tables, HtmlTableTreeParser.rootsOf_eq hpred, HtmlTableTreeParser.rootsOf_eq hgt,
    htree]

/-- The events of a text that consists of plain tags and of text without entities. -/
def sampleParse (html : List Char) : List HtmlEvent :=
  (html.splitOn '<').flatMap fun piece =>
    let tag := piece.takeWhile (· ≠ '>')
    let text := (piece.dropWhile (· ≠ '>')).tail
    let event := if tag.head? = some '/' then .endtag tag.tail else .starttag tag
    (if tag = [] then [] else [event]) ++ if text = [] then [] else [.data text]

/-- A table with one cell. -/
def sampleHtml (text : String) : List Char :=
  ("<table><tr><td>" ++ text ++ "</td></tr></table>").toList

theorem same_tables_of_teds_sample :
    tables id Text.lower sampleParse (sampleHtml "A b") = tables id Text.lower sampleParse
      (sampleHtml " ab") := by
  have hpred : ({} : HtmlTableTreeParser).Kept id Text.lower
      (sampleParse ((some (sampleHtml "A b")).getD [])) := by decide +kernel
  have hgt : ({} : HtmlTableTreeParser).Kept id Text.lower
      (sampleParse ((some (sampleHtml " ab")).getD [])) := by decide +kernel
  exact same_tables_of_teds id Text.lower sampleParse hpred hgt
    (teds_eq_one_iff.2 (by decide +kernel))

/-- The reference has a second table before the one of the prediction, and the score is 1. -/
theorem first_table_ignored :
    teds id Text.lower sampleParse (some (sampleHtml "b"))
      (some (sampleHtml "a" ++ sampleHtml "b")) = 1 ∧
      tables id Text.lower sampleParse (sampleHtml "b") ≠
        tables id Text.lower sampleParse (sampleHtml "a" ++ sampleHtml "b") :=
  ⟨teds_eq_one_iff.2 (by decide +kernel), by decide +kernel⟩

end BidProof.Eval
