/-
# Templates of text and variables

The part of the template language that the service documents: text, variables, and variables with
a piece of their value replaced.  Reading and rendering fail for different reasons: a text may be
no template, and a template may refer to a variable the context does not have.  That a text is a
template says nothing about the second.
-/
import Mathlib.Data.List.Basic

/-- Variables with their values. -/
abbrev TemplateContext : Type := List (String × String)

/-! ## Replacing in a text -/

/-- Replace a pattern that is not empty, from the left and without overlaps.  The number says how
many characters of a match are still to be left out. -/
def replaceFrom (pattern new : List Char) : ℕ → List Char → List Char
  | _, [] => []
  | skip + 1, _ :: rest => replaceFrom pattern new skip rest
  | 0, c :: rest =>
      if pattern.isPrefixOf (c :: rest) then
        new ++ replaceFrom pattern new (pattern.length - 1) rest
      else c :: replaceFrom pattern new 0 rest

theorem replaceFrom_eq_drop (pattern new : List Char) (skip : ℕ) (text : List Char) :
    replaceFrom pattern new skip text = replaceFrom pattern new 0 (text.drop skip) := by
  induction text generalizing skip with
  | nil => cases skip <;> rfl
  | cons c text ih =>
      cases skip with
      | zero => rfl
      | succ skip =>
          rw [replaceFrom, List.drop_succ_cons]
          exact ih skip

/-- A text that begins with the pattern. -/
theorem replaceFrom_append {pattern : List Char} (hpattern : pattern ≠ []) (new text : List Char) :
    replaceFrom pattern new 0 (pattern ++ text) = new ++ replaceFrom pattern new 0 text := by
  cases pattern with
  | nil => exact absurd rfl hpattern
  | cons c pattern =>
      have hprefix : (c :: pattern).isPrefixOf (c :: (pattern ++ text)) = true :=
        List.isPrefixOf_iff_prefix.mpr (List.prefix_append (c :: pattern) text)
      rw [List.cons_append, replaceFrom, if_pos hprefix, replaceFrom_eq_drop, List.length_cons,
        Nat.add_sub_cancel, List.drop_left]

/-- A text without the first character of the pattern stays as it is. -/
theorem replaceFrom_of_not_mem {c : Char} (pattern new : List Char) {text : List Char}
    (h : c ∉ text) : replaceFrom (c :: pattern) new 0 text = text := by
  induction text with
  | nil => rfl
  | cons d text ih =>
      obtain ⟨hhead, htail⟩ := not_or.mp (mt List.mem_cons.mpr h)
      have hprefix : ¬(c :: pattern).isPrefixOf (d :: text) = true := by
        rw [List.isPrefixOf_iff_prefix, List.cons_prefix_cons]
        exact fun hboth => hhead hboth.1
      rw [replaceFrom, if_neg hprefix, ih htail]

/-! ## Reading a template -/

/-- The pieces of a template without conditions, loops and other filters. -/
inductive TemplatePiece : Type where
  | char (c : Char)
  | ref (name : String)
  | replaced (name : String) (pattern new : List Char)
  deriving DecidableEq

namespace TemplatePiece

/-- The name a variable piece refers to. -/
def reference : TemplatePiece → Option String
  | .char _ => none
  | .ref name => some name
  | .replaced name _ _ => some name

/-- The text of a piece in a context. -/
def render (context : TemplateContext) : TemplatePiece → Except String (List Char)
  | .char c => .ok [c]
  | .ref name =>
      match context.lookup name with
      | none => .error ("Variable " ++ name ++ " not found in context")
      | some value => .ok value.toList
  | .replaced name pattern new =>
      match context.lookup name with
      | none => .error ("Variable " ++ name ++ " not found in context")
      | some value => .ok (replaceFrom pattern new 0 value.toList)

theorem mem_map_fst_iff {context : TemplateContext} {name : String} :
    name ∈ context.map Prod.fst ↔ ∃ value, context.lookup name = some value := by
  rw [← Option.isSome_iff_exists, List.lookup_isSome_iff, List.mem_map]
  exact exists_congr fun entry => and_congr_right fun _ => by rw [beq_iff_eq, eq_comm]

/-- A piece renders exactly when its variable is there. -/
theorem exists_render_iff (context : TemplateContext) (piece : TemplatePiece) :
    (∃ text, piece.render context = .ok text) ↔
      ∀ name, piece.reference = some name → name ∈ context.map Prod.fst := by
  cases piece with
  | char c => simp [render, reference]
  | ref name | replaced name pattern new =>
      simp only [reference, Option.some.injEq, forall_eq', mem_map_fst_iff, render]
      cases context.lookup name <;> simp

end TemplatePiece

namespace PlainTemplate

/-- Where a scan of a template stands; what is read of a tag is kept in reverse. -/
inductive Scan : Type where
  | text
  | brace
  | tag (read : List Char)
  | closing (read : List Char)

def isNameStart (c : Char) : Bool := c.isAlpha || c == '_'

def isNameChar (c : Char) : Bool := isNameStart c || c.isDigit

/-- The words the language keeps for itself; no name of this part begins with one. -/
def reservedWords : List String :=
  ["true", "false", "True", "False", "not", "and", "or", "in", "is", "self", "super", "loop",
    "__tera"]

def isName : List Char → Bool
  | [] => false
  | c :: rest => isNameStart c && rest.all isNameChar &&
      reservedWords.all fun word => !word.toList.isPrefixOf (c :: rest)

/-- The characters of a quoted text that stand for themselves. -/
def isQuotable (c : Char) : Bool := c != '\x22' && c != '\x5c'

/-- The two texts of a `replace` filter. -/
def readReplace (expr : List Char) : Option (List Char × List Char) := do
  let expr ← " | replace(from=\"".toList.isPrefixOf? expr
  let expr' ← "\", to=\"".toList.isPrefixOf? (expr.dropWhile isQuotable)
  if expr.takeWhile isQuotable ≠ [] ∧ expr'.dropWhile isQuotable = "\")".toList then
    some (expr.takeWhile isQuotable, expr'.takeWhile isQuotable)
  else none

/-- The variable between the braces, without the spaces around it. -/
def readTag (read : List Char) : Except String TemplatePiece :=
  let expr := ((read.dropWhile (· == ' ')).reverse).dropWhile (· == ' ')
  let name := expr.takeWhile isNameChar
  if isName name then
    match expr.dropWhile isNameChar with
    | [] => .ok (.ref (String.ofList name))
    | filter =>
        match readReplace filter with
        | some (pattern, new) => .ok (.replaced (String.ofList name) pattern new)
        | none => .error "unsupported filter"
  else .error "unsupported expression"

/-- The pieces of a text. -/
def scan : Scan → List Char → Except String (List TemplatePiece)
  | .text, [] => .ok []
  | .text, c :: rest =>
      if c = '\x7b' then scan .brace rest else (scan .text rest).map (.char c :: ·)
  | .brace, [] => .ok [.char '\x7b']
  | .brace, c :: rest =>
      if c = '\x7b' then scan (.tag []) rest
      -- the other tags of the language are not read
      else if c = '%' ∨ c = '#' then .error "unsupported tag"
      else (scan .text rest).map fun pieces => .char '\x7b' :: .char c :: pieces
  | .tag _, [] => .error "expected the end of a variable"
  | .tag read, c :: rest =>
      if c = '\x7d' then scan (.closing read) rest else scan (.tag (c :: read)) rest
  | .closing _, [] => .error "expected the end of a variable"
  | .closing read, c :: rest =>
      if c = '\x7d' then
        match readTag read with
        | .error e => .error e
        | .ok piece => (scan .text rest).map (piece :: ·)
      else .error "expected the end of a variable"

/-- The pieces of a template. -/
def parse (source : String) : Except String (List TemplatePiece) := scan .text source.toList

/-! ## Rendering -/

/-- The text of the pieces in a context. -/
def renderAll (context : TemplateContext) : List TemplatePiece → Except String (List Char)
  | [] => .ok []
  | piece :: rest =>
      match piece.render context with
      | .error e => .error e
      | .ok text => (renderAll context rest).map (text ++ ·)

theorem exists_map_eq_ok_iff {ε α β : Type} {x : Except ε α} {f : α → β} :
    (∃ b, x.map f = .ok b) ↔ ∃ a, x = .ok a := by
  cases x <;> simp [Except.map]

/-- **Rendering succeeds exactly when every variable is there.** -/
theorem exists_renderAll_iff (context : TemplateContext) (pieces : List TemplatePiece) :
    (∃ text, renderAll context pieces = .ok text) ↔
      ∀ name ∈ pieces.filterMap TemplatePiece.reference, name ∈ context.map Prod.fst := by
  simp only [List.mem_filterMap, forall_exists_index, and_imp]
  induction pieces with
  | nil => simp [renderAll]
  | cons piece pieces ih =>
      rw [renderAll]
      have hpiece := piece.exists_render_iff context
      cases hrender : piece.render context with
      | error e =>
          refine iff_of_false (by simp) fun h => ?_
          obtain ⟨text, htext⟩ := hpiece.mpr fun name hname => h name piece List.mem_cons_self hname
          cases hrender.symm.trans htext
      | ok text =>
          dsimp only
          rw [exists_map_eq_ok_iff, ih]
          constructor
          · intro h name piece' hpiece' hname
            rcases List.mem_cons.mp hpiece' with rfl | hrest
            · exact hpiece.mp ⟨text, hrender⟩ name hname
            · exact h name piece' hrest hname
          · exact fun h name piece' hpiece' => h name piece' (List.mem_cons_of_mem _ hpiece')

/-- Read a text and render it at once. -/
def oneOff (source : String) (context : TemplateContext) : Except String String :=
  match parse source with
  | .error e => .error e
  | .ok pieces => (renderAll context pieces).map String.ofList

/-- Check that a text is a template. -/
def check (source : String) : Except String Unit := (parse source).map fun _ => ()

/-- The text is a template of text and variables. -/
def IsPlain (source : String) : Prop := ∃ pieces, parse source = .ok pieces

/-- The text is such a template and refers to no variable but this one. -/
def RefersOnlyTo (source name : String) : Prop :=
  ∃ pieces, parse source = .ok pieces ∧
    ∀ reference ∈ pieces.filterMap TemplatePiece.reference, reference = name

theorem RefersOnlyTo.isPlain {source name : String} (h : RefersOnlyTo source name) :
    IsPlain source :=
  h.imp fun _ => And.left

instance (source : String) : Decidable (IsPlain source) :=
  match h : parse source with
  | .error _ => isFalse fun ⟨_, hpieces⟩ => by rw [h] at hpieces; cases hpieces
  | .ok pieces => isTrue ⟨pieces, h⟩

instance (source name : String) : Decidable (RefersOnlyTo source name) :=
  match h : parse source with
  | .error _ => isFalse fun ⟨_, hpieces, _⟩ => by rw [h] at hpieces; cases hpieces
  | .ok pieces =>
      decidable_of_iff (∀ reference ∈ pieces.filterMap TemplatePiece.reference, reference = name)
        ⟨fun hrefers => ⟨pieces, h, hrefers⟩, fun ⟨_, hpieces, hrefers⟩ =>
          Except.ok.inj (h.symm.trans hpieces) ▸ hrefers⟩

/-- **Rendering with one variable succeeds exactly when no other one is referred to**, whatever
its value. -/
theorem exists_oneOff_singleton_iff (source name value : String) :
    (∃ text, oneOff source [(name, value)] = .ok text) ↔ RefersOnlyTo source name := by
  unfold oneOff RefersOnlyTo
  cases parse source with
  | error e => simp
  | ok pieces =>
      dsimp only
      rw [exists_map_eq_ok_iff, exists_renderAll_iff]
      simp only [List.map_cons, List.map_nil, List.mem_singleton, Except.ok.injEq,
        exists_eq_left']

example : oneOff "v1=\x7b\x7b raw \x7d\x7d" [("raw", "ab")] = .ok "v1=ab" := by decide +kernel

end PlainTemplate
