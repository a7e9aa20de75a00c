import Mathlib.Data.List.Infix
import RoutingPlan.Proofs.Settings.Expansion

-- Texts that close all of their references. Each of them is laid out in one way as literal pieces
-- with references between them, and expanding it puts a value in the place of each reference.

namespace RoutingPlan.Settings

-- The references of a text by their names, each with the piece before it, and the last piece.
structure Layout where
  references : List (List Char × List Char)
  last       : List Char

-- A reference as it stands in a text.
def written (name : List Char) : List Char :=
  '$' :: '{' :: name ++ ['}']

-- What stands in its place: the value of the variable, or the reference itself if it is not set.
def valueOf (env : Environment) (name : List Char) : List Char :=
  ((env (String.ofList name)).map String.toList).getD (written name)

namespace Layout

-- The pieces as they are, with something in the place of each reference.
def fill (l : Layout) (f : List Char → List Char) : List Char :=
  l.references.flatMap (fun (piece, name) => piece ++ f name) ++ l.last

def text (l : Layout) : List Char :=
  l.fill written

-- A reference begins where one can first begin, and it reaches to the first brace that closes it.
structure Proper (l : Layout) : Prop where
  pieces : ∀ r ∈ l.references, ¬['$', '{'] <:+: r.1
  names  : ∀ r ∈ l.references, '}' ∉ r.2
  last   : ¬['$', '{'] <:+: l.last

def parts (l : Layout) : List Part :=
  l.references.flatMap (fun (piece, name) => piece.map .char ++ [.reference name]) ++
    l.last.map .char

-- The layout with more at its front.
def prepend (piece : List Char) : Layout → Layout
  | ⟨[], last⟩                           => ⟨[], piece ++ last⟩
  | ⟨(piece', name) :: references, last⟩ => ⟨(piece ++ piece', name) :: references, last⟩

def ofParts : List Part → Layout
  | []                    => ⟨[], []⟩
  | .char c :: ps         => (ofParts ps).prepend [c]
  | .reference name :: ps => ⟨([], name) :: (ofParts ps).references, (ofParts ps).last⟩

end Layout

section Scan

variable {c : Char} {cs piece name rest : List Char}

theorem parts_char (plain : c = '$' → cs.head? ≠ some '{') :
    parts (c :: cs) = .char c :: parts cs := by
  rw [parts]
  rintro name rfl rfl
  exact plain rfl rfl

-- A piece in which no reference begins, be it together with what comes next, is left as it is.
theorem parts_piece_append (plain : ¬['$', '{'] <:+: piece)
    (apart : piece.getLast? ≠ some '$' ∨ rest.head? ≠ some '{') :
    parts (piece ++ rest) = piece.map .char ++ parts rest := by
  induction piece with
  | nil => rfl
  | cons c piece ih =>
    have plain' : ¬['$', '{'] <:+: piece :=
      fun h => plain (h.trans (List.suffix_cons c piece).isInfix)
    have single : c = '$' → (piece ++ rest).head? ≠ some '{' := by
      rintro rfl head
      cases piece with
      | nil => simp_all
      | cons c' piece =>
        cases head
        exact plain ⟨[], piece, rfl⟩
    have apart' : piece.getLast? ≠ some '$' ∨ rest.head? ≠ some '{' := by
      refine apart.imp_left fun h => ?_
      cases piece with
      | nil      => simp
      | cons _ _ => simpa using h
    rw [List.cons_append, parts_char single, ih plain' apart']
    rfl

theorem nameParts_append {before : List Char} (inside : '}' ∉ name) :
    nameParts before (name ++ '}' :: rest) = .reference (before.reverse ++ name) :: parts rest := by
  induction name generalizing before with
  | nil => simp [nameParts]
  | cons c name ih =>
    simp only [List.mem_cons, not_or] at inside
    simp [nameParts, Ne.symm inside.1, ih inside.2]

theorem parts_written_append (inside : '}' ∉ name) :
    parts (written name ++ rest) = .reference name :: parts rest := by
  simp [written, parts, nameParts_append inside]

end Scan

namespace Layout

variable {l : Layout} {c : Char} {cs rest : List Char}

-- What comes after a text does not change its parts unless it completes the beginning of a
-- reference.
theorem parts_text_append (proper : l.Proper)
    (apart : l.last.getLast? ≠ some '$' ∨ rest.head? ≠ some '{') :
    Settings.parts (l.text ++ rest) = l.parts ++ Settings.parts rest := by
  obtain ⟨references, last⟩ := l
  obtain ⟨pieces, names, plain⟩ := proper
  induction references with
  | nil => exact parts_piece_append plain apart
  | cons r references ih =>
    obtain ⟨piece, name⟩ := r
    have ⟨piece_plain, pieces⟩ := List.forall_mem_cons.mp pieces
    have ⟨inside, names⟩ := List.forall_mem_cons.mp names
    have later := ih apart pieces names plain
    simp only [text, fill, parts, List.flatMap_cons, List.append_assoc] at later ⊢
    rw [parts_piece_append piece_plain (.inr (by simp [written])), parts_written_append inside,
      later]
    rfl

theorem parts_text (proper : l.Proper) : Settings.parts l.text = l.parts := by
  have apart : l.last.getLast? ≠ some '$' ∨ ([] : List Char).head? ≠ some '{' := .inr nofun
  have whole := parts_text_append proper apart
  simpa [Settings.parts] using whole

theorem text_prepend (piece : List Char) (l : Layout) :
    (l.prepend piece).text = piece ++ l.text := by
  obtain ⟨_ | _, _⟩ := l <;> simp [prepend, text, fill]

theorem prepend_nil (l : Layout) : l.prepend [] = l := by
  obtain ⟨_ | _, _⟩ := l <;> rfl

theorem prepend_prepend (piece piece' : List Char) (l : Layout) :
    (l.prepend piece').prepend piece = l.prepend (piece ++ piece') := by
  obtain ⟨_ | _, _⟩ := l <;> simp [prepend]

theorem text_ofParts (ps : List Part) : (ofParts ps).text = ps.flatMap Part.source := by
  induction ps with
  | nil => rfl
  | cons part ps ih =>
    rw [List.flatMap_cons, ← ih]
    cases part with
    | char c         => exact text_prepend [c] _
    | reference name => simp [ofParts, text, fill, Part.source, written]

theorem ofParts_piece_append (piece : List Char) (ps : List Part) :
    ofParts (piece.map .char ++ ps) = (ofParts ps).prepend piece := by
  induction piece with
  | nil         => exact (prepend_nil _).symm
  | cons c _ ih => rw [List.map_cons, List.cons_append, ofParts, ih, prepend_prepend]; rfl

-- A layout can be told from the parts of its text.
theorem ofParts_parts (l : Layout) : ofParts l.parts = l := by
  obtain ⟨references, last⟩ := l
  induction references with
  | nil =>
    have whole := ofParts_piece_append last []
    simpa [parts, ofParts, prepend] using whole
  | cons r references ih =>
    have cons : parts ⟨r :: references, last⟩ =
        r.1.map .char ++ .reference r.2 :: parts ⟨references, last⟩ := by
      simp [parts]
    rw [cons, ofParts_piece_append, ofParts, ih, prepend, List.append_nil]

theorem proper_nil : Proper ⟨[], []⟩ :=
  ⟨nofun, nofun, by decide⟩

theorem Proper.prepend (proper : l.Proper) (plain : c = '$' → l.text.head? ≠ some '{') :
    (l.prepend [c]).Proper := by
  have begins {piece : List Char} (free : ¬['$', '{'] <:+: piece)
      (head : c = '$' → piece.head? ≠ some '{') : ¬['$', '{'] <:+: c :: piece := by
    rw [List.infix_cons_iff]
    rintro (⟨more, eq⟩ | inside)
    · cases eq
      exact head rfl rfl
    · exact free inside
  obtain ⟨_ | ⟨⟨piece, name⟩, references⟩, last⟩ := l
  case nil =>
    exact ⟨nofun, nofun, begins proper.last plain⟩
  case cons =>
    have ⟨free, pieces⟩ := List.forall_mem_cons.mp proper.pieces
    refine ⟨List.forall_mem_cons.mpr ⟨begins free ?_, pieces⟩, ?_, proper.last⟩
    · intro dollar head
      cases piece with
      | nil      => cases head
      | cons _ _ => exact plain dollar (by simpa [text, fill] using head)
    · exact List.forall_mem_cons.mpr (List.forall_mem_cons.mp proper.names)

theorem Proper.reference {name : List Char} (proper : l.Proper) (inside : '}' ∉ name) :
    Proper ⟨([], name) :: l.references, l.last⟩ where
  pieces := List.forall_mem_cons.mpr ⟨by simp, proper.pieces⟩
  names  := List.forall_mem_cons.mpr ⟨inside, proper.names⟩
  last   := proper.last

-- The layout of a text that may leave a reference open; then it has a brace more than the text.
def ofText (cs : List Char) : Layout :=
  ofParts (Settings.parts cs)

theorem text_ofText (cs : List Char) :
    (ofText cs).text = cs ++ if Unclosed cs then ['}'] else [] := by
  rw [ofText, text_ofParts, flatMap_source_parts]

theorem proper_ofText (cs : List Char) : (ofText cs).Proper := by
  refine Settings.parts.induct (fun cs => (ofText cs).Proper)
    (fun name cs => '}' ∉ name → (ofParts (nameParts name cs)).Proper)
    ?nil ?reference ?char ?ends ?closes ?inside cs
  case nil =>
    exact proper_nil
  case reference =>
    intro cs ih
    simpa [ofText, Settings.parts] using ih
  case char =>
    intro c cs plain ih
    have single : c = '$' → (ofText cs).text.head? ≠ some '{' := by
      intro dollar head
      rw [text_ofText] at head
      cases cs with
      | nil      => simp [not_unclosed_nil] at head
      | cons _ _ => cases head; exact plain _ dollar rfl
    have parts : Settings.parts (c :: cs) = .char c :: Settings.parts cs :=
      parts_char fun dollar head => by
        cases cs <;> cases head
        exact plain _ dollar rfl
    rw [ofText, parts, ofParts]
    exact ih.prepend single
  case ends =>
    intro name inside
    exact proper_nil.reference (by simpa using inside)
  case closes =>
    intro name cs ih inside
    rw [nameParts, if_pos rfl, ofParts]
    exact ih.reference (by simpa using inside)
  case inside =>
    intro name c cs ne ih inside
    rw [nameParts, if_neg ne]
    exact ih (by simpa using ⟨Ne.symm ne, inside⟩)

theorem not_unclosed_text (proper : l.Proper) : ¬Unclosed l.text := by
  intro opened
  have source := flatMap_source_parts l.text
  rw [parts_text proper, ← text_ofParts, ofParts_parts, if_pos opened] at source
  simp at source

-- The texts that have a layout are those that close all of their references, and they have but one.
theorem eq_ofText (proper : l.Proper) : l = ofText l.text := by
  rw [ofText, parts_text proper, ofParts_parts]

theorem existsUnique_text_iff : (∃! l : Layout, l.Proper ∧ l.text = cs) ↔ ¬Unclosed cs := by
  constructor
  case mp =>
    rintro ⟨l, ⟨proper, rfl⟩, _⟩
    exact not_unclosed_text proper
  case mpr =>
    intro closed
    refine ⟨ofText cs, ⟨proper_ofText cs, by simp [text_ofText, closed]⟩, ?_⟩
    rintro l ⟨proper, rfl⟩
    exact eq_ofText proper

section Expand

variable {env : Environment} {a b : String}

theorem flatMap_expand_parts (l : Layout) :
    l.parts.flatMap (Part.expand env) = l.fill (valueOf env) := by
  have chars (piece : List Char) : (piece.map Part.char).flatMap (Part.expand env) = piece := by
    simp [List.flatMap_map, Part.expand]
  have value (name : List Char) : Part.expand env (.reference name) = valueOf env name := by
    rw [Part.expand, substitute, valueOf]
    cases env (String.ofList name) <;> rfl
  simp [parts, fill, List.flatMap_assoc, chars, value]

theorem expand_eq_fill (proper : l.Proper) (whole : l.text = a.toList) :
    expand env a = String.ofList (l.fill (valueOf env)) := by
  rw [expand, ← whole, parts_text proper, flatMap_expand_parts]

theorem expand_append (closed : ¬Unclosed a.toList)
    (apart : a.toList.getLast? ≠ some '$' ∨ b.toList.head? ≠ some '{') :
    expand env (a ++ b) = expand env a ++ expand env b := by
  have ⟨l, ⟨proper, whole⟩, _⟩ := existsUnique_text_iff.mpr closed
  have ends : l.last.getLast? = some '$' → a.toList.getLast? = some '$' := fun dollar => by
    rw [← whole, text, fill, List.getLast?_append, dollar]
    rfl
  simp only [expand, String.toList_append, ← whole,
    parts_text_append proper (apart.imp_left <| mt ends), parts_text proper, List.flatMap_append,
    String.ofList_append]

-- Each reference that a scan from the left comes to is replaced once: what stands in its place is
-- not looked at again, and neither does it matter what comes before or after it.
theorem expand_closed (closed : ¬Unclosed a.toList) :
    (∃! l : Layout, l.Proper ∧ l.text = a.toList) ∧
    (∀ l : Layout, l.Proper → l.text = a.toList →
      expand env a = String.ofList (l.fill (valueOf env))) ∧
    ∀ b : String, a.toList.getLast? ≠ some '$' ∨ b.toList.head? ≠ some '{' →
      expand env (a ++ b) = expand env a ++ expand env b :=
  ⟨existsUnique_text_iff.mpr closed, fun _ => expand_eq_fill, fun _ => expand_append closed⟩

-- References next to a dollar sign and a brace that do not belong to them.
def entangled : Layout :=
  ⟨[(['$'], ['A']), (['{'], ['B'])], ['$']⟩

-- One of them is set to what looks like the other, which is not set; in the text that comes next
-- there is a reference with what looks like one inside.
theorem expand_entangled :
    let env := Environment.ofVariables [("A", "$\x7bB\x7d"), ("A$\x7bA", "$")]
    entangled.Proper ∧ ¬Unclosed entangled.text ∧
      expand env (String.ofList entangled.text) = "$$\x7bB\x7d\x7b$\x7bB\x7d$" ∧
      expand env (String.ofList entangled.text ++ "x$\x7bA$\x7bA\x7d\x7d") =
        "$$\x7bB\x7d\x7b$\x7bB\x7d$x$\x7d" := by
  intro env
  have proper : entangled.Proper := ⟨by decide, by decide, by decide⟩
  have closed : ¬Unclosed (String.ofList entangled.text).toList := by
    decide +kernel
  have ⟨_, value, append⟩ := @expand_closed env _ closed
  have here : expand env (String.ofList entangled.text) = "$$\x7bB\x7d\x7b$\x7bB\x7d$" := by
    rw [value entangled proper (by simp)]
    decide +kernel
  refine ⟨proper, by simpa using closed, here, ?_⟩
  rw [append _ (by decide +kernel), here]
  decide +kernel

end Expand

end Layout
end RoutingPlan.Settings
