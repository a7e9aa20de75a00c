import RoutingPlan.Proofs.Toml.Quoting
import RoutingPlan.Toml.Reader

-- Documents line by line: what the reader of a document makes of lines that are written plainly,
-- with bare keys.

namespace RoutingPlan.Toml

open Text (Stops)

structure BareKey (key : String) : Prop where
  nonempty : key.toList ≠ []
  bare     : key.toList.all isBareKeyChar = true

section Key

variable {key : String} {keys : List String} {cs rest : List Char}

theorem skipBlanks_of_stops (h : Stops isBlank cs) : skipBlanks cs = cs := by
  cases cs with
  | nil       => rfl
  | cons c cs => simp [skipBlanks, h c rfl]

theorem skipBlanks_cons {c : Char} (h : isBlank c = true) :
    skipBlanks (c :: cs) = skipBlanks cs := by
  simp [skipBlanks, h]

theorem isBlank_of_bare {c : Char} (h : isBareKeyChar c = true) : isBlank c = false := by
  cases blank : isBlank c with
  | false => rfl
  | true  =>
    simp only [isBlank, Bool.or_eq_true, beq_iff_eq] at blank
    rcases blank with rfl | rfl <;> exact absurd h (by decide)

theorem BareKey.bare_of_mem {c : Char} (h : BareKey key) (hc : c ∈ key.toList) :
    isBareKeyChar c = true :=
  List.all_eq_true.mp h.bare c hc

theorem BareKey.exists_head (h : BareKey key) :
    ∃ c cs, key.toList = c :: cs ∧ isBareKeyChar c = true := by
  cases eq : key.toList with
  | nil       => exact absurd eq h.nonempty
  | cons c cs => exact ⟨c, cs, rfl, h.bare_of_mem (eq ▸ List.mem_cons_self)⟩

theorem skipBlanks_key (h : BareKey key) :
    skipBlanks (key.toList ++ rest) = key.toList ++ rest := by
  have ⟨c, cs, eq, bare⟩ := h.exists_head
  rw [eq]
  exact skipBlanks_of_stops <| Text.stops_cons (isBlank_of_bare bare)

theorem readSimpleKey_append (h : BareKey key) (stops : Stops isBareKeyChar rest) :
    readSimpleKey (key.toList ++ rest) = some (key, rest) := by
  have ⟨c, cs, eq, bare⟩ := h.exists_head
  rw [readSimpleKey, Text.takeWhile_append (fun _ => h.bare_of_mem) stops,
    Text.dropWhile_append (fun _ => h.bare_of_mem) stops]
  · simp [h.nonempty]
  · rintro r head
    rw [eq] at head
    exact absurd ((List.cons.inj head).left ▸ bare) (by decide)
  · rintro r head
    rw [eq] at head
    exact absurd ((List.cons.inj head).left ▸ bare) (by decide)

theorem readKeys_append {n : Nat} (filled : keys ≠ []) (bare : ∀ k ∈ keys, BareKey k)
    (stops : Stops isBareKeyChar rest) (undotted : Stops (· == '.') (skipBlanks rest))
    (fuel : (".".intercalate keys).toList.length < n) :
    readKeys n ((".".intercalate keys).toList ++ rest) = some (keys, skipBlanks rest) := by
  induction keys generalizing n with
  | nil => exact absurd rfl filled
  | cons key keys ih =>
    cases n with
    | zero   => exact absurd fuel (Nat.not_lt_zero _)
    | succ n =>
      have ⟨key_bare, bare⟩ := List.forall_mem_cons.mp bare
      cases keys with
      | nil =>
        rw [String.intercalate_singleton, readKeys, skipBlanks_key key_bare,
          readSimpleKey_append key_bare stops]
        dsimp only
        split
        case h_1 dot => exact absurd (undotted '.' (dot ▸ rfl)) (by decide)
        case h_2 => rfl
      | cons key' keys =>
        have reads := ih (List.cons_ne_nil _ _) bare (n := n)
        have separated : (".".intercalate (key :: key' :: keys)).toList =
            key.toList ++ '.' :: (".".intercalate (key' :: keys)).toList := by
          rw [String.intercalate_cons_cons, String.toList_append, String.toList_append,
            List.append_assoc]
          rfl
        rw [separated] at fuel ⊢
        generalize (".".intercalate (key' :: keys)).toList = more at reads fuel ⊢
        have dot : skipBlanks ('.' :: (more ++ rest)) = '.' :: (more ++ rest) :=
          skipBlanks_of_stops <| Text.stops_cons (by decide)
        rw [List.length_append, List.length_cons] at fuel
        rw [List.append_assoc, List.cons_append, readKeys, skipBlanks_key key_bare,
          readSimpleKey_append key_bare (Text.stops_cons (by decide))]
        simp [dot, reads (by omega)]

theorem readKey_append (path : List String) (key : String) (rest : List Char)
    (bare : ∀ k ∈ path ++ [key], BareKey k)
    (short : (path ++ [key]).length < depthLimit) (stops : Stops isBareKeyChar rest)
    (undotted : Stops (· == '.') (skipBlanks rest)) :
    readKey ((".".intercalate (path ++ [key])).toList ++ rest) =
      some ((path, key), skipBlanks rest) := by
  rw [readKey, readKeys_append (by simp) bare stops undotted (Nat.lt_succ_of_le (by simp))]
  simpa using short

end Key

theorem readLineEnd_newline {rest : List Char} : readLineEnd ('\n' :: rest) = some rest := by
  rw [readLineEnd, skipBlanks_of_stops (Text.stops_cons (by decide))]
  rfl

-- A value that stands on one line by itself.
structure SpellsValue (text : List Char) (v : Value) : Prop where
  starts : Stops isBlank text
  reads  : ∀ n rest, text.length < n →
    readValue n 0 (text ++ '\n' :: rest) = some (v, '\n' :: rest)

theorem spellsValue_empty_array : SpellsValue ['[', ']'] (.array []) where
  starts := Text.stops_cons (by decide)
  reads n rest fuel := by
    match n, fuel with
    | n + 2, _ => rfl

theorem exists_head_renderString (s : String) :
    ∃ c cs, renderString s = c :: cs ∧ (c = '"' ∨ c = '\'') := by
  fun_cases renderString s
  case case1 | case3 | case5 | case6 => exact ⟨'"', _, rfl, .inl rfl⟩
  case case2 | case4 => exact ⟨'\'', _, rfl, .inr rfl⟩

theorem spellsValue_string {c : Char} {cs : List Char} {s : String} (quote : c = '"' ∨ c = '\'')
    (reads : ∀ rest, readString (c :: cs ++ '\n' :: rest) = some (s, '\n' :: rest)) :
    SpellsValue (c :: cs) (.string s) := by
  refine ⟨Text.stops_cons ?_, ?_⟩
  case refine_1 => rcases quote with rfl | rfl <;> decide
  case refine_2 =>
    intro n rest fuel
    cases n with
    | zero   => exact absurd fuel (Nat.not_lt_zero _)
    | succ n =>
      simp only [List.cons_append] at reads ⊢
      rw [readValue]
      · simp [quote, reads]
      · rintro rfl
        simp at quote
      · rintro rfl
        simp at quote

theorem spellsValue_renderString (s : String) : SpellsValue (renderString s) (.string s) := by
  have ⟨c, cs, eq, quote⟩ := exists_head_renderString s
  rw [eq]
  exact spellsValue_string quote fun rest =>
    eq ▸ readString_renderString s (Text.stops_cons (by decide))

namespace Document

-- The lines of a text lead from one document to another, whatever comes after them.
def Takes (d : Document) (text : List Char) (d' : Document) : Prop :=
  ∀ n rest, (text ++ rest).length < n →
    ∃ m, rest.length < m ∧ lines n d (text ++ rest) = lines m d' rest

variable {d d' d'' : Document} {text text' : List Char}

theorem takes_nil : Takes d [] d :=
  fun n _ fuel => ⟨n, fuel, rfl⟩

theorem Takes.append (h : Takes d text d') (h' : Takes d' text' d'') :
    Takes d (text ++ text') d'' := by
  intro n rest fuel
  rw [List.append_assoc] at fuel ⊢
  have ⟨m, fuel, eq⟩ := h n _ fuel
  have ⟨m', fuel, eq'⟩ := h' m rest fuel
  exact ⟨m', fuel, eq.trans eq'⟩

theorem Takes.lines {n : Nat} (h : Takes d text d') (fuel : text.length < n) :
    lines n d text = some d' := by
  have ⟨m, fuel, read⟩ := h n [] (by simpa using fuel)
  rw [List.append_nil] at read
  cases m with
  | zero   => exact absurd fuel (Nat.not_lt_zero _)
  | succ m => exact read

theorem takes_blank : Takes d ['\n'] d := by
  intro n rest fuel
  cases n with
  | zero   => exact absurd fuel (Nat.not_lt_zero _)
  | succ n =>
    refine ⟨n, Nat.lt_of_succ_lt_succ fuel, ?_⟩
    rw [List.singleton_append, lines, skipBlanks_of_stops (Text.stops_cons (by decide))]
    simp [readLineEnd_newline]

-- What a line can begin with that is neither blank nor a comment.
def beginsLine (c : Char) : Bool :=
  !isBlank c && c != '#' && c != '\n' && c != '\r'

theorem lines_succ {n : Nat} {c : Char} {cs : List Char} (begins : beginsLine c = true) :
    lines (n + 1) d (c :: cs) = (d.line (c :: cs)).bind fun (d, cs) => lines n d cs := by
  simp only [beginsLine, Bool.and_eq_true, Bool.not_eq_true', bne_iff_ne] at begins
  have ⟨⟨⟨filled, comment⟩, feed⟩, ret⟩ := begins
  rw [lines, skipBlanks_of_stops (Text.stops_cons filled)]
  simp [comment, feed, ret]

theorem takes_line {c : Char} {cs : List Char} (begins : beginsLine c = true)
    (reads : ∀ rest, d.line (c :: cs ++ rest) = some (d', rest)) : Takes d (c :: cs) d' := by
  intro n rest fuel
  cases n with
  | zero   => exact absurd fuel (Nat.not_lt_zero _)
  | succ n =>
    simp only [List.cons_append, List.length_cons, List.length_append] at reads fuel ⊢
    refine ⟨n, by omega, ?_⟩
    rw [lines_succ begins, reads]
    rfl

theorem beginsLine_of_bare {c : Char} (h : isBareKeyChar c = true) :
    beginsLine c = true ∧ c ≠ '[' := by
  have ne (c' : Char) (h' : isBareKeyChar c' = false) : c ≠ c' := by
    rintro rfl
    exact absurd (h.symm.trans h') (by decide)
  refine ⟨?_, ne '[' (by decide)⟩
  simp [beginsLine, isBlank_of_bare h, ne '#' (by decide), ne '\n' (by decide),
    ne '\r' (by decide)]

-- A line that defines a bare key, as far as its value.
theorem line_entry {key : String} {cs : List Char} (bare : BareKey key)
    (starts : Stops isBlank cs) :
    d.line (key.toList ++ [' ', '=', ' '] ++ cs) =
      (readValue (2 * (cs.length + 1) + 2) 0 cs).bind fun (v, cs) =>
        (d.define [] key v).bind fun d' => (readLineEnd cs).map (d', ·) := by
  have ⟨c, _, eq, head⟩ := bare.exists_head
  have ⟨_, bracket⟩ := beginsLine_of_bare head
  have key_read := readKey_append [] key (' ' :: '=' :: ' ' :: cs)
    (by simpa using bare) (show 1 < depthLimit by decide) (Text.stops_cons (by decide))
    (Text.stops_cons (by decide))
  rw [List.nil_append, String.intercalate_singleton] at key_read
  simp only [List.append_assoc, List.cons_append, List.nil_append]
  rw [line, key_read]
  · rw [skipBlanks_cons (by decide), skipBlanks_of_stops (Text.stops_cons (by decide))]
    have value : skipBlanks (' ' :: cs) = cs := by
      rw [skipBlanks_cons (by decide), skipBlanks_of_stops starts]
    change (readValue (2 * (cs.length + 1) + 2) 0 (skipBlanks (' ' :: cs))).bind _ = _
    simp only [value, Option.map_eq_bind]
    rfl
  · rintro x opening
    exact bracket <| (List.cons.inj ((congrArg (· ++ _) eq).symm.trans opening)).left
  · rintro x opening
    exact bracket <| (List.cons.inj ((congrArg (· ++ _) eq).symm.trans opening)).left

theorem takes_entry {key : String} {value : List Char} {v : Value} (bare : BareKey key)
    (spells : SpellsValue value v) (defines : d.define [] key v = some d') :
    Takes d (key.toList ++ [' ', '=', ' '] ++ value ++ ['\n']) d' := by
  have ⟨c, cs, eq, head⟩ := bare.exists_head
  have line_read (rest : List Char) :
      d.line (key.toList ++ [' ', '=', ' '] ++ value ++ ['\n'] ++ rest) = some (d', rest) := by
    have starts : Stops isBlank (value ++ '\n' :: rest) := by
      cases value with
      | nil       => exact Text.stops_cons (by decide)
      | cons c cs => exact Text.stops_cons (spells.starts c rfl)
    have value_read := spells.reads (2 * ((value ++ '\n' :: rest).length + 1) + 2) rest
      (by simp; omega)
    have read := line_entry (d := d) bare starts
    rw [value_read] at read
    simpa [defines, readLineEnd_newline] using read
  simp only [eq, List.cons_append] at line_read ⊢
  exact takes_line (beginsLine_of_bare head).left line_read

-- The lines after one that defines a key go on from what it leads to.
theorem exists_of_lines_entry {n : Nat} {key : String} {cs : List Char} (bare : BareKey key)
    (starts : Stops isBlank cs) (h : lines n d (key.toList ++ [' ', '=', ' '] ++ cs) = some d') :
    ∃ v rest d'' m rest', readValue (2 * (cs.length + 1) + 2) 0 cs = some (v, rest) ∧
      d.define [] key v = some d'' ∧ lines m d'' rest' = some d' := by
  have ⟨c, _, eq, head⟩ := bare.exists_head
  cases n with
  | zero   => cases h
  | succ n =>
    have entry := line_entry (d := d) bare starts
    simp only [eq, List.cons_append] at h entry
    rw [lines_succ (beginsLine_of_bare head).left, entry] at h
    have ⟨⟨d'', rest'⟩, first, h⟩ := Option.bind_eq_some_iff.mp h
    have ⟨⟨v, rest⟩, read, first⟩ := Option.bind_eq_some_iff.mp first
    have ⟨_, defined, ended⟩ := Option.bind_eq_some_iff.mp first
    have ⟨_, _, same⟩ := Option.map_eq_some_iff.mp ended
    cases same
    exact ⟨v, rest, d'', n, rest', read, defined, h⟩

theorem takes_header {path : List String} {key : String} (bare : ∀ k ∈ path ++ [key], BareKey k)
    (short : (path ++ [key]).length < depthLimit) (opens : d.openElement path key = some d') :
    Takes d ('[' :: '[' :: ((".".intercalate (path ++ [key])).toList ++ [']', ']', '\n'])) d' := by
  refine takes_line (by decide) fun rest => ?_
  have key_read := readKey_append path key (']' :: ']' :: '\n' :: rest) bare short
    (Text.stops_cons (by decide)) (Text.stops_cons (by decide))
  simp only [List.cons_append, List.append_assoc, List.nil_append]
  rw [line, key_read, skipBlanks_of_stops (Text.stops_cons (by decide))]
  simp [opens, readLineEnd_newline]

theorem takes_section {key : String} (bare : BareKey key) (opens : d.openTable [] key = some d') :
    Takes d ('[' :: (key.toList ++ [']', '\n'])) d' := by
  have ⟨c, cs, eq, head⟩ := bare.exists_head
  refine takes_line (by decide) fun rest => ?_
  have key_read := readKey_append [] key (']' :: '\n' :: rest) (by simpa using bare)
    (show 1 < depthLimit by decide) (Text.stops_cons (by decide)) (Text.stops_cons (by decide))
  rw [List.nil_append, String.intercalate_singleton] at key_read
  simp only [List.cons_append, List.append_assoc, List.nil_append]
  rw [line, key_read, skipBlanks_of_stops (Text.stops_cons (by decide))]
  · simp [opens, readLineEnd_newline]
  · rintro x opening
    refine (beginsLine_of_bare head).right ?_
    exact (List.cons.inj ((congrArg (· ++ _) eq).symm.trans opening)).left

end Document

theorem ofText?_ofList {text : List Char} (unmarked : text.head? ≠ some '\uFEFF') :
    Value.ofText? (String.ofList text) =
      ((Document.lines (text.length + 1) .empty text).bind Document.close).map Table.toValue := by
  rw [Value.ofText?, String.toList_ofList]
  split
  case h_1 => exact absurd rfl unmarked
  case h_2 =>
    rw [Option.map_bind]
    refine Option.bind_congr fun d _ => ?_
    exact Option.map_eq_bind.symm

end RoutingPlan.Toml
