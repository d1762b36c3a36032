import CallAtlas.Json.Printer
import CallAtlas.Proofs.Reading
import Mathlib.Data.List.DropRight
import Mathlib.Data.List.TakeDrop

/-!
# Reading JSON text back

The reader accepts what the printer writes and gives it back. A string keeps each of its characters,
whether it is written as it is, by a short escape or by the number of a unit. A number is given back
as it is written, so it has to end where the reader thinks that it does: behind it comes a comma, a
line break or nothing. Line breaks and indentation are skipped.

The reader is told how deep it may go. The length of the text is enough, since whatever a part of a
value is read with is shorter than what the value is read with.

## Main definitions

* `Json.Counts` — all numbers in a value are natural numbers in decimal digits.
* `Json.written` — a value as the printer writes it.

## Main results

* `Json.pieces?_escape_append`, `Json.number?_toString_append` — strings and numbers.
* `Json.scanValue?_prettyAt` — values at any level.
* `Json.parse?_pretty` — whole texts.
-/

namespace CallAtlas

namespace Json

/-! ### Strings -/

/-- The characters with a short escape, and what stands behind the backslash. -/
def shortEscapes : List (Char × Char) :=
  [('"', '"'), ('\\', '\\'), ('\n', 'n'), ('\r', 'r'), ('\t', 't'), ('\x08', 'b'), ('\x0c', 'f')]

/-- The part of a string that a character is written as. Control characters without a short escape
are written by their number. -/
def Piece.ofChar (c : Char) : Piece :=
  if c.toNat < 32 ∧ c ∉ shortEscapes.map Prod.fst then .unit c.toNat else .char c

theorem escapeChar_of_short : ∀ x ∈ shortEscapes, escapeChar x.1 = ['\\', x.2] ∧ x.2 ≠ 'u' ∧
    shortEscape? x.2 = some x.1 := by
  decide

theorem escapeChar_of_not_short {c : Char} (h : c ∉ shortEscapes.map Prod.fst) :
    escapeChar c = if c.toNat < 32 then ['\\', 'u', '0', '0'] ++ hexByte c.toNat else [c] := by
  simp_all [shortEscapes, escapeChar]

/-- Two hexadecimal digits tell the number of a control character. -/
theorem hexNumber?_hexByte : ∀ n < 32, hexNumber? (['0', '0'] ++ hexByte n) = some n := by
  decide

/-- One character of a string is read back. -/
theorem pieces?_escapeChar_append (c : Char) (rest : List Char) :
    pieces? (escapeChar c ++ rest) =
      (pieces? rest).map fun (pieces, rest) => (Piece.ofChar c :: pieces, rest) := by
  by_cases hshort : c ∈ shortEscapes.map Prod.fst
  · obtain ⟨⟨c, e⟩, hx, rfl⟩ := List.mem_map.mp hshort
    obtain ⟨hescape, he, hread⟩ := escapeChar_of_short _ hx
    have hpiece : Piece.ofChar c = .char c := if_neg fun h => h.2 hshort
    rw [hescape, hpiece, List.cons_append, List.singleton_append,
      pieces?.eq_4 _ _ fun _ _ _ _ _ h _ => he h, hread]
    cases pieces? rest <;> rfl
  rw [escapeChar_of_not_short hshort]
  split
  · next hc =>
    have hpiece : Piece.ofChar c = .unit c.toNat := if_pos ⟨hc, hshort⟩
    have hnumber : hexNumber? ('0' :: '0' :: hexByte c.toNat) = some c.toNat :=
      hexNumber?_hexByte c.toNat hc
    rw [hpiece, hexByte] at *
    simp only [List.cons_append, List.nil_append]
    rw [pieces?, hnumber]
    cases pieces? rest <;> rfl
  · next hc =>
    have hpiece : Piece.ofChar c = .char c := if_neg fun h => hc h.1
    have hquote : c ≠ '"' := fun h => hshort (h ▸ by decide)
    have hbackslash : c ≠ '\\' := fun h => hshort (h ▸ by decide)
    rw [hpiece, List.singleton_append,
      pieces?.eq_5 _ _ hquote (fun _ _ _ _ _ h _ => hbackslash h) (fun _ _ h _ => hbackslash h),
      if_neg (not_or.mpr ⟨hc, hbackslash⟩)]
    cases pieces? rest <;> rfl

/-- A string is read back. -/
theorem pieces?_escape_append (text rest : List Char) :
    pieces? (text.flatMap escapeChar ++ '"' :: rest) = some (text.map Piece.ofChar, rest) := by
  induction text with
  | nil => simp [pieces?]
  | cons c text ih =>
    rw [List.flatMap_cons, List.append_assoc, pieces?_escapeChar_append, ih]
    rfl

/-- A unit that is no half of a surrogate pair stands for a character, whatever follows. -/
theorem Piece.chars?_unit_cons {n : Nat} (h : n < 32) (rest : List Piece) :
    Piece.chars? (.unit n :: rest) = (Piece.chars? rest).map (Char.ofNat n :: ·) := by
  have hhigh : Piece.isHigh n = false := by
    rw [Piece.isHigh, decide_eq_false (by omega), Bool.false_and]
  have hlow : Piece.isLow n = false := by
    rw [Piece.isLow, decide_eq_false (by omega), Bool.false_and]
  rcases rest with _ | ⟨_ | low, rest⟩
  · simp [Piece.chars?, hhigh, hlow]
  · rw [Piece.chars?.eq_4 _ _ (by simp), hhigh, hlow]
    rfl
  · rw [Piece.chars?, hhigh, hlow]
    rfl

/-- The parts of a string tell its text. -/
theorem Piece.join?_map_ofChar (s : String) : Piece.join? (s.toList.map Piece.ofChar) = some s := by
  have hchars : ∀ text : List Char, Piece.chars? (text.map Piece.ofChar) = some text := by
    intro text
    induction text with
    | nil => rfl
    | cons c text ih =>
      rw [List.map_cons, Piece.ofChar]
      split
      · next h => rw [Piece.chars?_unit_cons h.1, ih, Option.map_some, Char.ofNat_toNat]
      · rw [Piece.chars?, ih, Option.map_some]
  rw [Piece.join?, hchars, Option.map_some, String.ofList_toList]

/-! ### Numbers -/

/-- A number ends here: what follows is no part of it. -/
def Ends (rest : List Char) : Prop :=
  ∀ c ∈ rest.head?, c.isDigit = false ∧ c ≠ '.' ∧ c ≠ 'e' ∧ c ≠ 'E'

/-- A natural number starts with a zero only if it is zero. -/
theorem eq_nil_of_toDigits_eq_zero_cons (n : Nat) {more : List Char}
    (h : Nat.toDigits 10 n = '0' :: more) : more = [] := by
  induction n using Nat.strongRecOn generalizing more with
  | ind n ih =>
    rw [Nat.toDigits_eq_if (by decide)] at h
    split at h
    · exact (List.cons.inj h).2.symm
    · next hlarge =>
      obtain ⟨d, first, heq⟩ :=
        List.exists_cons_of_ne_nil (Nat.toDigits_ne_nil (n := n / 10) (b := 10))
      rw [heq, List.cons_append] at h
      obtain ⟨rfl, -⟩ := List.cons.inj h
      -- so the digits in front are those of zero
      obtain rfl := ih (n / 10) (by omega) heq
      have hzero : n / 10 = 0 := by
        rw [← Nat.ofDigitChars_ten_toDigits (n := n / 10), heq]
        rfl
      omega

theorem digits?_append {digits rest : List Char} (hne : digits ≠ [])
    (hdigits : ∀ c ∈ digits, c.isDigit = true) (hrest : Ends rest) :
    digits? (digits ++ rest) = some (digits, rest) := by
  have hstop : rest.takeWhile (·.isDigit) = [] ∧ rest.dropWhile (·.isDigit) = rest := by
    cases rest with
    | nil => exact ⟨rfl, rfl⟩
    | cons c rest => simp [(hrest c rfl).1]
  rw [digits?, List.span_eq_takeWhile_dropWhile, List.takeWhile_append_of_pos hdigits,
    List.dropWhile_append_of_pos hdigits, hstop.1, hstop.2, List.append_nil]
  cases digits with
  | nil => exact absurd rfl hne
  | cons c digits => rfl

theorem whole?_toString_append (n : Nat) {rest : List Char} (hrest : Ends rest) :
    whole? ((toString n).toList ++ rest) = some ((toString n).toList, rest) := by
  have hdigits : ∀ c ∈ (toString n).toList, c.isDigit = true := fun c => isDigit_of_mem_toString
  have hne : (toString n).toList ≠ [] := by simp
  generalize htext : (toString n).toList = text at hdigits hne
  rw [toList_toString] at htext
  unfold whole?
  split
  · next more heq =>
    obtain ⟨d, digits, rfl⟩ := List.exists_cons_of_ne_nil hne
    obtain ⟨rfl, hmore⟩ := List.cons.inj heq
    obtain rfl := eq_nil_of_toDigits_eq_zero_cons n htext
    rw [← hmore]
    rfl
  · exact digits?_append hne hdigits hrest

theorem fraction?_of_ends {rest : List Char} (h : Ends rest) :
    fraction? rest = some ([], rest) := by
  unfold fraction?
  split
  · exact absurd rfl (h '.' rfl).2.1
  · rfl

theorem exponent?_of_ends {rest : List Char} (h : Ends rest) :
    exponent? rest = some ([], rest) := by
  cases rest with
  | nil => rfl
  | cons c rest =>
    obtain ⟨-, -, hsmall, hlarge⟩ := h c rfl
    unfold exponent?
    exact if_neg (not_or.mpr ⟨hsmall, hlarge⟩)

/-- A natural number starts with a digit. -/
theorem isDigit_of_toString_append_eq_cons {n : Nat} {c : Char} {rest more : List Char}
    (h : (toString n).toList ++ rest = c :: more) : c.isDigit = true := by
  obtain ⟨d, digits, htext⟩ := List.exists_cons_of_ne_nil (l := (toString n).toList) (by simp)
  refine isDigit_of_mem_toString (n := n) ?_
  rw [htext, List.cons_append] at h
  rw [htext, (List.cons.inj h).1]
  exact List.mem_cons_self

/-- A natural number is read back. -/
theorem number?_toString_append (n : Nat) {rest : List Char} (hrest : Ends rest) :
    number? ((toString n).toList ++ rest) = some ((toString n).toList, rest) := by
  unfold number?
  split
  next _ sign cs heq =>
  split at heq
  · next more hminus =>
    have hdigit : '-'.isDigit = true := isDigit_of_toString_append_eq_cons hminus
    simp [Char.isDigit] at hdigit
  · obtain ⟨rfl, rfl⟩ := Prod.mk.inj heq
    rw [whole?_toString_append n hrest]
    dsimp only [Option.bind_eq_bind, Option.bind_some]
    rw [fraction?_of_ends hrest]
    dsimp only [Option.bind_some]
    rw [exponent?_of_ends hrest]
    simp

/-! ### Blanks -/

theorem skipBlanks_blank (cs : List Char) : skipBlanks (' ' :: cs) = skipBlanks cs := rfl

theorem skipBlanks_newline (cs : List Char) : skipBlanks ('\n' :: cs) = skipBlanks cs := rfl

theorem skipBlanks_comma (cs : List Char) : skipBlanks (',' :: cs) = ',' :: cs := rfl

theorem skipBlanks_skipBlanks (cs : List Char) : skipBlanks (skipBlanks cs) = skipBlanks cs :=
  List.dropWhile_idempotent _ _

theorem skipBlanks_indent_append (level : Nat) (cs : List Char) :
    skipBlanks ((indent level).toList ++ cs) = skipBlanks cs := by
  rw [skipBlanks, List.dropWhile_append_of_pos]
  · rfl
  · intro c hc
    obtain rfl : c = ' ' := by
      rw [indent, String.toList_ofList] at hc
      exact List.eq_of_mem_replicate hc
    rfl

namespace Written

/-- A value is read behind any blanks. -/
theorem scanValue?_congr (depth : Nat) {cs cs' : List Char} (h : skipBlanks cs = skipBlanks cs') :
    scanValue? depth cs = scanValue? depth cs' := by
  cases depth with
  | zero => rfl
  | succ depth => rw [scanValue?, scanValue?, h]

theorem scanItems?_congr (depth : Nat) {cs cs' : List Char} (h : skipBlanks cs = skipBlanks cs') :
    scanItems? depth cs = scanItems? depth cs' := by
  cases depth with
  | zero => rfl
  | succ depth => rw [scanItems?, scanItems?, scanValue?_congr depth h]

theorem scanMembers?_congr (depth : Nat) {cs cs' : List Char} (h : skipBlanks cs = skipBlanks cs') :
    scanMembers? depth cs = scanMembers? depth cs' := by
  cases depth with
  | zero => rfl
  | succ depth => rw [scanMembers?, scanMembers?, h]

end Written

/-! ### Values -/

mutual
/-- All numbers in a value are natural numbers in decimal digits. -/
def Counts : Json → Prop
  | .number text => ∃ n : Nat, text = toString n
  | .array items => CountsItems items
  | .object members => CountsMembers members
  | _ => True

/-- All numbers in some items are natural numbers. -/
def CountsItems : List Json → Prop
  | [] => True
  | item :: rest => Counts item ∧ CountsItems rest

/-- All numbers in some members are natural numbers. -/
def CountsMembers : List (String × Json) → Prop
  | [] => True
  | (_, value) :: rest => Counts value ∧ CountsMembers rest
end

mutual
/-- A value as it is written. -/
def written : Json → Written
  | .null => .null
  | .bool value => .bool value
  | .number text => .number text.toList
  | .string value => .string (value.toList.map Piece.ofChar)
  | .array items => .array (writtenItems items)
  | .object members => .object (writtenMembers members)

/-- Items as they are written. -/
def writtenItems : List Json → List Written
  | [] => []
  | item :: rest => written item :: writtenItems rest

/-- Members as they are written. -/
def writtenMembers : List (String × Json) → List (List Piece × Written)
  | [] => []
  | (key, value) :: rest => (key.toList.map Piece.ofChar, written value) :: writtenMembers rest
end

/-- The lines between two brackets, each at a level and with a comma behind all but the last. -/
def entries (level : Nat) (lines : List String) : List Char :=
  (",\n".intercalate (lines.map (indent level ++ ·))).toList

theorem entries_singleton (level : Nat) (line : String) :
    entries level [line] = (indent level).toList ++ line.toList := by
  simp [entries]

theorem entries_cons_cons (level : Nat) (line next : String) (rest : List String) :
    entries level (line :: next :: rest) =
      (indent level).toList ++ (line.toList ++ ',' :: '\n' :: entries level (next :: rest)) := by
  simp [entries]

theorem enclose_nil (opening closing : String) (level : Nat) :
    enclose opening closing level [] = opening ++ closing := rfl

theorem toList_enclose (opening closing : String) (level : Nat) {lines : List String}
    (h : lines ≠ []) :
    (enclose opening closing level lines).toList =
      opening.toList ++ '\n' :: (entries (level + 1) lines ++
        '\n' :: ((indent level).toList ++ closing.toList)) := by
  rw [enclose, if_neg (by simpa using h)]
  simp [entries]

theorem quote_append (s : String) (rest : List Char) :
    (quote s).toList ++ rest = '"' :: (s.toList.flatMap escapeChar ++ '"' :: rest) := by
  simp [quote]

theorem quoted?_quote_append (s : String) (rest : List Char) :
    quoted? ((quote s).toList ++ rest) = some (s.toList.map Piece.ofChar, rest) := by
  rw [quote_append, quoted?, pieces?_escape_append]

/-! ### One step of the reader -/

section Steps

open Written

variable {depth : Nat} {cs inner after more rest : List Char} {value : Written}

/-- No item starts with a closing bracket. -/
theorem scanItems?_closing (depth : Nat) (rest : List Char) :
    scanItems? depth (']' :: rest) = none := by
  have hvalue : ∀ depth, scanValue? depth (']' :: rest) = none := by
    intro depth
    cases depth <;> rfl
  cases depth with
  | zero => rfl
  | succ depth =>
    rw [scanItems?, hvalue]
    rfl

/-- No member starts with a closing brace. -/
theorem scanMembers?_closing (depth : Nat) (rest : List Char) :
    scanMembers? depth ('\x7d' :: rest) = none := by
  cases depth <;> rfl

theorem scanValue?_array {items : List Written} (h : skipBlanks cs = '[' :: inner)
    (hitems : scanItems? depth inner = some (items, rest)) :
    scanValue? (depth + 1) cs = some (.array items, rest) := by
  simp only [scanValue?, h]
  split
  · next closed hclosed =>
    have hnone : scanItems? depth inner = none :=
      (scanItems?_congr depth (hclosed.trans rfl)).trans (scanItems?_closing depth closed)
    rw [hnone] at hitems
    cases hitems
  · rw [scanItems?_congr depth (skipBlanks_skipBlanks inner), hitems]
    rfl

theorem scanValue?_object {members : List (List Piece × Written)}
    (h : skipBlanks cs = '\x7b' :: inner)
    (hmembers : scanMembers? depth inner = some (members, rest)) :
    scanValue? (depth + 1) cs = some (.object members, rest) := by
  simp only [scanValue?, h]
  split
  · next closed hclosed =>
    have hnone : scanMembers? depth inner = none :=
      (scanMembers?_congr depth (hclosed.trans rfl)).trans (scanMembers?_closing depth closed)
    rw [hnone] at hmembers
    cases hmembers
  · rw [scanMembers?_congr depth (skipBlanks_skipBlanks inner), hmembers]
    rfl

theorem scanItems?_last (hvalue : scanValue? depth cs = some (value, after))
    (hafter : skipBlanks after = ']' :: rest) :
    scanItems? (depth + 1) cs = some ([value], rest) := by
  rw [scanItems?, hvalue]
  dsimp only [Option.bind_eq_bind, Option.bind_some]
  rw [hafter]
  rfl

theorem scanItems?_more {items : List Written} (hvalue : scanValue? depth cs = some (value, after))
    (hafter : skipBlanks after = ',' :: more) (hmore : scanItems? depth more = some (items, rest)) :
    scanItems? (depth + 1) cs = some (value :: items, rest) := by
  rw [scanItems?, hvalue]
  dsimp only [Option.bind_eq_bind, Option.bind_some]
  rw [hafter]
  simp [hmore]

theorem scanMembers?_last {key : String}
    (hkey : skipBlanks cs = (quote key).toList ++ ':' :: inner)
    (hvalue : scanValue? depth inner = some (value, after))
    (hafter : skipBlanks after = '\x7d' :: rest) :
    scanMembers? (depth + 1) cs = some ([(key.toList.map Piece.ofChar, value)], rest) := by
  rw [scanMembers?, hkey, quoted?_quote_append]
  dsimp only [Option.bind_eq_bind, Option.bind_some]
  rw [show skipBlanks (':' :: inner) = ":".toList ++ inner from rfl, behind?_append]
  dsimp only [Option.bind_eq_bind, Option.bind_some]
  rw [hvalue]
  dsimp only [Option.bind_eq_bind, Option.bind_some]
  rw [hafter]
  rfl

theorem scanMembers?_more {key : String} {members : List (List Piece × Written)}
    (hkey : skipBlanks cs = (quote key).toList ++ ':' :: inner)
    (hvalue : scanValue? depth inner = some (value, after))
    (hafter : skipBlanks after = ',' :: more)
    (hmore : scanMembers? depth more = some (members, rest)) :
    scanMembers? (depth + 1) cs = some ((key.toList.map Piece.ofChar, value) :: members, rest) := by
  rw [scanMembers?, hkey, quoted?_quote_append]
  dsimp only [Option.bind_eq_bind, Option.bind_some]
  rw [show skipBlanks (':' :: inner) = ":".toList ++ inner from rfl, behind?_append]
  dsimp only [Option.bind_eq_bind, Option.bind_some]
  rw [hvalue]
  dsimp only [Option.bind_eq_bind, Option.bind_some]
  rw [hafter]
  simp [hmore]

theorem scanValue?_quote (s : String) (rest : List Char) :
    scanValue? (depth + 1) ((quote s).toList ++ rest) =
      some (.string (s.toList.map Piece.ofChar), rest) := by
  rw [quote_append, scanValue?]
  change (pieces? (s.toList.flatMap escapeChar ++ '"' :: rest)).map _ = _
  rw [pieces?_escape_append]
  rfl

/-- A number is what starts with a digit. -/
theorem scanValue?_number (n : Nat) (hrest : Ends rest) :
    scanValue? (depth + 1) ((toString n).toList ++ rest) =
      some (.number (toString n).toList, rest) := by
  have hblank : skipBlanks ((toString n).toList ++ rest) = (toString n).toList ++ rest := by
    cases htext : (toString n).toList ++ rest with
    | nil => rfl
    | cons d more =>
      have hdigit : d.isDigit = true := isDigit_of_toString_append_eq_cons htext
      rw [skipBlanks, List.dropWhile_cons_of_neg]
      simp only [Bool.or_eq_true, beq_iff_eq]
      rintro (((rfl | rfl) | rfl) | rfl) <;> simp [Char.isDigit] at hdigit
  rw [scanValue?, hblank]
  split
  case h_7 => rw [number?_toString_append n hrest]; rfl
  all_goals
    next h => simpa [Char.isDigit] using isDigit_of_toString_append_eq_cons h

end Steps

/-! ### Whole values -/

theorem ends_newline (rest : List Char) : Ends ('\n' :: rest) := by
  rintro c ⟨⟩
  decide

theorem ends_comma (rest : List Char) : Ends (',' :: rest) := by
  rintro c ⟨⟩
  decide

/-- Behind the last entry the closing bracket stands on a line of its own. -/
theorem skipBlanks_closing (level : Nat) (bracket : Char) (rest : List Char)
    (h : skipBlanks (bracket :: rest) = bracket :: rest) :
    skipBlanks ('\n' :: ((indent level).toList ++ bracket :: rest)) = bracket :: rest := by
  rw [skipBlanks_newline, skipBlanks_indent_append, h]

/-- A line of members is a key, a colon and a value. -/
theorem toList_member_append (key value : String) (rest : List Char) :
    (quote key ++ ": " ++ value).toList ++ rest =
      (quote key).toList ++ ':' :: ' ' :: (value.toList ++ rest) := by
  simp

theorem skipBlanks_quote_append (s : String) (rest : List Char) :
    skipBlanks ((quote s).toList ++ rest) = (quote s).toList ++ rest := by
  rw [quote, String.toList_ofList]
  rfl

/-- What stands between two brackets begins behind the first one. -/
theorem enclosed_append (opening closing : Char) (level : Nat) (lines rest : List Char)
    (h : ∀ cs, skipBlanks (opening :: cs) = opening :: cs) :
    skipBlanks
        ([opening] ++ '\n' :: (lines ++ '\n' :: ((indent level).toList ++ [closing])) ++ rest) =
      opening :: '\n' :: (lines ++ '\n' :: ((indent level).toList ++ closing :: rest)) := by
  simp [h]

mutual
/-- Reading a printed value gives it back, whatever ends numbers behind it. -/
theorem scanValue?_prettyAt : ∀ (j : Json) {level depth : Nat} {rest : List Char}, j.Counts →
    Ends rest → (prettyAt level j).toList.length ≤ depth →
      Written.scanValue? (depth + 1) ((prettyAt level j).toList ++ rest) = some (j.written, rest)
  | .null, level, depth, rest => by
    intros
    rw [prettyAt, written]
    rfl
  | .bool value, level, depth, rest => by
    intros
    rw [prettyAt, written]
    cases value <;> rfl
  | .number text, level, depth, rest => by
    rintro ⟨n, rfl⟩ hrest _
    rw [prettyAt, written]
    exact scanValue?_number n hrest
  | .string value, level, depth, rest => by
    intros
    rw [prettyAt, written]
    exact scanValue?_quote value rest
  | .array [], level, depth, rest => by
    intros
    rw [prettyAt, written, prettyItems, writtenItems, enclose_nil]
    rfl
  | .array (item :: items), level, depth, rest => by
    intro hcounts _ hdepth
    rw [prettyAt, toList_enclose _ _ _ (by simp [prettyItems])] at hdepth ⊢
    simp only [List.length_append, List.length_cons] at hdepth
    obtain ⟨depth, rfl⟩ := Nat.exists_eq_add_one_of_ne_zero (Nat.ne_zero_of_lt hdepth)
    refine scanValue?_array (enclosed_append '[' ']' level _ rest fun _ => rfl) ?_
    rw [Written.scanItems?_congr (depth + 1) (skipBlanks_newline _)]
    exact scanItems?_entries item items hcounts (by simp at hdepth; omega)
  | .object [], level, depth, rest => by
    intros
    rw [prettyAt, written, prettyMembers, writtenMembers, enclose_nil]
    rfl
  | .object ((key, value) :: members), level, depth, rest => by
    intro hcounts _ hdepth
    rw [prettyAt, toList_enclose _ _ _ (by simp [prettyMembers])] at hdepth ⊢
    simp only [List.length_append, List.length_cons] at hdepth
    obtain ⟨depth, rfl⟩ := Nat.exists_eq_add_one_of_ne_zero (Nat.ne_zero_of_lt hdepth)
    refine scanValue?_object (enclosed_append '\x7b' '\x7d' level _ rest fun _ => rfl) ?_
    rw [Written.scanMembers?_congr (depth + 1) (skipBlanks_newline _)]
    exact scanMembers?_entries key value members hcounts (by simp at hdepth; omega)
termination_by j => sizeOf j

theorem scanItems?_entries : ∀ (item : Json) (items : List Json) {level outer depth : Nat}
    {rest : List Char}, CountsItems (item :: items) →
      (entries level (prettyItems level (item :: items))).length < depth →
      Written.scanItems? (depth + 1) (entries level (prettyItems level (item :: items)) ++
        '\n' :: ((indent outer).toList ++ ']' :: rest)) =
          some (writtenItems (item :: items), rest)
  | item, [], level, outer, depth, rest => by
    intro hcounts hdepth
    obtain ⟨depth, rfl⟩ := Nat.exists_eq_add_one_of_ne_zero (Nat.ne_zero_of_lt hdepth)
    rw [prettyItems, prettyItems, entries_singleton] at hdepth ⊢
    rw [List.length_append] at hdepth
    rw [List.append_assoc]
    refine scanItems?_last ?_ (skipBlanks_closing outer ']' rest rfl)
    rw [Written.scanValue?_congr (depth + 1) (skipBlanks_indent_append level _)]
    exact scanValue?_prettyAt item hcounts.1 (ends_newline _) (by omega)
  | item, next :: items, level, outer, depth, rest => by
    intro hcounts hdepth
    obtain ⟨depth, rfl⟩ := Nat.exists_eq_add_one_of_ne_zero (Nat.ne_zero_of_lt hdepth)
    rw [prettyItems, prettyItems, entries_cons_cons] at hdepth ⊢
    simp only [List.length_append, List.length_cons] at hdepth
    rw [List.append_assoc, List.append_assoc, List.cons_append, List.cons_append, writtenItems]
    refine scanItems?_more
      ((Written.scanValue?_congr (depth + 1) (skipBlanks_indent_append level _)).trans
        (scanValue?_prettyAt item hcounts.1 (ends_comma _) (by omega))) (skipBlanks_comma _) ?_
    rw [Written.scanItems?_congr (depth + 1) (skipBlanks_newline _)]
    exact scanItems?_entries next items hcounts.2 (by rw [prettyItems]; omega)
termination_by item items => sizeOf item + sizeOf items

theorem scanMembers?_entries : ∀ (key : String) (value : Json) (members : List (String × Json))
    {level outer depth : Nat} {rest : List Char}, CountsMembers ((key, value) :: members) →
      (entries level (prettyMembers level ((key, value) :: members))).length < depth →
      Written.scanMembers? (depth + 1)
        (entries level (prettyMembers level ((key, value) :: members)) ++
          '\n' :: ((indent outer).toList ++ '\x7d' :: rest)) =
            some (writtenMembers ((key, value) :: members), rest)
  | key, value, [], level, outer, depth, rest => by
    intro hcounts hdepth
    obtain ⟨depth, rfl⟩ := Nat.exists_eq_add_one_of_ne_zero (Nat.ne_zero_of_lt hdepth)
    rw [prettyMembers, prettyMembers, entries_singleton] at hdepth ⊢
    simp only [List.length_append, String.toList_append] at hdepth
    rw [List.append_assoc, toList_member_append]
    refine scanMembers?_last
      ((skipBlanks_indent_append level _).trans (skipBlanks_quote_append key _)) ?_
      (skipBlanks_closing outer '\x7d' rest rfl)
    rw [Written.scanValue?_congr (depth + 1) (skipBlanks_blank _)]
    exact scanValue?_prettyAt value hcounts.1 (ends_newline _) (by omega)
  | key, value, (nextKey, next) :: members, level, outer, depth, rest => by
    intro hcounts hdepth
    obtain ⟨depth, rfl⟩ := Nat.exists_eq_add_one_of_ne_zero (Nat.ne_zero_of_lt hdepth)
    rw [prettyMembers, prettyMembers, entries_cons_cons] at hdepth ⊢
    simp only [List.length_append, List.length_cons, String.toList_append] at hdepth
    rw [List.append_assoc, List.append_assoc, List.cons_append, List.cons_append,
      toList_member_append, writtenMembers]
    refine scanMembers?_more
      ((skipBlanks_indent_append level _).trans (skipBlanks_quote_append key _))
      ((Written.scanValue?_congr (depth + 1) (skipBlanks_blank _)).trans
        (scanValue?_prettyAt value hcounts.1 (ends_comma _) (by omega))) (skipBlanks_comma _) ?_
    rw [Written.scanMembers?_congr (depth + 1) (skipBlanks_newline _)]
    exact scanMembers?_entries nextKey next members hcounts.2 (by rw [prettyMembers]; omega)
termination_by _ value members => sizeOf value + sizeOf members
end

/-- A text of one value in front of a line break writes that value. -/
theorem parse?_pretty {j : Json} (h : j.Counts) :
    Written.parse? (j.pretty ++ "\n") = some j.written := by
  have hscan : Written.scanValue? ((j.pretty ++ "\n").length + 1) (j.pretty ++ "\n").toList =
      some (j.written, ['\n']) := by
    rw [String.toList_append]
    refine scanValue?_prettyAt j h (ends_newline []) ?_
    rw [String.length_append, String.length_toList, ← pretty]
    omega
  rw [Written.parse?, hscan]
  rfl

end Json

end CallAtlas
