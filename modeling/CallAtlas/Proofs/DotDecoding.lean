import CallAtlas.Proofs.CallGraph
import CallAtlas.Proofs.Names
import CallAtlas.Proofs.Reading
import CallAtlas.Report.Dot

/-!
# Decoding DOT text

Names, files and labels are arbitrary text, so each of them may hold the very characters that hold a
line together: quotes, arrows, brackets, line breaks. Nothing of that is lost. A field ends at the
first quote without a backslash in front, and what stands before it tells the text. In a label only
the last two colons count, since a number holds none.

The decoder takes a text apart into lines, a line into three fields and a label into a file, a line
and a column. Each of these is the inverse of the step by which a graph is written.

## Main definitions

* `Dot.field?`, `Dot.location?`, `Dot.edge?` — reading a field, a label and a line.
* `Dot.decode` — the edges that a text lists.
* `Dot.replaceChar` — replaces one character all over a text.

## Main results

* `Dot.escape_eq_replaceChar` — fields are escaped by four replacements, backslashes first.
* `Dot.splitOn_render` — the lines of a graph.
* `Dot.decode_render` — the edges of a graph are read back.
-/

namespace CallAtlas

namespace Dot

/-! ### Fields -/

/-- The character that a backslash and this character stand for. -/
def unescape? (c : Char) : Option Char :=
  if c = '\\' ∨ c = '"' then some c
  else if c = 'n' then some '\n'
  else if c = 'r' then some '\r'
  else none

/-- The text of a field behind its opening quote, and what follows its closing quote. -/
def field? : List Char → Option (List Char × List Char)
  | [] => none
  | '"' :: rest => some ([], rest)
  | '\\' :: c :: rest => do
    let c ← unescape? c
    let (text, rest) ← field? rest
    return (c :: text, rest)
  | c :: rest => do
    let (text, rest) ← field? rest
    return (c :: text, rest)

/-- A character is written as it is, or as a backslash and a character that stands for it. -/
theorem escapeChar_cases (c : Char) :
    escapeChar c = [c] ∧ c ≠ '"' ∧ c ≠ '\\' ∧ c ≠ '\n' ∨
      ∃ e, escapeChar c = ['\\', e] ∧ unescape? e = some c ∧ e ≠ '\n' := by
  unfold escapeChar
  split
  · next h => exact Or.inr ⟨'\\', rfl, by rw [h]; rfl, by decide⟩
  split
  · next h => exact Or.inr ⟨'"', rfl, by rw [h]; rfl, by decide⟩
  split
  · next h => exact Or.inr ⟨'n', rfl, h ▸ rfl, by decide⟩
  split
  · next h => exact Or.inr ⟨'r', rfl, h ▸ rfl, by decide⟩
  · next hbackslash hquote hnewline _ => exact Or.inl ⟨rfl, hquote, hbackslash, hnewline⟩

/-- One character of a field is read back. -/
theorem field?_escapeChar_append (c : Char) (rest : List Char) :
    field? (escapeChar c ++ rest) = (field? rest).map fun (text, rest) => (c :: text, rest) := by
  rcases escapeChar_cases c with ⟨hplain, hquote, hbackslash, -⟩ | ⟨e, hescaped, he, -⟩
  · rw [hplain, List.singleton_append, field?.eq_4 _ _ hquote fun _ _ h _ => hbackslash h]
    cases field? rest <;> rfl
  · rw [hescaped, List.cons_append, List.singleton_append, field?, he]
    cases field? rest <;> rfl

/-- A field is read back. -/
theorem field?_escape_append (text rest : List Char) :
    field? (text.flatMap escapeChar ++ '"' :: rest) = some (text, rest) := by
  induction text with
  | nil => rfl
  | cons c text ih =>
    rw [List.flatMap_cons, List.append_assoc, field?_escapeChar_append, ih]
    rfl

theorem toList_quote (s : String) :
    (quote s).toList = '"' :: (s.toList.flatMap escapeChar ++ ['"']) := by
  rw [quote, String.toList_ofList]

/-- No field holds a line break. -/
theorem newline_not_mem_quote (s : String) : '\n' ∉ (quote s).toList := by
  have hchar : ∀ c : Char, '\n' ∉ escapeChar c := by
    intro c
    rcases escapeChar_cases c with ⟨hplain, -, -, hc⟩ | ⟨e, hescaped, -, he⟩
    · simpa [hplain] using Ne.symm hc
    · simpa [hescaped] using Ne.symm he
  rw [toList_quote]
  simpa using fun c _ => hchar c

/-- A text with every occurrence of a character replaced. -/
def replaceChar (c : Char) (replacement text : List Char) : List Char :=
  text.flatMap fun d => if d = c then replacement else [d]

/-- **Escaping** a field replaces backslashes, then quotes, then line breaks, then carriage returns.
Were backslashes to come later, those that stand for other characters would be doubled. -/
theorem escape_eq_replaceChar (text : List Char) :
    text.flatMap escapeChar =
      replaceChar '\r' ['\\', 'r'] (replaceChar '\n' ['\\', 'n']
        (replaceChar '"' ['\\', '"'] (replaceChar '\\' ['\\', '\\'] text))) := by
  induction text with
  | nil => rfl
  | cons c text ih =>
    simp only [replaceChar, List.flatMap_cons, List.flatMap_append] at ih ⊢
    rw [ih]
    congr 1
    unfold escapeChar
    repeat' split
    all_goals simp_all

/-! ### Labels -/

/-- The location that a label gives. The file may hold colons of its own. -/
def location? (label : List Char) : Option Location := do
  let (label, column) ← splitAtLast ':' label
  let (file, line) ← splitAtLast ':' label
  return ⟨String.ofList file, ← decimal? line, ← decimal? column⟩

theorem colon_not_mem_toString (n : Nat) : ':' ∉ (toString n).toList := by
  intro h
  have hdigit : ':'.isDigit = true := isDigit_of_mem_toString h
  simp [Char.isDigit] at hdigit

/-- A label is read back. -/
theorem location?_render (l : Location) : location? l.render.toList = some l := by
  have hlabel : l.render.toList =
      (l.file.toList ++ ':' :: (toString l.line).toList) ++ ':' :: (toString l.column).toList := by
    simp [Location.render]
  rw [location?, hlabel, splitAtLast_append (colon_not_mem_toString l.column)]
  dsimp only [Option.bind_eq_bind, Option.bind_some]
  rw [splitAtLast_append (colon_not_mem_toString l.line)]
  dsimp only [Option.bind_some]
  rw [decimal?_toString, decimal?_toString, String.ofList_toList]
  rfl

/-! ### Lines -/

/-- A field in quotes behind a word, and what follows it. -/
def fieldBehind? (word : String) (cs : List Char) : Option (List Char × List Char) := do
  let rest ← Json.behind? word cs
  let rest ← Json.behind? "\"" rest
  field? rest

theorem fieldBehind?_append (word s : String) (rest : List Char) :
    fieldBehind? word (word.toList ++ ((quote s).toList ++ rest)) = some (s.toList, rest) := by
  have hopening : (quote s).toList ++ rest =
      "\"".toList ++ (s.toList.flatMap escapeChar ++ '"' :: rest) := by
    simp [toList_quote]
  rw [fieldBehind?, Json.behind?_append]
  dsimp only [Option.bind_eq_bind, Option.bind_some]
  rw [hopening, Json.behind?_append]
  exact field?_escape_append s.toList rest

/-- The edge of a line. -/
def edge? (line : List Char) : Option (String × CallSite) := do
  let (caller, rest) ← fieldBehind? "    " line
  let (callee, rest) ← fieldBehind? " -> " rest
  let (label, rest) ← fieldBehind? " [label=" rest
  let location ← location? label
  if rest = "];".toList then return (String.ofList caller, ⟨String.ofList callee, location⟩)
  else none

/-- A line is read back. -/
theorem edge?_edgeLine (caller : String) (call : CallSite) :
    edge? (edgeLine caller call).toList = some (caller, call) := by
  have hline : (edgeLine caller call).toList =
      "    ".toList ++ ((quote caller).toList ++ (" -> ".toList ++ ((quote call.callee).toList ++
        (" [label=".toList ++ ((quote call.location.render).toList ++ "];".toList))))) := by
    simp only [edgeLine, String.toList_append, List.append_assoc]
  rw [edge?, hline, fieldBehind?_append]
  dsimp only [Option.bind_eq_bind, Option.bind_some]
  rw [fieldBehind?_append]
  dsimp only [Option.bind_some]
  rw [fieldBehind?_append]
  dsimp only [Option.bind_some]
  rw [location?_render]
  dsimp only [Option.bind_some]
  rw [if_pos rfl, String.ofList_toList, String.ofList_toList]
  rfl

theorem newline_not_mem_edgeLine (caller : String) (call : CallSite) :
    '\n' ∉ (edgeLine caller call).toList := by
  have hfield := newline_not_mem_quote
  simp [edgeLine, hfield]

/-! ### Graphs -/

/-- The edges of some lines, up to the closing one, behind which there is nothing. -/
def edges? : List (List Char) → Option (List (String × CallSite))
  | [] => none
  | [closing, []] => if closing = "\x7d".toList then some [] else none
  | line :: rest => do
    let edge ← edge? line
    let edges ← edges? rest
    return edge :: edges

/-- The edges that a text lists. -/
def decode (text : String) : Option (List (String × CallSite)) :=
  match text.toList.splitOn '\n' with
  | opening :: rest => if opening = "digraph G \x7b".toList then edges? rest else none
  | [] => none

/-- The lines between the first and the last one. -/
def edgeLines (g : CallGraph) : List (List Char) :=
  g.edges.map fun e => (edgeLine e.1 e.2).toList

theorem edges?_edgeLines (edges : List (String × CallSite)) :
    edges? (edges.map (fun e => (edgeLine e.1 e.2).toList) ++ ["\x7d".toList, []]) = some edges := by
  induction edges with
  | nil => rfl
  | cons e edges ih =>
    have hmore : edges.map (fun e => (edgeLine e.1 e.2).toList) ++ ["\x7d".toList, []] ≠ [[]] :=
      fun h => by simpa using congrArg List.length h
    rw [List.map_cons, List.cons_append, edges?.eq_3 _ _ hmore, edge?_edgeLine, ih]
    rfl

/-- A line break behind joined lines is one more line, which is empty. -/
theorem intercalate_append_newline {lines : List (List Char)} (h : lines ≠ []) :
    ['\n'].intercalate lines ++ ['\n'] = ['\n'].intercalate (lines ++ [[]]) := by
  induction lines with
  | nil => exact absurd rfl h
  | cons line rest ih =>
    cases rest with
    | nil => simp [List.intercalate]
    | cons next rest =>
      have hrest := ih (by simp)
      rw [List.cons_append, List.cons_append]
      rw [List.cons_append] at hrest
      rw [List.intercalate_cons_cons, List.intercalate_cons_cons, List.append_assoc, hrest]

/-- **The lines of a graph.** The text of a graph is its lines, each ended by a line break, and no
line holds another one. -/
theorem splitOn_render (g : CallGraph) :
    (render g).toList.splitOn '\n' =
      "digraph G \x7b".toList :: (edgeLines g ++ ["\x7d".toList, []]) := by
  have hlines : (lines g).map String.toList =
      "digraph G \x7b".toList :: (edgeLines g ++ ["\x7d".toList]) := by
    simp [lines, edgeLines]
  have hrender : (render g).toList = ['\n'].intercalate ((lines g).map String.toList ++ [[]]) := by
    rw [← intercalate_append_newline (by simp [lines]), render, String.toList_append,
      String.toList_intercalate]
    rfl
  have hbreaks : ∀ line ∈ (lines g).map String.toList ++ [[]], '\n' ∉ line := by
    have hedges : ∀ line ∈ edgeLines g, '\n' ∉ line := by
      intro line hline
      obtain ⟨e, -, rfl⟩ := List.mem_map.mp hline
      exact newline_not_mem_edgeLine e.1 e.2
    rw [hlines]
    simpa [or_imp, forall_and] using hedges
  rw [hrender, List.splitOn_intercalate '\n' hbreaks (by simp), hlines]
  simp

/-- The text of a graph tells its edges. -/
theorem decode_render_eq (g : CallGraph) : decode (render g) = some g.edges := by
  rw [decode, splitOn_render]
  exact (if_pos rfl).trans (edges?_edgeLines g.edges)

/-- **Decoding.** The edges of a graph are read back from its text, whatever characters there are in
its names and files. Between its first and its last line the text has one line for each edge, with
three fields in quotes; a line break ends the last line, and there are no others. In a field
backslashes are doubled before anything else is replaced. So two graphs have the same text just if
they have the same edges. -/
theorem decode_render (g : CallGraph) :
    decode (render g) = some g.edges ∧
    (∃ middle : List (List Char),
      (render g).toList.splitOn '\n' =
        "digraph G \x7b".toList :: (middle ++ ["\x7d".toList, []]) ∧
      middle.length = g.edgeCount ∧
      middle = g.edges.map fun e =>
        ("    " ++ quote e.1 ++ " -> " ++ quote e.2.callee ++ " [label="
          ++ quote (e.2.location.file ++ ":" ++ toString e.2.location.line ++ ":"
            ++ toString e.2.location.column) ++ "];").toList) ∧
    (∀ s : String, (quote s).toList = '"' :: (replaceChar '\r' ['\\', 'r']
      (replaceChar '\n' ['\\', 'n'] (replaceChar '"' ['\\', '"']
        (replaceChar '\\' ['\\', '\\'] s.toList))) ++ ['"'])) ∧
    ∀ h : CallGraph, render h = render g ↔ h.edges = g.edges := by
  refine ⟨decode_render_eq g, ⟨edgeLines g, splitOn_render g, ?_, rfl⟩, fun s => ?_, fun h => ?_⟩
  · rw [edgeLines, List.length_map, CallGraph.edgeCount_eq_length]
  · rw [toList_quote, escape_eq_replaceChar]
  · constructor
    · intro htext
      have hedges : some h.edges = some g.edges := by
        rw [← decode_render_eq h, htext, decode_render_eq g]
      exact Option.some.inj hedges
    · intro hedges
      rw [render, render, lines, lines, hedges]

end Dot

end CallAtlas
