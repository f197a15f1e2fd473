import DocQuery.Pattern.Parser
import DocQuery.Proofs.Filter.Grammar
import DocQuery.Proofs.Scalar.Quotes
import Mathlib.Data.List.Forall2
/-!
# Strings as literals

Every string has literals.  Between double quotes its double quotes and backslashes stand behind a backslash, and its
newlines, tabs and carriage returns may be escaped, each as one likes; between single quotes its quotes are doubled.  From
each of them the string is read again, by itself and as the literal of a filter, whatever the string looks like
(`Filter.string_literals`).
-/
namespace DocQuery

namespace Quoted

/-- **How a character is written between double quotes.**  A newline, a tab and a carriage return have two forms. -/
inductive EscapedChar : Char → List Char → Prop
  | plain {c : Char} (hquote : c ≠ '"') (hescape : c ≠ '\\') : EscapedChar c [c]
  | quote : EscapedChar '"' ['\\', '"']
  | backslash : EscapedChar '\\' ['\\', '\\']
  | newline : EscapedChar '\n' ['\\', 'n']
  | tab : EscapedChar '\t' ['\\', 't']
  | carriageReturn : EscapedChar '\r' ['\\', 'r']

/-- **The literals of a string.** -/
inductive Literal (s : List Char) : List Char → Prop
  | double {parts : List (List Char)} (h : List.Forall₂ EscapedChar s parts) :
    Literal s ('"' :: parts.flatten ++ ['"'])
  | single : Literal s ('\'' :: doubled s ++ ['\''])

def escaped (c : Char) : List Char :=
  if c = '"' ∨ c = '\\' then ['\\', c] else [c]

variable {s t : List Char} {parts : List (List Char)}

theorem escapedChar_escaped (c : Char) : EscapedChar c (escaped c) := by
  by_cases hquote : c = '"'
  · subst hquote
    exact .quote
  by_cases hescape : c = '\\'
  · subst hescape
    exact .backslash
  · rw [escaped, if_neg (not_or.2 ⟨hquote, hescape⟩)]
    exact .plain hquote hescape

/-- **Every string has a literal between double quotes** that escapes nothing else than it must. -/
theorem literal_escaped (s : List Char) : Literal s ('"' :: s.flatMap escaped ++ ['"']) := by
  have hparts : List.Forall₂ EscapedChar s (s.map escaped) := by
    rw [List.forall₂_map_right_iff, List.forall₂_same]
    exact fun c _ => escapedChar_escaped c
  rw [List.flatMap_def]
  exact .double hparts

theorem between_flatten (h : List.Forall₂ EscapedChar s parts) : Between s parts.flatten := by
  induction h with
  | nil => exact .nil
  | cons hc _ ih =>
    cases hc with
    | plain hquote hescape => exact .plain hquote hescape ih
    | quote => exact .escape '"' ih
    | backslash => exact .escape '\\' ih
    | newline => exact .escape 'n' ih
    | tab => exact .escape 't' ih
    | carriageReturn => exact .escape 'r' ih

theorem Literal.standsFor (h : Literal s t) : StandsFor s t := by
  cases h with
  | double h => exact .double (between_flatten h)
  | single => exact .single s

end Quoted

namespace Filter

/-- **A name that can be the field of a filter.** -/
structure FieldName (cs : List Char) : Prop where
  ne_nil : cs ≠ []
  plain : ∀ c ∈ cs, isOperatorChar c = false ∧ Text.isBlank c = false ∧ c ≠ '.'

/-- **A filter with a quoted text behind its operator** has the string of that text as its literal. -/
theorem parse_quoted [Pattern.Engine] {name text : String} {s : List Char} (op : Operator) (hname : FieldName name.toList)
    (htext : Quoted.unquote? text.toList = some s) :
    parse (name ++ " " ++ op.symbol ++ " " ++ text) = Predicate.ofScalar name op (.string (String.ofList s)) := by
  have htrimmed := (Quoted.exists_unquote?_iff.1 ⟨s, htext⟩).trimmed
  have hparts : name ++ " " ++ op.symbol ++ " " ++ text =
      String.ofList (name.toList ++ ([' '] ++ (op.symbol.toList ++ ' ' :: text.toList))) := by
    rw [← String.toList_inj]
    simp [String.toList_append]
  have hfield : ∀ c ∈ name.toList, isOperatorChar c = false ∧ Text.isBlank c = false := fun c hc =>
    ⟨(hname.plain c hc).1, (hname.plain c hc).2.1⟩
  have hdot : '.' ∉ name.toList := fun hc => (hname.plain _ hc).2.2 rfl
  have hvalue : ∃ c ∈ ' ' :: text.toList, Text.isBlank c = false := by
    obtain ⟨c, hc, hblank⟩ := htrimmed.head
    exact ⟨c, List.mem_cons_of_mem _ (List.mem_of_mem_head? hc), hblank⟩
  rw [hparts, parse_parts op hname.ne_nil hfield hdot (by simp [Text.isBlank]) (by simp [isOperatorChar]) hvalue,
    String.ofList_toList, Text.trim_cons_blank rfl, htrimmed.trim_eq, (Quoted.read_of_unquote? htext).2.1]

/-- **Every string can be written as a literal.**  The literals of a string lose their quotes for it and are typed as it,
and behind an operator they are the literal of the filter; only a search can refuse them, if the string is no pattern. -/
theorem string_literals [Pattern.Engine] (s : String) :
    Quoted.Literal s.toList ('"' :: s.toList.flatMap Quoted.escaped ++ ['"']) ∧
    Quoted.Literal s.toList ('\'' :: Quoted.doubled s.toList ++ ['\'']) ∧
    ∀ t : String, Quoted.Literal s.toList t.toList →
      Quoted.unquote? t.toList = some s.toList ∧ Scalar.ofText t.toList = .string s ∧
      ∀ (name : String) (op : Operator), FieldName name.toList →
        parse (name ++ " " ++ op.symbol ++ " " ++ t) = Predicate.ofScalar name op (.string s) ∧
        (op ≠ .search → ∃ p, parse (name ++ " " ++ op.symbol ++ " " ++ t) = .ok p ∧
          p.field = name ∧ p.operator = op ∧ p.literal = .string s) := by
  refine ⟨Quoted.literal_escaped s.toList, .single, fun t ht => ?_⟩
  have hquotes := Quoted.unquote?_of_standsFor ht.standsFor
  obtain ⟨htyped, -, -⟩ := Quoted.read_of_unquote? hquotes
  rw [String.ofList_toList] at htyped
  refine ⟨hquotes, htyped, fun name op hname => ?_⟩
  have hparse := parse_quoted op hname hquotes
  rw [String.ofList_toList] at hparse
  refine ⟨hparse, fun hop => ?_⟩
  obtain ⟨p, hp⟩ := Predicate.exists_ofScalar (x := .string s) hop name
  exact ⟨p, hparse.trans hp, Predicate.ofScalar_eq_ok hp⟩

/-- A string with quotes, backslashes, a newline and an operator, which ends with a blank, under a name with a quote. -/
theorem string_literals_mixed :
    Quoted.unquote? "\" >= \\\"'\\\\\\n\n \"".toList = some " >= \"'\\\n\n ".toList ∧
    Scalar.ofText "' >= \"''\\\n\n '".toList = .string " >= \"'\\\n\n " ∧
    ∃ p, parse "'k != \" >= \\\"'\\\\\\n\n \"" = .ok p ∧ p.literal = .string " >= \"'\\\n\n " := by
  obtain ⟨-, hsingle, hliteral⟩ := string_literals " >= \"'\\\n\n "
  have hdouble : Quoted.Literal " >= \"'\\\n\n ".toList "\" >= \\\"'\\\\\\n\n \"".toList := by
    have hparts : List.Forall₂ Quoted.EscapedChar " >= \"'\\\n\n ".toList
        [[' '], ['>'], ['='], [' '], ['\\', '"'], ['\''], ['\\', '\\'], ['\\', 'n'], ['\n'], [' ']] := by
      have hplain : ∀ c : Char, c ≠ '"' → c ≠ '\\' → Quoted.EscapedChar c [c] := fun c => .plain
      refine .cons (hplain _ ?_ ?_) <| .cons (hplain _ ?_ ?_) <| .cons (hplain _ ?_ ?_) <| .cons (hplain _ ?_ ?_) <|
        .cons .quote <| .cons (hplain _ ?_ ?_) <| .cons .backslash <| .cons .newline <| .cons (hplain _ ?_ ?_) <|
        .cons (hplain _ ?_ ?_) .nil
      all_goals decide
    exact .double hparts
  obtain ⟨hquotes, -, hfilters⟩ := hliteral _ hdouble
  obtain ⟨-, htyped, -⟩ := hliteral "' >= \"''\\\n\n '" hsingle
  have hname : FieldName "'k".toList := by
    refine ⟨by decide, fun c hc => ?_⟩
    have hmem : c = '\'' ∨ c = 'k' := by simpa using hc
    rcases hmem with rfl | rfl
    · decide
    · decide
  obtain ⟨-, hok⟩ := hfilters "'k" .notEqual hname
  obtain ⟨p, hp, -, -, hliteral⟩ := hok (by decide)
  exact ⟨hquotes, htyped, p, hp, hliteral⟩

end Filter
end DocQuery
