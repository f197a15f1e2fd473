import DocQuery.Filter.Parser
import DocQuery.Proofs.Text.Trimming
/-!
# The grammar of filters

A filter is written as a field, an operator and a value, with blanks before, between and behind them (`Written`).  Each
part ends where a character stands that it cannot hold, so there is one way to take a written filter apart
(`Written.text_injective`), and the reader takes it (`parse_text`).  A text that is no written filter has a fault
(`exists_written`).
-/
namespace DocQuery

theorem Operator.symbol_injective {op op' : Operator} (h : op.symbol = op'.symbol) : op = op' := by
  cases op <;> cases op' <;> first | rfl | exact absurd h (by decide)

theorem Operator.ofSymbol?_symbol (op : Operator) : ofSymbol? op.symbol = some op := by
  cases op <;> rfl

theorem Operator.symbol_of_ofSymbol? {op : Operator} {symbol : String} (h : ofSymbol? symbol = some op) :
    op.symbol = symbol := by
  simpa using List.find?_some h

namespace Predicate

variable [Pattern.Engine] {name : String} {op : Operator} {x : Scalar}

theorem ofScalar_ne_malformed (fault : Filter.Fault) : ofScalar name op x ≠ .error (.malformed fault) := by
  cases op with
  | search =>
    unfold ofScalar
    dsimp only
    split <;> nofun
  | _ => nofun

theorem ofScalar_eq_invalidPattern_iff {pattern : String} : ofScalar name op x = .error (.invalidPattern pattern) ↔
    op = .search ∧ pattern = x.plainText ∧ Pattern.compile? false pattern = none := by
  cases op with
  | search =>
    unfold ofScalar
    dsimp only
    split
    · rename_i compiled hc
      refine iff_of_false nofun ?_
      rintro ⟨-, rfl, hnone⟩
      rw [hc] at hnone
      cases hnone
    · rename_i hnone
      constructor
      · rintro ⟨⟩
        exact ⟨rfl, rfl, hnone⟩
      · rintro ⟨-, rfl, -⟩
        rfl
  | _ => exact iff_of_false nofun nofun

theorem exists_ofScalar (hop : op ≠ .search) (name : String) : ∃ p, ofScalar name op x = .ok p := by
  cases op with
  | search => exact absurd rfl hop
  | _ => exact ⟨_, rfl⟩

theorem ofScalar_eq_ok {p : Predicate} (h : ofScalar name op x = .ok p) :
    p.field = name ∧ p.operator = op ∧ p.literal = x := by
  cases op with
  | search =>
    unfold ofScalar at h
    dsimp only at h
    split at h <;> cases h
    exact ⟨rfl, rfl, rfl⟩
  | _ => cases h; exact ⟨rfl, rfl, rfl⟩

end Predicate

namespace Filter

open Text (scan_append scan_unique)

/-! ## Scanning -/

section Scanning

variable {field blanks symbol rest : List Char}

theorem isBlank_of_isOperatorChar {c : Char} (h : isOperatorChar c = true) : Text.isBlank c = false := by
  simp only [isOperatorChar, Bool.or_eq_true, beq_iff_eq] at h
  rcases h with (((rfl | rfl) | rfl) | rfl) | rfl <;> rfl

theorem isOperatorChar_of_isBlank {c : Char} (h : Text.isBlank c = true) : isOperatorChar c = false := by
  by_cases hc : isOperatorChar c = true
  · rw [isBlank_of_isOperatorChar hc] at h
    cases h
  · simpa using hc

theorem isOperatorChar_of_mem_symbol (op : Operator) : ∀ c ∈ op.symbol.toList, isOperatorChar c = true := by
  cases op <;> simp [Operator.symbol, isOperatorChar]

theorem symbol_ne_nil (op : Operator) : op.symbol.toList ≠ [] := by
  cases op <;> decide

theorem ends_field (hblanks : ∀ c ∈ blanks, Text.isBlank c = true) (hne : symbol ≠ [])
    (hsymbol : ∀ c ∈ symbol, isOperatorChar c = true) :
    ∀ c ∈ (blanks ++ (symbol ++ rest)).head?, (!(isOperatorChar c || Text.isBlank c)) = false := by
  obtain ⟨d, ds, rfl⟩ := List.exists_cons_of_ne_nil hne
  intro c hc
  cases blanks with
  | nil =>
    cases hc
    simp [hsymbol d List.mem_cons_self]
  | cons b blanks =>
    cases hc
    simp [hblanks]

theorem ends_blanks (hne : symbol ≠ []) (hsymbol : ∀ c ∈ symbol, isOperatorChar c = true) :
    ∀ c ∈ (symbol ++ rest).head?, Text.isBlank c = false := by
  obtain ⟨d, ds, rfl⟩ := List.exists_cons_of_ne_nil hne
  rintro c ⟨⟩
  exact isBlank_of_isOperatorChar (hsymbol d List.mem_cons_self)

theorem split_parts (hfield : ∀ c ∈ field, isOperatorChar c = false ∧ Text.isBlank c = false)
    (hblanks : ∀ c ∈ blanks, Text.isBlank c = true) (hne : symbol ≠ [])
    (hsymbol : ∀ c ∈ symbol, isOperatorChar c = true) (hrest : ∀ c ∈ rest.head?, isOperatorChar c = false) :
    split (field ++ (blanks ++ (symbol ++ rest))) = (field, symbol, Text.trim rest) := by
  have hinside : ∀ c ∈ field, (!(isOperatorChar c || Text.isBlank c)) = true := fun c hc => by simp [hfield c hc]
  obtain ⟨htake, hdrop⟩ := scan_append hinside (ends_field hblanks hne hsymbol)
  obtain ⟨-, hblank⟩ := scan_append hblanks (@ends_blanks symbol rest hne hsymbol)
  obtain ⟨hop, hvalue⟩ := scan_append hsymbol hrest
  rw [split]
  dsimp only
  rw [htake, hdrop, Text.trimStart, hblank, hop, hvalue]

theorem parse_parts [Pattern.Engine] (op : Operator) (hne : field ≠ [])
    (hfield : ∀ c ∈ field, isOperatorChar c = false ∧ Text.isBlank c = false) (hdot : '.' ∉ field)
    (hblanks : ∀ c ∈ blanks, Text.isBlank c = true) (hrest : ∀ c ∈ rest.head?, isOperatorChar c = false)
    (hvalue : ∃ c ∈ rest, Text.isBlank c = false) :
    parse (String.ofList (field ++ (blanks ++ (op.symbol.toList ++ rest)))) =
      Predicate.ofScalar (String.ofList field) op (literal op (Text.trim rest)) := by
  have hsymbol := symbol_ne_nil op
  have htrimmed : Text.Trimmed field := .of_all hne fun c hc => (hfield c hc).2
  have htrim : Text.trim (field ++ (blanks ++ (op.symbol.toList ++ rest))) =
      field ++ (blanks ++ (op.symbol.toList ++ Text.trimEnd rest)) := by
    have hend := Text.trimEnd_append_of_ne_nil (Text.trimEnd_ne_nil hvalue) (field ++ (blanks ++ op.symbol.toList))
    rw [Text.trim, htrimmed.trimStart_append]
    simpa only [List.append_assoc] using hend
  have hhead : ∀ c ∈ (Text.trimEnd rest).head?, isOperatorChar c = false := by
    obtain ⟨after, -, he⟩ := Text.trimEnd_append_blanks rest
    intro c hc
    refine hrest c ?_
    rw [← he, List.head?_append, hc]
    rfl
  have hsplit := split_parts hfield hblanks hsymbol (isOperatorChar_of_mem_symbol op) hhead
  rw [parse, String.toList_ofList, htrim, hsplit, Text.trim_trimEnd]
  simp [hne, hdot, hsymbol, String.ofList_toList, Operator.ofSymbol?_symbol, Text.trim_ne_nil hvalue]

theorem parse_blanks [Pattern.Engine] {before : List Char} (hb : before.all Text.isBlank = true) (cs : List Char) :
    parse (String.ofList (before ++ cs)) = parse (String.ofList cs) := by
  have htrim := @Text.trim_append_blanks before [] hb rfl cs
  rw [List.append_nil] at htrim
  rw [parse, parse, String.toList_ofList, String.toList_ofList, htrim]

end Scanning

/-! ## Written filters -/

/-- **A filter as it is written.**  The field holds no blank, dot or operator character, and the value begins and ends
with something that is not blank; it begins with an operator character only where blanks keep it from the operator. -/
@[ext] structure Written where
  before : List Char
  field : List Char
  behindField : List Char
  operator : Operator
  behindOperator : List Char
  value : List Char
  after : List Char
  blank : ∀ bs ∈ [before, behindField, behindOperator, after], ∀ c ∈ bs, Text.isBlank c = true
  field_ne_nil : field ≠ []
  field_plain : ∀ c ∈ field, isOperatorChar c = false ∧ Text.isBlank c = false ∧ c ≠ '.'
  trimmed : Text.Trimmed value
  apart : behindOperator = [] → ∀ c ∈ value.head?, isOperatorChar c = false

namespace Written

def rest (w : Written) : List Char :=
  w.behindOperator ++ (w.value ++ w.after)

def text (w : Written) : String :=
  String.ofList (w.before ++ (w.field ++ (w.behindField ++ (w.operator.symbol.toList ++ w.rest))))

def pattern (w : Written) : String :=
  String.ofList ((Quoted.unquote? w.value).getD w.value)

theorem head_rest (w : Written) : ∀ c ∈ w.rest.head?, isOperatorChar c = false := by
  intro c hc
  unfold rest at hc
  by_cases hb : w.behindOperator = []
  · obtain ⟨d, hd, -⟩ := w.trimmed.head
    rw [hb, List.nil_append, List.head?_append, hd, Option.some_or] at hc
    exact w.apart hb c (hd.trans hc)
  · obtain ⟨b, bs, hbs⟩ := List.exists_cons_of_ne_nil hb
    rw [hbs] at hc
    cases hc
    exact isOperatorChar_of_isBlank (w.blank w.behindOperator (by simp) c (by simp [hbs]))

theorem trim_rest (w : Written) : Text.trim w.rest = w.value := by
  have hbefore : w.behindOperator.all Text.isBlank = true :=
    List.all_eq_true.2 (w.blank w.behindOperator (by simp))
  have hafter : w.after.all Text.isBlank = true := List.all_eq_true.2 (w.blank w.after (by simp))
  exact Text.trimsTo_iff.1 ⟨_, _, rfl, hbefore, hafter, .inr w.trimmed⟩

theorem blanks (w : Written) : (∀ c ∈ w.before, Text.isBlank c = true) ∧
    (∀ c ∈ w.behindField, Text.isBlank c = true) ∧ (∀ c ∈ w.behindOperator, Text.isBlank c = true) ∧
    ∀ c ∈ w.after, Text.isBlank c = true := by
  have h := w.blank
  simp only [List.forall_mem_cons] at h
  exact ⟨h.1, h.2.1, h.2.2.1, h.2.2.2.1⟩

theorem head_field (w : Written) (rest : List Char) : ∀ c ∈ (w.field ++ rest).head?, Text.isBlank c = false := by
  obtain ⟨d, ds, hd⟩ := List.exists_cons_of_ne_nil w.field_ne_nil
  rintro c hc
  rw [hd] at hc
  cases hc
  exact (w.field_plain d (by simp [hd])).2.1

theorem head_value (w : Written) (rest : List Char) : ∀ c ∈ (w.value ++ rest).head?, Text.isBlank c = false := by
  obtain ⟨d, hd, hblank⟩ := w.trimmed.head
  rintro c hc
  rw [List.head?_append, hd] at hc
  cases hc
  exact hblank

theorem text_injective {w w' : Written} (h : w.text = w'.text) : w = w' := by
  obtain ⟨hbefore, hbehind, hoperator, hafter⟩ := w.blanks
  obtain ⟨hbefore', hbehind', hoperator', hafter'⟩ := w'.blanks
  have hplain : ∀ w : Written, ∀ c ∈ w.field, (!(isOperatorChar c || Text.isBlank c)) = true := fun w c hc => by
    simp [w.field_plain c hc]
  have hsymbol := isOperatorChar_of_mem_symbol
  have hcs := String.ofList_injective h
  -- from left to right: each part ends where the next one begins
  obtain ⟨h₁, hcs⟩ := scan_unique hcs hbefore (w.head_field _) hbefore' (w'.head_field _)
  obtain ⟨h₂, hcs⟩ := scan_unique hcs (hplain w) (ends_field hbehind (symbol_ne_nil _) (hsymbol _)) (hplain w')
    (ends_field hbehind' (symbol_ne_nil _) (hsymbol _))
  obtain ⟨h₃, hcs⟩ := scan_unique hcs hbehind (ends_blanks (symbol_ne_nil _) (hsymbol _)) hbehind'
    (ends_blanks (symbol_ne_nil _) (hsymbol _))
  obtain ⟨h₄, hcs⟩ := scan_unique hcs (hsymbol _) w.head_rest (hsymbol _) w'.head_rest
  obtain ⟨h₅, hcs⟩ := scan_unique hcs hoperator (w.head_value _) hoperator' (w'.head_value _)
  have h₆ : w.value = w'.value := by rw [← w.trim_rest, ← w'.trim_rest, rest, rest, h₅, hcs]
  have h₇ : w.after = w'.after := by rwa [h₆, List.append_cancel_left_eq] at hcs
  exact Written.ext h₁ h₂ h₃ (Operator.symbol_injective (String.toList_inj.1 h₄)) h₅ h₆ h₇

/-- **A written filter is read** as its field, its operator and what its value stands for. -/
theorem parse_text [Pattern.Engine] (w : Written) : parse w.text =
    Predicate.ofScalar (String.ofList w.field) w.operator (literal w.operator w.value) := by
  obtain ⟨hbefore, hbehind, -, -⟩ := w.blanks
  obtain ⟨c, hc, hblank⟩ := w.trimmed.head
  have hvalue : ∃ c ∈ w.rest, Text.isBlank c = false :=
    ⟨c, by simp [rest, List.mem_of_mem_head? hc], hblank⟩
  have hfield : ∀ c ∈ w.field, isOperatorChar c = false ∧ Text.isBlank c = false := fun c hc =>
    ⟨(w.field_plain c hc).1, (w.field_plain c hc).2.1⟩
  have hdot : '.' ∉ w.field := fun hc => (w.field_plain _ hc).2.2 rfl
  rw [text, parse_blanks (List.all_eq_true.2 hbefore),
    parse_parts w.operator w.field_ne_nil hfield hdot hbehind w.head_rest hvalue, trim_rest]

end Written

/-! ## Texts that are written filters -/

/-- **What the cuts of a text leave**: the parts, and blanks that no part begins or ends with. -/
theorem split_cuts (cs : List Char) : ∃ behindField behindOperator after,
    cs = (split cs).1 ++ (behindField ++ ((split cs).2.1 ++ (behindOperator ++ ((split cs).2.2 ++ after)))) ∧
    (∀ bs ∈ [behindField, behindOperator, after], ∀ c ∈ bs, Text.isBlank c = true) ∧
    (∀ c ∈ (split cs).1, isOperatorChar c = false ∧ Text.isBlank c = false) ∧
    ((split cs).2.2 = [] ∨ Text.Trimmed (split cs).2.2) ∧
    (behindOperator = [] → ∀ c ∈ (split cs).2.2.head?, isOperatorChar c = false) := by
  unfold split
  dsimp only
  generalize hfield : cs.takeWhile (fun c => !(isOperatorChar c || Text.isBlank c)) = field
  generalize hbehind : cs.dropWhile (fun c => !(isOperatorChar c || Text.isBlank c)) = behind
  generalize hrest : (Text.trimStart behind).dropWhile isOperatorChar = rest
  obtain ⟨behindOperator, after, hcut, hb, ha, htrimmed⟩ := Text.trimsTo_trim rest
  refine ⟨behind.takeWhile Text.isBlank, behindOperator, after, ?_, ?_, ?_, htrimmed, ?_⟩
  · rw [← hcut, ← hrest, List.takeWhile_append_dropWhile, Text.trimStart, List.takeWhile_append_dropWhile, ← hfield,
      ← hbehind, List.takeWhile_append_dropWhile]
  · simp only [List.forall_mem_cons]
    exact ⟨List.all_eq_true.1 List.all_takeWhile, List.all_eq_true.1 hb, List.all_eq_true.1 ha, List.forall_mem_nil _⟩
  · intro c hc
    have := List.all_eq_true.1 (hfield ▸ List.all_takeWhile) c hc
    simpa using this
  · rintro rfl c hc
    have hhead := List.head?_dropWhile_not isOperatorChar (Text.trimStart behind)
    rw [hrest, hcut, List.nil_append, List.head?_append, Option.mem_def.1 hc] at hhead
    simpa using hhead

variable [Pattern.Engine]

theorem exists_written {text : String} (h : ∀ fault, parse text ≠ .error (.malformed fault)) :
    ∃ w : Written, w.text = text := by
  obtain ⟨before, after, htext, hbefore, hafter, -⟩ := Text.trimsTo_trim text.toList
  obtain ⟨behindField, behindOperator, behind, hcs, hblank, hplain, htrimmed, hapart⟩ :=
    split_cuts (Text.trim text.toList)
  unfold parse at h
  dsimp only at h
  generalize Text.trim text.toList = cs at *
  generalize (split cs).1 = field at *
  generalize (split cs).2.1 = symbol at *
  generalize (split cs).2.2 = value at *
  split at h
  · exact absurd rfl (h _)
  rename_i hfield
  split at h
  · exact absurd rfl (h _)
  rename_i hdot
  split at h
  · exact absurd rfl (h _)
  split at h
  · exact absurd rfl (h _)
  rename_i op hop
  split at h
  · exact absurd rfl (h _)
  rename_i hvalue
  have hsymbol : op.symbol.toList = symbol := by rw [Operator.symbol_of_ofSymbol? hop, String.toList_ofList]
  refine ⟨⟨before, field, behindField, op, behindOperator, value, behind ++ after, ?_, by simpa using hfield, ?_,
    htrimmed.resolve_left (by simpa using hvalue), hapart⟩, ?_⟩
  · simp only [List.forall_mem_cons] at hblank ⊢
    refine ⟨List.all_eq_true.1 hbefore, hblank.1, hblank.2.1, ?_, List.forall_mem_nil _⟩
    intro c hc
    rcases List.mem_append.1 hc with hc | hc
    · exact hblank.2.2.1 c hc
    · exact List.all_eq_true.1 hafter c hc
  · intro c hc
    refine ⟨(hplain c hc).1, (hplain c hc).2, ?_⟩
    rintro rfl
    exact hdot (by simpa using hc)
  · rw [Written.text, Written.rest, ← String.toList_inj, String.toList_ofList, htext, hcs, hsymbol]
    simp only [List.append_assoc]

theorem parse_eq_malformed_iff {text : String} :
    (∃ fault, parse text = .error (.malformed fault)) ↔ ¬∃ w : Written, w.text = text := by
  constructor
  · rintro ⟨fault, h⟩ ⟨w, rfl⟩
    rw [w.parse_text] at h
    exact Predicate.ofScalar_ne_malformed fault h
  · intro h
    by_cases hf : ∃ fault, parse text = .error (.malformed fault)
    · exact hf
    · exact absurd (exists_written fun fault hfault => hf ⟨fault, hfault⟩) h

/-- **A text is a written filter** where it has a predicate, or would have one if its pattern were one. -/
theorem exists_written_iff {text : String} : (∃ w : Written, w.text = text) ↔
    (∃ p, parse text = .ok p) ∨ ∃ pattern, parse text = .error (.invalidPattern pattern) := by
  have hfault := @parse_eq_malformed_iff _ text
  cases h : parse text with
  | ok p => simpa [h] using hfault
  | error e => cases e <;> simpa [h] using hfault

theorem parse_eq_invalidPattern_iff {text pattern : String} : parse text = .error (.invalidPattern pattern) ↔
    ∃ w : Written, w.text = text ∧ w.operator = .search ∧ pattern = w.pattern ∧
      Pattern.compile? false pattern = none := by
  constructor
  · intro h
    obtain ⟨w, rfl⟩ := exists_written_iff.2 (.inr ⟨pattern, h⟩)
    rw [w.parse_text] at h
    obtain ⟨hop, rfl, hnone⟩ := Predicate.ofScalar_eq_invalidPattern_iff.1 h
    rw [hop] at hnone ⊢
    exact ⟨w, rfl, hop, rfl, hnone⟩
  · rintro ⟨w, rfl, hop, rfl, hnone⟩
    rw [w.parse_text, hop]
    exact Predicate.ofScalar_eq_invalidPattern_iff.2 ⟨rfl, rfl, hnone⟩

/-- **Filters are read as they are written.**  A written filter can be taken apart in one way.  It is read as the
predicate of its field, its operator and its value: what the value is typed as, or, for a search, its text without
quotes.  Whatever is no written filter has a fault, and nothing else has; a search whose text is no pattern is refused
for that.  The blanks of a written filter do not count, and its operator is the one it is written with. -/
theorem parse_accepts_written :
    (∀ w w' : Written, w.text = w'.text → w = w') ∧
    (∀ w : Written, w.operator ≠ .search →
      parse w.text = Predicate.ofValue (String.ofList w.field) w.operator (.scalar (.ofText w.value))) ∧
    (∀ w : Written, w.operator = .search →
      parse w.text = Predicate.ofValue (String.ofList w.field) .search (.string w.pattern)) ∧
    (∀ text, (∃ w : Written, w.text = text) ↔
      (∃ p, parse text = .ok p) ∨ ∃ pattern, parse text = .error (.invalidPattern pattern)) ∧
    (∀ text pattern, parse text = .error (.invalidPattern pattern) ↔
      ∃ w : Written, w.text = text ∧ w.operator = .search ∧ pattern = w.pattern ∧
        Pattern.compile? false pattern = none) ∧
    (∀ text, (¬∃ w : Written, w.text = text) ↔ ∃ fault, parse text = .error (.malformed fault)) ∧
    (∀ w w' : Written, w.field = w'.field → w.operator = w'.operator → w.value = w'.value →
      parse w.text = parse w'.text) ∧
    ∀ (w : Written) (p : Predicate), parse w.text = .ok p →
      p.field = String.ofList w.field ∧ p.operator = w.operator ∧ p.literal = literal w.operator w.value := by
  refine ⟨fun w w' => Written.text_injective, fun w hop => ?_, fun w hop => ?_, fun text => exists_written_iff,
    fun text pattern => parse_eq_invalidPattern_iff, fun text => parse_eq_malformed_iff.symm,
    fun w w' hfield hop hvalue => ?_, fun w p h => ?_⟩
  · have hliteral : literal w.operator w.value = .ofText w.value := by
      cases hop' : w.operator with
      | search => exact absurd hop' hop
      | _ => rfl
    rw [w.parse_text, hliteral]
    rfl
  · rw [w.parse_text, hop]
    rfl
  · rw [w.parse_text, w'.parse_text, hfield, hop, hvalue]
  · rw [w.parse_text] at h
    exact Predicate.ofScalar_eq_ok h

end Filter
end DocQuery
