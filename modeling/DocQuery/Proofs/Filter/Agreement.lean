import DocQuery.Decode
import DocQuery.Pattern.Parser
import DocQuery.Proofs.Filter.Grammar
import DocQuery.Proofs.Yaml.BareKeys
/-!
# Documents and filters agree on scalars

The same text stands for the same scalar behind the colon of an entry and behind the operator of a filter.  The two are
cut out of their lines in different ways (`Yaml.document_bareKey`, `Filter.parse_parts`), and what comes out is typed by
the same rules; a scalar from text is never a not-a-number, so it equals itself.
-/
namespace DocQuery

/-! ## The predicate -/

/-- **A scalar compared with itself** passes where equality does: not below or above itself, and compared by size only
if it is a number. -/
theorem Predicate.holds_self [Pattern.Engine] {x : Scalar} (hx : x ≠ .number (.float .nan)) (name : String)
    {op : Operator} (hop : op ≠ .search) :
    ∃ p, ofScalar name op x = .ok p ∧ p.field = name ∧ p.operator = op ∧ p.literal = x ∧
      (p.holds (.object [(name, .scalar x)]) = true ↔
        op = .equal ∨ (op = .greaterEqual ∨ op = .lessEqual) ∧ ∃ n, x = .number n) := by
  have hget : (Value.object [(name, .scalar x)]).get? name = some (.scalar x) := by simp [Value.get?]
  have hself := Scalar.eqv_self hx
  have hle : ∀ n, x = .number n → n.le n = true := by
    rintro n rfl
    exact Number.le_self fun hn => hx (congrArg Scalar.number hn)
  cases op with
  | search => exact absurd rfl hop
  | equal => exact ⟨_, rfl, rfl, rfl, rfl, by simp [holds, hget, accepts, Value.eqv, hself]⟩
  | notEqual => exact ⟨_, rfl, rfl, rfl, rfl, by simp [holds, hget, accepts, Value.eqv, hself]⟩
  | greater =>
    refine ⟨_, rfl, rfl, rfl, rfl, ?_⟩
    cases x <;> simp [holds, hget, accepts, Number.lt_self]
  | less =>
    refine ⟨_, rfl, rfl, rfl, rfl, ?_⟩
    cases x <;> simp [holds, hget, accepts, Number.lt_self]
  | greaterEqual =>
    refine ⟨_, rfl, rfl, rfl, rfl, ?_⟩
    cases x <;> simp [holds, hget, accepts, hle]
  | lessEqual =>
    refine ⟨_, rfl, rfl, rfl, rfl, ?_⟩
    cases x <;> simp [holds, hget, accepts, hle]

/-! ## Agreement -/

/-- **A name that needs no quotes in a document and ends at no operator in a filter.** -/
structure PlainName (cs : List Char) : Prop where
  ne_nil : cs ≠ []
  plain : ∀ c ∈ cs, Text.isBlank c = false ∧ c ∉ ['=', '!', '<', '>', '~', '.', ':', '#', '"', '\'']

namespace PlainName

variable {cs : List Char}

theorem bareKey (h : PlainName cs) : Yaml.BareKey cs where
  ne_nil := h.ne_nil
  plain c hc := by
    obtain ⟨hblank, hplain⟩ := h.plain c hc
    simp only [List.mem_cons, List.not_mem_nil, or_false, not_or] at hplain ⊢
    exact ⟨hblank, hplain.2.2.2.2.2.2⟩

theorem field (h : PlainName cs) : ∀ c ∈ cs, Filter.isOperatorChar c = false ∧ Text.isBlank c = false := by
  intro c hc
  obtain ⟨hblank, hplain⟩ := h.plain c hc
  simp only [List.mem_cons, List.not_mem_nil, or_false, not_or] at hplain
  simp [Filter.isOperatorChar, hplain, hblank]

theorem not_dotted (h : PlainName cs) : '.' ∉ cs := fun hmem => (h.plain '.' hmem).2 (by simp)

end PlainName

/-- **A scalar of a document and the same text in a filter agree.**  The document of one entry holds what the text is
typed as, and the filters that compare its field with that text succeed where a value does when it is compared with
itself: equality holds and its negation does not, and of the comparisons by size those that allow equality hold, for
numbers only. -/
theorem document_agrees_with_filter [Pattern.Engine] {name text : String} (hname : PlainName name.toList)
    (hline : '\n' ∉ text.toList) (hsign : '#' ∉ text.toList)
    (hblank : ∃ c ∈ text.toList, Text.isBlank c = false) :
    decodeYaml (name ++ ": " ++ text) = .ok (.object [(name, .scalar (.ofText text.toList))]) ∧
    ∀ op, op ≠ .search → ∃ p, Filter.parse (name ++ " " ++ op.symbol ++ " " ++ text) = .ok p ∧
      p.field = name ∧ p.operator = op ∧ p.literal = .ofText text.toList ∧
      (p.holds (.object [(name, .scalar (.ofText text.toList))]) = true ↔
        op = .equal ∨ (op = .greaterEqual ∨ op = .lessEqual) ∧ ∃ n, Scalar.ofText text.toList = .number n) := by
  refine ⟨?_, fun op hop => ?_⟩
  · have htext : (name ++ ": " ++ text).toList = name.toList ++ ':' :: ' ' :: text.toList := by
      simp [String.toList_append]
    rw [decodeYaml, htext, Yaml.document_bareKey hname.bareKey hsign hline hblank, String.ofList_toList]
  · have htext : name ++ " " ++ op.symbol ++ " " ++ text =
        String.ofList (name.toList ++ ([' '] ++ (op.symbol.toList ++ (' ' :: text.toList)))) := by
      rw [← String.toList_inj]
      simp [String.toList_append]
    have hvalue : ∃ c ∈ ' ' :: text.toList, Text.isBlank c = false := by
      obtain ⟨c, hc, hcb⟩ := hblank
      exact ⟨c, List.mem_cons_of_mem _ hc, hcb⟩
    have hliteral : Filter.literal op (Text.trim text.toList) = Scalar.ofText text.toList := by
      cases op with
      | search => exact absurd rfl hop
      | _ => exact Scalar.ofText_trim _
    rw [htext, Filter.parse_parts op hname.ne_nil hname.field hname.not_dotted (by simp [Text.isBlank])
      (by simp [Filter.isOperatorChar]) hvalue, String.ofList_toList, Text.trim_cons_blank rfl, hliteral]
    exact Predicate.holds_self (Scalar.ofText_ne_nan _) name hop

/-- A number among blanks of several kinds, under a name that begins like an item. -/
theorem document_agrees_with_filter_number :
    decodeYaml "-k: \u00a0-07\r" = .ok (.object [("-k", .integer (-7))]) ∧
    (∃ p, Filter.parse "-k >= \u00a0-07\r" = .ok p ∧ p.holds (.object [("-k", .integer (-7))]) = true) ∧
    ∃ p, Filter.parse "-k != \u00a0-07\r" = .ok p ∧ p.holds (.object [("-k", .integer (-7))]) = false := by
  obtain ⟨hdocument, hfilter⟩ := @document_agrees_with_filter _ "-k" "\u00a0-07\r"
    ⟨by simp, by simp [Text.isBlank]⟩ (by simp) (by simp) ⟨'7', by simp, rfl⟩
  have hx : Scalar.ofText "\u00a0-07\r".toList = .number (.integer (-7)) := by decide +kernel
  rw [hx] at hdocument hfilter
  obtain ⟨p, hp, -, -, -, hholds⟩ := hfilter .greaterEqual (by decide)
  obtain ⟨q, hq, -, -, -, hfails⟩ := hfilter .notEqual (by decide)
  refine ⟨hdocument, ⟨p, hp, hholds.2 (.inr ⟨.inl rfl, _, rfl⟩)⟩, q, hq, ?_⟩
  rw [← Bool.not_eq_true]
  exact fun h => by simpa using hfails.1 h

end DocQuery
