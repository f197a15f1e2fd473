import DocQuery.Pattern.Parser
import DocQuery.Decode
import DocQuery.Filter.Parser
import DocQuery.Proofs.Scalar.Writing
import DocQuery.Proofs.Yaml.Reading
/-!
# Where quoted text ends

A quoted text is complete if the first quote that closes it is its last character, and then it is the quoted text of one
string (`complete_iff`).  The quotes come off of every text that begins and ends with the same quote, complete or not:
`unquote?` looks at the two ends of a text only (`exists_unquote?_iff`).
-/
namespace DocQuery.Quoted

/-! ## Two notions of quoted text -/

/-- **A text that begins and ends with the same quote.** -/
def Enclosed (t : List Char) : Prop :=
  ∃ quote inner, (quote = '"' ∨ quote = '\'') ∧ t = quote :: inner ++ [quote]

/-- The text behind the first quote that closes double quotes; a backslash takes the next character with it. -/
def behindDouble : List Char → Option (List Char)
  | [] => none
  | '\\' :: _ :: cs => behindDouble cs
  | '"' :: cs => some cs
  | _ :: cs => behindDouble cs

/-- The same for single quotes, where a doubled quote does not close. -/
def behindSingle : List Char → Option (List Char)
  | [] => none
  | '\'' :: '\'' :: cs => behindSingle cs
  | '\'' :: cs => some cs
  | _ :: cs => behindSingle cs

/-- The text behind the quoted text that a text begins with, if it begins with a quote that is closed. -/
def behind? : List Char → Option (List Char)
  | '"' :: cs => behindDouble cs
  | '\'' :: cs => behindSingle cs
  | _ => none

/-- **A text that is one quoted text from its first character to its last.** -/
def Complete (t : List Char) : Prop :=
  behind? t = some []

instance (t : List Char) : Decidable (Complete t) :=
  inferInstanceAs (Decidable (_ = _))

inductive Between : List Char → List Char → Prop
  | nil : Between [] []
  | plain {c : Char} {s t : List Char} (hquote : c ≠ '"') (hescape : c ≠ '\\') (h : Between s t) :
    Between (c :: s) (c :: t)
  | escape (e : Char) {s t : List Char} (h : Between s t) : Between (unescaped e ++ s) ('\\' :: e :: t)

/-- **A quoted text, and the string that it stands for.** -/
inductive StandsFor : List Char → List Char → Prop
  | double {s t : List Char} (h : Between s t) : StandsFor s ('"' :: t ++ ['"'])
  | single (s : List Char) : StandsFor s ('\'' :: doubled s ++ ['\''])

variable {s t cs rest : List Char}

/-! ## Complete texts -/

theorem behindDouble_between (h : Between s t) (rest : List Char) : behindDouble (t ++ '"' :: rest) = some rest := by
  induction h with
  | nil => rfl
  | plain hquote hescape _ ih =>
    rw [List.cons_append, behindDouble]
    · exact ih
    · exact fun _ _ h => absurd h hescape
    · exact hquote
  | escape e _ ih => exact ih

theorem exists_between : ∀ {cs : List Char}, behindDouble cs = some rest →
    ∃ s t, Between s t ∧ cs = t ++ '"' :: rest := by
  intro cs
  fun_induction behindDouble cs with
  | case1 => nofun
  | case2 e cs ih =>
    intro h
    obtain ⟨s, t, hst, rfl⟩ := ih h
    exact ⟨_, _, .escape e hst, rfl⟩
  | case3 cs =>
    rintro ⟨⟩
    exact ⟨[], [], .nil, rfl⟩
  | case4 c cs hescape hquote ih =>
    intro h
    obtain ⟨s, t, hst, rfl⟩ := ih h
    -- a backslash has a character behind it, as a quote follows
    obtain ⟨d, ds, hd⟩ := List.exists_cons_of_ne_nil (by simp : t ++ '"' :: rest ≠ [])
    exact ⟨_, _, .plain hquote (fun hc => hescape d ds hc hd) hst, rfl⟩

theorem behindSingle_doubled (hrest : rest.head? ≠ some '\'') : ∀ s : List Char,
    behindSingle (doubled s ++ '\'' :: rest) = some rest
  | [] => by
    cases rest with
    | nil => rfl
    | cons c rest =>
      have hc : c ≠ '\'' := by simpa using hrest
      simp [doubled, behindSingle, hc]
  | c :: s => by
    have ih := behindSingle_doubled hrest s
    by_cases hc : c = '\''
    · simpa [doubled, hc, behindSingle] using ih
    · simpa [doubled, hc, behindSingle] using ih

theorem exists_doubled : ∀ {cs : List Char}, behindSingle cs = some rest → ∃ s, cs = doubled s ++ '\'' :: rest := by
  intro cs
  fun_induction behindSingle cs with
  | case1 => nofun
  | case2 cs ih =>
    intro h
    obtain ⟨s, rfl⟩ := ih h
    exact ⟨'\'' :: s, rfl⟩
  | case3 cs _ =>
    rintro ⟨⟩
    exact ⟨[], rfl⟩
  | case4 c cs _ hc ih =>
    intro h
    obtain ⟨s, rfl⟩ := ih h
    exact ⟨c :: s, by simp [doubled, show c ≠ '\'' from hc]⟩

/-- **A complete text stands for a string**, and nothing else does. -/
theorem complete_iff : Complete t ↔ ∃ s, StandsFor s t := by
  constructor
  · intro h
    unfold Complete behind? at h
    split at h
    · obtain ⟨s, t, hst, rfl⟩ := exists_between h
      exact ⟨s, .double hst⟩
    · obtain ⟨s, rfl⟩ := exists_doubled h
      exact ⟨s, .single s⟩
    · cases h
  · rintro ⟨s, h⟩
    cases h with
    | double h => exact behindDouble_between h []
    | single => exact behindSingle_doubled (by simp) s

/-! ## Taking the quotes off -/

theorem unescape_between (h : Between s t) : unescape t = s := by
  induction h with
  | nil => rfl
  | plain _ hescape _ ih => simp [unescape, hescape, ih]
  | escape e _ ih => simp [unescape, ih]

theorem unquote?_of_standsFor (h : StandsFor s t) : unquote? t = some s := by
  cases h with
  | double h => simp [unquote?, unescape_between h]
  | single => simp [unquote?, undouble_doubled]

theorem standsFor_iff : StandsFor s t ↔ Complete t ∧ unquote? t = some s := by
  constructor
  · intro h
    exact ⟨complete_iff.2 ⟨s, h⟩, unquote?_of_standsFor h⟩
  · rintro ⟨hc, hs⟩
    obtain ⟨s', h⟩ := complete_iff.1 hc
    have hs' := unquote?_of_standsFor h
    rw [hs] at hs'
    cases hs'
    exact h

/-- **The quotes come off of a text where it begins and ends with the same quote.** -/
theorem exists_unquote?_iff : (∃ s, unquote? t = some s) ↔ Enclosed t := by
  constructor
  · rintro ⟨s, h⟩
    unfold unquote? at h
    split at h
    · cases h
    rename_i quote cs
    split at h
    · rename_i hlast
      obtain ⟨inner, rfl⟩ := List.getLast?_eq_some_iff.1 hlast
      split at h
      · rename_i hquote
        exact ⟨quote, inner, .inr hquote, rfl⟩
      split at h
      · rename_i hquote
        exact ⟨quote, inner, .inl hquote, rfl⟩
      · cases h
    · cases h
  · rintro ⟨quote, inner, rfl | rfl, rfl⟩
    · exact ⟨unescape inner, by simp [unquote?]⟩
    · exact ⟨undouble inner, by simp [unquote?]⟩

theorem unquote?_eq_none_iff : unquote? t = none ↔ ¬Enclosed t := by
  rw [← exists_unquote?_iff, Option.eq_none_iff_forall_ne_some, not_exists]

theorem Enclosed.trimmed (h : Enclosed t) : Text.Trimmed t := by
  obtain ⟨quote, inner, rfl | rfl, rfl⟩ := h
  · exact .enclose rfl rfl inner
  · exact .enclose rfl rfl inner

theorem read_of_unquote? (h : unquote? t = some s) : Scalar.ofText t = .string (String.ofList s) ∧
    (∀ op, Filter.literal op t = .string (String.ofList s)) ∧ Yaml.keyName t = s := by
  have hscalar : Scalar.ofText t = .string (String.ofList s) := by
    rw [Scalar.ofText, (exists_unquote?_iff.1 ⟨s, h⟩).trimmed.trim_eq, Scalar.ofTrimmed, h]
  refine ⟨hscalar, fun op => ?_, ?_⟩
  · cases op with
    | search => rw [Filter.literal, h, Option.getD_some]
    | _ => exact hscalar
  · rw [Yaml.keyName, h, Option.getD_some]

/-! ## Texts that are not complete -/

theorem exists_append_behind? (h : behind? t = some rest) : ∃ c front, t = c :: front ++ rest := by
  unfold behind? at h
  split at h
  · obtain ⟨s, t, -, rfl⟩ := exists_between h
    exact ⟨'"', t ++ ['"'], by simp⟩
  · obtain ⟨s, rfl⟩ := exists_doubled h
    exact ⟨'\'', doubled s ++ ['\''], by simp⟩
  · cases h

/-- **A text between quotes that is not complete** is not closed by its last quote, which an escape or another quote takes,
or is closed before, and what stands behind ends with a quote as well. -/
theorem not_complete_iff (h : Enclosed t) : ¬Complete t ↔
    behind? t = none ∨ ∃ quote rest, t.head? = some quote ∧ behind? t = some (rest ++ [quote]) := by
  obtain ⟨quote, inner, -, rfl⟩ := h
  unfold Complete
  cases hb : behind? (quote :: inner ++ [quote]) with
  | none => simp
  | some r =>
    constructor
    · intro hc
      have hne : r ≠ [] := by
        rintro rfl
        exact hc rfl
      obtain ⟨_, _, hr⟩ := exists_append_behind? hb
      have hlast := congrArg List.getLast? hr
      rw [List.getLast?_concat, List.getLast?_append, List.getLast?_eq_some_getLast hne, Option.some_or] at hlast
      obtain ⟨rest, rfl⟩ := List.getLast?_eq_some_iff.1 ((List.getLast?_eq_some_getLast hne).trans hlast.symm)
      exact .inr ⟨quote, rest, rfl, rfl⟩
    · rintro (hnone | ⟨_, rest, -, hrest⟩) hc
      · cases hnone
      · rw [hrest] at hc
        simp at hc

/-- **What quotes come off of.**  A text loses its quotes if it begins and ends with the same one.  Complete texts are
among these, and lose them for the string they stand for.  The others, which are no quoted text or more than one, lose
them all the same, and are strings without them as scalars, as literals of filters and as keys. -/
theorem unquoted_texts (t : List Char) :
    ((∃ s, unquote? t = some s) ↔ Enclosed t) ∧ (Complete t ↔ ∃ s, StandsFor s t) ∧
    (∀ s, StandsFor s t ↔ Complete t ∧ unquote? t = some s) ∧
    ((∃ s, unquote? t = some s) ∧ ¬Complete t ↔
      Enclosed t ∧ (behind? t = none ∨ ∃ quote rest, t.head? = some quote ∧ behind? t = some (rest ++ [quote]))) ∧
    ∀ s, unquote? t = some s → Scalar.ofText t = .string (String.ofList s) ∧
      (∀ op, Filter.literal op t = .string (String.ofList s)) ∧ Yaml.keyName t = s := by
  refine ⟨exists_unquote?_iff, complete_iff, fun s => standsFor_iff, ?_, fun s => read_of_unquote?⟩
  rw [exists_unquote?_iff]
  exact and_congr_right not_complete_iff

/-- Two quoted words with another between them are taken for one quoted text, and so is a text whose last quote is
escaped, or is half of a doubled one. -/
theorem unquoted_incomplete :
    (¬Complete "\"a\" and \"b\"".toList ∧ unquote? "\"a\" and \"b\"".toList = some "a\" and \"b".toList) ∧
    (¬Complete "\"a\\\"".toList ∧ unquote? "\"a\\\"".toList = some "a\\".toList) ∧
    (¬Complete "'a''".toList ∧ unquote? "'a''".toList = some "a'".toList) ∧
    Scalar.ofText "\"a\" and \"b\"".toList = .string "a\" and \"b" ∧
    (Filter.parse "k == \"a\" and \"b\"").map Predicate.literal = .ok (.string "a\" and \"b") ∧
    decodeYaml "\"a\" and \"b\": 1" = .ok (.object [("a\" and \"b", .integer 1)]) := by
  refine ⟨⟨by decide, by decide⟩, ⟨by decide, by decide⟩, ⟨by decide, by decide⟩, by decide, by rfl, by rfl⟩

end DocQuery.Quoted
