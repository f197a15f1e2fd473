import DocQuery.Decode
import DocQuery.Proofs.Scalar.Typing
import DocQuery.Proofs.Yaml.BareKeys
import DocQuery.Proofs.Yaml.Noise
/-!
# Comments behind a value

A comment behind the value of an entry is cut off unless the value leaves a quote open (`decodeYaml_trailing_comment`).
The scanner for comments opens a quote wherever a comment could start, at the beginning of a value and behind any blank
in it (`openQuote_iff`), so a value that is not quoted itself can keep its comment: then the comment becomes a part of the
string that the entry holds.
-/
namespace DocQuery

/-! ## The sign in a scalar -/

namespace Quoted

variable {s t : List Char}

theorem sign_mem_unescaped {c : Char} : '#' ∈ unescaped c ↔ '#' = c := by
  unfold unescaped
  split <;> simp

theorem sign_mem_unescape (cs : List Char) : '#' ∈ unescape cs ↔ '#' ∈ cs := by
  fun_induction unescape cs with
  | case1 => rfl
  | case2 c cs ih => simp [sign_mem_unescaped, ih]
  | case3 c cs _ ih => simp [ih]

theorem sign_mem_undouble (cs : List Char) : '#' ∈ undouble cs ↔ '#' ∈ cs := by
  fun_induction undouble cs with
  | case1 => rfl
  | case2 cs ih => simp [ih]
  | case3 c cs _ ih => simp [ih]

theorem sign_mem_of_unquote? (h : unquote? t = some s) : '#' ∈ s ↔ '#' ∈ t := by
  obtain ⟨quote, inner, hquote, rfl⟩ := exists_unquote?_iff.1 ⟨s, h⟩
  rcases hquote with rfl | rfl
  · obtain rfl : unescape inner = s := by simpa [unquote?] using h
    simp [sign_mem_unescape]
  · obtain rfl : undouble inner = s := by simpa [unquote?] using h
    simp [sign_mem_undouble]

end Quoted

namespace Scalar

variable {cs text : List Char}

theorem WordText.sign_not_mem {v : Scalar} (h : WordText v cs) : '#' ∉ cs := by
  intro hmem
  have hwords : ∀ word ∈ ["true".toList, "false".toList, "null".toList, "none".toList], '#' ∉ word := by decide
  exact hwords _ (exists_wordText_iff.1 ⟨v, h⟩) (List.mem_map_of_mem (f := Char.toLower) hmem)

theorem sign_not_mem_of_number? {n : Number} (h : number? cs = some n) : '#' ∉ cs := by
  intro hmem
  have hnone : number? cs = none := number?_eq_none_iff.2 fun ⟨_, _, hdecimal⟩ => by
    have hnumeral := hdecimal.isNumeral '#' hmem
    cases hnumeral
  rw [h] at hnone
  cases hnone

/-- **Text with a sign in it is a string with a sign in it**, and no other text is. -/
theorem sign_mem_iff : '#' ∈ text ↔ ∃ t : String, ofText text = .string t ∧ '#' ∈ t.toList := by
  have htrim : '#' ∈ Text.trim text ↔ '#' ∈ text := Text.mem_trim_iff rfl
  rw [← htrim]
  cases hq : Quoted.unquote? (Text.trim text) with
  | some s =>
    have hstring : ofText text = .string (String.ofList s) := by rw [ofText, ofTrimmed, hq]
    simp [hstring, Quoted.sign_mem_of_unquote? hq]
  | none =>
    rcases ofText_cases (Quoted.unquote?_eq_none_iff.1 hq) with ⟨v, hv, ht⟩ | ⟨n, -, hn, ht⟩ | ⟨-, -, ht⟩
    · refine iff_of_false hv.sign_not_mem ?_
      rw [ht]
      rintro ⟨t, rfl, -⟩
      rcases hv.kind with ⟨b, hb⟩ | hb <;> cases hb
    · refine iff_of_false (sign_not_mem_of_number? hn) ?_
      rw [ht]
      rintro ⟨t, hstring, -⟩
      cases hstring
    · simp [ht]

end Scalar

/-! ## Open quotes -/

namespace Yaml

open Quoted (behindDouble behindSingle behind?)

/-- **A quote that is left open.**  A quote opens where it can start, at the beginning of a text and behind a blank, as
`fresh` says; behind the quote that closes it none can start at once. -/
inductive OpenQuote : Bool → List Char → Prop
  | unclosed {quote : Char} {cs : List Char} (hquote : quote = '"' ∨ quote = '\'') (h : behind? (quote :: cs) = none) :
    OpenQuote true (quote :: cs)
  | closed {quote : Char} {cs rest : List Char} (hbehind : behind? (quote :: cs) = some rest) (h : OpenQuote false rest) :
    OpenQuote true (quote :: cs)
  | skip {fresh : Bool} {c : Char} {cs : List Char} (hc : fresh = true → c ≠ '"' ∧ c ≠ '\'')
    (h : OpenQuote (Text.isBlank c) cs) : OpenQuote fresh (c :: cs)

variable {key text cs rest : List Char} {quote c : Char} {fresh : Bool}

theorem behind?_of_not_quote (hc : c ≠ '"' ∧ c ≠ '\'') : behind? (c :: cs) = none := by
  rw [behind?]
  · simpa using hc.1
  · simpa using hc.2

theorem openQuote_quote_iff (hquote : quote = '"' ∨ quote = '\'') :
    OpenQuote true (quote :: cs) ↔ ∀ rest, behind? (quote :: cs) = some rest → OpenQuote false rest := by
  constructor
  · intro h rest hrest
    cases h with
    | unclosed _ hnone =>
      rw [hnone] at hrest
      cases hrest
    | closed hbehind h =>
      rw [hbehind] at hrest
      cases hrest
      exact h
    | skip hc => exact absurd hquote (not_or.2 (hc rfl))
  · intro h
    cases hbehind : behind? (quote :: cs) with
    | none => exact .unclosed hquote hbehind
    | some rest => exact .closed hbehind (h rest hbehind)

theorem openQuote_skip_iff (hc : fresh = true → c ≠ '"' ∧ c ≠ '\'') :
    OpenQuote fresh (c :: cs) ↔ OpenQuote (Text.isBlank c) cs := by
  refine ⟨fun h => ?_, .skip hc⟩
  cases h with
  | unclosed hquote => exact absurd hquote (not_or.2 (hc rfl))
  | closed hbehind =>
    rw [behind?_of_not_quote (hc rfl)] at hbehind
    cases hbehind
  | skip _ h => exact h

theorem not_openQuote (h : ∀ front quote back, cs = front ++ quote :: back → quote = '"' ∨ quote = '\'' →
    front.getLast?.elim fresh Text.isBlank = false) : ¬OpenQuote fresh cs := by
  intro ho
  induction ho with
  | unclosed hquote => cases h [] _ _ rfl hquote
  | closed hbehind =>
    rename_i quote cs rest _ _
    have hquote : quote = '"' ∨ quote = '\'' := by
      by_contra hnot
      rw [behind?_of_not_quote (not_or.1 hnot)] at hbehind
      cases hbehind
    cases h [] _ _ rfl hquote
  | skip _ _ ih =>
    rename_i fresh c cs _ _
    refine ih fun front quote back hcs hquote => ?_
    have hlast := h (c :: front) quote back (by rw [hcs, List.cons_append]) hquote
    rw [List.getLast?_cons] at hlast
    cases hfront : front.getLast? <;> simpa [hfront] using hlast

/-! ## The scanner in quotes -/

theorem isOutside_run_double (cs : List Char) : (Scan.double.run cs).isOutside =
    (behindDouble cs).any fun rest => ((Scan.outside false).run rest).isOutside := by
  fun_induction behindDouble cs with
  | case1 => rfl
  | case2 c cs ih => exact ih
  | case3 cs => rfl
  | case4 c cs hescape hc ih =>
    by_cases hb : c = '\\'
    · -- a backslash that nothing follows leaves the quotes open
      cases cs with
      | nil => simp [hb, behindDouble, Scan.run, Scan.next, Scan.isOutside]
      | cons d ds => exact absurd rfl (hescape d ds hb)
    · have hnext : Scan.double.next c = .double := by
        rw [Scan.next, if_neg hb, if_neg hc]
      rw [Scan.run_cons, hnext, ih]

theorem isOutside_run_singleQuote (h : rest.head? ≠ some '\'') :
    (Scan.singleQuote.run rest).isOutside = ((Scan.outside false).run rest).isOutside := by
  cases rest with
  | nil => rfl
  | cons c rest =>
    have hc : c ≠ '\'' := by simpa using h
    have hnext : Scan.singleQuote.next c = .outside (Text.isBlank c) := if_neg hc
    rw [Scan.run_cons, hnext, Scan.run_cons]
    rfl

theorem isOutside_run_single (cs : List Char) : (Scan.single.run cs).isOutside =
    (behindSingle cs).any fun rest => ((Scan.outside false).run rest).isOutside := by
  fun_induction behindSingle cs with
  | case1 => rfl
  | case2 cs ih => exact ih
  | case3 cs hcs =>
    refine isOutside_run_singleQuote ?_
    cases cs with
    | nil => simp
    | cons d ds =>
      rintro ⟨⟩
      exact hcs ds rfl
  | case4 c cs _ hc ih =>
    have hnext : Scan.single.next c = .single := if_neg hc
    rw [Scan.run_cons, hnext, ih]

theorem isOutside_run_quote (hquote : quote = '"' ∨ quote = '\'') (cs : List Char) :
    ((Scan.outside true).run (quote :: cs)).isOutside =
      (behind? (quote :: cs)).any fun rest => ((Scan.outside false).run rest).isOutside := by
  rcases hquote with rfl | rfl
  · exact isOutside_run_double cs
  · exact isOutside_run_single cs

/-- **The scanner is in quotes where a quote is left open.** -/
theorem openQuote_iff (fresh : Bool) (cs : List Char) (hsign : '#' ∉ cs) :
    OpenQuote fresh cs ↔ ((Scan.outside fresh).run cs).isOutside = false := by
  match cs with
  | [] => exact iff_of_false nofun nofun
  | c :: cs =>
    rw [List.mem_cons, not_or] at hsign
    by_cases hc : fresh = true → c ≠ '"' ∧ c ≠ '\''
    · have hnext : (Scan.outside fresh).next c = .outside (Text.isBlank c) :=
        Scan.next_outside fun hfresh => by simp [Ne.symm hsign.1, hc hfresh]
      rw [openQuote_skip_iff hc, openQuote_iff _ cs hsign.2, Scan.run_cons, hnext]
    · obtain ⟨rfl, hquote⟩ := Classical.not_imp.1 hc
      replace hquote : c = '"' ∨ c = '\'' := by
        by_contra hnot
        exact hquote (not_or.1 hnot)
      rw [openQuote_quote_iff hquote, isOutside_run_quote hquote]
      -- what stands behind a closed quote is no tail of the induction, but it is shorter
      cases hbehind : behind? (c :: cs) with
      | none => simp
      | some rest =>
        obtain ⟨d, front, hfront⟩ := Quoted.exists_append_behind? hbehind
        have hlength : rest.length < cs.length + 1 := by
          rw [← List.length_cons, hfront, List.length_append, List.length_cons]
          omega
        have hrest : '#' ∉ rest := by
          intro hmem
          have hmem' : '#' ∈ c :: cs := hfront ▸ List.mem_append_right (d :: front) hmem
          simp [hsign] at hmem'
        simpa using openQuote_iff false rest hrest
termination_by cs.length

/-! ## Comments behind values -/

variable {value comment : List Char}

theorem document_trailing_comment (hkey : BareKey key) (hline : '\n' ∉ value) (hsign : '#' ∉ value)
    (hcomment : '\n' ∉ comment) (h : ¬OpenQuote true value) :
    document (key ++ ':' :: ' ' :: (value ++ ' ' :: '#' :: ' ' :: comment)) = document (key ++ ':' :: ' ' :: value) := by
  have houtside : (Scan.run (.outside true) (key ++ ':' :: ' ' :: value)).isOutside = true := by
    rw [openQuote_iff true value hsign, Bool.not_eq_false] at h
    rw [List.append_cons, List.append_cons, List.append_assoc key, Scan.run_append]
    exact (run_bareKey hkey).symm ▸ h
  have hkeyline : '\n' ∉ key := hkey.not_mem (.inl rfl)
  have hentry : '\n' ∉ key ++ ':' :: ' ' :: value := by simp [hkeyline, hline]
  have hcommented : '\n' ∉ key ++ ':' :: ' ' :: value ++ ' ' :: '#' :: ' ' :: comment := by
    simp [hkeyline, hline, hcomment]
  have hread := LineReading.ofText_append_comment houtside (' ' :: comment)
  simpa using @document_line_congr [] _ _ [] nofun hcommented hentry .text hread

/-- **A comment behind a value is stored**, from its sign on, where the value leaves a quote open. -/
theorem document_stored_comment (hkey : BareKey key) (hline : '\n' ∉ value) (hsign : '#' ∉ value)
    (hcomment : '\n' ∉ comment) (h : OpenQuote true value) : ∃ (front : List Char) (stored : String),
      front <+: comment ∧ '#' ∈ stored.toList ∧
      Scalar.ofText (value ++ ' ' :: '#' :: ' ' :: front) = .string stored ∧
      document (key ++ ':' :: ' ' :: (value ++ ' ' :: '#' :: ' ' :: comment)) =
        .ok (.object [(String.ofList key, .string stored)]) := by
  obtain ⟨front, hfront, hkept⟩ := Scan.kept_open ((openQuote_iff true value hsign).1 h) comment
  have hrun : (Scan.outside true).run value ≠ .comment := Scan.run_ne_comment nofun hsign
  have huncommented : uncommented true (value ++ ' ' :: '#' :: ' ' :: comment) = value ++ ' ' :: '#' :: ' ' :: front := by
    rw [uncommented_eq_kept, Scan.kept_append, if_neg hrun, hkept]
  have hmem : '#' ∈ value ++ ' ' :: '#' :: ' ' :: front := by simp
  obtain ⟨stored, hstored, hsigned⟩ := Scalar.sign_mem_iff.1 hmem
  refine ⟨front, stored, hfront, hsigned, hstored, ?_⟩
  rw [document_uncommented hkey (by simp [hline, hcomment]) ⟨'#', huncommented ▸ hmem, rfl⟩, huncommented, hstored]
  rfl

end Yaml

open Yaml (BareKey OpenQuote)

/-- **A comment behind a value does not matter unless the value leaves a quote open.**  Then the value of the entry is a
string with the sign in it, which the text is with the beginning of its comment.  No quote is left open if each quote in
the value is directly behind a character that is not blank. -/
theorem decodeYaml_trailing_comment {key value comment : String} (hkey : BareKey key.toList)
    (hline : '\n' ∉ value.toList) (hsign : '#' ∉ value.toList) (hblank : ∃ c ∈ value.toList, Text.isBlank c = false)
    (hcomment : '\n' ∉ comment.toList) :
    decodeYaml (key ++ ": " ++ value) = .ok (.object [(key, .scalar (.ofText value.toList))]) ∧
    (decodeYaml (key ++ ": " ++ value ++ " # " ++ comment) = decodeYaml (key ++ ": " ++ value) ↔
      ¬OpenQuote true value.toList) ∧
    (OpenQuote true value.toList → ∃ front stored : String, front.toList <+: comment.toList ∧ '#' ∈ stored.toList ∧
      Scalar.ofText (value ++ " # " ++ front).toList = .string stored ∧
      decodeYaml (key ++ ": " ++ value ++ " # " ++ comment) = .ok (.object [(key, .string stored)])) ∧
    ((∀ front quote back, value.toList = front ++ quote :: back → quote = '"' ∨ quote = '\'' →
      ∃ c ∈ front.getLast?, Text.isBlank c = false) → ¬OpenQuote true value.toList) := by
  have hentry : (key ++ ": " ++ value).toList = key.toList ++ ':' :: ' ' :: value.toList := by simp
  have hcommented : (key ++ ": " ++ value ++ " # " ++ comment).toList =
      key.toList ++ ':' :: ' ' :: (value.toList ++ ' ' :: '#' :: ' ' :: comment.toList) := by simp
  have hplain : decodeYaml (key ++ ": " ++ value) = .ok (.object [(key, .scalar (.ofText value.toList))]) := by
    rw [decodeYaml, hentry, Yaml.document_bareKey hkey hsign hline hblank, String.ofList_toList]
  have hopen : OpenQuote true value.toList → ∃ front stored : String, front.toList <+: comment.toList ∧
      '#' ∈ stored.toList ∧ Scalar.ofText (value ++ " # " ++ front).toList = .string stored ∧
      decodeYaml (key ++ ": " ++ value ++ " # " ++ comment) = .ok (.object [(key, .string stored)]) := by
    intro h
    obtain ⟨front, stored, hfront, hmem, hstored, hdocument⟩ := Yaml.document_stored_comment hkey hline hsign hcomment h
    refine ⟨String.ofList front, stored, by simpa using hfront, hmem, by simpa using hstored, ?_⟩
    rw [decodeYaml, hcommented, hdocument, String.ofList_toList]
  refine ⟨hplain, ⟨fun heq h => ?_, fun h => ?_⟩, hopen, fun h => ?_⟩
  · -- the value without the comment has no sign
    obtain ⟨front, stored, -, hmem, -, hstored⟩ := hopen h
    rw [hstored, hplain] at heq
    simp only [Value.string, Except.ok.injEq, Value.object.injEq, List.cons.injEq, Prod.mk.injEq, Value.scalar.injEq,
      true_and, and_true] at heq
    exact hsign (Scalar.sign_mem_iff.2 ⟨stored, heq.symm, hmem⟩)
  · rw [decodeYaml, decodeYaml, hcommented, hentry, Yaml.document_trailing_comment hkey hline hsign hcomment h]
  · refine Yaml.not_openQuote fun front quote back hvalue hquote => ?_
    obtain ⟨c, hc, hcb⟩ := h front quote back hvalue hquote
    rw [Option.mem_def.1 hc]
    exact hcb

/-- An apostrophe in a word and a quote behind a number leave nothing open, whatever quotes are in the comment. -/
theorem decodeYaml_trailing_comment_inch :
    decodeYaml "k: it's 6\" # \"don't" = .ok (.object [("k", .string "it's 6\"")]) := by
  have hkey : BareKey "k".toList := ⟨by simp, by simp [Text.isBlank]⟩
  have hsign : '#' ∉ "it's 6\"".toList := by decide
  have hopen : ¬OpenQuote true "it's 6\"".toList := by
    rw [Yaml.openQuote_iff true _ hsign]
    decide
  have hcomment : '\n' ∉ "\"don't".toList := by decide
  obtain ⟨hplain, hcut, -⟩ := decodeYaml_trailing_comment hkey (by decide) hsign ⟨'i', by decide, rfl⟩ hcomment
  have hvalue : Scalar.ofText "it's 6\"".toList = .string "it's 6\"" := by decide
  rw [hvalue] at hplain
  exact (hcut.2 hopen).trans hplain

/-- A word behind an apostrophe leaves it open, and the comment is stored. -/
theorem trailing_comment_stored :
    decodeYaml "k: rock 'n roll" = .ok (.object [("k", .string "rock 'n roll")]) ∧
    decodeYaml "k: rock 'n roll # x" = .ok (.object [("k", .string "rock 'n roll # x")]) ∧
    decodeYaml "k: rock 'n roll # x" ≠ decodeYaml "k: rock 'n roll" := by
  have hplain : decodeYaml "k: rock 'n roll" = .ok (.object [("k", .string "rock 'n roll")]) := by rfl
  have hstored : decodeYaml "k: rock 'n roll # x" = .ok (.object [("k", .string "rock 'n roll # x")]) := by rfl
  refine ⟨hplain, hstored, ?_⟩
  rw [hplain, hstored]
  simp [Value.string]

end DocQuery
