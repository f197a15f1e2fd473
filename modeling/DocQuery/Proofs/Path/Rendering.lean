import DocQuery.Proofs.Path.Grammar
import DocQuery.Proofs.Scalar.Writing
/-!
# Rendered paths

The text of a path spells it (`spells_render`), whatever the order of its segments, so reading the text gives the path
back.  A text that was read may have blanks inside brackets and zeros in front of a number, which rendering leaves out;
but it begins and ends like the rendered text, and so what was read can be rendered and read again.
-/
namespace DocQuery

/-- A segment that can be written: a name, or a position of at most sixty-four bits. -/
def Segment.Writable : Segment → Prop
  | .key name => Path.IsName name.toList
  | .index i => i < 2 ^ 64
  | .wildcard => True

namespace Path

/-- **A path that can be written**: each of its segments can, and its text does not begin or end with a blank. -/
structure WellFormed (path : Path) : Prop where
  segments : ∀ s ∈ path, s.Writable
  head : ∀ c ∈ (render path).head?, Text.isBlank c = false
  last : ∀ c ∈ (render path).getLast?, Text.isBlank c = false

/-! ## What is rendered is spelled -/

theorem means_toDigits {i : Nat} (hi : i < 2 ^ 64) : Means (Nat.toDigits 10 i) (.index i) := by
  have hdigit : ∀ d ∈ Nat.toDigits 10 i, d.isDigit = true := fun d hd => Scalar.isDigit_of_mem_toDigits hd
  have htrim : Text.Trimmed (Nat.toDigits 10 i) :=
    .of_all Nat.toDigits_ne_nil fun d hd => (Scalar.of_isDigit (hdigit d hd)).1
  have hmax : Nat.ofDigitChars 10 (Nat.toDigits 10 i) 0 < 2 ^ 64 := by rwa [Nat.ofDigitChars_ten_toDigits]
  have h := Means.index (Text.trimsTo_iff.2 htrim.trim_eq) Nat.toDigits_ne_nil hdigit hmax
  rwa [Nat.ofDigitChars_ten_toDigits] at h

theorem rest_renderRest : ∀ {ss : List Segment}, (∀ s ∈ ss, s.Writable) → Rest (renderRest ss) ss
  | [], _ => .nil
  | s :: ss, h => by
    have hs := h s List.mem_cons_self
    have ih := rest_renderRest fun s' hs' => h s' (List.mem_cons_of_mem s hs')
    cases s with
    | key name =>
      have := Rest.name hs ih
      rwa [String.ofList_toList] at this
    | index i =>
      have hclose : ']' ∉ Nat.toDigits 10 i := fun hc => absurd (Scalar.isDigit_of_mem_toDigits hc) (by decide)
      have := Rest.bracket hclose (means_toDigits hs) ih
      simpa [renderRest, Segment.text] using this
    | wildcard =>
      have hstar : Means ['*'] .wildcard := .wildcard (Text.trimsTo_iff.2 (Text.Trimmed.singleton rfl).trim_eq)
      exact Rest.bracket (by simp) hstar ih

theorem spells_render {path : Path} (h : ∀ s ∈ path, s.Writable) : Spells (render path) path := by
  have hrest := rest_renderRest h
  rw [spells_iff]
  cases path with
  | nil => exact .inr ⟨by simp [render], hrest⟩
  | cons s path =>
    cases s with
    | key name => exact .inl hrest
    | index i => exact .inr ⟨by simp [render, Segment.text], hrest⟩
    | wildcard => exact .inr ⟨by simp [render, Segment.text], hrest⟩

/-- **The text of a path is read as that path.** -/
theorem parse_text {path : Path} (h : path.WellFormed) : parse path.text = .ok path := by
  have htrim : Text.trim (render path) = render path := Text.trim_eq_self_iff.2 ⟨h.head, h.last⟩
  rw [parse_eq_ok_iff, text, String.toList_ofList, htrim]
  exact spells_render h.segments

/-! ## Rendered text -/

theorem renderRest_append : ∀ path ss : Path, renderRest (path ++ ss) = renderRest path ++ renderRest ss
  | [], ss => rfl
  | s :: path, ss => by
    have ih := renderRest_append path ss
    cases s <;> simp [renderRest, ih]

theorem trimmed_append_renderRest : ∀ {ss : List Segment} {t : List Char}, Text.Trimmed t →
    (∀ s ∈ ss, Text.Trimmed s.text) → Text.Trimmed (t ++ renderRest ss)
  | [], t, ht, _ => by rwa [renderRest, List.append_nil]
  | s :: ss, t, ht, h => by
    obtain ⟨dot, hdot⟩ : ∃ dot, renderRest (s :: ss) = dot ++ s.text ++ renderRest ss := by
      cases s with
      | key name => exact ⟨['.'], rfl⟩
      | index i => exact ⟨[], rfl⟩
      | wildcard => exact ⟨[], rfl⟩
    have hs := ht.append dot (h s List.mem_cons_self)
    have ih := trimmed_append_renderRest hs fun s' hs' => h s' (List.mem_cons_of_mem s hs')
    rwa [hdot, ← List.append_assoc]

theorem wellFormed_of_trimmed {path : Path} (h : ∀ s ∈ path, s.Writable ∧ Text.Trimmed s.text) : path.WellFormed := by
  have hends : Text.trim (render path) = render path := by
    cases path with
    | nil => rfl
    | cons s path =>
      obtain ⟨hs, hpath⟩ := List.forall_mem_cons.1 h
      exact (trimmed_append_renderRest hs.2 fun s' hs' => (hpath s' hs').2).trim_eq
  obtain ⟨hhead, hlast⟩ := Text.trim_eq_self_iff.1 hends
  exact ⟨fun s hs => (h s hs).1, hhead, hlast⟩

/-! ## What is read can be rendered -/

theorem writable_of_means {content : List Char} {s : Segment} (h : Means content s) : s.Writable := by
  cases h with
  | wildcard => trivial
  | index ht hne hd hmax => exact hmax

theorem writable_of_rest {t : List Char} {ss : List Segment} (h : Rest t ss) : ∀ s ∈ ss, s.Writable := by
  induction h with
  | nil => simp
  | bracket _ hm _ ih => exact List.forall_mem_cons.2 ⟨writable_of_means hm, ih⟩
  | name hname _ ih => exact List.forall_mem_cons.2 ⟨by rwa [Segment.Writable, String.toList_ofList], ih⟩

theorem writable_of_spells {t : List Char} {path : Path} (h : Spells t path) : ∀ s ∈ path, s.Writable :=
  (spells_iff.1 h).elim writable_of_rest fun h => writable_of_rest h.2

theorem exists_text_of_means {content : List Char} {s : Segment} (h : Means content s) :
    ∃ more, s.text = '[' :: (more ++ [']']) := by
  cases h with
  | wildcard => exact ⟨['*'], rfl⟩
  | index => exact ⟨_, rfl⟩

theorem Rest.ends {t : List Char} {ss : List Segment} (h : Rest t ss) :
    (renderRest ss).head? = t.head? ∧ (renderRest ss).getLast? = t.getLast? := by
  induction h with
  | nil => exact ⟨rfl, rfl⟩
  | @bracket content t s ss _ hm _ ih =>
    obtain ⟨more, hs⟩ := exists_text_of_means hm
    have hrender : renderRest (s :: ss) = '[' :: (more ++ ']' :: renderRest ss) := by
      cases s with
      | key name => cases hm
      | index i => simp [renderRest, hs]
      | wildcard => simp [renderRest, hs]
    simp [hrender, List.getLast?_cons, List.getLast?_append, ih.2]
  | @name name t ss _ _ ih =>
    simp [renderRest, List.getLast?_cons, List.getLast?_append, ih.2]

theorem ends_of_spells {t : List Char} {path : Path} (h : Spells t path) :
    (render path).head? = t.head? ∧ (render path).getLast? = t.getLast? := by
  rcases spells_iff.1 h with h | ⟨hdot, h⟩
  · obtain ⟨name, rest, ss, rfl, hname, hr, rfl⟩ := rest_dot.1 h
    have hlast : (renderRest ss).getLast? = rest.getLast? := hr.ends.2
    cases name with
    | nil => exact absurd rfl hname.1
    | cons c name => simp [render, Segment.text, List.getLast?_cons, List.getLast?_append, hlast]
  · have hrender : render path = renderRest path := by
      cases path with
      | nil => rfl
      | cons s path =>
        cases s with
        | key name =>
          cases h with
          | bracket _ hm _ => cases hm
          | name => exact absurd rfl hdot
        | index i => rfl
        | wildcard => rfl
    rw [hrender]
    exact h.ends

theorem wellFormed_of_parse {query : String} {path : Path} (h : parse query = .ok path) : path.WellFormed := by
  have hspells := parse_eq_ok_iff.1 h
  obtain ⟨hhead, hlast⟩ := ends_of_spells hspells
  have htrim : Text.trim (Text.trim query.toList) = Text.trim query.toList := by
    obtain ⟨-, -, -, -, -, hnil | htrimmed⟩ := Text.trimsTo_trim query.toList
    · rw [hnil]
      rfl
    · exact htrimmed.trim_eq
  obtain ⟨hblank, hblank'⟩ := Text.trim_eq_self_iff.1 htrim
  exact ⟨writable_of_spells hspells, hhead ▸ hblank, hlast ▸ hblank'⟩

/-- **Rendering and reading undo each other.**  The text of a path that can be written is read as that path, so different
paths have different texts; and every path that was read can be written, so its text is read as the first text was. -/
theorem parse_text_inverse :
    (∀ path : Path, path.WellFormed → parse path.text = .ok path) ∧
    (∀ path path' : Path, path.WellFormed → path'.WellFormed → path.text = path'.text → path = path') ∧
    ∀ (query : String) (path : Path), parse query = .ok path →
      path.WellFormed ∧ parse path.text = parse query := by
  refine ⟨fun path => parse_text, fun path path' h h' htext => ?_, fun query path h => ?_⟩
  · have hread := parse_text h
    rw [htext, parse_text h'] at hread
    exact (Except.ok.inj hread).symm
  · have hwf := wellFormed_of_parse h
    exact ⟨hwf, by rw [parse_text hwf, h]⟩

/-- A path of all kinds, in an unusual order and with keys that look like other segments, and a text of it with blanks
and zeros that rendering leaves out. -/
theorem parse_text_inverse_mixed : ∃ path : Path,
    path = [.wildcard, .index 7, .key "first name", .key "*", .key "12", .index 0] ∧ path.WellFormed ∧
    parse path.text = .ok path ∧ parse " [ * ][007].first name.*.12[0] " = .ok path ∧
    parse path.text = parse " [ * ][007].first name.*.12[0] " := by
  have hread : parse " [ * ][007].first name.*.12[0] " =
      .ok [.wildcard, .index 7, .key "first name", .key "*", .key "12", .index 0] := by rfl
  obtain ⟨hwf, hsame⟩ := parse_text_inverse.2.2 _ _ hread
  exact ⟨_, rfl, hwf, parse_text_inverse.1 _ hwf, hread, hsame⟩

end Path
end DocQuery
